/-
Module: Newtmq.Library.DirectoryTree
Purpose: A tree of directories and files without links: the walk through directories that exist, the making
  of one directory, and the making of all directories on a walk, one after the other.
Trusted boundary: none
Main exports: DirectoryTree.FileTree, FileTree.walk, FileTree.make, FileTree.makeWalk, FileTree.walk_eq, FileTree.Free,
  FileTree.makeStep_entry, FileTree.makeWalk_entry
-/
import Mathlib.Data.List.Induction
import Mathlib.Data.List.Infix
import Mathlib.Logic.Function.Basic
import Newtmq.Library.PathWalk

namespace DirectoryTree

open PathWalk (Step step resolve)

universe u

variable {α : Type u}

/-- What may be at a place. -/
inductive Entry where
  | directory
  | file
deriving DecidableEq, Repr

/-- What is at each place of a tree. The root is a directory, and whatever exists is in a directory. -/
structure FileTree (α : Type u) where
  entry : List α → Option Entry
  root : entry [] = some .directory
  parent : ∀ place name, entry (place ++ [name]) ≠ none → entry place = some .directory

/-- The directory in which there is a place that is not the root. -/
theorem FileTree.dropLast_directory (tree : FileTree α) {place : List α} (there : tree.entry place ≠ none) :
    tree.entry place.dropLast = some .directory := by
  rcases List.eq_nil_or_concat' place with rfl | ⟨front, name, rfl⟩
  · exact tree.root
  · rw [List.dropLast_concat]
    exact tree.parent front name there

/-! ### Making a directory -/

section Make

variable [DecidableEq α]

/-- Make a directory where there is nothing, in a directory that exists. -/
def FileTree.make (tree : FileTree α) (place : List α) : FileTree α :=
  if free : tree.entry place = none ∧ tree.entry place.dropLast = some .directory then
    { entry := Function.update tree.entry place (some .directory)
      root := by
        rw [Function.update_apply]
        split
        · rfl
        · exact tree.root
      parent := by
        intro front name there
        rw [Function.update_apply]
        split
        · rfl
        · rw [Function.update_apply] at there
          split at there
          · next same => rw [← same, List.dropLast_concat] at free; exact free.2
          · exact tree.parent front name there }
  else tree

theorem FileTree.make_taken {tree : FileTree α} {place : List α} (taken : tree.entry place ≠ none) :
    tree.make place = tree := by
  rw [make, dif_neg]
  exact fun free => taken free.1

theorem FileTree.make_entry {tree : FileTree α} {place : List α} (free : tree.entry place = none)
    (above : tree.entry place.dropLast = some .directory) (other : List α) :
    (tree.make place).entry other = if other = place then some .directory else tree.entry other := by
  rw [make, dif_pos ⟨free, above⟩]
  exact Function.update_apply ..

end Make

/-! ### Walking -/

/-- Where a walk ends, when all the places it comes through are directories. -/
def FileTree.walk (tree : FileTree α) : List α → List (Step α) → Option (List α)
  | place, [] => if tree.entry place = some .directory then some place else none
  | place, next :: steps =>
      if tree.entry place = some .directory then tree.walk (step place next) steps else none

theorem FileTree.walk_eq (tree : FileTree α) (steps : List (Step α)) {place : List α}
    (through : ∀ first, first <+: steps → tree.entry (resolve place first) = some .directory) :
    tree.walk place steps = some (resolve place steps) := by
  induction steps generalizing place with
  | nil => exact if_pos (through [] (List.nil_prefix))
  | cons next steps ih =>
      have here : tree.entry place = some .directory := through [] (List.nil_prefix)
      rw [walk, if_pos here]
      exact ih fun first before => through (next :: first) (List.cons_prefix_cons.mpr ⟨rfl, before⟩)

/-- No file is in the way of a walk. -/
def FileTree.Free (tree : FileTree α) (place : List α) (steps : List (Step α)) : Prop :=
  ∀ first, first <+: steps → tree.entry (resolve place first) ≠ some .file

theorem FileTree.Free.shorter {tree : FileTree α} {place : List α} {first steps : List (Step α)}
    (free : tree.Free place steps) (before : first <+: steps) : tree.Free place first :=
  fun _ inside => free _ (inside.trans before)

/-! ### Making the directories of a walk -/

section MakeWalk

variable [DecidableEq α]

/-- Make the entry that a step leads to. -/
def FileTree.makeStep (tree : FileTree α) (place : List α) : Step α → FileTree α
  | .down name => tree.make (place ++ [name])
  | .here | .up => tree

/-- Make the places of a walk, the first one first. -/
def FileTree.makeWalk (tree : FileTree α) (place : List α) : List (Step α) → FileTree α
  | [] => tree
  | next :: steps => (tree.makeStep place next).makeWalk (step place next) steps

theorem FileTree.makeWalk_concat (tree : FileTree α) (steps : List (Step α)) (last : Step α) (place : List α) :
    tree.makeWalk place (steps ++ [last]) =
      (tree.makeWalk place steps).makeStep (resolve place steps) last := by
  induction steps generalizing tree place with
  | nil => rfl
  | cons next steps ih => exact ih (tree.makeStep place next) (step place next)

/-- A step from a directory leads to a directory that was there or is made, and changes nothing else. -/
theorem FileTree.makeStep_entry {tree : FileTree α} {place : List α} {next : Step α}
    (here : tree.entry place = some .directory) (free : tree.entry (step place next) ≠ some .file)
    (other : List α) :
    (tree.makeStep place next).entry other =
      if other = step place next then some .directory else tree.entry other := by
  have unchanged : tree.entry (step place next) = some .directory →
      tree.entry other = if other = step place next then some .directory else tree.entry other := by
    intro there
    split
    · next same => rw [same, there]
    · rfl
  cases next with
  | here => exact unchanged here
  | up => exact unchanged (tree.dropLast_directory (by rw [here]; simp))
  | down name =>
      cases there : tree.entry (place ++ [name]) with
      | none =>
          refine tree.make_entry there ?_ other
          rwa [List.dropLast_concat]
      | some found =>
          have taken : tree.entry (place ++ [name]) ≠ none := by rw [there]; simp
          rw [makeStep, tree.make_taken taken]
          refine unchanged ?_
          cases found with
          | directory => exact there
          | file => exact absurd there free

/-- After the walk each of its places is a directory. -/
theorem FileTree.makeWalk_entry {tree : FileTree α} {place : List α} {steps : List (Step α)}
    (here : tree.entry place = some .directory) (free : tree.Free place steps) :
    (∀ first, first <+: steps → (tree.makeWalk place steps).entry (resolve place first) = some .directory) ∧
      ∀ other, (∀ first, first <+: steps → other ≠ resolve place first) →
        (tree.makeWalk place steps).entry other = tree.entry other := by
  induction steps using List.reverseRecOn with
  | nil =>
      refine ⟨fun first before => ?_, fun _ _ => rfl⟩
      rw [List.prefix_nil.mp before]
      exact here
  | append_singleton steps last ih =>
      obtain ⟨made, same⟩ := ih (free.shorter (List.prefix_append steps [last]))
      have there := made steps (List.prefix_refl steps)
      have arrives : resolve place (steps ++ [last]) = step (resolve place steps) last := by
        rw [PathWalk.resolve_append]
        rfl
      have passable : (tree.makeWalk place steps).entry (step (resolve place steps) last) ≠ some .file := by
        rw [← arrives]
        by_cases old : ∃ first, first <+: steps ∧ resolve place (steps ++ [last]) = resolve place first
        · obtain ⟨first, before, equal⟩ := old
          rw [equal, made first before]
          simp
        · rw [same _ fun first before equal => old ⟨first, before, equal⟩]
          exact free _ (List.prefix_refl _)
      have entries := FileTree.makeStep_entry there passable
      rw [FileTree.makeWalk_concat]
      constructor
      · intro first before
        rw [entries]
        split
        · rfl
        · next other =>
            rcases List.prefix_concat_iff.mp before with rfl | earlier
            · exact absurd arrives other
            · exact made first earlier
      · intro other apart
        rw [entries, if_neg]
        · exact same other fun first before => apart first (before.trans (List.prefix_append steps [last]))
        · rw [← arrives]
          exact apart _ (List.prefix_refl _)

end MakeWalk

end DirectoryTree
