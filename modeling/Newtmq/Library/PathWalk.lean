/-
Module: Newtmq.Library.PathWalk
Purpose: Paths in a tree of directories without links: a walk of steps up and down from a directory, and
  the relative path that a walk amounts to, wherever it begins.
Trusted boundary: none
Main exports: PathWalk.Step, PathWalk.resolve, PathWalk.Relative, PathWalk.relative,
  PathWalk.resolve_eq, PathWalk.Relative.returns_iff, PathWalk.Relative.walk_eq
-/
import Mathlib.Data.List.Infix

namespace PathWalk

universe u

variable {α : Type u}

/-- A step of a walk: stay, go to the directory above, or to an entry. -/
inductive Step (α : Type u) where
  | here
  | up
  | down (name : α)
deriving DecidableEq, Repr

/-- A directory is the list of the names that lead to it from the root. The directory above the root is
the root. -/
def step (place : List α) : Step α → List α
  | .here => place
  | .up => place.dropLast
  | .down name => place ++ [name]

/-- Where a walk ends. -/
def resolve (base : List α) (steps : List (Step α)) : List α :=
  steps.foldl step base

theorem resolve_append (base : List α) (first second : List (Step α)) :
    resolve base (first ++ second) = resolve (resolve base first) second :=
  List.foldl_append

/-! ### Relative paths -/

/-- A relative path: steps up, and then names that lead down. -/
structure Relative (α : Type u) where
  ups : Nat
  downs : List α
deriving DecidableEq, Repr

/-- A step more. -/
def Relative.step (path : Relative α) : Step α → Relative α
  | .here => path
  | .up => if path.downs = [] then ⟨path.ups + 1, []⟩ else ⟨path.ups, path.downs.dropLast⟩
  | .down name => ⟨path.ups, path.downs ++ [name]⟩

/-- The relative path that a walk amounts to. -/
def relative (steps : List (Step α)) : Relative α :=
  steps.foldl Relative.step ⟨0, []⟩

/-- Where the relative path leads from a directory. -/
def Relative.walk (path : Relative α) (base : List α) : List α :=
  base.take (base.length - path.ups) ++ path.downs

theorem Relative.walk_step (path : Relative α) (base : List α) (next : Step α) :
    (path.step next).walk base = PathWalk.step (path.walk base) next := by
  cases next with
  | here => rfl
  | down name => exact (List.append_assoc _ _ _).symm
  | up =>
      rw [Relative.step, PathWalk.step, walk, walk]
      split
      next none =>
        rw [none, List.append_nil, List.append_nil, List.dropLast_eq_take, List.take_take,
          List.length_take]
        have less : min (min (base.length - path.ups) base.length - 1) (base.length - path.ups) =
            base.length - (path.ups + 1) := by omega
        rw [less]
      next some => rw [List.dropLast_append_of_ne_nil some]

/-- A walk leads where its relative path leads. -/
theorem resolve_eq (base : List α) (steps : List (Step α)) :
    resolve base steps = (relative steps).walk base := by
  have from_path : ∀ path : Relative α,
      resolve (path.walk base) steps = (steps.foldl Relative.step path).walk base := by
    induction steps with
    | nil => exact fun _ => rfl
    | cons next steps ih =>
        intro path
        rw [List.foldl_cons, ← ih, path.walk_step]
        rfl
  have start : (Relative.mk 0 []).walk base = base := by simp [Relative.walk]
  rw [relative, ← from_path, start]

/-! ### Paths that stay in a directory -/

/-- The path comes back into the directory: it goes down by the names that it has gone up. -/
def Relative.Returns (path : Relative α) (base : List α) : Prop :=
  base.drop (base.length - path.ups) <+: path.downs

/-- The names of the path that lead on from the directory. -/
def Relative.rest (path : Relative α) (base : List α) : List α :=
  path.downs.drop (min path.ups base.length)

instance [DecidableEq α] (path : Relative α) (base : List α) : Decidable (path.Returns base) :=
  inferInstanceAs (Decidable (_ <+: _))

/-- A path that goes down by the names that it has gone up, and no other, ends below the directory. -/
theorem Relative.returns_iff (path : Relative α) (base : List α) :
    base <+: path.walk base ↔ path.Returns base := by
  rw [walk, Returns]
  conv => lhs; lhs; rw [← List.take_append_drop (base.length - path.ups) base]
  exact List.prefix_append_right_inj _

theorem Relative.walk_eq {path : Relative α} {base : List α} (returns : path.Returns base) :
    path.walk base = base ++ path.rest base := by
  obtain ⟨more, downs⟩ := returns
  have length : (base.drop (base.length - path.ups)).length = min path.ups base.length := by
    rw [List.length_drop]
    omega
  rw [walk, rest, ← downs, ← length, List.drop_left, ← List.append_assoc, List.take_append_drop]

end PathWalk
