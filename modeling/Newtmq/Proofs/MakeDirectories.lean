/-
Module: Newtmq.Proofs.MakeDirectories
Purpose: `mkdir_recursive` makes exactly the directories on the way of its path: when `mkdir` is called at a
  slash, all directories before the last name are there already, those that `..` goes back through included.
Trusted boundary: none
Main exports: splitOn_concat, mkdir_makeWalk, mkdirLoop_eq, mkdirRecursive_eq, directories_made
-/
import Newtmq.Spec.MakeDirectories
import Newtmq.Proofs.QueuePaths

namespace Newtmq

open DirectoryTree (FileTree)
open PathWalk (resolve)

/-! ### The parts of a path that grows -/

theorem splitOn_slash (path : List UInt8) :
    (path ++ [SLASH]).splitOn SLASH = path.splitOn SLASH ++ [[]] := by
  rw [List.splitOn_append_cons_self, List.splitOn_nil]

/-- A character that is no slash goes to the end of the last part. -/
theorem splitOn_concat {c : UInt8} (plain : c ≠ SLASH) (path : List UInt8) :
    ∃ front last, path.splitOn SLASH = front ++ [last] ∧
      (path ++ [c]).splitOn SLASH = front ++ [last ++ [c]] := by
  induction path with
  | nil =>
      refine ⟨[], [], rfl, ?_⟩
      have other : (c == SLASH) = false := by simpa using plain
      rw [List.nil_append, List.splitOn_cons_eq_if_modifyHead, other, List.splitOn_nil]
      rfl
  | cons x path ih =>
      obtain ⟨front, last, before, after⟩ := ih
      rw [List.cons_append, List.splitOn_cons_eq_if_modifyHead, List.splitOn_cons_eq_if_modifyHead,
        before, after]
      split
      · exact ⟨[] :: front, last, rfl, rfl⟩
      · cases front with
        | nil => exact ⟨[], x :: last, rfl, rfl⟩
        | cons part front => exact ⟨(x :: part) :: front, last, rfl, rfl⟩

theorem splitOn_last (path : List UInt8) : ∃ front last, path.splitOn SLASH = front ++ [last] := by
  rcases List.eq_nil_or_concat' (path.splitOn SLASH) with none | parts
  · exact absurd none (List.splitOn_ne_nil _ _)
  · exact parts

/-- The steps before the last part of a path. -/
def stepsBefore (path : List UInt8) : List (PathWalk.Step (List UInt8)) :=
  (pathSteps path).dropLast

theorem stepsBefore_slash (path : List UInt8) : stepsBefore (path ++ [SLASH]) = pathSteps path := by
  rw [stepsBefore, pathSteps, splitOn_slash, List.map_append, List.map_singleton, List.dropLast_concat]
  rfl

theorem stepsBefore_concat {c : UInt8} (plain : c ≠ SLASH) (path : List UInt8) :
    stepsBefore (path ++ [c]) = stepsBefore path := by
  obtain ⟨front, last, before, after⟩ := splitOn_concat plain path
  simp only [stepsBefore, pathSteps, before, after, List.map_append, List.map_singleton,
    List.dropLast_concat]

theorem stepsBefore_isPrefix (path : List UInt8) : stepsBefore path <+: pathSteps path :=
  List.dropLast_prefix _

/-! ### One call of `mkdir` -/

section Walks

variable {tree : FileTree (List UInt8)} {start : List (List UInt8)}

/-- A walk that is made already. -/
theorem walk_makeWalk (here : tree.entry start = some .directory) {steps : List (PathWalk.Step (List UInt8))}
    (free : tree.Free start steps) {first : List (PathWalk.Step (List UInt8))} (before : first <+: steps) :
    (tree.makeWalk start steps).walk start first = some (resolve start first) :=
  FileTree.walk_eq _ first fun _ inside => (FileTree.makeWalk_entry here free).1 _ (inside.trans before)

theorem pathStep_name {name : List UInt8} (some : name ≠ [])
    (plain : ¬ (name = cstring "." ∨ name = cstring "..")) : pathStep name = .down name := by
  rw [pathStep, if_neg, if_neg]
  · exact fun dots => plain (Or.inr dots)
  · exact fun stays => stays.elim some fun dot => plain (Or.inl dot)

theorem makeStep_dots {name : List UInt8} (dots : name = cstring "." ∨ name = cstring "..")
    (place : List (List UInt8)) : tree.makeStep place (pathStep name) = tree := by
  rcases dots with rfl | rfl <;> rfl

/-- When the path ends in slashes, its last name is made at the first of them. -/
theorem mkdir_made {cwd : List (List UInt8)} {path : List UInt8} {front : List (List UInt8)}
    (parts : path.splitOn SLASH = front ++ [[]])
    (here : tree.entry (walkStart cwd path) = some .directory)
    (free : tree.Free (walkStart cwd path) (front.map pathStep)) :
    mkdir cwd path (tree.makeWalk (walkStart cwd path) (front.map pathStep)) =
      tree.makeWalk (walkStart cwd path) (front.map pathStep) := by
  have dropped : (path.splitOn SLASH).rdropWhile (· = []) = front.rdropWhile (· = []) := by
    rw [parts, List.rdropWhile_concat_pos _ _ _ (by simp)]
  rw [mkdir, dropped]
  rcases List.eq_nil_or_concat' (front.rdropWhile (· = [])) with none | ⟨above, name, found⟩
  · simp only [none, List.getLast?_nil]
  · simp only [found, List.getLast?_concat, List.dropLast_concat]
    have inside : above ++ [name] <+: front := by
      rw [← found]
      exact List.rdropWhile_prefix _ _
    have some : name ≠ [] := by
      have last := List.rdropWhile_last_not (· = []) front (by rw [found]; simp)
      simpa [found] using last
    split
    · rfl
    · next plain =>
        have before : above.map pathStep <+: front.map pathStep :=
          ((List.prefix_append above [name]).trans inside).map pathStep
        have made := (FileTree.makeWalk_entry here free).1 _ (inside.map pathStep)
        rw [walk_makeWalk here free before]
        refine FileTree.make_taken ?_
        rw [List.map_append, List.map_singleton, pathStep_name some plain, PathWalk.resolve_append] at made
        exact Option.ne_none_iff_exists'.mpr ⟨_, made⟩

/-- When the places before the last part are made, `mkdir` makes the last one. -/
theorem mkdir_makeWalk {cwd : List (List UInt8)} (path : List UInt8)
    (here : tree.entry (walkStart cwd path) = some .directory)
    (free : tree.Free (walkStart cwd path) (pathSteps path)) :
    mkdir cwd path (tree.makeWalk (walkStart cwd path) (stepsBefore path)) =
      tree.makeWalk (walkStart cwd path) (pathSteps path) := by
  obtain ⟨front, last, parts⟩ := splitOn_last path
  have steps : pathSteps path = front.map pathStep ++ [pathStep last] := by
    rw [pathSteps, parts, List.map_append, List.map_singleton]
  have freeFront := free.shorter (stepsBefore_isPrefix path)
  rw [stepsBefore, steps, List.dropLast_concat] at freeFront ⊢
  rw [FileTree.makeWalk_concat]
  by_cases ended : last = []
  · subst ended
    exact mkdir_made parts here freeFront
  · have kept : (path.splitOn SLASH).rdropWhile (· = []) = front ++ [last] := by
      rw [parts, List.rdropWhile_concat_neg _ _ _ (by simpa using ended)]
    rw [mkdir, kept]
    simp only [List.getLast?_concat, List.dropLast_concat]
    split
    · next dots => exact (makeStep_dots dots _).symm
    · next plain =>
        rw [walk_makeWalk here freeFront (List.prefix_refl _), pathStep_name ended plain]
        rfl

end Walks

/-! ### The loop -/

/-- The tree when the loop is at a character of the path. -/
def mkdirLoop (cwd : List (List UInt8)) (path : List UInt8) (tree : FileTree (List UInt8)) (len : Nat) :
    FileTree (List UInt8) :=
  (List.range len).tail.foldl
    (fun tree p => if path[p]? = some SLASH then mkdir cwd (path.take p) tree else tree) tree

theorem mkdirLoop_succ (cwd : List (List UInt8)) (path : List UInt8) (tree : FileTree (List UInt8)) {len : Nat}
    (positive : 0 < len) :
    mkdirLoop cwd path tree (len + 1) =
      if path[len]? = some SLASH then mkdir cwd (path.take len) (mkdirLoop cwd path tree len)
      else mkdirLoop cwd path tree len := by
  have range : (List.range (len + 1)).tail = (List.range len).tail ++ [len] := by
    rw [List.range_succ, List.tail_append_of_ne_nil]
    simpa using positive.ne'
  rw [mkdirLoop, range, List.foldl_concat]
  rfl

theorem walkStart_take (cwd : List (List UInt8)) (path : List UInt8) {len : Nat} (positive : 0 < len) :
    walkStart cwd (path.take len) = walkStart cwd path := by
  rw [walkStart, walkStart, List.head?_take, if_neg positive.ne']

/-- The steps of a path that goes on after a slash begin with those before it. -/
theorem pathSteps_take (path : List UInt8) {len : Nat} (slash : path[len]? = some SLASH) :
    pathSteps (path.take len) <+: pathSteps path := by
  have split : path = path.take len ++ cstring "/" ++ path.drop (len + 1) := by
    obtain ⟨bound, at_⟩ := List.getElem?_eq_some_iff.mp slash
    have one : cstring "/" = [path[len]] := by rw [at_]; decide
    rw [one, List.append_assoc, List.singleton_append, List.getElem_cons_drop, List.take_append_drop]
  conv => rhs; rw [split]
  rw [pathSteps_append]
  exact List.prefix_append _ _

/-- At each character the places before the last part so far are made. -/
theorem mkdirLoop_eq {cwd : List (List UInt8)} {path : List UInt8} {tree : FileTree (List UInt8)}
    (here : tree.entry (walkStart cwd path) = some .directory)
    (free : tree.Free (walkStart cwd path) (pathSteps path)) (len : Nat) (inside : len < path.length) :
    mkdirLoop cwd path tree (len + 1) =
      tree.makeWalk (walkStart cwd path) (stepsBefore (path.take (len + 1))) := by
  induction len with
  | zero =>
      obtain ⟨c, rest, rfl⟩ := List.exists_cons_of_length_pos inside
      by_cases slash : c = SLASH
      · subst slash
        rfl
      · have before := stepsBefore_concat slash []
        rw [List.nil_append] at before
        rw [List.take_succ_cons, List.take_zero, before]
        rfl
  | succ len ih =>
      have loop := ih (by omega)
      have grows : path.take (len + 1 + 1) = path.take (len + 1) ++ [path[len + 1]] :=
        List.take_succ_eq_append_getElem inside
      rw [mkdirLoop_succ _ _ _ (Nat.succ_pos len), loop, List.getElem?_eq_getElem inside, grows]
      split
      · next at_ =>
          have slash : path[len + 1] = SLASH := Option.some.inj at_
          have start := walkStart_take cwd path (Nat.succ_pos len)
          have before := pathSteps_take path (List.getElem?_eq_some_iff.mpr ⟨inside, slash⟩)
          rw [slash, stepsBefore_slash]
          rw [← start] at here free ⊢
          exact mkdir_makeWalk (path.take (len + 1)) here (free.shorter before)
      · next at_ => rw [stepsBefore_concat fun slash => at_ (congrArg some slash)]

/-- The directories of the whole path are made. -/
theorem mkdirLoop_mkdir {cwd : List (List UInt8)} {path : List UInt8} {tree : FileTree (List UInt8)}
    (here : tree.entry (walkStart cwd path) = some .directory)
    (free : tree.Free (walkStart cwd path) (pathSteps path)) :
    mkdir cwd path (mkdirLoop cwd path tree path.length) =
      tree.makeWalk (walkStart cwd path) (pathSteps path) := by
  have made : mkdirLoop cwd path tree path.length =
      tree.makeWalk (walkStart cwd path) (stepsBefore path) := by
    cases known : path.length with
    | zero =>
        rw [List.length_eq_zero_iff.mp known]
        rfl
    | succ len =>
        rw [mkdirLoop_eq here free len (by omega), ← known, List.take_length]
  rw [made]
  exact mkdir_makeWalk path here free

/-! ### The array -/

theorem mem_cstr_take {dir : List UInt8} {n : Nat} : (0 : UInt8) ∉ (cstr dir).take n :=
  fun mem => zero_not_mem_cstr dir (List.mem_of_mem_take mem)

theorem cstr_append_nul {text : List UInt8} (clean : (0 : UInt8) ∉ text) (rest : List UInt8) :
    cstr (text ++ 0 :: rest) = text := by
  rw [cstr, List.takeWhile_append_of_pos, List.takeWhile_cons_of_neg (by simp), List.append_nil]
  intro c mem
  rw [decide_eq_true_eq]
  rintro rfl
  exact clean mem

/-- The array holds the path, as far as it fits, or the path without the slash at its end. -/
theorem mkdirPath_eq {dir : List UInt8} (nonempty : cstr dir ≠ []) (short : (cstr dir).length ≤ TMP_LENGTH) :
    ∃ tmp, mkdirPath dir = some tmp ∧
      (cstr tmp = (cstr dir).take (TMP_LENGTH - 1) ∨
        (cstr dir).take (TMP_LENGTH - 1) = cstr tmp ++ [SLASH]) := by
  have positive := List.length_pos_iff.mpr nonempty
  have inside : ¬ ((cstr dir).length = 0 ∨ TMP_LENGTH < (cstr dir).length) := by omega
  have zeros : List.replicate (TMP_LENGTH - ((cstr dir).take (TMP_LENGTH - 1)).length) (0 : UInt8) =
      0 :: List.replicate (TMP_LENGTH - 1 - ((cstr dir).take (TMP_LENGTH - 1)).length) 0 := by
    rw [← List.replicate_succ]
    congr 1
    rw [List.length_take]
    have size : TMP_LENGTH = 512 := rfl
    omega
  rw [mkdirPath, if_neg inside, zeros]
  refine ⟨_, rfl, ?_⟩
  split
  · next slash =>
      have within : (cstr dir).length - 1 < ((cstr dir).take (TMP_LENGTH - 1)).length := by
        by_contra beyond
        rw [List.getElem?_append_right (by omega)] at slash
        have zero : SLASH = 0 := by
          have mem := List.mem_of_getElem? slash
          rw [← List.replicate_succ] at mem
          exact List.eq_of_mem_replicate mem
        exact absurd zero (by decide)
      have whole : (cstr dir).take (TMP_LENGTH - 1) = cstr dir := by
        rw [List.length_take] at within
        exact List.take_of_length_le (by omega)
      rw [whole] at within slash ⊢
      obtain ⟨front, last, path⟩ : ∃ front last, cstr dir = front ++ [last] :=
        (List.eq_nil_or_concat' (cstr dir)).resolve_left nonempty
      have clean : (0 : UInt8) ∉ front := fun mem => zero_not_mem_cstr dir (by simp [path, mem])
      have place : (cstr dir).length - 1 = front.length := by simp [path]
      rw [place, path, List.append_assoc, List.getElem?_append_right (le_refl _), Nat.sub_self] at slash
      have same : last = SLASH := Option.some.inj slash
      refine Or.inr ?_
      rw [place, path, List.append_assoc, List.set_append_right _ _ (le_refl _), Nat.sub_self]
      simp only [List.singleton_append, List.set_cons_zero]
      rw [cstr_append_nul clean, same]
  · exact Or.inl (cstr_append_nul mem_cstr_take _)

/-! ### The whole function -/

theorem pathSteps_slash (path : List UInt8) : pathSteps (path ++ [SLASH]) = pathSteps path ++ [.here] := by
  rw [pathSteps, splitOn_slash, List.map_append, List.map_singleton]
  rfl

/-- A slash at the end leads nowhere else. -/
theorem onTheWay_slash {path : List UInt8} (nonempty : path ≠ []) {cwd place : List (List UInt8)} :
    OnTheWay cwd (path ++ [SLASH]) place ↔ OnTheWay cwd path place := by
  have start : walkStart cwd (path ++ [SLASH]) = walkStart cwd path := by
    obtain ⟨c, rest, rfl⟩ := List.exists_cons_of_ne_nil nonempty
    rfl
  rw [OnTheWay, OnTheWay, start, pathSteps_slash]
  constructor
  · rintro ⟨steps, before, rfl⟩
    rcases List.prefix_concat_iff.mp before with rfl | earlier
    · exact ⟨pathSteps path, List.prefix_refl _, PathWalk.resolve_append _ _ _⟩
    · exact ⟨steps, earlier, rfl⟩
  · rintro ⟨steps, before, rfl⟩
    exact ⟨steps, before.trans (List.prefix_append _ _), rfl⟩

theorem mkdirLoop_makes {cwd : List (List UInt8)} {path : List UInt8} {tree : FileTree (List UInt8)}
    (here : tree.entry (walkStart cwd path) = some .directory)
    (free : ∀ place, OnTheWay cwd path place → tree.entry place ≠ some .file) :
    MakesDirectories cwd path tree (mkdir cwd path (mkdirLoop cwd path tree path.length)) := by
  have way : tree.Free (walkStart cwd path) (pathSteps path) :=
    fun steps before => free _ ⟨steps, before, rfl⟩
  obtain ⟨made, others⟩ := FileTree.makeWalk_entry here way
  rw [mkdirLoop_mkdir here way]
  constructor
  · rintro place ⟨steps, before, rfl⟩
    exact made steps before
  · intro place apart
    exact others place fun steps before same => apart ⟨steps, before, same⟩

theorem walkStart_directory {cwd : List (List UInt8)} {tree : FileTree (List UInt8)}
    (there : tree.entry cwd = some .directory) (path : List UInt8) :
    tree.entry (walkStart cwd path) = some .directory := by
  rw [walkStart]
  split
  · exact tree.root
  · exact there

/-- The root alone is no way. -/
theorem makes_root (cwd : List (List UInt8)) (tree : FileTree (List UInt8)) :
    MakesDirectories cwd [SLASH] tree tree where
  made := by
    rintro place ⟨steps, before, rfl⟩
    have stays : ∀ step ∈ steps, step = PathWalk.Step.here := by
      intro step mem
      have inside := before.subset mem
      have all : pathSteps [SLASH] = [.here, .here] := by decide
      simpa [all] using inside
    have ends : PathWalk.resolve [] steps = [] := by
      clear before
      induction steps with
      | nil => rfl
      | cons step steps ih =>
          rw [stays step (by simp)]
          exact ih fun other mem => stays other (List.mem_cons_of_mem step mem)
    have start : walkStart cwd [SLASH] = [] := rfl
    rw [start, ends]
    exact tree.root
  others := fun _ _ => rfl

/-- A path of at most 512 characters, of which the array holds 511: when no file is in the way, every
directory on the way is there after, and nothing else has changed. -/
theorem directories_made {cwd : List (List UInt8)} {dir : List UInt8} {tree : FileTree (List UInt8)}
    (nonempty : cstr dir ≠ []) (short : (cstr dir).length ≤ TMP_LENGTH)
    (there : tree.entry cwd = some .directory)
    (free : ∀ place, OnTheWay cwd ((cstr dir).take (TMP_LENGTH - 1)) place →
      tree.entry place ≠ some .file) :
    ∃ after, mkdirRecursive cwd dir tree = some after ∧
      MakesDirectories cwd ((cstr dir).take (TMP_LENGTH - 1)) tree after := by
  obtain ⟨tmp, written, path⟩ := mkdirPath_eq nonempty short
  refine ⟨mkdir cwd (cstr tmp) (mkdirLoop cwd (cstr tmp) tree (cstr tmp).length), ?_, ?_⟩
  · rw [mkdirRecursive, written]
    rfl
  · have start := walkStart_directory there (cstr tmp)
    rcases path with whole | slash
    · rw [← whole] at free ⊢
      exact mkdirLoop_makes start free
    · rw [slash] at free ⊢
      by_cases root : cstr tmp = []
      · rw [root]
        exact makes_root cwd tree
      · obtain ⟨made, others⟩ := mkdirLoop_makes start fun place way =>
          free place ((onTheWay_slash root).mpr way)
        exact ⟨fun place way => made place ((onTheWay_slash root).mp way),
          fun place apart => others place fun way => apart ((onTheWay_slash root).mpr way)⟩

/-- A tree that has only its root. -/
def rootTree : FileTree (List UInt8) where
  entry place := if place = [] then some .directory else none
  root := rfl
  parent place name there := absurd (if_neg (by simp)) there

/-- The directory that `..` goes back through is made as well. -/
theorem directories_made_back :
    ∃ after, mkdirRecursive [] (cstring "/spool/../data/queue/") rootTree = some after ∧
      MakesDirectories [] ((cstr (cstring "/spool/../data/queue/")).take (TMP_LENGTH - 1)) rootTree after := by
  refine directories_made (by decide) (by decide) rfl fun place _ => ?_
  rw [rootTree]
  dsimp only
  split <;> simp

end Newtmq
