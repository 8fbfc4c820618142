/-
Module: Newtmq.Proofs.QueuePaths
Purpose: A queue's files lie in the directory that its name leads to from the data directory, so two
  queues keep their files apart exactly when their names, as relative paths, do.
Trusted boundary: none
Main exports: pathSteps_append, resolve_queuePaths, files_private_iff
-/
import Newtmq.Spec.QueuePaths
import Newtmq.Proofs.Recovery

namespace Newtmq

open PathWalk (resolve Relative relative)

/-! ### Steps -/

/-- The steps before and after a slash. -/
theorem pathSteps_append (first second : List UInt8) :
    pathSteps (first ++ cstring "/" ++ second) = pathSteps first ++ pathSteps second := by
  have slash : cstring "/" = [SLASH] := by decide
  rw [slash, List.append_assoc, List.singleton_append, pathSteps, List.splitOn_append_cons_self,
    List.map_append]
  rfl

theorem pathSteps_nil : pathSteps [] = [.here] := by decide

/-- A path that goes on after a slash. -/
theorem resolvePath_append (cwd : List (List UInt8)) (first second : List UInt8) :
    resolvePath cwd (first ++ cstring "/" ++ second) =
      resolve (resolvePath cwd (first ++ cstring "/")) (pathSteps second) := by
  have whole := pathSteps_append first []
  rw [List.append_nil, pathSteps_nil] at whole
  have same : (first ++ cstring "/" ++ second).head? = (first ++ cstring "/").head? := by
    cases first with
    | nil => rfl
    | cons => rfl
  rw [resolvePath, resolvePath, same, pathSteps_append, whole, PathWalk.resolve_append,
    PathWalk.resolve_append]
  rfl

/-- The data directory is what its path names. -/
theorem dataDirectory_eq (cwd : List (List UInt8)) {pm : PersistentManager} (some : pm.datadir ≠ []) :
    dataDirectory cwd pm = resolvePath cwd pm.datadir := by
  obtain ⟨c, rest, datadir⟩ := List.exists_cons_of_ne_nil some
  have steps := pathSteps_append (c :: rest) []
  rw [List.append_nil, pathSteps_nil] at steps
  rw [dataDirectory, datadir, resolvePath, resolvePath, steps, PathWalk.resolve_append]
  rfl

/-- The files of a queue lie in the directory that its name leads to. -/
theorem resolve_queuePaths (cwd : List (List UInt8)) (qname : List UInt8) (pm : PersistentManager) :
    (queuePaths qname pm).map (resolvePath cwd) =
      [FNAME_DATA, FNAME_SENT_INDEX].map fun file =>
        (queueRelative qname).walk (dataDirectory cwd pm) ++ [file] := by
  have file : ∀ name, pathSteps name = [.down name] →
      resolvePath cwd (pm.datadir ++ cstring "/" ++ cstr qname ++ cstring "/" ++ name) =
        (queueRelative qname).walk (dataDirectory cwd pm) ++ [name] := by
    intro name steps
    have whole : pm.datadir ++ cstring "/" ++ cstr qname ++ cstring "/" ++ name =
        pm.datadir ++ cstring "/" ++ (cstr qname ++ cstring "/" ++ name) := by
      simp only [List.append_assoc]
    rw [whole, resolvePath_append, pathSteps_append, PathWalk.resolve_append,
      PathWalk.resolve_eq _ (pathSteps (cstr qname)), steps]
    rfl
  rw [queuePaths, List.map_cons, List.map_singleton, List.map_cons, List.map_singleton]
  exact congrArg₂ List.cons (file FNAME_DATA (by decide))
    (congrArg (List.cons · []) (file FNAME_SENT_INDEX (by decide)))

/-! ### Two queues -/

theorem files_differ : FNAME_DATA ≠ FNAME_SENT_INDEX := by decide

/-- A file in one directory is not above one in another directory, unless it is a part of the way
there. -/
theorem file_prefix_iff {α : Type} {one other : List α} {file file' : α} :
    one ++ [file] <+: other ++ [file'] ↔ (one = other ∧ file = file') ∨ one ++ [file] <+: other := by
  rw [List.prefix_concat_iff, List.append_singleton_inj]

/-- The files of two queues, by the directories they lie in. -/
structure DirectoriesApart (base one other : List (List UInt8)) : Prop where
  oneInside : base <+: one
  otherInside : base <+: other
  differ : one ≠ other
  notUnder : ∀ file ∈ [FNAME_DATA, FNAME_SENT_INDEX],
    ¬ one ++ [file] <+: other ∧ ¬ other ++ [file] <+: one

/-- A directory lies in another one when both of the files in it do. -/
theorem inside_iff {base place : List (List UInt8)} :
    (∀ file ∈ [FNAME_DATA, FNAME_SENT_INDEX], base <+: place ++ [file] ∧ base ≠ place ++ [file]) ↔
      base <+: place := by
  constructor
  · intro inside
    obtain ⟨first, notData⟩ := inside FNAME_DATA List.mem_cons_self
    exact (List.prefix_concat_iff.mp first).resolve_left notData
  · intro inside file _
    refine ⟨inside.trans (List.prefix_append _ _), fun same => ?_⟩
    have longer := inside.length_le
    rw [same, List.length_append, List.length_singleton] at longer
    omega

/-- What holds of the paths of a queue holds of the files in its directory. -/
theorem forall_queuePaths (cwd : List (List UInt8)) (qname : List UInt8) (pm : PersistentManager)
    (P : List (List UInt8) → Prop) :
    (∀ path ∈ queuePaths qname pm, P (resolvePath cwd path)) ↔
      ∀ file ∈ [FNAME_DATA, FNAME_SENT_INDEX],
        P ((queueRelative qname).walk (dataDirectory cwd pm) ++ [file]) := by
  rw [← List.forall_mem_map, resolve_queuePaths, List.forall_mem_map]

theorem filesPrivate_iff (cwd : List (List UInt8)) (pm : PersistentManager) (one other : List UInt8) :
    FilesPrivate cwd pm one other ↔
      DirectoriesApart (dataDirectory cwd pm) ((queueRelative one).walk (dataDirectory cwd pm))
        ((queueRelative other).walk (dataDirectory cwd pm)) := by
  have insideOne := forall_queuePaths cwd one pm fun path =>
    dataDirectory cwd pm <+: path ∧ dataDirectory cwd pm ≠ path
  have insideOther := forall_queuePaths cwd other pm fun path =>
    dataDirectory cwd pm <+: path ∧ dataDirectory cwd pm ≠ path
  rw [inside_iff] at insideOne insideOther
  have dataFile : FNAME_DATA ∈ [FNAME_DATA, FNAME_SENT_INDEX] := List.mem_cons_self
  constructor
  · rintro ⟨-, apart, inside⟩
    rw [List.forall_mem_append, insideOne, insideOther] at inside
    have apartFiles : ∀ file ∈ [FNAME_DATA, FNAME_SENT_INDEX],
        ∀ file' ∈ [FNAME_DATA, FNAME_SENT_INDEX],
          ¬ (queueRelative one).walk (dataDirectory cwd pm) ++ [file] <+:
              (queueRelative other).walk (dataDirectory cwd pm) ++ [file'] ∧
            ¬ (queueRelative other).walk (dataDirectory cwd pm) ++ [file'] <+:
              (queueRelative one).walk (dataDirectory cwd pm) ++ [file] := by
      intro file mem
      have fromFile := (forall_queuePaths cwd one pm fun place => ∀ path' ∈ queuePaths other pm,
        ¬ place <+: resolvePath cwd path' ∧ ¬ resolvePath cwd path' <+: place).mp apart file mem
      exact (forall_queuePaths cwd other pm fun place' =>
        ¬ (queueRelative one).walk (dataDirectory cwd pm) ++ [file] <+: place' ∧
          ¬ place' <+: (queueRelative one).walk (dataDirectory cwd pm) ++ [file]).mp fromFile
    refine ⟨inside.1, inside.2, ?_, ?_⟩
    · intro same
      apply (apartFiles FNAME_DATA dataFile FNAME_DATA dataFile).1
      rw [same]
    · intro file mem
      constructor
      · intro under
        apply (apartFiles file mem FNAME_DATA dataFile).1
        exact file_prefix_iff.mpr (Or.inr under)
      · intro under
        apply (apartFiles FNAME_DATA dataFile file mem).2
        exact file_prefix_iff.mpr (Or.inr under)
  · rintro ⟨oneInside, otherInside, differ, notUnder⟩
    refine ⟨?_, ?_, List.forall_mem_append.mpr ⟨insideOne.mpr oneInside, insideOther.mpr otherInside⟩⟩
    · rw [List.map_append, resolve_queuePaths, resolve_queuePaths]
      simp [differ, files_differ, List.append_singleton_inj]
    · apply (forall_queuePaths cwd one pm fun place => ∀ path' ∈ queuePaths other pm,
        ¬ place <+: resolvePath cwd path' ∧ ¬ resolvePath cwd path' <+: place).mpr
      intro file mem
      apply (forall_queuePaths cwd other pm fun place' =>
        ¬ (queueRelative one).walk (dataDirectory cwd pm) ++ [file] <+: place' ∧
          ¬ place' <+: (queueRelative one).walk (dataDirectory cwd pm) ++ [file]).mpr
      intro file' mem'
      constructor
      · intro above
        rcases file_prefix_iff.mp above with ⟨same, _⟩ | under
        · exact differ same
        · exact (notUnder file mem).1 under
      · intro above
        rcases file_prefix_iff.mp above with ⟨same, _⟩ | under
        · exact differ same.symm
        · exact (notUnder file' mem').2 under

/-- The files of two queues are private and lie in the data directory exactly when the names of the
queues stay apart. -/
theorem files_private_iff (cwd : List (List UInt8)) (pm : PersistentManager)
    (one other : List UInt8) :
    FilesPrivate cwd pm one other ↔ NamesApart (dataDirectory cwd pm) one other := by
  rw [filesPrivate_iff]
  constructor
  · rintro ⟨oneInside, otherInside, differ, notUnder⟩
    have one := (Relative.returns_iff _ _).mp oneInside
    have other := (Relative.returns_iff _ _).mp otherInside
    rw [Relative.walk_eq one, Relative.walk_eq other] at differ notUnder
    simp only [List.append_assoc, List.prefix_append_right_inj] at notUnder
    exact ⟨one, other, fun same => differ (by rw [same]), notUnder⟩
  · rintro ⟨one, other, differ, notUnder⟩
    rw [Relative.walk_eq one, Relative.walk_eq other]
    refine ⟨List.prefix_append _ _, List.prefix_append _ _, ?_, ?_⟩
    · exact fun same => differ (List.append_cancel_left same)
    · simp only [List.append_assoc, List.prefix_append_right_inj]
      exact notUnder

/-- A `SEND` frame can name this queue. -/
def SendAccepts (qname : List UInt8) : Prop :=
  ∃ (cinfoId : List UInt8) (frame : WireFrame), frame.command = cstring "SEND" ∧
    (sendAttrinfo cinfoId frame.parsed).1 = .success ∧
      (sendAttrinfo cinfoId frame.parsed).2.2.qname = some qname

/-- A `SEND` to the queue `jobs`, or to `jobs/`. -/
def jobFrame (slash : List UInt8) (isSlash : slash ∈ [[], cstring "/"]) : WireFrame where
  command := cstring "SEND"
  headers := [destinationName ++ cstring "jobs" ++ slash, cstring "content-length:0"]
  body := []
  command_known := sendHi.command_known
  header_line := by revert slash; decide +kernel
  one_length := by revert slash; decide +kernel
  length_value := by revert slash; decide +kernel
  body_clean := disconnectFrame.body_clean
  body_bound := disconnectFrame.body_bound

/-- The queues `jobs` and `jobs/` have the same files. -/
theorem queue_files_shared :
    ¬ ∀ (cwd : List (List UInt8)) (pm : PersistentManager) (one other : List UInt8),
        one ≠ other → SendAccepts one → SendAccepts other → FilePathsFit one pm → FilePathsFit other pm →
          FilesPrivate cwd pm one other := by
  intro isPrivate
  have jobs : SendAccepts (cstring "jobs") :=
    ⟨[], jobFrame [] (by decide), rfl, by decide +kernel, by decide +kernel⟩
  have slash : SendAccepts (cstring "jobs/") :=
    ⟨[], jobFrame (cstring "/") (by decide), rfl, by decide +kernel, by decide +kernel⟩
  have different := (isPrivate [] ⟨cstring "/tmp/newtmq", [], fun _ => none⟩ (cstring "jobs")
    (cstring "jobs/") (by decide) jobs slash (by unfold FilePathsFit; decide +kernel)
    (by unfold FilePathsFit; decide +kernel)).different
  revert different
  decide +kernel

end Newtmq
