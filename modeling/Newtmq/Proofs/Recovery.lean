/-
Module: Newtmq.Proofs.Recovery
Purpose: Frames that are written to an empty data file are read back exactly when they lie in the
  blocks of the file in such a way that each can be read.
Trusted boundary: none
Main exports: frames_recover, frameBytes_carries, persistQueueContext_disk, RecoversExactly,
  recoversExactly_iff_blocksFit
-/
import Newtmq.Proofs.FrameRecovery
import Mathlib.Data.List.Forall2

namespace Newtmq

variable (rand : Nat → Nat)

/-! ### Reading -/

/-- All frames of the file, from a boundary on: either the layout lets them be read, and the result is
these frames, or it does not, and one of them is missing from the result. -/
theorem frames_recover :
    ∀ (sent : List WireFrame) (place : Place) (head : List Frame) (result : Option UnpersistState),
      Boundary rand place (encodeAll sent) head result →
      ((place.frames sent).isSome → ∃ st recovered, result = some st ∧ st.head = head ++ recovered ∧
        st.prevBuffer = none ∧ List.Forall₂ Frame.Carries recovered sent) ∧
      (¬ (place.frames sent).isSome → ∃ k frame, sent[k]? = some frame ∧
        Loses (head.length + k) frame result)
  | [], place, head, result, boundary => by
      obtain ⟨st, found, same, saved⟩ := boundary.finished rfl
      exact ⟨fun _ => ⟨st, [], found, by rw [same, List.append_nil], saved, .nil⟩,
        fun unfit => absurd rfl unfit⟩
  | first :: sent, place, head, result, boundary => by
      have one : Recovers rand first (encodeAll sent) head (place.frame first) result :=
        frame_recovers rand boundary
      simp only [Place.frames, List.foldlM_cons]
      cases step : place.frame first with
      | none =>
          rw [step] at one
          exact ⟨nofun, fun _ => ⟨0, first, rfl, one⟩⟩
      | some next =>
          rw [step] at one
          obtain ⟨frame, carries, boundary'⟩ := one
          obtain ⟨fit, unfit⟩ := frames_recover sent next (head ++ [frame]) result boundary'
          constructor
          · intro fits
            obtain ⟨st, recovered, found, same, saved, all⟩ := fit fits
            exact ⟨st, frame :: recovered, found, by rw [same]; simp, saved, .cons carries all⟩
          · intro unfits
            obtain ⟨k, missing, at_k, loses⟩ := unfit unfits
            refine ⟨k + 1, missing, at_k, ?_⟩
            rwa [List.length_append, List.length_singleton, Nat.add_right_comm,
              Nat.add_assoc] at loses

/-- The whole file, read from its start. A file that is read leaves nothing in `prev_buffer`. -/
theorem fileFrom_recovers (sent : List WireFrame) {frameBuffer : List UInt8}
    (sized : frameBuffer.length = BUFFER_LEN) (rands : Nat) :
    ((∃ st, fileFrom rand (encodeAll sent) frameBuffer ⟨0, none, [], none, rands⟩ = some st ∧
        List.Forall₂ Frame.Carries st.head sent) ↔ BlocksFit sent) ∧
      (BlocksFit sent → ∃ st,
        fileFrom rand (encodeAll sent) frameBuffer ⟨0, none, [], none, rands⟩ = some st ∧
          List.Forall₂ Frame.Carries st.head sent ∧ st.prevBuffer = none) := by
  have boundary : Boundary rand ⟨0, true⟩ (encodeAll sent) []
      (fileFrom rand (encodeAll sent) frameBuffer ⟨0, none, [], none, rands⟩) :=
    boundary_start rand ⟨0, none, [], none, rands⟩ sized rfl rfl
  obtain ⟨fit, unfit⟩ := frames_recover rand sent ⟨0, true⟩ [] _ boundary
  have reads : BlocksFit sent → ∃ st,
      fileFrom rand (encodeAll sent) frameBuffer ⟨0, none, [], none, rands⟩ = some st ∧
        List.Forall₂ Frame.Carries st.head sent ∧ st.prevBuffer = none := by
    intro fits
    obtain ⟨st, recovered, found, same, saved, all⟩ := fit fits
    exact ⟨st, found, by rwa [same, List.nil_append], saved⟩
  refine ⟨⟨?_, ?_⟩, reads⟩
  · rintro ⟨st, found, all⟩
    by_contra unfits
    obtain ⟨k, missing, at_k, loses⟩ := unfit unfits
    obtain ⟨inside, rfl⟩ := List.getElem?_eq_some_iff.mp at_k
    rw [List.forall₂_iff_get] at all
    obtain ⟨length, each⟩ := all
    apply loses st found
    rw [List.length_nil, Nat.zero_add]
    exact ⟨st.head[k], List.getElem?_eq_getElem (by omega), each k (by omega) inside⟩
  · intro fits
    obtain ⟨st, found, all, -⟩ := reads fits
    exact ⟨st, found, all⟩

theorem fileFrom_recovers_iff (sent : List WireFrame) {frameBuffer : List UInt8}
    (sized : frameBuffer.length = BUFFER_LEN) (rands : Nat) :
    (∃ st, fileFrom rand (encodeAll sent) frameBuffer ⟨0, none, [], none, rands⟩ = some st ∧
        List.Forall₂ Frame.Carries st.head sent) ↔ BlocksFit sent :=
  (fileFrom_recovers rand sent sized rands).1

/-! ### Writing -/

/-- The bytes written for a frame are the bytes that were sent. -/
theorem frameBytes_carries {frame : Frame} {sent : WireFrame} (carries : frame.Carries sent) :
    frameBytes frame = sent.encode := by
  have command : cstr frame.name = sent.command := by
    rw [carries.name]
    apply cstr_of_not_mem
    exact fun mem => ((command_line sent.command_known).clean 0 mem).1 rfl
  have lines : frame.hAttrs.flatMap (fun header => header.bytes ++ [LF]) =
      WireFrame.encodeLines sent.headers := by
    rw [← carries.headers, WireFrame.encodeLines, entryLines, List.flatMap_map]
  have body : frame.hData.flatMap Linedata.bytes = sent.body := by
    rw [← carries.body, entryLines, List.flatMap_def]
  simp [frameBytes, WireFrame.encode, command, lines, body]

theorem framesBytes_carries {objects : List FrameObject} {sent : List WireFrame}
    (carries : List.Forall₂ (fun object w => object.frame.Carries w) objects sent) :
    (objects.flatMap fun object => frameBytes object.frame) = encodeAll sent := by
  induction carries with
  | nil => rfl
  | cons first _ ih => simp [encodeAll, frameBytes_carries first, ih]

/-- `persist_queue_context` appends the bytes of the pending frames to the data file. -/
theorem persistQueueContext_disk (objects : List FrameObject) {data : List UInt8}
    {sentIndex : Option Int} {qinfo : QueueInfo} {pm : PersistentManager}
    (disk : pm.disk qinfo.dirpath = some ⟨data, sentIndex⟩) :
    (objects.foldl (fun (qinfo, pm) object => persistOne object qinfo pm) (qinfo, pm)).2.disk
        qinfo.dirpath =
      some ⟨data ++ objects.flatMap fun object => frameBytes object.frame, sentIndex⟩ := by
  induction objects generalizing data qinfo pm with
  | nil => simpa using disk
  | cons object objects ih =>
      rw [List.foldl_cons]
      have written : (persistOne object qinfo pm).2.disk (persistOne object qinfo pm).1.dirpath =
          some ⟨data ++ frameBytes object.frame, sentIndex⟩ := by
        simp [persistOne, PersistentManager.setFiles, PersistentManager.files, disk]
      have rest := ih written
      rw [List.flatMap_cons, ← List.append_assoc]
      exact rest

/-! ### Both -/

/-- `unpersist_queue_context` on the directory that `persist_queue_context` has written the pending
frames to: it ends, and what it finds are the frames that were sent. The buffer may hold anything at
first; `parse_frame` has saved nothing yet. -/
def RecoversExactly (frameBuffer : List UInt8) (rands : Nat) (qinfo : QueueInfo)
    (pm : PersistentManager) (sent : List WireFrame) : Prop :=
  ∃ recovered prevBuffer,
    unpersistQueueContext rand frameBuffer qinfo.dirpath (persistQueueContext qinfo pm).2 none rands =
      some (.success, recovered, prevBuffer) ∧
    List.Forall₂ Frame.Carries recovered sent

/-- What is written to an empty data file, when nothing has been sent, is what is read. -/
theorem recoversExactly_iff_file {frameBuffer : List UInt8} {rands : Nat} {qinfo : QueueInfo}
    {pm : PersistentManager} {sent : List WireFrame}
    (empty : pm.disk qinfo.dirpath = some ⟨[], some 0⟩)
    (written : List.Forall₂ (fun object w => object.frame.Carries w) qinfo.unpersistent sent) :
    RecoversExactly rand frameBuffer rands qinfo pm sent ↔
      ∃ st, fileFrom rand (encodeAll sent) frameBuffer ⟨0, none, [], none, rands⟩ = some st ∧
        List.Forall₂ Frame.Carries st.head sent := by
  have disk := persistQueueContext_disk qinfo.unpersistent empty
  rw [List.nil_append, framesBytes_carries written] at disk
  have stored : unpersistQueueInfo qinfo.dirpath (persistQueueContext qinfo pm).2 = 0 := by
    simp [unpersistQueueInfo, PersistentManager.files, persistQueueContext, disk]
  have reads : unpersistQueueContext rand frameBuffer qinfo.dirpath (persistQueueContext qinfo pm).2
      none rands = (fileFrom rand (encodeAll sent) frameBuffer ⟨0, none, [], none, rands⟩).map
        fun st => (.success, st.head, st.prevBuffer) := by
    have context : (persistQueueContext qinfo pm).2.disk qinfo.dirpath =
        some ⟨encodeAll sent, some 0⟩ := disk
    simp [unpersistQueueContext, stored, context, fileFrom]
  rw [RecoversExactly, reads]
  constructor
  · rintro ⟨recovered, prevBuffer, found, all⟩
    obtain ⟨st, back, same⟩ := Option.map_eq_some_iff.mp found
    cases same
    exact ⟨st, back, all⟩
  · rintro ⟨st, found, all⟩
    exact ⟨st.head, st.prevBuffer, by rw [found]; rfl, all⟩

/-- Frames of the kind the parser builds, written in order to an empty data file, are recovered
exactly when their layout in the blocks of the file lets each of them be read. -/
theorem recoversExactly_iff_blocksFit (rand : Nat → Nat) {frameBuffer : List UInt8}
    (sized : frameBuffer.length = BUFFER_LEN) (rands : Nat) {qinfo : QueueInfo}
    {pm : PersistentManager} (empty : pm.disk qinfo.dirpath = some ⟨[], some 0⟩)
    {sent : List WireFrame}
    (written : List.Forall₂ (fun object w => object.frame.Carries w) qinfo.unpersistent sent) :
    RecoversExactly rand frameBuffer rands qinfo pm sent ↔ BlocksFit sent := by
  rw [recoversExactly_iff_file rand empty written]
  exact fileFrom_recovers_iff rand sent sized rands

/-! ### Two frames -/

/-- The frame object that the parser builds for a frame with a body of at most one piece. -/
def WireFrame.parsed (sent : WireFrame) : Frame :=
  { allocFrame with
    name := sent.command
    status := .clear
    hAttrs := sent.headers.map fun line => ⟨line, line.length⟩
    hData := if sent.body = [] then [] else [⟨sent.body, sent.body.length⟩] }

theorem WireFrame.parsed_carries (sent : WireFrame) : sent.parsed.Carries sent where
  name := rfl
  headers := entryLines_exact sent.headers
  body := by
    rw [parsed]
    split
    next empty => rw [empty]; rfl
    · simp [entryLines]

/-- A queue with one frame that waits to be written. -/
def waitingQueue (sent : WireFrame) : QueueInfo :=
  { qid := getHash (cstring "q")
    dirpath := cstring "/var/q"
    unpersistent := [⟨0, sent.parsed⟩]
    indexHead := 0
    indexSent := 0
    indexPersistent := 0 }

theorem waitingQueue_carries (sent : WireFrame) :
    List.Forall₂ (fun (object : FrameObject) w => object.frame.Carries w)
      (waitingQueue sent).unpersistent [sent] :=
  .cons sent.parsed_carries .nil

/-- Every directory holds an empty data file, and 0 as the sent index. -/
def emptyFiles : PersistentManager :=
  { datadir := cstring "/var", qinfos := [], disk := fun _ => some ⟨[], some 0⟩ }

/-- A small frame in the first block. -/
theorem recoversExactly_sendHi :
    RecoversExactly (fun _ => 0) (List.replicate BUFFER_LEN 0) 0 (waitingQueue sendHi) emptyFiles
      [sendHi] :=
  (recoversExactly_iff_blocksFit (fun _ => 0) List.length_replicate 0 rfl
    (waitingQueue_carries sendHi)).mpr (by decide)

theorem headerLine_replicate {n : Nat} (positive : 0 < n) (short : n ≤ LD_MAX) :
    HeaderLine (List.replicate n 120) where
  nonempty := by
    rw [← List.length_pos_iff, List.length_replicate]
    exact positive
  short := by rwa [List.length_replicate]
  clean c mem := by
    rw [List.eq_of_mem_replicate mem]
    decide

/-- A `SEND` without a body, whose length header lies across the end of the first block. -/
def cutLengthFrame : WireFrame where
  command := cstring "SEND"
  headers := [List.replicate 1010 120, cstring "content-length:0"]
  body := []
  command_known := sendHi.command_known
  header_line := by
    intro line mem
    rcases List.mem_pair.mp mem with rfl | rfl
    · exact headerLine_replicate (by decide) (by decide)
    · decide +kernel
  one_length := by decide
  length_value := by
    intro line mem announces
    rcases List.mem_pair.mp mem with rfl | rfl
    · cases announces
    · decide +kernel
  body_clean := disconnectFrame.body_clean
  body_bound := disconnectFrame.body_bound

/-- It is written whole and not recovered. -/
theorem recover_cut_length_header :
    ¬ RecoversExactly (fun _ => 0) (List.replicate BUFFER_LEN 0) 0 (waitingQueue cutLengthFrame)
      emptyFiles [cutLengthFrame] := by
  rw [recoversExactly_iff_file (fun _ => 0) rfl
      (waitingQueue_carries cutLengthFrame),
    fileFrom_recovers_iff (fun _ => 0) [cutLengthFrame] List.length_replicate 0]
  decide +kernel

end Newtmq
