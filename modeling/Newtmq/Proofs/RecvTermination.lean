/-
Module: Newtmq.Proofs.RecvTermination
Purpose: When the loop of `recv_data` ends. A pass moves the cursor forward except in one situation:
  it starts in a body at a NUL while fewer bytes than announced have been received. Such a pass
  leads to another one in the same situation, so the loop ends exactly when none of its passes
  starts there.
Trusted boundary: none
Main exports: Stalls, recvPass_progress, recvPass_stalls, recvData_eq_some_iff,
  recv_advances_iff_never_stalls
-/
import Newtmq.Proofs.RecvPass

namespace Newtmq

variable {env : RecvEnv} {sock : Int}

/-! ### The pass that does not move -/

/-- `has_contentlen` once the saved fragment has been stored. -/
def RecvState.received (st : RecvState) (frame : Frame) : Int :=
  if 0 < st.cinfo.prevLen then wrap32 (frame.hasContentlen + st.cinfo.prevLen)
  else frame.hasContentlen

/-- A pass started here stays here: the frame is in its body, the next byte is a NUL, and fewer
bytes than announced have been received. -/
def Stalls (curr : List UInt8) (st : RecvState) : Prop :=
  curr.head? = some 0 ∧ ∃ frame, st.cinfo.frame = some frame ∧ frame.status = .inputBody ∧
    st.received frame < frame.contentlen

/-- At a NUL in the body, the piece handed on is the saved fragment. -/
theorem exists_joinedLine_zero (st : RecvState) (curr : List UInt8) (frame : Frame) :
    ∃ line len, joinedLine st.cinfo curr 0 = (line, len) ∧
      (frameBodyPiece line len frame).hasContentlen = st.received frame := by
  cases saved : st.cinfo.prevData with
  | none =>
      exact ⟨curr, 0, by simp [joinedLine, saved],
        by simp [frameBodyPiece, RecvState.received, StompConninfo.prevLen, saved]⟩
  | some prev =>
      refine ⟨prev.bytes ++ [0], prev.bytes.length, by simp [joinedLine, saved], ?_⟩
      simp only [frameBodyPiece, RecvState.received, StompConninfo.prevLen, saved]
      split <;> rfl

/-- A stalled pass leads to a stalled pass. -/
theorem recvPass_stalls {curr : List UInt8} {st : RecvState} (stalls : Stalls curr st) :
    ∃ next, recvPass env sock (curr, st) = .again next ∧ Stalls next.1 next.2 := by
  obtain ⟨zero, frame, current, body, short⟩ := stalls
  obtain ⟨rest, rfl⟩ : ∃ rest, curr = 0 :: rest := by
    cases curr with
    | nil => simp at zero
    | cons c rest => exact ⟨rest, by simpa using zero⟩
  have split : ssplit (0 :: rest) st.isBodyInput = (.success, 0) :=
    ssplit_empty rest (by simp [emptyStart])
  obtain ⟨line, len, joined, received⟩ := exists_joinedLine_zero st (0 :: rest) frame
  rw [← received] at short
  refine ⟨_, recvPass_line split (by simp) (Or.inl rfl), ?_⟩
  rw [recvLine_body_open current body joined short]
  exact ⟨rfl, frameBodyPiece line len frame, rfl, by simpa using body, by
    simpa [RecvState.received, StompConninfo.prevLen, RecvState.dropPrev, afterUpdate] using short⟩

/-- In the body, a pass that does not stall moves past at least one byte. -/
theorem recvLine_body_progress {c : UInt8} {rest : List UInt8} {st : RecvState} {frame : Frame}
    (current : st.cinfo.frame = some frame) (body : frame.status = .inputBody)
    (moves : ¬ Stalls (c :: rest) st) :
    (recvLine env sock (c :: rest) (ssplit (c :: rest) st.isBodyInput).2 st).1.length <
      (c :: rest).length := by
  by_cases zero : c = 0
  · -- The frame is complete, since the pass does not stall: the NUL is skipped.
    subst zero
    rw [ssplit_empty rest (by simp [emptyStart])]
    obtain ⟨line, len, joined, received⟩ := exists_joinedLine_zero st (0 :: rest) frame
    have complete : frame.contentlen ≤ (frameBodyPiece line len frame).hasContentlen := by
      rw [received]
      by_contra short
      exact moves ⟨rfl, frame, current, body, by omega⟩
    rw [recvLine_body_complete current body joined complete]
    simp
  · have positive : 0 < (ssplit (c :: rest) st.isBodyInput).2 := by
      rw [ssplit_eq, isBodyInput_of_status current body]
      have start : emptyStart true c = false := by simp [emptyStart, zero]
      rw [start]
      exact Nat.lt_min.mpr ⟨Nat.succ_pos _, by decide⟩
    generalize (ssplit (c :: rest) st.isBodyInput).2 = n at positive
    rcases joined : joinedLine st.cinfo (c :: rest) n with ⟨line, len⟩
    by_cases complete : frame.contentlen ≤ (frameBodyPiece line len frame).hasContentlen
    · rw [recvLine_body_complete current body joined complete]
      simp only [List.length_drop, List.length_cons]
      omega
    · rw [recvLine_body_open current body joined (by omega)]
      simp only [List.length_drop, List.length_cons]
      omega

/-- Every other pass that goes round again moves the cursor forward. -/
theorem recvPass_progress {curr : List UInt8} {st : RecvState} {next : List UInt8 × RecvState}
    (moves : ¬ Stalls curr st) (again : recvPass env sock (curr, st) = .again next) :
    next.1.length < curr.length := by
  cases curr with
  | nil => cases again
  | cons c rest =>
      rcases recvPass_cases env sock st (List.cons_ne_nil c rest) with
        leaves | goes
      · rw [leaves] at again
        cases again
      · rw [goes] at again
        cases again
        by_cases mode : st.isBodyInput = true
        · obtain ⟨frame, current, body⟩ :
              ∃ frame, st.cinfo.frame = some frame ∧ frame.status = .inputBody := by
            cases h : st.cinfo.frame with
            | none => simp [RecvState.isBodyInput, h] at mode
            | some frame => exact ⟨frame, rfl, by simpa [RecvState.isBodyInput, h] using mode⟩
          exact recvLine_body_progress current body moves
        · rw [recvLine_header_next (by simpa using mode)]
          simp only [List.length_drop, List.length_cons]
          omega

/-! ### The whole call -/

theorem recv_terminates_iff (chunk : List UInt8) (st : RecvState) :
    Loop.Terminates (recvPass env sock) (chunk, st) ↔
      ∀ later, Loop.Visits (recvPass env sock) (chunk, st) later → ¬ Stalls later.1 later.2 :=
  Loop.terminates_iff_never_stuck (fun s => Stalls s.1 s.2) (fun s => s.1.length)
    (fun _ _ moves again => recvPass_progress moves again) (fun _ stalls => recvPass_stalls stalls) _

/-- `recvData` finds the result of the loop whenever there is one. -/
theorem recvData_eq_some_iff (chunk : List UInt8) (st st' : RecvState) :
    recvData env sock chunk st = some st' ↔ Loop.Returns (recvPass env sock) (chunk, st) st' :=
  (Loop.returns_iff_run (recvPass env sock) (fun s => Stalls s.1 s.2) (fun s => s.1.length)
    (fun _ _ moves again => recvPass_progress moves again) (fun _ stalls => recvPass_stalls stalls)
    (chunk, st) st').symm

theorem recvData_isSome_iff (chunk : List UInt8) (st : RecvState) :
    (recvData env sock chunk st).isSome ↔ Loop.Terminates (recvPass env sock) (chunk, st) := by
  rw [Option.isSome_iff_exists]
  exact exists_congr fun st' => recvData_eq_some_iff chunk st st'

/-- Every pass of the call moves the cursor forward, and the call returns. -/
def RecvAdvances (env : RecvEnv) (sock : Int) (chunk : List UInt8) (st : RecvState) : Prop :=
  (∀ later next, Loop.Visits (recvPass env sock) (chunk, st) later →
      recvPass env sock later = .again next → next.1.length < later.1.length) ∧
    (recvData env sock chunk st).isSome

/-- From every connection state and for every chunk, the cursor moves forward at each pass and the
call returns exactly when no pass of its loop starts in a body at a NUL with fewer bytes received
than announced. -/
theorem recv_advances_iff_never_stalls (env : RecvEnv) (sock : Int) (chunk : List UInt8)
    (st : RecvState) :
    RecvAdvances env sock chunk st ↔
      ∀ later, Loop.Visits (recvPass env sock) (chunk, st) later → ¬ Stalls later.1 later.2 := by
  rw [RecvAdvances, recvData_isSome_iff, recv_terminates_iff]
  constructor
  · exact fun h => h.2
  · intro never
    refine ⟨?_, never⟩
    rintro ⟨curr, later⟩ next visited again
    exact recvPass_progress (never _ visited) again

/-- A body that ends two bytes after it began, although five bytes were announced, keeps the server
thread in the loop. -/
theorem recv_short_body_never_returns :
    ¬ RecvAdvances ⟨fun _ => 0, fun _ _ => true⟩ 3
      (cstring "SEND\ncontent-length:5\n\nab" ++ [0])
      ⟨connInit ⟨fun _ => 0, fun _ _ => true⟩ 0, [], [], 9⟩ := by
  have never : recvData ⟨fun _ => 0, fun _ _ => true⟩ 3
      (cstring "SEND\ncontent-length:5\n\nab" ++ [0])
      ⟨connInit ⟨fun _ => 0, fun _ _ => true⟩ 0, [], [], 9⟩ = none := by
    decide +kernel
  rintro ⟨_, returns⟩
  rw [never] at returns
  cases returns

end Newtmq
