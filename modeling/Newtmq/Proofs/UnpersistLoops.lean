/-
Module: Newtmq.Proofs.UnpersistLoops
Purpose: The three nested loops of `unpersist_queue_context` all end, so what remains to be done from
  a state of one of them has a result, and a pass does not change it. The equations below let a proof
  follow the passes of `parse_frame` through calls and blocks.
Trusted boundary: none
Main exports: parseFrom, fileFrom, blockFrom, Call, Call.from, parseFrom_again, parseFrom_leave,
  fileFrom_nil, fileFrom_block, blockFrom_call
-/
import Newtmq.Core.Unpersist

namespace Newtmq

variable (rand : Nat → Nat)

/-! ### The loop of `parse_frame` -/

theorem ssplitScan_ge (isBody : Bool) (bytes : List UInt8) :
    ∀ count, count ≤ (ssplitScan isBody bytes count).2 := by
  induction bytes with
  | nil =>
      intro count
      simp [ssplitScan]
  | cons c rest ih =>
      intro count
      rw [ssplitScan]
      split
      · exact Nat.le_refl count
      · have := ih (count + 1)
        omega

/-- In a body, `ssplit` finds an empty line only at a NUL. -/
theorem ssplit_body_pos (start : List UInt8) : 0 < (ssplit start true).2 ∨ isBl start = true := by
  rw [ssplit]
  by_cases bl : isBl start = true
  · exact Or.inr bl
  · have := ssplitScan_ge true start.tail 1
    simp only [bl, Bool.not_true, Bool.false_and, Bool.or_false]
    exact Or.inl (by simp only [Bool.false_eq_true, if_false]; omega)

theorem isBl_take {start : List UInt8} {limit : Nat} (h : isBl (start.take limit) = true) :
    isBl start = true := by
  cases start with
  | nil => simp [isBl] at h
  | cons c rest =>
      cases limit with
      | zero => simp [isBl] at h
      | succ limit => simpa [isBl] using h

theorem ssplitIn_body_pos {memory : List UInt8} {limit : Nat} {ret : Ret} {len : Nat}
    (split : ssplitIn memory limit true = some (ret, len)) : 0 < len ∨ isBl memory = true := by
  rw [ssplitIn] at split
  split at split
  · have found := Option.some.inj split
    rcases ssplit_body_pos (memory.take limit) with pos | bl
    · exact Or.inl (by rwa [found] at pos)
    · exact Or.inr (isBl_take bl)
  · have pos := ssplit_body_pos memory
    split at split
    · next found =>
        cases split
        rwa [found] at pos
    · cases split

/-- Every pass moves `curr` forward. -/
theorem parsePass_again {memory : List UInt8} {inputLen : Nat} {st next : ParseState}
    (again : parsePass rand memory inputLen st = .again next) :
    st.curr < inputLen ∧ st.prevBuffer = none ∧ next.prevBuffer = none ∧
      st.curr < next.curr ∧ next.offset = next.curr + 1 := by
  simp only [parsePass] at again
  split at again
  · cases again
  next more =>
    split at again
    · cases again
    next ret lineLen split =>
      split at again
      · split at again <;> cases again
      · split at again
        · cases again
        next saved =>
          split at again
          · split at again
            · cases again
            · cases again
              have none : st.prevBuffer = none := by simpa using saved
              refine ⟨by omega, none, none, ?_, rfl⟩
              by_cases body : st.frame.status = .inputBody
              · simp only [body, if_true]
                simp only [body, decide_true] at split
                rcases ssplitIn_body_pos split with pos | bl
                · omega
                · simp only [bl, if_true]
                  omega
              · simp only [body, if_false]
                omega
          · cases again

/-- `parse_frame`, from the state `st` of its loop on. -/
def parseFrom (memory : List UInt8) (inputLen : Nat) (st : ParseState) :
    Option (Ret × ParseState) :=
  (Loop.run (parsePass rand memory inputLen) (inputLen + 1) st).join

theorem parseFrom_again {memory : List UInt8} {inputLen : Nat} {st next : ParseState}
    (again : parsePass rand memory inputLen st = .again next) :
    parseFrom rand memory inputLen st = parseFrom rand memory inputLen next := by
  have same := Loop.run_eq_next (parsePass rand memory inputLen) (fun _ => True)
    (fun st => inputLen - st.curr)
    (fun st next _ again => by
      have step := parsePass_again rand again
      exact ⟨trivial, by omega⟩)
    trivial (Nat.lt_succ_of_le (Nat.sub_le _ _)) again
  rw [parseFrom, same, parseFrom]

theorem parseFrom_leave {memory : List UInt8} {inputLen : Nat} {st : ParseState}
    {result : Option (Ret × ParseState)}
    (leave : parsePass rand memory inputLen st = .leave result) :
    parseFrom rand memory inputLen st = result := by
  rw [parseFrom, Loop.run_succ_leave leave, Option.join_some]

/-! ### The loop over a block -/

/-- With a saved fragment, a call stores nothing through `offset`, and leaves a saved fragment. -/
theorem parsePass_saved (memory : List UInt8) (inputLen : Nat) {st : ParseState}
    (saved : st.prevBuffer.isSome) :
    ∃ result, parsePass rand memory inputLen st = .leave result ∧
      ∀ ret parsed, result = some (ret, parsed) →
        parsed.prevBuffer.isSome ∧ parsed.offset = st.offset := by
  simp only [parsePass, saved, if_true]
  split
  · exact ⟨_, rfl, by rintro _ _ ⟨⟩; exact ⟨saved, rfl⟩⟩
  · split
    · exact ⟨none, rfl, by simp⟩
    · split
      · split
        · exact ⟨none, rfl, by simp⟩
        · exact ⟨_, rfl, by rintro _ _ ⟨⟩; exact ⟨rfl, rfl⟩⟩
      · exact ⟨none, rfl, by simp⟩

/-- Without one, a call that saves nothing moves forward. -/
theorem parseFrame_forward {memory : List UInt8} {inputLen : Nat} (positive : 0 < inputLen)
    {frame : Frame} {rands : Nat} {ret : Ret} {parsed : ParseState}
    (h : parseFrame rand memory inputLen frame none rands = some (ret, parsed)) :
    parsed.prevBuffer.isSome ∨ 1 ≤ parsed.offset := by
  rw [parseFrame, Option.join_eq_some_iff] at h
  refine Loop.run_invariant
    (fun st : ParseState => st.prevBuffer = none ∧ (st.curr = 0 ∨ 1 ≤ st.offset))
    (fun r => ∀ ret parsed, r = some (ret, parsed) →
      parsed.prevBuffer.isSome ∨ 1 ≤ parsed.offset)
    ?keeps ?leaves ⟨rfl, Or.inl rfl⟩ h ret parsed rfl
  case keeps =>
    intro st next _ again
    have step := parsePass_again rand again
    exact ⟨step.2.2.1, Or.inr (by omega)⟩
  case leaves =>
    rintro st result ⟨none, moved⟩ leave ret parsed rfl
    simp only [parsePass, none] at leave
    split at leave
    next past =>
      cases leave
      exact Or.inr (by rcases moved with zero | moved <;> omega)
    · split at leave
      · cases leave
      · split at leave
        · split at leave <;> cases leave
          exact Or.inl rfl
        · split at leave
          · cases leave
          · split at leave
            · split at leave <;> cases leave
              exact Or.inr (by simp only; omega)
            · cases leave

theorem parseFrame_saved {memory : List UInt8} {inputLen : Nat} {frame : Frame}
    {prevBuffer : Option (List UInt8)} (saved : prevBuffer.isSome) {rands : Nat} {ret : Ret}
    {parsed : ParseState}
    (h : parseFrame rand memory inputLen frame prevBuffer rands = some (ret, parsed)) :
    parsed.prevBuffer.isSome ∧ parsed.offset = -1 := by
  let first : ParseState := ⟨0, frame, prevBuffer, -1, rands⟩
  obtain ⟨result, leave, kept⟩ :=
    parsePass_saved rand memory inputLen (show first.prevBuffer.isSome from saved)
  rw [parseFrame, Loop.run_succ_leave leave, Option.join_some] at h
  exact kept ret parsed h

/-- The assignments that follow the call of `parse_frame`. -/
def UnpersistState.afterCall (st : UnpersistState) : Ret × ParseState → UnpersistState
  | (ret, parsed) =>
      { index := st.index + parsed.offset
        frame := if ret = .success then none else some parsed.frame
        head := if ret = .success then st.head ++ [parsed.frame] else st.head
        prevBuffer := parsed.prevBuffer
        rands := parsed.rands }

theorem blockPass_eq (frameBuffer : List UInt8) (len : Nat) {st : UnpersistState}
    (inside : 0 ≤ st.index) :
    blockPass rand frameBuffer len st =
      match parseFrame rand (frameBuffer.drop st.index.toNat) len (st.frame.getD allocFrame)
          st.prevBuffer st.rands with
      | none => .leave none
      | some returned =>
          if (st.afterCall returned).index < len then .again (st.afterCall returned)
          else .leave (some (st.afterCall returned)) := by
  have notBefore : ¬ st.index < 0 := by omega
  simp only [blockPass, notBefore, if_false]
  cases parseFrame rand (frameBuffer.drop st.index.toNat) len (st.frame.getD allocFrame)
    st.prevBuffer st.rands <;> rfl

/-- The calls that may still be made for a block: without a saved fragment the index grows, with one
it falls. -/
def UnpersistState.callsLeft (st : UnpersistState) : Nat :=
  if st.prevBuffer.isSome then (st.index + 1).toNat else 2 * BUFFER_LEN - st.index.toNat

theorem blockPass_again {frameBuffer : List UInt8} {len : Nat} (short : len ≤ BUFFER_LEN)
    {st next : UnpersistState} (inside : st.index < len)
    (again : blockPass rand frameBuffer len st = .again next) :
    next.index < len ∧ next.callsLeft < st.callsLeft := by
  by_cases before : st.index < 0
  · simp [blockPass, before] at again
  · rw [blockPass_eq rand frameBuffer len (by omega)] at again
    split at again
    · cases again
    next ret parsed call =>
      split at again
      next more =>
        cases again
        refine ⟨more, ?_⟩
        have size : BUFFER_LEN = 1024 := rfl
        simp only [UnpersistState.afterCall] at more ⊢
        simp only [UnpersistState.callsLeft]
        by_cases saved : st.prevBuffer.isSome = true
        · obtain ⟨kept, back⟩ := parseFrame_saved rand saved call
          simp only [saved, kept, if_true]
          omega
        · have none : st.prevBuffer = none := by simpa using saved
          rw [none] at call
          rcases parseFrame_forward rand (by omega) call with kept | forward
          · simp only [saved, kept, if_true, Bool.false_eq_true, if_false]
            omega
          · simp only [saved, Bool.false_eq_true, if_false]
            split <;> omega
      · cases again

/-! ### The loop over the file -/

theorem filePass_again {file frameBuffer : List UInt8} {st : UnpersistState}
    {next : (List UInt8 × List UInt8) × UnpersistState}
    (again : filePass rand ((file, frameBuffer), st) = .again next) :
    next.1.1.length < file.length := by
  have size : BUFFER_LEN = 1024 := rfl
  simp only [filePass] at again
  split at again
  · cases again
  next nonempty =>
    split at again
    · cases again
      have : 0 < (file.take BUFFER_LEN).length := List.length_pos_iff.mpr nonempty
      simp only [List.length_take, List.length_drop] at this ⊢
      omega
    · cases again

/-- The loop over the file, from a state between two blocks on. -/
def fileFrom (file frameBuffer : List UInt8) (st : UnpersistState) : Option UnpersistState :=
  (Loop.run (filePass rand) (file.length + 1) ((file, frameBuffer), st)).join

/-- The loops, from a state of the loop over a block on; `file` is what follows the block. -/
def blockFrom (file frameBuffer : List UInt8) (len : Nat) (st : UnpersistState) :
    Option UnpersistState :=
  (Loop.run (blockPass rand frameBuffer len) (3 * BUFFER_LEN) st).join.bind
    (fileFrom rand file frameBuffer)

theorem fileFrom_nil (frameBuffer : List UInt8) (st : UnpersistState) :
    fileFrom rand [] frameBuffer st = some st := by
  rfl

theorem fileFrom_eq_next {file frameBuffer : List UInt8} {st : UnpersistState}
    {next : (List UInt8 × List UInt8) × UnpersistState}
    (again : filePass rand ((file, frameBuffer), st) = .again next) :
    fileFrom rand file frameBuffer st = fileFrom rand next.1.1 next.1.2 next.2 := by
  have shorter := filePass_again rand again
  have adequate : ∀ {fuel}, next.1.1.length < fuel →
      Loop.run (filePass rand) (next.1.1.length + 1) next = Loop.run (filePass rand) fuel next := by
    intro fuel enough
    obtain ⟨_, result, found, _⟩ := Loop.returns_of_measure (filePass rand) (fun _ => True)
      (fun s => s.1.1.length)
      (fun s next _ again => ⟨trivial, filePass_again rand again⟩) next trivial
    rw [found, Loop.run_mono (by omega) found]
  rw [fileFrom, Loop.run_succ_again again, fileFrom, ← adequate shorter]

/-- `fread` gets the next block. -/
theorem fileFrom_block {file : List UInt8} (more : file ≠ []) (frameBuffer : List UInt8)
    (st : UnpersistState) :
    fileFrom rand file frameBuffer st =
      blockFrom rand (file.drop BUFFER_LEN)
        (file.take BUFFER_LEN ++ frameBuffer.drop (file.take BUFFER_LEN).length)
        (file.take BUFFER_LEN).length { st with index := 0 } := by
  have nonempty : file.take BUFFER_LEN ≠ [] := by
    rw [ne_eq, List.take_eq_nil_iff]
    rintro (zero | none)
    · cases zero
    · exact more none
  rw [blockFrom]
  cases block : Loop.run (blockPass rand
      (file.take BUFFER_LEN ++ frameBuffer.drop (file.take BUFFER_LEN).length)
      (file.take BUFFER_LEN).length) (3 * BUFFER_LEN) { st with index := 0 } with
  | none =>
      have leave : filePass rand ((file, frameBuffer), st) = .leave none := by
        simp only [filePass, nonempty, if_false, block]
      rw [fileFrom, Loop.run_succ_leave leave]
      rfl
  | some result =>
      cases result with
      | none =>
          have leave : filePass rand ((file, frameBuffer), st) = .leave none := by
            simp only [filePass, nonempty, if_false, block]
          rw [fileFrom, Loop.run_succ_leave leave]
          rfl
      | some last =>
          have again : filePass rand ((file, frameBuffer), st) = .again ((file.drop BUFFER_LEN,
              file.take BUFFER_LEN ++ frameBuffer.drop (file.take BUFFER_LEN).length), last) := by
            simp only [filePass, nonempty, if_false, block]
          rw [fileFrom_eq_next rand again]
          rfl

/-! ### One call -/

/-- What does not change during a call of `parse_frame`: the file after the block, the buffer and
the length of the block, where the call began, and the frames linked before. -/
structure Call where
  file : List UInt8
  frameBuffer : List UInt8
  len : Nat
  start : Nat
  head : List Frame

/-- The state after the call. -/
def Call.next (call : Call) : Ret × ParseState → UnpersistState
  | (ret, parsed) =>
      { index := call.start + parsed.offset
        frame := if ret = .success then none else some parsed.frame
        head := if ret = .success then call.head ++ [parsed.frame] else call.head
        prevBuffer := parsed.prevBuffer
        rands := parsed.rands }

/-- The loops, from a state after a call on. -/
def Call.return (call : Call) (returned : Ret × ParseState) : Option UnpersistState :=
  if (call.next returned).index < call.len then
    blockFrom rand call.file call.frameBuffer call.len (call.next returned)
  else fileFrom rand call.file call.frameBuffer (call.next returned)

/-- The loops, from a state inside a call on. -/
def Call.from (call : Call) (st : ParseState) : Option UnpersistState :=
  (parseFrom rand (call.frameBuffer.drop call.start) call.len st).bind (call.return rand)

theorem Call.from_again {call : Call} {st next : ParseState}
    (again : parsePass rand (call.frameBuffer.drop call.start) call.len st = .again next) :
    call.from rand st = call.from rand next := by
  rw [Call.from, parseFrom_again rand again, Call.from]

theorem Call.from_leave {call : Call} {st : ParseState} {result : Option (Ret × ParseState)}
    (leave : parsePass rand (call.frameBuffer.drop call.start) call.len st = .leave result) :
    call.from rand st = result.bind (call.return rand) := by
  rw [Call.from, parseFrom_leave rand leave]

theorem blockFrom_leave {file frameBuffer : List UInt8} {len : Nat} {st : UnpersistState}
    {result : Option UnpersistState} (leave : blockPass rand frameBuffer len st = .leave result) :
    blockFrom rand file frameBuffer len st = result.bind (fileFrom rand file frameBuffer) := by
  have fuel : 3 * BUFFER_LEN = 3071 + 1 := rfl
  rw [blockFrom, fuel, Loop.run_succ_leave leave, Option.join_some]

theorem blockFrom_again {file frameBuffer : List UInt8} {len : Nat} (short : len ≤ BUFFER_LEN)
    {st next : UnpersistState} (inside : st.index < len)
    (again : blockPass rand frameBuffer len st = .again next) :
    blockFrom rand file frameBuffer len st = blockFrom rand file frameBuffer len next := by
  have enough : st.callsLeft < 3 * BUFFER_LEN := by
    have size : BUFFER_LEN = 1024 := rfl
    rw [UnpersistState.callsLeft]
    split <;> omega
  rw [blockFrom, blockFrom, Loop.run_eq_next (blockPass rand frameBuffer len)
    (fun st => st.index < len) UnpersistState.callsLeft
    (fun _ _ inv again => blockPass_again rand short inv again) inside enough again]

/-- A pass of the loop over a block is one call. -/
theorem blockFrom_call {file frameBuffer : List UInt8} {len : Nat} (short : len ≤ BUFFER_LEN)
    {st : UnpersistState} {start : Nat} (index : st.index = start) (inside : start < len) :
    blockFrom rand file frameBuffer len st =
      Call.from rand ⟨file, frameBuffer, len, start, st.head⟩
        ⟨0, st.frame.getD allocFrame, st.prevBuffer, -1, st.rands⟩ := by
  have pass := blockPass_eq rand frameBuffer len (show 0 ≤ st.index by omega)
  have place : st.index.toNat = start := by omega
  have next : ∀ returned, st.afterCall returned =
      Call.next ⟨file, frameBuffer, len, start, st.head⟩ returned := by
    rintro ⟨ret, parsed⟩
    simp [UnpersistState.afterCall, Call.next, index]
  simp only [place, next] at pass
  rw [Call.from]
  change _ = (parseFrame rand (frameBuffer.drop start) len _ _ _).bind _
  cases call : parseFrame rand (frameBuffer.drop start) len (st.frame.getD allocFrame)
      st.prevBuffer st.rands with
  | none =>
      simp only [call] at pass
      rw [blockFrom_leave rand pass]
      rfl
  | some returned =>
      simp only [call] at pass
      rw [Option.bind_some, Call.return]
      split at pass
      next more => rw [if_pos more, blockFrom_again rand short (by omega) pass]
      next done =>
        rw [if_neg done, blockFrom_leave rand pass]
        rfl

/-- Before the start of the buffer there is nothing to read. -/
theorem blockFrom_before {file frameBuffer : List UInt8} {len : Nat} {st : UnpersistState}
    (before : st.index < 0) : blockFrom rand file frameBuffer len st = none := by
  have leave : blockPass rand frameBuffer len st = .leave none := by
    simp [blockPass, before]
  rw [blockFrom_leave rand leave]
  rfl

end Newtmq
