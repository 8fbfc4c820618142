/-
Module: Newtmq.Proofs.FrameBoundaries
Purpose: What lies between two frames of the data file: after a frame, the next one is read by a new
  call in the same block, at the start of the next block, or after the NUL of the frame before.
Trusted boundary: none
Main exports: Boundary, Call.skip_nul, boundary_start, boundary_nul, Call.return_boundary,
  Call.return_before_nul, Call.return_at_nul
-/
import Newtmq.Proofs.ParseSteps
import Newtmq.Spec.BlockLayout

namespace Newtmq

variable (rand : Nat → Nat)

/-- The frames `head` have been read, and what the file still holds at `place` is `later`: the result
is found already, or a call without a frame is at `place`. A call that began with the block is at most
one NUL into it. -/
structure Boundary (place : Place) (later : List UInt8) (head : List Frame)
    (result : Option UnpersistState) : Prop where
  finished : later = [] → ∃ st, result = some st ∧ st.head = head ∧ st.prevBuffer = none
  starts : later ≠ [] → ∃ (call : Call) (rands : Nat), call.head = head ∧
    call.Ahead place.index later ∧ (place.fresh = true ↔ call.start = 0) ∧
    (call.start = 0 → place.index ≤ 1) ∧
    result = call.from rand (call.reading place.index allocFrame rands)

/-! ### A frame without a command -/

theorem allocFrame_status : allocFrame.status = .born := rfl

theorem allocFrame_not_body : allocFrame.status ≠ .inputBody := by
  decide

/-- No command fits into fewer than three bytes. -/
theorem frameUpdate_born (finish : Frame → Frame) (line : List UInt8) {len : Nat} (few : len < 3) :
    frameUpdate finish line len allocFrame = (-1, allocFrame) := by
  have long : ∀ w ∈ finfoArr, 3 ≤ w.length := by decide
  have unknown : findFrameName line len finfoArr = none := by
    rw [findFrameName_eq_none]
    intro w mem short
    have := long w mem
    omega
  simp [frameUpdate, allocFrame, frameSetname, unknown]

/-- A NUL before the command line is passed over. -/
theorem Call.skip_nul {call : Call} {place : Nat} {rest : List UInt8}
    (ahead : call.Ahead place (0 :: rest)) (fits : place < BUFFER_LEN) (rands : Nat) :
    call.from rand (call.reading place allocFrame rands) =
        call.from rand (call.reading (place + 1) allocFrame rands) ∧
      call.Ahead (place + 1) rest := by
  constructor
  · have line : call.Ahead place ([] ++ 0 :: rest) := ahead
    exact Call.line_again rand line fits (fun rest => ssplit_empty rest (by decide))
      allocFrame_not_body (by simp [updateInside, allocFrame_status])
      (fun _ => frameUpdate_born _ _ (by decide)) (by decide)
  · have nul : call.Ahead place ([0] ++ rest) := ahead
    exact nul.advance fits

/-- With fewer than three bytes ahead, a pass without a frame takes none of them for a command. -/
theorem parsePass_few {memory : List UInt8} {inputLen : Nat} (held : inputLen ≤ memory.length)
    {st : ParseState} (more : st.curr < inputLen) (few : inputLen - st.curr < 3)
    (frame : st.frame = allocFrame) (saved : st.prevBuffer = none) :
    ∃ len, parsePass rand memory inputLen st =
      .again { st with curr := st.curr + len + 1, offset := st.curr + len + 1 + 1 } := by
  obtain ⟨curr, _, _, offset, rands⟩ := st
  subst frame saved
  simp only at more few
  have enough : inputLen - curr ≤ (memory.drop curr).length := by
    rw [List.length_drop]
    omega
  have nonempty : (memory.drop curr).take (inputLen - curr) ≠ [] := by
    rw [← List.length_pos_iff, List.length_take]
    omega
  rcases split : ssplit ((memory.drop curr).take (inputLen - curr)) false with ⟨ret, len⟩
  have short : len < 3 := by
    have := ssplit_le false nonempty
    rw [split, List.length_take] at this
    omega
  have found : ssplitIn (memory.drop curr) (inputLen - curr)
      (allocFrame.status = .inputBody) = some (ret, len) := by
    rw [ssplitIn, if_pos enough, ← split]
    rfl
  refine ⟨len, ?_⟩
  rw [parsePass_line rand more rfl found (Or.inr allocFrame_not_body)]
  simp [updateInside, allocFrame_status, frameUpdate_born _ _ short]

/-- The last bytes of a call that is left without a frame, when there are fewer than three of them:
whatever they are, none of them is taken for a frame. -/
theorem parseFrom_few {memory : List UInt8} {inputLen : Nat} (held : inputLen ≤ memory.length)
    (few : inputLen ≤ 3) (st : ParseState) (begun : 1 ≤ st.curr) (frame : st.frame = allocFrame)
    (saved : st.prevBuffer = none) (offset : st.offset = st.curr + 1) :
    ∃ parsed, parseFrom rand memory inputLen st = some (.error, parsed) ∧
      parsed.frame = allocFrame ∧ parsed.prevBuffer = none ∧ 2 ≤ parsed.offset := by
  induction left : inputLen - st.curr using Nat.strong_induction_on generalizing st with
  | _ left ih =>
      by_cases past : inputLen ≤ st.curr
      · refine ⟨st, ?_, frame, saved, by omega⟩
        apply parseFrom_leave
        rw [parsePass, if_pos past]
      · obtain ⟨len, again⟩ := parsePass_few rand held (by omega) (by omega) frame saved
        rw [parseFrom_again rand again]
        exact ih _ (by simp only; omega) _ (by simp only; omega) frame saved
          (by simp only; omega) rfl

/-! ### From one frame to the next -/

theorem boundary_start {later frameBuffer : List UInt8} (st : UnpersistState)
    (sized : frameBuffer.length = BUFFER_LEN) (idle : st.frame = none) (saved : st.prevBuffer = none) :
    Boundary rand ⟨0, true⟩ later st.head (fileFrom rand later frameBuffer st) where
  finished := by
    rintro rfl
    exact ⟨st, fileFrom_nil rand frameBuffer st, rfl, saved⟩
  starts more := by
    obtain ⟨call, head, start, ahead, goes⟩ := fileFrom_call rand more sized saved
    rw [idle] at goes
    exact ⟨call, st.rands, head, ahead, by simp [start], by simp, goes⟩

/-- A call without a frame at the end of the file. -/
theorem Call.from_end {call : Call} {place : Nat} (ahead : call.Ahead place [])
    (early : call.start = 0) (positive : 0 < place) (frame : Frame) (rands : Nat) :
    ∃ st, call.from rand (call.reading place frame rands) = some st ∧ st.head = call.head ∧
      st.prevBuffer = none := by
  have len : call.len = place := by
    have := ahead.inside
    rw [ahead.len, List.length_nil]
    omega
  have leave : parsePass rand (call.frameBuffer.drop call.start) call.len
      (call.reading place frame rands) = .leave (some (.error, call.reading place frame rands)) := by
    rw [parsePass, if_pos]
    simp only [Call.reading]
    omega
  have past : (call.len : Int) ≤ call.start + (call.reading place frame rands).offset := by
    simp only [Call.reading]
    rw [if_neg (by omega)]
    omega
  obtain ⟨st, back, head, -, saved, -⟩ := call.return_open rand _ past rfl
  have file : call.file = [] := by simpa using ahead.file
  rw [Call.from_leave rand leave, Option.bind_some, back, file, fileFrom_nil]
  exact ⟨st, rfl, head, saved⟩

/-- The NUL of a frame without a body is the first byte of a block. -/
theorem boundary_nul {later frameBuffer : List UInt8} (st : UnpersistState)
    (sized : frameBuffer.length = BUFFER_LEN) (idle : st.frame = none) (saved : st.prevBuffer = none) :
    Boundary rand ⟨1, true⟩ later st.head (fileFrom rand (0 :: later) frameBuffer st) := by
  obtain ⟨call, head, start, ahead, goes⟩ :=
    fileFrom_call rand (List.cons_ne_nil 0 later) sized saved
  rw [idle] at goes
  obtain ⟨skipped, ahead'⟩ := Call.skip_nul rand ahead (by decide) st.rands
  have result : fileFrom rand (0 :: later) frameBuffer st =
      call.from rand (call.reading 1 allocFrame st.rands) := goes.trans skipped
  rw [result]
  constructor
  · rintro rfl
    obtain ⟨last, found, same, none⟩ := Call.from_end rand ahead' start Nat.one_pos allocFrame st.rands
    exact ⟨last, found, same.trans head, none⟩
  · intro _
    exact ⟨call, st.rands, head, ahead', by simp [start], by simp, rfl⟩

section Return

variable {call : Call} {parsed : ParseState} {later : List UInt8}

theorem Call.return_again {place : Nat} (ahead : call.Ahead place later) (more : later ≠ [])
    (short : place < BUFFER_LEN) (saved : parsed.prevBuffer = none)
    (offset : call.start + parsed.offset = place) :
    ∃ next : Call, next.head = call.head ++ [parsed.frame] ∧ next.start = place ∧
      next.Ahead place later ∧
      call.return rand (.success, parsed) =
        next.from rand (next.reading place allocFrame parsed.rands) := by
  have positive := List.length_pos_iff.mpr more
  have len := ahead.len
  have inside : place < call.len := by omega
  have index : (call.next (.success, parsed)).index = place := offset
  refine ⟨⟨call.file, call.frameBuffer, call.len, place, call.head ++ [parsed.frame]⟩, rfl, rfl,
    ⟨Nat.le_refl _, ahead.inside, ahead.sized, ahead.bytes, ahead.len, ahead.file⟩, ?_⟩
  rw [Call.return, if_pos (by omega), blockFrom_call rand (by omega) index inside]
  simp [Call.next, Call.reading, saved]

/-- After the last byte of a frame. -/
theorem Call.return_boundary {place : Nat} (ahead : call.Ahead place later) (positive : 0 < place)
    (saved : parsed.prevBuffer = none) (offset : call.start + parsed.offset = place) :
    Boundary rand (Place.next place) later (call.head ++ [parsed.frame])
      (call.return rand (.success, parsed)) := by
  have inside := ahead.inside
  have index : (call.next (.success, parsed)).index = place := offset
  have len := ahead.len
  rw [Place.next]
  split
  next short =>
    constructor
    · rintro rfl
      have file : call.file = [] := by simpa using ahead.file
      refine ⟨call.next (.success, parsed), ?_, rfl, saved⟩
      rw [Call.return, if_neg (by simp only [List.length_nil] at len; omega), file, fileFrom_nil]
    · intro more
      obtain ⟨next, head, start, ahead', goes⟩ :=
        Call.return_again rand ahead more short saved offset
      exact ⟨next, parsed.rands, head, ahead', by simp [start]; omega, by simp only; omega, goes⟩
  next full =>
    have file : call.file = later := by
      rw [ahead.file, show BUFFER_LEN - place = 0 by omega, List.drop_zero]
    rw [Call.return, if_neg (by omega), file]
    exact boundary_start rand (call.next (.success, parsed)) ahead.sized rfl saved

/-- After the last byte of a block, when the NUL of the frame follows in the next one. -/
theorem Call.return_before_nul (ahead : call.Ahead BUFFER_LEN (0 :: later))
    (saved : parsed.prevBuffer = none) (offset : call.start + parsed.offset = BUFFER_LEN + 1) :
    Boundary rand ⟨1, true⟩ later (call.head ++ [parsed.frame])
      (call.return rand (.success, parsed)) := by
  have index : (call.next (.success, parsed)).index = BUFFER_LEN + 1 := offset
  have full := (ahead.memory_full (Nat.le_add_right _ _)).2
  have file : call.file = 0 :: later := by simpa using ahead.file
  rw [Call.return, if_neg (by omega), file]
  exact boundary_nul rand (call.next (.success, parsed)) ahead.sized rfl saved

/-- Before the NUL, when the LF of the last header line has been taken for the blank line. At the end
of the file the next call has a limit of three bytes, although only the NUL is left. -/
theorem Call.return_at_nul (ahead : call.Ahead 2 (0 :: later)) (saved : parsed.prevBuffer = none)
    (offset : call.start + parsed.offset = 2) :
    Boundary rand ⟨3, false⟩ later (call.head ++ [parsed.frame])
      (call.return rand (.success, parsed)) := by
  obtain ⟨next, head, start, ahead', goes⟩ :=
    Call.return_again rand ahead (List.cons_ne_nil _ _) (by decide) saved offset
  obtain ⟨skipped, past⟩ := Call.skip_nul rand ahead' (by decide) parsed.rands
  rw [goes, skipped]
  constructor
  · rintro rfl
    have len : next.len = 3 := by rw [past.len]; rfl
    have held : next.len ≤ (next.frameBuffer.drop next.start).length := by
      rw [List.length_drop, past.sized, len, start]
      decide
    obtain ⟨last, parse, _, saved', moved⟩ := parseFrom_few rand held (Nat.le_of_eq len)
      (next.reading 3 allocFrame parsed.rands) (by simp only [Call.reading, start]; decide) rfl
      rfl (by simp only [Call.reading, start]; decide)
    have beyond : (next.len : Int) ≤ next.start + last.offset := by
      rw [len, start]
      omega
    obtain ⟨st, back, same, -, none, -⟩ := next.return_open rand last beyond saved'
    have file : next.file = [] := by simpa using past.file
    refine ⟨st, ?_, same.trans head, none⟩
    rw [Call.from, parse, Option.bind_some, back, file, fileFrom_nil]
  · intro _
    exact ⟨next, parsed.rands, head, past, by simp [start], by simp [start], rfl⟩

end Return

end Newtmq
