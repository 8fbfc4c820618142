/-
Module: Newtmq.Proofs.ParseSteps
Purpose: The steps of `parse_frame` inside a block, from a position of the block to the next one: a
  line that lies in the block, a line that the block cuts, the end of the block, and the return with a
  frame.
Trusted boundary: none
Main exports: Call.Ahead, Call.reading, Call.line_again, Call.line_complete, Call.body_complete,
  Call.cut_none, Call.line_cut, Call.body_cut, Call.block_end
-/
import Newtmq.Proofs.UnpersistLoops
import Newtmq.Proofs.LineSplit

namespace Newtmq

variable (rand : Nat → Nat)

/-! ### Positions -/

/-- At position `place` of the block, `rest` is what the file still holds. -/
structure Call.Ahead (call : Call) (place : Nat) (rest : List UInt8) : Prop where
  started : call.start ≤ place
  inside : place ≤ BUFFER_LEN
  sized : call.frameBuffer.length = BUFFER_LEN
  bytes : rest.take (BUFFER_LEN - place) <+: call.frameBuffer.drop place
  len : call.len = min BUFFER_LEN (place + rest.length)
  file : call.file = rest.drop (BUFFER_LEN - place)

/-- The state of the loop at position `place`, after the lines before it. -/
def Call.reading (call : Call) (place : Nat) (frame : Frame) (rands : Nat) : ParseState :=
  { curr := place - call.start
    frame := frame
    prevBuffer := none
    offset := if place = call.start then -1 else (place - call.start : Nat) + 1
    rands := rands }

theorem Call.memory {call : Call} {place : Nat} {rest : List UInt8} (ahead : call.Ahead place rest) :
    (call.frameBuffer.drop call.start).drop (place - call.start) =
      call.frameBuffer.drop place := by
  rw [List.drop_drop, Nat.add_sub_cancel' ahead.started]

/-- The bytes that lie in the block are in the memory. -/
theorem Call.Ahead.memory_eq {call : Call} {place : Nat} {line rest : List UInt8}
    (ahead : call.Ahead place (line ++ rest)) (fits : place + line.length ≤ BUFFER_LEN) :
    ∃ tail, call.frameBuffer.drop place = line ++ tail := by
  obtain ⟨more, memory⟩ := ahead.bytes
  rw [List.take_append, List.take_of_length_le (show line.length ≤ BUFFER_LEN - place by omega),
    List.append_assoc] at memory
  exact ⟨_, memory.symm⟩

/-- Bytes that lie in the block can be passed over. -/
theorem Call.Ahead.advance {call : Call} {place : Nat} {line rest : List UInt8}
    (ahead : call.Ahead place (line ++ rest)) (fits : place + line.length ≤ BUFFER_LEN) :
    call.Ahead (place + line.length) rest := by
  refine ⟨Nat.le_add_right_of_le ahead.started, fits, ahead.sized, ?_, ?_, ?_⟩
  · obtain ⟨more, memory⟩ := ahead.bytes
    rw [List.take_append, List.take_of_length_le (show line.length ≤ BUFFER_LEN - place by omega),
      List.append_assoc] at memory
    rw [← List.drop_drop, ← memory, List.drop_left, Nat.sub_add_eq]
    exact List.prefix_append _ _
  · rw [ahead.len, List.length_append, Nat.add_assoc]
  · rw [ahead.file, List.drop_append, List.drop_of_length_le (by omega), List.nil_append,
      Nat.sub_add_eq]

/-- When the file goes on beyond the block, the memory ends with the block. -/
theorem Call.Ahead.memory_full {call : Call} {place : Nat} {rest : List UInt8}
    (ahead : call.Ahead place rest) (long : BUFFER_LEN ≤ place + rest.length) :
    call.frameBuffer.drop place = rest.take (BUFFER_LEN - place) ∧ call.len = BUFFER_LEN := by
  constructor
  · apply (ahead.bytes.eq_of_length ?_).symm
    rw [List.length_take, List.length_drop, ahead.sized]
    omega
  · rw [ahead.len]
    omega

/-! ### The splitter inside the memory -/

/-- A line that the splitter finds wherever it lies is found inside the memory. -/
theorem ssplitIn_found {isBody : Bool} {line : List UInt8} {t : UInt8}
    (split : ∀ rest, ssplit (line ++ t :: rest) isBody = (.success, line.length))
    {limit : Nat} (inside : line.length < limit) (tail : List UInt8) :
    ssplitIn (line ++ t :: tail) limit isBody = some (.success, line.length) := by
  rw [ssplitIn]
  split
  · have taken : (line ++ t :: tail).take limit =
        line ++ t :: tail.take (limit - line.length - 1) := by
      rw [List.take_append, List.take_of_length_le (by omega)]
      obtain ⟨n, eq⟩ : ∃ n, limit - line.length = n + 1 := ⟨limit - line.length - 1, by omega⟩
      rw [eq, List.take_succ_cons, Nat.add_sub_cancel]
    rw [taken, split]
  · rw [split]

/-- The only limit at which an unfinished line can be reported is the end of the memory. -/
theorem ssplitIn_open {isBody : Bool} {memory : List UInt8} {n : Nat}
    (split : ssplit memory isBody = (.error, n)) :
    ssplitIn memory memory.length isBody = some (.error, n) := by
  rw [ssplitIn, if_pos (Nat.le_refl _), List.take_length, split]

theorem ssplitIn_beyond {isBody : Bool} {memory : List UInt8} {n limit : Nat}
    (split : ssplit memory isBody = (.error, n)) (beyond : memory.length < limit) :
    ssplitIn memory limit isBody = none := by
  rw [ssplitIn, if_neg (by omega), split]

/-- Without a saved fragment, a line is handed on unless it is a piece of a body that goes on. -/
theorem parsePass_line {memory : List UInt8} {inputLen len : Nat} {st : ParseState} {ret : Ret}
    (more : st.curr < inputLen) (saved : st.prevBuffer = none)
    (found : ssplitIn (memory.drop st.curr) (inputLen - st.curr) (st.frame.status = .inputBody) =
      some (ret, len)) (whole : ret = .success ∨ st.frame.status ≠ .inputBody) :
    parsePass rand memory inputLen st =
      if updateInside (memory.drop st.curr) len st.frame then
        let next :=
          if st.frame.status = .inputBody then
            st.curr + len + (if isBl (memory.drop st.curr) then 1 else 0)
          else st.curr + len + 1
        let updated := frameUpdate (parseFinish rand st.rands) (memory.drop st.curr) len st.frame
        if 0 < updated.1 then
          .leave (some (.success,
            { st with
              frame := updated.2
              offset := next + 1
              rands := st.rands + (FRAME_ID_LEN - 1) }))
        else .again { st with curr := next, frame := updated.2, offset := next + 1 }
      else .leave none := by
  have notPast : ¬ inputLen ≤ st.curr := by omega
  have handed : ¬ (ret = .error ∧ st.frame.status = .inputBody) := by
    rcases whole with rfl | header
    · simp
    · exact fun h => header h.2
  simp only [parsePass, notPast, if_false, found, saved, handed]
  simp

/-- A piece of a body that goes on is saved, when `memset` does not clear too much. -/
theorem parsePass_open {memory : List UInt8} {inputLen len : Nat} {st : ParseState}
    (more : st.curr < inputLen)
    (found : ssplitIn (memory.drop st.curr) (inputLen - st.curr) (st.frame.status = .inputBody) =
      some (.error, len)) (body : st.frame.status = .inputBody) :
    parsePass rand memory inputLen st =
      if len < inputLen then .leave none
      else
        .leave (some (.error,
          { st with
            prevBuffer := some (st.prevBuffer.getD [] ++ (memory.drop st.curr).take len) })) := by
  have notPast : ¬ inputLen ≤ st.curr := by omega
  simp only [parsePass, notPast, if_false, found]
  simp [body]

theorem parsePass_lost {memory : List UInt8} {inputLen : Nat} {st : ParseState}
    (more : st.curr < inputLen)
    (lost : ssplitIn (memory.drop st.curr) (inputLen - st.curr) (st.frame.status = .inputBody) =
      none) : parsePass rand memory inputLen st = .leave none := by
  have notPast : ¬ inputLen ≤ st.curr := by omega
  simp only [parsePass, notPast, if_false, lost]

/-! ### A line that lies in the block -/

section Line

variable {call : Call} {place : Nat} {line rest : List UInt8} {t : UInt8}

/-- A pass that finds a line in the block. `skip` is how far the next position lies ahead. -/
theorem Call.pass_found (skip : Nat) (ahead : call.Ahead place (line ++ t :: rest))
    (fits : place + line.length + 1 ≤ BUFFER_LEN) {frame next : Frame} {rands : Nat} {ret : Int}
    (split : ∀ rest, ssplit (line ++ t :: rest) (frame.status = .inputBody) =
      (.success, line.length))
    (inside : ∀ rest, updateInside (line ++ t :: rest) line.length frame = true)
    (update : ∀ rest, frameUpdate (parseFinish rand rands) (line ++ t :: rest) line.length frame =
      (ret, next))
    (skips : ∀ rest, (if frame.status = .inputBody then
      line.length + (if isBl (line ++ t :: rest) then 1 else 0) else line.length + 1) = skip) :
    parsePass rand (call.frameBuffer.drop call.start) call.len (call.reading place frame rands) =
      if 0 < ret then
        .leave (some (.success,
          { curr := place - call.start
            frame := next
            prevBuffer := none
            offset := (place - call.start : Nat) + skip + 1
            rands := rands + (FRAME_ID_LEN - 1) }))
      else
        .again
          { curr := place - call.start + skip
            frame := next
            prevBuffer := none
            offset := (place - call.start : Nat) + skip + 1
            rands := rands } := by
  have started := ahead.started
  have within : place + line.length + 1 ≤ call.len := by
    rw [ahead.len, List.length_append, List.length_cons]
    omega
  obtain ⟨tail, memory⟩ : ∃ tail, call.frameBuffer.drop place = line ++ t :: tail := by
    rw [← List.singleton_append, ← List.append_assoc] at ahead
    obtain ⟨tail, memory⟩ := ahead.memory_eq (by simpa using by omega)
    exact ⟨tail, by simpa using memory⟩
  have found : ssplitIn ((call.frameBuffer.drop call.start).drop (place - call.start))
      (call.len - (place - call.start)) (frame.status = .inputBody) =
        some (.success, line.length) := by
    rw [Call.memory ahead, memory]
    exact ssplitIn_found split (by omega) tail
  have goes := skips tail
  have pass := parsePass_line rand (show (call.reading place frame rands).curr < call.len by
    simp only [Call.reading]; omega) rfl found (Or.inl rfl)
  rw [pass]
  simp only [Call.reading, Call.memory ahead, memory, inside, if_true, update]
  have same : (if frame.status = .inputBody then
      place - call.start + line.length + (if isBl (line ++ t :: tail) then 1 else 0)
      else place - call.start + line.length + 1) = place - call.start + skip := by
    rw [← goes]
    split <;> omega
  simp only [same]
  split <;> simp

/-- A pass over a command line, a header line or a blank line, when the frame is not complete. -/
theorem Call.line_again (ahead : call.Ahead place (line ++ t :: rest))
    (fits : place + line.length + 1 ≤ BUFFER_LEN)
    (split : ∀ rest, ssplit (line ++ t :: rest) false = (.success, line.length))
    {frame next : Frame} {rands : Nat} {ret : Int} (header : frame.status ≠ .inputBody)
    (inside : ∀ rest, updateInside (line ++ t :: rest) line.length frame = true)
    (update : ∀ rest, frameUpdate (parseFinish rand rands) (line ++ t :: rest) line.length frame =
      (ret, next)) (goes : ret ≤ 0) :
    call.from rand (call.reading place frame rands) =
      call.from rand (call.reading (place + line.length + 1) next rands) := by
  have started := ahead.started
  have pass := Call.pass_found rand (line.length + 1) ahead fits (by simpa [header] using split)
    inside update (by simp [header])
  rw [if_neg (by omega)] at pass
  rw [Call.from_again rand pass]
  have position : place + line.length + 1 - call.start = place - call.start + (line.length + 1) := by
    omega
  have moved : place + line.length + 1 ≠ call.start := by omega
  simp only [Call.reading, position, moved, if_false]
  simp

/-- A blank line that completes the frame. -/
theorem Call.line_complete (ahead : call.Ahead place (line ++ t :: rest))
    (fits : place + line.length + 1 ≤ BUFFER_LEN)
    (split : ∀ rest, ssplit (line ++ t :: rest) false = (.success, line.length))
    {frame next : Frame} {rands : Nat} (header : frame.status ≠ .inputBody)
    (inside : ∀ rest, updateInside (line ++ t :: rest) line.length frame = true)
    (update : ∀ rest, frameUpdate (parseFinish rand rands) (line ++ t :: rest) line.length frame =
      (1, next)) :
    ∃ parsed, call.from rand (call.reading place frame rands) =
        call.return rand (.success, parsed) ∧ parsed.frame = next ∧ parsed.prevBuffer = none ∧
      call.start + parsed.offset = place + line.length + 2 := by
  have started := ahead.started
  have pass := Call.pass_found rand (line.length + 1) ahead fits (by simpa [header] using split)
    inside update (by simp [header])
  rw [if_pos (by omega)] at pass
  rw [Call.from_leave rand pass]
  exact ⟨_, rfl, rfl, rfl, by simp only; omega⟩

/-- A body that completes the frame. -/
theorem Call.body_complete (ahead : call.Ahead place (line ++ t :: rest))
    (fits : place + line.length + 1 ≤ BUFFER_LEN) {frame next : Frame} {rands : Nat}
    (body : frame.status = .inputBody)
    (split : ∀ rest, ssplit (line ++ t :: rest) true = (.success, line.length))
    (nonempty : line ≠ []) (clean : (0 : UInt8) ∉ line)
    (update : ∀ rest, frameUpdate (parseFinish rand rands) (line ++ t :: rest) line.length frame =
      (1, next)) :
    ∃ parsed, call.from rand (call.reading place frame rands) =
        call.return rand (.success, parsed) ∧ parsed.frame = next ∧ parsed.prevBuffer = none ∧
      call.start + parsed.offset = place + line.length + 1 := by
  have started := ahead.started
  have notBl : ∀ rest, isBl (line ++ t :: rest) = false := by
    intro rest
    obtain ⟨c, more, rfl⟩ := List.exists_cons_of_ne_nil nonempty
    have : c ≠ 0 := fun h => clean (h ▸ List.mem_cons_self)
    simp [isBl, this]
  have pass := Call.pass_found rand line.length ahead fits (by simpa [body] using split)
    (by simp [updateInside, body]) update (by simp [body, notBl])
  rw [if_pos (by omega)] at pass
  rw [Call.from_leave rand pass]
  exact ⟨_, rfl, rfl, rfl, by simp only; omega⟩

end Line

/-! ### The end of the block -/

/-- The next block begins with a call on what the file still holds. -/
theorem fileFrom_call {rest frameBuffer : List UInt8} (more : rest ≠ [])
    (sized : frameBuffer.length = BUFFER_LEN) {st : UnpersistState} (saved : st.prevBuffer = none) :
    ∃ call : Call, call.head = st.head ∧ call.start = 0 ∧ call.Ahead 0 rest ∧
      fileFrom rand rest frameBuffer st =
        call.from rand (call.reading 0 (st.frame.getD allocFrame) st.rands) := by
  have positive := List.length_pos_iff.mpr more
  have size : BUFFER_LEN = 1024 := rfl
  refine ⟨⟨rest.drop BUFFER_LEN,
    rest.take BUFFER_LEN ++ frameBuffer.drop (rest.take BUFFER_LEN).length,
    (rest.take BUFFER_LEN).length, 0, st.head⟩, rfl, rfl, ?_, ?_⟩
  · refine ⟨Nat.le_refl _, Nat.zero_le _, ?_, List.prefix_append _ _, ?_, rfl⟩
    · simp only [List.length_append, List.length_take, List.length_drop, sized]
      omega
    · rw [List.length_take, Nat.zero_add]
  · have inside : 0 < (rest.take BUFFER_LEN).length := by
      rw [List.length_take]
      omega
    have first : ({ st with index := 0 } : UnpersistState).index = (0 : Nat) := rfl
    rw [fileFrom_block rand more, blockFrom_call rand (List.length_take_le _ _) first inside]
    simp [Call.reading, saved]

section Cut

variable {call : Call} {place : Nat} {rest : List UInt8} {frame : Frame} {rands : Nat}

/-- A call that begins after the start of a full block reads beyond it, unless the frame ends there. -/
theorem Call.cut_none (ahead : call.Ahead place rest) (late : 0 < call.start)
    (long : BUFFER_LEN ≤ place + rest.length) {n : Nat}
    (split : ssplit (rest.take (BUFFER_LEN - place)) (frame.status = .inputBody) = (.error, n)) :
    call.from rand (call.reading place frame rands) = none := by
  have started := ahead.started
  have inside := ahead.inside
  have size : BUFFER_LEN = 1024 := rfl
  obtain ⟨memory, full⟩ := ahead.memory_full long
  have lost : ssplitIn ((call.frameBuffer.drop call.start).drop (place - call.start))
      (call.len - (place - call.start)) (frame.status = .inputBody) = none := by
    rw [Call.memory ahead, memory]
    apply ssplitIn_beyond split
    rw [List.length_take]
    omega
  have leave : parsePass rand (call.frameBuffer.drop call.start) call.len
      (call.reading place frame rands) = .leave none := by
    apply parsePass_lost rand _ lost
    simp only [Call.reading]
    omega
  rw [Call.from_leave rand leave]
  rfl

/-- Such a call cannot go on at the end of the block. -/
theorem Call.end_none (ahead : call.Ahead BUFFER_LEN rest) (late : 0 < call.start) :
    call.from rand (call.reading BUFFER_LEN frame rands) = none := by
  apply Call.cut_none rand ahead late (Nat.le_add_right _ _)
  · rw [Nat.sub_self, List.take_zero]
    simp [ssplit, isBl, isNl, ssplitScan]
    rfl

/-- The state after a call that ends with its block. -/
theorem Call.return_open (call : Call) (parsed : ParseState) (past : call.len ≤ call.start + parsed.offset)
    (saved : parsed.prevBuffer = none) :
    ∃ st : UnpersistState, call.return rand (.error, parsed) =
        fileFrom rand call.file call.frameBuffer st ∧
      st.head = call.head ∧ st.frame = some parsed.frame ∧ st.prevBuffer = none ∧
      st.rands = parsed.rands := by
  refine ⟨call.next (.error, parsed), ?_, rfl, rfl, saved, rfl⟩
  rw [Call.return, if_neg]
  simp only [Call.next]
  omega

variable (frame rands) in
/-- A call that began at the start of the block ends with it; the next block goes on with the frame. -/
theorem Call.block_end (ahead : call.Ahead BUFFER_LEN rest) (early : call.start = 0)
    (more : rest ≠ []) :
    ∃ next : Call, next.head = call.head ∧ next.start = 0 ∧ next.Ahead 0 rest ∧
      call.from rand (call.reading BUFFER_LEN frame rands) =
        next.from rand (next.reading 0 frame rands) := by
  have size : BUFFER_LEN = 1024 := rfl
  have full := (ahead.memory_full (Nat.le_add_right _ _)).2
  have leave : parsePass rand (call.frameBuffer.drop call.start) call.len
      (call.reading BUFFER_LEN frame rands) =
        .leave (some (.error, call.reading BUFFER_LEN frame rands)) := by
    have past : call.len ≤ (call.reading BUFFER_LEN frame rands).curr := by
      simp only [Call.reading]
      omega
    rw [parsePass, if_pos past]
  obtain ⟨st, back, head, kept, saved, count⟩ := call.return_open rand
    (call.reading BUFFER_LEN frame rands)
    (by simp only [Call.reading, early]; rw [if_neg (by decide)]; omega) rfl
  obtain ⟨next, first, start, ahead', goes⟩ := fileFrom_call rand more ahead.sized saved
  refine ⟨next, first.trans head, start, ahead', ?_⟩
  rw [Call.from_leave rand leave, Option.bind_some, back]
  have file : call.file = rest := by simpa using ahead.file
  rw [file, goes, kept, count]
  rfl

/-- A line that the block cuts is found up to the end of the block. -/
theorem Call.found_open (ahead : call.Ahead place rest) (early : call.start = 0)
    (long : BUFFER_LEN ≤ place + rest.length) {isBody : Bool}
    (status : decide (frame.status = .inputBody) = isBody)
    (split : ssplit (rest.take (BUFFER_LEN - place)) isBody = (.error, BUFFER_LEN - place)) :
    ssplitIn ((call.frameBuffer.drop call.start).drop (place - call.start))
      (call.len - (place - call.start)) (frame.status = .inputBody) =
        some (.error, BUFFER_LEN - place) := by
  obtain ⟨memory, full⟩ := ahead.memory_full long
  have limit : call.len - (place - call.start) = (rest.take (BUFFER_LEN - place)).length := by
    rw [List.length_take]
    omega
  rw [Call.memory ahead, memory, limit, status]
  exact ssplitIn_open split

/-- A header line that the block cuts is handed on up to the end of the block; its other part is the
first line of the next block. -/
theorem Call.line_cut (ahead : call.Ahead place rest) (early : call.start = 0)
    (short : place < BUFFER_LEN) (long : BUFFER_LEN < place + rest.length)
    (header : frame.status ≠ .inputBody)
    (split : ssplit (rest.take (BUFFER_LEN - place)) false = (.error, BUFFER_LEN - place))
    {next : Frame} {ret : Int}
    (update : frameUpdate (parseFinish rand rands) (rest.take (BUFFER_LEN - place))
      (BUFFER_LEN - place) frame = (ret, next)) (goes : ret ≤ 0) :
    (updateInside (rest.take (BUFFER_LEN - place)) (BUFFER_LEN - place) frame = false ∧
      call.from rand (call.reading place frame rands) = none) ∨
    (updateInside (rest.take (BUFFER_LEN - place)) (BUFFER_LEN - place) frame = true ∧
      ∃ after : Call, after.head = call.head ∧ after.start = 0 ∧
        after.Ahead 0 (rest.drop (BUFFER_LEN - place)) ∧
        call.from rand (call.reading place frame rands) =
          after.from rand (after.reading 0 next rands)) := by
  have size : BUFFER_LEN = 1024 := rfl
  obtain ⟨memory, full⟩ := ahead.memory_full (by omega)
  have found := Call.found_open ahead early (by omega) (decide_eq_false header) split
  have within : (call.reading place frame rands).curr < call.len := by
    simp only [Call.reading]
    omega
  have pass := parsePass_line rand within rfl found (Or.inr header)
  by_cases inside : updateInside (rest.take (BUFFER_LEN - place)) (BUFFER_LEN - place) frame = true
  · refine Or.inr ⟨inside, ?_⟩
    let past : ParseState := ⟨BUFFER_LEN + 1, next, none, BUFFER_LEN + 2, rands⟩
    have again : parsePass rand (call.frameBuffer.drop call.start) call.len
        (call.reading place frame rands) = .again past := by
      rw [pass]
      simp only [Call.reading, Call.memory ahead, memory, header, if_false, update, inside, if_true]
      rw [if_neg (show ¬ 0 < ret by omega), early, Nat.sub_zero,
        show place + (BUFFER_LEN - place) + 1 = BUFFER_LEN + 1 by omega]
      rfl
    have leave : parsePass rand (call.frameBuffer.drop call.start) call.len past =
        .leave (some (.error, past)) := by
      rw [parsePass, if_pos (by rw [full]; exact Nat.le_succ _)]
    obtain ⟨st, back, head, kept, saved, count⟩ := call.return_open rand past
      (show (call.len : Int) ≤ call.start + past.offset by rw [full]; simp only [past]; omega)
      (show past.prevBuffer = none from rfl)
    have left : rest.drop (BUFFER_LEN - place) ≠ [] := by
      rw [ne_eq, List.drop_eq_nil_iff]
      omega
    obtain ⟨after, first, start, ahead', moved⟩ := fileFrom_call rand left ahead.sized saved
    refine ⟨after, first.trans head, start, ahead', ?_⟩
    rw [Call.from_again rand again, Call.from_leave rand leave, Option.bind_some, back, ahead.file,
      moved, kept, count]
    rfl
  · have outside : updateInside (rest.take (BUFFER_LEN - place)) (BUFFER_LEN - place) frame = false := by
      simpa using inside
    have leave : parsePass rand (call.frameBuffer.drop call.start) call.len
        (call.reading place frame rands) = .leave none := by
      rw [pass]
      simp only [Call.reading, Call.memory ahead, memory, outside, Bool.false_eq_true, if_false]
    refine Or.inl ⟨outside, ?_⟩
    rw [Call.from_leave rand leave]
    rfl

/-- A body that the block cuts makes the loops leave the buffer. -/
theorem Call.body_cut (ahead : call.Ahead place rest) (early : call.start = 0)
    (short : place < BUFFER_LEN) (long : BUFFER_LEN ≤ place + rest.length)
    (body : frame.status = .inputBody)
    (split : ssplit (rest.take (BUFFER_LEN - place)) true = (.error, BUFFER_LEN - place)) :
    call.from rand (call.reading place frame rands) = none := by
  have size : BUFFER_LEN = 1024 := rfl
  obtain ⟨-, full⟩ := ahead.memory_full (by omega)
  have found := Call.found_open ahead early (by omega) (decide_eq_true body) split
  have within : (call.reading place frame rands).curr < call.len := by
    simp only [Call.reading]
    omega
  have pass := parsePass_open rand within found body
  by_cases first : place = 0
  · -- Nothing is stored through `offset`, so the next call begins before the buffer.
    rw [if_neg (by omega)] at pass
    have lost : call.from rand (call.reading place frame rands) = _ := Call.from_leave rand pass
    rw [lost, Option.bind_some, Call.return, if_pos]
    · apply blockFrom_before
      simp only [Call.next, Call.reading, early, first]
      decide
    · simp only [Call.next, Call.reading, early, first, full]
      decide
  · rw [if_pos (by omega)] at pass
    have lost : call.from rand (call.reading place frame rands) = _ := Call.from_leave rand pass
    rw [lost]
    rfl

end Cut

end Newtmq
