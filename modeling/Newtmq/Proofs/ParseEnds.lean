/-
Module: Newtmq.Proofs.ParseEnds
Purpose: How a call of `parse_frame` ends whose input is all the memory: how many bytes the frame can
  hold then, and what becomes of an input that ends in a line or in a body.
Trusted boundary: none
Main exports: Frame.held, Consumed, parsePass_handed, parseFrame_held, parseFrom_end, parseFrom_part,
  parseFrom_openBody
-/
import Newtmq.Proofs.ParseRuns

namespace Newtmq

variable (rand : Nat → Nat)

/-! ### Too few bytes -/

/-- How many bytes of the input a frame holds, without those that end its lines. -/
def Frame.held (frame : Frame) : Nat :=
  frame.name.length + (WireFrame.encodeLines (entryLines frame.hAttrs)).length +
    (entryLines frame.hData).flatten.length

theorem Frame.Carries.held {frame : Frame} {sent : WireFrame} (carries : frame.Carries sent) :
    frame.held + 3 = sent.encode.length := by
  simp only [Frame.held, carries.name, carries.headers, carries.body, WireFrame.encode,
    List.length_append, List.length_cons, List.length_nil]
  omega

/-- At `curr` the frame holds no more than the bytes that have been passed over. -/
def Consumed (frame : Frame) (curr : Nat) : Prop :=
  match frame.status with
  | .born => frame.name = [] ∧ frame.hAttrs = [] ∧ frame.hData = []
  | .inputHeader => frame.hData = [] ∧ frame.held + 1 ≤ curr
  | .inputBody => frame.held + 2 ≤ curr
  | _ => False

theorem allocFrame_consumed (curr : Nat) : Consumed allocFrame curr :=
  ⟨rfl, rfl, rfl⟩

theorem Consumed.mono {frame : Frame} {curr later : Nat} (consumed : Consumed frame curr)
    (le : curr ≤ later) : Consumed frame later := by
  unfold Consumed at consumed ⊢
  split at consumed
  · exact consumed
  · exact ⟨consumed.1, Nat.le_trans consumed.2 le⟩
  · exact Nat.le_trans consumed le
  · exact consumed.elim

theorem frameHeaderLine_held (line : List UInt8) {len : Nat} (short : len ≤ LD_MAX) (frame : Frame) :
    (frameHeaderLine line len frame).held ≤ frame.held + len + 1 := by
  rw [frameHeaderLine]
  split
  · have taken : (line.take len).length ≤ len := List.length_take_le len line
    simp only [Frame.held]
    rw [stompSetdata_short (by omega), entryLines_append, WireFrame.encodeLines, List.flatMap_append]
    simp only [WireFrame.encodeLines, entryLines, List.map_cons, List.map_nil, linedata_bytes_exact,
      List.flatMap_cons, List.flatMap_nil, List.length_append, List.length_cons, List.length_nil]
    omega
  · omega

theorem frameBodyPiece_held (line : List UInt8) (len : Nat) (frame : Frame) :
    (frameBodyPiece line len frame).held ≤ frame.held + len := by
  rw [frameBodyPiece]
  split
  · have taken : (line.take len).length ≤ len := List.length_take_le len line
    simp only [Frame.held]
    rw [stompSetdata_flatten, List.length_append]
    omega
  · omega

/-- What `frame_update` stores of a line lies in the line. -/
theorem frameUpdate_consumed {frame : Frame} {curr : Nat} (consumed : Consumed frame curr) (rands : Nat)
    (line : List UInt8) {len : Nat} (short : len ≤ LD_MAX) :
    ((frameUpdate (parseFinish rand rands) line len frame).1 ≤ 0 →
      Consumed (frameUpdate (parseFinish rand rands) line len frame).2
        (if frame.status = .inputBody then curr + len else curr + len + 1)) ∧
    (0 < (frameUpdate (parseFinish rand rands) line len frame).1 →
      (frameUpdate (parseFinish rand rands) line len frame).2.hData = [] ∨
      (frame.status = .inputBody ∧
        (frameUpdate (parseFinish rand rands) line len frame).2.held + 2 ≤ curr + len)) := by
  have unknown : ¬ (0 : Int) < -1 := by decide
  have goesOn : ¬ (0 : Int) < 0 := by decide
  have done : ¬ (1 : Int) ≤ 0 := by decide
  cases status : frame.status with
  | born =>
      rw [Consumed, status] at consumed
      obtain ⟨noName, noHeaders, noData⟩ := consumed
      simp only [frameUpdate, status, frameSetname]
      cases found : findFrameName line len finfoArr with
      | none =>
          refine ⟨fun _ => ?_, fun result => absurd result unknown⟩
          rw [Consumed, status]
          exact ⟨noName, noHeaders, noData⟩
      | some name =>
          obtain ⟨-, fits, -⟩ := findFrameName_eq_some found
          refine ⟨fun _ => ⟨noData, ?_⟩, fun result => absurd result goesOn⟩
          simp only [Frame.held, noName, noHeaders, noData, List.drop_nil, List.append_nil, entryLines,
            List.map_nil, WireFrame.encodeLines_nil, List.flatten_nil, List.length_nil]
          simp
          omega
  | inputHeader =>
      rw [Consumed, status] at consumed
      obtain ⟨noData, held⟩ := consumed
      simp only [frameUpdate, status]
      split
      · refine ⟨fun _ => ?_, fun result => absurd result goesOn⟩
        show frame.held + 2 ≤ _
        simp
        omega
      · split
        · exact ⟨fun result => absurd result done, fun _ => Or.inl noData⟩
        · refine ⟨fun _ => ?_, fun result => absurd result goesOn⟩
          have more := frameHeaderLine_held line short frame
          have same : (frameHeaderLine line len frame).status = .inputHeader ∧
              (frameHeaderLine line len frame).hData = [] := by
            rw [frameHeaderLine]
            split
            · exact ⟨status, noData⟩
            · exact ⟨status, noData⟩
          rw [Consumed, same.1]
          refine ⟨same.2, ?_⟩
          simp
          omega
  | inputBody =>
      rw [Consumed, status] at consumed
      have more := frameBodyPiece_held line len frame
      have same : (frameBodyPiece line len frame).status = .inputBody := by
        rw [frameBodyPiece]
        split
        · exact status
        · exact status
      simp only [frameUpdate, status]
      split
      · refine ⟨fun result => absurd result done, fun _ => Or.inr ⟨trivial, ?_⟩⟩
        show (frameBodyPiece line len frame).held + 2 ≤ curr + len
        omega
      · refine ⟨fun _ => ?_, fun result => absurd result goesOn⟩
        rw [Consumed, same]
        simp
        omega
  | clear =>
      rw [Consumed, status] at consumed
      exact consumed.elim
  | inputName =>
      rw [Consumed, status] at consumed
      exact consumed.elim
  | inBucket =>
      rw [Consumed, status] at consumed
      exact consumed.elim
  | inQueue =>
      rw [Consumed, status] at consumed
      exact consumed.elim

/-- A line has at most `LD_MAX` bytes, and one that is found is followed by the byte that ends it. -/
theorem ssplit_bounds (isBody : Bool) {start : List UInt8} (nonempty : start ≠ []) :
    (ssplit start isBody).2 ≤ LD_MAX ∧
      ((ssplit start isBody).1 = .success → (ssplit start isBody).2 < start.length) := by
  obtain ⟨c, rest, rfl⟩ := List.exists_cons_of_ne_nil nonempty
  have taken := (List.takeWhile_prefix (nonStop isBody) (l := rest)).length_le
  rw [ssplit_eq]
  split
  · exact ⟨Nat.zero_le _, fun _ => by simp⟩
  · refine ⟨Nat.min_le_right _ _, fun found => ?_⟩
    simp only [List.length_cons]
    by_cases all : rest.all (nonStop isBody) = true
    · by_cases short : rest.length + 1 ≤ LD_MAX
      · rw [if_pos ⟨all, short⟩] at found
        cases found
      · omega
    · have stops : (rest.takeWhile (nonStop isBody)).length ≠ rest.length := by
        intro same
        apply all
        have whole := (List.takeWhile_prefix (nonStop isBody)).eq_of_length same
        rw [List.takeWhile_eq_self_iff] at whole
        exact List.all_eq_true.mpr whole
      omega

/-- A pass over an input that is all the memory leaves without a frame, or hands on a line of the
input. -/
theorem parsePass_handed (memory : List UInt8) (st : ParseState) :
    (∃ result, parsePass rand memory memory.length st = .leave result ∧
        ∀ parsed, result ≠ some (.success, parsed)) ∨
      ∃ len next : Nat, len ≤ LD_MAX ∧
        (st.frame.status = .inputBody → st.curr + len < memory.length) ∧
        (if st.frame.status = .inputBody then st.curr + len else st.curr + len + 1) ≤ next ∧
        parsePass rand memory memory.length st =
          let updated := frameUpdate (parseFinish rand st.rands) (memory.drop st.curr) len st.frame
          if 0 < updated.1 then
            .leave (some (.success,
              { st with
                frame := updated.2
                offset := next + 1
                rands := st.rands + (FRAME_ID_LEN - 1) }))
          else .again { st with curr := next, frame := updated.2, offset := next + 1 } := by
  by_cases past : memory.length ≤ st.curr
  · exact Or.inl ⟨some (.error, st), by simp [parsePass, past], by simp⟩
  · have more : memory.drop st.curr ≠ [] := by
      rw [ne_eq, List.drop_eq_nil_iff]
      exact past
    obtain ⟨short, within⟩ := ssplit_bounds (decide (st.frame.status = .inputBody)) more
    have found : ssplitIn (memory.drop st.curr) (memory.length - st.curr)
        (st.frame.status = .inputBody) =
          some (ssplit (memory.drop st.curr) (st.frame.status = .inputBody)) := by
      rw [ssplitIn, List.length_drop, if_pos (Nat.le_refl _), ← List.length_drop, List.take_length]
    rw [List.length_drop] at within
    obtain ⟨ret, len, split⟩ : ∃ ret len,
        ssplit (memory.drop st.curr) (decide (st.frame.status = .inputBody)) = (ret, len) :=
      ⟨_, _, rfl⟩
    rw [split] at found short within
    by_cases opens : ret = .error ∧ st.frame.status = .inputBody
    · left
      rw [parsePass_open rand (Nat.lt_of_not_le past) (by rw [found, opens.1]) opens.2]
      split
      · exact ⟨_, rfl, by simp⟩
      · exact ⟨_, rfl, by simp⟩
    · have whole : ret = .success ∨ st.frame.status ≠ .inputBody := by
        cases ret with
        | success => exact Or.inl rfl
        | error => exact Or.inr fun body => opens ⟨rfl, body⟩
      cases saved : st.prevBuffer with
      | some fragment =>
          refine Or.inl ⟨none, ?_, by simp⟩
          simp [parsePass, past, found, opens, saved]
      | none =>
          have pass := parsePass_line rand (Nat.lt_of_not_le past) saved found whole
          by_cases inside : updateInside (memory.drop st.curr) len st.frame = true
          · simp only [inside, if_true, saved] at pass
            refine Or.inr ⟨len, _, short, fun body => ?_, ?_, pass⟩
            · rcases whole with rfl | header
              · have := within rfl
                omega
              · exact absurd body header
            · split
              · exact Nat.le_add_right _ _
              · exact Nat.le_refl _
          · rw [if_neg inside] at pass
            exact Or.inl ⟨none, pass, by simp⟩

theorem parsePass_consumed {memory : List UInt8} {st : ParseState}
    (consumed : Consumed st.frame st.curr) :
    (∀ next, parsePass rand memory memory.length st = .again next →
        Consumed next.frame next.curr) ∧
      ∀ parsed, parsePass rand memory memory.length st = .leave (some (.success, parsed)) →
        parsed.frame.hData = [] ∨ parsed.frame.held + 3 ≤ memory.length := by
  rcases parsePass_handed rand memory st with ⟨result, pass, unfinished⟩ | ⟨len, next, short, inside, le, pass⟩
  · constructor
    · intro next again
      rw [pass] at again
      cases again
    · intro parsed leave
      rw [pass] at leave
      cases leave
      exact absurd rfl (unfinished parsed)
  · obtain ⟨again, leaves⟩ := frameUpdate_consumed rand consumed st.rands (memory.drop st.curr) short
    simp only at pass
    constructor
    · intro moved goes
      rw [pass] at goes
      split at goes
      · cases goes
      next stays =>
        cases goes
        exact (again (by omega)).mono le
    · intro parsed leave
      rw [pass] at leave
      split at leave
      next complete =>
        cases leave
        rcases leaves complete with noData | ⟨body, held⟩
        · exact Or.inl noData
        · have := inside body
          simp only
          omega
      · cases leave

/-- A frame of which nothing has been read holds at the end no more than the input of the call. -/
theorem parseFrame_held {memory : List UInt8} {prevBuffer : Option (List UInt8)} {rands : Nat}
    {parsed : ParseState}
    (h : parseFrame rand memory memory.length allocFrame prevBuffer rands = some (.success, parsed)) :
    parsed.frame.hData = [] ∨ parsed.frame.held + 3 ≤ memory.length := by
  rw [parseFrame, Option.join_eq_some_iff] at h
  refine Loop.run_invariant (fun st : ParseState => Consumed st.frame st.curr)
    (fun result => ∀ parsed, result = some (.success, parsed) →
      parsed.frame.hData = [] ∨ parsed.frame.held + 3 ≤ memory.length)
    ?keeps ?leaves (allocFrame_consumed 0) h parsed rfl
  case keeps =>
    intro st next consumed again
    exact (parsePass_consumed rand consumed).1 next again
  case leaves =>
    rintro st _ consumed leave parsed rfl
    exact (parsePass_consumed rand consumed).2 parsed leave

/-! ### The end of the first part -/

/-- The call stops at the end of its input. -/
theorem parseFrom_end (memory : List UInt8) {inputLen place : Nat} (past : inputLen ≤ place)
    (frame : Frame) (offset : Int) (rands : Nat) :
    parseFrom rand memory inputLen (readingAt place frame offset rands) =
      some (.error, readingAt place frame offset rands) := by
  apply parseFrom_leave
  simp [parsePass, readingAt, past]

section Part

variable {memory line : List UInt8} {place : Nat} {frame : Frame} {len : Nat} (offset : Int) (rands : Nat)

/-- Outside a body, what the input ends with is found as a line that does not end. -/
theorem part_found (here : memory.drop place = line) (nonempty : line ≠ [])
    (header : frame.status ≠ .inputBody) (split : ssplit line false = (.error, line.length)) :
    (readingAt place frame offset rands).curr < memory.length ∧
      ssplitIn (memory.drop place) (memory.length - place) (frame.status = .inputBody) =
        some (.error, line.length) := by
  have positive := List.length_pos_iff.mpr nonempty
  have sized : memory.length - place = line.length := by rw [← here, List.length_drop]
  constructor
  · simp only [readingAt]
    omega
  · rw [here, sized, decide_eq_false header]
    exact ssplitIn_open split

/-- What the input ends with is handed on as it is, outside a body. -/
theorem parseFrom_part {next : Frame} {ret : Int} (here : memory.drop place = line) (nonempty : line ≠ [])
    (header : frame.status ≠ .inputBody) (split : ssplit line false = (.error, line.length))
    (inside : updateInside line line.length frame = true)
    (update : frameUpdate (parseFinish rand rands) line line.length frame = (ret, next))
    (goes : ret ≤ 0) :
    ∃ place' offset', parseFrom rand memory memory.length (readingAt place frame offset rands) =
      some (.error, readingAt place' next offset' rands) := by
  have sized : memory.length - place = line.length := by rw [← here, List.length_drop]
  obtain ⟨within, found⟩ := part_found offset rands here nonempty header split
  have pass := parsePass_line rand within rfl found (Or.inr header)
  simp only [readingAt, here, inside, if_true, header, if_false, update] at pass
  rw [if_neg (by omega)] at pass
  exact ⟨_, _, (parseFrom_again rand pass).trans
    (parseFrom_end rand memory (by omega) next _ rands)⟩

/-- A length that the input ends in is read beyond the memory. -/
theorem parseFrom_part_none (here : memory.drop place = line) (nonempty : line ≠ [])
    (header : frame.status ≠ .inputBody) (split : ssplit line false = (.error, line.length))
    (outside : updateInside line line.length frame = false) :
    parseFrom rand memory memory.length (readingAt place frame offset rands) = none := by
  obtain ⟨within, found⟩ := part_found offset rands here nonempty header split
  apply parseFrom_leave
  rw [parsePass_line rand within rfl found (Or.inr header)]
  simp only [readingAt, here, outside, Bool.false_eq_true, if_false]

end Part

/-- A body that the input ends in, before as many bytes as announced: the fragment is saved, and more
memory is cleared than the fragment takes. -/
theorem parseFrom_openBody {memory : List UInt8} (rands : Nat) :
    ∀ (n : Nat) {text : List UInt8} {place : Nat} {frame : Frame} (offset : Int),
      text.length = n → text ≠ [] → (0 : UInt8) ∉ text → frame.status = .inputBody →
      frame.hasContentlen + text.length ≤ frame.contentlen → frame.contentlen < 2147483648 →
      0 ≤ frame.hasContentlen → memory.drop place = text → 0 < place →
      parseFrom rand memory memory.length (readingAt place frame offset rands) = none := by
  intro n
  induction n using Nat.strong_induction_on with
  | _ n ih =>
      rintro text place frame offset rfl nonempty clean body few small received here started
      have positive := List.length_pos_iff.mpr nonempty
      have sized : memory.length - place = text.length := by rw [← here, List.length_drop]
      by_cases short : text.length ≤ LD_MAX
      · have found : ssplitIn (memory.drop place) (memory.length - place) (frame.status = .inputBody) =
            some (.error, text.length) := by
          rw [here, sized, decide_eq_true body]
          exact ssplitIn_open (ssplit_open (lineText_body nonempty clean) short)
        have within : (readingAt place frame offset rands).curr < memory.length := by
          simp only [readingAt]
          omega
        apply parseFrom_leave
        rw [parsePass_open rand within found body, if_pos (by omega)]
      · obtain ⟨piece, c, more, rfl, full, pieceNonempty, cleanPiece, cleanLeft, -⟩ :=
          body_parts (Nat.lt_of_not_le short) clean []
        have grows := frameBodyPiece_grows frame (c :: more) pieceNonempty
        simp only [List.length_append, List.length_cons] at few sized
        have stored : wrap32 (frame.hasContentlen + piece.length) = frame.hasContentlen + LD_MAX := by
          rw [full, wrap32_of_bounds] <;> omega
        have received' := grows.received.trans stored
        have pass := parsePass_piece rand memory.length offset rands here (by omega) body pieceNonempty
          cleanPiece (fun rest => full ▸ ssplit_full (lineText_body pieceNonempty cleanPiece) full c rest)
        rw [stored, if_neg (by omega)] at pass
        have next : memory.drop (place + piece.length) = c :: more := by
          rw [← List.drop_drop, here, List.drop_left]
        rw [parseFrom_again rand pass]
        have left : (c :: more).length < (piece ++ c :: more).length := by
          rw [List.length_append]
          exact Nat.lt_add_of_pos_left (List.length_pos_iff.mpr pieceNonempty)
        exact ih _ left _ rfl (List.cons_ne_nil _ _) cleanLeft (grows.status.trans body)
          (by rw [received', grows.contentlen, List.length_cons]; omega)
          (by rw [grows.contentlen]; exact small)
          (by rw [received']; exact Int.add_nonneg received (by decide)) next (by omega)

end Newtmq
