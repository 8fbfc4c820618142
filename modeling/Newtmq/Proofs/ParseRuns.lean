/-
Module: Newtmq.Proofs.ParseRuns
Purpose: `parse_frame` on any memory, from a position to the next one: a line of the header, the header
  lines of a frame, a blank line, and a body, which is read in pieces of `LD_MAX` bytes until as many
  bytes as announced have been read.
Trusted boundary: none
Main exports: readingAt, parseFrom_line, parseFrom_headers, parseFrom_blank, piecesEnd, parseFrom_body,
  ReadsBack, HeaderRead.reads, parseFrame_reads_back
-/
import Newtmq.Proofs.Recovery

namespace Newtmq

variable (rand : Nat → Nat) (inputLen : Nat)

/-- The state of the loop at position `place`, when no fragment is saved. -/
def readingAt (place : Nat) (frame : Frame) (offset : Int) (rands : Nat) : ParseState :=
  { curr := place, frame := frame, prevBuffer := none, offset := offset, rands := rands }

theorem parseFrame_eq (memory : List UInt8) (frame : Frame) (rands : Nat) :
    parseFrame rand memory inputLen frame none rands =
      parseFrom rand memory inputLen (readingAt 0 frame (-1) rands) := rfl

section Line

variable {memory line tail : List UInt8} {place : Nat} {t : UInt8} {frame next : Frame}
  {ret : Int} (offset : Int) (rands : Nat)

/-- A pass that finds a whole line outside a body. -/
theorem parsePass_whole (here : memory.drop place = line ++ t :: tail)
    (fits : place + line.length < inputLen) (header : frame.status ≠ .inputBody)
    (split : ∀ rest, ssplit (line ++ t :: rest) false = (.success, line.length))
    (inside : updateInside (line ++ t :: tail) line.length frame = true)
    (update : frameUpdate (parseFinish rand rands) (line ++ t :: tail) line.length frame = (ret, next)) :
    parsePass rand memory inputLen (readingAt place frame offset rands) =
      if 0 < ret then
        .leave (some (.success,
          { curr := place
            frame := next
            prevBuffer := none
            offset := (place + line.length + 1 : Nat) + 1
            rands := rands + (FRAME_ID_LEN - 1) }))
      else
        .again (readingAt (place + line.length + 1) next ((place + line.length + 1 : Nat) + 1) rands) := by
  have found : ssplitIn (memory.drop place) (inputLen - place) (frame.status = .inputBody) =
      some (.success, line.length) := by
    rw [here, decide_eq_false header]
    exact ssplitIn_found split (by omega) tail
  have within : (readingAt place frame offset rands).curr < inputLen := by
    simp only [readingAt]
    omega
  rw [parsePass_line rand within rfl found (Or.inl rfl)]
  simp only [readingAt, here, inside, if_true, header, if_false, update]

/-- A line of the header, when it does not complete the frame. -/
theorem parseFrom_line (here : memory.drop place = line ++ t :: tail)
    (fits : place + line.length < inputLen) (header : frame.status ≠ .inputBody)
    (split : ∀ rest, ssplit (line ++ t :: rest) false = (.success, line.length))
    (inside : updateInside (line ++ t :: tail) line.length frame = true)
    (update : frameUpdate (parseFinish rand rands) (line ++ t :: tail) line.length frame = (ret, next))
    (goes : ret ≤ 0) :
    parseFrom rand memory inputLen (readingAt place frame offset rands) =
      parseFrom rand memory inputLen
        (readingAt (place + line.length + 1) next ((place + line.length + 1 : Nat) + 1) rands) := by
  have pass := parsePass_whole rand inputLen offset rands here fits header split inside update
  rw [if_neg (by omega)] at pass
  exact parseFrom_again rand pass

end Line

/-! ### The header lines -/

/-- Some header lines of a frame, each with its LF. -/
theorem parseFrom_headers {sent : WireFrame} {memory : List UInt8} (rands : Nat)
    {todo : List (List UInt8)} :
    ∀ (first : List (List UInt8)) {known : Bool} {done : List (List UInt8)} {frame : Frame}
      {place : Nat} (offset : Int) {tail : List UInt8},
      HeaderRead sent known done (first ++ todo) frame →
      memory.drop place = WireFrame.encodeLines first ++ tail →
      place + (WireFrame.encodeLines first).length ≤ inputLen →
      ∃ known' frame' offset', HeaderRead sent known' (done ++ first) todo frame' ∧
        parseFrom rand memory inputLen (readingAt place frame offset rands) =
          parseFrom rand memory inputLen
            (readingAt (place + (WireFrame.encodeLines first).length) frame' offset' rands) := by
  intro first
  induction first with
  | nil =>
      intro known done frame place offset tail read _ _
      rw [List.append_nil]
      exact ⟨known, frame, offset, read, rfl⟩
  | cons line first ih =>
      intro known done frame place offset tail read here fits
      obtain ⟨header, -⟩ := read.line_ok
      rw [WireFrame.encodeLines_cons, List.append_assoc, List.cons_append] at here
      rw [WireFrame.encodeLines_cons, List.length_append, List.length_cons] at fits
      have within : place + line.length < inputLen := by omega
      have goes := parseFrom_line rand inputLen offset rands here within read.not_body
        (fun rest => ssplit_line header.text header.short (by decide) rest)
        (updateInside_header read _) (frameUpdate_header read _) (Int.le_refl 0)
      have next : memory.drop (place + line.length + 1) =
          WireFrame.encodeLines first ++ tail := by
        rw [Nat.add_assoc, ← List.drop_drop, here, ← List.drop_drop, List.drop_left, List.drop_one,
          List.tail_cons]
      obtain ⟨known', frame', offset', read', rest⟩ := ih _ read.store next (by omega)
      refine ⟨known', frame', offset', ?_, ?_⟩
      · rw [List.append_assoc, List.singleton_append] at read'
        exact read'
      · rw [goes, rest, WireFrame.encodeLines_cons, List.length_append, List.length_cons]
        congr 2
        omega

/-! ### The blank line -/

section Blank

variable {memory tail : List UInt8} {place : Nat} {frame : Frame} (offset : Int) (rands : Nat)

/-- The LF of a blank line opens the body that a length announces, and is passed over before a length
is known. -/
theorem parseFrom_blank (here : memory.drop place = LF :: tail) (fits : place < inputLen)
    (status : frame.status = .inputHeader) (announced : frame.contentlen ≠ 0) :
    parseFrom rand memory inputLen (readingAt place frame offset rands) =
      parseFrom rand memory inputLen
        (readingAt (place + 1) (if 0 < frame.contentlen then startBody frame else frame)
          ((place + 1 : Nat) + 1) rands) := by
  have empty : memory.drop place = [] ++ LF :: tail := here
  have update : frameUpdate (parseFinish rand rands) ([] ++ LF :: tail) 0 frame =
      (0, if 0 < frame.contentlen then startBody frame else frame) := by
    rw [frameUpdate_lf status, if_neg announced]
    exact (apply_ite (Prod.mk 0) _ _ _).symm
  exact parseFrom_line rand inputLen offset rands empty (Nat.lt_of_lt_of_le (Nat.lt_succ_self _) fits)
    (by rw [status]; decide) (fun rest => ssplit_empty rest (by decide)) (updateInside_lf frame tail)
    update (Int.le_refl 0)

/-- It completes a frame whose body is announced empty. -/
theorem parseFrom_blank_complete (here : memory.drop place = LF :: tail) (fits : place < inputLen)
    (status : frame.status = .inputHeader) (announced : frame.contentlen = 0) :
    ∃ parsed, parseFrom rand memory inputLen (readingAt place frame offset rands) =
        some (.success, parsed) ∧
      parsed.frame = finishFrame (parseFinish rand rands) frame ∧ parsed.offset = place + 2 := by
  have empty : memory.drop place = [] ++ LF :: tail := here
  have update : frameUpdate (parseFinish rand rands) ([] ++ LF :: tail) 0 frame =
      (1, finishFrame (parseFinish rand rands) frame) := by
    rw [frameUpdate_lf status, if_neg (by omega), if_pos announced]
  have pass := parsePass_whole rand inputLen offset rands empty (Nat.lt_of_lt_of_le (Nat.lt_succ_self _) fits)
    (by rw [status]; decide) (fun rest => ssplit_empty rest (by decide)) (updateInside_lf frame tail)
    update
  rw [if_pos (by decide)] at pass
  refine ⟨_, parseFrom_leave rand pass, rfl, ?_⟩
  rw [List.length_nil, Nat.add_zero]
  push_cast
  omega

end Blank

/-! ### The body -/

/-- The first multiple of `LD_MAX` from `n` on: so many bytes are read for a body that is announced with
`n` bytes, unless a NUL comes before. -/
def piecesEnd (n : Nat) : Nat :=
  LD_MAX * ((n + (LD_MAX - 1)) / LD_MAX)

theorem le_piecesEnd (n : Nat) : n ≤ piecesEnd n := by
  unfold piecesEnd LD_MAX
  omega

theorem piecesEnd_short {n : Nat} (positive : 0 < n) (short : n ≤ LD_MAX) : piecesEnd n = LD_MAX := by
  unfold piecesEnd
  unfold LD_MAX at short ⊢
  omega

theorem piecesEnd_long {n : Nat} (long : LD_MAX < n) : piecesEnd n = LD_MAX + piecesEnd (n - LD_MAX) := by
  unfold piecesEnd
  unfold LD_MAX at long ⊢
  omega

/-- One piece of a body, which completes the frame when as many bytes as announced have been read. -/
theorem parsePass_piece {memory piece tail : List UInt8} {place : Nat} {t : UInt8}
    {frame : Frame} (offset : Int) (rands : Nat) (here : memory.drop place = piece ++ t :: tail)
    (fits : place + piece.length < inputLen) (body : frame.status = .inputBody)
    (nonempty : piece ≠ []) (clean : (0 : UInt8) ∉ piece)
    (split : ∀ rest, ssplit (piece ++ t :: rest) true = (.success, piece.length)) :
    parsePass rand memory inputLen (readingAt place frame offset rands) =
      if frame.contentlen ≤ wrap32 (frame.hasContentlen + piece.length) then
        .leave (some (.success,
          { curr := place
            frame := finishFrame (parseFinish rand rands)
              (frameBodyPiece (piece ++ t :: tail) piece.length frame)
            prevBuffer := none
            offset := (place + piece.length : Nat) + 1
            rands := rands + (FRAME_ID_LEN - 1) }))
      else
        .again (readingAt (place + piece.length)
          (frameBodyPiece (piece ++ t :: tail) piece.length frame)
          ((place + piece.length : Nat) + 1) rands) := by
  have grows := frameBodyPiece_grows frame (t :: tail) nonempty
  have found : ssplitIn (memory.drop place) (inputLen - place) (frame.status = .inputBody) =
      some (.success, piece.length) := by
    rw [here, decide_eq_true body]
    exact ssplitIn_found split (by omega) tail
  have notBl : isBl (piece ++ t :: tail) = false := by
    obtain ⟨c, more, rfl⟩ := List.exists_cons_of_ne_nil nonempty
    have : c ≠ 0 := fun h => clean (h ▸ List.mem_cons_self)
    simp [isBl, this]
  have within : (readingAt place frame offset rands).curr < inputLen := by
    simp only [readingAt]
    omega
  have inside : updateInside (piece ++ t :: tail) piece.length frame = true := by
    simp [updateInside, body]
  rw [parsePass_line rand within rfl found (Or.inl rfl)]
  simp only [readingAt, here, inside, if_true, body, notBl, Bool.false_eq_true, if_false, frameUpdate,
    grows.contentlen, grows.received, Nat.add_zero]
  split
  · exact if_pos Int.one_pos
  · exact if_neg (Int.lt_irrefl 0)

/-- A text without NUL that is at least as long as announced is read in pieces. All pieces but the last
are stored in `frame'`, and the last one is to be read. -/
theorem parseFrom_pieces {memory tail : List UInt8} (rands : Nat) :
    ∀ (n : Nat) {text : List UInt8} {place : Nat} {frame : Frame} (offset : Int),
      0 < n → n ≤ text.length → (0 : UInt8) ∉ text → frame.status = .inputBody →
      frame.contentlen = frame.hasContentlen + n → 0 ≤ frame.hasContentlen →
      frame.contentlen < 2147483648 →
      memory.drop place = text ++ 0 :: tail → place + text.length < inputLen →
      ∃ (frame' : Frame) (place' : Nat) (offset' : Int) (piece : List UInt8) (t : UInt8)
        (tail' : List UInt8),
        parseFrom rand memory inputLen (readingAt place frame offset rands) =
          parseFrom rand memory inputLen (readingAt place' frame' offset' rands) ∧
        frame'.name = frame.name ∧ frame'.hAttrs = frame.hAttrs ∧ frame'.status = .inputBody ∧
        frame'.contentlen = frame.contentlen ∧
        frame'.hasContentlen + piece.length =
          frame.hasContentlen + (text.take (piecesEnd n)).length ∧
        (entryLines frame'.hData).flatten ++ piece =
          (entryLines frame.hData).flatten ++ text.take (piecesEnd n) ∧
        place' + piece.length = place + (text.take (piecesEnd n)).length ∧
        piece ≠ [] ∧ (0 : UInt8) ∉ piece ∧ memory.drop place' = piece ++ t :: tail' ∧
        place' + piece.length < inputLen ∧
        ∀ rest, ssplit (piece ++ t :: rest) true = (.success, piece.length) := by
  intro n
  induction n using Nat.strong_induction_on with
  | _ n ih =>
      intro text place frame offset positive enough clean body announced received bound here fits
      have nonempty : text ≠ [] := by
        rintro rfl
        simp only [List.length_nil] at enough
        omega
      by_cases short : text.length ≤ LD_MAX
      · have whole : text.take (piecesEnd n) = text := by
          rw [piecesEnd_short positive (by omega)]
          exact List.take_of_length_le short
        rw [whole]
        exact ⟨frame, place, offset, text, 0, tail, rfl, rfl, rfl, body, rfl, rfl, rfl, rfl, nonempty,
          clean, here, fits,
          fun rest => ssplit_line (lineText_body nonempty clean) short (by decide) rest⟩
      · obtain ⟨piece, c, more, rfl, full, pieceNonempty, cleanPiece, cleanLeft, parts⟩ :=
          body_parts (Nat.lt_of_not_le short) clean tail
        have split : ∀ rest, ssplit (piece ++ c :: rest) true = (.success, piece.length) :=
          fun rest => full ▸ ssplit_full (lineText_body pieceNonempty cleanPiece) full c rest
        simp only [List.length_append, List.length_cons] at enough fits
        by_cases last : n ≤ LD_MAX
        · have first : (piece ++ c :: more).take (piecesEnd n) = piece := by
            rw [piecesEnd_short positive last, ← full, List.take_left]
          rw [first]
          exact ⟨frame, place, offset, piece, c, more ++ 0 :: tail, rfl, rfl, rfl, body, rfl, rfl, rfl,
            rfl, pieceNonempty, cleanPiece, here.trans parts, by omega, split⟩
        · have grows := frameBodyPiece_grows frame (c :: (more ++ 0 :: tail)) pieceNonempty
          have stored : wrap32 (frame.hasContentlen + piece.length) = frame.hasContentlen + LD_MAX := by
            rw [full, wrap32_of_bounds] <;> omega
          have received' := grows.received.trans stored
          have pass := parsePass_piece rand inputLen offset rands (here.trans parts) (by omega) body
            pieceNonempty cleanPiece split
          rw [stored, if_neg (by omega)] at pass
          have next : memory.drop (place + piece.length) = (c :: more) ++ 0 :: tail := by
            rw [← List.drop_drop, here, parts, List.drop_left]
            rfl
          obtain ⟨frame', place', offset', left, t, tail', goes, name, attrs, body', announced', count,
              data, ends, leftNonempty, cleanLeft', here', fits', split'⟩ := ih (n - LD_MAX)
            (Nat.sub_lt positive (by decide)) ((place + piece.length : Nat) + 1) (by omega)
            (by simp only [List.length_cons]; omega) cleanLeft (grows.status.trans body)
            (by rw [received', grows.contentlen]; omega)
            (by rw [received']; exact Int.add_nonneg received (by decide))
            (by rw [grows.contentlen]; exact bound) next (by simp only [List.length_cons]; omega)
          have parts' : (piece ++ c :: more).take (piecesEnd n) =
              piece ++ (c :: more).take (piecesEnd (n - LD_MAX)) := by
            rw [piecesEnd_long (Nat.lt_of_not_le last), ← full, List.take_length_add_append]
          refine ⟨frame', place', offset', left, t, tail', (parseFrom_again rand pass).trans goes,
            name.trans grows.name, attrs.trans grows.attrs, body', announced'.trans grows.contentlen, ?_,
            ?_, ?_, leftNonempty, cleanLeft', here', fits', split'⟩
          · rw [count, received', parts', List.length_append, ← full]
            push_cast
            omega
          · rw [data, grows.data, parts', List.append_assoc]
          · rw [ends, parts', List.length_append]
            omega

/-- With the last piece the frame is complete. -/
theorem parseFrom_body {memory tail : List UInt8} (rands n : Nat) {text : List UInt8} {place : Nat}
    {frame : Frame} (offset : Int) (positive : 0 < n) (enough : n ≤ text.length)
    (clean : (0 : UInt8) ∉ text) (body : frame.status = .inputBody)
    (announced : frame.contentlen = frame.hasContentlen + n) (received : 0 ≤ frame.hasContentlen)
    (bound : frame.hasContentlen + text.length < 2147483648)
    (here : memory.drop place = text ++ 0 :: tail) (fits : place + text.length < inputLen) :
    ∃ parsed, parseFrom rand memory inputLen (readingAt place frame offset rands) =
        some (.success, parsed) ∧
      parsed.frame.name = frame.name ∧ parsed.frame.hAttrs = frame.hAttrs ∧
      (entryLines parsed.frame.hData).flatten =
        (entryLines frame.hData).flatten ++ text.take (piecesEnd n) ∧
      parsed.offset = place + (text.take (piecesEnd n)).length + 1 := by
  obtain ⟨frame', place', offset', piece, t, tail', goes, name, attrs, body', announced', count, data,
      ends, nonempty, clean', here', fits', split⟩ :=
    parseFrom_pieces rand inputLen rands n offset positive enough clean body announced received
      (by omega) here fits
  have grows := frameBodyPiece_grows frame' (t :: tail') nonempty
  have read : n ≤ (text.take (piecesEnd n)).length ∧
      (text.take (piecesEnd n)).length ≤ text.length := by
    have := le_piecesEnd n
    rw [List.length_take]
    omega
  have pass := parsePass_piece rand inputLen offset' rands here' fits' body' nonempty clean' split
  rw [count, wrap32_of_bounds (by omega) (by omega), if_pos (by omega), ends] at pass
  refine ⟨_, goes.trans (parseFrom_leave rand pass), grows.name.trans name, ?_, ?_, ?_⟩
  · exact grows.attrs.trans attrs
  · exact grows.data.trans data
  · push_cast
    rfl

/-! ### One frame -/

section Sent

variable {sent : WireFrame} {memory rest : List UInt8} {place : Nat} {frame : Frame}

/-- The call completes a frame that carries `sent`, and ends at `last`. -/
def ReadsBack (sent : WireFrame) (last : Nat) (result : Option (Ret × ParseState)) : Prop :=
  ∃ parsed, result = some (.success, parsed) ∧ parsed.frame.Carries sent ∧ parsed.offset = last

theorem BodyRead.reads (read : BodyRead sent frame) (offset : Int) (rands : Nat)
    (nonempty : sent.body ≠ []) (here : memory.drop place = sent.body ++ 0 :: rest)
    (fits : place + sent.body.length < inputLen) :
    ReadsBack sent (place + sent.body.length + 1)
      (parseFrom rand memory inputLen (readingAt place frame offset rands)) := by
  have whole : sent.body.take (piecesEnd sent.body.length) = sent.body :=
    List.take_of_length_le (le_piecesEnd _)
  obtain ⟨parsed, goes, name, attrs, data, ends⟩ := parseFrom_body rand inputLen rands sent.body.length offset
    (List.length_pos_iff.mpr nonempty) (Nat.le_refl _) sent.body_clean read.status
    (by rw [read.contentlen, read.received, Int.zero_add]) (Int.le_of_eq read.received.symm)
    (by rw [read.received]; have := sent.body_bound; omega) here fits
  rw [whole] at data ends
  refine ⟨parsed, goes, ⟨?_, ?_, ?_⟩, ?_⟩
  · exact name.trans read.name
  · rw [attrs, read.lines]
  · rw [data, read.data]
    rfl
  · rw [ends]
    push_cast
    rfl

/-- From the blank line on. -/
theorem HeaderRead.blank_reads {known : Bool} {done : List (List UInt8)}
    (read : HeaderRead sent known done [] frame) (offset : Int) (rands : Nat)
    (here : memory.drop place = LF :: (sent.body ++ 0 :: rest))
    (fits : place + (sent.body.length + 1) < inputLen) :
    ReadsBack sent (place + (sent.body.length + 2))
      (parseFrom rand memory inputLen (readingAt place frame offset rands)) := by
  have announced := read.contentlen
  rw [read.known_at_end, if_pos rfl] at announced
  by_cases empty : sent.body = []
  · obtain ⟨parsed, goes, complete, ends⟩ := parseFrom_blank_complete rand inputLen offset rands here (by omega)
      read.status (by rw [announced, empty]; rfl)
    refine ⟨parsed, goes, ?_, ?_⟩
    · rw [complete]
      exact read.carries empty _ fun _ => ⟨rfl, rfl, rfl⟩
    · rw [ends, empty]
      simp only [List.length_nil]
      push_cast
      omega
  · have positive := List.length_pos_iff.mpr empty
    have goes := parseFrom_blank rand inputLen offset rands here (by omega) read.status (by omega)
    rw [if_pos (by omega)] at goes
    have next : memory.drop (place + 1) = sent.body ++ 0 :: rest := by
      rw [← List.drop_drop, here, List.drop_one, List.tail_cons]
    have reads := read.startBody.reads rand inputLen ((place + 1 : Nat) + 1) rands empty next (by omega)
    rw [goes]
    have same : place + 1 + sent.body.length + 1 = place + (sent.body.length + 2) := by omega
    rwa [same] at reads

/-- From a header line on. -/
theorem HeaderRead.reads {known : Bool} {done todo : List (List UInt8)}
    (read : HeaderRead sent known done todo frame) (offset : Int) (rands : Nat)
    (here : memory.drop place =
      WireFrame.encodeLines todo ++ LF :: (sent.body ++ 0 :: rest))
    (fits : place + ((WireFrame.encodeLines todo).length + sent.body.length + 1) < inputLen) :
    ReadsBack sent (place + ((WireFrame.encodeLines todo).length + sent.body.length + 2))
      (parseFrom rand memory inputLen (readingAt place frame offset rands)) := by
  rw [← List.append_nil todo] at read
  obtain ⟨known', frame', offset', read', goes⟩ :=
    parseFrom_headers rand inputLen rands todo offset read here (by omega)
  have next : memory.drop (place + (WireFrame.encodeLines todo).length) =
      LF :: (sent.body ++ 0 :: rest) := by
    rw [← List.drop_drop, here, List.drop_left]
  have reads := read'.blank_reads rand inputLen offset' rands next (by omega)
  rw [goes]
  have same : place + (WireFrame.encodeLines todo).length + (sent.body.length + 2) =
      place + ((WireFrame.encodeLines todo).length + sent.body.length + 2) := by omega
  rwa [same] at reads

end Sent

/-- The command line names a fresh frame. -/
theorem parseFrom_command (sent : WireFrame) {memory tail : List UInt8} (rands : Nat)
    (here : memory = sent.command ++ LF :: tail) (fits : sent.command.length < inputLen) :
    parseFrom rand memory inputLen (readingAt 0 allocFrame (-1) rands) =
      parseFrom rand memory inputLen (readingAt (sent.command.length + 1) (nameFrame sent)
        ((sent.command.length + 1 : Nat) + 1) rands) := by
  have header := command_line sent.command_known
  have start : memory.drop 0 = sent.command ++ LF :: tail := here
  have goes := parseFrom_line rand inputLen (-1) rands start
    (by omega) allocFrame_not_body
    (fun rest => ssplit_line header.text header.short (by decide) rest)
    (by simp [updateInside, allocFrame_status])
    (frameUpdate_command (parseFinish rand rands) sent tail) (Int.le_refl 0)
  rwa [Nat.zero_add] at goes

/-- The bytes of a frame, whatever follows. -/
theorem parseFrame_encode (sent : WireFrame) (rest : List UInt8) (rands : Nat)
    (fits : sent.encode.length ≤ inputLen) :
    ReadsBack sent sent.encode.length
      (parseFrame rand (sent.encode ++ rest) inputLen allocFrame none rands) := by
  rw [parseFrame_eq]
  have parts : sent.encode ++ rest = sent.command ++ LF ::
      (WireFrame.encodeLines sent.headers ++ LF :: (sent.body ++ 0 :: rest)) := by
    simp [WireFrame.encode]
  have sized : sent.encode.length = sent.command.length + 1 +
      ((WireFrame.encodeLines sent.headers).length + sent.body.length + 2) := by
    simp only [WireFrame.encode, List.length_append, List.length_cons, List.length_nil]
    omega
  have next : (sent.encode ++ rest).drop (sent.command.length + 1) =
      WireFrame.encodeLines sent.headers ++ LF :: (sent.body ++ 0 :: rest) := by
    rw [parts, ← List.drop_drop, List.drop_left, List.drop_one, List.tail_cons]
  rw [parseFrom_command rand inputLen sent rands parts (by omega), sized]
  exact (nameFrame_read sent).reads rand inputLen _ rands next (by omega)

/-- `parse_frame` reads back the frame that was written at the start of its input, whatever follows,
and ends just after it. -/
theorem parseFrame_reads_back (sent : WireFrame) {frame : Frame} (carries : frame.Carries sent)
    (rest : List UInt8) (rands : Nat) :
    ReadsBack sent (frameBytes frame).length
      (parseFrame rand (frameBytes frame ++ rest) (frameBytes frame ++ rest).length allocFrame none
        rands) := by
  rw [frameBytes_carries carries]
  exact parseFrame_encode rand _ sent rest rands (by rw [List.length_append]; omega)

/-- A small frame, followed by the start of another one. -/
theorem parseFrame_reads_back_sendHi :
    ReadsBack sendHi 47
      (parseFrame (fun _ => 0) (frameBytes sendHi.parsed ++ cstring "SEND")
        (frameBytes sendHi.parsed ++ cstring "SEND").length allocFrame none 0) := by
  have sized : (frameBytes sendHi.parsed).length = 47 := by decide +kernel
  have reads := parseFrame_reads_back (fun _ => 0) sendHi sendHi.parsed_carries (cstring "SEND") 0
  rwa [sized] at reads

end Newtmq
