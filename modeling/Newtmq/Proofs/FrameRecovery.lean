/-
Module: Newtmq.Proofs.FrameRecovery
Purpose: Reading one frame back. Where the layout lets it be read, the loops come to the next frame
  with a frame that carries the one that was sent; elsewhere they never find it. The induction is on
  the header lines that are still to be read.
Trusted boundary: none
Main exports: HeaderRead, Recovers, body_recovers, blank_recovers, headers_recover, frame_recovers
-/
import Newtmq.Proofs.FrameBoundaries
import Newtmq.Proofs.FrameLosses
import Newtmq.Proofs.RecvDecode

namespace Newtmq

variable (rand : Nat → Nat)

/-- What the layout says of one frame holds of the result. -/
def Recovers (sent : WireFrame) (later : List UInt8) (head : List Frame) (next : Option Place)
    (result : Option UnpersistState) : Prop :=
  match next with
  | some place => ∃ frame : Frame, frame.Carries sent ∧
      Boundary rand place later (head ++ [frame]) result
  | none => Loses head.length sent result

theorem recovers_none (sent : WireFrame) (later : List UInt8) (head : List Frame) :
    Recovers rand sent later head none none :=
  loses_none head.length sent

/-! ### The body -/

/-- The header has been read, and the body, which is not empty, has not. -/
structure BodyRead (sent : WireFrame) (frame : Frame) : Prop where
  status : frame.status = .inputBody
  name : frame.name = sent.command
  lines : entryLines frame.hAttrs = sent.headers
  data : frame.hData = []
  received : frame.hasContentlen = 0
  contentlen : frame.contentlen = sent.body.length

/-- A body that is at least as long as announced, up to its NUL, completes the frame. -/
theorem frameUpdate_body (finish : Frame → Frame) {frame : Frame} {piece : List UInt8}
    (status : frame.status = .inputBody) (nonempty : piece ≠ [])
    (reached : frame.contentlen ≤ wrap32 (frame.hasContentlen + piece.length))
    (rest : List UInt8) :
    frameUpdate finish (piece ++ 0 :: rest) piece.length frame =
      (1, finishFrame finish (frameBodyPiece piece piece.length frame)) := by
  have grows := frameBodyPiece_grows frame [] nonempty
  rw [List.append_nil] at grows
  have same : frameBodyPiece (piece ++ 0 :: rest) piece.length frame =
      frameBodyPiece piece piece.length frame := by
    simp [frameBodyPiece]
  simp only [frameUpdate, status, same]
  rw [if_pos (by rwa [grows.contentlen, grows.received])]

/-- A part of a body that ends with the block is unfinished. -/
theorem ssplit_body_cut {piece : List UInt8} (rest : List UInt8) (clean : (0 : UInt8) ∉ piece) {n : Nat}
    (positive : 0 < n) (short : n ≤ piece.length) (small : n ≤ LD_MAX) :
    ssplit ((piece ++ 0 :: rest).take n) true = (.error, n) := by
  have taken : (piece ++ 0 :: rest).take n = piece.take n := by
    rw [List.take_append_of_le_length short]
  have sized : (piece.take n).length = n := by
    rw [List.length_take]
    omega
  have nonempty : piece.take n ≠ [] := by
    rw [← List.length_pos_iff]
    omega
  have text := lineText_body nonempty fun mem => clean (List.mem_of_mem_take mem)
  rw [taken, ssplit_open text (by omega), sized]

theorem body_recovers {sent : WireFrame} {later : List UInt8} {call : Call} (place : Place)
    (ahead : call.Ahead place.index (sent.body ++ 0 :: later)) (short : place.index < BUFFER_LEN)
    (nonempty : sent.body ≠ []) {frame : Frame} (read : BodyRead sent frame) (rands : Nat) :
    Recovers rand sent later call.head (place.body sent)
      (call.from rand (call.reading place.index frame rands)) := by
  have size : BUFFER_LEN = LD_MAX := rfl
  have bound := sent.body_bound
  by_cases fits : place.index + sent.body.length + 1 ≤ BUFFER_LEN
  · have grows := frameBodyPiece_grows frame [] nonempty
    rw [List.append_nil] at grows
    obtain ⟨parsed, goes, complete, saved, offset⟩ := Call.body_complete rand ahead fits read.status
      (fun rest => ssplit_line (lineText_body nonempty sent.body_clean) (by omega) (by decide) rest)
      nonempty sent.body_clean
      (frameUpdate_body (parseFinish rand rands) read.status nonempty (by
        rw [read.contentlen, read.received, wrap32_of_bounds] <;> omega))
    have carries : parsed.frame.Carries sent := by
      rw [complete]
      refine ⟨grows.name.trans read.name, ?_, ?_⟩
      · exact (congrArg entryLines grows.attrs).trans read.lines
      · exact grows.data.trans (by simp [read.data, entryLines])
    have whole : call.Ahead place.index ((sent.body ++ [0]) ++ later) := by simpa using ahead
    have after := whole.advance (by rw [List.length_append]; exact fits)
    rw [List.length_append, List.length_singleton, ← Nat.add_assoc] at after
    rw [goes, Place.body, if_pos fits]
    exact ⟨parsed.frame, carries,
      Call.return_boundary rand after (Nat.succ_pos _) saved offset⟩
  · have lost : call.from rand (call.reading place.index frame rands) = none := by
      have split := ssplit_body_cut later sent.body_clean
        (show 0 < BUFFER_LEN - place.index by omega) (by omega) (by omega)
      have long : BUFFER_LEN ≤ place.index + (sent.body ++ 0 :: later).length := by
        rw [List.length_append]
        omega
      by_cases early : call.start = 0
      · exact Call.body_cut rand ahead early short long read.status split
      · exact Call.cut_none rand ahead (by omega) long (by rw [read.status]; exact split)
    have noPlace : place.body sent = none := by
      rw [Place.body, if_neg fits]
    rw [lost, noPlace]
    exact recovers_none rand sent later call.head

/-! ### The blank line -/

/-- The header lines `done` have been read, those of `todo` have not; `known` says whether one of them
announced the length. -/
structure HeaderRead (sent : WireFrame) (known : Bool) (done todo : List (List UInt8))
    (frame : Frame) : Prop where
  split : sent.headers = done ++ todo
  known_iff : known = true ↔ 0 < done.countP isLengthHeader
  status : frame.status = .inputHeader
  name : frame.name = sent.command
  lines : entryLines frame.hAttrs = done
  data : frame.hData = []
  received : frame.hasContentlen = 0
  contentlen : frame.contentlen = if known then (sent.body.length : Int) else -1

theorem HeaderRead.not_body {sent : WireFrame} {known : Bool} {done todo : List (List UInt8)}
    {frame : Frame} (read : HeaderRead sent known done todo frame) : frame.status ≠ .inputBody := by
  rw [read.status]
  decide

/-- At the end of the header the length is known. -/
theorem HeaderRead.known_at_end {sent : WireFrame} {known : Bool} {done : List (List UInt8)}
    {frame : Frame} (read : HeaderRead sent known done [] frame) : known = true := by
  have one := sent.one_length
  rw [read.split, List.append_nil] at one
  exact read.known_iff.mpr (by omega)

/-- The frame with its body still to be read. -/
def startBody (frame : Frame) : Frame :=
  { frame with status := .inputBody, size := wrap32 (frame.size + 1) }

theorem HeaderRead.startBody {sent : WireFrame} {known : Bool} {done : List (List UInt8)}
    {frame : Frame} (read : HeaderRead sent known done [] frame) :
    BodyRead sent (startBody frame) where
  status := rfl
  name := read.name
  lines := by
    have all := read.split
    rw [List.append_nil] at all
    exact read.lines.trans all.symm
  data := read.data
  received := read.received
  contentlen := by
    have length := read.contentlen
    rw [read.known_at_end] at length
    exact length

/-- What an LF does at the start of a line, when the length that holds is `length`. -/
theorem frameUpdate_lf {finish : Frame → Frame} {frame : Frame} (status : frame.status = .inputHeader)
    (rest : List UInt8) :
    frameUpdate finish ([] ++ LF :: rest) 0 frame =
      if 0 < frame.contentlen then (0, startBody frame)
      else if frame.contentlen = 0 then (1, finishFrame finish frame)
      else (0, frame) := by
  have newline : isNl (LF :: rest) = true := rfl
  simp only [frameUpdate, status, List.nil_append, newline, Bool.true_and, decide_eq_true_eq]
  split
  · rfl
  · split
    · rfl
    · simp [frameHeaderLine]

theorem updateInside_lf (frame : Frame) (rest : List UInt8) :
    updateInside ([] ++ LF :: rest) 0 frame = true := by
  simp [updateInside, isContentlen]

/-- The blank line of a frame without a body completes it. -/
theorem Call.blank_complete {call : Call} {place : Nat} {rest : List UInt8}
    (ahead : call.Ahead place (LF :: rest)) (short : place < BUFFER_LEN) {frame : Frame}
    (status : frame.status = .inputHeader) (announced : frame.contentlen = 0) (rands : Nat) :
    ∃ parsed, call.from rand (call.reading place frame rands) =
        call.return rand (.success, parsed) ∧
      parsed.frame = finishFrame (parseFinish rand rands) frame ∧ parsed.prevBuffer = none ∧
      call.start + parsed.offset = place + 2 := by
  have line : call.Ahead place ([] ++ LF :: rest) := ahead
  exact Call.line_complete rand line short (fun rest => ssplit_empty rest (by decide))
    (by rw [status]; decide) (fun rest => updateInside_lf frame rest) (fun rest => by
      rw [List.length_nil, frameUpdate_lf status, if_neg (by omega), if_pos announced])

/-- Any other LF is passed over, and begins the body when a length is known. -/
theorem Call.blank_again {call : Call} {place : Nat} {rest : List UInt8}
    (ahead : call.Ahead place (LF :: rest)) (short : place < BUFFER_LEN) {frame : Frame}
    (status : frame.status = .inputHeader) (announced : frame.contentlen ≠ 0) (rands : Nat) :
    call.from rand (call.reading place frame rands) =
        call.from rand (call.reading (place + 1)
          (if 0 < frame.contentlen then startBody frame else frame) rands) ∧
      call.Ahead (place + 1) rest := by
  have line : call.Ahead place ([] ++ LF :: rest) := ahead
  have lf : call.Ahead place ([LF] ++ rest) := ahead
  refine ⟨?_, lf.advance short⟩
  exact Call.line_again rand line short (fun rest => ssplit_empty rest (by decide))
    (by rw [status]; decide) (fun rest => updateInside_lf frame rest) (fun rest => by
      rw [List.length_nil, frameUpdate_lf status, if_neg announced]
      exact (apply_ite (Prod.mk 0) _ _ _).symm) (Int.le_refl 0)

theorem HeaderRead.carries {sent : WireFrame} {known : Bool} {done : List (List UInt8)}
    {frame : Frame} (read : HeaderRead sent known done [] frame) (empty : sent.body = [])
    (finish : Frame → Frame) (same : ∀ frame, (finish frame).name = frame.name ∧
      (finish frame).hAttrs = frame.hAttrs ∧ (finish frame).hData = frame.hData) :
    (finishFrame finish frame).Carries sent where
  name := (same frame).1.trans read.name
  headers := by
    have all := read.split
    rw [List.append_nil] at all
    exact (congrArg entryLines (same frame).2.1).trans (read.lines.trans all.symm)
  body := by
    have none : (finishFrame finish frame).hData = [] := (same frame).2.2.trans read.data
    rw [none, empty]
    rfl

theorem blank_recovers {sent : WireFrame} {later : List UInt8} {call : Call} {place : Place}
    (ahead : call.Ahead place.index (LF :: (sent.body ++ 0 :: later)))
    (fresh : place.fresh = true ↔ call.start = 0) (short : place.index < BUFFER_LEN) {known : Bool}
    {done : List (List UInt8)} {frame : Frame} (read : HeaderRead sent known done [] frame)
    (rands : Nat) :
    Recovers rand sent later call.head (place.blank sent)
      (call.from rand (call.reading place.index frame rands)) := by
  have announced := read.contentlen
  rw [read.known_at_end, if_pos rfl] at announced
  have lf : call.Ahead place.index ([LF] ++ (sent.body ++ 0 :: later)) := ahead
  by_cases empty : sent.body = []
  · obtain ⟨parsed, goes, complete, saved, offset⟩ := Call.blank_complete rand ahead short read.status
      (by rw [announced, empty]; rfl) rands
    have carries : parsed.frame.Carries sent := by
      rw [complete]
      exact read.carries empty _ fun _ => ⟨rfl, rfl, rfl⟩
    rw [goes, Place.blank, if_pos empty]
    rw [empty, List.nil_append] at lf
    by_cases fits : place.index + 2 ≤ BUFFER_LEN
    · have both : call.Ahead place.index ([LF, 0] ++ later) := lf
      rw [if_pos fits]
      exact ⟨parsed.frame, carries,
        Call.return_boundary rand (both.advance fits) (Nat.succ_pos _) saved offset⟩
    · have last : place.index + 1 = BUFFER_LEN := by omega
      have nul : call.Ahead BUFFER_LEN (0 :: later) := last ▸ lf.advance short
      rw [if_neg fits]
      exact ⟨parsed.frame, carries, Call.return_before_nul rand nul saved (by omega)⟩
  · have positive := List.length_pos_iff.mpr empty
    obtain ⟨goes, after⟩ := Call.blank_again rand ahead short read.status (by omega) rands
    rw [if_pos (by omega)] at goes
    rw [goes, Place.blank, if_neg empty]
    by_cases inside : place.index + 1 < BUFFER_LEN
    · rw [if_pos inside]
      exact body_recovers rand ⟨place.index + 1, place.fresh⟩ after inside empty
        read.startBody rands
    · have last : place.index + 1 = BUFFER_LEN := by omega
      rw [last] at after
      rw [if_neg inside, last]
      by_cases early : call.start = 0
      · obtain ⟨next, head, start, ahead', moved⟩ :=
          Call.block_end rand (startBody frame) rands after early (by simp)
        rw [if_pos (fresh.mpr early), moved, ← head]
        exact body_recovers rand ⟨0, true⟩ ahead' (by decide) empty read.startBody rands
      · rw [if_neg (fun h => early (fresh.mp h)),
          Call.end_none rand after (by omega)]
        exact recovers_none rand sent later call.head

/-! ### The header lines -/

/-- The frame with one more header line. -/
def storeHeader (sent : WireFrame) (line : List UInt8) (frame : Frame) : Frame :=
  { frame with
    contentlen := if isLengthHeader line then (sent.body.length : Int) else frame.contentlen
    hAttrs := frame.hAttrs ++ [⟨line, line.length⟩]
    size := wrap32 (frame.size + (line.length + 1)) }

theorem frameHeaderLine_store {sent : WireFrame} {line : List UInt8} (header : HeaderLine line)
    (value : isLengthHeader line = true → Decimal (line.drop 15) sent.body.length) (frame : Frame)
    (rest : List UInt8) :
    frameHeaderLine (line ++ LF :: rest) line.length frame = storeHeader sent line frame := by
  have positive := List.length_pos_iff.mpr header.nonempty
  have short := stompSetdata_short header.short frame.hAttrs
  cases announces : isLengthHeader line with
  | true =>
      obtain ⟨isLength, length⟩ := length_of_decimal rest announces (value announces) sent.body_bound
      simp [frameHeaderLine, storeHeader, positive, isLength, length, announces, short]
  | false =>
      have silent := not_contentlen rest announces
      simp [frameHeaderLine, storeHeader, positive, silent, announces, short]

/-- A line that ends with the block, just before its LF, is stored as well, if it announces no
length. -/
theorem frameHeaderLine_alone (sent : WireFrame) {line : List UInt8} (header : HeaderLine line)
    (silent : isLengthHeader line = false) (frame : Frame) :
    frameHeaderLine line line.length frame = storeHeader sent line frame := by
  have positive := List.length_pos_iff.mpr header.nonempty
  have short := stompSetdata_short header.short frame.hAttrs
  rw [isLengthHeader] at silent
  simp [frameHeaderLine, storeHeader, positive, isContentlen, isLengthHeader, silent, short]

/-- `atoi` finds the end of a numeral exactly when a byte follows it. -/
theorem atoiInside_decimal {digits : List UInt8} {n : Nat} (number : Decimal digits n)
    (rest : List UInt8) (stop : ∀ c, rest.head? = some c → isdigit c = false) :
    atoiInside (digits ++ rest) = !rest.isEmpty := by
  obtain ⟨c, more, rfl⟩ := List.exists_cons_of_ne_nil number.nonempty
  have first := number.digit c (by simp)
  have notSign := isdigit_not_sign first
  have skipped : ((c :: more) ++ rest).dropWhile isspace = (c :: more) ++ rest := by
    simp [isdigit_not_space first]
  have left : ((c :: more) ++ rest).dropWhile isdigit = rest := by
    rw [List.dropWhile_append_of_pos number.digit]
    cases rest with
    | nil => rfl
    | cons d rest => rw [List.dropWhile_cons, stop d rfl]; rfl
  rw [List.cons_append] at skipped left
  simp only [atoiInside, List.cons_append, skipped, notSign.1, notSign.2, or_self, if_false, left]

section Header

variable {sent : WireFrame} {known : Bool} {done todo : List (List UInt8)} {line : List UInt8}
  {frame : Frame}

theorem HeaderRead.line_ok (read : HeaderRead sent known done (line :: todo) frame) :
    HeaderLine line ∧ (isLengthHeader line = true → Decimal (line.drop 15) sent.body.length) := by
  have mem : line ∈ sent.headers := by simp [read.split]
  exact ⟨sent.header_line line mem, sent.length_value line mem⟩

/-- Only one line announces a length. -/
theorem HeaderRead.silent (read : HeaderRead sent true done (line :: todo) frame) :
    isLengthHeader line = false := by
  have one := sent.one_length
  have before := read.known_iff.mp rfl
  rw [read.split, List.countP_append, List.countP_cons] at one
  cases announces : isLengthHeader line with
  | true =>
      simp only [announces, if_true] at one
      omega
  | false => rfl

theorem HeaderRead.store (read : HeaderRead sent known done (line :: todo) frame) :
    HeaderRead sent (known || isLengthHeader line) (done ++ [line]) todo
      (storeHeader sent line frame) where
  split := by rw [read.split, List.append_assoc]; rfl
  known_iff := by
    rw [List.countP_append, List.countP_singleton, Bool.or_eq_true, read.known_iff]
    cases isLengthHeader line <;> simp
  status := read.status
  name := read.name
  lines := by
    rw [storeHeader, entryLines_append, read.lines]
    simp [entryLines]
  data := read.data
  received := read.received
  contentlen := by
    cases announces : isLengthHeader line with
    | true => simp [storeHeader, announces]
    | false => simpa [storeHeader, announces] using read.contentlen

/-- The splitter at a header line, and what `frame_update` makes of it. -/
theorem frameUpdate_header {finish : Frame → Frame} (read : HeaderRead sent known done (line :: todo) frame)
    (rest : List UInt8) :
    frameUpdate finish (line ++ LF :: rest) line.length frame = (0, storeHeader sent line frame) := by
  obtain ⟨header, value⟩ := read.line_ok
  simp only [frameUpdate, read.status, header.not_newline, Bool.false_and, Bool.false_eq_true,
    if_false, frameHeaderLine_store header value]

theorem updateInside_header (read : HeaderRead sent known done (line :: todo) frame)
    (rest : List UInt8) : updateInside (line ++ LF :: rest) line.length frame = true := by
  obtain ⟨header, value⟩ := read.line_ok
  cases announces : isLengthHeader line with
  | false => simp [updateInside, not_contentlen rest announces]
  | true =>
      obtain ⟨digits, rfl⟩ := List.isPrefixOf_iff_prefix.mp announces
      have number := value announces
      rw [List.drop_left' (by decide)] at number
      have inside := atoiInside_decimal number (LF :: rest) (by simp [isdigit, LF])
      rw [updateInside, List.append_assoc, List.drop_left' (by decide), inside]
      simp

/-- A length that the block cuts off just before the LF is read beyond the memory. -/
theorem updateInside_cut (read : HeaderRead sent known done (line :: todo) frame)
    (announces : isLengthHeader line = true) : updateInside line line.length frame = false := by
  obtain ⟨_, value⟩ := read.line_ok
  obtain ⟨digits, rfl⟩ := List.isPrefixOf_iff_prefix.mp announces
  have number := value announces
  rw [List.drop_left' (by decide)] at number
  have inside := atoiInside_decimal number [] (by simp)
  have isLength : isContentlen (cstring "content-length:" ++ digits)
      (cstring "content-length:" ++ digits).length = true := by
    have positive := List.length_pos_iff.mpr number.nonempty
    have fifteen : (cstring "content-length:").length = 15 := by decide
    simp only [isContentlen, List.length_append, fifteen, Bool.and_eq_true, decide_eq_true_eq]
    exact ⟨by omega, announces⟩
  rw [List.append_nil] at inside
  rw [updateInside, isLength, read.status, List.drop_left' (by decide), inside]
  rfl

/-- A header line that lies in the block with its LF. -/
theorem Call.header_again {call : Call} {place : Nat} {rest : List UInt8}
    (ahead : call.Ahead place (line ++ LF :: rest)) (fits : place + line.length + 1 ≤ BUFFER_LEN)
    (read : HeaderRead sent known done (line :: todo) frame) (rands : Nat) :
    call.from rand (call.reading place frame rands) =
        call.from rand (call.reading (place + line.length + 1) (storeHeader sent line frame) rands) ∧
      call.Ahead (place + line.length + 1) rest := by
  obtain ⟨header, _⟩ := read.line_ok
  constructor
  · exact Call.line_again rand ahead fits
      (fun rest => ssplit_line header.text header.short (by decide) rest) read.not_body
      (fun rest => updateInside_header read rest) (fun rest => frameUpdate_header read rest)
      (Int.le_refl 0)
  · have whole : call.Ahead place ((line ++ [LF]) ++ rest) := by simpa using ahead
    have after := whole.advance (by rw [List.length_append]; exact fits)
    rwa [List.length_append] at after

/-! ### Header lines that a block cuts -/

theorem HeaderLine.take {line : List UInt8} (header : HeaderLine line) {n : Nat} (positive : 0 < n) :
    HeaderLine (line.take n) where
  nonempty := by
    have := List.length_pos_iff.mpr header.nonempty
    rw [← List.length_pos_iff, List.length_take]
    omega
  short := by
    have := header.short
    rw [List.length_take]
    omega
  clean c mem := header.clean c (List.mem_of_mem_take mem)

theorem ssplit_header_cut {line : List UInt8} (header : HeaderLine line) (rest : List UInt8) {n : Nat}
    (positive : 0 < n) (short : n ≤ line.length) :
    ssplit ((line ++ rest).take n) false = (.error, n) := by
  have part := header.take positive
  rw [List.take_append_of_le_length short, ssplit_open part.text part.short, List.length_take,
    Nat.min_eq_left short]

/-- A call that began with the block hands on the part of the line that lies in it. -/
theorem Call.header_cut {call : Call} {place : Nat} {rest : List UInt8}
    (ahead : call.Ahead place (line ++ LF :: rest)) (early : call.start = 0)
    (short : place < BUFFER_LEN) (long : BUFFER_LEN < place + line.length + 1)
    (read : HeaderRead sent known done (line :: todo) frame) (rands : Nat) :
    (updateInside (line.take (BUFFER_LEN - place)) (BUFFER_LEN - place) frame = false ∧
      call.from rand (call.reading place frame rands) = none) ∨
    (updateInside (line.take (BUFFER_LEN - place)) (BUFFER_LEN - place) frame = true ∧
      ∃ next : Call, next.head = call.head ∧ next.start = 0 ∧
        next.Ahead 0 (line.drop (BUFFER_LEN - place) ++ LF :: rest) ∧
        call.from rand (call.reading place frame rands) =
          next.from rand (next.reading 0
            (frameHeaderLine (line.take (BUFFER_LEN - place)) (BUFFER_LEN - place) frame) rands)) := by
  obtain ⟨header, _⟩ := read.line_ok
  have fits : BUFFER_LEN - place ≤ line.length := by omega
  have part := header.take (show 0 < BUFFER_LEN - place by omega)
  have taken : (line ++ LF :: rest).take (BUFFER_LEN - place) = line.take (BUFFER_LEN - place) :=
    List.take_append_of_le_length fits
  have update : frameUpdate (parseFinish rand rands) (line.take (BUFFER_LEN - place))
      (BUFFER_LEN - place) frame =
        (0, frameHeaderLine (line.take (BUFFER_LEN - place)) (BUFFER_LEN - place) frame) := by
    have text := part.not_newline []
    rw [List.append_nil] at text
    simp only [frameUpdate, read.status, text, Bool.false_and, Bool.false_eq_true, if_false]
  have cut := Call.line_cut rand ahead early short
    (by rw [List.length_append, List.length_cons]; omega) read.not_body
    (ssplit_header_cut header _ (by omega) fits) (by rw [taken]; exact update) (Int.le_refl 0)
  rwa [taken, List.drop_append_of_le_length fits] at cut

/-- A line that ends with the block just before its LF is stored whole, unless it is a length. The LF
is the first byte of the next block. -/
theorem Call.cut_before_lf {call : Call} {place : Nat} {rest : List UInt8}
    (ahead : call.Ahead place (line ++ LF :: rest)) (early : call.start = 0)
    (last : place + line.length = BUFFER_LEN)
    (read : HeaderRead sent known done (line :: todo) frame) (rands : Nat) :
    (isLengthHeader line = true ∧ call.from rand (call.reading place frame rands) = none) ∨
    (isLengthHeader line = false ∧
      ∃ next : Call, next.head = call.head ∧ next.start = 0 ∧ next.Ahead 0 (LF :: rest) ∧
        call.from rand (call.reading place frame rands) =
          next.from rand (next.reading 0 (storeHeader sent line frame) rands)) := by
  obtain ⟨header, _⟩ := read.line_ok
  have positive := List.length_pos_iff.mpr header.nonempty
  have cut := Call.header_cut rand ahead early (by omega) (by omega) read rands
  rw [show BUFFER_LEN - place = line.length by omega, List.take_length, List.drop_length] at cut
  cases announces : isLengthHeader line with
  | true =>
      rcases cut with ⟨_, lost⟩ | ⟨inside, _⟩
      · exact Or.inl ⟨rfl, lost⟩
      · rw [updateInside_cut read announces] at inside
        cases inside
  | false =>
      rcases cut with ⟨outside, _⟩ | ⟨_, next, head, start, ahead', goes⟩
      · rw [isLengthHeader] at announces
        simp [updateInside, isContentlen, announces] at outside
      · rw [frameHeaderLine_alone sent header announces] at goes
        exact Or.inr ⟨rfl, next, head, start, ahead', goes⟩

/-- A part of a header line can no longer become the line. -/
theorem HeaderRead.spoiled_part (read : HeaderRead sent known done (line :: todo) frame) {n : Nat}
    (positive : 0 < n) (short : n < line.length) :
    Spoiled sent.headers (frameHeaderLine (line.take n) n frame) := by
  obtain ⟨header, _⟩ := read.line_ok
  have sized : (line.take n).length = n := by
    rw [List.length_take]
    omega
  have lines : entryLines (frameHeaderLine (line.take n) n frame).hAttrs = done ++ [line.take n] := by
    have small : (line.take n).length ≤ LD_MAX := (header.take positive).short
    simp only [frameHeaderLine, positive, if_true, List.take_take, Nat.min_self]
    rw [stompSetdata_short small, entryLines_append, read.lines]
    exact congrArg (fun last => done ++ [last]) (linedata_bytes_exact _)
  refine Or.inl fun pre => ?_
  rw [lines, read.split] at pre
  obtain ⟨more, same⟩ := pre
  rw [List.append_assoc, List.append_cancel_left_eq, List.singleton_append] at same
  have equal := (List.cons.inj same).1
  rw [equal] at sized
  omega

/-- The blank line is taken for the first byte of the body: the body gets one byte too many. -/
theorem Call.longer_body {call : Call} {later : List UInt8} (read : BodyRead sent frame)
    (ahead : call.Ahead 1 (LF :: (sent.body ++ 0 :: later))) (early : call.start = 0) (rands : Nat) :
    Loses call.head.length sent (call.from rand (call.reading 1 frame rands)) := by
  have size : BUFFER_LEN = 1024 := rfl
  have most : LD_MAX = 1024 := rfl
  have nonempty : LF :: sent.body ≠ [] := List.cons_ne_nil _ _
  have clean : (0 : UInt8) ∉ LF :: sent.body := by
    rw [List.mem_cons, not_or]
    exact ⟨by decide, sent.body_clean⟩
  have whole : call.Ahead 1 ((LF :: sent.body) ++ 0 :: later) := ahead
  by_cases fits : 1 + (LF :: sent.body).length + 1 ≤ BUFFER_LEN
  · have length : (LF :: sent.body).length = sent.body.length + 1 := rfl
    have grows := frameBodyPiece_grows frame [] nonempty
    rw [List.append_nil] at grows
    obtain ⟨parsed, goes, complete, _⟩ := Call.body_complete rand whole fits read.status
      (fun rest => ssplit_line (lineText_body nonempty clean) (by omega) (by decide) rest)
      nonempty clean (frameUpdate_body (parseFinish rand rands) read.status nonempty (by
        rw [read.contentlen, read.received, wrap32_of_bounds] <;> omega))
    rw [goes]
    apply Call.return_loses
    rw [complete]
    intro carries
    have data := grows.data
    rw [read.data] at data
    have same : LF :: sent.body = sent.body := data.symm.trans carries.body
    have := congrArg List.length same
    omega
  · have long : BUFFER_LEN ≤ 1 + ((LF :: sent.body) ++ 0 :: later).length := by
      simp only [List.length_append, List.length_cons] at fits ⊢
      omega
    have split := ssplit_body_cut later clean (show 0 < BUFFER_LEN - 1 by decide) (by omega)
      (by decide)
    rw [Call.body_cut rand whole early (by decide) long read.status split]
    exact loses_none call.head.length sent

/-- The LF of a header line begins a block, and a length is known: it is taken for the blank line.
Only a frame without a body survives that, if the line is its last one. -/
theorem Call.lf_for_blank {call : Call} {later : List UInt8}
    (read : HeaderRead sent true done todo frame) (early : call.start = 0)
    (ahead : call.Ahead 0 (LF :: (WireFrame.encodeLines todo ++ LF :: (sent.body ++ 0 :: later))))
    (rands : Nat) :
    Recovers rand sent later call.head (if todo = [] ∧ sent.body = [] then some ⟨3, false⟩ else none)
      (call.from rand (call.reading 0 frame rands)) := by
  have announced := read.contentlen
  rw [if_pos rfl] at announced
  have missing : todo ≠ [] → done ≠ sent.headers := by
    intro more same
    have split := read.split
    rw [← same, List.self_eq_append_right] at split
    exact more split
  by_cases empty : sent.body = []
  · obtain ⟨parsed, goes, complete, saved, offset⟩ := Call.blank_complete rand ahead (by decide)
      read.status (by rw [announced, empty]; rfl) rands
    rw [goes]
    cases todo with
    | nil =>
        have carries : parsed.frame.Carries sent := by
          rw [complete]
          exact read.carries empty _ fun _ => ⟨rfl, rfl, rfl⟩
        have both : call.Ahead 0 ([LF, LF] ++ 0 :: later) := by simpa [empty] using ahead
        rw [if_pos ⟨rfl, empty⟩]
        exact ⟨parsed.frame, carries,
          Call.return_at_nul rand (both.advance (by decide)) saved (by omega)⟩
    | cons line todo =>
        rw [if_neg (by simp)]
        apply Call.return_loses
        rw [complete]
        exact fun carries => missing (by simp) (read.lines.symm.trans carries.headers)
  · have positive := List.length_pos_iff.mpr empty
    obtain ⟨goes, after⟩ := Call.blank_again rand ahead (by decide) read.status (by omega) rands
    rw [if_pos (by omega)] at goes
    rw [goes, if_neg (fun both => empty both.2)]
    cases todo with
    | nil => exact Call.longer_body rand read.startBody after early rands
    | cons line todo =>
        apply Call.from_loses
        exact Or.inr ⟨rfl, fun same => missing (by simp) (read.lines.symm.trans same)⟩

end Header

/-- The header lines that are still to be read, and what follows them. -/
theorem headers_recover {sent : WireFrame} {later : List UInt8} :
    ∀ (todo : List (List UInt8)) (place : Place) {known : Bool} {done : List (List UInt8)}
      {call : Call} {frame : Frame}, HeaderRead sent known done todo frame →
      call.Ahead place.index
        (WireFrame.encodeLines todo ++ LF :: (sent.body ++ 0 :: later)) →
      (place.fresh = true ↔ call.start = 0) → place.index < BUFFER_LEN → ∀ rands,
      Recovers rand sent later call.head (place.headers sent known todo)
        (call.from rand (call.reading place.index frame rands))
  | [], place, known, done, call, frame, read, ahead, fresh, short, rands => by
      rw [Place.headers]
      exact blank_recovers rand ahead fresh short read rands
  | line :: todo, place, known, done, call, frame, read, ahead, fresh, short, rands => by
      rw [WireFrame.encodeLines_cons, List.append_assoc, List.cons_append] at ahead
      simp only [Place.headers]
      by_cases fits : place.index + line.length + 1 ≤ BUFFER_LEN
      · obtain ⟨goes, after⟩ := Call.header_again rand ahead fits read rands
        rw [goes]
        by_cases inside : place.index + line.length + 1 < BUFFER_LEN
        · rw [if_pos inside]
          exact headers_recover todo ⟨place.index + line.length + 1, place.fresh⟩ read.store after fresh
            inside rands
        · have last : place.index + line.length + 1 = BUFFER_LEN := by omega
          rw [last] at after
          rw [if_neg inside, last]
          by_cases early : call.start = 0
          · obtain ⟨next, head, start, ahead', moved⟩ :=
              Call.block_end rand (storeHeader sent line frame) rands after early (by simp)
            rw [if_pos ⟨fresh.mpr early, rfl⟩, moved, ← head]
            exact headers_recover todo ⟨0, true⟩ read.store ahead' (by simp [start]) (by decide) rands
          · have stale : ¬ place.fresh = true := fun h => early (fresh.mp h)
            rw [if_neg (fun h => stale h.1), if_neg (fun h => stale h.1), if_neg (fun h => stale h.1),
              Call.end_none rand after (by omega)]
            exact recovers_none rand sent later call.head
      · rw [if_neg (by omega), if_neg (by omega)]
        obtain ⟨header, _⟩ := read.line_ok
        by_cases early : call.start = 0
        · have isFresh := fresh.mpr early
          by_cases last : place.index + line.length + 1 = BUFFER_LEN + 1
          · rcases Call.cut_before_lf rand ahead early (by omega) read rands with
              ⟨announces, lost⟩ | ⟨silent, next, head, start, ahead', goes⟩
            · have unknown : known = false := by
                cases known with
                | false => rfl
                | true => rw [read.silent] at announces; cases announces
              rw [if_neg (by simp [announces]), if_neg (by simp [unknown]), lost]
              exact recovers_none rand sent later call.head
            · have stored := read.store
              rw [silent, Bool.or_false] at stored
              rw [goes, ← head]
              cases known with
              | false =>
                  have unknown := stored.contentlen
                  rw [if_neg Bool.false_ne_true] at unknown
                  obtain ⟨passed, after⟩ :=
                    Call.blank_again rand ahead' (by decide) stored.status (by omega) rands
                  rw [if_neg (by omega)] at passed
                  rw [passed, silent, if_pos ⟨isFresh, last, rfl⟩]
                  exact headers_recover todo ⟨1, true⟩ stored after (by simp [start]) (by decide) rands
              | true =>
                  have taken := Call.lf_for_blank rand stored start ahead' rands
                  rw [if_neg (by simp)]
                  simpa [isFresh, last] using taken
          · rw [if_neg (fun h => last h.2.1), if_neg (fun h => last h.2.1)]
            rcases Call.header_cut rand ahead early short (by omega) read rands with
              ⟨_, lost⟩ | ⟨_, next, head, _, _, goes⟩
            · rw [lost]
              exact recovers_none rand sent later call.head
            · rw [goes, ← head]
              exact Call.from_loses rand (read.spoiled_part (by omega) (by omega))
        · have stale : ¬ place.fresh = true := fun h => early (fresh.mp h)
          have split := ssplit_header_cut header
            (LF :: (WireFrame.encodeLines todo ++ LF :: (sent.body ++ 0 :: later)))
            (show 0 < BUFFER_LEN - place.index by omega) (by omega)
          rw [if_neg (fun h => stale h.1), if_neg (fun h => stale h.1),
            Call.cut_none rand ahead (by omega) (by rw [List.length_append, List.length_cons]; omega)
              (by rw [decide_eq_false read.not_body]; exact split)]
          exact recovers_none rand sent later call.head

/-! ### One frame -/

/-- The frame after the command line. -/
def nameFrame (sent : WireFrame) : Frame :=
  { allocFrame with
    name := sent.command, status := .inputHeader, size := wrap32 (sent.command.length + 1) }

theorem frameUpdate_command (finish : Frame → Frame) (sent : WireFrame) (rest : List UInt8) :
    frameUpdate finish (sent.command ++ LF :: rest) sent.command.length allocFrame =
      (0, nameFrame sent) := by
  have known := findFrameName_of_known sent.command_known (Nat.le_refl _)
    (List.prefix_append sent.command (LF :: rest))
  simp [frameUpdate, allocFrame, frameSetname, known, nameFrame]

theorem nameFrame_read (sent : WireFrame) :
    HeaderRead sent false [] sent.headers (nameFrame sent) := by
  constructor <;> simp [nameFrame, allocFrame, entryLines]

/-- No command line is so long that a call which begins at most one NUL after the start of a block
comes to the end of the block in it. -/
theorem command_short (sent : WireFrame) : sent.command.length ≤ 11 := by
  have all : ∀ w ∈ finfoArr, w.length ≤ 11 := by decide
  exact all sent.command sent.command_known

/-- One frame of the file, from the place where it begins. -/
theorem frame_recovers {sent : WireFrame} {later : List UInt8} {place : Place} {head : List Frame}
    {result : Option UnpersistState}
    (boundary : Boundary rand place (sent.encode ++ later) head result) :
    Recovers rand sent later head (place.frame sent) result := by
  have more : sent.encode ++ later ≠ [] := by simp [WireFrame.encode]
  obtain ⟨call, rands, rfl, ahead, fresh, near, rfl⟩ := boundary.starts more
  have parts : sent.encode ++ later = sent.command ++ LF ::
      (WireFrame.encodeLines sent.headers ++ LF :: (sent.body ++ 0 :: later)) := by
    simp [WireFrame.encode]
  rw [parts] at ahead
  have size : BUFFER_LEN = 1024 := rfl
  have few := command_short sent
  have header := command_line sent.command_known
  have inside := ahead.inside
  by_cases fits : place.index + sent.command.length + 1 ≤ BUFFER_LEN
  · have goes := Call.line_again rand ahead fits
      (fun rest => ssplit_line header.text header.short (by decide) rest) allocFrame_not_body
      (by simp [updateInside, allocFrame_status])
      (fun rest => frameUpdate_command (parseFinish rand rands) sent rest) (Int.le_refl 0)
    have whole : call.Ahead place.index ((sent.command ++ [LF]) ++
        (WireFrame.encodeLines sent.headers ++ LF :: (sent.body ++ 0 :: later))) := by
      simpa using ahead
    have after := whole.advance (by rw [List.length_append]; exact fits)
    rw [List.length_append, List.length_singleton, ← Nat.add_assoc] at after
    rw [goes, Place.frame]
    by_cases short : place.index + sent.command.length + 1 < BUFFER_LEN
    · rw [if_pos short]
      exact headers_recover rand sent.headers ⟨_, place.fresh⟩ (nameFrame_read sent) after fresh
        short rands
    · have last : place.index + sent.command.length + 1 = BUFFER_LEN := by omega
      rw [last] at after
      rw [if_neg short, last, Call.end_none rand after (by omega)]
      exact recovers_none rand sent later call.head
  · have long : BUFFER_LEN ≤ place.index + (sent.command ++ LF ::
        (WireFrame.encodeLines sent.headers ++ LF :: (sent.body ++ 0 :: later))).length := by
      rw [List.length_append, List.length_cons]
      omega
    have lost : call.from rand (call.reading place.index allocFrame rands) = none := by
      by_cases last : place.index = BUFFER_LEN
      · rw [last] at ahead ⊢
        exact Call.end_none rand ahead (by omega)
      · exact Call.cut_none rand ahead (by omega) long
          (ssplit_header_cut header _ (show 0 < BUFFER_LEN - place.index by omega) (by omega))
    rw [Place.frame, if_neg (by omega), lost]
    exact recovers_none rand sent later call.head

end Newtmq
