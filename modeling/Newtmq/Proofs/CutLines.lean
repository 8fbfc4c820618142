/-
Module: Newtmq.Proofs.CutLines
Purpose: The relation between the byte-wise reader and the connection between two passes of
  `recv_data`, and the passes outside a body: the line they hand on is the saved fragment with the
  new part, and the pass keeps the relation whatever part of the line the chunk holds.
Trusted boundary: none
Main exports: Tracks, PassKeeps, passKeeps_line, passKeeps_lineEarly
-/
import Newtmq.Proofs.RecvTermination
import Newtmq.Proofs.Entries
import Newtmq.Proofs.LineMemory

namespace Newtmq

variable (env : RecvEnv) {sock : Int}

/-! ### The connection beside the reader -/

/-- The connection holds no frame, or one that is as good as new. -/
def AtRest (sock : Int) (st : RecvState) : Prop :=
  prepareFrame sock st.cinfo = { allocFrame with sock := sock, cinfo := some st.cinfo.id }

/-- The frame of the connection is in its header and agrees with the draft. -/
structure HeaderRel (draft : Draft) (frame : Frame) : Prop where
  status : frame.status = .inputHeader
  name : frame.name = draft.name
  headers : entryLines frame.hAttrs = draft.headers
  contentlen : frame.contentlen = draft.contentlen
  received : frame.hasContentlen = 0
  data : frame.hData = []
  size : frame.size = wrap32 draft.size
  bound : draft.contentlen < 2147483648

/-- The frame of the connection is in its body, and `stored` is what it has stored of it. -/
structure BodyRel (draft : Draft) (stored : List UInt8) (frame : Frame) : Prop where
  status : frame.status = .inputBody
  name : frame.name = draft.name
  headers : entryLines frame.hAttrs = draft.headers
  contentlen : frame.contentlen = draft.contentlen
  received : frame.hasContentlen = stored.length
  data : (entryLines frame.hData).flatten = stored
  size : frame.size = wrap32 (draft.size + stored.length)
  bound : draft.contentlen < 2147483648

/-- The blank line opens the body. -/
theorem HeaderRel.opens {draft : Draft} {frame : Frame} (rel : HeaderRel draft frame) :
    BodyRel { draft with size := draft.size + 1 } []
      { frame with status := .inputBody, size := wrap32 (frame.size + 1) } where
  status := rfl
  name := rel.name
  headers := rel.headers
  contentlen := rel.contentlen
  received := by simpa using rel.received
  data := by simp [rel.data, entryLines]
  size := by simp [rel.size]
  bound := rel.bound

/-- `fragment` is what `prev_data` holds. -/
def Saved (cinfo : StompConninfo) (fragment : List UInt8) : Prop :=
  match cinfo.prevData with
  | none => fragment = []
  | some prev => fragment = prev.bytes ∧ fragment ≠ []

/-- The unfinished line of a reading outside a body. -/
def Reading.line? : Reading → Option (List UInt8)
  | .command line | .header _ line => some line
  | .body _ _ => none

/-- The same place with another unfinished line. -/
def Reading.setLine (line : List UInt8) : Reading → Reading
  | .command _ => .command line
  | .header draft _ => .header draft line
  | .body draft got => .body draft got

/-- The reading after the unfinished line has ended. -/
def Reading.endLine : Reading → Reading
  | .command line => endCommand line
  | .header draft line => .header (draft.addLine line) []
  | .body draft got => .body draft got

/-- The frame of the connection is the one that the line of the reading belongs to. -/
def AtLine (sock : Int) (reading : Reading) (st : RecvState) : Prop :=
  match reading with
  | .command _ => AtRest sock st
  | .header draft _ => ∃ frame, st.cinfo.frame = some frame ∧ HeaderRel draft frame
  | .body _ _ => False

/-- The connection is where the reader is. In the two `early` cases a chunk has ended right after a
command at the end of the unfinished line or in the body, and the code has taken the line for a
finished one. -/
inductive Tracks (sock : Int) (base : List Message) : Reader → RecvState → Prop where
  | line {reading published st} (line : List UInt8) (isLine : reading.line? = some line)
      (place : AtLine sock reading st) (saved : Saved st.cinfo line)
      (short : line.length ≤ LD_MAX) (start : isNl line = false)
      (bucket : st.bucket.map Frame.message = base ++ published) :
      Tracks sock base ⟨reading, published⟩ st
  | lineEarly {reading published st} (line : List UInt8) (isLine : reading.line? = some line)
      (place : AtLine sock reading.endLine st) (saved : Saved st.cinfo [])
      (nonempty : line ≠ []) (ends : EndsCommand line)
      (bucket : st.bucket.map Frame.message = base ++ published) :
      Tracks sock base ⟨reading, published⟩ st
  | body {draft got published st frame} (stored fragment : List UInt8)
      (current : st.cinfo.frame = some frame)
      (rel : BodyRel draft stored frame) (short : (stored.length : Int) < draft.contentlen)
      (saved : Saved st.cinfo fragment) (whole : got = stored ++ fragment)
      (small : got.length < 2147483648)
      (bucket : st.bucket.map Frame.message = base ++ published) :
      Tracks sock base ⟨.body draft got, published⟩ st
  | bodyEarly {draft got published st} (rest : st.cinfo.frame = none)
      (saved : Saved st.cinfo []) (reached : draft.contentlen ≤ got.length)
      (holds : HoldsCommand got)
      (bucket : st.bucket.map Frame.message = base ++ published ++ [draft.finish got]) :
      Tracks sock base ⟨.body draft got, published⟩ st

/-! ### Lines that end -/

/-- The line that a pass hands on is the saved fragment with the new part, and in memory the rest of
the chunk or a NUL follows it. -/
theorem joinedLine_saved {cinfo : StompConninfo} {fragment : List UInt8}
    (saved : Saved cinfo fragment) (curr : List UInt8) {n : Nat} (within : n ≤ curr.length) :
    ∃ tail, joinedLine cinfo curr n =
        ((fragment ++ curr.take n) ++ tail, (fragment ++ curr.take n).length) ∧
      (tail = curr.drop n ∨ tail = [0]) := by
  unfold Saved at saved
  cases h : cinfo.prevData with
  | none =>
      rw [h] at saved
      subst saved
      exact ⟨curr.drop n, by simp [joinedLine, h, within], Or.inl rfl⟩
  | some prev =>
      rw [h] at saved
      obtain ⟨rfl, _⟩ := saved
      refine ⟨[0], ?_, Or.inr rfl⟩
      simp [joinedLine, h, within, Nat.add_comm]

theorem Saved.none {cinfo : StompConninfo} (saved : Saved cinfo []) : cinfo.prevData = none := by
  cases h : cinfo.prevData with
  | none => rfl
  | some prev => simp [Saved, h] at saved

theorem AtRest.born {st : RecvState} (rest : AtRest sock st) :
    (prepareFrame sock st.cinfo).status = .born := by
  rw [rest]
  rfl

theorem AtRest.hold {st : RecvState} (rest : AtRest sock st) :
    AtRest sock (st.hold (prepareFrame sock st.cinfo)) := by
  unfold AtRest at rest ⊢
  rw [rest]
  rfl

/-- The end of a command line. -/
theorem recvLine_endCommand {st : RecvState} {curr line tail : List UInt8} {n : Nat}
    (rest : AtRest sock st) (nonempty : line ≠ [])
    (joined : joinedLine st.cinfo curr n = (line ++ tail, line.length)) :
    ∃ st', recvLine env sock curr n st = (curr.drop (n + 1), st') ∧
      AtLine sock (endCommand line) st' ∧ Saved st'.cinfo [] ∧ st'.bucket = st.bucket := by
  have positive := List.length_pos_iff.mpr nonempty
  cases found : findFrameName line line.length finfoArr with
  | some w =>
      have foundHere : findFrameName (line ++ tail) line.length finfoArr = some w := by
        rw [findFrameName_append, found]
      refine ⟨_, recvLine_command rest.born positive joined foundHere, ?_, rfl, rfl⟩
      simp only [endCommand, found, AtLine]
      refine ⟨_, rfl, ?_⟩
      rw [rest]
      constructor <;> simp [allocFrame, entryLines]
  | none =>
      have unknownHere : findFrameName (line ++ tail) line.length finfoArr = none := by
        rw [findFrameName_append, found]
      refine ⟨_, recvLine_unknown rest.born (Or.inr positive) joined unknownHere, ?_, rfl, rfl⟩
      simp only [endCommand, found, AtLine]
      exact rest.hold

/-- The end of a header line. -/
theorem recvLine_endHeader {st : RecvState} {draft : Draft} {frame : Frame}
    {curr line tail : List UInt8} {n : Nat} (current : st.cinfo.frame = some frame)
    (rel : HeaderRel draft frame) (nonempty : line ≠ []) (start : isNl line = false)
    (short : line.length ≤ LD_MAX) (ok : TailOk line tail)
    (joined : joinedLine st.cinfo curr n = (line ++ tail, line.length)) :
    ∃ frame', recvLine env sock curr n st = (curr.drop (n + 1), st.hold frame') ∧
      HeaderRel (draft.addLine line) frame' := by
  have positive := List.length_pos_iff.mpr nonempty
  have notNewline : isNl (line ++ tail) = false := by
    obtain ⟨c, more, rfl⟩ := List.exists_cons_of_ne_nil nonempty
    exact start
  refine ⟨_, recvLine_header current rel.status joined (Or.inl notNewline), ?_⟩
  have stored : stompSetdata ((line ++ tail).take line.length) frame.hAttrs =
      frame.hAttrs ++ [⟨line, line.length⟩] := by
    rw [List.take_left]
    exact stompSetdata_short short _
  have length : (if isContentlen (line ++ tail) line.length then getContentlen (line ++ tail)
      else frame.contentlen) = (draft.addLine line).contentlen := by
    rw [isContentlen_append, Draft.addLine, rel.contentlen]
    split
    · next header => exact getContentlen_append ok header
    · rfl
  constructor
  · simpa [frameHeaderLine, positive] using rel.status
  · simpa [frameHeaderLine, positive, Draft.addLine] using rel.name
  · simp only [frameHeaderLine, positive, if_true, stored, entryLines_append, rel.headers]
    simp [Draft.addLine, entryLines]
  · simpa only [frameHeaderLine, positive, if_true] using length
  · simpa [frameHeaderLine, positive] using rel.received
  · simpa [frameHeaderLine, positive] using rel.data
  · simp [frameHeaderLine, positive, rel.size, Draft.addLine]
  · simp only [Draft.addLine]
    split
    · exact wrap32_lt _
    · exact rel.bound

/-- The end of a line outside a body, wherever the connection has the line from. -/
theorem recvLine_endLine (reading : Reading) {st : RecvState} {curr line tail : List UInt8} {n : Nat}
    (isLine : reading.line? = some line) (place : AtLine sock reading st) (nonempty : line ≠ [])
    (start : isNl line = false) (short : line.length ≤ LD_MAX)
    (ok : (∃ draft, reading = .header draft line) → TailOk line tail)
    (joined : joinedLine st.cinfo curr n = (line ++ tail, line.length)) :
    ∃ st', recvLine env sock curr n st = (curr.drop (n + 1), st') ∧
      AtLine sock reading.endLine st' ∧ Saved st'.cinfo [] ∧ st'.bucket = st.bucket := by
  cases reading with
  | command other =>
      cases isLine
      exact recvLine_endCommand env place nonempty joined
  | header draft other =>
      cases isLine
      obtain ⟨frame, current, rel⟩ := place
      obtain ⟨frame', passes, rel'⟩ := recvLine_endHeader env current rel nonempty start
        short (ok ⟨draft, rfl⟩) joined
      exact ⟨st.hold frame', passes, ⟨frame', rfl, rel'⟩, rfl, rfl⟩
  | body draft got => cases isLine

/-- A NUL or a line feed after a finished line changes nothing, unless a line feed can be the blank
line of the header. -/
theorem recvLine_absorb {reading : Reading} {st : RecvState} {c : UInt8}
    (isLine : reading.line? = some []) (place : AtLine sock reading st) (saved : Saved st.cinfo [])
    (goesOn : ∀ draft, reading = .header draft [] → c = 0 ∨ draft.contentlen < 0)
    (rest : List UInt8) :
    ∃ st', recvLine env sock (c :: rest) 0 st = (rest, st') ∧ AtLine sock reading st' ∧
      Saved st'.cinfo [] ∧ st'.bucket = st.bucket := by
  have none := saved.none
  have joined : joinedLine st.cinfo (c :: rest) 0 = (c :: rest, 0) := by simp [joinedLine, none]
  cases reading with
  | command other =>
      cases isLine
      cases current : st.cinfo.frame with
      | none => exact ⟨st, recvLine_nothing current none _, place, saved, rfl⟩
      | some frame =>
          have unknown : findFrameName (c :: rest) 0 finfoArr = Option.none := by
            rw [findFrameName_eq_none]
            intro w mem short
            exact absurd (List.length_eq_zero_iff.mp (by omega)) (finfoArr_ne_nil w mem)
          exact ⟨_, recvLine_unknown place.born (Or.inl (by simp [current])) joined unknown,
            place.hold, rfl, rfl⟩
  | header draft other =>
      cases isLine
      obtain ⟨frame, current, rel⟩ := place
      have same : frameHeaderLine (c :: rest) 0 frame = frame := by simp [frameHeaderLine]
      have header : isNl (c :: rest) = false ∨ frame.contentlen < 0 := by
        rcases goesOn draft rfl with rfl | h
        · exact Or.inl rfl
        · exact Or.inr (rel.contentlen ▸ h)
      exact ⟨_, recvLine_header current rel.status joined header, ⟨frame, by simp [same], rel⟩,
        rfl, rfl⟩
  | body draft got => cases isLine

/-! ### Runs of bytes inside a line -/

@[simp] theorem Reading.line?_setLine (reading : Reading) (line : List UInt8) :
    (reading.setLine line).line? = reading.line?.map fun _ => line := by
  cases reading <;> rfl

@[simp] theorem Reading.setLine_setLine (reading : Reading) (first second : List UInt8) :
    (reading.setLine first).setLine second = reading.setLine second := by
  cases reading <;> rfl

theorem Reading.setLine_self {reading : Reading} {line : List UInt8}
    (isLine : reading.line? = some line) : reading.setLine line = reading := by
  cases reading <;> cases isLine <;> rfl

/-- A byte that neither ends the line nor is an empty line joins the line. -/
theorem feed_inside {reading : Reading} {line : List UInt8} (isLine : reading.line? = some line)
    {b : UInt8} (inside : nonStop false b = true) (start : isNl (line ++ [b]) = false)
    (published : List Message) :
    feed ⟨reading, published⟩ b = ⟨reading.setLine (line ++ [b]), published⟩ := by
  have notEnd : b ≠ 0 ∧ b ≠ LF := by simpa [nonStop] using inside
  cases reading with
  | command other =>
      cases isLine
      have notCR : ¬ (line = [] ∧ b = CR) := by
        rintro ⟨rfl, rfl⟩
        simp [isNl] at start
      simp [feed, notEnd, notCR, Reading.setLine]
  | header draft other =>
      cases isLine
      cases line with
      | nil =>
          have notCR : b ≠ CR := by
            rintro rfl
            simp [isNl] at start
          simp [feed, notEnd, notCR, Reading.setLine]
      | cons c more => simp [feed, notEnd, Reading.setLine]
  | body draft got => cases isLine

/-- Of a byte inside a line, `ByteSafe` says `InLine`. -/
theorem ByteSafe.inLine {reading : Reading} {line : List UInt8} (isLine : reading.line? = some line)
    {b : UInt8} (inside : nonStop false b = true) (start : isNl (line ++ [b]) = false)
    (safe : ByteSafe reading b) : InLine line b := by
  have notEnd : b ≠ 0 ∧ b ≠ LF := by simpa [nonStop] using inside
  have notCR : ¬ (line = [] ∧ b = CR) := by
    rintro ⟨rfl, rfl⟩
    simp [isNl] at start
  cases reading with
  | command other =>
      cases isLine
      simpa [ByteSafe, notEnd, notCR] using safe
  | header draft other =>
      cases isLine
      rcases safe with ⟨empty, h | h⟩ | h | ⟨_, h, _⟩ | ⟨_, _, h⟩
      · exact absurd h notEnd.2
      · exact absurd ⟨empty, h⟩ notCR
      · exact absurd h notEnd.1
      · exact absurd h notEnd.2
      · exact h
  | body draft got => cases isLine

/-- A run of bytes that do not end the line: the line grows, stays within the buffer, and before each
of the bytes it did not end with a command. -/
theorem feeds_inside {run more : List UInt8} {published : List Message} :
    ∀ (reading : Reading) (line : List UInt8), reading.line? = some line →
      run.all (nonStop false) = true →
      isNl (line ++ run) = false → line.length ≤ LD_MAX →
      SafeFrom ⟨reading, published⟩ (run ++ more) →
      feeds ⟨reading, published⟩ run = ⟨reading.setLine (line ++ run), published⟩ ∧
        (line ++ run).length ≤ LD_MAX ∧
        ∀ first second, run = first ++ second → second ≠ [] → ¬ EndsCommand (line ++ first) := by
  induction run with
  | nil =>
      intro reading line isLine _ _ short _
      refine ⟨by simp [Reading.setLine_self isLine], by simpa using short, ?_⟩
      intro first second parts nonempty
      exact absurd (List.append_eq_nil_iff.mp parts.symm).2 nonempty
  | cons b run ih =>
      intro reading line isLine inside start short safe
      simp only [List.all_cons, Bool.and_eq_true] at inside
      have startHere : isNl (line ++ [b]) = false := by
        cases line <;> exact start
      obtain ⟨fits, noCommand, _⟩ := ByteSafe.inLine isLine inside.1 startHere safe.1
      have step := feed_inside isLine inside.1 startHere published
      have after := safe.2
      rw [step] at after
      obtain ⟨all, short', none⟩ := ih (reading.setLine (line ++ [b]))
        (line ++ [b]) (by simp [isLine]) inside.2 (by simpa using start)
        (by simpa using Nat.succ_le_of_lt fits) after
      refine ⟨by simpa [step] using all, by simpa using short', ?_⟩
      intro first second parts nonempty
      cases first with
      | nil => simpa using noCommand
      | cons d first =>
          cases parts
          simpa using none first second rfl nonempty

/-! ### A pass outside a body -/

@[simp] theorem AtLine.setLine_iff {reading : Reading} {line : List UInt8} {st : RecvState} :
    AtLine sock (reading.setLine line) st ↔ AtLine sock reading st := by
  cases reading <;> rfl

theorem AtLine.isBodyInput {reading : Reading} {st : RecvState} (place : AtLine sock reading st) :
    st.isBodyInput = false := by
  cases reading with
  | command line => exact isBodyInput_of_born place.born
  | header draft line =>
      obtain ⟨frame, current, rel⟩ := place
      exact isBodyInput_of_header current (by simp [rel.status])
  | body draft got => cases place

theorem line?_endCommand (line : List UInt8) : (endCommand line).line? = some [] := by
  unfold endCommand
  split <;> rfl

theorem Reading.line?_endLine {reading : Reading} {line : List UInt8}
    (isLine : reading.line? = some line) : reading.endLine.line? = some [] := by
  cases reading with
  | command other => exact line?_endCommand other
  | header draft other => rfl
  | body draft got => cases isLine

theorem feed_endLine {reading : Reading} {line : List UInt8} (isLine : reading.line? = some line)
    (nonempty : line ≠ []) {c : UInt8} (ends : c = 0 ∨ c = LF) (published : List Message) :
    feed ⟨reading, published⟩ c = ⟨reading.endLine, published⟩ := by
  cases reading with
  | command other =>
      cases isLine
      have : c = 0 ∨ c = LF ∨ (line = [] ∧ c = CR) := by tauto
      simp [feed, this, Reading.endLine]
  | header draft other =>
      cases isLine
      cases line with
      | nil => exact absurd rfl nonempty
      | cons d more => simp [feed, ends, Reading.endLine]
  | body draft got => cases isLine

/-- A line that has begun ends: the reader and the connection go on with the next one. -/
theorem recvLine_ends (reading : Reading) {st : RecvState} {fragment line : List UInt8}
    (run rest : List UInt8) {c : UInt8} {published base : List Message} (isLine : reading.line? = some line)
    (place : AtLine sock reading st) (saved : Saved st.cinfo fragment) (whole : line = fragment ++ run)
    (nonempty : line ≠ []) (start : isNl line = false) (short : line.length ≤ LD_MAX)
    (ends : c = 0 ∨ c = LF) (safe : ByteSafe reading c)
    (bucket : st.bucket.map Frame.message = base ++ published) :
    ∃ st', recvLine env sock (run ++ c :: rest) run.length st = (rest, st') ∧
      Tracks sock base (feed ⟨reading, published⟩ c) st' := by
  obtain ⟨tail, joined, tailIs⟩ := joinedLine_saved saved (run ++ c :: rest)
    (n := run.length) (by simp)
  rw [List.take_left, ← whole] at joined
  have ok : (∃ draft, reading = .header draft line) → TailOk line tail := by
    rintro ⟨draft, rfl⟩
    rcases tailIs with rfl | rfl
    · rw [List.drop_left]
      rcases ends with rfl | rfl
      · exact Or.inr (Or.inl rfl)
      · have value : LengthInLine line := by
          rcases safe with ⟨h, _⟩ | h | ⟨_, _, h, _⟩ | ⟨h, _⟩
          · exact absurd h nonempty
          · cases h
          · exact h
          · exact absurd rfl h
        exact Or.inr (Or.inr ⟨rfl, value⟩)
    · exact Or.inr (Or.inl rfl)
  obtain ⟨st', passes, place', saved', bucket'⟩ :=
    recvLine_endLine env reading isLine place nonempty start short ok joined
  refine ⟨st', ?_, ?_⟩
  · rw [passes]
    simp
  · rw [feed_endLine isLine nonempty ends]
    exact .line [] (Reading.line?_endLine isLine) place' saved' (by simp) rfl (by rw [bucket', bucket])

/-- An empty line outside a body. -/
theorem recvLine_empty {reading : Reading} {st : RecvState} {c : UInt8} (rest : List UInt8)
    {published base : List Message} (isLine : reading.line? = some [])
    (place : AtLine sock reading st) (saved : Saved st.cinfo [])
    (empty : emptyStart false c = true) (bucket : st.bucket.map Frame.message = base ++ published) :
    ∃ st', recvLine env sock (c :: rest) 0 st = (rest, st') ∧
      Tracks sock base (feed ⟨reading, published⟩ c) st' := by
  by_cases goesOn : ∀ draft, reading = .header draft [] → c = 0 ∨ draft.contentlen < 0
  · obtain ⟨st', passes, place', saved', bucket'⟩ :=
      recvLine_absorb env isLine place saved goesOn rest
    have stays : feed ⟨reading, published⟩ c = ⟨reading, published⟩ := by
      cases reading with
      | command other =>
          cases isLine
          have ends : c = 0 ∨ c = LF ∨ c = CR := by simpa [emptyStart] using empty
          have nothing : endCommand [] = .command [] := rfl
          simp [feed, ends, nothing]
      | header draft other =>
          cases isLine
          rcases goesOn draft rfl with rfl | negative
          · simp [feed, LF, CR]
          · have ends : c = 0 ∨ c = LF ∨ c = CR := by simpa [emptyStart] using empty
            have notBody : ¬ 0 < draft.contentlen := by omega
            have notEmpty : ¬ draft.contentlen = 0 := by omega
            rcases ends with rfl | rfl | rfl <;> simp [feed, notBody, notEmpty, LF, CR]
      | body draft got => cases isLine
    rw [stays]
    exact ⟨st', passes, .line [] isLine place' saved' (by simp) rfl (by rw [bucket', bucket])⟩
  · -- The blank line of a header with a length.
    push Not at goesOn
    obtain ⟨draft, rfl, notZero, known⟩ := goesOn
    obtain ⟨frame, current, rel⟩ := place
    have newline : c = LF ∨ c = CR := by
      have : c = 0 ∨ c = LF ∨ c = CR := by simpa [emptyStart] using empty
      exact this.resolve_left notZero
    have blank : isNl (c :: rest) = true := by simpa [isNl] using newline
    have none := saved.none
    have joined : joinedLine st.cinfo (c :: rest) 0 = (c :: rest, 0) := by simp [joinedLine, none]
    by_cases positive : 0 < draft.contentlen
    · have announced : 0 < frame.contentlen := rel.contentlen ▸ positive
      refine ⟨_, recvLine_blank current rel.status joined blank announced, ?_⟩
      have opened : feed ⟨.header draft [], published⟩ c =
          ⟨.body { draft with size := draft.size + 1 } [], published⟩ := by
        simp [feed, newline, positive]
      rw [opened]
      exact .body [] [] rfl rel.opens (by simpa using positive) rfl rfl (by simp) bucket
    · have zero : draft.contentlen = 0 := by omega
      have announced : frame.contentlen = 0 := by rw [rel.contentlen, zero]
      refine ⟨_, recvLine_blank_empty current rel.status joined blank announced, ?_⟩
      have finished : feed ⟨.header draft [], published⟩ c =
          ⟨.command [], published ++ [draft.finish []]⟩ := by
        simp [feed, newline, zero]
      rw [finished]
      refine .line [] rfl ?_ rfl (by simp) rfl ?_
      · simp [AtLine, AtRest, prepareFrame]
      · have message : (finishFrame (frameFinish env st.rands) frame).message = draft.finish [] := by
          simp [Frame.message, finishFrame, frameFinish, Draft.finish, rel.name, ← rel.headers,
            rel.data, rel.size, entryLines]
        simp [bucket, message]

/-- The bytes at hand begin with a line: it ends at one of them, or it is all of them. -/
theorem exists_run (isBody : Bool) {c : UInt8} (rest : List UInt8)
    (start : emptyStart isBody c = false) :
    (∃ run t after, c :: rest = run ++ t :: after ∧ LineText isBody run ∧ nonStop isBody t = false) ∨
      LineText isBody (c :: rest) := by
  have first : nonStop isBody c = true := by
    cases isBody <;> simp_all [nonStop, emptyStart]
  have text : LineText isBody ((c :: rest).takeWhile (nonStop isBody)) := by
    refine ⟨by simp [first], ?_, ?_⟩
    · intro d hd
      simp only [List.takeWhile_cons, first, if_true, List.head?_cons, Option.some.injEq] at hd
      exact hd ▸ start
    · rw [List.all_eq_true]
      exact fun d mem => List.mem_takeWhile_imp mem
  have parts := List.takeWhile_append_dropWhile (p := nonStop isBody) (l := c :: rest)
  cases left : (c :: rest).dropWhile (nonStop isBody) with
  | nil =>
      rw [left, List.append_nil] at parts
      exact Or.inr (parts ▸ text)
  | cons t after =>
      rw [left] at parts
      have stop := List.head_dropWhile_not (nonStop isBody) (l := c :: rest) (by simp [left])
      simp only [left, List.head_cons] at stop
      exact Or.inl ⟨_, t, after, parts.symm, text, stop⟩

/-- What one pass does to the relation: it goes round again after a part of the chunk, or it leaves
with the whole chunk read. -/
def PassKeeps (env : RecvEnv) (sock : Int) (base : List Message) (reader : Reader)
    (curr : List UInt8) (st : RecvState) : Prop :=
  (∃ used rest st', curr = used ++ rest ∧ used ≠ [] ∧
      recvPass env sock (curr, st) = .again (rest, st') ∧
      Tracks sock base (feeds reader used) st') ∨
    ∃ st', recvPass env sock (curr, st) = .leave st' ∧ Tracks sock base (feeds reader curr) st'

/-- Saving a fragment. -/
theorem savePrev_saved {cinfo : StompConninfo} {fragment more : List UInt8}
    (saved : Saved cinfo fragment) (nonempty : more ≠ []) :
    Saved (savePrev cinfo more) (fragment ++ more) := by
  unfold Saved at saved
  cases h : cinfo.prevData with
  | none =>
      rw [h] at saved
      subst saved
      simp [Saved, savePrev, h, nonempty]
  | some prev =>
      rw [h] at saved
      simp [Saved, savePrev, h, saved.1, nonempty]

theorem AtLine.savePrev {reading : Reading} {st : RecvState} (place : AtLine sock reading st)
    (fragment : List UInt8) :
    AtLine sock reading { st with cinfo := savePrev st.cinfo fragment } := by
  cases reading with
  | command line =>
      simp only [AtLine, AtRest, prepareFrame, savePrev_frame, savePrev_id] at place ⊢
      exact place
  | header draft line =>
      simp only [AtLine, savePrev_frame] at place ⊢
      exact place
  | body draft got => cases place

/-- The chunk ends inside a line. A line that begins with a command here is the command, since no
command ends before the last byte; it is taken for a finished line. Any other line is saved. -/
theorem passKeeps_open {reading : Reading} {st : RecvState} {line run more : List UInt8}
    {published base : List Message} (isLine : reading.line? = some line)
    (place : AtLine sock reading st) (saved : Saved st.cinfo line) (short : line.length ≤ LD_MAX)
    (bucket : st.bucket.map Frame.message = base ++ published)
    (text : LineText false run) (startRun : isNl (line ++ run) = false) (fits : run.length ≤ LD_MAX)
    (safe : SafeFrom ⟨reading, published⟩ (run ++ more)) :
    PassKeeps env sock base ⟨reading, published⟩ run st := by
  obtain ⟨fed, short', noCommand⟩ := feeds_inside reading line isLine text.inside startRun short safe
  have split : ssplit run st.isBodyInput = (.error, run.length) := by
    rw [place.isBodyInput]
    exact ssplit_open text fits
  cases known : isFrameName run run.length with
  | error =>
      refine Or.inr ⟨_, recvPass_save split text.nonempty known, ?_⟩
      rw [fed]
      refine .line (line ++ run) (by simp [isLine]) ?_ ?_ short' startRun bucket
      · exact (AtLine.setLine_iff.mpr place).savePrev _
      · rw [List.take_length]
        exact savePrev_saved saved text.nonempty
  | success =>
      have isCommand : run ∈ finfoArr := by
        have := isFrameName_eq_error.not.mp (by rw [known]; simp)
        push Not at this
        obtain ⟨w, mem, _, after, rfl⟩ := this
        by_cases whole : after = []
        · simpa [whole] using mem
        · exact absurd ⟨w, mem, List.suffix_append line w⟩ (noCommand w after rfl whole)
      obtain ⟨tail, joined, tailIs⟩ :=
        joinedLine_saved saved run (Nat.le_refl run.length)
      rw [List.take_length] at joined
      have ok : TailOk (line ++ run) tail := by
        rcases tailIs with rfl | rfl
        · simp [TailOk]
        · exact Or.inr (Or.inl rfl)
      have nonempty : line ++ run ≠ [] := by simp [text.nonempty]
      obtain ⟨st', passes, place', saved', bucket'⟩ :=
        recvLine_endLine env (reading.setLine (line ++ run)) (by simp [isLine])
          (AtLine.setLine_iff.mpr place) nonempty startRun short' (fun _ => ok) joined
      refine Or.inl ⟨run, [], st', by simp, text.nonempty, ?_, ?_⟩
      · rw [recvPass_line split text.nonempty (Or.inr known), passes]
        simp
      · rw [fed]
        exact .lineEarly (line ++ run) (by simp [isLine]) place' saved' nonempty
          ⟨run, isCommand, List.suffix_append line run⟩ (by rw [bucket', bucket])

/-- A pass outside a body. -/
theorem passKeeps_line {reading : Reading} {st : RecvState} {line curr more : List UInt8}
    {published base : List Message} (isLine : reading.line? = some line)
    (place : AtLine sock reading st) (saved : Saved st.cinfo line) (short : line.length ≤ LD_MAX)
    (start : isNl line = false) (bucket : st.bucket.map Frame.message = base ++ published)
    (nonempty : curr ≠ []) (safe : SafeFrom ⟨reading, published⟩ (curr ++ more)) :
    PassKeeps env sock base ⟨reading, published⟩ curr st := by
  obtain ⟨c, rest, rfl⟩ := List.exists_cons_of_ne_nil nonempty
  by_cases empty : emptyStart false c = true
  · have split : ssplit (c :: rest) st.isBodyInput = (.success, 0) := by
      rw [place.isBodyInput]
      exact ssplit_empty rest empty
    have pass : recvPass env sock (c :: rest, st) = .again (recvLine env sock (c :: rest) 0 st) :=
      recvPass_line split nonempty (Or.inl rfl)
    by_cases begun : line = []
    · subst begun
      obtain ⟨st', passes, tracks⟩ :=
        recvLine_empty env rest isLine place saved empty bucket
      exact Or.inl ⟨[c], rest, st', rfl, by simp, by rw [pass, passes], tracks⟩
    · have ends : c = 0 ∨ c = LF := by
        have : c = 0 ∨ c = LF ∨ c = CR := by simpa [emptyStart] using empty
        by_contra notEnd
        have isCR : c = CR := by tauto
        subst isCR
        have startHere : isNl (line ++ [CR]) = false := by
          obtain ⟨d, others, rfl⟩ := List.exists_cons_of_ne_nil begun
          exact start
        have := (ByteSafe.inLine isLine (by decide) startHere safe.1).2.2
        simp [begun] at this
      obtain ⟨st', passes, tracks⟩ := recvLine_ends env reading [] rest isLine place saved
        (by simp) begun start short ends safe.1 bucket
      exact Or.inl ⟨[c], rest, st', rfl, by simp, by rw [pass]; exact congrArg _ passes, tracks⟩
  · have startRun : ∀ run : List UInt8, run ≠ [] → run.head? = some c → isNl (line ++ run) = false := by
      intro run nonempty head
      cases line with
      | nil =>
          cases run with
          | nil => cases head
          | cons d others =>
              cases head
              simp only [emptyStart, Bool.not_eq_true, Bool.or_eq_false_iff, decide_eq_false_iff_not,
                Bool.not_false, Bool.true_and] at empty
              simpa [isNl] using empty.2
      | cons d others => exact start
    rcases exists_run false rest (by simpa using empty) with
      ⟨run, t, after, parts, text, stop⟩ | text
    · have head : run.head? = some c := by
        obtain ⟨d, others, rfl⟩ := List.exists_cons_of_ne_nil text.nonempty
        cases parts
        rfl
      rw [parts, List.append_assoc, List.cons_append] at safe
      obtain ⟨fed, short', _⟩ :=
        feeds_inside reading line isLine text.inside (startRun run text.nonempty head) short safe
      have safeEnd := safe.after.1
      rw [fed] at safeEnd
      have ends : t = 0 ∨ t = LF := by
        simpa [nonStop, or_iff_not_imp_left] using stop
      have split : ssplit (run ++ t :: after) st.isBodyInput = (.success, run.length) := by
        rw [place.isBodyInput]
        exact ssplit_line text (by simp only [List.length_append] at short'; omega) stop after
      obtain ⟨st', passes, tracks⟩ := recvLine_ends env
        (reading.setLine (line ++ run)) run after (by simp [isLine])
        (AtLine.setLine_iff.mpr place) saved rfl (by simp [text.nonempty])
        (startRun run text.nonempty head) short' ends safeEnd bucket
      refine Or.inl ⟨run ++ [t], after, st', by simp [parts], by simp, ?_, ?_⟩
      · rw [parts, recvPass_line split (by simp) (Or.inl rfl), passes]
      · rw [feeds_append, fed]
        exact tracks
    · have startHere := startRun (c :: rest) nonempty rfl
      have fits := (feeds_inside reading line isLine text.inside startHere short safe).2.1
      simp only [List.length_append] at fits
      exact passKeeps_open env isLine place saved short bucket text startHere (by omega) safe

/-- A chunk has ended right after a command at the end of the line, and the line has been taken for a
finished one: the byte that ends it does nothing more. -/
theorem passKeeps_lineEarly {reading : Reading} {st : RecvState} {line curr more : List UInt8}
    {published base : List Message} (isLine : reading.line? = some line)
    (place : AtLine sock reading.endLine st) (saved : Saved st.cinfo []) (begun : line ≠ [])
    (command : EndsCommand line) (bucket : st.bucket.map Frame.message = base ++ published)
    (nonempty : curr ≠ []) (safe : SafeFrom ⟨reading, published⟩ (curr ++ more)) :
    PassKeeps env sock base ⟨reading, published⟩ curr st := by
  obtain ⟨c, rest, rfl⟩ := List.exists_cons_of_ne_nil nonempty
  have byte : (c = 0 ∨ c = LF) ∧
      ∀ draft, reading.endLine = .header draft [] → c = 0 ∨ draft.contentlen < 0 := by
    cases reading with
    | command other =>
        cases isLine
        constructor
        · have := safe.1
          simp only [ByteSafe, begun, false_and, false_or] at this
          rcases this with h | h | h
          · exact Or.inl h
          · exact Or.inr h
          · exact absurd command h.2.1
        · intro draft ended
          simp only [Reading.endLine, endCommand] at ended
          split at ended
          · cases ended
            exact Or.inr (Int.negSucc_lt_zero 0)
          · cases ended
    | header draft other =>
        cases isLine
        rcases safe.1 with ⟨h, _⟩ | h | ⟨_, h, _, negative⟩ | ⟨_, _, h⟩
        · exact absurd h begun
        · exact ⟨Or.inl h, fun _ _ => Or.inl h⟩
        · refine ⟨Or.inr h, ?_⟩
          intro draft' ended
          cases ended
          exact Or.inr (negative command)
        · exact absurd command h.2.1
    | body draft got => cases isLine
  have split : ssplit (c :: rest) st.isBodyInput = (.success, 0) := by
    rw [place.isBodyInput]
    refine ssplit_empty rest ?_
    rcases byte.1 with rfl | rfl <;> rfl
  obtain ⟨st', passes, place', saved', bucket'⟩ := recvLine_absorb env
    (Reading.line?_endLine isLine) place saved byte.2 rest
  refine Or.inl ⟨[c], rest, st', rfl, by simp, ?_, ?_⟩
  · rw [recvPass_line split nonempty (Or.inl rfl), passes]
  · rw [feeds_cons, feeds_nil, feed_endLine isLine begun byte.1]
    exact .line [] (Reading.line?_endLine isLine) place' saved' (by simp) rfl (by rw [bucket', bucket])

end Newtmq
