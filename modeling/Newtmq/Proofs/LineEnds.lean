/-
Module: Newtmq.Proofs.LineEnds
Purpose: CR LF line ends against LF line ends. The CR of the blank line is taken for the whole of it, so
  its LF becomes the first byte of the body, and the frames are the same only where that makes no
  difference.
Trusted boundary: none
Main exports: PublishesFirst.unique, publishesFirst_after, pieces_published, visits_crlfHeader,
  same_at_crlf_iff
-/
import Newtmq.Spec.LineEnds
import Newtmq.Proofs.FrameSeparation

namespace Newtmq

variable (env : RecvEnv) {sock : Int}

/-! ### The first published frame -/

theorem passes_publishes {curr later : List UInt8} {st there : RecvState}
    (passes : Passes env sock (curr, st) (later, there)) : st.bucket <+: there.bucket :=
  (bucket_kept env st.bucket).visits passes List.prefix_rfl

theorem passes_total {start one other : List UInt8 × RecvState} (first : Passes env sock start one)
    (second : Passes env sock start other) : Passes env sock one other ∨ Passes env sock other one := by
  refine Relation.ReflTransGen.total_of_right_unique ?_ first second
  intro s next next' again again'
  rw [again] at again'
  exact Loop.Step.again.inj again'

theorem PublishesFirst.unique {chunk : List UInt8} {st : RecvState} {one other : Frame}
    (first : PublishesFirst env sock chunk st one) (second : PublishesFirst env sock chunk st other) :
    one = other := by
  obtain ⟨rest, there, passes, bucket⟩ := first
  obtain ⟨rest', there', passes', bucket'⟩ := second
  have grows : there.bucket <+: there'.bucket ∨ there'.bucket <+: there.bucket := by
    rcases passes_total env passes passes' with later | later
    · exact Or.inl (passes_publishes env later)
    · exact Or.inr (passes_publishes env later)
  have same : there.bucket = there'.bucket := by
    rcases grows with pre | pre
    · exact pre.eq_of_length (by rw [bucket, bucket', List.length_append, List.length_append]; rfl)
    · exact (pre.eq_of_length (by rw [bucket, bucket', List.length_append, List.length_append]; rfl)).symm
  rw [bucket, bucket', List.append_cancel_left_eq] at same
  exact List.singleton_inj.mp same

/-- It is the first one from any later place up to which nothing has been published. -/
theorem publishesFirst_after {curr later : List UInt8} {st there : RecvState}
    (passes : Passes env sock (curr, st) (later, there)) (bucket : there.bucket = st.bucket)
    (frame : Frame) :
    PublishesFirst env sock curr st frame ↔ PublishesFirst env sock later there frame := by
  constructor
  · rintro ⟨rest, final, reaches, published⟩
    rcases passes_total env passes reaches with goesOn | back
    · exact ⟨rest, final, goesOn, by rw [published, bucket]⟩
    · have pre := (passes_publishes env back).length_le
      rw [published, bucket, List.length_append, List.length_singleton] at pre
      omega
  · rintro ⟨rest, final, reaches, published⟩
    exact ⟨rest, final, passes.trans reaches, by rw [published, bucket]⟩

theorem publishesFirst_publish {curr later : List UInt8} {st : RecvState} {frame : Frame}
    (passes : Passes env sock (curr, st) (later, st.publish frame)) :
    PublishesFirst env sock curr st frame :=
  ⟨later, st.publish frame, passes, rfl⟩

/-! ### The pieces of a body -/

/-- The frame holds, after what it held at the start, the first `k` bytes of the text, and these end
with a whole number of pieces or with the text. -/
structure HoldsPieces (start : Frame) (text : List UInt8) (k : Nat) (frame : Frame) : Prop where
  inside : k ≤ text.length
  ends : LD_MAX ∣ k ∨ k = text.length
  data : (entryLines frame.hData).flatten = (entryLines start.hData).flatten ++ text.take k

theorem frameBodyPiece_data (line : List UInt8) (n : Nat) (frame : Frame) :
    (entryLines (frameBodyPiece line n frame).hData).flatten =
      (entryLines frame.hData).flatten ++ line.take n := by
  rw [frameBodyPiece]
  split
  · rw [stompSetdata_flatten]
  · next none =>
      have zero : n = 0 := by omega
      rw [zero, List.take_zero, List.append_nil]

/-- One pass takes the next piece. -/
theorem HoldsPieces.pass {start frame : Frame} {text rest : List UInt8} {k : Nat}
    (holds : HoldsPieces start text k frame) (clean : (0 : UInt8) ∉ text)
    (body : frame.status = .inputBody) (st : RecvState) :
    ∃ k' next curr', HoldsPieces start text k' next ∧ next.status = .inputBody ∧
      (recvPass env sock (text.drop k ++ 0 :: rest, st.hold frame) =
          .again (text.drop k' ++ 0 :: rest, st.hold next) ∨
        recvPass env sock (text.drop k ++ 0 :: rest, st.hold frame) =
          .again (curr', st.publish (finishFrame (frameFinish env st.rands) next))) := by
  have cleanLeft : (0 : UInt8) ∉ text.drop k := fun mem => clean (List.mem_of_mem_drop mem)
  obtain ⟨n, split, fits, ends⟩ := ssplit_piece cleanLeft rest
  have inside := holds.inside
  rw [List.length_drop] at fits ends
  have taken : (text.drop k ++ 0 :: rest).take n = (text.drop k).take n :=
    List.take_append_of_le_length (by rw [List.length_drop]; exact fits)
  have next : HoldsPieces start text (k + n)
      (frameBodyPiece (text.drop k ++ 0 :: rest) n frame) := by
    refine ⟨by omega, ?_, ?_⟩
    · rcases ends with full | all
      · rcases holds.ends with whole | last
        · rw [full]
          exact Or.inl (Nat.dvd_add whole (Nat.dvd_refl LD_MAX))
        · rw [full] at fits
          exact absurd fits (by rw [last, Nat.sub_self]; decide)
      · exact Or.inr (by omega)
    · rw [frameBodyPiece_data, holds.data, taken, List.append_assoc, ← List.take_add]
  have mode := isBodyInput_of_status (hold_frame st frame) body
  rw [← mode] at split
  have pass : recvPass env sock _ = _ := recvPass_line split (by simp) (Or.inl rfl)
  refine ⟨k + n, frameBodyPiece (text.drop k ++ 0 :: rest) n frame,
    (text.drop k ++ 0 :: rest).drop (n + 1), next, ?_, ?_⟩
  · rw [frameBodyPiece_status]
    exact body
  · by_cases complete : frame.contentlen ≤
        (frameBodyPiece (text.drop k ++ 0 :: rest) n frame).hasContentlen
    · right
      rw [pass, recvLine_body_complete (hold_frame st frame) body (joinedLine_none rfl _ _) complete]
      rfl
    · left
      rw [pass, recvLine_body_open (hold_frame st frame) body (joinedLine_none rfl _ _) (by omega),
        List.drop_append_of_le_length (by rw [List.length_drop]; exact fits), List.drop_drop]
      rfl

/-- Whenever a frame is published from a text, it holds the pieces read so far. -/
theorem pieces_published {start published : Frame} {text rest : List UInt8} (st : RecvState)
    (clean : (0 : UInt8) ∉ text) (body : start.status = .inputBody)
    (first : PublishesFirst env sock (text ++ 0 :: rest) (st.hold start) published) :
    ∃ k, HoldsPieces start text k published := by
  obtain ⟨later, there, passes, bucket⟩ := first
  have reached : (∃ k frame, HoldsPieces start text k frame ∧ frame.status = .inputBody ∧
        (later, there) = (text.drop k ++ 0 :: rest, st.hold frame)) ∨
      ∃ k done, HoldsPieces start text k done ∧ st.bucket ++ [done] <+: there.bucket := by
    apply passes.invariant (fun s : List UInt8 × RecvState =>
      (∃ k frame, HoldsPieces start text k frame ∧ frame.status = .inputBody ∧
        s = (text.drop k ++ 0 :: rest, st.hold frame)) ∨
      ∃ k done, HoldsPieces start text k done ∧ st.bucket ++ [done] <+: s.2.bucket)
    · rintro s next (⟨k, frame, holds, status, rfl⟩ | ⟨k, done, holds, pre⟩) again
      · obtain ⟨k', moved, curr', holds', status', pass | pass⟩ := holds.pass env clean status st
        · rw [pass] at again
          cases again
          exact Or.inl ⟨k', moved, holds', status', rfl⟩
        · rw [pass] at again
          cases again
          exact Or.inr ⟨k', finishFrame (frameFinish env st.rands) moved,
            ⟨holds'.inside, holds'.ends, holds'.data⟩, List.prefix_rfl⟩
      · exact Or.inr ⟨k, done, holds, ((bucket_kept env (st.bucket ++ [done])).pass pre).2 next again⟩
    · exact Or.inl ⟨0, start, ⟨Nat.zero_le _, Or.inl (Nat.dvd_zero _), by simp⟩, body, rfl⟩
  rcases reached with ⟨k, frame, -, -, same⟩ | ⟨k, done, holds, pre⟩
  · cases same
    simp at bucket
  · have same := pre.eq_of_length (by rw [bucket, List.length_append, List.length_append]; rfl)
    rw [bucket, hold_bucket, List.append_cancel_left_eq] at same
    obtain rfl := List.singleton_inj.mp same
    exact ⟨k, holds⟩

/-- A whole number of pieces, of as many bytes as announced, is published even when the text goes on. -/
theorem visits_wholePieces (st : RecvState) (rest : List UInt8) :
    ∀ (n : Nat) (text : List UInt8) (frame : Frame), LD_MAX ∣ n → 0 < n → n < text.length →
      (0 : UInt8) ∉ text → frame.status = .inputBody → 0 ≤ frame.hasContentlen →
      frame.contentlen = frame.hasContentlen + n → frame.contentlen < 2147483648 →
      ∃ later published,
        Passes env sock (text ++ 0 :: rest, st.hold frame) (later, st.publish published) ∧
        published.name = frame.name ∧
        (entryLines published.hData).flatten = (entryLines frame.hData).flatten ++ text.take n := by
  intro n
  induction n using Nat.strong_induction_on with
  | _ n ih =>
      intro text frame pieces positive long clean body received announced bound
      have least := Nat.le_of_dvd positive pieces
      obtain ⟨piece, c, more, rfl, full, nonempty, cleanPiece, cleanLeft, parts⟩ :=
        body_parts (Nat.lt_of_le_of_lt least long) clean rest
      have grows := frameBodyPiece_grows frame (c :: (more ++ 0 :: rest)) nonempty
      have stored : wrap32 (frame.hasContentlen + piece.length) = frame.hasContentlen + LD_MAX := by
        rw [full, wrap32_of_bounds] <;> omega
      have received' := grows.received.trans stored
      rw [parts]
      by_cases last : n = LD_MAX
      · have complete : frame.contentlen ≤
            (frameBodyPiece (piece ++ c :: (more ++ 0 :: rest)) piece.length frame).hasContentlen := by
          rw [received']
          omega
        have split : ssplit (piece ++ c :: (more ++ 0 :: rest)) (st.hold frame).isBodyInput =
            (.success, piece.length) := by
          rw [isBodyInput_of_status (hold_frame st frame) body, full]
          exact ssplit_full (lineText_body nonempty cleanPiece) full c _
        have publishes : Passes env sock _ _ := Passes.pass split (by simp)
          (recvLine_body_complete (hold_frame st frame) body (joinedLine_none rfl _ _) complete)
        refine ⟨_, _, publishes, grows.name, ?_⟩
        rw [last, ← full, List.take_left]
        exact grows.data
      · have step := visits_body_piece env sock st c (more ++ 0 :: rest) body cleanPiece full
          (by rw [stored]; omega)
        rw [List.length_append, full] at long
        obtain ⟨later, published, passes, name, data⟩ := ih (n - LD_MAX)
          (Nat.sub_lt positive (by decide)) (c :: more) _ (Nat.dvd_sub pieces (Nat.dvd_refl LD_MAX))
          (by omega) (by omega) cleanLeft (grows.status.trans body)
          (by rw [received']; exact Int.add_nonneg received (by decide))
          (by rw [received', grows.contentlen]; omega) (by rw [grows.contentlen]; exact bound)
        refine ⟨later, published, step.trans passes, name.trans grows.name, ?_⟩
        have split : n = piece.length + (n - LD_MAX) := by omega
        rw [data, grows.data, split, List.take_length_add_append, ← full, Nat.add_sub_cancel_left,
          List.append_assoc]

/-! ### The header -/

/-- The header has been read so far; the length of the body is `n`, when it is `known`. -/
structure CrlfHeader (sent : WireFrame) (known : Bool) (frame : Frame) : Prop where
  status : frame.status = .inputHeader
  name : frame.name = sent.command
  data : frame.hData = []
  received : frame.hasContentlen = 0
  contentlen : frame.contentlen = if known then (sent.body.length : Int) else -1

/-- One more header line has been stored. -/
theorem CrlfHeader.store {sent : WireFrame} {known : Bool} {frame : Frame}
    (read : CrlfHeader sent known frame) {line memory : List UInt8} {len : Nat} (positive : 0 < len)
    (announces : isContentlen memory len = isLengthHeader line)
    (value : isLengthHeader line = true → getContentlen memory = sent.body.length) :
    CrlfHeader sent (known || isLengthHeader line) (frameHeaderLine memory len frame) := by
  rw [frameHeaderLine, if_pos positive]
  refine ⟨read.status, read.name, read.data, read.received, ?_⟩
  simp only [announces]
  cases length : isLengthHeader line with
  | true => simp [value length]
  | false => simpa using read.contentlen

/-- A header line with its CR, when a piece has room for both. -/
theorem visits_crlfLine {sent : WireFrame} {known : Bool} {frame : Frame} (st : RecvState)
    (read : CrlfHeader sent known frame) {line : List UInt8} (header : HeaderLine line)
    (value : isLengthHeader line = true → Decimal (line.drop 15) sent.body.length)
    (short : line.length < LD_MAX) (rest : List UInt8) :
    ∃ next, Passes env sock ((line ++ [CR]) ++ LF :: rest, st.hold frame) (rest, st.hold next) ∧
      CrlfHeader sent (known || isLengthHeader line) next := by
  have text : LineText false (line ++ [CR]) := HeaderText.text ⟨header.nonempty, header.clean⟩ true
  have sameLine : isLengthHeader (line ++ [CR]) = isLengthHeader line := isLengthHeader_cr true
  refine ⟨_, visits_header env sock st rest read.status text
    (by rw [List.length_append]; exact short), ?_⟩
  apply read.store (List.length_pos_iff.mpr text.nonempty)
  · cases announces : isLengthHeader line with
    | true =>
        exact (announcesLength_of_decimal (Or.inr rfl) announces (value announces)
          sent.body_bound rest).1
    | false => exact not_contentlen rest (sameLine.trans announces)
  · intro announces
    exact (announcesLength_of_decimal (Or.inr rfl) announces (value announces) sent.body_bound rest).2

/-- A header line of `LD_MAX` bytes: its CR is skipped, and its LF is left. -/
theorem visits_crlfFullLine {sent : WireFrame} {known : Bool} {frame : Frame} (st : RecvState)
    (read : CrlfHeader sent known frame) {line : List UInt8} (header : HeaderLine line)
    (value : isLengthHeader line = true → Decimal (line.drop 15) sent.body.length)
    (full : line.length = LD_MAX) (rest : List UInt8) :
    ∃ next, Passes env sock ((line ++ [CR]) ++ LF :: rest, st.hold frame) (LF :: rest, st.hold next) ∧
      CrlfHeader sent (known || isLengthHeader line) next := by
  have parts : (line ++ [CR]) ++ LF :: rest = line ++ CR :: (LF :: rest) := by simp
  have split : ssplit (line ++ CR :: (LF :: rest)) (st.hold frame).isBodyInput =
      (.success, line.length) := by
    rw [isBodyInput_of_header (hold_frame st frame) (by rw [read.status]; decide), full]
    exact ssplit_full header.text full CR (LF :: rest)
  have handed : recvLine env sock (line ++ CR :: (LF :: rest)) line.length (st.hold frame) = _ :=
    recvLine_header (hold_frame st frame) read.status (joinedLine_none rfl _ _)
      (Or.inl (header.not_newline _))
  have skipped : (line ++ CR :: (LF :: rest)).drop (line.length + 1) = LF :: rest := by
    rw [← List.drop_drop, List.drop_left, List.drop_one, List.tail_cons]
  rw [skipped] at handed
  rw [parts]
  refine ⟨_, Passes.pass split (by simp) handed, ?_⟩
  apply read.store (List.length_pos_iff.mpr header.nonempty)
  · cases announces : isLengthHeader line with
    | true =>
        obtain ⟨digits, rfl⟩ := List.isPrefixOf_iff_prefix.mp announces
        have number := value announces
        rw [List.drop_left' (by decide)] at number
        have positive := List.length_pos_iff.mpr number.nonempty
        rw [isContentlen, Bool.and_eq_true_iff, decide_eq_true_iff, List.isPrefixOf_iff_prefix,
          List.append_assoc, List.length_append]
        exact ⟨Nat.lt_add_of_pos_right positive, List.prefix_append _ _⟩
    | false => exact not_contentlen_append _ announces
  · intro announces
    obtain ⟨digits, rfl⟩ := List.isPrefixOf_iff_prefix.mp announces
    have number := value announces
    rw [List.drop_left' (by decide)] at number
    rw [getContentlen, List.append_assoc, List.drop_left' (by decide)]
    exact atoi_decimal number.nonempty number.digit number.value sent.body_bound (by decide) _

/-- The body, after the bytes `text` that are left of the header, is to be read, or there is none and
the frame is published. -/
def CrlfBody (env : RecvEnv) (sock : Int) (sent : WireFrame) (curr text : List UInt8) (st : RecvState) :
    Prop :=
  (sent.body = [] ∧ ∃ later published, Passes env sock (curr, st) (later, st.publish published) ∧
    published.name = sent.command ∧ published.hData = []) ∨
  (sent.body ≠ [] ∧ ∃ frame, Passes env sock (curr, st) (text ++ (sent.body ++ [0]), st.hold frame) ∧
    frame.status = .inputBody ∧ frame.name = sent.command ∧ frame.hData = [] ∧
    frame.hasContentlen = 0 ∧ frame.contentlen = sent.body.length)

theorem CrlfBody.after {sent : WireFrame} {curr later text : List UInt8} {st : RecvState} {frame : Frame}
    (passes : Passes env sock (curr, st) (later, st.hold frame))
    (reads : CrlfBody env sock sent later text (st.hold frame)) : CrlfBody env sock sent curr text st := by
  rcases reads with ⟨empty, rest, published, publishes, same⟩ | ⟨some, next, reaches, same⟩
  · exact Or.inl ⟨empty, rest, published, passes.trans publishes, same⟩
  · exact Or.inr ⟨some, next, passes.trans reaches, same⟩

/-- A byte that is taken for the blank line when the length is known. -/
theorem crlfBody_blank {sent : WireFrame} {frame : Frame} (st : RecvState)
    (read : CrlfHeader sent true frame) {c : UInt8} (blank : c = LF ∨ c = CR) (text : List UInt8) :
    CrlfBody env sock sent (c :: (text ++ (sent.body ++ [0]))) text (st.hold frame) := by
  have announced := read.contentlen
  rw [if_pos rfl] at announced
  by_cases empty : sent.body = []
  · rw [empty] at announced
    exact Or.inl ⟨empty, _, _, visits_blank_publish env sock st blank _ read.status announced,
      read.name, read.data⟩
  · have positive := List.length_pos_iff.mpr empty
    exact Or.inr ⟨empty, _, visits_blank env sock st blank _ read.status (by omega), rfl, read.name,
      read.data, read.received, announced⟩

/-- An LF is passed over as long as no length is known. -/
theorem visits_lf_passed {sent : WireFrame} {frame : Frame} (st : RecvState)
    (read : CrlfHeader sent false frame) (rest : List UInt8) :
    Passes env sock (LF :: rest, st.hold frame) (rest, st.hold frame) := by
  have unknown := read.contentlen
  rw [if_neg Bool.false_ne_true] at unknown
  have split : ssplit (LF :: rest) (st.hold frame).isBodyInput = (.success, 0) := by
    rw [isBodyInput_of_header (hold_frame st frame) (by rw [read.status]; decide)]
    exact ssplit_empty rest (by decide)
  refine Passes.pass split (List.cons_ne_nil _ _) ?_
  rw [recvLine_header (hold_frame st frame) read.status (joinedLine_none rfl _ _)
    (Or.inr (by omega))]
  rfl

/-- The header, from one of its lines on. -/
theorem visits_crlfHeader (sent : WireFrame) (st : RecvState) :
    ∀ (lines : List (List UInt8)) (known : Bool) (frame : Frame),
      (∀ line ∈ lines, HeaderLine line ∧
        (isLengthHeader line = true → Decimal (line.drop 15) sent.body.length)) →
      CrlfHeader sent known frame → (known = true ∨ 0 < lines.countP isLengthHeader) →
      CrlfBody env sock sent (encodeLinesCrlf lines ++ CR :: LF :: (sent.body ++ [0]))
        (leftOfHeader known lines) (st.hold frame) := by
  intro lines
  induction lines with
  | nil =>
      intro known frame _ read someLength
      obtain rfl : known = true := someLength.resolve_right (by simp)
      exact crlfBody_blank env st read (Or.inr rfl) [LF]
  | cons line lines ih =>
      intro known frame valid read someLength
      obtain ⟨header, value⟩ := valid line List.mem_cons_self
      have validLater := fun other mem => valid other (List.mem_cons_of_mem line mem)
      have later : (known || isLengthHeader line) = true ∨ 0 < lines.countP isLengthHeader := by
        rw [List.countP_cons] at someLength
        cases known <;> cases announces : isLengthHeader line <;> simp_all
      have parts : encodeLinesCrlf (line :: lines) ++ CR :: LF :: (sent.body ++ [0]) =
          (line ++ [CR]) ++ LF :: (encodeLinesCrlf lines ++ CR :: LF :: (sent.body ++ [0])) := by
        simp [encodeLinesCrlf]
      rw [parts, leftOfHeader]
      by_cases full : line.length = LD_MAX
      · obtain ⟨next, passes, read'⟩ := visits_crlfFullLine env st read header value full
          (encodeLinesCrlf lines ++ CR :: LF :: (sent.body ++ [0]))
        cases known' : known || isLengthHeader line with
        | true =>
            rw [known'] at read'
            rw [if_pos ⟨rfl, full⟩]
            refine CrlfBody.after env passes ?_
            have body : encodeLinesCrlf lines ++ CR :: LF :: (sent.body ++ [0]) =
                (encodeLinesCrlf lines ++ [CR, LF]) ++ (sent.body ++ [0]) := by simp
            rw [body]
            exact crlfBody_blank env st read' (Or.inl rfl) _
        | false =>
            rw [known'] at read'
            rw [if_neg (by simp)]
            exact CrlfBody.after env (passes.trans (visits_lf_passed env st read' _))
              (ih false next validLater read' (known' ▸ later))
      · obtain ⟨next, passes, read'⟩ := visits_crlfLine env st read header value
          (Nat.lt_of_le_of_ne header.short full)
          (encodeLinesCrlf lines ++ CR :: LF :: (sent.body ++ [0]))
        rw [if_neg (fun both => full both.2)]
        exact CrlfBody.after env passes (ih _ next validLater read' later)

/-! ### The two encodings -/

theorem leftOfHeader_ne_nil (known : Bool) (lines : List (List UInt8)) : leftOfHeader known lines ≠ [] := by
  induction lines generalizing known with
  | nil => exact List.cons_ne_nil _ _
  | cons line lines ih =>
      rw [leftOfHeader]
      split
      · simp
      · exact ih _

theorem leftOfHeader_clean {lines : List (List UInt8)} (headers : ∀ line ∈ lines, HeaderLine line)
    (known : Bool) : (0 : UInt8) ∉ leftOfHeader known lines := by
  induction lines generalizing known with
  | nil =>
      rw [leftOfHeader]
      decide
  | cons line lines ih =>
      have later := fun other mem => headers other (List.mem_cons_of_mem line mem)
      rw [leftOfHeader]
      split
      · intro mem
        simp only [encodeLinesCrlf, WireFrame.encodeLines, List.flatMap_map, List.mem_append,
          List.mem_flatMap, List.mem_cons, List.not_mem_nil, or_false] at mem
        rcases mem with ⟨other, here, ((inLine | cr) | lf)⟩ | cr | lf
        · exact ((later other here).clean 0 inLine).1 rfl
        · exact absurd cr (by decide)
        · exact absurd lf (by decide)
        · exact absurd cr (by decide)
        · exact absurd lf (by decide)
      · exact ih later _

/-- The command line and the header, with CR LF. -/
theorem visits_crlf (sent : WireFrame) {st : RecvState} (idle : st.cinfo.frame = none)
    (saved : st.cinfo.prevData = none) :
    CrlfBody env sock sent sent.encodeCrlf (leftOfHeader false sent.headers) st := by
  obtain ⟨size, command⟩ := visits_commandLine env idle saved sent.command_known true
    (encodeLinesCrlf sent.headers ++ CR :: LF :: (sent.body ++ [0]))
  refine CrlfBody.after env command (visits_crlfHeader env sent st sent.headers false _ ?_ ?_ ?_)
  · exact fun line mem => ⟨sent.header_line line mem, sent.length_value line mem⟩
  · constructor <;> simp [commandFrame, prepareFrame, idle, allocFrame]
  · rw [sent.one_length]
    exact Or.inr Nat.one_pos

/-- The frame that is published for the lines with LF is the frame that was sent. -/
theorem sameAtCrlf_iff_published (sent : WireFrame) {st : RecvState} (idle : st.cinfo.frame = none)
    (saved : st.cinfo.prevData = none) :
    SameAtCrlf env sock sent st ↔ ∃ crlf, PublishesFirst env sock sent.encodeCrlf st crlf ∧
      crlf.name = sent.command ∧ (entryLines crlf.hData).flatten = sent.body := by
  obtain ⟨plain, reaches, carries⟩ := visits_frame env sock sent [] idle saved
  rw [List.append_nil] at reaches
  have first := publishesFirst_publish env reaches
  constructor
  · rintro ⟨other, crlf, one, two, name, body⟩
    obtain rfl := first.unique env one
    exact ⟨crlf, two, name.symm.trans carries.name, body.symm.trans carries.body⟩
  · rintro ⟨crlf, two, name, body⟩
    exact ⟨plain, crlf, first, two, carries.name.trans name.symm, carries.body.trans body.symm⟩

theorem harmless_of_same {sent : WireFrame} {st : RecvState} (idle : st.cinfo.frame = none)
    (saved : st.cinfo.prevData = none) (same : SameAtCrlf env sock sent st) : CrlfHarmless sent := by
  obtain ⟨crlf, two, -, body⟩ := (sameAtCrlf_iff_published env sent idle saved).mp same
  rcases visits_crlf env sent idle saved with ⟨empty, -⟩ | ⟨some, frame, passes, status, -, data, -, -⟩
  · exact Or.inl empty
  · have clean : (0 : UInt8) ∉ leftOfHeader false sent.headers ++ sent.body := by
      rw [List.mem_append, not_or]
      exact ⟨leftOfHeader_clean sent.header_line false, sent.body_clean⟩
    have left := List.length_pos_iff.mpr (leftOfHeader_ne_nil false sent.headers)
    rw [publishesFirst_after env passes rfl, ← List.append_assoc] at two
    obtain ⟨k, holds⟩ := pieces_published env st clean status two
    have read := holds.data
    rw [data, body] at read
    have sized := congrArg List.length read.symm
    rw [entryLines, List.map_nil, List.flatten_nil, List.nil_append,
      List.length_take_of_le holds.inside] at sized
    subst sized
    refine Or.inr ⟨holds.ends.resolve_right ?_, read.symm⟩
    rw [List.length_append]
    omega

theorem same_of_harmless {sent : WireFrame} {st : RecvState} (idle : st.cinfo.frame = none)
    (saved : st.cinfo.prevData = none) (harmless : CrlfHarmless sent) : SameAtCrlf env sock sent st := by
  rw [sameAtCrlf_iff_published env sent idle saved]
  rcases visits_crlf env sent idle saved with
    ⟨empty, later, published, passes, name, data⟩ | ⟨some, frame, passes, status, name, data, received, length⟩
  · refine ⟨published, publishesFirst_publish env passes, name, ?_⟩
    rw [data, empty]
    rfl
  · rcases harmless with empty | ⟨pieces, read⟩
    · exact absurd empty some
    · have clean : (0 : UInt8) ∉ leftOfHeader false sent.headers ++ sent.body := by
        rw [List.mem_append, not_or]
        exact ⟨leftOfHeader_clean sent.header_line false, sent.body_clean⟩
      have left := List.length_pos_iff.mpr (leftOfHeader_ne_nil false sent.headers)
      have bound := sent.body_bound
      rw [← List.append_assoc] at passes
      obtain ⟨later, crlf, publishes, name', data'⟩ := visits_wholePieces env st [] sent.body.length
        (leftOfHeader false sent.headers ++ sent.body) frame pieces (List.length_pos_iff.mpr some)
        (by rw [List.length_append]; omega) clean status (Int.le_of_eq received.symm)
        (by rw [length, received, Int.zero_add]) (by rw [length]; omega)
      refine ⟨crlf, publishesFirst_publish env (passes.trans publishes), name'.trans name, ?_⟩
      rw [data', data, read]
      rfl

/-- CR LF line ends are equivalent to LF line ends exactly for the frames for which they are harmless. -/
theorem same_at_crlf_iff (sent : WireFrame) {st : RecvState} (idle : st.cinfo.frame = none)
    (saved : st.cinfo.prevData = none) : SameAtCrlf env sock sent st ↔ CrlfHarmless sent :=
  ⟨harmless_of_same env idle saved, same_of_harmless env idle saved⟩

/-- A frame without a body. -/
theorem same_at_crlf_disconnect :
    SameAtCrlf ⟨fun _ => 0, fun _ _ => true⟩ 3 disconnectFrame freshConnection :=
  (same_at_crlf_iff _ disconnectFrame rfl rfl).mpr (Or.inl rfl)

/-- The body `hi` becomes an LF and `hi`. -/
theorem crlf_changes_body :
    ¬ SameAtCrlf ⟨fun _ => 0, fun _ _ => true⟩ 3 sendHi freshConnection := by
  intro same
  rcases harmless_of_same _ rfl rfl same with empty | ⟨pieces, -⟩
  · exact absurd empty (by decide)
  · exact absurd pieces (by decide)

end Newtmq
