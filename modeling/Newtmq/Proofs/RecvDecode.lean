/-
Module: Newtmq.Proofs.RecvDecode
Purpose: `recv_data` decodes what was encoded: a chunk made of encoded frames is published frame by
  frame, and the connection is left without a current frame. The induction is on the frames, and
  inside one frame on the header lines and on the body, which is stored in pieces of `LD_MAX` bytes.
Trusted boundary: none
Main exports: visits_headers, visits_body, visits_frame, recvData_decodes
-/
import Newtmq.Proofs.RecvTermination
import Newtmq.Proofs.Entries

namespace Newtmq

variable (env : RecvEnv) (sock : Int)

/-- The loop of `recv_data` gets from the first position and state to the second ones. -/
abbrev Passes (env : RecvEnv) (sock : Int) :
    List UInt8 × RecvState → List UInt8 × RecvState → Prop :=
  Loop.Visits (recvPass env sock)

theorem Passes.pass {env : RecvEnv} {sock : Int} {curr : List UInt8} {st : RecvState} {n : Nat}
    {next : List UInt8 × RecvState} (split : ssplit curr st.isBodyInput = (.success, n))
    (nonempty : curr ≠ []) (line : recvLine env sock curr n st = next) : Passes env sock (curr, st) next :=
  Relation.ReflTransGen.single (by rw [recvPass_line split nonempty (Or.inl rfl), line])

theorem joinedLine_none {cinfo : StompConninfo} (saved : cinfo.prevData = none)
    (curr : List UInt8) (n : Nat) : joinedLine cinfo curr n = (curr, n) := by
  simp [joinedLine, saved]

/-! ### Header lines -/

theorem HeaderLine.text {line : List UInt8} (header : HeaderLine line) : LineText false line where
  nonempty := header.nonempty
  start c hc := by
    have := header.clean c (List.mem_of_mem_head? hc)
    simp [emptyStart, this]
  inside := by
    rw [List.all_eq_true]
    intro c hc
    have := header.clean c hc
    simp [nonStop, this]

theorem LineText.not_newline {line : List UInt8} (text : LineText false line) (rest : List UInt8) :
    isNl (line ++ rest) = false := by
  obtain ⟨c, more, rfl⟩ := List.exists_cons_of_ne_nil text.nonempty
  have start := text.start c rfl
  simp only [emptyStart, Bool.or_eq_false_iff, Bool.and_eq_false_iff, decide_eq_false_iff_not] at start
  simpa [isNl] using start.2

theorem HeaderLine.not_newline {line : List UInt8} (header : HeaderLine line) (rest : List UInt8) :
    isNl (line ++ rest) = false :=
  header.text.not_newline rest

/-- Whatever follows the line and its LF, `frame_update` finds in it that `n` bytes are announced. -/
def AnnouncesLength (n : Nat) (line : List UInt8) : Prop :=
  ∀ rest, isContentlen (line ++ LF :: rest) line.length = true ∧
    getContentlen (line ++ LF :: rest) = n

/-- The length that a header line announces, if it announces one. A CR at its end does not matter. -/
theorem announcesLength_of_decimal {text cr : List UInt8} {n : Nat} (ends : cr = [] ∨ cr = [CR])
    (announces : isLengthHeader text = true) (value : Decimal (text.drop 15) n)
    (bound : n < 2147483648) : AnnouncesLength n (text ++ cr) := by
  intro rest
  obtain ⟨digits, rfl⟩ := List.isPrefixOf_iff_prefix.mp announces
  have fifteen : (cstring "content-length:").length = 15 := by decide
  rw [List.drop_left' fifteen] at value
  have positive := List.length_pos_iff.mpr value.nonempty
  constructor
  · simp only [isContentlen, Bool.and_eq_true, decide_eq_true_eq, List.isPrefixOf_iff_prefix,
      List.length_append, fifteen, List.append_assoc]
    exact ⟨by omega, List.prefix_append _ _⟩
  · rw [getContentlen, List.append_assoc, List.append_assoc, List.drop_left' fifteen]
    rcases ends with rfl | rfl
    · exact atoi_decimal value.nonempty value.digit value.value bound (by decide) rest
    · exact atoi_decimal value.nonempty value.digit value.value bound (by decide) (LF :: rest)

theorem length_of_decimal {line : List UInt8} (rest : List UInt8) {n : Nat}
    (announces : isLengthHeader line = true)
    (value : Decimal (line.drop 15) n) (bound : n < 2147483648) :
    isContentlen (line ++ LF :: rest) line.length = true ∧
      getContentlen (line ++ LF :: rest) = n := by
  have all := announcesLength_of_decimal (Or.inl rfl) announces value bound rest
  rwa [List.append_nil] at all

theorem not_contentlen_append {line : List UInt8} (tail : List UInt8)
    (silent : isLengthHeader line = false) : isContentlen (line ++ tail) line.length = false := by
  rw [Bool.eq_false_iff]
  intro h
  simp only [isContentlen, Bool.and_eq_true, decide_eq_true_eq, List.isPrefixOf_iff_prefix] at h
  have shorter : (cstring "content-length:").length ≤ line.length := by
    have : (cstring "content-length:").length = 15 := by decide
    omega
  have := List.isPrefixOf_iff_prefix.mpr
    (List.prefix_of_prefix_length_le h.2 (List.prefix_append line _) shorter)
  rw [isLengthHeader, this] at silent
  cases silent

theorem not_contentlen {line : List UInt8} (rest : List UInt8) (silent : isLengthHeader line = false) :
    isContentlen (line ++ LF :: rest) line.length = false :=
  not_contentlen_append (LF :: rest) silent

/-- One header line: its entry is appended, and a length header sets the length. -/
theorem visits_header (st : RecvState) {frame : Frame} {line : List UInt8} (rest : List UInt8)
    (status : frame.status = .inputHeader) (text : LineText false line) (short : line.length ≤ LD_MAX) :
    Passes env sock (line ++ LF :: rest, st.hold frame)
      (rest, st.hold (frameHeaderLine (line ++ LF :: rest) line.length frame)) := by
  have mode : (st.hold frame).isBodyInput = false :=
    isBodyInput_of_header (hold_frame st frame) (by simp [status])
  refine Passes.pass (n := line.length) ?_ (by simp) ?_
  · rw [mode]
    exact ssplit_line text short (by decide) rest
  · rw [recvLine_header (hold_frame st frame) status (joinedLine_none rfl _ _)
      (Or.inl (text.not_newline _))]
    simp

/-- What a frame in its header is known to hold. -/
structure HeaderSoFar (start frame : Frame) (lines : List (List UInt8)) : Prop where
  status : frame.status = .inputHeader
  name : frame.name = start.name
  attrs : frame.hAttrs = start.hAttrs ++ lines.map fun line => ⟨line, line.length⟩
  data : frame.hData = start.hData
  received : frame.hasContentlen = start.hasContentlen

theorem frameHeaderLine_soFar {frame : Frame} {line : List UInt8} (rest : List UInt8)
    (status : frame.status = .inputHeader) (nonempty : line ≠ []) (short : line.length ≤ LD_MAX) :
    HeaderSoFar frame (frameHeaderLine (line ++ LF :: rest) line.length frame) [line] := by
  have positive := List.length_pos_iff.mpr nonempty
  have entries : (frameHeaderLine (line ++ LF :: rest) line.length frame).hAttrs =
      frame.hAttrs ++ [⟨line, line.length⟩] := by
    simp only [frameHeaderLine, positive, if_true, List.take_left]
    exact stompSetdata_short short _
  constructor <;> simp [frameHeaderLine, positive, status]
  simpa [frameHeaderLine, positive] using entries

theorem HeaderSoFar.trans {start middle frame : Frame} {first second : List (List UInt8)}
    (one : HeaderSoFar start middle first) (two : HeaderSoFar middle frame second) :
    HeaderSoFar start frame (first ++ second) where
  status := two.status
  name := two.name.trans one.name
  attrs := by rw [two.attrs, one.attrs]; simp
  data := two.data.trans one.data
  received := two.received.trans one.received

/-- All the header lines of a frame. The length that holds afterwards is the announced one as soon
as one of the lines announces it. -/
theorem visits_headers {n : Nat} (rest : List UInt8) :
    ∀ (lines : List (List UInt8)) (st : RecvState) (frame : Frame),
      (∀ h ∈ lines, LineText false h ∧ h.length ≤ LD_MAX) →
      (∀ h ∈ lines, isLengthHeader h = true → AnnouncesLength n h) →
      frame.status = .inputHeader →
      ∃ frame', Passes env sock (WireFrame.encodeLines lines ++ rest, st.hold frame)
          (rest, st.hold frame') ∧
        HeaderSoFar frame frame' lines ∧
        (0 < lines.countP isLengthHeader ∨ frame.contentlen = n → frame'.contentlen = n)
  | [], st, frame, _, _, status => by
      refine ⟨frame, Relation.ReflTransGen.refl, ⟨status, rfl, by simp, rfl, rfl⟩, ?_⟩
      rintro (h | h)
      · simp at h
      · exact h
  | line :: lines, st, frame, header, value, status => by
      obtain ⟨text, short⟩ := header line (by simp)
      have positive := List.length_pos_iff.mpr text.nonempty
      let next := frameHeaderLine (line ++ LF :: (WireFrame.encodeLines lines ++ rest))
        line.length frame
      have first := frameHeaderLine_soFar (WireFrame.encodeLines lines ++ rest) status text.nonempty
        short
      obtain ⟨frame', reaches, soFar, announced⟩ :=
        visits_headers rest lines st next (fun h mem => header h (by simp [mem]))
          (fun h mem => value h (by simp [mem])) first.status
      refine ⟨frame', ?_, first.trans soFar, ?_⟩
      · have step := visits_header env sock st
          (WireFrame.encodeLines lines ++ rest) status text short
        rw [WireFrame.encodeLines_cons, List.append_assoc, List.cons_append]
        exact step.trans reaches
      · intro h
        apply announced
        cases announces : isLengthHeader line with
        | true =>
            obtain ⟨isLength, length⟩ := value line (by simp) announces
              (WireFrame.encodeLines lines ++ rest)
            exact Or.inr (by simp [next, frameHeaderLine, positive, isLength, length])
        | false =>
            have silent := not_contentlen (WireFrame.encodeLines lines ++ rest)
              announces
            rcases h with h | h
            · exact Or.inl (by simpa [List.countP_cons, announces] using h)
            · exact Or.inr (by simp [next, frameHeaderLine, positive, silent, h])

/-! ### Empty lines -/

/-- The byte that begins a blank line. -/
theorem blank_start {c : UInt8} (blank : c = LF ∨ c = CR) :
    emptyStart false c = true ∧ ∀ rest, isNl (c :: rest) = true := by
  rcases blank with rfl | rfl
  · exact ⟨by decide, fun _ => rfl⟩
  · exact ⟨by decide, fun _ => rfl⟩

/-- A byte that ends an empty line, when the connection is at rest. -/
theorem visits_nothing (st : RecvState) (idle : st.cinfo.frame = none) (saved : st.cinfo.prevData = none)
    {c : UInt8} (empty : emptyStart false c = true) (rest : List UInt8) :
    Passes env sock (c :: rest, st) (rest, st) := by
  refine Passes.pass (n := 0) ?_ (by simp) (recvLine_nothing idle saved _)
  rw [isBodyInput_of_none idle]
  exact ssplit_empty _ empty

/-! ### The body -/

theorem lineText_body {piece : List UInt8} (nonempty : piece ≠ []) (clean : (0 : UInt8) ∉ piece) :
    LineText true piece where
  nonempty := nonempty
  start c hc := by
    have : c ≠ 0 := fun h => clean (h ▸ List.mem_of_mem_head? hc)
    simp [emptyStart, this]
  inside := by
    rw [List.all_eq_true]
    intro c hc
    have : c ≠ 0 := fun h => clean (h ▸ hc)
    simp [nonStop, this]

/-- The last piece of a body, up to the NUL, publishes the frame. -/
theorem visits_body_last (st : RecvState) {frame : Frame} {piece : List UInt8} (rest : List UInt8)
    (status : frame.status = .inputBody) (nonempty : piece ≠ []) (clean : (0 : UInt8) ∉ piece)
    (short : piece.length ≤ LD_MAX)
    (reached : frame.contentlen ≤ wrap32 (frame.hasContentlen + piece.length)) :
    Passes env sock (piece ++ 0 :: rest, st.hold frame)
      (rest, st.publish (finishFrame (frameFinish env st.rands)
        (frameBodyPiece (piece ++ 0 :: rest) piece.length frame))) := by
  refine Passes.pass (n := piece.length) ?_ (by simp) ?_
  · rw [isBodyInput_of_status (hold_frame st frame) status]
    exact ssplit_line (lineText_body nonempty clean) short (by decide) rest
  · have grows := frameBodyPiece_grows frame (0 :: rest) nonempty
    rw [recvLine_body_complete (hold_frame st frame) status (joinedLine_none rfl _ _)
      (by rwa [grows.received])]
    simp [RecvState.hold, RecvState.publish]

/-- A piece of `LD_MAX` bytes that does not reach the announced length is stored. -/
theorem visits_body_piece (st : RecvState) {frame : Frame} {piece : List UInt8} (c : UInt8)
    (rest : List UInt8) (status : frame.status = .inputBody) (clean : (0 : UInt8) ∉ piece)
    (full : piece.length = LD_MAX)
    (short : wrap32 (frame.hasContentlen + piece.length) < frame.contentlen) :
    Passes env sock (piece ++ c :: rest, st.hold frame)
      (c :: rest, st.hold (frameBodyPiece (piece ++ c :: rest) piece.length frame)) := by
  have nonempty : piece ≠ [] := by
    rintro rfl
    simp [LD_MAX] at full
  refine Passes.pass (n := piece.length) ?_ (by simp) ?_
  · rw [isBodyInput_of_status (hold_frame st frame) status, full]
    exact ssplit_full (lineText_body nonempty clean) full c rest
  · have grows := frameBodyPiece_grows frame (c :: rest) nonempty
    rw [recvLine_body_open (hold_frame st frame) status (joinedLine_none rfl _ _)
      (by rwa [grows.received])]
    simp

/-- Reading on after a piece of a body that is not the last one. -/
theorem body_parts {body : List UInt8} (long : LD_MAX < body.length) (clean : (0 : UInt8) ∉ body)
    (rest : List UInt8) :
    ∃ piece c more, body = piece ++ c :: more ∧ piece.length = LD_MAX ∧ piece ≠ [] ∧
      (0 : UInt8) ∉ piece ∧ (0 : UInt8) ∉ c :: more ∧
      body ++ 0 :: rest = piece ++ c :: (more ++ 0 :: rest) := by
  have full : (body.take LD_MAX).length = LD_MAX := by
    rw [List.length_take]
    omega
  have left : body.drop LD_MAX ≠ [] := by
    rw [ne_eq, List.drop_eq_nil_iff]
    omega
  obtain ⟨c, more, cons⟩ := List.exists_cons_of_ne_nil left
  have parts : body = body.take LD_MAX ++ c :: more := by rw [← cons, List.take_append_drop]
  refine ⟨body.take LD_MAX, c, more, parts, full, ?_, fun h => clean (List.mem_of_mem_take h), ?_, ?_⟩
  · intro h
    rw [h] at full
    simp [LD_MAX] at full
  · rw [← cons]
    exact fun h => clean (List.mem_of_mem_drop h)
  · conv_lhs => rw [parts]
    rw [List.append_assoc, List.cons_append]

/-- The pieces that `recv_data` finds of a text up to its NUL. -/
theorem ssplit_piece {left : List UInt8} (clean : (0 : UInt8) ∉ left) (rest : List UInt8) :
    ∃ n, ssplit (left ++ 0 :: rest) true = (.success, n) ∧ n ≤ left.length ∧
      (n = LD_MAX ∨ n = left.length) := by
  by_cases empty : left = []
  · subst empty
    exact ⟨0, ssplit_empty rest (by decide), Nat.le_refl 0, Or.inr rfl⟩
  · by_cases short : left.length ≤ LD_MAX
    · exact ⟨left.length, ssplit_line (lineText_body empty clean) short (by decide) rest, Nat.le_refl _,
        Or.inr rfl⟩
    · obtain ⟨piece, c, more, rfl, full, nonempty, cleanPiece, -, parts⟩ :=
        body_parts (Nat.lt_of_not_le short) clean rest
      refine ⟨LD_MAX, ?_, Nat.le_of_not_le short, Or.inl rfl⟩
      rw [parts]
      exact ssplit_full (lineText_body nonempty cleanPiece) full c _

/-- A body without NUL of the announced length is stored piece by piece; with its last piece the
frame is published, and the NUL is skipped. The induction is on the length of the body, since each
pass takes `LD_MAX` bytes of it or all that is left. One byte more than announced does not keep the
frame from being published at the NUL: it is stored with the last piece or skipped. -/
theorem visits_body (rest : List UInt8) :
    ∀ (length : Nat) (body : List UInt8) (st : RecvState) (frame : Frame),
      body.length = length → body ≠ [] → (0 : UInt8) ∉ body → frame.status = .inputBody →
      frame.contentlen ≤ frame.hasContentlen + body.length →
      frame.hasContentlen + body.length ≤ frame.contentlen + 1 →
      0 ≤ frame.hasContentlen → frame.hasContentlen + body.length < 2147483648 →
      ∃ frame', Passes env sock (body ++ 0 :: rest, st.hold frame) (rest, st.publish frame') ∧
        frame'.name = frame.name ∧ frame'.hAttrs = frame.hAttrs ∧
        (frame.contentlen = frame.hasContentlen + body.length →
          (entryLines frame'.hData).flatten = (entryLines frame.hData).flatten ++ body) := by
  intro length
  induction length using Nat.strong_induction_on with
  | _ length ih =>
      intro body st frame sized nonempty clean status announced within received bound
      by_cases short : body.length ≤ LD_MAX
      · have reached : frame.contentlen ≤ wrap32 (frame.hasContentlen + body.length) := by
          rw [wrap32_of_bounds] <;> omega
        have grows := frameBodyPiece_grows frame (0 :: rest) nonempty
        exact ⟨_, visits_body_last env sock st rest status nonempty clean short reached,
          grows.name, grows.attrs, fun _ => grows.data⟩
      · obtain ⟨piece, c, more, rfl, full, pieceNonempty, cleanPiece, cleanLeft, parts⟩ :=
          body_parts (Nat.lt_of_not_le short) clean rest
        have grows := frameBodyPiece_grows frame (c :: (more ++ 0 :: rest)) pieceNonempty
        simp only [List.length_append, List.length_cons] at sized announced within short bound
        have stored : wrap32 (frame.hasContentlen + piece.length) =
            frame.hasContentlen + LD_MAX := by
          rw [full, wrap32_of_bounds] <;> omega
        rw [parts]
        by_cases beyond : frame.contentlen ≤ frame.hasContentlen + LD_MAX
        · -- only the byte too much is left, and it is skipped
          have last : more = [] := by
            rw [← List.length_eq_zero_iff]
            omega
          subst last
          have publishes : Passes env sock (piece ++ c :: ([] ++ 0 :: rest), st.hold frame)
              (0 :: rest, st.publish (finishFrame (frameFinish env st.rands)
                (frameBodyPiece (piece ++ c :: ([] ++ 0 :: rest)) piece.length frame))) := by
            refine Passes.pass (n := piece.length) ?_ (by simp) ?_
            · rw [isBodyInput_of_status (hold_frame st frame) status, full]
              exact ssplit_full (lineText_body pieceNonempty cleanPiece) full c _
            · rw [recvLine_body_complete (hold_frame st frame) status (joinedLine_none rfl _ _)
                (by rw [grows.received, stored]; exact beyond)]
              simp [RecvState.hold, RecvState.publish, ← List.drop_drop]
          refine ⟨finishFrame (frameFinish env st.rands)
              (frameBodyPiece (piece ++ c :: ([] ++ 0 :: rest)) piece.length frame),
            publishes.trans (visits_nothing env sock _ (publish_frame st _) (publish_prevData st _)
              (by decide) rest), grows.name, grows.attrs, fun exactly => ?_⟩
          simp only [List.length_append, List.length_cons, List.length_nil] at exactly
          omega
        · have step := visits_body_piece env sock st c
            (more ++ 0 :: rest) status cleanPiece full (by rw [stored]; omega)
          obtain ⟨frame', reaches, name, attrs, data⟩ := ih (c :: more).length
            (by simp only [List.length_cons, LD_MAX] at full ⊢; omega) (c :: more) st _ rfl (by simp)
            cleanLeft (grows.status.trans status)
            (by rw [grows.contentlen, grows.received, stored, List.length_cons]; omega)
            (by rw [grows.contentlen, grows.received, stored, List.length_cons]; omega)
            (by rw [grows.received, stored]; omega)
            (by rw [grows.received, stored, List.length_cons]; omega)
          refine ⟨frame', step.trans reaches, name.trans grows.name, attrs.trans grows.attrs,
            fun exactly => ?_⟩
          simp only [List.length_append, List.length_cons] at exactly
          rw [data (by rw [grows.contentlen, grows.received, stored, List.length_cons]; omega),
            grows.data, List.append_assoc]

/-! ### One frame -/

/-- The commands are header lines as far as the splitter is concerned. -/
theorem command_line {w : List UInt8} (known : w ∈ finfoArr) : HeaderLine w := by
  have all : ∀ w ∈ finfoArr, HeaderLine w := by decide +kernel
  exact all w known

/-- The frame that a connection at rest holds after the command line `w`. -/
def commandFrame (sock : Int) (cinfo : StompConninfo) (w : List UInt8) : Frame :=
  { prepareFrame sock cinfo with
    name := w, status := .inputHeader, size := wrap32 (w.length + 1) }

theorem visits_command {st : RecvState} (idle : st.cinfo.frame = none)
    (saved : st.cinfo.prevData = none) {w : List UInt8} (known : w ∈ finfoArr)
    (rest : List UInt8) :
    Passes env sock (w ++ LF :: rest, st) (rest, st.hold (commandFrame sock st.cinfo w)) := by
  have header := command_line known
  have positive := List.length_pos_iff.mpr header.nonempty
  refine Passes.pass (n := w.length) ?_ (by simp) ?_
  · rw [isBodyInput_of_none idle]
    exact ssplit_line header.text header.short (by decide) rest
  · rw [recvLine_command (by simp [prepareFrame, idle, allocFrame]) positive
      (joinedLine_none saved _ _)
      (findFrameName_of_known known (Nat.le_refl _) (List.prefix_append w _))]
    simp [commandFrame, prepareFrame, idle, allocFrame]

/-- The blank line before an empty body publishes the frame. -/
theorem visits_blank_publish (st : RecvState) {frame : Frame} {c : UInt8} (blank : c = LF ∨ c = CR)
    (rest : List UInt8) (status : frame.status = .inputHeader) (announced : frame.contentlen = 0) :
    Passes env sock (c :: rest, st.hold frame)
      (rest, st.publish (finishFrame (frameFinish env st.rands) frame)) := by
  obtain ⟨empty, newline⟩ := blank_start blank
  refine Passes.pass (n := 0) ?_ (by simp) ?_
  · rw [isBodyInput_of_header (hold_frame st frame) (by simp [status])]
    exact ssplit_empty _ empty
  · rw [recvLine_blank_empty (hold_frame st frame) status (joinedLine_none rfl _ _) (newline rest)
      announced]
    rfl

/-- The NUL after an empty body does nothing. -/
theorem visits_blank_empty (st : RecvState) {frame : Frame} (rest : List UInt8)
    (status : frame.status = .inputHeader) (announced : frame.contentlen = 0) :
    Passes env sock (LF :: 0 :: rest, st.hold frame)
      (rest, st.publish (finishFrame (frameFinish env st.rands) frame)) :=
  (visits_blank_publish env sock st (Or.inl rfl) (0 :: rest) status announced).trans
    (visits_nothing env sock _ (publish_frame st _) (publish_prevData st _) (by decide) rest)

/-- The blank line before a body that is not empty. -/
theorem visits_blank (st : RecvState) {frame : Frame} {c : UInt8} (blank : c = LF ∨ c = CR)
    (rest : List UInt8) (status : frame.status = .inputHeader) (announced : 0 < frame.contentlen) :
    Passes env sock (c :: rest, st.hold frame)
      (rest, st.hold { frame with status := .inputBody, size := wrap32 (frame.size + 1) }) := by
  obtain ⟨empty, newline⟩ := blank_start blank
  refine Passes.pass (n := 0) ?_ (by simp) ?_
  · rw [isBodyInput_of_header (hold_frame st frame) (by simp [status])]
    exact ssplit_empty _ empty
  · exact recvLine_blank (hold_frame st frame) status (joinedLine_none rfl _ _) (newline rest)
      announced

/-- The encoding of one frame is read from a connection at rest, which it leaves at rest. -/
theorem visits_frame (sent : WireFrame) (rest : List UInt8) {st : RecvState}
    (idle : st.cinfo.frame = none) (saved : st.cinfo.prevData = none) :
    ∃ frame, Passes env sock (sent.encode ++ rest, st) (rest, st.publish frame) ∧
      frame.Carries sent := by
  let afterBlank := sent.body ++ 0 :: rest
  have parts : sent.encode ++ rest =
      sent.command ++ LF :: (WireFrame.encodeLines sent.headers ++ LF :: afterBlank) := by
    simp [WireFrame.encode, afterBlank]
  have command := visits_command env sock idle saved sent.command_known
    (WireFrame.encodeLines sent.headers ++ LF :: afterBlank)
  have lines : ∀ h ∈ sent.headers, LineText false h ∧ h.length ≤ LD_MAX := fun h mem =>
    ⟨(sent.header_line h mem).text, (sent.header_line h mem).short⟩
  have announces : ∀ h ∈ sent.headers, isLengthHeader h = true →
      AnnouncesLength sent.body.length h := fun h mem isLength rest =>
    length_of_decimal rest isLength (sent.length_value h mem isLength) sent.body_bound
  obtain ⟨frame, headers, soFar, length⟩ := visits_headers env sock (LF :: afterBlank) sent.headers
    st (commandFrame sock st.cinfo sent.command) lines announces rfl
  have announced : frame.contentlen = sent.body.length :=
    length (Or.inl (by rw [sent.one_length]; exact Nat.one_pos))
  have fresh : prepareFrame sock st.cinfo =
      { allocFrame with sock := sock, cinfo := some st.cinfo.id } := by
    simp [prepareFrame, idle]
  have name : frame.name = sent.command := soFar.name
  have attrs : entryLines frame.hAttrs = sent.headers := by
    rw [soFar.attrs]
    simp [commandFrame, fresh, allocFrame, entryLines_exact]
  have data : frame.hData = [] := by
    rw [soFar.data]
    simp [commandFrame, fresh, allocFrame]
  have received : frame.hasContentlen = 0 := by
    rw [soFar.received]
    simp [commandFrame, fresh, allocFrame]
  rw [parts]
  by_cases empty : sent.body = []
  · have blank := visits_blank_empty env sock st rest soFar.status
      (by rw [announced, empty]; rfl)
    refine ⟨finishFrame (frameFinish env st.rands) frame, command.trans (headers.trans ?_), ?_⟩
    · have noBody : afterBlank = 0 :: rest := by simp [afterBlank, empty]
      rw [noBody]
      exact blank
    · exact ⟨name, attrs, by simp [finishFrame, frameFinish, data, entryLines, empty]⟩
  · have positive := List.length_pos_iff.mpr empty
    have blank := visits_blank env sock st (Or.inl rfl) afterBlank soFar.status
      (by omega)
    obtain ⟨frame', body, name', attrs', data'⟩ := visits_body env sock rest
      sent.body.length sent.body st
      { frame with status := .inputBody, size := wrap32 (frame.size + 1) } rfl empty
      sent.body_clean rfl (by simp only [announced, received]; omega)
      (by simp only [announced, received]; omega) (by simp [received])
      (by have := sent.body_bound; simp only [received]; omega)
    refine ⟨frame', command.trans (headers.trans (blank.trans body)), ?_⟩
    exact ⟨name'.trans name, by rw [attrs']; exact attrs,
      by rw [data' (by simp only [announced, received]; omega)]; simp [data, entryLines]⟩

/-! ### All frames -/

/-- The bytes a client sends for several frames. -/
def encodeAll (frames : List WireFrame) : List UInt8 :=
  frames.flatMap WireFrame.encode

theorem visits_frames (rest : List UInt8) :
    ∀ (sent : List WireFrame) (st : RecvState), st.cinfo.frame = none →
      st.cinfo.prevData = none →
      ∃ published st', Passes env sock (encodeAll sent ++ rest, st) (rest, st') ∧
        st'.bucket = st.bucket ++ published ∧ List.Forall₂ Frame.Carries published sent ∧
        st'.cinfo.frame = none ∧ st'.cinfo.prevData = none
  | [], st, idle, saved => ⟨[], st, Relation.ReflTransGen.refl, by simp, .nil, idle, saved⟩
  | first :: sent, st, idle, saved => by
      obtain ⟨frame, one, carries⟩ := visits_frame env sock first
        (encodeAll sent ++ rest) idle saved
      obtain ⟨published, st', more, bucket, all, rested⟩ :=
        visits_frames rest sent (st.publish frame) (publish_frame st frame)
          (publish_prevData st frame)
      refine ⟨frame :: published, st', ?_, ?_, .cons carries all, rested⟩
      · have parts : encodeAll (first :: sent) ++ rest = first.encode ++ (encodeAll sent ++ rest) := by
          simp [encodeAll]
        rw [parts]
        exact one.trans more
      · simp [bucket]

/-- One call of `recv_data` on the encodings of any frames, on a connection with no current frame
and no saved fragment, publishes exactly these frames in order, and leaves the connection so. -/
theorem recvData_decodes (env : RecvEnv) (sock : Int) (sent : List WireFrame) (st : RecvState)
    (idle : st.cinfo.frame = none) (saved : st.cinfo.prevData = none) :
    ∃ published st', recvData env sock (encodeAll sent) st = some st' ∧
      st'.bucket = st.bucket ++ published ∧ List.Forall₂ Frame.Carries published sent ∧
      st'.cinfo.frame = none ∧ st'.cinfo.prevData = none := by
  obtain ⟨published, st', reaches, rested⟩ :=
    visits_frames env sock [] sent st idle saved
  rw [List.append_nil] at reaches
  refine ⟨published, st', ?_, rested⟩
  rw [recvData_eq_some_iff, reaches.returns_iff]
  exact Loop.returns_of_leave (recvPass_nil st')

/-- A `SEND` with the body `hi`. -/
def sendHi : WireFrame where
  command := cstring "SEND"
  headers := [cstring "destination:/queue/a", cstring "content-length:2"]
  body := cstring "hi"
  command_known := by decide
  header_line := by decide +kernel
  one_length := by decide
  length_value := by decide +kernel
  body_clean := by decide
  body_bound := by decide

/-- A `DISCONNECT` without a body. -/
def disconnectFrame : WireFrame where
  command := cstring "DISCONNECT"
  headers := [cstring "content-length:0"]
  body := []
  command_known := by decide
  header_line := by decide +kernel
  one_length := by decide
  length_value := by decide +kernel
  body_clean := by decide
  body_bound := by decide

/-- Both frames in one chunk, on a new connection. -/
theorem recvData_decodes_two :
    ∃ published st', recvData ⟨fun _ => 0, fun _ _ => true⟩ 3
        (cstring "SEND\ndestination:/queue/a\ncontent-length:2\n\nhi" ++
          0 :: (cstring "DISCONNECT\ncontent-length:0\n\n" ++ [0]))
        ⟨connInit ⟨fun _ => 0, fun _ _ => true⟩ 0, [], [], 9⟩ = some st' ∧
      st'.bucket = [] ++ published ∧
      List.Forall₂ Frame.Carries published [sendHi, disconnectFrame] ∧
      st'.cinfo.frame = none ∧ st'.cinfo.prevData = none :=
  recvData_decodes ⟨fun _ => 0, fun _ _ => true⟩ 3 [sendHi, disconnectFrame]
    ⟨connInit ⟨fun _ => 0, fun _ _ => true⟩ 0, [], [], 9⟩ rfl rfl

end Newtmq
