/-
Module: Newtmq.Proofs.FrameSeparation
Purpose: Frames that announce their lengths are kept apart, in one chunk and in every cutting that is
  safe. A frame without a length swallows the next one.
Trusted boundary: none
Main exports: bucket_kept, visits_client, feeds_client, frames_kept_apart
-/
import Newtmq.Spec.ClientStream
import Newtmq.Proofs.RecvCuts
import Newtmq.Proofs.RecvDecode

namespace Newtmq

variable (env : RecvEnv) {sock : Int}

/-! ### What is published stays -/

theorem afterUpdate_bucket (st : RecvState) (updated : Int × Frame) :
    st.bucket <+: (afterUpdate env sock st updated).bucket := by
  obtain ⟨ret, frame⟩ := updated
  simp only [afterUpdate]
  split
  · exact List.prefix_append _ _
  · exact List.prefix_rfl

/-- A pass adds frames to the bucket at most. -/
theorem bucket_kept (bucket : List Frame) :
    RecvInvariant env sock fun st => bucket <+: st.bucket where
  line st curr n _ kept := by
    simp only [recvLine]
    split
    · exact kept.trans (afterUpdate_bucket env st _)
    · exact kept
  save _ _ kept := kept

/-- What is read later leaves the published frames as they are. -/
theorem recvChunks_publishes {chunks : List (List UInt8)} {st result : RecvState}
    (ran : recvChunks env sock chunks st = some result) : st.bucket <+: result.bucket :=
  (bucket_kept env st.bucket).chunks List.prefix_rfl ran

/-! ### One chunk -/

theorem HeaderText.text {text : List UInt8} (header : HeaderText text) (cr : Bool) :
    LineText false (text ++ optionalCr cr) where
  nonempty := by simp [header.nonempty]
  start c hc := by
    have first : text.head? = some c := by
      obtain ⟨d, more, rfl⟩ := List.exists_cons_of_ne_nil header.nonempty
      exact hc
    have := header.clean c (List.mem_of_mem_head? first)
    simp [emptyStart, this]
  inside := by
    rw [List.all_eq_true]
    intro c mem
    rcases List.mem_append.mp mem with inText | inCr
    · have := header.clean c inText
      simp [nonStop, this]
    · cases cr with
      | false => cases inCr
      | true =>
          obtain rfl := List.mem_singleton.mp inCr
          decide

theorem optionalCr_cases (cr : Bool) : optionalCr cr = [] ∨ optionalCr cr = [CR] := by
  cases cr
  · exact Or.inl rfl
  · exact Or.inr rfl

/-- A CR at the end of a line does not make it a length header. -/
theorem isLengthHeader_cr {text : List UInt8} (cr : Bool) :
    isLengthHeader (text ++ optionalCr cr) = isLengthHeader text := by
  cases cr with
  | false => rw [optionalCr, List.append_nil]
  | true =>
      have noCr : CR ∉ cstring "content-length:" := by decide
      rw [isLengthHeader, isLengthHeader, Bool.eq_iff_iff, List.isPrefixOf_iff_prefix,
        List.isPrefixOf_iff_prefix, optionalCr, List.prefix_concat_iff]
      refine ⟨fun either => either.resolve_left ?_, Or.inr⟩
      intro same
      apply noCr
      rw [same]
      exact List.mem_append_right _ List.mem_cons_self

namespace ClientFrame

variable (frame : ClientFrame)

theorem countP_lines : frame.lines.countP isLengthHeader =
    frame.headers.countP fun h => isLengthHeader h.1 := by
  rw [lines, List.countP_map]
  apply List.countP_congr
  intro h _
  rw [Function.comp_apply, isLengthHeader_cr]

theorem line_text {line : List UInt8} (mem : line ∈ frame.lines) : LineText false line := by
  obtain ⟨h, memHeader, rfl⟩ := List.mem_map.mp mem
  exact (frame.header_text h memHeader).text h.2

theorem line_announces (bound : frame.body.length < 2147483648) {line : List UInt8}
    (mem : line ∈ frame.lines) (isLength : isLengthHeader line = true) :
    AnnouncesLength frame.body.length line := by
  obtain ⟨h, memHeader, rfl⟩ := List.mem_map.mp mem
  rw [isLengthHeader_cr] at isLength
  exact announcesLength_of_decimal (optionalCr_cases h.2) isLength
    (frame.length_value h memHeader isLength) bound

end ClientFrame

/-- The command line leaves a new frame in its header. -/
theorem visits_commandLine {st : RecvState} (idle : st.cinfo.frame = none)
    (saved : st.cinfo.prevData = none) {w : List UInt8} (known : w ∈ finfoArr) (cr : Bool)
    (rest : List UInt8) :
    ∃ size, Passes env sock ((w ++ optionalCr cr) ++ LF :: rest, st)
      (rest, st.hold { commandFrame sock st.cinfo w with size := size }) := by
  have header := command_line known
  have text : LineText false (w ++ optionalCr cr) :=
    HeaderText.text ⟨header.nonempty, header.clean⟩ cr
  have short : (w ++ optionalCr cr).length ≤ LD_MAX := by
    have all : ∀ w ∈ finfoArr, w.length + 1 ≤ LD_MAX := by decide
    have := all w known
    cases cr <;> simp [optionalCr] <;> omega
  have fresh : prepareFrame sock st.cinfo =
      { allocFrame with sock := sock, cinfo := some st.cinfo.id } := by
    simp [prepareFrame, idle]
  have found : findFrameName ((w ++ optionalCr cr) ++ LF :: rest) (w ++ optionalCr cr).length
      finfoArr = some w := by
    apply findFrameName_of_known known
    · simp
    · rw [List.append_assoc]
      exact List.prefix_append w _
  have line : recvLine env sock ((w ++ optionalCr cr) ++ LF :: rest) (w ++ optionalCr cr).length st =
      _ := recvLine_command (by rw [fresh]; rfl) (List.length_pos_iff.mpr text.nonempty)
    (joinedLine_none saved _ _) found
  have next : ((w ++ optionalCr cr) ++ LF :: rest).drop ((w ++ optionalCr cr).length + 1) = rest := by
    simp [← List.drop_drop]
  rw [next] at line
  have split : ssplit ((w ++ optionalCr cr) ++ LF :: rest) st.isBodyInput =
      (.success, (w ++ optionalCr cr).length) := by
    rw [isBodyInput_of_none idle]
    exact ssplit_line text short (by decide) rest
  refine ⟨wrap32 ((w ++ optionalCr cr).length + 1), Passes.pass split (by simp) (line.trans ?_)⟩
  rw [commandFrame, fresh]
  simp [allocFrame]

/-- The blank line and the body publish the frame at the NUL. When the blank line begins with a CR, its
LF is read as the first byte of the body. -/
theorem visits_rest (st : RecvState) {frame : Frame} {body : List UInt8} (cr : Bool) (rest : List UInt8)
    (status : frame.status = .inputHeader) (announced : frame.contentlen = body.length)
    (received : frame.hasContentlen = 0) (clean : (0 : UInt8) ∉ body)
    (bound : body.length + 1 < 2147483648) :
    ∃ published, Passes env sock (optionalCr cr ++ LF :: (body ++ 0 :: rest), st.hold frame)
      (rest, st.publish published) := by
  by_cases empty : body = []
  · subst empty
    cases cr with
    | false => exact ⟨_, visits_blank_empty env sock st rest status announced⟩
    | true =>
        refine ⟨_, (visits_blank_publish env sock st (Or.inr rfl) _ status announced).trans
          ((visits_nothing env sock _ (publish_frame st _) (publish_prevData st _) (by decide) _).trans
            (visits_nothing env sock _ (publish_frame st _) (publish_prevData st _) (by decide) rest))⟩
  · have positive := List.length_pos_iff.mpr empty
    cases cr with
    | false =>
        obtain ⟨published, reaches, -⟩ := visits_body env sock rest body.length body st
          { frame with status := .inputBody, size := wrap32 (frame.size + 1) } rfl empty clean rfl
          (by simp only [announced, received]; omega) (by simp only [announced, received]; omega)
          (by simp only [received]; omega) (by simp only [received]; omega)
        exact ⟨published,
          (visits_blank env sock st (Or.inl rfl) _ status (by omega)).trans reaches⟩
    | true =>
        have cleanText : (0 : UInt8) ∉ LF :: body :=
          List.not_mem_cons_of_ne_of_not_mem (by decide) clean
        obtain ⟨published, reaches, -⟩ := visits_body env sock rest (LF :: body).length (LF :: body) st
          { frame with status := .inputBody, size := wrap32 (frame.size + 1) } rfl
          (List.cons_ne_nil _ _) cleanText rfl
          (by simp only [announced, received, List.length_cons]; omega)
          (by simp only [announced, received, List.length_cons]; omega)
          (by simp only [received]; omega) (by simp only [received, List.length_cons]; omega)
        exact ⟨published,
          (visits_blank env sock st (Or.inr rfl) _ status (by omega)).trans reaches⟩

/-- A frame that announces its length is published when its NUL has been read. -/
theorem visits_client {frame : ClientFrame} (announced : frame.Announced) {st : RecvState}
    (idle : st.cinfo.frame = none) (saved : st.cinfo.prevData = none) (rest : List UInt8) :
    ∃ published, Passes env sock (frame.encode ++ rest, st) (rest, st.publish published) := by
  obtain ⟨size, command⟩ := visits_commandLine env idle saved frame.command_known frame.commandCr
    (WireFrame.encodeLines frame.lines ++ (optionalCr frame.blankCr ++ LF :: (frame.body ++ 0 :: rest)))
  have bound := announced.bound
  obtain ⟨second, headers, soFar, length⟩ := visits_headers env sock
    (optionalCr frame.blankCr ++ LF :: (frame.body ++ 0 :: rest)) frame.lines st
    { commandFrame sock st.cinfo frame.command with size := size }
    (fun line mem => ⟨frame.line_text mem, announced.short line mem⟩)
    (fun line mem => frame.line_announces (by omega) mem) rfl
  have contentlen : second.contentlen = frame.body.length := by
    apply length
    left
    rw [frame.countP_lines, announced.length]
    exact Nat.one_pos
  have received : second.hasContentlen = 0 := by
    rw [soFar.received]
    simp [commandFrame, prepareFrame, idle, allocFrame]
  obtain ⟨published, body⟩ := visits_rest env st frame.blankCr rest soFar.status contentlen
    received announced.clean bound
  refine ⟨published, ?_⟩
  have parts : frame.encode ++ rest = (frame.command ++ optionalCr frame.commandCr) ++ LF ::
      (WireFrame.encodeLines frame.lines ++
        (optionalCr frame.blankCr ++ LF :: (frame.body ++ 0 :: rest))) := by
    simp [ClientFrame.encode]
  rw [parts]
  exact command.trans (headers.trans body)

theorem visits_clients {frames : List ClientFrame} (announced : ∀ frame ∈ frames, frame.Announced)
    {st : RecvState} (idle : st.cinfo.frame = none) (saved : st.cinfo.prevData = none)
    (rest : List UInt8) :
    ∃ there, Passes env sock (ClientFrame.encodeAll frames ++ rest, st) (rest, there) ∧
      there.bucket.length = st.bucket.length + frames.length := by
  induction frames generalizing st with
  | nil => exact ⟨st, Relation.ReflTransGen.refl, rfl⟩
  | cons frame frames ih =>
      obtain ⟨published, one⟩ := visits_client env (announced frame List.mem_cons_self) idle saved
        (ClientFrame.encodeAll frames ++ rest)
      obtain ⟨there, more, bucket⟩ := ih (fun other mem => announced other (List.mem_cons_of_mem _ mem))
        (publish_frame st published) (publish_prevData st published)
      refine ⟨there, ?_, ?_⟩
      · rw [ClientFrame.encodeAll, List.flatMap_cons, List.append_assoc]
        exact one.trans more
      · simp only [bucket, publish_bucket, List.length_append, List.length_cons, List.length_nil]
        omega

/-! ### Byte by byte -/

/-- The text of a line joins the unfinished line. -/
theorem feeds_text (published : List Message) {run : List UInt8} :
    ∀ (reading : Reading) (line : List UInt8), reading.line? = some line →
      run.all (nonStop false) = true → isNl (line ++ run) = false →
      feeds ⟨reading, published⟩ run = ⟨reading.setLine (line ++ run), published⟩ := by
  induction run with
  | nil =>
      intro reading line isLine _ _
      rw [feeds_nil, List.append_nil, Reading.setLine_self isLine]
  | cons b run ih =>
      intro reading line isLine inside start
      simp only [List.all_cons, Bool.and_eq_true] at inside
      have first : isNl (line ++ [b]) = false := by
        cases line <;> exact start
      rw [feeds_cons, feed_inside isLine inside.1 first,
        ih (reading.setLine (line ++ [b])) (line ++ [b]) (by simp [isLine]) inside.2
          (by rw [List.append_assoc]; exact start),
        Reading.setLine_setLine, List.append_assoc]
      rfl

/-- A line and its LF. -/
theorem feeds_line (published : List Message) {reading : Reading} (begins : reading.line? = some [])
    {line : List UInt8} (text : LineText false line) :
    feeds ⟨reading, published⟩ (line ++ [LF]) = ⟨(reading.setLine line).endLine, published⟩ := by
  have start : isNl line = false := by
    have all := text.not_newline []
    rwa [List.append_nil] at all
  rw [feeds_append, feeds_text published reading [] begins text.inside start, List.nil_append,
    feeds_cons, feeds_nil]
  exact feed_endLine (by simp [begins]) text.nonempty (Or.inr rfl) published

/-- The command line begins a header. -/
theorem feeds_command (published : List Message) {w : List UInt8} (known : w ∈ finfoArr) (cr : Bool) :
    ∃ draft, feeds ⟨.command [], published⟩ ((w ++ optionalCr cr) ++ [LF]) =
      ⟨.header draft [], published⟩ := by
  have header := command_line known
  have text : LineText false (w ++ optionalCr cr) :=
    HeaderText.text ⟨header.nonempty, header.clean⟩ cr
  have found : findFrameName (w ++ optionalCr cr) (w ++ optionalCr cr).length finfoArr = some w :=
    findFrameName_of_known known (by simp) (List.prefix_append w _)
  rw [feeds_line published rfl text]
  simp only [Reading.setLine, Reading.endLine, endCommand, found]
  exact ⟨_, rfl⟩

/-- The reader finds the announced length in the line alone. -/
theorem ClientFrame.line_length (frame : ClientFrame) (bound : frame.body.length < 2147483648)
    {line : List UInt8} (mem : line ∈ frame.lines) (isLength : isLengthHeader line = true) :
    isContentlen line line.length = true ∧ getContentlen line = frame.body.length := by
  obtain ⟨isContent, value⟩ := frame.line_announces bound mem isLength []
  rw [isContentlen_append] at isContent
  have inLine : LengthInLine line := by
    intro _
    obtain ⟨h, memHeader, rfl⟩ := List.mem_map.mp mem
    rw [isLengthHeader_cr] at isLength
    have decimal := frame.length_value h memHeader isLength
    obtain ⟨c, more, digits⟩ := List.exists_cons_of_ne_nil decimal.nonempty
    refine ⟨c, ?_, isdigit_not_space (decimal.digit c (by rw [digits]; exact List.mem_cons_self))⟩
    rw [List.drop_append, digits]
    exact List.mem_append_left _ List.mem_cons_self
  refine ⟨isContent, ?_⟩
  rw [← value, getContentlen_append (Or.inr (Or.inr ⟨rfl, inLine⟩)) isContent]

/-- The header lines. The length that holds afterwards is the announced one as soon as one of the lines
announces it. -/
theorem feeds_headers (published : List Message) {n : Nat} {lines : List (List UInt8)} (draft : Draft)
    (text : ∀ line ∈ lines, LineText false line)
    (value : ∀ line ∈ lines, isLengthHeader line = true →
      isContentlen line line.length = true ∧ getContentlen line = n) :
    ∃ draft', feeds ⟨.header draft [], published⟩ (WireFrame.encodeLines lines) =
        ⟨.header draft' [], published⟩ ∧
      (0 < lines.countP isLengthHeader ∨ draft.contentlen = n → draft'.contentlen = n) := by
  induction lines generalizing draft with
  | nil =>
      refine ⟨draft, rfl, ?_⟩
      rintro (some | known)
      · cases some
      · exact known
  | cons line lines ih =>
      obtain ⟨draft', fed, length⟩ := ih (draft.addLine line)
        (fun other mem => text other (List.mem_cons_of_mem _ mem))
        (fun other mem => value other (List.mem_cons_of_mem _ mem))
      refine ⟨draft', ?_, fun known => length ?_⟩
      · have parts : WireFrame.encodeLines (line :: lines) =
            (line ++ [LF]) ++ WireFrame.encodeLines lines := by simp
        rw [parts, feeds_append, feeds_line published rfl (text line List.mem_cons_self)]
        exact fed
      · cases isLength : isLengthHeader line with
        | true =>
            obtain ⟨isContent, announced⟩ := value line List.mem_cons_self isLength
            exact Or.inr (by simp [Draft.addLine, isContent, announced])
        | false =>
            have silent : isContentlen line line.length = false := by
              have all := not_contentlen [] isLength
              rwa [isContentlen_append] at all
            rcases known with some | known
            · exact Or.inl (by simpa [List.countP_cons, isLength] using some)
            · exact Or.inr (by simp [Draft.addLine, silent, known])

theorem feeds_bodyText (published : List Message) (draft : Draft) {text : List UInt8} :
    ∀ got, (0 : UInt8) ∉ text →
      feeds ⟨.body draft got, published⟩ text = ⟨.body draft (got ++ text), published⟩ := by
  induction text with
  | nil =>
      intro got _
      rw [feeds_nil, List.append_nil]
  | cons b text ih =>
      intro got clean
      have inside : b ≠ 0 := fun same => clean (same ▸ List.mem_cons_self)
      rw [feeds_cons]
      simp only [feed, inside, if_false]
      rw [ih _ (fun mem => clean (List.mem_cons_of_mem _ mem)), List.append_assoc]
      rfl

/-- A byte that ends an empty line is ignored before a command. -/
theorem feed_nothing (published : List Message) {b : UInt8} (empty : emptyStart false b = true) :
    feed ⟨.command [], published⟩ b = ⟨.command [], published⟩ := by
  have none : endCommand [] = .command [] := by decide
  simp only [feed, none]
  exact if_pos (by simpa [emptyStart] using empty)

/-- The blank line. -/
theorem feed_blank (published : List Message) (draft : Draft) {b : UInt8} (blank : b = LF ∨ b = CR) :
    feed ⟨.header draft [], published⟩ b =
      if 0 < draft.contentlen then ⟨.body { draft with size := draft.size + 1 } [], published⟩
      else if draft.contentlen = 0 then ⟨.command [], published ++ [draft.finish []]⟩
      else ⟨.header draft [], published⟩ := by
  simp only [feed, if_pos blank]

/-- The NUL after a body of at least the announced length. -/
theorem feed_bodyEnd (published : List Message) {draft : Draft} {got : List UInt8}
    (reached : draft.contentlen ≤ got.length) :
    feed ⟨.body draft got, published⟩ 0 = ⟨.command [], published ++ [draft.finish got]⟩ := by
  simp only [feed, if_true, if_pos reached]

/-- The blank line and the body publish a message at the NUL. -/
theorem feeds_rest (published : List Message) (draft : Draft) {body : List UInt8} (cr : Bool)
    (announced : draft.contentlen = body.length) (clean : (0 : UInt8) ∉ body) :
    ∃ message, message.headers = draft.headers ∧
      feeds ⟨.header draft [], published⟩ (optionalCr cr ++ LF :: (body ++ [0])) =
        ⟨.command [], published ++ [message]⟩ := by
  by_cases empty : body = []
  · subst empty
    have zero : draft.contentlen = 0 := announced
    have publishes : ∀ b, b = LF ∨ b = CR → feed ⟨.header draft [], published⟩ b =
        ⟨.command [], published ++ [draft.finish []]⟩ := by
      intro b blank
      rw [feed_blank published draft blank, if_neg (by omega), if_pos zero]
    refine ⟨draft.finish [], rfl, ?_⟩
    cases cr with
    | false =>
        simp only [optionalCr, List.nil_append, feeds_cons, feeds_nil, publishes LF (Or.inl rfl)]
        rw [feed_nothing _ (by decide)]
    | true =>
        simp only [optionalCr, List.cons_append, List.nil_append, feeds_cons, feeds_nil,
          publishes CR (Or.inr rfl)]
        rw [feed_nothing _ (by decide), feed_nothing _ (by decide)]
  · have positive := List.length_pos_iff.mpr empty
    have begins : ∀ b, b = LF ∨ b = CR → feed ⟨.header draft [], published⟩ b =
        ⟨.body { draft with size := draft.size + 1 } [], published⟩ := by
      intro b blank
      rw [feed_blank published draft blank, if_pos (by omega)]
    cases cr with
    | false =>
        have reached : ({ draft with size := draft.size + 1 } : Draft).contentlen ≤ body.length :=
          Int.le_of_eq announced
        rw [optionalCr, List.nil_append, feeds_cons, begins LF (Or.inl rfl), feeds_append,
          feeds_bodyText _ _ _ clean, feeds_cons, feeds_nil, List.nil_append,
          feed_bodyEnd _ reached]
        exact ⟨_, rfl, rfl⟩
    | true =>
        have cleanText : (0 : UInt8) ∉ LF :: body :=
          List.not_mem_cons_of_ne_of_not_mem (by decide) clean
        have parts : optionalCr true ++ LF :: (body ++ [0]) = CR :: ((LF :: body) ++ [0]) := rfl
        rw [parts, feeds_cons, begins CR (Or.inr rfl), feeds_append, feeds_bodyText _ _ _ cleanText,
          feeds_cons, feeds_nil, List.nil_append,
          feed_bodyEnd _ (by rw [announced, List.length_cons]; omega)]
        exact ⟨_, rfl, rfl⟩

/-- A frame that announces its length is one message for the reader. -/
theorem feeds_client {frame : ClientFrame} (announced : frame.Announced) (published : List Message) :
    ∃ message, feeds ⟨.command [], published⟩ frame.encode =
      ⟨.command [], published ++ [message]⟩ := by
  have bound := announced.bound
  obtain ⟨first, command⟩ := feeds_command published frame.command_known frame.commandCr
  obtain ⟨second, headers, length⟩ := feeds_headers published first
    (fun line mem => frame.line_text mem)
    (fun line mem => frame.line_length (by omega) mem)
  have contentlen : second.contentlen = frame.body.length := by
    apply length
    left
    rw [frame.countP_lines, announced.length]
    exact Nat.one_pos
  obtain ⟨message, -, body⟩ := feeds_rest published second frame.blankCr contentlen announced.clean
  refine ⟨message, ?_⟩
  have parts : frame.encode = ((frame.command ++ optionalCr frame.commandCr) ++ [LF]) ++
      (WireFrame.encodeLines frame.lines ++
        (optionalCr frame.blankCr ++ LF :: (frame.body ++ [0]))) := by
    simp [ClientFrame.encode]
  rw [parts, feeds_append, feeds_append, command, headers, body]

theorem feeds_clients {frames : List ClientFrame} (announced : ∀ frame ∈ frames, frame.Announced)
    (published : List Message) :
    ∃ messages, feeds ⟨.command [], published⟩ (ClientFrame.encodeAll frames) =
        ⟨.command [], published ++ messages⟩ ∧
      messages.length = frames.length := by
  induction frames generalizing published with
  | nil => exact ⟨[], by rw [List.append_nil]; rfl, rfl⟩
  | cons frame frames ih =>
      obtain ⟨message, one⟩ := feeds_client (announced frame List.mem_cons_self) published
      obtain ⟨messages, more, length⟩ := ih
        (fun other mem => announced other (List.mem_cons_of_mem _ mem)) (published ++ [message])
      refine ⟨message :: messages, ?_, by rw [List.length_cons, List.length_cons, length]⟩
      rw [ClientFrame.encodeAll, List.flatMap_cons, feeds_append, one]
      rw [ClientFrame.encodeAll] at more
      rw [more, List.append_assoc]
      rfl

/-! ### Every cutting -/

/-- A line before a NUL is found, and does not reach beyond it. -/
theorem ssplit_before_nul (isBody : Bool) (text tail : List UInt8) :
    ∃ n ≤ text.length, ssplit (text ++ 0 :: tail) isBody = (.success, n) := by
  cases text with
  | nil =>
      refine ⟨0, Nat.le_refl 0, ssplit_empty tail ?_⟩
      cases isBody <;> decide
  | cons c rest =>
      by_cases empty : emptyStart isBody c = true
      · exact ⟨0, Nat.zero_le _, ssplit_empty _ empty⟩
      · have stop : nonStop isBody 0 = false := by cases isBody <;> decide
        have found : ¬ ((rest ++ 0 :: tail).all (nonStop isBody) = true ∧
            (rest ++ 0 :: tail).length + 1 ≤ LD_MAX) := by
          simp [stop]
        have within : ((rest ++ 0 :: tail).takeWhile (nonStop isBody)).length ≤ rest.length := by
          rw [List.takeWhile_append]
          split
          · simp [stop]
          · exact (List.takeWhile_prefix _).length_le
        rw [List.cons_append, ssplit_eq, if_neg empty, if_neg found]
        refine ⟨_, ?_, rfl⟩
        rw [List.length_cons]
        omega

/-- After a line of `n` bytes, the loop goes on at most one byte behind it. -/
theorem recvLine_next (sock : Int) (curr : List UInt8) (n : Nat) (st : RecvState) :
    ∃ k ≤ n + 1, (recvLine env sock curr n st).1 = curr.drop k := by
  cases body : st.isBodyInput with
  | false => exact ⟨n + 1, Nat.le_refl _, recvLine_header_next body curr n⟩
  | true =>
      simp only [recvLine, body, if_true]
      split
      · split
        · exact ⟨n + 1, Nat.le_refl _, by rw [List.drop_drop]⟩
        · exact ⟨n, Nat.le_succ n, rfl⟩
      · exact ⟨n, Nat.le_succ n, rfl⟩

/-- Beside the reader, the loop comes to the place right behind a NUL. The induction is on the bytes
before this place. -/
theorem visits_nul {base : List Message} {tail more : List UInt8} :
    ∀ (length : Nat) (head : List UInt8) (reader : Reader) (st : RecvState), head.length = length →
      (head = [] ∨ ∃ text, head = text ++ [0]) → Tracks sock base reader st →
      SafeFrom reader (head ++ tail ++ more) →
      ∃ there, Passes env sock (head ++ tail, st) (tail, there) ∧
        Tracks sock base (feeds reader head) there := by
  intro length
  induction length using Nat.strong_induction_on with
  | _ length ih =>
      rintro head reader st rfl (rfl | ⟨text, rfl⟩) tracks safe
      · exact ⟨st, Relation.ReflTransGen.refl, tracks⟩
      · have curr : (text ++ [0]) ++ tail = text ++ 0 :: tail := by simp
        have nonempty : (text ++ [0]) ++ tail ≠ [] := by simp
        obtain ⟨n, within, split⟩ := ssplit_before_nul st.isBodyInput text tail
        obtain ⟨k, behind, next⟩ := recvLine_next env sock ((text ++ [0]) ++ tail) n st
        have pass : recvPass env sock ((text ++ [0]) ++ tail, st) =
            .again (recvLine env sock ((text ++ [0]) ++ tail) n st) :=
          recvPass_line (by rw [curr]; exact split) nonempty (Or.inl rfl)
        rcases tracks_pass env tracks nonempty safe with
          ⟨used, rest, st', parts, some, again, tracks'⟩ | ⟨st', leaves, -⟩
        · rw [pass] at again
          have here : recvLine env sock ((text ++ [0]) ++ tail) n st = (rest, st') :=
            Loop.Step.again.inj again
          obtain ⟨left, head⟩ : used <+: text ++ [0] := by
            apply List.prefix_of_prefix_length_le (parts ▸ List.prefix_append used rest)
              (List.prefix_append (text ++ [0]) tail)
            have restLength : rest.length = ((text ++ [0]) ++ tail).length - k := by
              rw [← List.length_drop, ← next, here]
            have total := congrArg List.length parts
            simp only [List.length_append, List.length_singleton] at total restLength ⊢
            omega
          have restIs : rest = left ++ tail := by
            rw [← head, List.append_assoc] at parts
            exact (List.append_cancel_left parts).symm
          have ends : left = [] ∨ ∃ text, left = text ++ [0] := by
            rcases List.eq_nil_or_concat left with none | ⟨before, b, rfl⟩
            · exact Or.inl none
            · rw [List.concat_eq_append, ← List.append_assoc] at head
              obtain ⟨-, last⟩ := List.append_inj' head rfl
              refine Or.inr ⟨before, ?_⟩
              rw [List.concat_eq_append, last]
          have shorter : left.length < (text ++ [0]).length := by
            have positive := List.length_pos_iff.mpr some
            rw [← head, List.length_append]
            omega
          have safeLeft : SafeFrom (feeds reader used) (left ++ tail ++ more) := by
            rw [← head, List.append_assoc, List.append_assoc] at safe
            rw [List.append_assoc]
            exact safe.after
          obtain ⟨there, reaches, tracksThere⟩ := ih left.length shorter left (feeds reader used) st'
            rfl ends tracks' safeLeft
          refine ⟨there, Relation.ReflTransGen.head ?_ reaches, ?_⟩
          · rw [pass, here, restIs]
          · rw [← head, feeds_append]
            exact tracksThere
        · rw [pass] at leaves
          cases leaves

/-- The chunk with the last byte of a part of the stream. -/
theorem exists_cut {chunks : List (List UInt8)} {before after : List UInt8}
    (whole : chunks.flatten = before ++ after) (nonempty : before ≠ []) :
    ∃ (done : List (List UInt8)) (head tail : List UInt8) (later : List (List UInt8)),
      chunks = done ++ (head ++ tail) :: later ∧ done.flatten ++ head = before ∧ head ≠ [] ∧
        tail ++ later.flatten = after := by
  induction chunks generalizing before with
  | nil =>
      exact absurd (List.append_eq_nil_iff.mp whole.symm).1 nonempty
  | cons chunk chunks ih =>
      rw [List.flatten_cons] at whole
      rcases List.append_eq_append_iff.mp whole with ⟨head, rfl, rest⟩ | ⟨tail, rfl, rest⟩
      · by_cases none : head = []
        · subst none
          rw [List.append_nil] at nonempty
          exact ⟨[], chunk, [], chunks, by simp, by simp, nonempty, by simpa using rest⟩
        · obtain ⟨done, head', tail, later, rfl, here, some, left⟩ := ih rest none
          exact ⟨chunk :: done, head', tail, later, rfl, by simp [← here], some, left⟩
      · exact ⟨[], before, tail, chunks, rfl, rfl, nonempty, rest.symm⟩

/-- The bytes of some frames end with a NUL. -/
theorem encodeAll_ends {frames : List ClientFrame} (some : frames ≠ []) :
    ∃ text, ClientFrame.encodeAll frames = text ++ [0] := by
  obtain ⟨before, last, rfl⟩ := (List.eq_nil_or_concat frames).resolve_left some
  refine ⟨ClientFrame.encodeAll before ++ ((last.command ++ optionalCr last.commandCr) ++ LF ::
    (WireFrame.encodeLines last.lines ++ (optionalCr last.blankCr ++ LF :: last.body))), ?_⟩
  simp [ClientFrame.encodeAll, ClientFrame.encode]

theorem encodeAll_append (before after : List ClientFrame) :
    ClientFrame.encodeAll (before ++ after) =
      ClientFrame.encodeAll before ++ ClientFrame.encodeAll after := by
  rw [ClientFrame.encodeAll, List.flatMap_append]
  rfl

/-- In one chunk. -/
theorem endsAtNul_whole {before after : List ClientFrame}
    (announced : ∀ frame ∈ before, frame.Announced) {st : RecvState}
    (idle : st.cinfo.frame = none) (saved : st.cinfo.prevData = none) :
    EndsAtNul env sock st [ClientFrame.encodeAll (before ++ after)] before := by
  obtain ⟨there, reaches, bucket⟩ := visits_clients env announced idle saved
    (ClientFrame.encodeAll after)
  refine ⟨[], ClientFrame.encodeAll before, ClientFrame.encodeAll after, [], st, there, ?_, rfl, rfl,
    reaches, bucket, fun more result ran => recvChunks_publishes env ran⟩
  rw [encodeAll_append]
  rfl

/-- In a cutting of a stream that is read alike however it is cut. -/
theorem endsAtNul_cut {before after : List ClientFrame} (some : before ≠ [])
    (announced : ∀ frame ∈ before, frame.Announced) {st : RecvState}
    (idle : st.cinfo.frame = none) (saved : st.cinfo.prevData = none) {chunks : List (List UInt8)}
    (whole : chunks.flatten = ClientFrame.encodeAll (before ++ after))
    (safe : CutSafe (ClientFrame.encodeAll (before ++ after))) :
    EndsAtNul env sock st chunks before := by
  rw [encodeAll_append] at whole safe
  obtain ⟨text, ends⟩ := encodeAll_ends some
  have nonempty : ClientFrame.encodeAll before ≠ [] := by
    rw [ends]
    simp
  obtain ⟨done, head, tail, later, rfl, here, begun, left⟩ := exists_cut whole nonempty
  have fresh : Tracks sock (st.bucket.map Frame.message) .start st := by
    refine .line [] rfl ?_ ?_ (Nat.zero_le _) rfl (List.append_nil _).symm
    · simp [AtLine, AtRest, prepareFrame, idle]
    · simp [Saved, saved]
  have safeAll : SafeFrom .start (done.flatten ++ (head ++ (tail ++ later.flatten))) := by
    rw [left, ← List.append_assoc, here]
    exact safe
  obtain ⟨first, returns, tracks⟩ := recvChunks_tracks env fresh safeAll
  have last : ∃ text, head = text ++ [0] := by
    obtain ⟨more, b, rfl⟩ := (List.eq_nil_or_concat head).resolve_left begun
    rw [ends, List.concat_eq_append, ← List.append_assoc] at here
    obtain ⟨-, same⟩ := List.append_inj' here rfl
    exact ⟨more, by rw [List.concat_eq_append, same]⟩
  obtain ⟨there, reaches, tracksThere⟩ := visits_nul env head.length head (feeds .start done.flatten)
    first rfl (Or.inr last) tracks (by
      have after := safeAll.after
      rwa [← List.append_assoc] at after)
  refine ⟨done, head, tail, later, first, there, rfl, here, returns, reaches, ?_,
    fun more result ran => recvChunks_publishes env ran⟩
  obtain ⟨messages, fed, length⟩ := feeds_clients announced []
  have count : there.bucket.map Frame.message = st.bucket.map Frame.message ++ ([] ++ messages) := by
    rw [← feeds_append, here, Reader.start, fed] at tracksThere
    cases tracksThere with
    | line _ _ _ _ _ _ bucket => exact bucket
    | lineEarly line isLine _ _ nonempty _ _ =>
        cases isLine
        exact absurd rfl nonempty
  have total := congrArg List.length count
  simpa [length] using total

def clientSend : ClientFrame where
  command := cstring "SEND"
  commandCr := false
  headers := [(cstring "destination:/queue/a", false), (cstring "content-length:2", true)]
  blankCr := false
  body := cstring "hi"
  command_known := sendHi.command_known
  header_text := by decide +kernel
  length_once := by decide
  length_value := by decide +kernel
  body_clean := by decide

/-- The same frame without a length header. -/
def silentSend : ClientFrame where
  command := cstring "SEND"
  commandCr := false
  headers := [(cstring "destination:/queue/a", false)]
  blankCr := false
  body := cstring "hi"
  command_known := sendHi.command_known
  header_text := by decide +kernel
  length_once := by decide
  length_value := by decide +kernel
  body_clean := by decide

def freshConnection : RecvState :=
  ⟨connInit ⟨fun _ => 0, fun _ _ => true⟩ 0, [], [], CONN_ID_LEN - 1⟩

end Newtmq
