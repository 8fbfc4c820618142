/-
Module: Newtmq.Proofs.ParseCuts
Purpose: A frame given to `parse_frame` in two parts is parsed exactly at the cuts of `ResumableCut`.
  Elsewhere the first call leaves its memory, or the second one gives another frame: a header line is
  stored in two parts, the LF of a header line is taken for the blank line, or there are too few bytes
  left for the frame.
Trusted boundary: none
Main exports: cut_in_lines, ResumesWith, not_cut_in_command, not_cut_in_body, cut_before_lf_iff,
  resumes_iff_resumableCut
-/
import Newtmq.Proofs.ParseEnds
import Newtmq.Spec.ParseCuts

namespace Newtmq

variable (rand : Nat → Nat)

/-! ### Where a cut falls -/

theorem cut_in_line {first second line rest : List UInt8}
    (cut : first ++ second = line ++ LF :: rest) :
    (∃ n, n < line.length ∧ first = line.take n ∧ second = line.drop n ++ LF :: rest) ∨
      (first = line ∧ second = LF :: rest) ∨
      ∃ more, first = line ++ LF :: more ∧ more ++ second = rest := by
  rcases List.append_eq_append_iff.mp cut with ⟨tail, rfl, rfl⟩ | ⟨more, rfl, same⟩
  · cases tail with
    | nil =>
        rw [List.append_nil, List.nil_append]
        exact Or.inr (Or.inl ⟨rfl, rfl⟩)
    | cons c tail =>
        refine Or.inl ⟨first.length, ?_, ?_, ?_⟩
        · rw [List.length_append, List.length_cons]
          omega
        · rw [List.take_left]
        · rw [List.drop_left]
  · cases more with
    | nil =>
        rw [List.append_nil]
        exact Or.inr (Or.inl ⟨rfl, same.symm⟩)
    | cons c more =>
        rw [List.cons_append, List.cons.injEq] at same
        obtain ⟨rfl, same⟩ := same
        exact Or.inr (Or.inr ⟨more, rfl, same.symm⟩)

theorem cut_in_lines {second rest : List UInt8} :
    ∀ (lines : List (List UInt8)) {first : List UInt8},
      first ++ second = WireFrame.encodeLines lines ++ rest →
      (∃ done line todo n, lines = done ++ line :: todo ∧ n < line.length ∧
          first = WireFrame.encodeLines done ++ line.take n ∧
          second = line.drop n ++ LF :: (WireFrame.encodeLines todo ++ rest)) ∨
        (∃ done line todo, lines = done ++ line :: todo ∧
          first = WireFrame.encodeLines done ++ line ∧
          second = LF :: (WireFrame.encodeLines todo ++ rest)) ∨
        ∃ more, first = WireFrame.encodeLines lines ++ more ∧ more ++ second = rest := by
  intro lines
  induction lines with
  | nil =>
      intro first cut
      exact Or.inr (Or.inr ⟨first, rfl, cut⟩)
  | cons line lines ih =>
      intro first cut
      rw [WireFrame.encodeLines_cons, List.append_assoc, List.cons_append] at cut
      rcases cut_in_line cut with ⟨n, inside, rfl, rfl⟩ | ⟨rfl, rfl⟩ | ⟨more, rfl, later⟩
      · exact Or.inl ⟨[], line, lines, n, rfl, inside, rfl, rfl⟩
      · exact Or.inr (Or.inl ⟨[], first, lines, rfl, rfl, rfl⟩)
      · rcases ih later with ⟨done, l, todo, n, rfl, inside, rfl, rfl⟩ | ⟨done, l, todo, rfl, rfl, rfl⟩ |
          ⟨tail, rfl, rfl⟩
        · refine Or.inl ⟨line :: done, l, todo, n, rfl, inside, ?_, rfl⟩
          rw [WireFrame.encodeLines_cons, List.append_assoc, List.cons_append]
        · refine Or.inr (Or.inl ⟨line :: done, l, todo, rfl, ?_, rfl⟩)
          rw [WireFrame.encodeLines_cons, List.append_assoc, List.cons_append]
        · refine Or.inr (Or.inr ⟨tail, ?_, rfl⟩)
          rw [WireFrame.encodeLines_cons, List.append_assoc, List.cons_append]

/-- The bytes after the header lines `done`. -/
theorem encode_split {sent : WireFrame} {done todo : List (List UInt8)}
    (split : sent.headers = done ++ todo) :
    sent.encode = (sent.command ++ LF :: WireFrame.encodeLines done) ++
      (WireFrame.encodeLines todo ++ LF :: (sent.body ++ [0])) := by
  simp [WireFrame.encode, split, WireFrame.encodeLines]

/-- The bytes after the header line `line`, from its LF on. -/
theorem encode_split_line {sent : WireFrame} {done todo : List (List UInt8)} {line : List UInt8}
    (split : sent.headers = done ++ line :: todo) :
    sent.encode = (sent.command ++ LF :: (WireFrame.encodeLines done ++ line)) ++
      (LF :: (WireFrame.encodeLines todo ++ LF :: (sent.body ++ [0]))) := by
  simp [WireFrame.encode, split, WireFrame.encodeLines]

/-! ### The two calls -/

/-- The call with the first part does not complete the frame, and the call with the second part gives
a frame that carries `sent`. -/
def ResumesWith (sent : WireFrame) (rands : Nat) (first second : List UInt8) : Prop :=
  ∃ begun ended,
    parseFrame rand first first.length allocFrame none rands = some (.error, begun) ∧
    parseFrame rand second second.length begun.frame begun.prevBuffer begun.rands =
      some (.success, ended) ∧
    ended.frame.Carries sent

theorem resumes_iff_with {sent : WireFrame} {first second : List UInt8}
    (cut : first ++ second = sent.encode) (rands : Nat) :
    Resumes rand rands first second ↔ ResumesWith rand sent rands first second := by
  obtain ⟨whole, parsed, carries, -⟩ :=
    parseFrame_encode rand sent.encode.length sent [] rands (Nat.le_refl _)
  rw [List.append_nil] at parsed
  constructor
  · rintro ⟨begun, ended, other, one, two, both, name, headers, body⟩
    rw [cut, parsed] at both
    cases both
    exact ⟨begun, ended, one, two, name.trans carries.name, headers.trans carries.headers,
      body.trans carries.body⟩
  · rintro ⟨begun, ended, one, two, carries'⟩
    refine ⟨begun, ended, whole, one, two, ?_, ?_, ?_, ?_⟩
    · rw [cut]
      exact parsed
    · exact carries'.name.trans carries.name.symm
    · exact carries'.headers.trans carries.headers.symm
    · exact carries'.body.trans carries.body.symm

/-- When the first call ends with `begun`, the second call decides. -/
theorem resumesWith_iff {sent : WireFrame} {rands : Nat} {first second : List UInt8}
    {begun : ParseState}
    (one : parseFrame rand first first.length allocFrame none rands = some (.error, begun)) :
    ResumesWith rand sent rands first second ↔
      ∃ ended, parseFrame rand second second.length begun.frame begun.prevBuffer begun.rands =
        some (.success, ended) ∧ ended.frame.Carries sent := by
  constructor
  · rintro ⟨other, ended, one', two, carries⟩
    rw [one] at one'
    cases one'
    exact ⟨ended, two, carries⟩
  · rintro ⟨ended, two, carries⟩
    exact ⟨begun, ended, one, two, carries⟩

theorem not_resumesWith_of_none {sent : WireFrame} {rands : Nat} {first second : List UInt8}
    (lost : parseFrame rand first first.length allocFrame none rands = none) :
    ¬ ResumesWith rand sent rands first second := by
  rintro ⟨begun, ended, one, -⟩
  rw [lost] at one
  cases one

/-! ### Each cut -/

section Cuts

variable {sent : WireFrame} {done todo : List (List UInt8)} {line : List UInt8} (rands : Nat)

/-- The first call has read the command line and some header lines, and comes to the rest of its
part. -/
theorem firstCall_headers (part : List UInt8) (split : sent.headers = done ++ todo) :
    ∃ known frame place offset, HeaderRead sent known done todo frame ∧ 0 < place ∧
      (sent.command ++ LF :: (WireFrame.encodeLines done ++ part)).drop place = part ∧
      (sent.command ++ LF :: (WireFrame.encodeLines done ++ part)).length = place + part.length ∧
      parseFrame rand (sent.command ++ LF :: (WireFrame.encodeLines done ++ part))
          (sent.command ++ LF :: (WireFrame.encodeLines done ++ part)).length allocFrame none rands =
        parseFrom rand (sent.command ++ LF :: (WireFrame.encodeLines done ++ part))
          (sent.command ++ LF :: (WireFrame.encodeLines done ++ part)).length
          (readingAt place frame offset rands) := by
  have read := nameFrame_read sent
  rw [split] at read
  have sized : (sent.command ++ LF :: (WireFrame.encodeLines done ++ part)).length =
      sent.command.length + 1 + (WireFrame.encodeLines done).length + part.length := by
    simp only [List.length_append, List.length_cons]
    omega
  have next : (sent.command ++ LF :: (WireFrame.encodeLines done ++ part)).drop
      (sent.command.length + 1) = WireFrame.encodeLines done ++ part := by
    rw [← List.drop_drop, List.drop_left, List.drop_one, List.tail_cons]
  obtain ⟨known, frame, offset, read', goes⟩ := parseFrom_headers rand
    (sent.command ++ LF :: (WireFrame.encodeLines done ++ part)).length rands done
    ((sent.command.length + 1 : Nat) + 1) read next (by omega)
  refine ⟨known, frame, _, offset, read', ?_, ?_, sized, ?_⟩
  · exact Nat.lt_of_lt_of_le (Nat.succ_pos _) (Nat.le_add_right _ _)
  · rw [← List.drop_drop, next, List.drop_left]
  · rw [parseFrame_eq, parseFrom_command rand _ sent rands rfl (by omega), goes]

/-- The second call goes on in the header. -/
theorem secondCall_headers {known : Bool} {frame : Frame} (read : HeaderRead sent known done todo frame)
    {second : List UInt8} (here : second = WireFrame.encodeLines todo ++ LF :: (sent.body ++ [0])) :
    ∃ ended, parseFrame rand second second.length frame none rands = some (.success, ended) ∧
      ended.frame.Carries sent := by
  have start : second.drop 0 = WireFrame.encodeLines todo ++ LF :: (sent.body ++ [0]) := here
  have sized := congrArg List.length here
  simp only [List.length_append, List.length_cons, List.length_nil] at sized
  obtain ⟨ended, parsed, carries, -⟩ := read.reads rand second.length (-1) rands start (by omega)
  exact ⟨ended, parsed, carries⟩

/-- It passes over the LF of the line before, when no length is known. -/
theorem secondCall_lf {frame : Frame} (read : HeaderRead sent false done todo frame)
    {second : List UInt8}
    (here : second = LF :: (WireFrame.encodeLines todo ++ LF :: (sent.body ++ [0]))) :
    ∃ ended, parseFrame rand second second.length frame none rands = some (.success, ended) ∧
      ended.frame.Carries sent := by
  have unknown := read.contentlen
  rw [if_neg Bool.false_ne_true] at unknown
  have start : second.drop 0 = LF :: (WireFrame.encodeLines todo ++ LF :: (sent.body ++ [0])) := here
  have next : second.drop (0 + 1) = WireFrame.encodeLines todo ++ LF :: (sent.body ++ [0]) := by
    rw [here]
    rfl
  have sized := congrArg List.length here
  simp only [List.length_append, List.length_cons, List.length_nil] at sized
  have goes := parseFrom_blank rand second.length (-1) rands start (by omega) read.status (by omega)
  rw [if_neg (by omega)] at goes
  obtain ⟨ended, parsed, carries, -⟩ := read.reads rand second.length _ rands next (by omega)
  exact ⟨ended, goes.trans parsed, carries⟩

theorem not_cut_in_command {n : Nat} (positive : 0 < n) (inside : n < sent.command.length)
    (nonempty : sent.body ≠ []) {second : List UInt8}
    (cut : sent.command.take n ++ second = sent.encode) :
    ¬ ResumesWith rand sent rands (sent.command.take n) second := by
  have header := (command_line sent.command_known).take positive
  have sized : (sent.command.take n).length = n := List.length_take_of_le (Nat.le_of_lt inside)
  have unknown : findFrameName (sent.command.take n) n finfoArr = none := by
    rw [findFrameName_eq_none]
    intro w known short pre
    have same := finfoArr_prefix_free w known _ sent.command_known
      (pre.trans (List.take_prefix n sent.command))
    rw [same] at short
    omega
  have update : frameUpdate (parseFinish rand rands) (sent.command.take n)
      (sent.command.take n).length allocFrame = (-1, allocFrame) := by
    rw [sized]
    simp [frameUpdate, allocFrame, frameSetname, unknown]
  have start : (sent.command.take n).drop 0 = sent.command.take n := rfl
  obtain ⟨place, offset, one⟩ := parseFrom_part rand (-1) rands start header.nonempty
    allocFrame_not_body (ssplit_open header.text header.short)
    (by simp [updateInside, allocFrame_status]) update (by omega)
  rw [resumesWith_iff rand one]
  rintro ⟨ended, two, carries⟩
  rcases parseFrame_held rand two with noData | held
  · have body := carries.body
    rw [noData] at body
    exact nonempty body.symm
  · have total := congrArg List.length cut
    have enough := carries.held
    rw [List.length_append, sized] at total
    omega

theorem cut_after_command {second : List UInt8} (cut : sent.command ++ second = sent.encode) :
    ResumesWith rand sent rands sent.command second := by
  have header := command_line sent.command_known
  have known := findFrameName_of_known sent.command_known (Nat.le_refl _)
    (List.prefix_refl sent.command)
  have update : frameUpdate (parseFinish rand rands) sent.command sent.command.length allocFrame =
      (0, nameFrame sent) := by
    simp [frameUpdate, allocFrame, frameSetname, known, nameFrame]
  have start : sent.command.drop 0 = sent.command := rfl
  obtain ⟨place, offset, one⟩ := parseFrom_part rand (-1) rands start header.nonempty
    allocFrame_not_body (ssplit_open header.text header.short)
    (by simp [updateInside, allocFrame_status]) update (Int.le_refl 0)
  rw [resumesWith_iff rand one]
  exact secondCall_lf rand rands (nameFrame_read sent) (List.append_cancel_left cut)

theorem cut_after_lines (split : sent.headers = done ++ todo) :
    ResumesWith rand sent rands (sent.command ++ LF :: (WireFrame.encodeLines done ++ []))
      (WireFrame.encodeLines todo ++ LF :: (sent.body ++ [0])) := by
  obtain ⟨known, frame, place, offset, read, -, -, sized, goes⟩ :=
    firstCall_headers rand rands [] split
  have one := goes.trans (parseFrom_end rand _ (by rw [sized]; exact Nat.le_refl _) frame offset rands)
  rw [resumesWith_iff rand one]
  exact secondCall_headers rand rands read rfl

theorem not_cut_in_header (split : sent.headers = done ++ line :: todo) {n : Nat} (positive : 0 < n)
    (inside : n < line.length) (second : List UInt8) :
    ¬ ResumesWith rand sent rands
      (sent.command ++ LF :: (WireFrame.encodeLines done ++ line.take n)) second := by
  obtain ⟨known, frame, place, offset, read, -, here, -, goes⟩ :=
    firstCall_headers rand rands (line.take n) split
  have part := read.line_ok.1.take positive
  have sized : (line.take n).length = n := List.length_take_of_le (Nat.le_of_lt inside)
  have opens := ssplit_open part.text part.short
  cases known' : updateInside (line.take n) (line.take n).length frame with
  | false =>
      apply not_resumesWith_of_none
      rw [goes]
      exact parseFrom_part_none rand offset rands here part.nonempty read.not_body opens known'
  | true =>
      have text := part.not_newline []
      rw [List.append_nil] at text
      have update : frameUpdate (parseFinish rand rands) (line.take n) (line.take n).length frame =
          (0, frameHeaderLine (line.take n) (line.take n).length frame) := by
        simp only [frameUpdate, read.status, text, Bool.false_and, Bool.false_eq_true, if_false]
      obtain ⟨place', offset', one⟩ := parseFrom_part rand offset rands here part.nonempty read.not_body
        opens known' update (Int.le_refl 0)
      rw [resumesWith_iff rand (goes.trans one)]
      rintro ⟨ended, two, carries⟩
      have spoiled := read.spoiled_part positive inside
      rw [sized] at two
      have begun : Spoiled sent.headers
          (readingAt 0 (frameHeaderLine (line.take n) n frame) (-1) rands).frame := spoiled
      exact (parseFrom_spoiled rand begun two).2 carries.headers

theorem cut_after_blank (nonempty : sent.body ≠ []) :
    ResumesWith rand sent rands (sent.command ++ LF :: (WireFrame.encodeLines sent.headers ++ [LF]))
      (sent.body ++ [0]) := by
  obtain ⟨known, frame, place, offset, read, -, here, sized, goes⟩ :=
    firstCall_headers rand rands [LF] (List.append_nil sent.headers).symm
  have announced := read.contentlen
  rw [read.known_at_end, if_pos rfl] at announced
  have positive := List.length_pos_iff.mpr nonempty
  rw [List.length_singleton] at sized
  have blank := parseFrom_blank rand (sent.command ++ LF ::
    (WireFrame.encodeLines sent.headers ++ [LF])).length offset rands here (by omega) read.status
    (by omega)
  rw [if_pos (by omega)] at blank
  have one := goes.trans (blank.trans (parseFrom_end rand _ (by rw [sized]) _ _ rands))
  rw [resumesWith_iff rand one]
  have start : (sent.body ++ [0]).drop 0 = sent.body ++ 0 :: [] := rfl
  obtain ⟨ended, parsed, carries, -⟩ := read.startBody.reads rand (sent.body ++ [0]).length (-1) rands
    nonempty start (by rw [List.length_append, List.length_singleton]; omega)
  exact ⟨ended, parsed, carries⟩

theorem not_cut_in_body {part : List UInt8} (nonempty : part ≠ []) (inside : part <+: sent.body)
    (second : List UInt8) :
    ¬ ResumesWith rand sent rands
      (sent.command ++ LF :: (WireFrame.encodeLines sent.headers ++ LF :: part)) second := by
  obtain ⟨known, frame, place, offset, read, started, here, sized, goes⟩ :=
    firstCall_headers rand rands (LF :: part) (List.append_nil sent.headers).symm
  have announced := read.contentlen
  rw [read.known_at_end, if_pos rfl] at announced
  have positive := List.length_pos_iff.mpr nonempty
  have short := inside.length_le
  rw [List.length_cons] at sized
  have blank := parseFrom_blank rand (sent.command ++ LF ::
    (WireFrame.encodeLines sent.headers ++ LF :: part)).length offset rands here (by omega) read.status
    (by omega)
  rw [if_pos (by omega)] at blank
  have body := read.startBody
  have next : (sent.command ++ LF :: (WireFrame.encodeLines sent.headers ++ LF :: part)).drop
      (place + 1) = part := by
    rw [← List.drop_drop, here, List.drop_one, List.tail_cons]
  apply not_resumesWith_of_none
  rw [goes, blank]
  exact parseFrom_openBody rand rands _ _ rfl nonempty (fun mem => sent.body_clean (inside.mem mem))
    body.status (by rw [body.received, body.contentlen]; omega)
    (by rw [body.contentlen]; have := sent.body_bound; omega) (Int.le_of_eq body.received.symm) next
    (Nat.succ_pos _)

/-- The first call stores a header line without its LF, unless the line announces the length. -/
theorem firstCall_before_lf (split : sent.headers = done ++ line :: todo) :
    (isLengthHeader line = true ∧
      parseFrame rand (sent.command ++ LF :: (WireFrame.encodeLines done ++ line))
        (sent.command ++ LF :: (WireFrame.encodeLines done ++ line)).length allocFrame none rands =
          none) ∨
    (isLengthHeader line = false ∧ ∃ known frame place offset,
      HeaderRead sent known (done ++ [line]) todo frame ∧
      parseFrame rand (sent.command ++ LF :: (WireFrame.encodeLines done ++ line))
        (sent.command ++ LF :: (WireFrame.encodeLines done ++ line)).length allocFrame none rands =
          some (.error, readingAt place frame offset rands)) := by
  obtain ⟨known, frame, place, offset, read, -, here, -, goes⟩ :=
    firstCall_headers rand rands line split
  obtain ⟨header, -⟩ := read.line_ok
  have opens := ssplit_open header.text header.short
  cases announces : isLengthHeader line with
  | true =>
      refine Or.inl ⟨rfl, ?_⟩
      rw [goes]
      exact parseFrom_part_none rand offset rands here header.nonempty read.not_body opens
        (updateInside_cut read announces)
  | false =>
      have text := header.not_newline []
      rw [List.append_nil] at text
      have update : frameUpdate (parseFinish rand rands) line line.length frame =
          (0, storeHeader sent line frame) := by
        simp only [frameUpdate, read.status, text, Bool.false_and, Bool.false_eq_true, if_false,
          frameHeaderLine_alone sent header announces]
      have inside : updateInside line line.length frame = true := by
        rw [isLengthHeader] at announces
        simp [updateInside, isContentlen, announces]
      obtain ⟨place', offset', one⟩ := parseFrom_part rand offset rands here header.nonempty
        read.not_body opens inside update (Int.le_refl 0)
      exact Or.inr ⟨rfl, _, _, place', offset', read.store, goes.trans one⟩

/-- When a length is known, the second call takes the LF for the blank line. -/
theorem secondCall_blank {frame : Frame} (read : HeaderRead sent true done todo frame)
    (nonempty : sent.body ≠ []) {second tail : List UInt8} (here : second = LF :: tail) :
    parseFrame rand second second.length frame none rands =
      parseFrom rand second second.length (readingAt 1 (startBody frame) (1 + 1) rands) := by
  have announced := read.contentlen
  rw [if_pos rfl] at announced
  have positive := List.length_pos_iff.mpr nonempty
  have start : second.drop 0 = LF :: tail := here
  have blank := parseFrom_blank rand second.length (-1) rands start
    (by rw [here, List.length_cons]; omega) read.status (by omega)
  rwa [if_pos (by omega)] at blank

theorem shifted_eq_iff {x : UInt8} {body : List UInt8} :
    (x :: body).take body.length = body ↔ ∀ c ∈ body, c = x := by
  induction body generalizing x with
  | nil => simp
  | cons c body ih =>
      rw [List.length_cons, List.take_succ_cons, List.cons.injEq, ih, List.forall_mem_cons]
      constructor
      · rintro ⟨rfl, same⟩
        exact ⟨rfl, same⟩
      · rintro ⟨rfl, same⟩
        exact ⟨rfl, same⟩

theorem piecesEnd_eq_iff (n : Nat) : piecesEnd n = n ↔ LD_MAX ∣ n := by
  unfold piecesEnd LD_MAX
  omega

/-- Of a body after an LF that is taken for a byte of it, the pieces are the body exactly when they end
with the last byte that was announced, and all bytes of the body are LFs. -/
theorem pieces_eq_iff (body : List UInt8) :
    (LF :: body).take (piecesEnd body.length) = body ↔
      LD_MAX ∣ body.length ∧ ∀ c ∈ body, c = LF := by
  rw [← piecesEnd_eq_iff]
  have enough := le_piecesEnd body.length
  constructor
  · intro same
    have sized := congrArg List.length same
    rw [List.length_take, List.length_cons] at sized
    have ends : piecesEnd body.length = body.length := by omega
    rw [ends] at same
    exact ⟨ends, shifted_eq_iff.mp same⟩
  · rintro ⟨ends, newlines⟩
    rw [ends]
    exact shifted_eq_iff.mpr newlines

/-- A NUL in a body that is not complete is passed over. -/
theorem parsePass_nul {memory tail : List UInt8} {inputLen place : Nat} {frame : Frame} (offset : Int)
    (here : memory.drop place = 0 :: tail) (fits : place < inputLen) (body : frame.status = .inputBody)
    (incomplete : ¬ frame.contentlen ≤ frame.hasContentlen) :
    parsePass rand memory inputLen (readingAt place frame offset rands) =
      .again (readingAt (place + 1) frame ((place + 1 : Nat) + 1) rands) := by
  have found : ssplitIn (memory.drop place) (inputLen - place) (frame.status = .inputBody) =
      some (.success, 0) := by
    have empty : memory.drop place = [] ++ 0 :: tail := here
    rw [empty, decide_eq_true body]
    exact ssplitIn_found (fun rest => ssplit_empty rest (by decide)) (by rw [List.length_nil]; omega) tail
  have within : (readingAt place frame offset rands).curr < inputLen := fits
  rw [parsePass_line rand within rfl found (Or.inl rfl)]
  simp [readingAt, here, updateInside, body, frameUpdate, frameBodyPiece, incomplete, isBl]

/-- A body of one byte more than announced that has the largest length: the count of its bytes is no
longer positive, and the frame is not completed. -/
theorem parseFrom_wrapped {text : List UInt8} {place : Nat} {frame : Frame} {memory : List UInt8}
    (offset : Int) (clean : (0 : UInt8) ∉ text) (body : frame.status = .inputBody)
    (announced : frame.contentlen = 2147483647) (received : frame.hasContentlen = 0)
    (exceeds : text.length = 2147483648) (here : memory.drop place = text ++ 0 :: []) :
    ∃ parsed, parseFrom rand memory memory.length (readingAt place frame offset rands) =
      some (.error, parsed) := by
  have sized : memory.length - place = text.length + 1 := by
    rw [← List.length_drop, here, List.length_append, List.length_singleton]
  obtain ⟨frame', place', offset', piece, t, tail', goes, -, -, body', announced', count, -, ends,
      nonempty, clean', here', fits', split⟩ :=
    parseFrom_pieces rand memory.length rands 2147483647 offset (by omega) (by omega) clean body
      (by rw [announced, received]; rfl) (Int.le_of_eq received.symm) (by omega) here (by omega)
  have whole : text.take (piecesEnd 2147483647) = text :=
    List.take_of_length_le (by rw [exceeds]; decide)
  rw [whole, exceeds] at count ends
  have grows := frameBodyPiece_grows frame' (t :: tail') nonempty
  have wrapped : wrap32 (frame'.hasContentlen + piece.length) = -2147483648 := by
    rw [count, received]
    decide
  have pass := parsePass_piece rand memory.length offset' rands here' fits' body' nonempty clean' split
  rw [wrapped, announced', announced, if_neg (by decide), ends] at pass
  rw [goes, parseFrom_again rand pass]
  have left : memory.drop (place + 2147483648) = 0 :: [] := by
    rw [← exceeds, ← List.drop_drop, here, List.drop_left]
  have last : memory.length = place + 2147483648 + 1 := by omega
  generalize place + 2147483648 = final at left last ⊢
  have within : final < memory.length := by omega
  have nul := parsePass_nul rand rands (final + 1) left within (grows.status.trans body') (by
    rw [grows.contentlen, grows.received, wrapped, announced', announced]
    decide)
  exact ⟨_, (parseFrom_again rand nul).trans
    (parseFrom_end rand memory (Nat.le_of_eq last) _ _ rands)⟩

/-- The LF of the last header line is read as the first byte of the body. -/
theorem secondCall_lf_in_body {frame : Frame} (read : HeaderRead sent true done [] frame)
    (nonempty : sent.body ≠ []) :
    (∃ ended, parseFrame rand (LF :: LF :: (sent.body ++ [0]))
        (LF :: LF :: (sent.body ++ [0])).length frame none rands = some (.success, ended) ∧
      ended.frame.Carries sent) ↔ LD_MAX ∣ sent.body.length ∧ ∀ c ∈ sent.body, c = LF := by
  have body := read.startBody
  have bound := sent.body_bound
  have clean : (0 : UInt8) ∉ LF :: sent.body := by
    rw [List.mem_cons, not_or]
    exact ⟨by decide, sent.body_clean⟩
  have next : (LF :: LF :: (sent.body ++ [0])).drop 1 = (LF :: sent.body) ++ 0 :: [] := rfl
  rw [secondCall_blank rand rands read nonempty rfl]
  by_cases most : sent.body.length = 2147483647
  · obtain ⟨parsed, unfinished⟩ := parseFrom_wrapped rand rands (1 + 1) clean body.status
      (by rw [body.contentlen, most]; rfl) body.received (by rw [List.length_cons, most]) next
    rw [unfinished, most]
    constructor
    · rintro ⟨ended, same, -⟩
      cases same
    · rintro ⟨divides, -⟩
      exact absurd divides (by decide)
  · obtain ⟨ended, parsed, name, attrs, data, -⟩ := parseFrom_body rand
      (LF :: LF :: (sent.body ++ [0])).length rands sent.body.length (1 + 1)
      (List.length_pos_iff.mpr nonempty) (by simp) clean body.status
      (by rw [body.received, body.contentlen, Int.zero_add]) (Int.le_of_eq body.received.symm)
      (by rw [body.received, List.length_cons]; omega) next
      (by simp only [List.length_cons, List.length_append, List.length_nil]; omega)
    rw [body.data] at data
    have held : (entryLines ended.frame.hData).flatten =
      (LF :: sent.body).take (piecesEnd sent.body.length) := data
    rw [parsed]
    constructor
    · rintro ⟨other, same, carries⟩
      cases same
      exact (pieces_eq_iff sent.body).mp (held.symm.trans carries.body)
    · intro exotic
      refine ⟨ended, rfl, name.trans body.name, ?_, ?_⟩
      · rw [attrs, body.lines]
      · exact held.trans ((pieces_eq_iff sent.body).mpr exotic)

/-- With further header lines to come, the body begins too early. -/
theorem secondCall_lf_early {frame : Frame} (read : HeaderRead sent true done todo frame)
    (nonempty : sent.body ≠ []) (left : todo ≠ []) {second tail : List UInt8}
    (here : second = LF :: tail) {ended : ParseState}
    (parsed : parseFrame rand second second.length frame none rands = some (.success, ended)) :
    ¬ ended.frame.Carries sent := by
  intro carries
  rw [secondCall_blank rand rands read nonempty here] at parsed
  have missing : done ≠ sent.headers := by
    intro same
    have split := read.split
    rw [← same, List.self_eq_append_right] at split
    exact left split
  have begun : Spoiled sent.headers (readingAt 1 (startBody frame) (1 + 1) rands).frame :=
    Or.inr ⟨rfl, fun same => missing (read.lines.symm.trans same)⟩
  exact (parseFrom_spoiled rand begun parsed).2 carries.headers

theorem cut_before_lf_iff (split : sent.headers = done ++ line :: todo) (nonempty : sent.body ≠ []) :
    ResumesWith rand sent rands (sent.command ++ LF :: (WireFrame.encodeLines done ++ line))
        (LF :: (WireFrame.encodeLines todo ++ LF :: (sent.body ++ [0]))) ↔
      isLengthHeader line = false ∧ (done.countP isLengthHeader = 0 ∨
        (todo = [] ∧ LD_MAX ∣ sent.body.length ∧ ∀ c ∈ sent.body, c = LF)) := by
  rcases firstCall_before_lf rand rands split with
    ⟨announces, lost⟩ | ⟨silent, known, frame, place, offset, read, one⟩
  · constructor
    · exact fun resumes => absurd resumes (not_resumesWith_of_none rand lost)
    · rintro ⟨silent, -⟩
      rw [announces] at silent
      cases silent
  · rw [resumesWith_iff rand one]
    have before := read.known_iff
    rw [List.countP_append, List.countP_singleton, silent, if_neg Bool.false_ne_true,
      Nat.add_zero] at before
    cases known with
    | false =>
        have unknown : done.countP isLengthHeader = 0 := by
          by_contra some
          exact Bool.false_ne_true (before.mpr (Nat.pos_of_ne_zero some))
        constructor
        · exact fun _ => ⟨silent, Or.inl unknown⟩
        · exact fun _ => secondCall_lf rand rands read rfl
    | true =>
        have positive := before.mp rfl
        constructor
        · rintro ⟨ended, parsed, carries⟩
          by_cases left : todo = []
          · subst left
            exact ⟨silent, Or.inr ⟨rfl,
              (secondCall_lf_in_body rand rands read nonempty).mp ⟨ended, parsed, carries⟩⟩⟩
          · exact absurd carries (secondCall_lf_early rand rands read nonempty left rfl parsed)
        · rintro ⟨-, unknown | ⟨rfl, exotic⟩⟩
          · omega
          · exact (secondCall_lf_in_body rand rands read nonempty).mpr exotic

end Cuts

/-- `parse_frame` goes on with the second part of a frame exactly at the cuts of `ResumableCut`. -/
theorem resumes_iff_resumableCut (rands : Nat) (sent : WireFrame) (nonempty : sent.body ≠ [])
    {first second : List UInt8} (cut : first ++ second = sent.encode) (begins : first ≠ [])
    (goesOn : second ≠ []) :
    Resumes rand rands first second ↔ ResumableCut sent first := by
  rw [resumes_iff_with rand cut]
  constructor
  · intro resumes
    rcases cut_in_line cut with ⟨n, inside, rfl, -⟩ | ⟨rfl, -⟩ | ⟨more, rfl, later⟩
    · have positive : 0 < n := by
        rw [Nat.pos_iff_ne_zero]
        rintro rfl
        exact begins (List.take_zero)
      exact absurd resumes (not_cut_in_command rand rands positive inside nonempty cut)
    · exact .afterCommand
    · rcases cut_in_lines sent.headers later with
        ⟨done, line, todo, n, split, inside, rfl, -⟩ | ⟨done, line, todo, split, rfl, rfl⟩ |
          ⟨blank, rfl, rest⟩
      · cases n with
        | zero =>
            rw [List.take_zero, List.append_nil]
            exact .afterLines done (line :: todo) split
        | succ n =>
            exact absurd resumes (not_cut_in_header rand rands split (Nat.succ_pos n) inside second)
      · obtain ⟨silent, unknown | ⟨rfl, pieces, newlines⟩⟩ :=
          (cut_before_lf_iff rand rands split nonempty).mp resumes
        · exact .beforeLf done line todo split silent unknown
        · have one := sent.one_length
          rw [split, List.countP_append, List.countP_singleton, silent,
            if_neg Bool.false_ne_true] at one
          exact .beforeLastLf done line split (by omega) pieces newlines
      · cases blank with
        | nil =>
            rw [List.append_nil]
            exact .afterLines sent.headers [] (List.append_nil _).symm
        | cons c part =>
            rw [List.cons_append, List.cons.injEq] at rest
            obtain ⟨rfl, rest⟩ := rest
            by_cases none : part = []
            · rw [none]
              exact .afterBlank
            · have inside : part <+: sent.body := by
                rcases List.prefix_concat_iff.mp ⟨second, rest⟩ with all | inside
                · rw [all] at rest
                  exact absurd (List.append_right_eq_self.mp rest) goesOn
                · exact inside
              exact absurd resumes (not_cut_in_body rand rands none inside second)
  · intro good
    cases good with
    | afterCommand => exact cut_after_command rand rands cut
    | afterLines done todo split =>
        rw [encode_split split] at cut
        obtain rfl := List.append_cancel_left cut
        have resumes := cut_after_lines rand rands split
        rwa [List.append_nil] at resumes
    | beforeLf done line todo split silent unknown =>
        rw [encode_split_line split] at cut
        obtain rfl := List.append_cancel_left cut
        exact (cut_before_lf_iff rand rands split nonempty).mpr ⟨silent, Or.inl unknown⟩
    | beforeLastLf done line split known pieces newlines =>
        have one := sent.one_length
        rw [split, List.countP_append, List.countP_singleton] at one
        have silent : isLengthHeader line = false := by
          rw [← Bool.not_eq_true]
          intro announces
          rw [if_pos announces] at one
          omega
        rw [encode_split_line split] at cut
        obtain rfl := List.append_cancel_left cut
        exact (cut_before_lf_iff rand rands split nonempty).mpr
          ⟨silent, Or.inr ⟨rfl, pieces, newlines⟩⟩
    | afterBlank =>
        have whole : sent.encode =
            (sent.command ++ LF :: (WireFrame.encodeLines sent.headers ++ [LF])) ++ (sent.body ++ [0]) := by
          simp [WireFrame.encode]
        rw [whole] at cut
        obtain rfl := List.append_cancel_left cut
        exact cut_after_blank rand rands nonempty

/-- A small frame cut after its first header line. -/
theorem resumes_after_header :
    Resumes (fun _ => 0) 0 (cstring "SEND\ndestination:/queue/a\n")
      (cstring "content-length:2\n\nhi" ++ [0]) := by
  apply (resumes_iff_resumableCut (fun _ => 0) 0 sendHi (by decide) (by decide +kernel) (by decide)
    (by decide)).mpr
  exact .afterLines [cstring "destination:/queue/a"] [cstring "content-length:2"] rfl

/-- The same frame cut in its body. -/
theorem resume_fails_in_body :
    sendHi.body ≠ [] ∧
      (cstring "SEND\ndestination:/queue/a\ncontent-length:2\n\nh") ++ (cstring "i" ++ [0]) =
        sendHi.encode ∧
      ¬ Resumes (fun _ => 0) 0 (cstring "SEND\ndestination:/queue/a\ncontent-length:2\n\nh")
        (cstring "i" ++ [0]) := by
  have cut : (cstring "SEND\ndestination:/queue/a\ncontent-length:2\n\nh") ++ (cstring "i" ++ [0]) =
      sendHi.encode := by decide +kernel
  refine ⟨by decide, cut, ?_⟩
  rw [resumes_iff_with (fun _ => 0) cut]
  have inside : cstring "h" <+: sendHi.body := by decide
  exact not_cut_in_body (fun _ => 0) 0 (by decide) inside (cstring "i" ++ [0])

end Newtmq
