/-
Module: Newtmq.Proofs.LongHeaders
Purpose: The header lines of a frame survive exactly when none of them is longer than an entry and no
  chunk ends in one of them where that does harm.
Trusted boundary: none
Main exports: SpoiledAt, InHeader, headers_outcome, headers_survive_iff
-/
import Mathlib.Data.List.Infix
import Newtmq.Proofs.ShiftedBodies
import Newtmq.Proofs.FrameLosses

namespace Newtmq

variable (env : RecvEnv) {sock : Int}

/-! ### Frames that have gone wrong -/

/-- The frame that is read next, or the first one that has been published since, does not have these
header lines. -/
def SpoiledAt (base : List Frame) (headers : List (List UInt8)) (st : RecvState) : Prop :=
  (st.bucket = base ∧ ∃ frame, st.cinfo.frame = some frame ∧ Spoiled headers frame) ∨
    ∃ wrong, entryLines wrong.hAttrs ≠ headers ∧ base ++ [wrong] <+: st.bucket

theorem SpoiledAt.line {base : List Frame} {headers : List (List UInt8)} {st : RecvState}
    (spoiled : SpoiledAt base headers st) (curr : List UInt8) (n : Nat) :
    SpoiledAt base headers (recvLine env sock curr n st).2 := by
  rcases spoiled with ⟨rfl, frame, current, spoiled⟩ | ⟨wrong, ne, pre⟩
  · have prepared : prepareFrame sock st.cinfo = frame := by rw [prepareFrame, current]
    simp only [recvLine, current, Option.isSome_some, Bool.true_or, if_true, prepared]
    obtain ⟨kept, ne⟩ := frameUpdate_spoiled spoiled (frameFinish env st.rands) (fun _ => rfl)
      (joinedLine st.cinfo curr n).1 (joinedLine st.cinfo curr n).2
    simp only [afterUpdate]
    split
    · exact Or.inr ⟨_, ne, List.prefix_rfl⟩
    next goes => exact Or.inl ⟨rfl, _, rfl, kept (by omega)⟩
  · refine Or.inr ⟨wrong, ne, pre.trans ?_⟩
    simp only [recvLine]
    split
    · exact afterUpdate_bucket env st _
    · exact List.prefix_rfl

/-- What is read later does not mend it. -/
theorem spoiledAt_kept (base : List Frame) (headers : List (List UInt8)) :
    RecvInvariant env sock (SpoiledAt base headers) where
  line st curr n _ spoiled := spoiled.line env curr n
  save st text spoiled := by
    rw [SpoiledAt, savePrev_frame]
    exact spoiled

theorem SpoiledAt.ne {base : List Frame} {headers : List (List UInt8)} {st : RecvState} {frame : Frame}
    (spoiled : SpoiledAt base headers st) (bucket : st.bucket = base ++ [frame]) :
    entryLines frame.hAttrs ≠ headers := by
  rcases spoiled with ⟨same, -⟩ | ⟨wrong, ne, pre⟩
  · rw [same] at bucket
    exact absurd (List.self_eq_append_right.mp bucket) (List.cons_ne_nil _ _)
  · have same := pre.eq_of_length (by rw [bucket, List.length_append, List.length_append]; rfl)
    rw [bucket, List.append_cancel_left_eq] at same
    rwa [List.singleton_inj.mp same] at ne

/-! ### One header line -/

/-- A header line that announces a length has it whole. -/
theorem lengthHeader_value {line : List UInt8} {n : Nat} (announces : isLengthHeader line = true)
    (value : Decimal (line.drop 15) n) (bound : n < 2147483648) :
    LengthInLine line ∧ isContentlen line line.length = true ∧ getContentlen line = n := by
  have inLine : LengthInLine line := by
    intro _
    obtain ⟨c, more, digits⟩ := List.exists_cons_of_ne_nil value.nonempty
    have mem : c ∈ line.drop 15 := by rw [digits]; exact List.mem_cons_self
    exact ⟨c, mem, isdigit_not_space (value.digit c mem)⟩
  obtain ⟨isContent, announced⟩ := length_of_decimal [] announces value bound
  rw [isContentlen_append] at isContent
  rw [getContentlen_append (Or.inr (Or.inr ⟨rfl, inLine⟩)) isContent] at announced
  exact ⟨inLine, isContent, announced⟩

theorem silent_line {line : List UInt8} (silent : isLengthHeader line = false) :
    isContentlen line line.length = false := by
  have none := not_contentlen_append [] silent
  rwa [List.append_nil] at none

theorem silent_inLine {line : List UInt8} (silent : isLengthHeader line = false) : LengthInLine line := by
  intro isContent
  rw [silent_line silent] at isContent
  cases isContent

variable {sent : LongFrame}

theorem LongFrame.inLine {line : List UInt8} (mem : line ∈ sent.headers) : LengthInLine line := by
  cases announces : isLengthHeader line with
  | true =>
      have bound := sent.body_bound
      exact (lengthHeader_value announces (sent.length_value line mem announces) (by omega)).1
  | false => exact silent_inLine announces

/-- The connection is in the header of the frame; `done` are the lines it has stored, and the length is
`known` when one of them announces it. -/
structure InHeader (sock : Int) (sent : LongFrame) (known : Bool) (done : List (List UInt8))
    (base : List Frame) (draft : Draft) (st : RecvState) : Prop where
  place : AtLine sock (.header draft []) st
  saved : Saved st.cinfo []
  headers : draft.headers = done
  contentlen : draft.contentlen = if known then (sent.body.length : Int) else -1
  bucket : st.bucket = base

theorem LongFrame.addLine_contentlen {line : List UInt8} (mem : line ∈ sent.headers) {known : Bool}
    {draft : Draft} (length : draft.contentlen = if known then (sent.body.length : Int) else -1) :
    (draft.addLine line).contentlen =
      if known || isLengthHeader line then (sent.body.length : Int) else -1 := by
  simp only [Draft.addLine]
  cases announces : isLengthHeader line with
  | true =>
      have bound := sent.body_bound
      obtain ⟨-, isContent, value⟩ :=
        lengthHeader_value announces (sent.length_value line mem announces) (by omega)
      rw [if_pos isContent, value, Bool.or_true, if_pos rfl]
  | false => simp [silent_line announces, length]

/-- A line of the header has been handed on. -/
theorem InHeader.store {known : Bool} {done : List (List UInt8)} {base : List Frame} {draft : Draft}
    {st next : RecvState} {line : List UInt8} {chunks after : List (List UInt8)}
    (inside : InHeader sock sent known done base draft st) (mem : line ∈ sent.headers)
    (hands : HandsOn env sock (.header draft []) chunks st line after next) :
    InHeader sock sent (known || isLengthHeader line) (done ++ [line]) base (draft.addLine line) next where
  place := hands.place
  saved := hands.saved
  headers := by rw [Draft.addLine, inside.headers]
  contentlen := sent.addLine_contentlen mem inside.contentlen
  bucket := hands.bucket.trans inside.bucket

/-- The first byte of the chunks. -/
theorem chunks_byte {b : UInt8} {more : List UInt8} : ∀ {chunks : List (List UInt8)},
    chunks.flatten = b :: more →
      ∃ rest later, rest ++ later.flatten = more ∧
        (∀ st, recvChunks env sock chunks st = recvChunks env sock ((b :: rest) :: later) st) ∧
        ∀ st, recvChunks env sock (dropBytes 1 chunks) st = recvChunks env sock (rest :: later) st
  | [], whole => by cases whole
  | [] :: later, whole => by
      have tail : later.flatten = b :: more := whole
      obtain ⟨rest, last, parts, same, drops⟩ := chunks_byte tail
      refine ⟨rest, last, parts, fun st => (recvChunks_empty env later st).trans (same st), ?_⟩
      exact drops
  | (c :: rest) :: later, whole => by
      cases whole
      exact ⟨rest, later, rfl, fun _ => rfl, fun st => recvChunks_dropBytes env sock [b] rest later st⟩

/-- A line has been handed on before its LF. While the length is unknown, the LF is ignored. -/
theorem InHeader.absorb {done : List (List UInt8)} {base : List Frame} {draft : Draft}
    {st : RecvState} {more : List UInt8} {chunks : List (List UInt8)}
    (inside : InHeader sock sent false done base draft st) (whole : chunks.flatten = LF :: more) :
    ∃ next, recvChunks env sock chunks st = recvChunks env sock (dropBytes 1 chunks) next ∧
      InHeader sock sent false done base draft next := by
  obtain ⟨rest, later, -, same, drops⟩ := chunks_byte env whole
  have unknown : draft.contentlen < 0 := by simp [inside.contentlen]
  obtain ⟨next, passes, place, saved, bucket⟩ := recvLine_absorb env (c := LF) rfl inside.place
    inside.saved (by rintro other ⟨⟩; exact Or.inr unknown) rest
  have split : ssplit (LF :: rest) st.isBodyInput = (.success, 0) := by
    rw [inside.place.isBodyInput]
    exact ssplit_empty rest (by decide)
  refine ⟨next, ?_, place, saved, inside.headers, inside.contentlen, bucket.trans inside.bucket⟩
  rw [same, drops, recvChunks_again env (by
    rw [recvPass_line split (List.cons_ne_nil _ _) (Or.inl rfl), passes]) later]

/-- Once the length is known, the next LF is taken for the blank line. -/
theorem InHeader.blank {done : List (List UInt8)} {base : List Frame} {draft : Draft}
    {st : RecvState} {more : List UInt8} {chunks : List (List UInt8)}
    (inside : InHeader sock sent true done base draft st) (whole : chunks.flatten = LF :: more) :
    ∃ rest later next, rest ++ later.flatten = more ∧
      recvChunks env sock chunks st = recvChunks env sock (rest :: later) next ∧
      Saved next.cinfo [] ∧
      ((sent.body = [] ∧ next.cinfo.frame = none ∧
          ∃ frame, next.bucket = base ++ [frame] ∧ entryLines frame.hAttrs = done) ∨
        (sent.body ≠ [] ∧ next.bucket = base ∧
          ∃ frame draft', next.cinfo.frame = some frame ∧ BodyRel draft' [] frame ∧
            draft'.headers = done ∧ draft'.contentlen = sent.body.length)) := by
  obtain ⟨rest, later, parts, same, -⟩ := chunks_byte env whole
  obtain ⟨frame, current, rel⟩ := inside.place
  have announced : frame.contentlen = sent.body.length := by
    rw [rel.contentlen, inside.contentlen, if_pos rfl]
  have lines : entryLines frame.hAttrs = done := rel.headers.trans inside.headers
  have split : ssplit (LF :: rest) st.isBodyInput = (.success, 0) := by
    rw [inside.place.isBodyInput]
    exact ssplit_empty rest (by decide)
  have pass : recvPass env sock (LF :: rest, st) = .again (recvLine env sock (LF :: rest) 0 st) :=
    recvPass_line split (List.cons_ne_nil _ _) (Or.inl rfl)
  have joined : joinedLine st.cinfo (LF :: rest) 0 = (LF :: rest, 0) := by
    simp [joinedLine, inside.saved.none]
  by_cases empty : sent.body = []
  · have zero : frame.contentlen = 0 := by rw [announced, empty]; rfl
    rw [recvLine_blank_empty current rel.status joined rfl zero] at pass
    refine ⟨rest, later, _, parts, (same st).trans (recvChunks_again env pass later), rfl, Or.inl
      ⟨empty, rfl, finishFrame (frameFinish env st.rands) frame, ?_, lines⟩⟩
    rw [publish_bucket, inside.bucket]
  · have positive := List.length_pos_iff.mpr empty
    rw [recvLine_blank current rel.status joined rfl (by omega)] at pass
    refine ⟨rest, later, _, parts, (same st).trans (recvChunks_again env pass later), rfl, Or.inr
      ⟨empty, inside.bucket, _, { draft with size := draft.size + 1 }, rfl, rel.opens, inside.headers, ?_⟩⟩
    rw [← announced, rel.contentlen]

/-- When lines are missing, the frame has gone wrong with it. -/
theorem InHeader.blank_spoils {done : List (List UInt8)} {base : List Frame} {draft : Draft}
    {st : RecvState} {more : List UInt8} {chunks : List (List UInt8)}
    (inside : InHeader sock sent true done base draft st) (ne : done ≠ sent.headers)
    (whole : chunks.flatten = LF :: more) :
    ∃ after next, recvChunks env sock chunks st = recvChunks env sock after next ∧
      SpoiledAt base sent.headers next := by
  obtain ⟨rest, later, next, -, same, -, blank⟩ := inside.blank env whole
  refine ⟨rest :: later, next, same, ?_⟩
  rcases blank with ⟨-, -, frame, bucket, lines⟩ | ⟨-, bucket, frame, draft', current, rel, lines, -⟩
  · exact Or.inr ⟨frame, by rwa [lines], by rw [bucket]⟩
  · exact Or.inl ⟨bucket, frame, current, Or.inr ⟨rel.status, by rwa [rel.headers, lines]⟩⟩

/-- A part of a line that is stored as a line spoils the frame. -/
theorem InHeader.torn {known : Bool} {done todo : List (List UInt8)} {base : List Frame} {draft : Draft}
    {st next : RecvState} {line part : List UInt8} {chunks after : List (List UInt8)}
    (inside : InHeader sock sent known done base draft st) (split : sent.headers = done ++ line :: todo)
    (hands : HandsOn env sock (.header draft []) chunks st part after next) (proper : part ≠ line) :
    SpoiledAt base sent.headers next := by
  obtain ⟨frame, current, rel⟩ := hands.place
  refine Or.inl ⟨hands.bucket.trans inside.bucket, frame, current, Or.inl ?_⟩
  have lines : entryLines frame.hAttrs = done ++ [part] := by
    rw [rel.headers, Draft.addLine, inside.headers]
  rw [lines, split, List.prefix_append_right_inj, List.cons_prefix_cons]
  exact fun same => proper same.1

/-! ### The header -/

/-- What becomes of the header lines `todo`: all of them have been stored and the blank line is next, or
the LF of the last one has been left as well, or the frame has gone wrong. -/
inductive HeadersOutcome (env : RecvEnv) (sock : Int) (sent : LongFrame) (known : Bool)
    (todo : List (List UInt8)) (base : List Frame) (chunks : List (List UInt8)) (st : RecvState) :
    Prop where
  | whole (after : List (List UInt8)) (next : RecvState) (draft : Draft)
      (same : recvChunks env sock chunks st = recvChunks env sock after next)
      (inside : InHeader sock sent true sent.headers base draft next)
      (rest : after.flatten = LF :: (sent.body ++ [0])) (harmless : CutsHarmless known todo chunks)
  | shifted (after : List (List UInt8)) (next : RecvState) (draft : Draft)
      (same : recvChunks env sock chunks st = recvChunks env sock after next)
      (inside : InHeader sock sent true sent.headers base draft next)
      (rest : after.flatten = LF :: LF :: (sent.body ++ [0]))
      (harmless : CutsHarmless known todo chunks)
  | spoiled (after : List (List UInt8)) (next : RecvState)
      (same : recvChunks env sock chunks st = recvChunks env sock after next)
      (wrong : SpoiledAt base sent.headers next) (harmful : ¬ CutsHarmless known todo chunks)

/-- The first line has been read without harm. -/
theorem HeadersOutcome.cons {known : Bool} {line : List UInt8} {todo chunks : List (List UInt8)}
    {base : List Frame} {st middle : RecvState}
    (outcome : HeadersOutcome env sock sent (known || isLengthHeader line) todo base
      (dropBytes (line.length + 1) chunks) middle)
    (same : recvChunks env sock chunks st =
      recvChunks env sock (dropBytes (line.length + 1) chunks) middle)
    (first : ∀ cut ∈ lineCuts line.length chunks, BeginsCommand cut.1 →
      cut.2 = 0 ∧ (todo = [] ∨ (known || isLengthHeader line) = false)) :
    HeadersOutcome env sock sent known (line :: todo) base chunks st := by
  cases outcome with
  | whole after next draft goes inside rest harmless =>
      exact .whole after next draft (same.trans goes) inside rest ⟨first, harmless⟩
  | shifted after next draft goes inside rest harmless =>
      exact .shifted after next draft (same.trans goes) inside rest ⟨first, harmless⟩
  | spoiled after next goes wrong harmful =>
      exact .spoiled after next (same.trans goes) wrong fun harmless => harmful harmless.2

theorem headers_outcome {base : List Frame} :
    ∀ (todo : List (List UInt8)) {known : Bool} {done chunks : List (List UInt8)} {draft : Draft}
      {st : RecvState}, sent.headers = done ++ todo →
      (known = false → 0 < todo.countP isLengthHeader) → (∀ line ∈ todo, line.length ≤ LD_MAX) →
      InHeader sock sent known done base draft st →
      chunks.flatten = WireFrame.encodeLines todo ++ LF :: (sent.body ++ [0]) →
      HeadersOutcome env sock sent known todo base chunks st
  | [], known, done, chunks, draft, st, split, announced, _, inside, whole => by
      obtain rfl : known = true := by
        by_contra unknown
        exact Nat.lt_irrefl 0 (announced (by simpa using unknown))
      rw [List.append_nil] at split
      rw [← split] at inside
      exact .whole chunks st draft rfl inside whole trivial
  | line :: todo, known, done, chunks, draft, st, split, announced, short, inside, whole => by
      have mem : line ∈ sent.headers := by rw [split]; simp
      have shortLater : ∀ other ∈ todo, other.length ≤ LD_MAX :=
        fun other later => short other (List.mem_cons_of_mem _ later)
      have splitLater : sent.headers = (done ++ [line]) ++ todo := by
        rw [split, List.append_assoc]
        rfl
      have announcedLater : (known || isLengthHeader line) = false →
          0 < todo.countP isLengthHeader := by
        intro unknown
        rw [Bool.or_eq_false_iff] at unknown
        have some := announced unknown.1
        rwa [List.countP_cons_of_neg (by simp [unknown.2])] at some
      rw [WireFrame.encodeLines_cons, List.append_assoc, List.cons_append] at whole
      have left : (dropBytes (line.length + 1) chunks).flatten =
          WireFrame.encodeLines todo ++ LF :: (sent.body ++ [0]) := by
        rw [flatten_dropBytes, whole, ← List.drop_drop, List.drop_left, List.drop_one, List.tail_cons]
      have outcome := chunks_line env (.header draft []) rfl (sent.header_text line mem)
        (short line List.mem_cons_self) (sent.inLine mem) chunks [] line st rfl inside.place
        inside.saved whole
      cases outcome with
      | ended next hands silent =>
          have later := headers_outcome todo splitLater announcedLater shortLater
            (inside.store env mem hands) left
          exact later.cons env hands.same fun cut here begins => absurd begins (silent cut here)
      | early after next hands rest dropped begins complete =>
          have stored := inside.store env mem hands
          cases length : known || isLengthHeader line with
          | false =>
              rw [length] at stored
              obtain ⟨next', goes, inside'⟩ := stored.absorb env rest
              rw [dropped] at goes
              have later := headers_outcome todo splitLater (fun _ => announcedLater length) shortLater
                inside' left
              rw [← length] at later
              exact later.cons env (hands.same.trans goes)
                fun cut here command => ⟨complete cut here command, Or.inr length⟩
          | true =>
              rw [length] at stored
              by_cases last : todo = []
              · subst last
                rw [List.append_nil] at splitLater
                rw [← splitLater] at stored
                refine .shifted after next _ hands.same stored rest ⟨?_, trivial⟩
                exact fun cut here command => ⟨complete cut here command, Or.inl rfl⟩
              · have ne : done ++ [line] ≠ sent.headers := by
                  rw [splitLater]
                  intro same
                  exact last (List.self_eq_append_right.mp same)
                obtain ⟨after', next', goes, wrong⟩ := stored.blank_spoils env ne rest
                refine .spoiled after' next' (hands.same.trans goes) wrong ?_
                rintro ⟨first, -⟩
                obtain ⟨cut, here, command⟩ := begins
                rcases (first cut here command).2 with none | unknown
                · exact last none
                · rw [length] at unknown
                  cases unknown
      | torn part after next hands nonempty pre proper begins =>
          refine .spoiled after next hands.same (inside.torn env split hands proper) ?_
          rintro ⟨first, -⟩
          obtain ⟨cut, here, command, more⟩ := begins
          exact more (first cut here command).1

/-! ### The body -/

/-- The blank line and the body that come after all header lines. -/
theorem InHeader.finish {base : List Frame} {draft : Draft} {st : RecvState} {chunks : List (List UInt8)}
    (inside : InHeader sock sent true sent.headers base draft st)
    (whole : chunks.flatten = LF :: (sent.body ++ [0])) :
    ∃ result frame, recvChunks env sock chunks st = some result ∧ result.bucket = base ++ [frame] ∧
      entryLines frame.hAttrs = sent.headers := by
  have announced : draft.contentlen = sent.body.length := by rw [inside.contentlen, if_pos rfl]
  have safe : SafeFrom ⟨.header draft [], []⟩ (chunks.flatten ++ []) := by
    rw [List.append_nil, whole]
    exact safe_rest announced sent.body_clean
  have tracks : Tracks sock (st.bucket.map Frame.message) ⟨.header draft [], []⟩ st :=
    .line [] rfl inside.place inside.saved (Nat.zero_le _) rfl (List.append_nil _).symm
  obtain ⟨result, returns, tracksAll⟩ := recvChunks_tracks env tracks safe
  obtain ⟨message, headers, fed⟩ := feeds_rest [] draft false announced sent.body_clean
  rw [optionalCr, List.nil_append] at fed
  rw [whole, fed] at tracksAll
  have messages := tracksAll.messages trivial
  obtain ⟨frame, bucket, same⟩ := published_one (recvChunks_publishes env returns) messages
  refine ⟨result, frame, returns, by rw [bucket, inside.bucket], ?_⟩
  rw [← inside.headers, ← headers, ← same]
  rfl

/-- A blank line, an LF too many, the body and its NUL come after all header lines. -/
theorem InHeader.shifted {base : List Frame} {draft : Draft} {st : RecvState}
    {chunks : List (List UInt8)} (inside : InHeader sock sent true sent.headers base draft st)
    (whole : chunks.flatten = LF :: LF :: (sent.body ++ [0])) :
    ∃ result frame, recvChunks env sock chunks st = some result ∧ result.bucket = base ++ [frame] ∧
      entryLines frame.hAttrs = sent.headers := by
  obtain ⟨rest, later, next, parts, same, saved, blank⟩ := inside.blank env whole
  rcases blank with ⟨empty, idle, frame, bucket, lines⟩ | ⟨some, bucket, frame, draft', current, rel, lines, length⟩
  · rw [empty] at parts
    obtain ⟨result, returns, messages⟩ : ∃ result,
        recvChunks env sock (rest :: later) next = some result ∧
          result.bucket.map Frame.message = next.bucket.map Frame.message := by
      have one : [LF].length ≤ 1 := Nat.le_refl 1
      exact idle_rest env idle saved rfl one (Or.inr parts)
    have unchanged : next.bucket = result.bucket := by
      apply (recvChunks_publishes env returns).eq_of_length
      have sizes := congrArg List.length messages
      rw [List.length_map, List.length_map] at sizes
      exact sizes.symm
    exact ⟨result, frame, by rw [same, returns], by rw [← unchanged, bucket], lines⟩
  · have positive := List.length_pos_iff.mpr some
    have bound := sent.body_bound
    have body : InBody (base.map Frame.message) draft' [] [] (LF :: sent.body) frame next :=
      { current := current
        rel := rel
        short := by rw [length, List.length_nil]; omega
        saved := saved
        bucket := by rw [bucket]
        clean := by
          intro mem
          rcases List.mem_cons.mp mem with zero | mem
          · cases zero
          · exact sent.body_clean mem
        reaches := by rw [length, List.length_cons, List.length_nil]; omega
        room := by rw [length, List.length_cons, List.length_nil]; omega
        small := by simp only [List.length_cons, List.length_nil]; omega }
    obtain ⟨result, message, returns, messages, headers⟩ :=
      InBody.publishes env (rest :: later) body (by rw [List.flatten_cons, parts]; rfl)
    rw [← bucket] at messages
    obtain ⟨frame', bucket', isMessage⟩ := published_one (recvChunks_publishes env returns) messages
    refine ⟨result, frame', by rw [same, returns], by rw [bucket', bucket], ?_⟩
    rw [← lines, ← headers, ← isMessage]
    rfl

/-! ### Entries -/

/-- No header entry of the frame is longer than its array. -/
def ShortEntries (frame : Frame) : Prop :=
  ∀ line ∈ entryLines frame.hAttrs, line.length ≤ LD_MAX

theorem ShortEntries.update {frame : Frame} (short : ShortEntries frame) (finish : Frame → Frame)
    (kept : ∀ frame, (finish frame).hAttrs = frame.hAttrs) (line : List UInt8) (len : Nat) :
    ShortEntries (frameUpdate finish line len frame).2 := by
  have stored : ShortEntries (frameHeaderLine line len frame) := by
    rw [ShortEntries, frameHeaderLine]
    split
    · rw [stompSetdata, entryLines_append]
      exact List.forall_mem_append.mpr ⟨short, setdataEntries_le _ _⟩
    · exact short
  have piece : (frameBodyPiece line len frame).hAttrs = frame.hAttrs := by
    rw [frameBodyPiece]
    split <;> rfl
  rw [ShortEntries] at short ⊢
  rw [frameUpdate]
  cases frame.status with
  | born =>
      cases found : findFrameName line len finfoArr <;> simpa [frameSetname, found] using short
  | inputHeader =>
      simp only
      split
      · exact short
      · split
        · rw [finishFrame, kept]
          exact short
        · exact stored
  | inputBody =>
      simp only
      split
      · rw [finishFrame, kept, piece]
        exact short
      · rw [piece]
        exact short
  | _ => exact short

/-- The frame of the connection and all frames that have been published since then have short entries. -/
structure PublishesShort (base : List Frame) (st : RecvState) : Prop where
  current : ∀ frame ∈ st.cinfo.frame, ShortEntries frame
  bucket : ∃ more, st.bucket = base ++ more ∧ ∀ frame ∈ more, ShortEntries frame

theorem PublishesShort.line {base : List Frame} {st : RecvState} (short : PublishesShort base st)
    (curr : List UInt8) (n : Nat) : PublishesShort base (recvLine env sock curr n st).2 := by
  have prepared : ShortEntries (prepareFrame sock st.cinfo) := by
    rw [prepareFrame]
    cases current : st.cinfo.frame with
    | none =>
        intro line mem
        cases mem
    | some frame => exact short.current frame current
  simp only [recvLine]
  split
  · have updated := prepared.update (frameFinish env st.rands) (fun _ => rfl)
      (joinedLine st.cinfo curr n).1 (joinedLine st.cinfo curr n).2
    simp only [afterUpdate]
    split
    · refine ⟨fun _ none => (by cases none), ?_⟩
      obtain ⟨more, bucket, all⟩ := short.bucket
      refine ⟨more ++ [_], by rw [RecvState.dropPrev, bucket, List.append_assoc], ?_⟩
      intro frame mem
      rcases List.mem_append.mp mem with mem | mem
      · exact all frame mem
      · rw [List.mem_singleton.mp mem]
        exact updated
    · refine ⟨?_, short.bucket⟩
      rintro frame ⟨⟩
      exact updated
  · exact ⟨short.current, short.bucket⟩

theorem publishesShort_kept (base : List Frame) : RecvInvariant env sock (PublishesShort base) where
  line st curr n _ short := short.line env curr n
  save st text short := by
    refine ⟨?_, short.bucket⟩
    rw [savePrev_frame]
    exact short.current

/-! ### The command line -/

/-- A part of a line that ends with a chunk, with the bytes of the line behind it, ends the line. -/
theorem lineCuts_suffix {cut : List UInt8 × Nat} : ∀ {left more : List UInt8}
    {chunks : List (List UInt8)}, chunks.flatten = left ++ more → cut ∈ lineCuts left.length chunks →
      ∃ behind, cut.1 ++ behind <:+ left ∧ behind.length = cut.2
  | _, _, [], _, mem => by cases mem
  | left, more, chunk :: later, whole, mem => by
      rw [List.flatten_cons] at whole
      rw [lineCuts] at mem
      split at mem
      · cases mem
      next notLonger =>
        have pre : chunk <+: left := by
          have all : chunk <+: left ++ more := by
            rw [← whole]
            exact List.prefix_append _ _
          exact List.prefix_of_prefix_length_le all (List.prefix_append _ _) (by omega)
        obtain ⟨left', rfl⟩ := pre
        rw [List.append_assoc, List.append_cancel_left_eq] at whole
        have rest : (chunk ++ left').length - chunk.length = left'.length := by
          rw [List.length_append, Nat.add_sub_cancel_left]
        rw [rest] at mem
        rcases List.mem_cons.mp mem with rfl | mem
        · exact ⟨left', List.suffix_refl _, rfl⟩
        · obtain ⟨behind, suffix, length⟩ := lineCuts_suffix whole mem
          exact ⟨behind, suffix.trans (List.suffix_append _ _), length⟩

/-- No command goes on after a command that is a part of it. -/
theorem finfoArr_suffix : ∀ w ∈ finfoArr, ∀ tail ∈ w.tails, ∀ w' ∈ finfoArr, w' <+: tail → w' = tail := by
  decide +kernel

/-- A part of a command line that ends with a chunk and begins with a command completes the line. -/
theorem command_cuts {w more : List UInt8} (known : w ∈ finfoArr) {chunks : List (List UInt8)}
    (whole : chunks.flatten = w ++ more) :
    ∀ cut ∈ lineCuts w.length chunks, BeginsCommand cut.1 → cut.2 = 0 := by
  intro cut mem begins
  obtain ⟨w', known', pre⟩ := begins
  obtain ⟨behind, suffix, length⟩ := lineCuts_suffix whole mem
  have same := finfoArr_suffix w known (cut.1 ++ behind) ((List.mem_tails _ _).mpr suffix) w' known'
    (pre.trans (List.prefix_append _ _))
  have short := pre.length_le
  rw [same, List.length_append] at short
  omega

/-- The command line has been handed on. -/
theorem inHeader_start {chunks after : List (List UInt8)} {st next : RecvState}
    (hands : HandsOn env sock (.command []) chunks st sent.command after next) :
    ∃ draft, InHeader sock sent false [] st.bucket draft next := by
  have found : findFrameName sent.command sent.command.length finfoArr = some sent.command :=
    findFrameName_of_known sent.command_known (Nat.le_refl _) List.prefix_rfl
  have place := hands.place
  simp only [Reading.setLine, Reading.endLine, endCommand, found] at place
  exact ⟨_, place, hands.saved, rfl, rfl, hands.bucket⟩

variable (sock) in
/-- Whatever chunks the command line comes in, the header is read next. -/
theorem command_outcome {chunks : List (List UInt8)} {st : RecvState} (idle : st.cinfo.frame = none)
    (saved : st.cinfo.prevData = none) (whole : chunks.flatten = sent.encode) :
    ∃ draft next, recvChunks env sock chunks st =
        recvChunks env sock (dropBytes (sent.command.length + 1) chunks) next ∧
      InHeader sock sent false [] st.bucket draft next := by
  have line := command_line sent.command_known
  have short : ∀ w ∈ finfoArr, w.length ≤ LD_MAX ∧ isLengthHeader w = false := by decide +kernel
  obtain ⟨fits, silent⟩ := short sent.command sent.command_known
  have place : AtLine sock (.command []) st := by simp [AtLine, AtRest, prepareFrame, idle]
  have nothing : Saved st.cinfo [] := by simp [Saved, saved]
  have outcome := chunks_line env (.command []) rfl ⟨line.nonempty, line.clean⟩ fits
    (silent_inLine silent) chunks [] sent.command st rfl place nothing whole
  cases outcome with
  | ended next hands _ =>
      obtain ⟨draft, inside⟩ := inHeader_start env hands
      exact ⟨draft, next, hands.same, inside⟩
  | early after next hands rest dropped _ _ =>
      obtain ⟨draft, inside⟩ := inHeader_start env hands
      obtain ⟨next', goes, inside'⟩ := inside.absorb env rest
      exact ⟨draft, next', by rw [hands.same, goes, dropped], inside'⟩
  | torn part after next _ _ _ _ begins =>
      obtain ⟨cut, mem, command, more⟩ := begins
      exact absurd (command_cuts sent.command_known whole cut mem command) more

/-! ### Frames -/

/-- The lines that are sent on and written are the entries. -/
theorem reemits_iff {frame : Frame} {lines : List (List UInt8)} :
    Reemits frame lines ↔ entryLines frame.hAttrs = lines := by
  constructor
  · rintro ⟨sends, -⟩
    have same := sends 0
    rw [sendLines] at same
    clear sends
    generalize frame.hAttrs = entries at same ⊢
    induction entries generalizing lines with
    | nil =>
        cases lines with
        | nil => rfl
        | cons => cases same
    | cons entry entries ih =>
        cases lines with
        | nil => cases same
        | cons line lines =>
            rw [List.flatMap_cons, List.flatMap_cons, List.cons_append, List.cons_append] at same
            injection same with first rest
            injection rest with _ rest
            injection first with _ bytes
            rw [entryLines, List.map_cons, ← entryLines, ih rest, bytes]
  · rintro rfl
    constructor
    · intro sock
      rw [sendLines, entryLines, List.flatMap_map]
    · rw [WireFrame.encodeLines, entryLines, List.flatMap_map]

/-- A header line that is longer than an entry does not survive. -/
theorem HeadersSurvive.short {chunks : List (List UInt8)} {st : RecvState}
    (idle : st.cinfo.frame = none) (survive : HeadersSurvive env sock st chunks sent) :
    ∀ line ∈ sent.headers, line.length ≤ LD_MAX := by
  obtain ⟨result, frame, returns, bucket, reemits⟩ := survive
  have start : PublishesShort st.bucket st := by
    refine ⟨?_, [], (List.append_nil _).symm, List.forall_mem_nil _⟩
    rw [idle]
    exact fun _ mem => absurd mem (Option.not_mem_none _)
  obtain ⟨more, added, all⟩ := ((publishesShort_kept env st.bucket).chunks start returns).bucket
  rw [bucket, List.append_cancel_left_eq] at added
  rw [← reemits_iff.mp reemits]
  exact all frame (by rw [← added]; exact List.mem_cons_self)

/-- Two header lines: some letters, and the length of an empty body. -/
def letterLines (n : Nat) : List (List UInt8) :=
  [List.replicate n 97, cstring "content-length:0"]

section Letters

variable {n : Nat} (positive : 0 < n)
include positive

theorem letterLines_text : ∀ line ∈ letterLines n, HeaderText line := by
  have letters : HeaderText (List.replicate n 97) := by
    refine ⟨by rwa [ne_eq, List.replicate_eq_nil_iff, ← ne_eq, ← Nat.pos_iff_ne_zero], ?_⟩
    intro c mem
    rw [List.eq_of_mem_replicate mem]
    decide
  have length : HeaderText (cstring "content-length:0") := by decide
  exact List.forall_mem_cons.mpr ⟨letters, List.forall_mem_singleton.mpr length⟩

theorem letterLines_once : (letterLines n).countP isLengthHeader = 1 := by
  obtain ⟨n, rfl⟩ := Nat.exists_eq_succ_of_ne_zero (Nat.ne_of_gt positive)
  rfl

theorem letterLines_length :
    ∀ line ∈ letterLines n, isLengthHeader line = true → Decimal (line.drop 15) 0 := by
  obtain ⟨n, rfl⟩ := Nat.exists_eq_succ_of_ne_zero (Nat.ne_of_gt positive)
  have zero : Decimal ((cstring "content-length:0").drop 15) 0 := by decide
  refine List.forall_mem_cons.mpr ⟨?_, List.forall_mem_singleton.mpr fun _ => zero⟩
  intro announces
  cases announces

end Letters

/-- A `SEND` without a body, with one header line of letters. -/
def letterFrame (n : Nat) (positive : 0 < n) : LongFrame where
  command := cstring "SEND"
  headers := letterLines n
  body := []
  command_known := sendHi.command_known
  header_text := letterLines_text positive
  one_length := letterLines_once positive
  length_value := letterLines_length positive
  body_clean := disconnectFrame.body_clean
  body_bound := by decide

end Newtmq
