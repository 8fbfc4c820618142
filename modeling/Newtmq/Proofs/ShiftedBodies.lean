/-
Module: Newtmq.Proofs.ShiftedBodies
Purpose: What `recv_data` publishes for the body of a frame whose header it has read: the body as it was
  sent, and the one that an LF too many has shifted by a byte.
Trusted boundary: none
Main exports: safe_rest, published_one, idle_rest, InBody, InBody.pass, InBody.piece, InBody.publishes
-/
import Newtmq.Proofs.ChunkLines

namespace Newtmq

variable (env : RecvEnv) {sock : Int}

/-! ### The body as it was sent -/

/-- The body and its NUL are safe at every cut. -/
theorem safe_body {draft : Draft} {published : List Message} :
    ∀ (text got : List UInt8), (0 : UInt8) ∉ text → draft.contentlen = (got ++ text).length →
      SafeFrom ⟨.body draft got, published⟩ (text ++ [0])
  | [], got, _, length => by
      rw [List.append_nil] at length
      have ends : draft.contentlen ≤ got.length := Int.le_of_eq length
      refine ⟨Or.inl ⟨rfl, ends⟩, ?_⟩
      rw [feed_bodyEnd published ends]
      trivial
  | b :: text, got, clean, length => by
      have inside : b ≠ 0 := fun same => clean (same ▸ List.mem_cons_self)
      have room : (got.length : Int) < draft.contentlen := by
        rw [length, List.length_append, List.length_cons]
        omega
      refine ⟨Or.inr ⟨inside, Or.inl room⟩, ?_⟩
      have step : feed ⟨.body draft got, published⟩ b = ⟨.body draft (got ++ [b]), published⟩ := by
        simp only [feed, inside, if_false]
      rw [step]
      exact safe_body text (got ++ [b]) (fun mem => clean (List.mem_cons_of_mem _ mem))
        (by rw [List.append_assoc]; exact length)

/-- So is what follows the header. -/
theorem safe_rest {draft : Draft} {published : List Message} {body : List UInt8}
    (announced : draft.contentlen = body.length) (clean : (0 : UInt8) ∉ body) :
    SafeFrom ⟨.header draft [], published⟩ (LF :: (body ++ [0])) := by
  refine ⟨Or.inl ⟨rfl, Or.inl rfl⟩, ?_⟩
  rw [feed_blank published draft (Or.inl rfl)]
  by_cases empty : body = []
  · subst empty
    have zero : draft.contentlen = 0 := announced
    rw [if_neg (by omega), if_pos zero]
    refine ⟨Or.inl rfl, ?_⟩
    rw [feed_nothing _ (by decide)]
    trivial
  · have positive := List.length_pos_iff.mpr empty
    rw [if_pos (by omega)]
    exact safe_body body [] clean (by rw [List.nil_append]; exact announced)

/-- One more message is one more frame. -/
theorem published_one {st result : RecvState} {message : Message} (pre : st.bucket <+: result.bucket)
    (messages : result.bucket.map Frame.message = st.bucket.map Frame.message ++ [message]) :
    ∃ frame, result.bucket = st.bucket ++ [frame] ∧ frame.message = message := by
  obtain ⟨more, added⟩ := pre
  rw [← added, List.map_append, List.append_cancel_left_eq] at messages
  obtain ⟨frame, rfl, same⟩ := List.map_eq_singleton_iff.mp messages
  exact ⟨frame, added.symm, same⟩

/-! ### A body that is one byte longer -/

/-- A byte of a line is no command. -/
theorem endCommand_byte (c : UInt8) : endCommand [c] = .command [] := by
  have long : ∀ w ∈ finfoArr, 1 < w.length := by decide
  have none : findFrameName [c] [c].length finfoArr = none := by
    rw [findFrameName_eq_none]
    intro w mem short
    exact absurd short (Nat.not_le.mpr (long w mem))
  simp only [endCommand, none]

/-- Between frames, a last NUL and one byte before it publish nothing. -/
theorem idle_rest {base : List Message} {chunks : List (List UInt8)} {st : RecvState}
    (idle : st.cinfo.frame = none) (saved : Saved st.cinfo [])
    (bucket : st.bucket.map Frame.message = base) {text : List UInt8} (short : text.length ≤ 1)
    (whole : chunks.flatten = [] ∨ chunks.flatten = text ++ [0]) :
    ∃ result, recvChunks env sock chunks st = some result ∧ result.bucket.map Frame.message = base := by
  have nothing : SafeFrom ⟨.command [], []⟩ [0] ∧
      feeds ⟨.command [], []⟩ [0] = ⟨.command [], []⟩ := by
    rw [feeds_cons, SafeFrom, feed_nothing [] (by decide)]
    exact ⟨⟨Or.inl rfl, trivial⟩, rfl⟩
  have quiet : SafeFrom ⟨.command [], []⟩ chunks.flatten ∧
      feeds ⟨.command [], []⟩ chunks.flatten = ⟨.command [], []⟩ := by
    rcases whole with none | ended
    · rw [none]
      exact ⟨trivial, rfl⟩
    · rw [ended]
      rcases text with _ | ⟨c, _ | ⟨d, more⟩⟩
      · exact nothing
      · rw [List.singleton_append, feeds_cons, SafeFrom]
        by_cases empty : emptyStart false c = true
        · rw [feed_nothing [] empty]
          have safe : c = 0 ∨ c = LF ∨ c = CR := by simpa [emptyStart] using empty
          refine ⟨⟨?_, nothing.1⟩, nothing.2⟩
          rcases safe with rfl | rfl | rfl
          · exact Or.inl rfl
          · exact Or.inr (Or.inl rfl)
          · exact Or.inr (Or.inr (Or.inl ⟨rfl, rfl⟩))
        · have step : feed ⟨.command [], []⟩ c = ⟨.command [c], []⟩ := by
            simp only [feed]
            rw [if_neg (by simpa [emptyStart] using empty)]
            rfl
          have inLine : InLine [] c := ⟨by decide, by decide, Or.inl rfl⟩
          have ends : feed ⟨.command [c], []⟩ 0 = ⟨.command [], []⟩ := by
            simp only [feed, true_or, if_true, endCommand_byte]
          rw [step, feeds_cons, SafeFrom, ends]
          exact ⟨⟨Or.inr (Or.inr (Or.inr inLine)), Or.inl rfl, trivial⟩, rfl⟩
      · simp only [List.length_cons] at short
        omega
  have tracks : Tracks sock base ⟨.command [], []⟩ st := by
    refine .line [] rfl ?_ saved (Nat.zero_le _) rfl (by rw [bucket, List.append_nil])
    simp [AtLine, AtRest, prepareFrame, idle]
  have safe : SafeFrom ⟨.command [], []⟩ (chunks.flatten ++ []) := by
    rw [List.append_nil]
    exact quiet.1
  obtain ⟨result, returns, tracksAll⟩ := recvChunks_tracks env tracks safe
  rw [quiet.2] at tracksAll
  refine ⟨result, returns, ?_⟩
  rw [tracksAll.messages trivial, List.append_nil]

/-- Behind a piece that ends a body is the NUL, with at most one byte before it, or nothing. -/
theorem behind_body {chunk text : List UInt8} {later : List (List UInt8)}
    (whole : chunk ++ later.flatten = text ++ [0]) {n : Nat} (within : n ≤ chunk.length)
    (part : n ≤ text.length) (almost : text.length ≤ n + 1) :
    ∃ byte : List UInt8, byte.length ≤ 1 ∧ ((chunk.drop (n + 1) :: later).flatten = [] ∨
      (chunk.drop (n + 1) :: later).flatten = byte ++ [0]) := by
  rw [List.flatten_cons]
  by_cases all : chunk.length = n
  · have tail := congrArg (List.drop n) whole
    rw [← all, List.drop_left, all, List.drop_append_of_le_length part] at tail
    refine ⟨text.drop n, ?_, Or.inr ?_⟩
    · rw [List.length_drop]
      omega
    · rw [List.drop_of_length_le (by omega), List.nil_append, tail]
  · refine ⟨[], Nat.zero_le 1, ?_⟩
    rw [← List.drop_append_of_le_length (by omega), whole]
    by_cases last : text.length = n
    · have none : (text ++ [0]).length ≤ n + 1 := by simp [last]
      exact Or.inl (List.drop_of_length_le none)
    · have one : text.length = n + 1 := by omega
      rw [← one, List.drop_left]
      exact Or.inr rfl

/-- The connection is in a body of which `text` and the NUL are still to come: the announced length, or
one byte more. -/
structure InBody (base : List Message) (draft : Draft) (stored fragment text : List UInt8)
    (frame : Frame) (st : RecvState) : Prop where
  current : st.cinfo.frame = some frame
  rel : BodyRel draft stored frame
  short : (stored.length : Int) < draft.contentlen
  saved : Saved st.cinfo fragment
  bucket : st.bucket.map Frame.message = base
  clean : (0 : UInt8) ∉ text
  reaches : draft.contentlen ≤ (stored.length + fragment.length + text.length : Nat)
  room : (stored.length + fragment.length + text.length : Nat) ≤ draft.contentlen + 1
  small : stored.length + fragment.length + text.length < 2147483648

section InBody

variable {base : List Message} {draft : Draft} {stored fragment text : List UInt8} {frame : Frame}
  {st : RecvState} {chunk : List UInt8} {later : List (List UInt8)}

/-- A pass in the body: a piece of what is still to come is handed on, or the chunk is saved. -/
theorem InBody.pass (inside : InBody base draft stored fragment text frame st)
    (whole : chunk ++ later.flatten = text ++ [0]) (nonempty : chunk ≠ []) :
    (∃ n, n ≤ chunk.length ∧ n ≤ text.length ∧ (0 < n ∨ n = text.length) ∧
        recvPass env sock (chunk, st) = .again (recvLine env sock chunk n st)) ∨
      ∃ left, text = chunk ++ left ∧ later.flatten = left ++ [0] ∧
        recvPass env sock (chunk, st) =
          .leave { st with cinfo := savePrev st.cinfo chunk } := by
  have mode := isBodyInput_of_status inside.current inside.rel.status
  have positive : 0 < LD_MAX := by decide
  rcases first_chunk whole with ⟨rest, rfl, -⟩ | ⟨left, rfl, tail⟩
  · obtain ⟨n, split, within, is⟩ := ssplit_piece inside.clean rest
    rw [← mode] at split
    refine Or.inl ⟨n, ?_, within, ?_, recvPass_line split nonempty (Or.inl rfl)⟩
    · rw [List.length_append]
      omega
    · rcases is with full | all
      · exact Or.inl (by omega)
      · exact Or.inr all
  · have clean : (0 : UInt8) ∉ chunk := fun mem => inside.clean (List.mem_append_left _ mem)
    have some := List.length_pos_iff.mpr nonempty
    by_cases long : LD_MAX < chunk.length
    · obtain ⟨piece, c, more, rfl, full, pieceNonempty, pieceClean, -, parts⟩ :=
        body_parts long clean []
      have split : ssplit (piece ++ c :: more) st.isBodyInput = (.success, LD_MAX) := by
        rw [mode]
        exact ssplit_full (lineText_body pieceNonempty pieceClean) full c more
      refine Or.inl ⟨LD_MAX, by omega, ?_, Or.inl positive,
        recvPass_line split nonempty (Or.inl rfl)⟩
      rw [List.length_append]
      omega
    · have split : ssplit chunk st.isBodyInput = (.error, chunk.length) := by
        rw [mode]
        exact ssplit_open (lineText_body nonempty clean) (by omega)
      cases known : isFrameName chunk chunk.length with
      | success =>
          refine Or.inl ⟨chunk.length, Nat.le_refl _, ?_, Or.inl some,
            recvPass_line split nonempty (Or.inr known)⟩
          rw [List.length_append]
          omega
      | error =>
          have leave : recvPass env sock (chunk, st) =
              .leave { st with cinfo := savePrev st.cinfo (chunk.take chunk.length) } :=
            recvPass_save split nonempty known
          rw [List.take_length] at leave
          exact Or.inr ⟨left, rfl, tail, leave⟩

/-- A piece that is handed on completes the frame, or the rest of the body is still to come. -/
theorem InBody.piece (inside : InBody base draft stored fragment text frame st)
    (whole : chunk ++ later.flatten = text ++ [0]) {n : Nat} (within : n ≤ chunk.length)
    (part : n ≤ text.length)
    (pass : recvPass env sock (chunk, st) = .again (recvLine env sock chunk n st)) :
    (∃ result message, recvChunks env sock (chunk :: later) st = some result ∧
        result.bucket.map Frame.message = base ++ [message] ∧ message.headers = draft.headers) ∨
      n < text.length ∧ ∃ stored' fragment' frame' st',
        recvChunks env sock (chunk :: later) st = recvChunks env sock (chunk.drop n :: later) st' ∧
          InBody base draft stored' fragment' (text.drop n) frame' st' := by
  have bucket : st.bucket.map Frame.message = base ++ [] := by rw [inside.bucket, List.append_nil]
  obtain ⟨reaches, room, small⟩ := And.intro inside.reaches (And.intro inside.room inside.small)
  have length : (stored ++ fragment ++ chunk.take n).length = stored.length + fragment.length + n := by
    rw [List.length_append, List.length_append, List.length_take, Nat.min_eq_left within]
  rcases recvLine_body env (stored ++ fragment ++ chunk.take n) chunk n inside.current inside.rel
      inside.saved within rfl (by omega) bucket with
    ⟨next, incomplete, passes, tracks⟩ | ⟨next, complete, passes, idle, saved, bucket'⟩
  · rw [length] at incomplete
    refine Or.inr ⟨by omega, ?_⟩
    cases tracks with
    | line _ isLine => cases isLine
    | lineEarly _ isLine => cases isLine
    | bodyEarly _ _ reached => omega
    | body stored' fragment' current' rel' short' saved' whole' _ bucket' =>
        have same := congrArg List.length whole'
        rw [length, List.length_append] at same
        have left : (text.drop n).length = text.length - n := List.length_drop
        refine ⟨stored', fragment', _, next, recvChunks_again env (by rw [pass, passes]) later,
          { current := current', rel := rel', short := short', saved := saved'
            bucket := by rw [bucket', List.append_nil]
            clean := fun mem => inside.clean (List.mem_of_mem_drop mem)
            reaches := by omega
            room := by omega
            small := by omega }⟩
  · rw [length] at complete
    rw [List.append_nil] at bucket'
    obtain ⟨byte, short, rest⟩ := behind_body whole within part (by omega)
    obtain ⟨result, returns, messages⟩ := idle_rest env idle saved bucket' short rest
    refine Or.inl ⟨result, _, ?_, messages, rfl⟩
    rw [recvChunks_again env (by rw [pass, passes]) later, returns]

end InBody

/-- However the rest of the body is cut, one message is published. -/
theorem InBody.publishes {base : List Message} {draft : Draft} :
    ∀ (chunks : List (List UInt8)) {stored fragment text : List UInt8} {frame : Frame} {st : RecvState},
      InBody base draft stored fragment text frame st → chunks.flatten = text ++ [0] →
      ∃ result message, recvChunks env sock chunks st = some result ∧
        result.bucket.map Frame.message = base ++ [message] ∧ message.headers = draft.headers
  | [], _, _, _, _, _, _, whole => by simp at whole
  | chunk :: later, stored, fragment, text, frame, st, inside, whole => by
      by_cases empty : chunk = []
      · subst empty
        obtain ⟨result, message, returns, published⟩ := InBody.publishes later inside whole
        exact ⟨result, message, by rw [recvChunks_empty, returns], published⟩
      have some := List.length_pos_iff.mpr empty
      rcases inside.pass env whole empty with ⟨n, within, part, moves, pass⟩ | ⟨left, rfl, tail, leave⟩
      · rcases inside.piece env whole within part pass with
          done | ⟨more, stored', fragment', frame', next, same, inside'⟩
        · exact done
        · have fewer : (chunk.drop n).length < chunk.length := by
            rw [List.length_drop]
            omega
          have rest : (chunk.drop n :: later).flatten = text.drop n ++ [0] := by
            rw [List.flatten_cons, ← List.drop_append_of_le_length within]
            rw [List.flatten_cons] at whole
            rw [whole, List.drop_append_of_le_length part]
          obtain ⟨result, message, returns, published⟩ :=
            InBody.publishes (chunk.drop n :: later) inside' rest
          exact ⟨result, message, by rw [same, returns], published⟩
      · have room := inside.room
        have reaches := inside.reaches
        have small := inside.small
        rw [List.length_append] at room reaches small
        have saved : InBody base draft stored (fragment ++ chunk) left frame
            { st with cinfo := savePrev st.cinfo chunk } :=
          { current := by rw [savePrev_frame, inside.current]
            rel := inside.rel
            short := inside.short
            saved := savePrev_saved inside.saved empty
            bucket := inside.bucket
            clean := fun mem => inside.clean (List.mem_append_right _ mem)
            reaches := by rw [List.length_append]; omega
            room := by rw [List.length_append]; omega
            small := by rw [List.length_append]; omega }
        obtain ⟨result, message, returns, published⟩ := InBody.publishes later saved tail
        exact ⟨result, message, by rw [recvChunks_leave env leave, returns], published⟩
termination_by chunks => chunks.flatten.length + chunks.length
decreasing_by
  all_goals
    simp only [List.flatten_cons, List.length_append, List.length_cons]
    omega

end Newtmq
