/-
Module: Newtmq.Proofs.CutBodies
Purpose: The passes of `recv_data` in a body keep the connection beside the byte-wise reader: a piece
  is stored, completes the frame, or is saved when the chunk ends.
Trusted boundary: none
Main exports: BodyRel.piece, recvLine_body, passKeeps_body, passKeeps_bodyEarly
-/
import Newtmq.Proofs.CutLines

namespace Newtmq

variable (env : RecvEnv) {sock : Int}

/-! ### A pass in a body -/

theorem BodyRel.piece {draft : Draft} {stored : List UInt8} {frame : Frame}
    (rel : BodyRel draft stored frame) (piece : List UInt8)
    (small : (stored ++ piece).length < 2147483648) (tail : List UInt8) :
    BodyRel draft (stored ++ piece) (frameBodyPiece (piece ++ tail) piece.length frame) := by
  by_cases empty : piece = []
  · subst empty
    simpa [frameBodyPiece] using rel
  · have grows := frameBodyPiece_grows frame tail empty
    simp only [List.length_append] at small
    exact
      { status := grows.status.trans rel.status
        name := grows.name.trans rel.name
        headers := by rw [grows.attrs, rel.headers]
        contentlen := grows.contentlen.trans rel.contentlen
        received := by
          rw [grows.received, rel.received, wrap32_of_bounds (by omega) (by omega),
            List.length_append]
          omega
        data := by rw [grows.data, rel.data]
        size := by
          rw [grows.size, rel.size]
          simp [Int.add_assoc]
        bound := rel.bound }

/-- The frame that is finished carries the message of the reader. -/
theorem BodyRel.message_finish {draft : Draft} {stored : List UInt8} {frame : Frame}
    (rel : BodyRel draft stored frame) (rands : Nat) :
    (finishFrame (frameFinish env rands) frame).message = draft.finish stored := by
  simp [Frame.message, finishFrame, frameFinish, Draft.finish, rel.name, ← rel.headers, ← rel.data,
    rel.size]

/-- A pass in a body hands on the saved fragment with the new part of the body. -/
theorem recvLine_body {draft : Draft} {stored fragment : List UInt8} (got : List UInt8)
    {frame : Frame} {st : RecvState} (curr : List UInt8) (n : Nat) {base published : List Message}
    (current : st.cinfo.frame = some frame) (rel : BodyRel draft stored frame)
    (saved : Saved st.cinfo fragment) (within : n ≤ curr.length)
    (whole : got = stored ++ fragment ++ curr.take n) (small : got.length < 2147483648)
    (bucket : st.bucket.map Frame.message = base ++ published) :
    (∃ st', (got.length : Int) < draft.contentlen ∧
        recvLine env sock curr n st = (curr.drop n, st') ∧
        Tracks sock base ⟨.body draft got, published⟩ st') ∨
      ∃ st', draft.contentlen ≤ got.length ∧
        recvLine env sock curr n st = (curr.drop (n + 1), st') ∧
        st'.cinfo.frame = none ∧ Saved st'.cinfo [] ∧
        st'.bucket.map Frame.message = base ++ published ++ [draft.finish got] := by
  obtain ⟨tail, joined, _⟩ := joinedLine_saved saved curr within
  rw [List.append_assoc] at whole
  have stored' := rel.piece (fragment ++ curr.take n) (by rw [← whole]; exact small) tail
  rw [← whole] at stored'
  by_cases reached : draft.contentlen ≤ got.length
  · refine Or.inr ⟨_, reached, recvLine_body_complete current rel.status joined ?_, rfl, rfl, ?_⟩
    · rw [stored'.received, rel.contentlen]
      exact reached
    · rw [publish_bucket, List.map_append, bucket, List.map_singleton,
        stored'.message_finish env st.rands]
  · refine Or.inl ⟨_, by omega, recvLine_body_open current rel.status joined ?_, ?_⟩
    · rw [stored'.received, rel.contentlen]
      omega
    · exact .body got [] rfl stored' (by omega) rfl (by simp) small bucket

/-- A run of bytes of a body. -/
theorem feeds_body {draft : Draft} {run more : List UInt8} {published : List Message}
    (bound : draft.contentlen < 2147483648) :
    ∀ {got}, run.all (nonStop true) = true → got.length < 2147483648 →
      SafeFrom ⟨.body draft got, published⟩ (run ++ more) →
      feeds ⟨.body draft got, published⟩ run = ⟨.body draft (got ++ run), published⟩ ∧
        (got ++ run).length < 2147483648 ∧
        ∀ first second, run = first ++ second → second ≠ [] → LD_MAX ≤ (got ++ first).length →
          ((got ++ first).length : Int) < draft.contentlen := by
  induction run with
  | nil =>
      intro got _ small _
      refine ⟨by simp, by simpa using small, ?_⟩
      intro first second parts nonempty
      exact absurd (List.append_eq_nil_iff.mp parts.symm).2 nonempty
  | cons b run ih =>
      intro got inside small safe
      simp only [List.all_cons, Bool.and_eq_true] at inside
      have notZero : b ≠ 0 := by simpa [nonStop] using inside.1
      have room : (got.length : Int) < draft.contentlen ∨
          (got.length < LD_MAX ∧ ¬ HoldsCommand got) := by
        rcases safe.1 with ⟨h, _⟩ | ⟨_, h⟩
        · exact absurd h notZero
        · exact h
      have step : feed ⟨.body draft got, published⟩ b = ⟨.body draft (got ++ [b]), published⟩ := by
        simp [feed, notZero]
      have after := safe.2
      rw [step] at after
      have smallNext : (got ++ [b]).length < 2147483648 := by
        simp only [List.length_append, List.length_cons, List.length_nil]
        have : LD_MAX = 1024 := rfl
        omega
      obtain ⟨all, small', later⟩ := ih inside.2 smallNext after
      refine ⟨by simpa [step] using all, by simpa using small', ?_⟩
      intro first second parts nonempty full
      cases first with
      | nil =>
          simp only [List.append_nil] at full ⊢
          omega
      | cons d first =>
          cases parts
          simpa using later first second rfl nonempty (by simpa using full)

/-- A pass in a body that hands on the part `run` of the chunk. When the body is complete then, the
NUL follows, or the chunk ends and the body holds a command. -/
theorem passKeeps_piece {draft : Draft} {stored fragment got run rest : List UInt8} {frame : Frame}
    {st : RecvState} {base published : List Message} (current : st.cinfo.frame = some frame)
    (rel : BodyRel draft stored frame) (saved : Saved st.cinfo fragment)
    (whole : got = stored ++ fragment) (bucket : st.bucket.map Frame.message = base ++ published)
    (nonempty : run ≠ []) (small : (got ++ run).length < 2147483648)
    (pass : recvPass env sock (run ++ rest, st) =
      .again (recvLine env sock (run ++ rest) run.length st))
    (fed : feeds ⟨.body draft got, published⟩ run = ⟨.body draft (got ++ run), published⟩)
    (ends : draft.contentlen ≤ (got ++ run).length →
      (∃ after, rest = 0 :: after) ∨ (rest = [] ∧ HoldsCommand (got ++ run))) :
    PassKeeps env sock base ⟨.body draft got, published⟩ (run ++ rest) st := by
  rcases recvLine_body env (got ++ run) (run ++ rest) run.length current rel
      saved (by simp) (by simp [whole]) small bucket with
    ⟨st', _, passes, tracks⟩ | ⟨st', complete, passes, idle, saved', bucket'⟩
  · refine Or.inl ⟨run, rest, st', rfl, nonempty, ?_, ?_⟩
    · rw [pass, passes, List.drop_left]
    · rw [fed]
      exact tracks
  · rcases ends complete with ⟨after, rfl⟩ | ⟨rfl, holds⟩
    · refine Or.inl ⟨run ++ [0], after, st', by simp, by simp, ?_, ?_⟩
      · rw [pass, passes]
        simp
      · have finished : feed ⟨.body draft (got ++ run), published⟩ 0 =
            ⟨.command [], published ++ [draft.finish (got ++ run)]⟩ := by
          simpa [feed] using complete
        rw [feeds_append, fed, feeds_cons, feeds_nil, finished]
        refine .line [] rfl ?_ saved' (by simp) rfl (by rw [bucket', List.append_assoc])
        simp [AtLine, AtRest, prepareFrame, idle]
    · refine Or.inl ⟨run, [], st', rfl, nonempty, ?_, ?_⟩
      · rw [pass, passes]
        simp
      · rw [fed]
        exact .bodyEarly idle saved' complete holds bucket'

section InBody

variable {draft : Draft} {stored fragment got : List UInt8} {frame : Frame} {st : RecvState}
  {base published : List Message} (current : st.cinfo.frame = some frame)
  (rel : BodyRel draft stored frame) (saved : Saved st.cinfo fragment)
  (whole : got = stored ++ fragment) (bucket : st.bucket.map Frame.message = base ++ published)
include current rel saved whole bucket

/-- The body is complete, and the NUL ends it. -/
theorem passKeeps_bodyNul (small : got.length < 2147483648) (complete : draft.contentlen ≤ got.length)
    (rest : List UInt8) : PassKeeps env sock base ⟨.body draft got, published⟩ (0 :: rest) st := by
  have split : ssplit (0 :: rest) st.isBodyInput = (.success, 0) :=
    ssplit_empty rest (by simp [emptyStart])
  rcases recvLine_body env got (0 :: rest) 0 current rel saved (Nat.zero_le _) (by simpa using whole)
    small bucket with ⟨_, incomplete, _⟩ | ⟨st', _, passes, idle, saved', bucket'⟩
  · omega
  · refine Or.inl ⟨[0], rest, st', rfl, by simp, ?_, ?_⟩
    · rw [recvPass_line split (List.cons_ne_nil _ _) (Or.inl rfl), passes]
      rfl
    · have finished : feed ⟨.body draft got, published⟩ 0 =
          ⟨.command [], published ++ [draft.finish got]⟩ := by simp [feed, complete]
      rw [feeds_cons, feeds_nil, finished]
      refine .line [] rfl ?_ saved' (by simp) rfl (by rw [bucket', List.append_assoc])
      simp [AtLine, AtRest, prepareFrame, idle]

/-- Only a part of the run fits a line, and it does not complete the body. -/
theorem passKeeps_bodyLong {run after more : List UInt8} (small : got.length < 2147483648)
    (text : LineText true run) (long : LD_MAX < run.length)
    (safe : SafeFrom ⟨.body draft got, published⟩ (run ++ (after ++ more))) :
    PassKeeps env sock base ⟨.body draft got, published⟩ (run ++ after) st := by
  obtain ⟨fed, small', growing⟩ := feeds_body rel.bound text.inside small safe
  obtain ⟨first, d, second, rfl, full⟩ :
      ∃ first d second, run = first ++ d :: second ∧ first.length = LD_MAX := by
    obtain ⟨d, second, left⟩ := List.exists_cons_of_ne_nil
      (l := run.drop LD_MAX) (by rw [ne_eq, List.drop_eq_nil_iff]; omega)
    exact ⟨run.take LD_MAX, d, second, by rw [← left, List.take_append_drop],
      by rw [List.length_take]; omega⟩
  have incomplete := growing first (d :: second) rfl (by simp)
    (by rw [List.length_append]; omega)
  have firstText : LineText true first := by
    apply text.first
    rintro rfl
    simp [LD_MAX] at full
  have split : ssplit (first ++ d :: (second ++ after)) st.isBodyInput = (.success, first.length) := by
    rw [isBodyInput_of_status current rel.status, full]
    exact ssplit_full firstText full d _
  have fedFirst : feeds ⟨.body draft got, published⟩ first =
      ⟨.body draft (got ++ first), published⟩ := by
    rw [List.append_assoc] at safe
    exact (feeds_body rel.bound (by simpa using firstText.inside) small safe).1
  have pass : recvPass env sock (first ++ d :: (second ++ after), st) =
      .again (recvLine env sock (first ++ d :: (second ++ after)) first.length st) :=
    recvPass_line split (by simp) (Or.inl rfl)
  simp only [List.append_assoc, List.cons_append]
  exact passKeeps_piece env current rel saved whole bucket firstText.nonempty
    (by simp only [List.length_append] at small' ⊢; omega) pass fedFirst (by omega)

/-- The chunk ends with the run, which is saved, or handed on when a command begins it. -/
theorem passKeeps_bodyOpen {run more : List UInt8} (small : got.length < 2147483648)
    (short : (stored.length : Int) < draft.contentlen) (text : LineText true run)
    (fits : run.length ≤ LD_MAX) (safe : SafeFrom ⟨.body draft got, published⟩ (run ++ more)) :
    PassKeeps env sock base ⟨.body draft got, published⟩ run st := by
  obtain ⟨fed, small', -⟩ := feeds_body rel.bound text.inside small safe
  have split : ssplit run st.isBodyInput = (.error, run.length) := by
    rw [isBodyInput_of_status current rel.status]
    exact ssplit_open text fits
  cases known : isFrameName run run.length with
  | error =>
      refine Or.inr ⟨_, recvPass_save split text.nonempty known, ?_⟩
      rw [fed]
      refine .body stored (fragment ++ run) (by simpa using current) rel short ?_
        (by rw [whole, List.append_assoc]) small' bucket
      rw [List.take_length]
      exact savePrev_saved saved text.nonempty
  | success =>
      have holds : HoldsCommand (got ++ run) := by
        have := isFrameName_eq_error.not.mp (by rw [known]; simp)
        push Not at this
        obtain ⟨w, mem, _, pre⟩ := this
        exact ⟨w, mem, pre.isInfix.trans (List.suffix_append got run).isInfix⟩
      have pass : recvPass env sock (run ++ [], st) =
          .again (recvLine env sock (run ++ []) run.length st) := by
        rw [List.append_nil]
        exact recvPass_line split text.nonempty (Or.inr known)
      have keeps := passKeeps_piece env current rel saved whole bucket text.nonempty small' pass fed
        (fun _ => Or.inr ⟨rfl, holds⟩)
      rwa [List.append_nil] at keeps

/-- The run ends with the NUL. -/
theorem passKeeps_bodyEnd {run more : List UInt8} (small : got.length < 2147483648)
    (text : LineText true run) (fits : run.length ≤ LD_MAX) (behind : List UInt8)
    (safe : SafeFrom ⟨.body draft got, published⟩ (run ++ more)) :
    PassKeeps env sock base ⟨.body draft got, published⟩ (run ++ 0 :: behind) st := by
  obtain ⟨fed, small', -⟩ := feeds_body rel.bound text.inside small safe
  have split : ssplit (run ++ 0 :: behind) st.isBodyInput = (.success, run.length) := by
    rw [isBodyInput_of_status current rel.status]
    exact ssplit_line text fits (by decide) behind
  have pass : recvPass env sock (run ++ 0 :: behind, st) =
      .again (recvLine env sock (run ++ 0 :: behind) run.length st) :=
    recvPass_line split (by simp) (Or.inl rfl)
  exact passKeeps_piece env current rel saved whole bucket text.nonempty small' pass fed
    (fun _ => Or.inl ⟨behind, rfl⟩)

/-- A pass in a body. -/
theorem passKeeps_body {curr more : List UInt8} (short : (stored.length : Int) < draft.contentlen)
    (small : got.length < 2147483648) (nonempty : curr ≠ [])
    (safe : SafeFrom ⟨.body draft got, published⟩ (curr ++ more)) :
    PassKeeps env sock base ⟨.body draft got, published⟩ curr st := by
  obtain ⟨c, rest, rfl⟩ := List.exists_cons_of_ne_nil nonempty
  by_cases zero : c = 0
  · subst zero
    have complete : draft.contentlen ≤ got.length := by
      rcases safe.1 with ⟨_, h⟩ | ⟨h, _⟩
      · exact h
      · exact absurd rfl h
    exact passKeeps_bodyNul env current rel saved whole bucket small complete rest
  · have start : emptyStart true c = false := by simp [emptyStart, zero]
    obtain ⟨run, after, parts, text, ends⟩ : ∃ run after, c :: rest = run ++ after ∧
        LineText true run ∧ (after = [] ∨ ∃ more, after = 0 :: more) := by
      rcases exists_run true rest start with ⟨run, t, more, parts, text, stop⟩ | text
      · have isZero : t = 0 := by simpa [nonStop] using stop
        exact ⟨run, t :: more, parts, text, Or.inr ⟨more, by rw [isZero]⟩⟩
      · exact ⟨c :: rest, [], by simp, text, Or.inl rfl⟩
    rw [parts, List.append_assoc] at safe
    rw [parts]
    by_cases long : LD_MAX < run.length
    · exact passKeeps_bodyLong env current rel saved whole bucket small text long safe
    · have fits := Nat.le_of_not_lt long
      rcases ends with rfl | ⟨behind, rfl⟩
      · rw [List.append_nil]
        exact passKeeps_bodyOpen env current rel saved whole bucket small short text fits safe
      · exact passKeeps_bodyEnd env current rel saved whole bucket small text fits behind safe

end InBody

/-- A chunk has ended inside a body that holds a command, and the body has been published: the NUL
that ends it does nothing more. -/
theorem passKeeps_bodyEarly {draft : Draft} {got curr more : List UInt8} {st : RecvState}
    {base published : List Message} (idle : st.cinfo.frame = none) (saved : Saved st.cinfo [])
    (reached : draft.contentlen ≤ got.length) (holds : HoldsCommand got)
    (bucket : st.bucket.map Frame.message = base ++ published ++ [draft.finish got])
    (nonempty : curr ≠ []) (safe : SafeFrom ⟨.body draft got, published⟩ (curr ++ more)) :
    PassKeeps env sock base ⟨.body draft got, published⟩ curr st := by
  obtain ⟨c, rest, rfl⟩ := List.exists_cons_of_ne_nil nonempty
  have zero : c = 0 := by
    rcases safe.1 with ⟨h, _⟩ | ⟨_, h | h⟩
    · exact h
    · omega
    · exact absurd holds h.2
  subst zero
  have split : ssplit (0 :: rest) st.isBodyInput = (.success, 0) :=
    ssplit_empty rest (by simp [emptyStart])
  have noFragment : st.cinfo.prevData = none := saved.none
  have finished : feed ⟨.body draft got, published⟩ 0 =
      ⟨.command [], published ++ [draft.finish got]⟩ := by simp [feed, reached]
  refine Or.inl ⟨[0], rest, st, rfl, by simp, ?_, ?_⟩
  · rw [recvPass_line split nonempty (Or.inl rfl), recvLine_nothing idle noFragment]
    rfl
  · rw [feeds_cons, feeds_nil, finished]
    refine .line [] rfl ?_ saved (by simp) rfl (by rw [bucket, List.append_assoc])
    simp [AtLine, AtRest, prepareFrame, idle]

end Newtmq
