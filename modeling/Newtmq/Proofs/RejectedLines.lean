/-
Module: Newtmq.Proofs.RejectedLines
Purpose: A connection that holds a frame in its initial state, left over from rejected lines, and one
  that holds none go through the same passes. `settled` is what the two have in common.
Trusted boundary: none
Main exports: RecvState.settled, recvPass_settled, recvData_settled, visits_rejected,
  resynchronizes_after_garbage
-/
import Newtmq.Core.Server
import Newtmq.Proofs.RecvDecode
import Newtmq.Spec.RejectedLines

namespace Newtmq

variable {env : RecvEnv} {sock : Int}

/-! ### The common view -/

/-- The environment in which no error is sent. -/
def RecvEnv.silent (env : RecvEnv) : RecvEnv where
  rand := env.rand
  socketValid _ _ := false

/-- The state with its frame prepared, without the messages sent. -/
def RecvState.settled (sock : Int) (st : RecvState) : RecvState :=
  { st with
    cinfo := { st.cinfo with frame := some (prepareFrame sock st.cinfo) }
    wire := [] }

theorem bucket_of_settled {one other : RecvState} (same : one.settled sock = other.settled sock) :
    one.bucket = other.bucket ∧ one.cinfo.id = other.cinfo.id := by
  have bucket := congrArg RecvState.bucket same
  have id := congrArg (fun st => st.cinfo.id) same
  exact ⟨bucket, id⟩

@[simp] theorem settled_prepareFrame (st : RecvState) :
    prepareFrame sock (st.settled sock).cinfo = prepareFrame sock st.cinfo := rfl

@[simp] theorem settled_rands (st : RecvState) : (st.settled sock).rands = st.rands := rfl

@[simp] theorem settled_joinedLine (st : RecvState) (curr : List UInt8) (n : Nat) :
    joinedLine (st.settled sock).cinfo curr n = joinedLine st.cinfo curr n := rfl

@[simp] theorem settled_isBodyInput (st : RecvState) :
    (st.settled sock).isBodyInput = st.isBodyInput := by
  obtain ⟨⟨id, frame, prevData⟩, bucket, wire, rands⟩ := st
  cases frame <;> rfl

/-- A frame in its initial state takes no notice of an empty line. -/
theorem findFrameName_zero (data : List UInt8) : findFrameName data 0 finfoArr = none := by
  rw [findFrameName_eq_none]
  intro w mem short
  exact absurd (List.length_eq_zero_iff.mp (Nat.le_zero.mp short)) (finfoArr_ne_nil w mem)

theorem settled_afterUpdate (st : RecvState) (updated : Int × Frame) :
    (afterUpdate env.silent sock (st.settled sock) updated).dropPrev.settled sock =
      (afterUpdate env sock st updated).dropPrev.settled sock := by
  obtain ⟨ret, frame⟩ := updated
  simp only [afterUpdate]
  split
  · rfl
  · split
    · rfl
    · rfl

variable (env sock) in
/-- A line does to a prepared frame what it does to no frame. -/
theorem recvLine_settled (curr : List UInt8) (n : Nat) (st : RecvState) :
    (recvLine env.silent sock curr n (st.settled sock)).1 = (recvLine env sock curr n st).1 ∧
      (recvLine env.silent sock curr n (st.settled sock)).2.settled sock =
        (recvLine env sock curr n st).2.settled sock := by
  rcases joined : joinedLine st.cinfo curr n with ⟨line, len⟩
  by_cases taken : (st.cinfo.frame.isSome || decide (0 < len)) = true
  · have prepared : ((st.settled sock).cinfo.frame.isSome || decide (0 < len)) = true := rfl
    simp only [recvLine, settled_joinedLine, joined, taken, prepared, if_true, settled_isBodyInput,
      settled_rands, settled_prepareFrame]
    exact ⟨rfl, settled_afterUpdate st _⟩
  · -- an empty line between frames: the prepared frame refuses it
    obtain ⟨absent, empty⟩ : st.cinfo.frame = none ∧ len = 0 := by
      simpa using taken
    subst empty
    have first : recvLine env sock curr n st = (curr.drop (n + 1), st.dropPrev) := by
      simp [recvLine, isBodyInput_of_none absent, joined, absent]
    have second : recvLine env.silent sock curr n (st.settled sock) =
        (curr.drop (n + 1), (st.settled sock).dropPrev) := by
      have born : (prepareFrame sock (st.settled sock).cinfo).status = .born := by
        rw [settled_prepareFrame, prepareFrame, absent]
        rfl
      exact recvLine_unknown born (Or.inl rfl) joined (findFrameName_zero line)
    rw [first, second]
    exact ⟨rfl, rfl⟩

/-- One pass, seen through `settled`. -/
def settledPass (env : RecvEnv) (sock : Int) (s : List UInt8 × RecvState) :
    Loop.Step (List UInt8 × RecvState) RecvState :=
  match recvPass env.silent sock s with
  | .again (next, st) => .again (next, st.settled sock)
  | .leave st => .leave (st.settled sock)

theorem settled_savePrev (fragment : List UInt8) (st : RecvState) :
    RecvState.settled sock
        { st.settled sock with cinfo := savePrev (st.settled sock).cinfo fragment } =
      RecvState.settled sock { st with cinfo := savePrev st.cinfo fragment } := by
  obtain ⟨⟨id, frame, prevData⟩, bucket, wire, rands⟩ := st
  cases prevData <;> rfl

/-- A pass that goes round again does so in the common view, and so does one that leaves. -/
theorem recvPass_settled {curr : List UInt8} {st : RecvState} :
    (∀ next later, recvPass env sock (curr, st) = .again (next, later) →
      settledPass env sock (curr, st.settled sock) = .again (next, later.settled sock)) ∧
    (∀ later, recvPass env sock (curr, st) = .leave later →
      settledPass env sock (curr, st.settled sock) = .leave (later.settled sock)) := by
  cases curr with
  | nil =>
      refine ⟨fun next later again => ?_, fun later leaves => ?_⟩
      · cases again
      · cases leaves
        rfl
  | cons c rest =>
      obtain ⟨position, state⟩ := recvLine_settled env sock (c :: rest)
        (ssplit (c :: rest) st.isBodyInput).2 st
      by_cases saved : (ssplit (c :: rest) st.isBodyInput).1 = .error ∧
          isFrameName (c :: rest) (ssplit (c :: rest) st.isBodyInput).2 = .error
      · simp only [settledPass, recvPass, settled_isBodyInput, if_pos saved]
        refine ⟨fun next later again => ?_, fun later leaves => ?_⟩
        · cases again
        · cases leaves
          rw [settled_savePrev]
      · simp only [settledPass, recvPass, settled_isBodyInput, if_neg saved]
        refine ⟨fun next later again => ?_, fun later leaves => ?_⟩
        · rw [Loop.Step.again.injEq] at again
          rw [position, state, again]
        · cases leaves

/-- Calls from states with the same view have the same results, in this view. -/
theorem recvData_settled {chunk : List UInt8} {one other result : RecvState}
    (same : one.settled sock = other.settled sock) (returns : recvData env sock chunk one = some result) :
    ∃ result', recvData env sock chunk other = some result' ∧
      result'.settled sock = result.settled sock := by
  have view : ∀ st : RecvState,
      Loop.run (settledPass env sock) (chunk.length + 1) (chunk, st.settled sock) =
        (recvData env sock chunk st).map (RecvState.settled sock) := fun st =>
    Loop.run_view (fun _ => True) (fun s : List UInt8 × RecvState => (s.1, s.2.settled sock))
      (RecvState.settled sock) (fun _ _ _ _ => trivial)
      (fun _ next _ again => recvPass_settled.1 next.1 next.2 again)
      (fun _ result _ leaves => recvPass_settled.2 result leaves) _ (chunk, st) trivial
  have results : (recvData env sock chunk other).map (RecvState.settled sock) =
      some (result.settled sock) := by
    rw [← view, ← same, view, returns, Option.map_some]
  exact Option.map_eq_some_iff.mp results

/-! ### The rejected lines -/

/-- The frame of a connection between frames, or one in its initial state. -/
def Unborn (sock : Int) (st : RecvState) (held : Bool) : Prop :=
  st.cinfo.prevData = none ∧
    st.cinfo.frame = if held then some (bornFrame sock st.cinfo) else none

theorem Unborn.prepareFrame {st : RecvState} {held : Bool} (unborn : Unborn sock st held) :
    Newtmq.prepareFrame sock st.cinfo = bornFrame sock st.cinfo := by
  rw [Newtmq.prepareFrame, unborn.2]
  cases held <;> rfl

theorem RejectedLine.lineText (line : RejectedLine) (nonempty : line.text ≠ []) :
    LineText false line.text where
  nonempty := nonempty
  start c first := by
    have := line.clean c (List.mem_of_mem_head? first)
    simp [emptyStart, this]
  inside := by
    rw [List.all_eq_true]
    intro c mem
    have := line.clean c mem
    simp [nonStop, this]

theorem RejectedLine.findFrameName (line : RejectedLine) (rest : List UInt8) :
    Newtmq.findFrameName (line.text ++ line.stop :: rest) line.text.length finfoArr = none := by
  rw [findFrameName_eq_none]
  intro w mem short starts
  exact line.unknown w mem (List.prefix_of_prefix_length_le starts (List.prefix_append _ _) short)

/-- What a refused line leaves. -/
def RecvState.refused (env : RecvEnv) (sock : Int) (st : RecvState) : RecvState :=
  { st.hold (prepareFrame sock st.cinfo) with
    wire := stompSendError env sock (cstring "failed to parse frame") st.wire }

variable (env) in
theorem Unborn.refused {st : RecvState} {held : Bool} (unborn : Unborn sock st held) :
    (st.refused env sock).settled sock = st.settled sock ∧ Unborn sock (st.refused env sock) true := by
  have prepared := unborn.prepareFrame
  obtain ⟨⟨id, frame, prevData⟩, bucket, wire, rands⟩ := st
  obtain ⟨rfl, _⟩ := unborn
  refine ⟨rfl, rfl, ?_⟩
  exact congrArg some prepared

variable (env) in
/-- One line is rejected: it changes nothing in the common view, and leaves an initial frame unless it is
empty and there was none. -/
theorem visits_rejectedLine (line : RejectedLine) (rest : List UInt8) {st : RecvState} {held : Bool}
    (unborn : Unborn sock st held) :
    ∃ later, Passes env sock (line.encode ++ rest, st) (rest, later) ∧
      later.settled sock = st.settled sock ∧ Unborn sock later (held || decide (line.text ≠ [])) := by
  have prepared := unborn.prepareFrame
  have born : (prepareFrame sock st.cinfo).status = .born := by
    rw [prepared]
    rfl
  have joined := fun curr n => joinedLine_none unborn.1 curr n
  have chunk : line.encode ++ rest = line.text ++ line.stop :: rest := by
    rw [RejectedLine.encode, List.append_assoc, List.singleton_append]
  have past : (line.text ++ line.stop :: rest).drop (line.text.length + 1) = rest := by simp
  have unknown := line.findFrameName rest
  rw [chunk]
  by_cases empty : line.text = []
  · have start : emptyStart false line.stop = true := by
      rcases line.ends with stop | stop <;> rw [stop] <;> rfl
    have split : ssplit (line.text ++ line.stop :: rest) st.isBodyInput = (.success, 0) := by
      rw [empty, isBodyInput_of_born born]
      exact ssplit_empty rest start
    rw [empty] at past split ⊢
    cases held with
    | false =>
        refine ⟨st, Passes.pass split (by simp) ?_, rfl, unborn⟩
        rw [recvLine_nothing unborn.2 unborn.1]
        exact congrArg (·, st) past
    | true =>
        obtain ⟨view, left⟩ := unborn.refused env
        refine ⟨_, Passes.pass split (by simp) ?_, view, left⟩
        have active : st.cinfo.frame.isSome = true := by
          rw [unborn.2]
          rfl
        rw [recvLine_unknown born (Or.inl active) (joined _ _) (findFrameName_zero _)]
        exact congrArg (·, st.refused env sock) past
  · have text := line.lineText empty
    have ends : nonStop false line.stop = false := by
      rcases line.ends with stop | stop <;> rw [stop] <;> rfl
    have split : ssplit (line.text ++ line.stop :: rest) st.isBodyInput =
        (.success, line.text.length) := by
      rw [isBodyInput_of_born born]
      exact ssplit_line text line.short ends rest
    obtain ⟨view, left⟩ := unborn.refused env
    refine ⟨st.refused env sock, Passes.pass split (by simp) ?_, view, ?_⟩
    · rw [recvLine_unknown born (Or.inr (List.length_pos_iff.mpr empty)) (joined _ _) unknown]
      exact congrArg (·, st.refused env sock) past
    · rw [decide_eq_true empty, Bool.or_true]
      exact left

variable (env) in
/-- All lines are rejected. -/
theorem visits_rejected (rest : List UInt8) (lines : List RejectedLine) :
    ∀ {st : RecvState} {held : Bool}, Unborn sock st held →
      ∃ later, Passes env sock (RejectedLine.encodeAll lines ++ rest, st) (rest, later) ∧
        later.settled sock = st.settled sock ∧
        Unborn sock later (held || decide (∃ l ∈ lines, l.text ≠ [])) := by
  induction lines with
  | nil =>
      intro st held unborn
      refine ⟨st, Relation.ReflTransGen.refl, rfl, ?_⟩
      simpa using unborn
  | cons line lines ih =>
      intro st held unborn
      obtain ⟨middle, first, viewFirst, unbornMiddle⟩ :=
        visits_rejectedLine env line (RejectedLine.encodeAll lines ++ rest) unborn
      obtain ⟨later, others, viewOthers, unbornLater⟩ := ih unbornMiddle
      refine ⟨later, ?_, viewOthers.trans viewFirst, ?_⟩
      · have chunk : RejectedLine.encodeAll (line :: lines) ++ rest =
            line.encode ++ (RejectedLine.encodeAll lines ++ rest) := by
          rw [RejectedLine.encodeAll, List.flatMap_cons, List.append_assoc]
          rfl
        rw [chunk]
        exact first.trans others
      · have held : (held || decide (line.text ≠ []) || decide (∃ l ∈ lines, l.text ≠ [])) =
            (held || decide (∃ l ∈ line :: lines, l.text ≠ [])) := by
          simp [Bool.or_assoc]
        rw [← held]
        exact unbornLater

/-- The parser goes on after rejected lines as if they had not been there, and holds a frame in its
initial state after each of them. -/
theorem resynchronizes_after_garbage (env : RecvEnv) (sock : Int) (lines : List RejectedLine)
    (rest : List UInt8) {st : RecvState} (idle : st.cinfo.frame = none)
    (saved : st.cinfo.prevData = none) :
    Resynchronizes env sock lines rest st ∧ LeavesBorn env sock lines rest st := by
  have unborn : Unborn sock st false := ⟨saved, idle⟩
  constructor
  · intro result returns
    obtain ⟨later, visits, view, -⟩ := visits_rejected env rest lines unborn
    obtain ⟨result', returns', same⟩ := recvData_settled view.symm returns
    refine ⟨result', ?_, (bucket_of_settled same).1⟩
    rw [recvData_eq_some_iff] at returns' ⊢
    exact visits.returns_iff.mpr returns'
  · intro before line after split
    obtain ⟨later, visits, view, left⟩ :=
      visits_rejected env (RejectedLine.encodeAll after ++ rest) (before ++ [line]) unborn
    refine ⟨later, ?_, (bucket_of_settled view).1, ?_⟩
    · have chunk : RejectedLine.encodeAll lines ++ rest =
          RejectedLine.encodeAll (before ++ [line]) ++ (RejectedLine.encodeAll after ++ rest) := by
        simp [split, RejectedLine.encodeAll]
      rw [chunk]
      exact visits
    · have born : bornFrame sock later.cinfo = bornFrame sock st.cinfo := by
        rw [bornFrame, (bucket_of_settled view).2]
        rfl
      rw [left.2, born]
      by_cases empty : ∀ l ∈ before ++ [line], l.text = []
      · have none : ¬ ∃ l ∈ before ++ [line], l.text ≠ [] := by
          rintro ⟨l, mem, nonempty⟩
          exact nonempty (empty l mem)
        simp only [none, decide_false, Bool.or_false, Bool.false_eq_true, if_false]
        rw [if_pos empty]
      · have some : ∃ l ∈ before ++ [line], l.text ≠ [] := by
          simpa only [not_forall, exists_prop] using empty
        simp only [some, decide_true, Bool.or_true, if_true]
        rw [if_neg empty]

/-- After two refused lines and an empty one, an empty frame is received as without them. -/
theorem resynchronizes_small :
    ∃ result, recvData quietEnv.toRecvEnv 3
        (RejectedLine.encodeAll
            [⟨cstring "HELO", LF, by decide, by decide +kernel, by decide, Or.inl rfl⟩,
              ⟨[], LF, by decide, by decide +kernel, by decide, Or.inl rfl⟩,
              ⟨cstring "x", 0, by decide, by decide +kernel, by decide, Or.inr rfl⟩] ++
          (cstring "ABORT\ncontent-length:0\n\n" ++ [0]))
        ⟨connInit quietEnv.toRecvEnv 0, [], [], 0⟩ = some result ∧ result.bucket.length = 1 := by
  have alone : (recvData quietEnv.toRecvEnv 3 (cstring "ABORT\ncontent-length:0\n\n" ++ [0])
      ⟨connInit quietEnv.toRecvEnv 0, [], [], 0⟩).map (fun st => st.bucket.length) = some 1 := by
    decide +kernel
  obtain ⟨result, returns, one⟩ := Option.map_eq_some_iff.mp alone
  obtain ⟨result', returns', same⟩ :=
    (resynchronizes_after_garbage quietEnv.toRecvEnv 3 _ _ rfl rfl).1 result returns
  exact ⟨result', returns', by rw [same, one]⟩

end Newtmq
