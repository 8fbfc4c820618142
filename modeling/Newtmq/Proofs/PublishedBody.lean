/-
Module: Newtmq.Proofs.PublishedBody
Purpose: While the pieces of the bodies keep to the announced lengths and the connection is not closed
  within a body, every published frame has a body of the length that its header announced.
Trusted boundary: none
Main exports: BodyStage, frameUpdate_bodyStage, published_body_exact, published_body_inexact
-/
import Newtmq.Proofs.FrameSize
import Newtmq.Proofs.HandedLines
import Newtmq.Spec.PublishedBody

namespace Newtmq

/-! ### One frame -/

/-- What a frame has taken of its body, while it is being received. -/
def BodyStage (frame : Frame) : Prop :=
  frame.contentlen < 2147483648 ∧
    ((frame.status = .born ∨ frame.status = .inputHeader) ∧ frame.hasContentlen = 0 ∧
        frame.hData = [] ∨
      frame.status = .inputBody ∧ frame.hasContentlen = frame.bodyLength)

theorem frameHeaderLine_bodyStage {frame : Frame} (stage : BodyStage frame)
    (header : frame.status = .inputHeader) (line : List UInt8) (len : Nat) :
    BodyStage (frameHeaderLine line len frame) := by
  obtain ⟨bound, ⟨_, none, empty⟩ | ⟨body, _⟩⟩ := stage
  · rw [frameHeaderLine]
    split
    · refine ⟨?_, Or.inl ⟨Or.inr header, none, empty⟩⟩
      dsimp only
      split
      · exact wrap32_lt _
      · exact bound
    · exact ⟨bound, Or.inl ⟨Or.inr header, none, empty⟩⟩
  · rw [header] at body
    cases body

/-- A piece of a body that keeps to the announced length is counted as it is stored. -/
theorem frameBodyPiece_length {frame : Frame} (counted : frame.hasContentlen = frame.bodyLength)
    (bound : frame.contentlen < 2147483648) (line : HandedLine)
    (keeps : frame.hasContentlen + line.len ≤ frame.contentlen) :
    (frameBodyPiece line.memory line.len frame).hasContentlen =
        (frameBodyPiece line.memory line.len frame).bodyLength ∧
      (frameBodyPiece line.memory line.len frame).hasContentlen ≤ frame.contentlen := by
  have stored := (frameBodyPiece_stored frame line).data
  have length : (frameBodyPiece line.memory line.len frame).bodyLength =
      frame.bodyLength + line.len := by
    change entryBytes _ = entryBytes _ + _
    rw [stored, entryBytes_append, entryBytes_flatMap, List.map_singleton, List.sum_singleton]
  have has : (frameBodyPiece line.memory line.len frame).hasContentlen =
      frame.hasContentlen + line.len := by
    rw [frameBodyPiece]
    split
    · exact wrap32_of_bounds (by omega) (by omega)
    · have : line.len = 0 := by omega
      simp [this]
  rw [has, length]
  exact ⟨by rw [counted]; rfl, keeps⟩

/-- A call of `frame_update` with a line that keeps to the announced length. -/
theorem frameUpdate_bodyStage (env : RecvEnv) (rands : Nat) {frame : Frame} (stage : BodyStage frame)
    (line : HandedLine) (keeps : frame.status = .inputBody →
      frame.hasContentlen + line.len ≤ frame.contentlen) {ret : Int} {after : Frame}
    (updated : frameUpdate (frameFinish env rands) line.memory line.len frame = (ret, after)) :
    (0 < ret → BodyExact after) ∧ (¬ 0 < ret → BodyStage after) := by
  obtain ⟨bound, ⟨born | header, none, empty⟩ | ⟨body, counted⟩⟩ := stage
  · cases found : findFrameName line.memory line.len finfoArr with
    | none =>
        have result : (ret, after) = (-1, frame) := by
          rw [← updated]
          simp [frameUpdate, born, frameSetname, found]
        cases result
        refine ⟨fun done => absurd done (by decide), fun _ => ?_⟩
        exact ⟨bound, Or.inl ⟨Or.inl born, none, empty⟩⟩
    | some name =>
        simp only [frameUpdate, born, frameSetname, found] at updated
        cases updated
        refine ⟨fun done => absurd done (by decide), fun _ => ?_⟩
        exact ⟨bound, Or.inl ⟨Or.inr rfl, none, empty⟩⟩
  · have stage : BodyStage frame := ⟨bound, Or.inl ⟨Or.inr header, none, empty⟩⟩
    simp only [frameUpdate, header] at updated
    split at updated
    · cases updated
      refine ⟨fun done => absurd done (by decide), fun _ => ⟨bound, Or.inr ⟨rfl, ?_⟩⟩⟩
      simp [Frame.bodyLength, none, empty]
    · split at updated
      next blank =>
        cases updated
        obtain ⟨_, zero⟩ : isNl line.memory = true ∧ frame.contentlen = 0 := by simpa using blank
        refine ⟨fun _ _ => ?_, fun goesOn => absurd Int.one_pos goesOn⟩
        simp [finishFrame, frameFinish, Frame.bodyLength, empty, zero]
      · cases updated
        refine ⟨fun done => absurd done (by decide), fun _ => ?_⟩
        exact frameHeaderLine_bodyStage stage header _ _
  · obtain ⟨has, fits⟩ := frameBodyPiece_length counted bound line (keeps body)
    simp only [frameUpdate, body] at updated
    split at updated
    next complete =>
      cases updated
      refine ⟨fun _ _ => ?_, fun goesOn => absurd Int.one_pos goesOn⟩
      rw [frameBodyPiece_contentlen] at complete
      simp only [finishFrame, frameFinish, Frame.bodyLength] at has ⊢
      rw [frameBodyPiece_contentlen]
      omega
    · cases updated
      refine ⟨fun done => absurd done (by decide), fun _ => ⟨?_, Or.inr ⟨?_, has⟩⟩⟩
      · rw [frameBodyPiece_contentlen]
        exact bound
      · rw [frameBodyPiece_status]
        exact body

/-! ### Runs -/

/-- What every step that keeps to the announced length keeps. -/
structure BodiesExact (st : RecvState) : Prop where
  current : ∀ frame ∈ st.cinfo.frame, BodyStage frame
  bucket : ∀ frame ∈ st.bucket, BodyExact frame

variable {env : RecvEnv} {sock : Int}

theorem BodiesExact.prepare {st : RecvState} (inv : BodiesExact st) (sock : Int) :
    BodyStage (prepareFrame sock st.cinfo) := by
  cases current : st.cinfo.frame with
  | none =>
      rw [prepareFrame, current]
      exact ⟨by simp [allocFrame], Or.inl ⟨Or.inl rfl, rfl, rfl⟩⟩
  | some frame =>
      rw [prepareFrame, current]
      exact inv.current frame current

theorem BodiesExact.line {st : RecvState} (inv : BodiesExact st) (line : HandedLine)
    (keeps : ∀ frame ∈ st.cinfo.frame, frame.status = .inputBody →
      frame.hasContentlen + line.len ≤ frame.contentlen) :
    BodiesExact (afterUpdate env sock st (frameUpdate (frameFinish env st.rands) line.memory line.len
      (prepareFrame sock st.cinfo))).dropPrev := by
  have keeps' : (prepareFrame sock st.cinfo).status = .inputBody →
      (prepareFrame sock st.cinfo).hasContentlen + line.len ≤
        (prepareFrame sock st.cinfo).contentlen := by
    cases current : st.cinfo.frame with
    | none =>
        rw [prepareFrame, current]
        intro body
        cases body
    | some frame =>
        rw [prepareFrame, current]
        exact keeps frame current
  rcases updated : frameUpdate (frameFinish env st.rands) line.memory line.len
    (prepareFrame sock st.cinfo) with ⟨ret, after⟩
  obtain ⟨finished, goesOn⟩ :=
    frameUpdate_bodyStage env st.rands (inv.prepare sock) line keeps' updated
  by_cases done : 0 < ret
  · simp only [afterUpdate, done, if_true, RecvState.dropPrev]
    refine ⟨by rintro _ ⟨⟩, fun frame mem => ?_⟩
    rcases List.mem_append.mp mem with old | new
    · exact inv.bucket frame old
    · rw [List.mem_singleton.mp new]
      exact finished done
  · simp only [afterUpdate, done, if_false, RecvState.dropPrev]
    refine ⟨?_, inv.bucket⟩
    rintro _ ⟨⟩
    exact goesOn done

/-- A pass that hands on a piece of a body hands on `bodyPiece`. -/
theorem bodyPiece_of_body {st : RecvState} {frame : Frame} {curr : List UInt8}
    {recv : List UInt8 × RecvState} (current : st.cinfo.frame = some frame)
    (body : frame.status = .inputBody) (nonempty : curr ≠ [])
    (again : recvPass env sock (curr, st) = .again recv) :
    bodyPiece st.cinfo curr =
      some (joinedLine st.cinfo curr (ssplit curr st.isBodyInput).2).2 := by
  have mode := isBodyInput_of_status current body
  obtain ⟨c, rest, rfl⟩ := List.exists_cons_of_ne_nil nonempty
  simp only [recvPass, mode] at again
  rw [bodyPiece, if_neg nonempty, mode]
  split at again
  · cases again
  next handed => exact if_neg handed

theorem bodiesExact_pass {curr : List UInt8} {st : RecvState} (inv : BodiesExact st)
    (keeps : ∀ frame ∈ st.cinfo.frame, frame.status = .inputBody →
      ∀ len ∈ bodyPiece st.cinfo curr, frame.hasContentlen + len ≤ frame.contentlen) :
    (∀ result, recvPass env sock (curr, st) = .leave result → BodiesExact result) ∧
      ∀ next, recvPass env sock (curr, st) = .again next → BodiesExact next.2 := by
  cases curr with
  | nil =>
      constructor
      · rintro result ⟨⟩
        exact inv
      · rintro next ⟨⟩
  | cons c rest =>
      have inside := ssplit_le st.isBodyInput (List.cons_ne_nil c rest)
      rcases recvPass_cases env sock st (List.cons_ne_nil c rest) with leaves | goes
      · rw [leaves]
        constructor
        · rintro result ⟨⟩
          have same : (savePrev st.cinfo ((c :: rest).take
              (ssplit (c :: rest) st.isBodyInput).2)).frame = st.cinfo.frame := by
            unfold savePrev
            split <;> rfl
          refine ⟨?_, inv.bucket⟩
          rw [same]
          exact inv.current
        · rintro next ⟨⟩
      · have piece : ∀ frame ∈ st.cinfo.frame, frame.status = .inputBody →
            frame.hasContentlen + (joinedLine st.cinfo (c :: rest)
              (ssplit (c :: rest) st.isBodyInput).2).2 ≤ frame.contentlen := by
          intro frame current body
          exact keeps frame current body _
            (bodyPiece_of_body current body (List.cons_ne_nil c rest) goes)
        rw [goes]
        constructor
        · rintro result ⟨⟩
        · rintro next ⟨⟩
          generalize (ssplit (c :: rest) st.isBodyInput).2 = n at inside piece
          simp only [recvLine]
          split
          · exact inv.line ⟨_, _, joinedLine_inside st.cinfo inside⟩ piece
          · exact ⟨inv.current, inv.bucket⟩

/-- `conn_finish` publishes nothing when no body is being received. -/
theorem bodiesExact_close {st : RecvState} (inv : BodiesExact st)
    (outside : ∀ frame ∈ st.cinfo.frame, frame.status ≠ .inputBody) : connFinish env st = st := by
  cases current : st.cinfo.frame with
  | none => rw [connFinish, current]
  | some frame =>
      have body := outside frame current
      have name : frame.status ≠ .inputName := by
        obtain ⟨_, ⟨born | header, _⟩ | ⟨body, _⟩⟩ := inv.current frame current
        · simp [born]
        · simp [header]
        · simp [body]
      rw [connFinish, current]
      exact if_neg (not_or.mpr ⟨body, name⟩)

theorem bodiesExact_step (s : Receiving) (action : ReceiveAction) (next : Receiving)
    (inv : BodiesExact s.recv) (keeps : KeepsToLength s action)
    (taken : receiveStep env sock s action = some next) : BodiesExact next.recv := by
  cases action with
  | receive chunk =>
      obtain ⟨_, same⟩ := Option.ite_none_right_eq_some.mp taken
      cases same
      exact inv
  | pass =>
      obtain ⟨curr, running, same⟩ := Option.map_eq_some_iff.mp taken
      obtain ⟨leaves, goes⟩ := @bodiesExact_pass env sock _ _ inv (keeps curr running)
      subst same
      cases pass : recvPass env sock (curr, s.recv) with
      | again after => exact goes after pass
      | leave result => exact leaves result pass
  | close =>
      obtain ⟨_, same⟩ := Option.ite_none_right_eq_some.mp taken
      cases same
      rw [bodiesExact_close inv keeps]
      exact inv

/-- Calls of `recv_data` that return are a run of the receiving side. -/
theorem reaches_recvPasses {fuel : Nat} {curr : List UInt8} {st result : RecvState}
    (received : Loop.run (recvPass env sock) fuel (curr, st) = some result) :
    Transition.Reaches (receiveStep env sock) Transition.Always ⟨some curr, st, false⟩
      (Receiving.start result) := by
  induction fuel generalizing curr st with
  | zero => cases received
  | succ fuel ih =>
      cases pass : recvPass env sock (curr, st) with
      | again next =>
          rw [Loop.run_succ_again pass] at received
          exact Relation.ReflTransGen.head ⟨.pass, trivial, by simp [receiveStep, pass]⟩ (ih received)
      | leave found =>
          rw [Loop.run_succ_leave pass] at received
          cases received
          exact Relation.ReflTransGen.single
            ⟨.pass, trivial, by simp [receiveStep, pass, Receiving.start]⟩

theorem reaches_recvChunks {chunks : List (List UInt8)} {st result : RecvState}
    (received : recvChunks env sock chunks st = some result) :
    Transition.Reaches (receiveStep env sock) Transition.Always (Receiving.start st)
      (Receiving.start result) := by
  induction chunks generalizing st with
  | nil =>
      cases received
      exact Relation.ReflTransGen.refl
  | cons chunk chunks ih =>
      obtain ⟨next, first, rest⟩ := Option.bind_eq_some_iff.mp received
      exact Relation.ReflTransGen.head
        ⟨.receive chunk, trivial, by simp [receiveStep, Receiving.start]⟩
        ((reaches_recvPasses first).trans (ih rest))

/-- In every run of the receiving side whose steps keep to the announced lengths, every frame that has
been published has a body of the length that its header announced. -/
theorem published_body_exact (env : RecvEnv) (sock : Int) {st : RecvState}
    (idle : st.cinfo.frame = none) (empty : st.bucket = []) {s : Receiving}
    (reached : Transition.Reaches (receiveStep env sock) KeepsToLength (Receiving.start st) s) :
    ∀ frame ∈ s.recv.bucket, BodyExact frame := by
  have start : BodiesExact st := ⟨by simp [idle], by simp [empty]⟩
  exact (@Transition.Reaches.invariant _ _ _ _ (fun s => BodiesExact s.recv) bodiesExact_step _ _
    reached start).bucket

/-- A `SEND` frame with a body of the announced length, in one chunk, and the passes it takes. -/
def exactBodyRun : List ReceiveAction :=
  [.receive sendWithBody, .pass, .pass, .pass, .pass, .pass, .pass, .close]

theorem published_body_exact_send : ∃ s, Transition.Reaches (receiveStep quietEnv.toRecvEnv 3)
    KeepsToLength (Receiving.start newConnection) s ∧ s.closed = true ∧
    s.recv.bucket.map Frame.contentlen = [2] ∧ ∀ frame ∈ s.recv.bucket, BodyExact frame := by
  have result : (Transition.run
      (Transition.guarded (receiveStep quietEnv.toRecvEnv 3) KeepsToLength)
      (Receiving.start newConnection) exactBodyRun).map
        (fun s => (s.closed, s.recv.bucket.map Frame.contentlen)) = some (true, [2]) := by
    decide +kernel
  obtain ⟨s, taken, seen⟩ := Option.map_eq_some_iff.mp result
  obtain ⟨closed, announced⟩ := Prod.mk.inj seen
  have reached := Transition.reaches_of_guarded_run taken
  exact ⟨s, reached, closed, announced, published_body_exact _ 3 rfl rfl reached⟩

/-- A body that is longer than announced is published whole, and one that is cut by a disconnect is
published as far as it was stored. -/
theorem published_body_inexact :
    (¬ ∀ chunks st, recvChunks quietEnv.toRecvEnv 3 chunks newConnection = some st →
      ∀ frame ∈ st.bucket, BodyExact frame) ∧
    ¬ ∀ chunks st, recvChunks quietEnv.toRecvEnv 3 chunks newConnection = some st →
      ∀ frame ∈ (connFinish quietEnv.toRecvEnv st).bucket, frame ∉ st.bucket → BodyExact frame := by
  constructor
  · intro always
    have longer : (recvChunks quietEnv.toRecvEnv 3
        [cstring "SEND\ncontent-length:2\n\nabcde" ++ [0]] newConnection).map
          (fun st => decide (∀ frame ∈ st.bucket, BodyExact frame)) = some false := by
      decide +kernel
    obtain ⟨st, received, inexact⟩ := Option.map_eq_some_iff.mp longer
    exact of_decide_eq_false inexact (always _ st received)
  · intro always
    have shorter : (recvChunks quietEnv.toRecvEnv 3
        [cstring "SEND\ncontent-length:5\n\nab"] newConnection).map
          (fun st => decide (∀ frame ∈ (connFinish quietEnv.toRecvEnv st).bucket,
            frame ∉ st.bucket → BodyExact frame)) = some false := by
      decide +kernel
    obtain ⟨st, received, inexact⟩ := Option.map_eq_some_iff.mp shorter
    exact of_decide_eq_false inexact (always _ st received)

end Newtmq
