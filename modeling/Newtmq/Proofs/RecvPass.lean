/-
Module: Newtmq.Proofs.RecvPass
Purpose: One pass of the loop of `recv_data`, case by case: which line it takes, what it does to the
  connection, and where the cursor goes.
Trusted boundary: none
Main exports: RecvState.hold, RecvState.publish, recvPass_save, recvPass_line, RecvInvariant,
  recvLine_command, recvLine_header, recvLine_blank, recvLine_body_open, recvLine_body_complete
-/
import Newtmq.Core.Stomp
import Newtmq.Proofs.LineSplit

namespace Newtmq

variable {env : RecvEnv} {sock : Int}

/-- The connection goes on with `frame`, and no fragment is saved. -/
def RecvState.hold (st : RecvState) (frame : Frame) : RecvState :=
  { st with cinfo := { st.cinfo with frame := some frame, prevData := none } }

/-- The connection has published `frame`, and no fragment is saved. -/
def RecvState.publish (st : RecvState) (frame : Frame) : RecvState :=
  { st with
    cinfo := { st.cinfo with frame := none, prevData := none }
    bucket := st.bucket ++ [frame]
    rands := st.rands + (FRAME_ID_LEN - 1) }

@[simp] theorem afterUpdate_zero (st : RecvState) (frame : Frame) :
    (afterUpdate env sock st (0, frame)).dropPrev = st.hold frame := rfl

@[simp] theorem afterUpdate_one (st : RecvState) (frame : Frame) :
    (afterUpdate env sock st (1, frame)).dropPrev = st.publish frame := rfl

@[simp] theorem hold_hold (st : RecvState) (first second : Frame) :
    (st.hold first).hold second = st.hold second := rfl

@[simp] theorem hold_publish (st : RecvState) (first second : Frame) :
    (st.hold first).publish second = st.publish second := rfl

@[simp] theorem hold_frame (st : RecvState) (frame : Frame) :
    (st.hold frame).cinfo.frame = some frame := rfl

@[simp] theorem hold_prevData (st : RecvState) (frame : Frame) :
    (st.hold frame).cinfo.prevData = none := rfl

@[simp] theorem hold_bucket (st : RecvState) (frame : Frame) :
    (st.hold frame).bucket = st.bucket := rfl

@[simp] theorem publish_frame (st : RecvState) (frame : Frame) :
    (st.publish frame).cinfo.frame = none := rfl

@[simp] theorem publish_prevData (st : RecvState) (frame : Frame) :
    (st.publish frame).cinfo.prevData = none := rfl

@[simp] theorem publish_bucket (st : RecvState) (frame : Frame) :
    (st.publish frame).bucket = st.bucket ++ [frame] := rfl

/-! ### One pass, unfolded -/

theorem recvPass_nil (st : RecvState) : recvPass env sock ([], st) = .leave st := rfl

/-- An unfinished line that starts with no command is saved, and ends the call. -/
theorem recvPass_save {curr : List UInt8} {st : RecvState} {n : Nat}
    (split : ssplit curr st.isBodyInput = (.error, n)) (nonempty : curr ≠ [])
    (unknown : isFrameName curr n = .error) :
    recvPass env sock (curr, st) =
      .leave { st with cinfo := savePrev st.cinfo (curr.take n) } := by
  obtain ⟨c, rest, rfl⟩ := List.exists_cons_of_ne_nil nonempty
  simp [recvPass, split, unknown]

/-- Every other line is handed on. -/
theorem recvPass_line {curr : List UInt8} {st : RecvState} {ret : Ret} {n : Nat}
    (split : ssplit curr st.isBodyInput = (ret, n)) (nonempty : curr ≠ [])
    (known : ret = .success ∨ isFrameName curr n = .success) :
    recvPass env sock (curr, st) = .again (recvLine env sock curr n st) := by
  obtain ⟨c, rest, rfl⟩ := List.exists_cons_of_ne_nil nonempty
  have taken : ¬ (ret = .error ∧ isFrameName (c :: rest) n = .error) := by
    rintro ⟨rfl, unknown⟩
    rcases known with h | h
    · cases h
    · rw [unknown] at h
      cases h
  simp [recvPass, split, taken]

/-- A pass either saves the line and leaves, or hands it on. -/
theorem recvPass_cases (env : RecvEnv) (sock : Int) {curr : List UInt8} (st : RecvState)
    (nonempty : curr ≠ []) :
    recvPass env sock (curr, st) =
        .leave { st with
          cinfo := savePrev st.cinfo (curr.take (ssplit curr st.isBodyInput).2) } ∨
      recvPass env sock (curr, st) =
        .again (recvLine env sock curr (ssplit curr st.isBodyInput).2 st) := by
  obtain ⟨c, rest, rfl⟩ := List.exists_cons_of_ne_nil nonempty
  by_cases saved : (ssplit (c :: rest) st.isBodyInput).1 = .error ∧
      isFrameName (c :: rest) (ssplit (c :: rest) st.isBodyInput).2 = .error
  · exact Or.inl (by simp [recvPass, saved])
  · exact Or.inr (by simp [recvPass, saved])

/-! ### What all passes keep -/

@[simp] theorem savePrev_frame (cinfo : StompConninfo) (fragment : List UInt8) :
    (savePrev cinfo fragment).frame = cinfo.frame := by
  unfold savePrev
  split <;> rfl

@[simp] theorem savePrev_id (cinfo : StompConninfo) (fragment : List UInt8) :
    (savePrev cinfo fragment).id = cinfo.id := by
  unfold savePrev
  split <;> rfl

/-- A property of the connection that handing on a line and saving a part of one keep. -/
structure RecvInvariant (env : RecvEnv) (sock : Int) (holds : RecvState → Prop) : Prop where
  line : ∀ (st : RecvState) (curr : List UInt8) (n : Nat), n ≤ curr.length → holds st →
    holds (recvLine env sock curr n st).2
  save : ∀ (st : RecvState) (text : List UInt8), holds st →
    holds { st with cinfo := savePrev st.cinfo text }

namespace RecvInvariant

variable {holds : RecvState → Prop} (kept : RecvInvariant env sock holds)
include kept

theorem pass {curr : List UInt8} {st : RecvState} (start : holds st) :
    (∀ result, recvPass env sock (curr, st) = .leave result → holds result) ∧
      ∀ next, recvPass env sock (curr, st) = .again next → holds next.2 := by
  cases curr with
  | nil =>
      constructor
      · rintro result ⟨⟩
        exact start
      · rintro next ⟨⟩
  | cons c rest =>
      rcases recvPass_cases env sock st (List.cons_ne_nil c rest) with pass | pass
      · rw [pass]
        constructor
        · rintro result ⟨⟩
          exact kept.save st _ start
        · rintro next ⟨⟩
      · rw [pass]
        constructor
        · rintro result ⟨⟩
        · rintro next ⟨⟩
          exact kept.line st _ _ (ssplit_le st.isBodyInput (List.cons_ne_nil c rest)) start

theorem visits {curr later : List UInt8} {st there : RecvState}
    (visits : Loop.Visits (recvPass env sock) (curr, st) (later, there)) (start : holds st) :
    holds there :=
  Loop.Visits.invariant (fun s : List UInt8 × RecvState => holds s.2)
    (fun _ next start again => (kept.pass start).2 next again) visits start

theorem data {chunk : List UInt8} {st result : RecvState} (start : holds st)
    (returns : recvData env sock chunk st = some result) : holds result :=
  Loop.run_invariant (fun s : List UInt8 × RecvState => holds s.2) holds
    (fun _ next start again => (kept.pass start).2 next again)
    (fun _ result start leave => (kept.pass start).1 result leave) start returns

theorem chunks {chunks : List (List UInt8)} {st result : RecvState} (start : holds st)
    (returns : recvChunks env sock chunks st = some result) : holds result := by
  induction chunks generalizing st with
  | nil =>
      cases returns
      exact start
  | cons chunk chunks ih =>
      rw [recvChunks, List.foldlM_cons] at returns
      obtain ⟨next, first, others⟩ := Option.bind_eq_some_iff.mp returns
      exact ih (kept.data start first) others

end RecvInvariant

/-! ### Lines in a body -/

@[simp] theorem frameBodyPiece_contentlen (line : List UInt8) (len : Nat) (frame : Frame) :
    (frameBodyPiece line len frame).contentlen = frame.contentlen := by
  unfold frameBodyPiece
  split <;> rfl

@[simp] theorem frameBodyPiece_status (line : List UInt8) (len : Nat) (frame : Frame) :
    (frameBodyPiece line len frame).status = frame.status := by
  unfold frameBodyPiece
  split <;> rfl

theorem isBodyInput_of_status {st : RecvState} {frame : Frame}
    (current : st.cinfo.frame = some frame) (body : frame.status = .inputBody) :
    st.isBodyInput = true := by
  simp [RecvState.isBodyInput, current, body]

/-- In the body, a piece that leaves the announced length unreached is stored. -/
theorem recvLine_body_open {st : RecvState} {frame : Frame} {curr line : List UInt8} {n len : Nat}
    (current : st.cinfo.frame = some frame) (body : frame.status = .inputBody)
    (joined : joinedLine st.cinfo curr n = (line, len))
    (short : (frameBodyPiece line len frame).hasContentlen < frame.contentlen) :
    recvLine env sock curr n st =
      (curr.drop n, st.hold (frameBodyPiece line len frame)) := by
  have mode := isBodyInput_of_status current body
  have incomplete : ¬ frame.contentlen ≤ (frameBodyPiece line len frame).hasContentlen := by omega
  simp [recvLine, mode, joined, current, prepareFrame, frameUpdate, body, incomplete]

/-- In the body, a piece that reaches the announced length finishes the frame, and the byte after the
piece is skipped. -/
theorem recvLine_body_complete {st : RecvState} {frame : Frame} {curr line : List UInt8}
    {n len : Nat} (current : st.cinfo.frame = some frame) (body : frame.status = .inputBody)
    (joined : joinedLine st.cinfo curr n = (line, len))
    (complete : frame.contentlen ≤ (frameBodyPiece line len frame).hasContentlen) :
    recvLine env sock curr n st =
      (curr.drop (n + 1),
        st.publish (finishFrame (frameFinish env st.rands) (frameBodyPiece line len frame))) := by
  have mode := isBodyInput_of_status current body
  simp [recvLine, mode, joined, current, prepareFrame, frameUpdate, body, complete]

/-- Outside a body, a pass moves past the line and the byte after it. -/
theorem recvLine_header_next {st : RecvState} (mode : st.isBodyInput = false) (curr : List UInt8)
    (n : Nat) : (recvLine env sock curr n st).1 = curr.drop (n + 1) := by
  simp only [recvLine, mode]
  split <;> simp

/-! ### Lines outside a body -/

theorem isBodyInput_of_header {st : RecvState} {frame : Frame}
    (current : st.cinfo.frame = some frame) (header : frame.status ≠ .inputBody) :
    st.isBodyInput = false := by
  simp [RecvState.isBodyInput, current, header]

theorem isBodyInput_of_none {st : RecvState} (current : st.cinfo.frame = none) :
    st.isBodyInput = false := by
  simp [RecvState.isBodyInput, current]

theorem isBodyInput_of_born {st : RecvState} (born : (prepareFrame sock st.cinfo).status = .born) :
    st.isBodyInput = false := by
  cases current : st.cinfo.frame with
  | none => exact isBodyInput_of_none current
  | some frame =>
      refine isBodyInput_of_header current ?_
      simp only [prepareFrame, current] at born
      simp [born]

/-- A command line starts the header. -/
theorem recvLine_command {st : RecvState} {curr line w : List UInt8} {n len : Nat}
    (born : (prepareFrame sock st.cinfo).status = .born) (nonempty : 0 < len)
    (joined : joinedLine st.cinfo curr n = (line, len))
    (found : findFrameName line len finfoArr = some w) :
    recvLine env sock curr n st =
      (curr.drop (n + 1),
        st.hold { prepareFrame sock st.cinfo with
          name := w ++ (prepareFrame sock st.cinfo).name.drop w.length
          status := .inputHeader
          size := wrap32 ((prepareFrame sock st.cinfo).size + (len + 1)) }) := by
  have mode := isBodyInput_of_born born
  simp [recvLine, mode, joined, nonempty, frameUpdate, born, frameSetname, found]

/-- A line that starts with no command is answered with an error. -/
theorem recvLine_unknown {st : RecvState} {curr line : List UInt8} {n len : Nat}
    (born : (prepareFrame sock st.cinfo).status = .born)
    (active : st.cinfo.frame.isSome = true ∨ 0 < len)
    (joined : joinedLine st.cinfo curr n = (line, len))
    (unknown : findFrameName line len finfoArr = none) :
    recvLine env sock curr n st =
      (curr.drop (n + 1),
        { st.hold (prepareFrame sock st.cinfo) with
          wire := stompSendError env sock (cstring "failed to parse frame") st.wire }) := by
  have mode := isBodyInput_of_born born
  have taken : (st.cinfo.frame.isSome || decide (0 < len)) = true := by
    simpa using active
  simp [recvLine, mode, joined, taken, frameUpdate, born, frameSetname, unknown, afterUpdate,
    RecvState.dropPrev, RecvState.hold]

/-- A header line is stored. -/
theorem recvLine_header {st : RecvState} {frame : Frame} {curr line : List UInt8} {n len : Nat}
    (current : st.cinfo.frame = some frame) (header : frame.status = .inputHeader)
    (joined : joinedLine st.cinfo curr n = (line, len))
    (goesOn : isNl line = false ∨ frame.contentlen < 0) :
    recvLine env sock curr n st = (curr.drop (n + 1), st.hold (frameHeaderLine line len frame)) := by
  have mode := isBodyInput_of_header current (by simp [header])
  have notBody : (isNl line && decide (0 < frame.contentlen)) = false := by
    rcases goesOn with h | h
    · simp [h]
    · have : ¬ 0 < frame.contentlen := by omega
      simp [this]
  have notEmpty : (isNl line && decide (frame.contentlen = 0)) = false := by
    rcases goesOn with h | h
    · simp [h]
    · have : ¬ frame.contentlen = 0 := by omega
      simp [this]
  simp [recvLine, mode, joined, current, prepareFrame, frameUpdate, header, notBody, notEmpty]

/-- The blank line opens a body that is announced with a positive length. -/
theorem recvLine_blank {st : RecvState} {frame : Frame} {curr line : List UInt8} {n len : Nat}
    (current : st.cinfo.frame = some frame) (header : frame.status = .inputHeader)
    (joined : joinedLine st.cinfo curr n = (line, len)) (blank : isNl line = true)
    (announced : 0 < frame.contentlen) :
    recvLine env sock curr n st =
      (curr.drop (n + 1),
        st.hold { frame with status := .inputBody, size := wrap32 (frame.size + 1) }) := by
  have mode := isBodyInput_of_header current (by simp [header])
  simp [recvLine, mode, joined, current, prepareFrame, frameUpdate, header, blank, announced]

/-- The blank line finishes a frame whose body is announced empty. -/
theorem recvLine_blank_empty {st : RecvState} {frame : Frame} {curr line : List UInt8}
    {n len : Nat} (current : st.cinfo.frame = some frame) (header : frame.status = .inputHeader)
    (joined : joinedLine st.cinfo curr n = (line, len)) (blank : isNl line = true)
    (announced : frame.contentlen = 0) :
    recvLine env sock curr n st =
      (curr.drop (n + 1), st.publish (finishFrame (frameFinish env st.rands) frame)) := by
  have mode := isBodyInput_of_header current (by simp [header])
  simp [recvLine, mode, joined, current, prepareFrame, frameUpdate, header, blank, announced]

/-- Between frames, an empty line does nothing. -/
theorem recvLine_nothing {st : RecvState} (current : st.cinfo.frame = none)
    (saved : st.cinfo.prevData = none) (curr : List UInt8) :
    recvLine env sock curr 0 st = (curr.drop 1, st) := by
  obtain ⟨⟨id, frame, prevData⟩, bucket, wire, rands⟩ := st
  cases current
  cases saved
  simp [recvLine, RecvState.isBodyInput, joinedLine, RecvState.dropPrev]

end Newtmq
