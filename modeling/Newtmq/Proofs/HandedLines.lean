/-
Module: Newtmq.Proofs.HandedLines
Purpose: Every frame that `recv_data` finishes is what `frame_update` makes of the lines of one frame,
  however the stream is cut. When the size of such a frame, once `handler_stomp_send` has accepted it,
  is the number of bytes written for it.
Trusted boundary: none
Main exports: unfinished, exists_frameLines, Handed, handed_kept, size_exact_iff
-/
import Newtmq.Proofs.FrameSize
import Newtmq.Proofs.RecvPass
import Newtmq.Proofs.LineMemory

namespace Newtmq

open Loop (Visits)

/-! ### The lines of one frame -/

/-- The frame after lines none of which has finished it. -/
def unfinished : Frame → List HandedLine → Option Frame
  | frame, [] => some frame
  | frame, line :: lines =>
      let updated := frameUpdate id line.memory line.len frame
      if 0 < updated.1 then none else unfinished updated.2 lines

/-- What `frame_finish` does matters only for a frame that is finished. -/
theorem frameUpdate_finish (finish : Frame → Frame) (line : List UInt8) (len : Nat) (frame : Frame) :
    (frameUpdate finish line len frame).1 = (frameUpdate id line len frame).1 ∧
      (¬ 0 < (frameUpdate id line len frame).1 →
        frameUpdate finish line len frame = frameUpdate id line len frame) := by
  cases status : frame.status with
  | born => simp [frameUpdate, status]
  | inputHeader =>
      simp only [frameUpdate, status]
      split
      · exact ⟨rfl, fun _ => rfl⟩
      · split
        · exact ⟨rfl, fun ongoing => absurd Int.one_pos ongoing⟩
        · exact ⟨rfl, fun _ => rfl⟩
  | inputBody =>
      simp only [frameUpdate, status]
      split
      · exact ⟨rfl, fun ongoing => absurd Int.one_pos ongoing⟩
      · exact ⟨rfl, fun _ => rfl⟩
  | _ => simp [frameUpdate, status]

theorem unfinished_concat {start frame : Frame} {lines : List HandedLine} (line : HandedLine)
    (finish : Frame → Frame) (before : unfinished start lines = some frame)
    (goesOn : ¬ 0 < (frameUpdate finish line.memory line.len frame).1) :
    unfinished start (lines ++ [line]) =
      some (frameUpdate finish line.memory line.len frame).2 := by
  obtain ⟨ret, same⟩ := frameUpdate_finish finish line.memory line.len frame
  rw [ret] at goesOn
  induction lines generalizing start with
  | nil =>
      cases before
      rw [List.nil_append, unfinished, same goesOn]
      simp [goesOn, unfinished]
  | cons first lines ih =>
      rw [unfinished] at before
      obtain ⟨ongoing, rest⟩ := Option.ite_none_left_eq_some.mp before
      rw [List.cons_append, unfinished]
      simp only [ongoing, if_false]
      exact ih rest

theorem completes_concat {start frame : Frame} {lines : List HandedLine} (line : HandedLine)
    (finish : Frame → Frame) (before : unfinished start lines = some frame)
    (finished : 0 < (frameUpdate finish line.memory line.len frame).1) :
    completes finish start (lines ++ [line]) =
      some (frameUpdate finish line.memory line.len frame).2 := by
  induction lines generalizing start with
  | nil =>
      cases before
      simp [completes, finished]
  | cons first lines ih =>
      obtain ⟨ret, same⟩ := frameUpdate_finish finish first.memory first.len start
      rw [unfinished] at before
      obtain ⟨ongoing, rest⟩ := Option.ite_none_left_eq_some.mp before
      rw [List.cons_append, completes, same ongoing]
      simp only [ongoing, if_false]
      exact ih rest

theorem exists_header {finish : Frame → Frame} {lines : List HandedLine} {frame done : Frame}
    (header : frame.status = .inputHeader) (complete : completes finish frame lines = some done) :
    ∃ headers blank body, lines = headers ++ blank :: body ∧
      HeaderGoesOn frame.contentlen headers ∧ isNl blank.memory = true ∧
      0 ≤ headers.foldl announce frame.contentlen := by
  induction lines generalizing frame with
  | nil => cases complete
  | cons line lines ih =>
      by_cases ends : isNl line.memory = true ∧ 0 ≤ frame.contentlen
      · exact ⟨[], line, lines, rfl, trivial, ends⟩
      · have goesOn : isNl line.memory = true → frame.contentlen < 0 := by
          intro newline
          by_contra notNegative
          exact ends ⟨newline, by omega⟩
        have grows := frameHeaderLine_grows frame line
        have announced : (frameHeaderLine line.memory line.len frame).contentlen =
            announce frame.contentlen line := grows.contentlen
        rw [completes, frameUpdate_headerLine header line goesOn] at complete
        obtain ⟨headers, blank, body, rfl, later, newline, nonneg⟩ :=
          ih (grows.status.trans header) complete
        rw [announced] at later nonneg
        exact ⟨line :: headers, blank, body, rfl, ⟨goesOn, later⟩, newline, nonneg⟩

/-- Lines that complete a new frame are the lines of one frame. -/
theorem exists_frameLines {finish : Frame → Frame} {lines : List HandedLine} {frame done : Frame}
    (born : frame.status = .born) (silent : frame.contentlen = -1)
    (complete : completes finish frame lines = some done) :
    ∃ one : FrameLines, one.all = lines := by
  induction lines with
  | nil => cases complete
  | cons line lines ih =>
      cases found : findFrameName line.memory line.len finfoArr with
      | none =>
          have update : frameUpdate finish line.memory line.len frame = (-1, frame) := by
            simp [frameUpdate, born, frameSetname, found]
          rw [completes, update] at complete
          obtain ⟨one, rfl⟩ := ih complete
          have unknown : isFrameName line.memory line.len = .error := by
            rw [isFrameName, found]
          refine ⟨{ one with rejected := line :: one.rejected, unknown := ?_ }, rfl⟩
          intro other mem
          rcases List.mem_cons.mp mem with rfl | old
          · exact unknown
          · exact one.unknown other old
      | some name =>
          have update : frameUpdate finish line.memory line.len frame =
              (0, { frame with
                name := name ++ frame.name.drop name.length, status := .inputHeader
                size := wrap32 (frame.size + (line.len + 1)) }) := by
            simp [frameUpdate, born, frameSetname, found]
          rw [completes, update] at complete
          obtain ⟨headers, blank, body, rfl, goesOn, newline, nonneg⟩ := exists_header rfl complete
          rw [silent] at goesOn nonneg
          exact ⟨{
            rejected := []
            command := line
            headers := headers
            blank := blank
            body := body
            unknown := fun _ mem => by cases mem
            known := by rw [isFrameName, found]
            goesOn := goesOn
            ends := ⟨newline, nonneg⟩ }, rfl⟩

/-! ### The connection -/

/-- The frame that a connection starts with. -/
def newFrame (sock : Int) (id : List UInt8) : Frame :=
  { allocFrame with sock := sock, cinfo := some id }

/-- The frame of a connection with this id is what its lines made of it so far, and the frames that
it has added to the bucket are what their lines made of them. -/
structure Handed (env : RecvEnv) (sock : Int) (id : List UInt8) (bucket : List Frame)
    (st : RecvState) : Prop where
  connection : st.cinfo.id = id
  current : ∀ frame, st.cinfo.frame = some frame →
    ∃ lines, unfinished (newFrame sock id) lines = some frame
  added : ∃ new, st.bucket = bucket ++ new ∧ ∀ frame ∈ new,
    ∃ lines : FrameLines, lines.Make env sock id frame

variable {env : RecvEnv} {sock : Int} {id : List UInt8} {bucket : List Frame}

theorem joinedLine_inside (cinfo : StompConninfo) {curr : List UInt8} {n : Nat}
    (inside : n ≤ curr.length) :
    (joinedLine cinfo curr n).2 ≤ (joinedLine cinfo curr n).1.length := by
  unfold joinedLine
  split
  · simp only [List.length_append, List.length_take, List.length_cons, List.length_nil]
    omega
  · exact inside

theorem Handed.prepare {st : RecvState} (handed : Handed env sock id bucket st) :
    ∃ lines, unfinished (newFrame sock id) lines = some (prepareFrame sock st.cinfo) := by
  cases current : st.cinfo.frame with
  | some frame =>
      have same : prepareFrame sock st.cinfo = frame := by simp [prepareFrame, current]
      rw [same]
      exact handed.current frame current
  | none =>
      have same : prepareFrame sock st.cinfo = newFrame sock id := by
        simp [prepareFrame, current, newFrame, handed.connection]
      exact ⟨[], by rw [same, unfinished]⟩

/-- A line that is handed on is added to the lines of the current frame. -/
theorem Handed.line {st : RecvState} (handed : Handed env sock id bucket st) (line : HandedLine) :
    Handed env sock id bucket (afterUpdate env sock st
      (frameUpdate (frameFinish env st.rands) line.memory line.len
        (prepareFrame sock st.cinfo))).dropPrev := by
  obtain ⟨lines, before⟩ := handed.prepare
  obtain ⟨new, added, made⟩ := handed.added
  rcases updated : frameUpdate (frameFinish env st.rands) line.memory line.len
      (prepareFrame sock st.cinfo) with ⟨ret, frame⟩
  by_cases finished : 0 < ret
  · have complete := completes_concat line (frameFinish env st.rands) before
      (by rw [updated]; exact finished)
    rw [updated] at complete
    obtain ⟨one, all⟩ := exists_frameLines rfl rfl complete
    simp only [afterUpdate, finished, if_true, RecvState.dropPrev]
    refine ⟨handed.connection, ?_, new ++ [frame], ?_, ?_⟩
    · intro _ none
      cases none
    · rw [added, List.append_assoc]
    · intro other mem
      rcases List.mem_append.mp mem with old | last
      · exact made other old
      · obtain rfl := List.mem_singleton.mp last
        exact ⟨one, st.rands, by rw [all]; exact complete⟩
  · have goesOn := unfinished_concat line (frameFinish env st.rands) before
      (by rw [updated]; exact finished)
    rw [updated] at goesOn
    simp only [afterUpdate, finished, if_false, RecvState.dropPrev]
    refine ⟨handed.connection, ?_, new, added, made⟩
    intro other same
    cases same
    exact ⟨_, goesOn⟩

/-- All that `recv_data` does keeps it. -/
theorem handed_kept : RecvInvariant env sock (Handed env sock id bucket) where
  line st curr n inside handed := by
    have joined := joinedLine_inside st.cinfo inside
    simp only [recvLine]
    split
    · exact handed.line ⟨_, _, joined⟩
    · exact ⟨handed.connection, handed.current, handed.added⟩
  save st text handed := by
    refine ⟨?_, ?_, handed.added⟩
    · rw [savePrev_id]
      exact handed.connection
    · rw [savePrev_frame]
      exact handed.current

/-! ### The size -/

theorem wrap32_eq_iff {x y : Int} (nonneg : 0 ≤ y) :
    wrap32 x = y ↔ 4294967296 ∣ x - y ∧ y < 2147483648 := by
  simp only [wrap32, Int.bmod]
  omega

/-- Whatever `recv_data` has received in whatever chunks, each frame it has finished was made of the
lines of one frame; and when `handler_stomp_send` accepts it, its size is the number of bytes written
for it exactly when nothing in these lines is counted in excess. -/
theorem size_exact_iff (env : RecvEnv) (sock : Int) {start st : RecvState}
    {chunks : List (List UInt8)} {chunk curr : List UInt8} {later : RecvState}
    (idle : start.cinfo.frame = none) (received : recvChunks env sock chunks start = some st)
    (visited : Visits (recvPass env sock) (chunk, st) (curr, later)) :
    ∃ new, later.bucket = start.bucket ++ new ∧ ∀ frame ∈ new,
      (∃ lines : FrameLines, lines.Make env sock start.cinfo.id frame) ∧
      ∀ lines : FrameLines, lines.Make env sock start.cinfo.id frame →
        ∀ (server : ServerEnv) (address : Nat) (before after : Server) (accepted : FrameObject),
          handlerStompSend server ⟨address, frame⟩ before = some (some accepted, after) →
            (accepted.frame.size = (frameBytes accepted.frame).length ↔ lines.SizeExact) := by
  have fresh : Handed env sock start.cinfo.id start.bucket start := by
    refine ⟨rfl, ?_, [], by simp, by simp⟩
    intro frame current
    rw [idle] at current
    cases current
  have handed : Handed env sock start.cinfo.id start.bucket later :=
    handed_kept.visits visited (handed_kept.chunks fresh received)
  obtain ⟨new, added, made⟩ := handed.added
  refine ⟨new, added, fun frame mem => ⟨made frame mem, ?_⟩⟩
  intro lines make server address before after accepted handled
  have described := make.describe
  obtain ⟨size, bytes⟩ := handlerStompSend_bytes handled
  have written : ((frameBytes accepted.frame).length : Int) = lines.counted - lines.excess := by
    rw [bytes, ← described.bytes, described.attrs]
    push_cast
    rfl
  rw [size, described.size, wrap32_eq_iff (Int.natCast_nonneg _), written, FrameLines.SizeExact]
  have cancel : (lines.counted : Int) - (lines.counted - lines.excess) = lines.excess := by omega
  rw [cancel]

/-- A new connection, with an empty bucket. -/
def newConnection : RecvState :=
  ⟨connInit quietEnv.toRecvEnv 0, [], [], 0⟩

/-- The size of the first frame of a stream, and the number of bytes written for it, when it is
accepted. -/
def sizeAndBytes (stream : List UInt8) : Option (Int × Nat) :=
  (recvChunks quietEnv.toRecvEnv 3 [stream] newConnection).bind fun st =>
    st.bucket.head?.bind fun frame =>
      (handlerStompSend quietEnv ⟨0, frame⟩ (Server.init [] fun _ => none)).bind fun handled =>
        handled.1.map fun accepted => (accepted.frame.size, (frameBytes accepted.frame).length)

theorem sizeAndBytes_eq_some {stream : List UInt8} {size : Int} {bytes : Nat}
    (result : sizeAndBytes stream = some (size, bytes)) :
    ∃ st frame accepted after,
      recvChunks quietEnv.toRecvEnv 3 [stream] newConnection = some st ∧ frame ∈ st.bucket ∧
      handlerStompSend quietEnv ⟨0, frame⟩ (Server.init [] fun _ => none) =
        some (some accepted, after) ∧
      accepted.frame.size = size ∧ (frameBytes accepted.frame).length = bytes := by
  obtain ⟨st, received, rest⟩ := Option.bind_eq_some_iff.mp result
  obtain ⟨frame, first, rest⟩ := Option.bind_eq_some_iff.mp rest
  obtain ⟨⟨ret, after⟩, handled, rest⟩ := Option.bind_eq_some_iff.mp rest
  obtain ⟨accepted, rfl, pair⟩ := Option.map_eq_some_iff.mp rest
  obtain ⟨rfl, rfl⟩ := Prod.mk.inj pair
  exact ⟨st, frame, accepted, after, received, List.mem_of_mem_head? first, handled, rfl, rfl⟩

/-- A `SEND` frame with a body. -/
def sendWithBody : List UInt8 :=
  cstring "SEND\ndestination:q\ncontent-length:2\n\nab" ++ [0]

theorem size_exact_sendWithBody :
    ∃ st frame, recvChunks quietEnv.toRecvEnv 3 [sendWithBody] newConnection = some st ∧
      frame ∈ st.bucket ∧ ∃ lines : FrameLines,
        lines.Make quietEnv.toRecvEnv 3 newConnection.cinfo.id frame ∧ lines.SizeExact := by
  have result : sizeAndBytes sendWithBody = some (40, 40) := by decide +kernel
  obtain ⟨st, frame, accepted, after, received, mem, handled, size, bytes⟩ :=
    sizeAndBytes_eq_some result
  obtain ⟨new, added, told⟩ := size_exact_iff quietEnv.toRecvEnv 3 rfl received
    (Relation.ReflTransGen.refl : Visits _ ([], st) ([], st))
  have memNew : frame ∈ new := by simpa [added, newConnection] using mem
  obtain ⟨⟨lines, make⟩, same⟩ := told frame memNew
  refine ⟨st, frame, received, mem, lines, make, ?_⟩
  exact (same lines make quietEnv 0 _ after accepted handled).mp (by rw [size, bytes]; rfl)

/-- A `SEND` frame without a body. -/
def sendWithoutBody : List UInt8 :=
  cstring "SEND\ndestination:q\ncontent-length:0\n\n" ++ [0]

theorem size_short_without_body :
    ¬ ∀ (chunks : List (List UInt8)) (st : RecvState) (frame : Frame),
      recvChunks quietEnv.toRecvEnv 3 chunks newConnection = some st → frame ∈ st.bucket →
      ∀ (before after : Server) (accepted : FrameObject),
        handlerStompSend quietEnv ⟨0, frame⟩ before = some (some accepted, after) →
          accepted.frame.size = (frameBytes accepted.frame).length := by
  intro always
  have result : sizeAndBytes sendWithoutBody = some (37, 38) := by decide +kernel
  obtain ⟨st, frame, accepted, after, received, mem, handled, size, bytes⟩ :=
    sizeAndBytes_eq_some result
  have equal := always _ st frame received mem _ after accepted handled
  rw [size, bytes] at equal
  exact absurd equal (by decide)

end Newtmq
