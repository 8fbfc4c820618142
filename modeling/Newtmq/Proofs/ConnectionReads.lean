/-
Module: Newtmq.Proofs.ConnectionReads
Purpose: One connection thread, step by step, beside the byte-wise reader of its stream: whatever pieces
  `recv` returns, the frames it has linked carry the first messages of the stream, and all of them once
  the stream has been read.
Trusted boundary: none
Main exports: readable_messagesOf, StoredFrames, storedFrames_kept, Tracks.prefix, Reads, reads_start,
  reads_step, Reads.messages_prefix, Reads.messages_all
-/
import Newtmq.Core.Receiving
import Newtmq.Proofs.FiledFrames
import Newtmq.Proofs.RecvCuts
import Newtmq.Proofs.TransactionalSend

namespace Newtmq

variable {env : RecvEnv} {sock : Int}

/-! ### What a stream contains -/

/-- The name and the lines of a draft are those of a readable message. -/
structure Draft.Readable (draft : Draft) : Prop where
  name : draft.name ∈ finfoArr
  clean : ∀ line ∈ draft.headers, (0 : UInt8) ∉ line

def Reading.Readable : Reading → Prop
  | .command _ => True
  | .header draft line => draft.Readable ∧ (0 : UInt8) ∉ line
  | .body draft _ => draft.Readable

structure Reader.Readable (reader : Reader) : Prop where
  reading : reader.reading.Readable
  published : ∀ message ∈ reader.published, message.Readable

theorem findFrameName_mem {data w : List UInt8} {len : Nat} {rows : List (List UInt8)}
    (found : findFrameName data len rows = some w) : w ∈ rows := by
  induction rows with
  | nil => cases found
  | cons name rows ih =>
      rw [findFrameName] at found
      split at found
      · exact List.mem_cons_of_mem _ (ih found)
      · split at found
        · cases found
          exact List.mem_cons_self
        · exact List.mem_cons_of_mem _ (ih found)

theorem readable_endCommand (line : List UInt8) : (endCommand line).Readable := by
  rw [endCommand]
  split
  · next w found =>
      refine ⟨⟨findFrameName_mem found, ?_⟩, List.not_mem_nil⟩
      intro line mem
      cases mem
  · trivial

theorem Draft.Readable.addLine {draft : Draft} (readable : draft.Readable) {line : List UInt8}
    (clean : (0 : UInt8) ∉ line) : (draft.addLine line).Readable where
  name := readable.name
  clean other mem := by
    rcases List.mem_append.mp mem with before | new
    · exact readable.clean other before
    · rw [List.mem_singleton.mp new]
      exact clean

theorem Draft.Readable.finish {draft : Draft} (readable : draft.Readable) (body : List UInt8) :
    (draft.finish body).Readable := ⟨readable.name, readable.clean⟩

/-- One more message. -/
theorem Reader.Readable.publish {reader : Reader} (readable : reader.Readable) {message : Message}
    (new : message.Readable) : (Reader.mk (.command []) (reader.published ++ [message])).Readable where
  reading := trivial
  published other mem := by
    rcases List.mem_append.mp mem with before | last
    · exact readable.published other before
    · rw [List.mem_singleton.mp last]
      exact new

theorem Reader.Readable.feed {reader : Reader} (readable : reader.Readable) (b : UInt8) :
    (Newtmq.feed reader b).Readable := by
  rcases reader with ⟨reading, published⟩
  have here := readable.reading
  cases reading with
  | command line =>
      simp only [Newtmq.feed]
      split
      · exact ⟨readable_endCommand line, readable.published⟩
      · exact ⟨trivial, readable.published⟩
  | header draft line =>
      obtain ⟨draftReadable, clean⟩ := here
      cases line with
      | nil =>
          simp only [Newtmq.feed]
          split
          · split
            · exact ⟨⟨draftReadable.name, draftReadable.clean⟩, readable.published⟩
            · split
              · exact readable.publish (draftReadable.finish [])
              · exact readable
          · split
            · exact readable
            · next nonzero =>
                refine ⟨⟨draftReadable, ?_⟩, readable.published⟩
                exact fun mem => nonzero (List.mem_singleton.mp mem).symm
      | cons c line =>
          simp only [Newtmq.feed]
          split
          · exact ⟨⟨draftReadable.addLine clean, List.not_mem_nil⟩, readable.published⟩
          · next inside =>
              refine ⟨⟨draftReadable, ?_⟩, readable.published⟩
              intro mem
              rcases List.mem_append.mp mem with before | last
              · exact clean before
              · exact inside (Or.inl (List.mem_singleton.mp last).symm)
  | body draft got =>
      have here : draft.Readable := here
      simp only [Newtmq.feed]
      split
      · split
        · exact readable.publish (here.finish got)
        · exact readable
      · exact ⟨here, readable.published⟩

theorem Reader.Readable.feeds {reader : Reader} (readable : reader.Readable) (bytes : List UInt8) :
    (Newtmq.feeds reader bytes).Readable := by
  induction bytes generalizing reader with
  | nil => exact readable
  | cons b bytes ih => exact ih (readable.feed b)

/-- The messages of every stream are readable. -/
theorem readable_messagesOf (stream : List UInt8) :
    ∀ message ∈ messagesOf stream, message.Readable := by
  have fresh : Reader.start.Readable := ⟨trivial, fun _ mem => absurd mem List.not_mem_nil⟩
  exact (fresh.feeds stream).published

/-- A reader keeps what it has published. -/
theorem published_feed (reader : Reader) (b : UInt8) :
    reader.published <+: (feed reader b).published := by
  rcases reader with ⟨reading, published⟩
  rcases reading with line | ⟨draft, _ | ⟨c, line⟩⟩ | ⟨draft, got⟩
  · simp only [feed]
    split <;> exact List.prefix_refl _
  · simp only [feed]
    split
    · split
      · exact List.prefix_refl _
      · split
        · exact List.prefix_append _ _
        · exact List.prefix_refl _
    · split <;> exact List.prefix_refl _
  · simp only [feed]
    split <;> exact List.prefix_refl _
  · simp only [feed]
    split
    · split
      · exact List.prefix_append _ _
      · exact List.prefix_refl _
    · exact List.prefix_refl _

theorem published_feeds (reader : Reader) (bytes : List UInt8) :
    reader.published <+: (feeds reader bytes).published := by
  induction bytes generalizing reader with
  | nil => exact List.prefix_refl _
  | cons b bytes ih => exact (published_feed reader b).trans (ih (feed reader b))

/-! ### Stored lines -/

/-- The entries have the length of what is written to them. -/
def LinesStored (lines : List Linedata) : Prop :=
  ∀ line ∈ lines, line = storedLine line.data

theorem linesStored_setdataEntries (fuel : Nat) (data : List UInt8) :
    LinesStored (setdataEntries fuel data) := by
  induction fuel generalizing data with
  | zero => exact nofun
  | succ fuel ih =>
      intro line mem
      rw [setdataEntries, List.mem_cons] at mem
      rcases mem with rfl | mem
      · rw [storedLine, List.length_take, Nat.min_comm]
      · split at mem
        · exact ih _ line mem
        · cases mem

theorem LinesStored.eq_map {lines : List Linedata} (stored : LinesStored lines) :
    lines = (entryLines lines).map storedLine := by
  rw [entryLines, List.map_map]
  refine (List.map_id lines).symm.trans (List.map_congr_left fun line mem => ?_)
  rw [id, Function.comp_apply, stored line mem, storedLine_bytes]

/-- A frame of the connection with this id: its lines are stored as they were read, and it has no
callback. -/
structure Frame.From (id : List UInt8) (frame : Frame) : Prop where
  cinfo : frame.cinfo = some id
  lines : LinesStored frame.hAttrs
  received : frame.transactionCallback = none

theorem Frame.From.storedFor {id : List UInt8} {frame : Frame} (comes : frame.From id) :
    frame.StoredFor id := ⟨comes.cinfo, comes.lines.eq_map⟩

/-- `frame_finish` leaves the lines as they are. -/
structure KeepsOrigin (finish : Frame → Frame) : Prop where
  cinfo : ∀ frame, (finish frame).cinfo = frame.cinfo
  lines : ∀ frame, (finish frame).hAttrs = frame.hAttrs
  callback : ∀ frame, (finish frame).transactionCallback = frame.transactionCallback

theorem keepsOrigin_frameFinish (env : RecvEnv) (rands : Nat) : KeepsOrigin (frameFinish env rands) :=
  ⟨fun _ => rfl, fun _ => rfl, fun _ => rfl⟩

theorem KeepsOrigin.from {finish : Frame → Frame} (keeps : KeepsOrigin finish) {id : List UInt8}
    {frame : Frame} (comes : frame.From id) : (finish frame).From id where
  cinfo := (keeps.cinfo frame).trans comes.cinfo
  lines := by
    rw [LinesStored, keeps.lines frame]
    exact comes.lines
  received := (keeps.callback frame).trans comes.received

/-- `frame_update` appends entries that `stomp_setdata` makes. -/
theorem Frame.From.frameUpdate {finish : Frame → Frame} (keeps : KeepsOrigin finish) {id : List UInt8}
    {frame : Frame} (comes : frame.From id) (line : List UInt8) (len : Nat) :
    (Newtmq.frameUpdate finish line len frame).2.From id := by
  have header : (frameHeaderLine line len frame).From id := by
    rw [frameHeaderLine]
    split
    · refine ⟨comes.cinfo, ?_, comes.received⟩
      intro entry mem
      rcases List.mem_append.mp mem with before | new
      · exact comes.lines entry before
      · exact linesStored_setdataEntries _ _ entry new
    · exact comes
  have body : (frameBodyPiece line len frame).From id := by
    rw [frameBodyPiece]
    split
    · exact ⟨comes.cinfo, comes.lines, comes.received⟩
    · exact comes
  have finishes : ∀ {frame : Frame}, frame.From id → (finishFrame finish frame).From id := by
    intro frame comes
    have kept := keeps.from comes
    exact ⟨kept.cinfo, kept.lines, kept.received⟩
  rw [Newtmq.frameUpdate]
  split
  · rw [frameSetname]
    split
    · exact comes
    · next named =>
        split at named
        · cases named
          exact ⟨comes.cinfo, comes.lines, comes.received⟩
        · cases named
  · split
    · exact ⟨comes.cinfo, comes.lines, comes.received⟩
    · split
      · exact finishes comes
      · exact header
  · dsimp only
    split
    · exact finishes body
    · exact body
  · exact comes

/-- The frames of the thread of the connection with this id. -/
structure StoredFrames (id : List UInt8) (st : RecvState) : Prop where
  sameId : st.cinfo.id = id
  bucket : ∀ frame ∈ st.bucket, frame.From id
  current : ∀ frame ∈ st.cinfo.frame, frame.From id

theorem StoredFrames.prepareFrame {id : List UInt8} {st : RecvState} (stored : StoredFrames id st)
    (sock : Int) : (Newtmq.prepareFrame sock st.cinfo).From id := by
  rw [Newtmq.prepareFrame]
  split
  · next frame current => exact stored.current frame current
  · refine ⟨congrArg some stored.sameId, ?_, rfl⟩
    intro entry mem
    cases mem

/-- Every line that is handed on keeps this. -/
theorem storedFrames_kept (env : RecvEnv) (sock : Int) (id : List UInt8) :
    RecvInvariant env sock (StoredFrames id) where
  line st curr n _ stored := by
    rcases joined : joinedLine st.cinfo curr n with ⟨line, len⟩
    have updated := (stored.prepareFrame sock).frameUpdate
      (keepsOrigin_frameFinish env st.rands) line len
    simp only [recvLine, joined]
    split
    · simp only [afterUpdate]
      split
      · refine ⟨stored.sameId, ?_, ?_⟩
        · intro frame mem
          rcases List.mem_append.mp mem with before | new
          · exact stored.bucket frame before
          · rw [List.mem_singleton.mp new]
            exact updated
        · intro frame mem
          cases mem
      · refine ⟨stored.sameId, stored.bucket, ?_⟩
        rintro frame ⟨⟩
        exact updated
    · exact ⟨stored.sameId, stored.bucket, stored.current⟩
  save st text stored := by
    refine ⟨?_, stored.bucket, ?_⟩
    · rw [savePrev_id]
      exact stored.sameId
    · rw [savePrev_frame]
      exact stored.current

/-! ### The thread beside the reader -/

/-- What the connection has published so far are messages that the reader is going to publish. -/
theorem Tracks.prefix {reader : Reader} {st : RecvState} (tracks : Tracks sock [] reader st)
    {more : List UInt8} (safe : SafeFrom reader more) :
    st.bucket.map Frame.message <+: (feeds reader more).published := by
  cases tracks with
  | line _ _ _ _ _ _ bucket =>
      rw [bucket, List.nil_append]
      exact published_feeds ⟨_, _⟩ more
  | lineEarly _ _ _ _ _ _ bucket =>
      rw [bucket, List.nil_append]
      exact published_feeds ⟨_, _⟩ more
  | body _ _ _ _ _ _ _ _ bucket =>
      rw [bucket, List.nil_append]
      exact published_feeds ⟨_, _⟩ more
  | @bodyEarly draft got published _ _ _ reached holds bucket =>
      rw [bucket]
      cases more with
      | nil =>
          rcases safe with short | silent
          · exact absurd reached (by omega)
          · exact absurd holds silent
      | cons b more =>
          -- the next byte can only be the NUL that ends the body
          have ends : b = 0 := by
            rcases safe.1 with ⟨zero, -⟩ | ⟨-, short | ⟨-, silent⟩⟩
            · exact zero
            · exact absurd reached (by omega)
            · exact absurd holds silent
          subst ends
          have fed : (feed ⟨.body draft got, published⟩ 0).published =
              published ++ [draft.finish got] := by
            simp only [feed, if_true, if_pos reached]
          rw [List.nil_append, ← fed]
          exact published_feeds ⟨_, _⟩ more

/-- The thread of a connection, which is still to receive `unread`, has read the stream as the reader
does. -/
structure Reads (sock : Int) (id : List UInt8) (stream unread : List UInt8) (s : Receiving) : Prop where
  stored : StoredFrames id s.recv
  tracks : ∃ used, stream = used ++ (s.rest.getD [] ++ unread) ∧
    Tracks sock [] (feeds .start used) s.recv
  closed : s.closed = true → unread = [] ∧ s.rest = none

theorem reads_start (env : RecvEnv) (sock : Int) (stream : List UInt8) :
    Reads sock (connInit env 0).id stream stream (.start (connStart env)) where
  stored := ⟨rfl, fun _ mem => absurd mem List.not_mem_nil, nofun⟩
  tracks := ⟨[], rfl, .line [] rfl rfl rfl (by simp) rfl rfl⟩
  closed := nofun

/-- Outside a body, `conn_finish` does nothing. -/
theorem connFinish_eq_self {reader : Reader} {st : RecvState} (tracks : Tracks sock [] reader st)
    (outside : ¬ reader.reading.InBody) : connFinish env st = st := by
  have rests : ∀ {reading : Reading}, ¬ reading.InBody → AtLine sock reading st →
      ∀ frame ∈ st.cinfo.frame, frame.status ≠ .inputBody ∧ frame.status ≠ .inputName := by
    intro reading outside place frame current
    cases reading with
    | command line =>
        have rest : AtRest sock st := place
        have born := rest.born
        rw [prepareFrame, current] at born
        rw [born]
        decide
    | header draft line =>
        obtain ⟨other, held, rel⟩ := place
        rw [held] at current
        cases current
        rw [rel.status]
        decide
    | body draft got => exact absurd trivial outside
  have keeps : (∀ frame ∈ st.cinfo.frame, frame.status ≠ .inputBody ∧ frame.status ≠ .inputName) →
      connFinish env st = st := by
    intro apart
    rw [connFinish]
    split
    · next frame current =>
        obtain ⟨notBody, notName⟩ := apart frame current
        rw [if_neg (not_or.mpr ⟨notBody, notName⟩)]
    · rfl
  cases tracks with
  | line _ _ place _ _ _ _ => exact keeps (rests outside place)
  | @lineEarly reading _ _ line isLine place _ _ _ _ =>
      refine keeps (rests ?_ place)
      cases reading with
      | command line =>
          rw [Reading.endLine, endCommand]
          split <;> exact id
      | header draft line => exact id
      | body draft got => exact absurd trivial outside
  | body => exact absurd trivial outside
  | bodyEarly => exact absurd trivial outside

/-- Every step of the thread. `recv` returns the next bytes of the stream, and 0 at its end. -/
theorem reads_step {id stream unread unread' : List UInt8} {s next : Receiving} {action : ReceiveAction}
    (orderly : Orderly stream) (reads : Reads sock id stream unread s)
    (taken : receiveStep env sock s action = some next)
    (bytes : match action with
      | .receive chunk => unread = chunk ++ unread'
      | .pass => unread' = unread
      | .close => unread = [] ∧ unread' = []) : Reads sock id stream unread' next := by
  obtain ⟨stored, ⟨used, parts, tracks⟩, closed⟩ := reads
  cases action with
  | receive chunk =>
      obtain ⟨⟨idle, isOpen⟩, same⟩ := Option.ite_none_right_eq_some.mp taken
      cases same
      refine ⟨stored, ⟨used, ?_, tracks⟩, fun isClosed => absurd isClosed (by simp [isOpen])⟩
      rw [parts, idle, bytes]
      rfl
  | pass =>
      obtain ⟨curr, running, same⟩ := Option.map_eq_some_iff.mp taken
      rw [bytes]
      rw [running, Option.getD_some] at parts
      have isOpen : s.closed ≠ true := by
        intro isClosed
        rw [(closed isClosed).2] at running
        cases running
      have safeHere : SafeFrom (feeds .start used) (curr ++ unread) := by
        have safe := orderly.safe
        rw [CutSafe, parts] at safe
        exact safe.after
      have kept := @RecvInvariant.pass _ _ _ (storedFrames_kept env sock id) curr _ stored
      have step : PassKeeps env sock [] (feeds .start used) curr s.recv ∨ curr = [] := by
        by_cases nonempty : curr = []
        · exact Or.inr nonempty
        · exact Or.inl (tracks_pass env tracks nonempty safeHere)
      rcases step with (⟨now, rest, st', rfl, _, pass, tracks'⟩ | ⟨st', pass, tracks'⟩) | rfl
      · rw [pass] at same
        cases same
        refine ⟨kept.2 _ pass, ⟨used ++ now, ?_, ?_⟩, fun isClosed => absurd isClosed isOpen⟩
        · rw [parts]
          simp only [Option.getD_some, List.append_assoc]
        · rw [feeds_append]
          exact tracks'
      · rw [pass] at same
        cases same
        refine ⟨kept.1 _ pass, ⟨used ++ curr, ?_, ?_⟩, fun isClosed => absurd isClosed isOpen⟩
        · rw [parts]
          simp only [Option.getD_none, List.append_assoc, List.nil_append]
        · rw [feeds_append]
          exact tracks'
      · rw [recvPass_nil] at same
        cases same
        exact ⟨stored, ⟨used, parts, tracks⟩, fun isClosed => absurd isClosed isOpen⟩
  | close =>
      obtain ⟨⟨idle, _⟩, same⟩ := Option.ite_none_right_eq_some.mp taken
      cases same
      obtain ⟨rfl, rfl⟩ := bytes
      rw [idle] at parts
      have whole : stream = used := by simpa using parts
      subst whole
      refine ⟨?_, ⟨stream, ?_, ?_⟩, fun _ => ⟨rfl, idle⟩⟩
      · rw [connFinish_eq_self tracks orderly.ends]
        exact stored
      · rw [idle]
        exact parts
      · rw [connFinish_eq_self tracks orderly.ends]
        exact tracks

section Reads

variable {id stream unread : List UInt8} {s : Receiving} (reads : Reads sock id stream unread s)
include reads

/-- What was linked are the first messages of the stream. -/
theorem Reads.messages_prefix (orderly : Orderly stream) :
    s.recv.bucket.map Frame.message <+: messagesOf stream := by
  obtain ⟨used, parts, tracks⟩ := reads.tracks
  have safe := orderly.safe
  rw [CutSafe, parts] at safe
  rw [messagesOf, parts, feeds_append]
  exact tracks.prefix safe.after

/-- All messages were linked when the stream has been read. -/
theorem Reads.messages_all (orderly : Orderly stream) (read : unread = [])
    (passed : s.rest.getD [] = []) :
    s.recv.bucket.map Frame.message = messagesOf stream := by
  obtain ⟨used, parts, tracks⟩ := reads.tracks
  rw [passed, read] at parts
  have whole : stream = used := by simpa using parts
  subst whole
  exact tracks.messages orderly.safe.endSafe

/-- A running call of `recv_data` makes its next pass, and comes nearer to its end. -/
theorem Reads.pass_progress (orderly : Orderly stream) {curr : List UInt8} (running : s.rest = some curr) :
    ∃ next, receiveStep env sock s .pass = some next ∧
      ∀ left, next.rest = some left → left.length < curr.length := by
  obtain ⟨used, parts, tracks⟩ := reads.tracks
  rw [running, Option.getD_some] at parts
  refine ⟨_, by rw [receiveStep, running, Option.map_some], ?_⟩
  intro left again
  by_cases nonempty : curr = []
  · subst nonempty
    rw [recvPass_nil] at again
    cases again
  · have safeHere : SafeFrom (feeds .start used) (curr ++ unread) := by
      have safe := orderly.safe
      rw [CutSafe, parts] at safe
      exact safe.after
    rcases tracks_pass env tracks nonempty safeHere with
      ⟨now, rest, st', rfl, some, pass, _⟩ | ⟨st', pass, _⟩
    · rw [pass] at again
      cases again
      have := List.length_pos_iff.mpr some
      rw [List.length_append]
      omega
    · rw [pass] at again
      cases again

end Reads

end Newtmq
