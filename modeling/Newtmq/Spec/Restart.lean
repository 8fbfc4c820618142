/-
Module: Newtmq.Spec.Restart
Purpose: What a restart is meant to do: the frames of each data file that are not counted as sent come
  back into the queue they were persisted for. The names for which it can, and what the system shows
  of the data directory.
Trusted boundary: human-reviewed spec
Main exports: Frame.Sendable, PlainName, topEntry, StartupEnv.Lists, waitingFrames, Delivery.Recoverable,
  RecoversByName, KeepsRecoverable
-/
import Newtmq.Core.Startup
import Newtmq.Spec.BlockLayout
import Newtmq.Spec.SentIndex

namespace Newtmq

/-! ### Frames -/

/-- The header lines of a frame object. -/
def Frame.lines (frame : Frame) : List (List UInt8) :=
  entryLines frame.hAttrs

/-- The body of a frame object. -/
def Frame.text (frame : Frame) : List UInt8 :=
  (entryLines frame.hData).flatten

/-- A frame object that carries a frame as a client sends it, and whose size is the number of bytes it
takes in the data file. -/
structure Frame.Sendable (frame : Frame) : Prop where
  command_known : frame.name ∈ finfoArr
  header_line : ∀ h ∈ frame.lines, HeaderLine h
  one_length : frame.lines.countP isLengthHeader = 1
  length_value : ∀ h ∈ frame.lines, isLengthHeader h = true → Decimal (h.drop 15) frame.text.length
  body_clean : (0 : UInt8) ∉ frame.text
  body_bound : frame.text.length < 2147483648
  size_exact : frame.size = (frameBytes frame).length

instance (frame : Frame) : Decidable frame.Sendable :=
  decidable_of_iff
    (frame.name ∈ finfoArr ∧ (∀ h ∈ frame.lines, HeaderLine h) ∧
      frame.lines.countP isLengthHeader = 1 ∧
      (∀ h ∈ frame.lines, isLengthHeader h = true → Decimal (h.drop 15) frame.text.length) ∧
      (0 : UInt8) ∉ frame.text ∧ frame.text.length < 2147483648 ∧
      frame.size = (frameBytes frame).length)
    ⟨fun h => ⟨h.1, h.2.1, h.2.2.1, h.2.2.2.1, h.2.2.2.2.1, h.2.2.2.2.2.1, h.2.2.2.2.2.2⟩,
      fun h => ⟨h.command_known, h.header_line, h.one_length, h.length_value, h.body_clean,
        h.body_bound, h.size_exact⟩⟩

/-- The frame that it carries. -/
def Frame.Sendable.wire {frame : Frame} (sendable : frame.Sendable) : WireFrame where
  command := frame.name
  headers := frame.lines
  body := frame.text
  command_known := sendable.command_known
  header_line := sendable.header_line
  one_length := sendable.one_length
  length_value := sendable.length_value
  body_clean := sendable.body_clean
  body_bound := sendable.body_bound

theorem Frame.Sendable.carries {frame : Frame} (sendable : frame.Sendable) :
    frame.Carries sendable.wire :=
  ⟨rfl, rfl, rfl⟩

/-! ### Names and directories -/

/-- A name that `SEND` accepts: some bytes, none of which is a NUL. -/
structure AcceptedName (qname : List UInt8) : Prop where
  nonempty : qname ≠ []
  clean : (0 : UInt8) ∉ qname

/-- A name that is the name of one entry of a directory, and of none that `unpersist` skips: it has no
slash and does not begin with a dot. -/
structure PlainName (qname : List UInt8) : Prop extends AcceptedName qname where
  slashless : (47 : UInt8) ∉ qname
  visible : qname.head? ≠ some 46

instance (qname : List UInt8) : Decidable (AcceptedName qname) :=
  decidable_of_iff (qname ≠ [] ∧ (0 : UInt8) ∉ qname) ⟨fun h => ⟨h.1, h.2⟩, fun h => ⟨h.1, h.2⟩⟩

instance (qname : List UInt8) : Decidable (PlainName qname) :=
  decidable_of_iff (AcceptedName qname ∧ (47 : UInt8) ∉ qname ∧ qname.head? ≠ some 46)
    ⟨fun h => ⟨h.1, h.2.1, h.2.2⟩, fun h => ⟨h.toAcceptedName, h.slashless, h.visible⟩⟩

/-- The entry of the data directory that the path of a queue goes through. -/
def topEntry (qname : List UInt8) : List UInt8 :=
  (qname.dropWhile fun c => c = 47).takeWhile fun c => c ≠ 47

/-- What the system shows of the data directory: each entry once, and apart from those that begin with
a dot the ones that the paths of queues go through, which are directories without directories in the
places of the two files. -/
structure StartupEnv.Lists (env : StartupEnv) (pm : PersistentManager) : Prop where
  once : env.entries.Nodup
  listed : ∀ entry, entry.head? ≠ some 46 → (entry ∈ env.entries ↔
    ∃ qname, (pm.disk (queueDir pm qname)).isSome ∧ topEntry (cstr qname) = entry)
  directories : ∀ entry ∈ env.entries, entry.head? ≠ some 46 →
    env.allocates (queueDir pm entry) = true
  buffer : ∀ entry, (env.frameBuffer entry).length = BUFFER_LEN

/-! ### Frames that wait -/

/-- The frames that begin at `index` or behind it, when those given lie one after the other. -/
def notCounted : Int → List FrameObject → List FrameObject
  | _, [] => []
  | index, object :: objects =>
      if index ≤ 0 then object :: objects
      else notCounted (index - (frameBytes object.frame).length) objects

/-- The frames of the data file of a queue: those recovered at the start and those written since. -/
def filedFrames (start s : Delivery) (qinfo : QueueInfo) : List FrameObject :=
  contents qinfo.qid start.queues ++ ofHash qinfo.qid s.written

/-- The frames of the data file of a queue that the stored index does not count as sent. -/
def waitingFrames (start s : Delivery) (qinfo : QueueInfo) : List FrameObject :=
  notCounted
    (unpersistQueueInfo qinfo.dirpath s.pm - unpersistQueueInfo qinfo.dirpath start.pm)
    (filedFrames start s qinfo)

/-- The frames carry what was sent. -/
def Carry (objects : List FrameObject) (sent : List WireFrame) : Prop :=
  List.Forall₂ (fun object w => object.frame.Carries w) objects sent

/-- The frames that `unpersist` has enqueued under a name. -/
def Startup.framesUnder (s : Startup) (qname : List UInt8) : List Frame :=
  (s.enqueued.filter fun entry => entry.1 = cstr qname).map Prod.snd

/-- After a crash, `unpersist` comes to its end. For each of the names, what it has enqueued under the
name are the frames that wait in the files of the queue that `get_qinfo` finds for it, in order, and
these are what is in the queue that `dequeue` finds for it. -/
def RecoversByName (env : StartupEnv) (start s : Delivery) (names : List (List UInt8)) : Prop :=
  ∃ after, unpersist env s.pm = some after ∧
    ∀ qname ∈ names, ∀ qinfo ∈ s.pm.qinfos, qinfo.qid = getHash qname →
      ∀ sent, Carry (waitingFrames start s qinfo) sent →
        List.Forall₂ Frame.Carries (after.framesUnder qname) sent ∧
          contents (getHash qname) after.queues = after.framesUnder qname

/-- In each queue, the frames that wait lie in the blocks of the data file in such a way that they can
be read. -/
def WaitingFit (start s : Delivery) : Prop :=
  ∀ qinfo ∈ s.pm.qinfos, ∀ sent, Carry (waitingFrames start s qinfo) sent → BlocksFit sent

/-! ### Runs -/

/-- The names that a step accepts a frame for. -/
def DeliveryAction.names : DeliveryAction → List (List UInt8)
  | .accept qname _ => [qname]
  | _ => []

/-- No queue with another name has the hash number of this one. -/
def HashFree (pm : PersistentManager) (qname : List UInt8) : Prop :=
  ∀ qinfo ∈ pm.qinfos, qinfo.qid = getHash qname → qinfo.dirpath = queueDir pm qname

/-- A start at which each queue has one of the names, which are plain, its frames are what the data
file holds from the stored index on, and the data directory holds nothing else. -/
structure Delivery.Recoverable (s : Delivery) (names : List (List UInt8)) : Prop where
  plain : ∀ qname ∈ names, PlainName qname
  named : ∀ qinfo ∈ s.pm.qinfos, ∃ qname ∈ names, qinfo.qid = getHash qname ∧
    qinfo.dirpath = queueDir s.pm qname
  queued : ∀ qname ∈ names, getQinfo (getHash qname) s.pm ≠ none ∧ HashFree s.pm qname
  files : ∀ qinfo ∈ s.pm.qinfos, ∃ skipped, s.pm.disk qinfo.dirpath =
    some ⟨skipped ++ (contents qinfo.qid s.queues).flatMap fun object => frameBytes object.frame,
      some skipped.length⟩
  frames : ∀ hashnum, ∀ object ∈ contents hashnum s.queues, object.frame.Sendable
  known : ∀ dirpath, (s.pm.disk dirpath).isSome → ∃ qinfo ∈ s.pm.qinfos, qinfo.dirpath = dirpath

instance (pm : PersistentManager) (qname : List UInt8) : Decidable (HashFree pm qname) :=
  inferInstanceAs (Decidable (∀ qinfo ∈ pm.qinfos, _))

/-- Frames are accepted only when they are sendable, for names of a kind that share no hash number with
another one; each frame is counted after the frames that were dequeued from its queue before it; and
an index is stored only when the frames counted in it have been written. -/
def KeepsRecoverable (Named : List UInt8 → Prop) (destination : Nat → List UInt8)
    (start s : Delivery) : DeliveryAction → Prop
  | .accept qname object => Named qname ∧ HashFree s.pm qname ∧ object.frame.Sendable
  | .count worker => SentFirst s (getHash (destination worker)) (s.workers worker)
  | .storeIndex => FlushedAt start s s.flusher
  | _ => True

instance (Named : List UInt8 → Prop) [DecidablePred Named] (destination : Nat → List UInt8)
    (start s : Delivery) : ∀ action, Decidable (KeepsRecoverable Named destination start s action)
  | .accept qname _ => inferInstanceAs (Decidable (Named qname ∧ _))
  | .count worker => inferInstanceAs (Decidable (SentFirst s _ (s.workers worker)))
  | .storeIndex => inferInstanceAs (Decidable (FlushedAt start s s.flusher))
  | .create | .link | .grow | .enqueue | .dequeue _ | .send _ | .enter | .compare | .write =>
      .isTrue trivial

end Newtmq
