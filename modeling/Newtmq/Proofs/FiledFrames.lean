/-
Module: Newtmq.Proofs.FiledFrames
Purpose: Exactly what the handling of one frame does to the queues: a `SEND` that is accepted, has a
  destination and is not part of a transaction comes to the end of the queue of its destination, with the
  id of the connection written into its reply-to lines. Nothing else changes a queue.
Trusted boundary: none
Main exports: filed, handleFrame_filed, storedLine, filed_stored
-/
import Newtmq.Proofs.Registration
import Newtmq.Proofs.SendAnswers
import Newtmq.Proofs.Subscriptions
import Newtmq.Spec.Broker

namespace Newtmq

variable {env : ServerEnv}

/-- What the handling of a frame puts into the queues. -/
def filed (object : FrameObject) : List (UInt64 × FrameObject) :=
  match object.frame.cinfo with
  | none => []
  | some cinfoId =>
      match sendAttrinfo cinfoId object.frame with
      | (.error, _, _) => []
      | (.success, hAttrs, info) =>
          match info.tid, info.qname with
          | none, some qname =>
              if (cstring "SEND").isPrefixOf object.frame.name then
                [(getHash qname, ⟨object.address, { object.frame with hAttrs := hAttrs }⟩)]
              else []
          | _, _ => []

/-! ### Queues -/

/-- The queues after frames have come in, with the hash numbers of their queues. -/
structure Files (before after : QueueStore FrameObject) (entries : List (UInt64 × FrameObject)) :
    Prop where
  wellFormed : after.WellFormed
  contents : ∀ hashnum, contents hashnum after = contents hashnum before ++ ofHash hashnum entries

theorem Files.none {store : QueueStore FrameObject} (wf : store.WellFormed) : Files store store [] where
  wellFormed := wf
  contents hashnum := by rw [ofHash_nil, List.append_nil]

theorem Files.enqueue {store : QueueStore FrameObject} (wf : store.WellFormed) (object : FrameObject)
    (qname : List UInt8) :
    Files store (Newtmq.enqueue (some object) qname store).2 [(getHash qname, object)] where
  wellFormed := wf.enqueue object qname
  contents hashnum := by
    rw [contents_enqueue wf, ofHash_singleton]
    by_cases here : hashnum = getHash qname
    · rw [if_pos here, if_pos here.symm, here]
    · rw [if_neg here, if_neg (Ne.symm here), List.append_nil]

/-- The handler of `SEND` files the frame. -/
theorem handlerStompSend_filed {object : FrameObject} {server next : Server}
    {ret : Option FrameObject} (name : (cstring "SEND").isPrefixOf object.frame.name = true)
    (wf : server.queues.WellFormed)
    (handled : handlerStompSend env object server = some (ret, next)) :
    Files server.queues next.queues (filed object) := by
  cases cinfo : object.frame.cinfo with
  | none =>
      rw [handlerStompSend, cinfo] at handled
      cases handled
  | some cinfoId =>
      rcases attrs : sendAttrinfo cinfoId object.frame with ⟨validated, hAttrs, info⟩
      rw [handlerStompSend, cinfo] at handled
      dsimp only at handled
      rw [attrs] at handled
      rw [filed, cinfo]
      dsimp only
      rw [attrs]
      cases validated with
      | error =>
          cases handled
          exact .none wf
      | success =>
          have same : (replyTo object.frame.sock info.replyTo server).queues = server.queues := by
            cases info.replyTo <;> rfl
          dsimp only at handled ⊢
          cases qname : info.qname with
          | none =>
              rw [qname] at handled
              cases handled
              have kept : Files server.queues (replyTo object.frame.sock info.replyTo server).queues [] := by
                rw [same]
                exact .none wf
              cases info.tid <;> exact kept
          | some qname' =>
              rw [qname] at handled
              cases handled
              rw [(answerReceipt_untouched _ _ _).2]
              cases info.tid with
              | some tid =>
                  rw [takeFrame, same]
                  exact .none wf
              | none =>
                  dsimp only
                  rw [if_pos name, takeFrame, enqueueFrame, same]
                  exact .enqueue wf _ qname'

/-- The handling of any frame files it, and does nothing else to the queues. -/
theorem handleFrame_filed {object : FrameObject} {server next : Server}
    (none : NoCallbacks server.transactions) (wf : server.queues.WellFormed)
    (handled : handleFrame env object server = some next) :
    Files server.queues next.queues (filed object) := by
  have nothing : (cstring "SEND").isPrefixOf object.frame.name = false → filed object = [] := by
    intro other
    rw [filed]
    split
    · rfl
    · split
      · rfl
      · split
        · rw [other]
          rfl
        · rfl
  rcases handleFrame_cases handled with
    ⟨handler, ret, later, freed, found, ran, rfl⟩ | ⟨notFound, wire, rfl⟩
  · rcases findHandler_kind found with ⟨send, rfl⟩ | ⟨send, ⟨subscribe, rfl⟩ | ⟨_, answers⟩⟩
    · have sent := handlerStompSend_filed send wf ran
      exact sent
    · have same := (handlerStompSubscribe_change send subscribe ran).2
      rw [nothing send]
      dsimp only
      rw [same]
      exact .none wf
    · have same := (answers.untouched env object server ret later none ran).2
      rw [nothing send]
      dsimp only
      rw [same]
      exact .none wf
  · have notSend : (cstring "SEND").isPrefixOf object.frame.name = false := by
      have missing := Option.map_eq_none_iff.mp notFound
      rw [List.find?_eq_none] at missing
      exact Bool.eq_false_iff.mpr
        (missing (cstring "SEND", handlerStompSend) (List.mem_cons_self ..))
    rw [nothing notSend]
    exact .none wf

/-! ### Header lines -/

/-- The entry with a line that `stomp_setdata` makes. -/
def storedLine (line : List UInt8) : Linedata := ⟨line, line.length⟩

/-- What is written behind the length of an entry is not read. -/
theorem Linedata.bytes_append (text more : List UInt8) :
    (⟨text ++ more, text.length⟩ : Linedata).bytes = text := by
  rw [Linedata.bytes, List.append_assoc, List.take_left]

@[simp] theorem storedLine_bytes (line : List UInt8) : (storedLine line).bytes = line := by
  rw [Linedata.bytes, storedLine, List.take_left]

/-- The zeros behind a line are no part of a name. -/
theorem isPrefixOf_append_zeros {name line : List UInt8} (clean : (0 : UInt8) ∉ name) (n : Nat) :
    name.isPrefixOf (line ++ List.replicate n 0) = name.isPrefixOf line := by
  rw [Bool.eq_iff_iff, List.isPrefixOf_iff_prefix, List.isPrefixOf_iff_prefix]
  constructor
  · intro named
    rcases List.prefix_or_prefix_of_prefix named (List.prefix_append line _) with within | ⟨more, rfl⟩
    · exact within
    · have zeros : more <+: List.replicate n 0 := (List.prefix_append_right_inj line).mp named
      cases more with
      | nil => exact ⟨[], by simp⟩
      | cons c more =>
          have zero : c = 0 := List.eq_of_mem_replicate (zeros.subset List.mem_cons_self)
          exact absurd (List.mem_append_right _ (zero ▸ List.mem_cons_self)) clean
  · intro named
    exact named.trans (List.prefix_append line _)

/-- A name is looked for in the line itself. -/
theorem lineValue_storedLine {name line : List UInt8} (cleanName : (0 : UInt8) ∉ name)
    (clean : (0 : UInt8) ∉ line) :
    lineValue name (storedLine line) =
      if name.isPrefixOf line then some (line.drop name.length) else none := by
  rw [lineValue, Linedata.memory, storedLine]
  dsimp only
  rw [isPrefixOf_append_zeros cleanName]
  split
  · next named =>
      obtain ⟨value, rfl⟩ := List.isPrefixOf_iff_prefix.mp named
      have cleanValue : (0 : UInt8) ∉ value := fun mem => clean (List.mem_append_right _ mem)
      rw [List.append_assoc, List.drop_left, List.drop_left, cstr_append_zeros cleanValue]
  · rfl

/-- A line as the handlers of `SEND` leave it. -/
def sentLine (cinfoId : List UInt8) (line : Linedata) : Linedata :=
  match lineValue replyToName line with
  | some value =>
      let written := line.data.take replyToName.length ++ (value ++ cstr cinfoId) ++ [0]
      { data := written ++ line.data.drop written.length
        len := line.len + CONN_ID_LEN }
  | none => line

/-- The handlers of `SEND` keep the id, and write it into a reply-to line. -/
theorem applyHandlers_sentLine {line line' : Linedata} {info info' : SendAttrinfo}
    (applied : applyHandlers sendHandlers line info = (.success, line', info')) :
    line' = sentLine info.cinfoId line ∧ info'.cinfoId = info.cinfoId := by
  rw [sendHandlers, applyHandlers_store, applyHandlers_store, applyHandlers_store] at applied
  obtain ⟨stored, recorded, same⟩ : ∃ stored,
      applyHandlers [(replyToName, handlerReplyTo)] line stored = (.success, line', info') ∧
      stored.cinfoId = info.cinfoId := by
    refine ⟨_, applied, ?_⟩
    cases lineValue (cstring "destination:") line <;> cases lineValue (cstring "transaction:") line <;>
      cases lineValue (cstring "receipt:") line <;> rfl
  rw [← same, sentLine, lineValue]
  rw [applyHandlers] at recorded
  split at recorded
  · next named =>
      rw [if_pos named]
      simp only [handlerReplyTo] at recorded
      split at recorded
      · cases recorded
      · next found =>
          split at found
          · cases found
            cases recorded
            exact ⟨rfl, rfl⟩
          · cases found
  · next unnamed =>
      rw [if_neg unnamed]
      cases recorded
      exact ⟨rfl, rfl⟩

theorem iterateHeader_sentLines {lines lines' : List Linedata} {info info' : SendAttrinfo}
    (applied : iterateHeader sendHandlers lines info = (.success, lines', info')) :
    lines' = lines.map (sentLine info.cinfoId) := by
  induction lines generalizing lines' info with
  | nil =>
      cases applied
      rfl
  | cons line lines ih =>
      rw [iterateHeader] at applied
      split at applied
      · cases applied
      · next changed middle first =>
          obtain ⟨rfl, sameId⟩ := applyHandlers_sentLine first
          cases later : iterateHeader sendHandlers lines middle with
          | mk ret tail =>
              rw [later] at applied
              cases applied
              rw [ih later, sameId, List.map_cons]

/-- The rewritten line is the old one with the id and its NUL. -/
theorem sentLine_storedLine {cinfoId line : List UInt8} (clean : (0 : UInt8) ∉ line)
    (length : (cstr cinfoId).length + 1 = CONN_ID_LEN) :
    (sentLine cinfoId (storedLine line)).bytes =
      if replyToName.isPrefixOf line then line ++ cstr cinfoId ++ [0] else line := by
  have cleanName : (0 : UInt8) ∉ replyToName := by decide
  rw [sentLine, lineValue_storedLine cleanName clean]
  by_cases named : replyToName.isPrefixOf line = true
  · rw [if_pos named, if_pos named]
    obtain ⟨value, rfl⟩ := List.isPrefixOf_iff_prefix.mp named
    have same : replyToName ++ (value ++ cstr cinfoId) ++ [0] =
        replyToName ++ value ++ cstr cinfoId ++ [0] := by
      simp only [List.append_assoc]
    have len : (replyToName ++ value).length + CONN_ID_LEN =
        (replyToName ++ value ++ cstr cinfoId ++ [0]).length := by
      simp only [List.length_append, List.length_singleton]
      omega
    simp only [storedLine, List.take_left, List.drop_left, same, len]
    exact Linedata.bytes_append _ _
  · rw [if_neg named, if_neg named]
    exact storedLine_bytes line

/-! ### Frames that were read -/

/-- A message as a stream can contain it: its name is one of the commands, and no header line holds a
NUL. -/
structure Message.Readable (message : Message) : Prop where
  name : message.name ∈ finfoArr
  clean : ∀ line ∈ message.headers, (0 : UInt8) ∉ line

/-- The frame belongs to the connection with this id, and its header lines are stored as they were read. -/
structure Frame.StoredFor (id : List UInt8) (frame : Frame) : Prop where
  cinfo : frame.cinfo = some id
  lines : frame.hAttrs = frame.message.headers.map storedLine

theorem entryLines_storedLine (lines : List (List UInt8)) :
    entryLines (lines.map storedLine) = lines := by
  rw [entryLines, List.map_map]
  exact (List.map_congr_left fun line _ => storedLine_bytes line).trans (List.map_id lines)

/-- The header values of the frame are those of its message. -/
theorem headerValue_stored {name : List UInt8} (cleanName : (0 : UInt8) ∉ name) {frame : Frame}
    (stored : frame.hAttrs = frame.message.headers.map storedLine)
    (clean : ∀ line ∈ frame.message.headers, (0 : UInt8) ∉ line) :
    headerValue name frame.hAttrs = frame.message.value name := by
  rw [headerValue, stored, Message.value, List.filterMap_map]
  apply congrArg List.getLast?
  apply List.filterMap_congr
  intro line mem
  exact lineValue_storedLine cleanName (clean line mem)

/-- Only the name `SEND` begins with it. -/
theorem isPrefixOf_send_iff {name : List UInt8} (command : name ∈ finfoArr) :
    (cstring "SEND").isPrefixOf name = true ↔ name = cstring "SEND" := by
  have all : ∀ name ∈ finfoArr, (cstring "SEND").isPrefixOf name = true ↔ name = cstring "SEND" := by
    decide +kernel
  exact all name command

/-- A frame that was read, and whose lines fit, is filed under the destination of its message, as the
message with the id. -/
theorem filed_stored {object : FrameObject} {id : List UInt8} (stored : object.frame.StoredFor id)
    (length : (cstr id).length + 1 = CONN_ID_LEN) (readable : object.frame.message.Readable)
    (fits : object.frame.message.LinesFit) :
    ∃ accepted : FrameObject, accepted.address = object.address ∧
      accepted.frame.message = object.frame.message.withId (cstr id) ∧
      filed object =
        object.frame.message.sentTo.toList.map fun qname => (getHash qname, accepted) := by
  have accepts : ReplyTosFit object.frame.hAttrs := by
    intro line mem value found
    rw [stored.lines] at mem
    obtain ⟨text, memText, rfl⟩ := List.mem_map.mp mem
    rw [Option.mem_def, lineValue_storedLine (by decide) (readable.clean text memText)] at found
    obtain ⟨named, same⟩ := Option.ite_none_right_eq_some.mp found
    cases same
    have room := fits text memText
    have long : replyToName.length = 9 := by decide
    rw [if_pos named] at room
    simp only [List.length_drop, UNIQUE_STR_LEN, CONN_ID_LEN, long, LD_MAX] at *
    omega
  rcases attrs : sendAttrinfo id object.frame with ⟨ret, hAttrs, info⟩
  have success : ret = .success := by
    have iff := iterateHeader_send_success_iff object.frame.hAttrs
      { cinfoId := id, qname := none, tid := none, receiptId := none, replyTo := none }
    rw [← sendAttrinfo, attrs] at iff
    exact iff.mpr accepts
  subst success
  obtain ⟨qname, -, -, tid⟩ := iterateHeader_sendValues attrs
  rw [Option.or_none, headerValue_stored (by decide) stored.lines readable.clean] at qname tid
  have lines := iterateHeader_sentLines attrs
  refine ⟨⟨object.address, { object.frame with hAttrs := hAttrs }⟩, rfl, ?_, ?_⟩
  · -- each line is rewritten as the message says
    have headers : entryLines hAttrs = (object.frame.message.withId (cstr id)).headers := by
      rw [lines, stored.lines, entryLines, List.map_map, List.map_map, Message.withId]
      apply List.map_congr_left
      intro line mem
      exact sentLine_storedLine (readable.clean line mem) length
    rw [Frame.message, Message.withId, headers]
    rfl
  · rw [filed, stored.cinfo]
    dsimp only
    rw [attrs, Message.sentTo]
    dsimp only
    rw [tid, qname]
    have send := isPrefixOf_send_iff readable.name
    cases transaction : object.frame.message.value transactionName with
    | some tid => simp
    | none =>
        cases named : object.frame.message.value destinationName with
        | none => simp
        | some qname =>
            by_cases isSend : (cstring "SEND").isPrefixOf object.frame.name = true
            · have name : object.frame.message.name = cstring "SEND" := send.mp isSend
              simp [isSend, name]
            · have name : object.frame.message.name ≠ cstring "SEND" := fun same => isSend (send.mpr same)
              simp [isSend, name]

end Newtmq
