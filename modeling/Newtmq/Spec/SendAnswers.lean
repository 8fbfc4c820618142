/-
Module: Newtmq.Spec.SendAnswers
Purpose: What the answers to a `SEND` frame are meant to say: an `ERROR`, that the frame has had no
  effect, and a `RECEIPT`, that it is in the queue of its destination or in its transaction.
Trusted boundary: human-reviewed spec
Main exports: SameState, RejectsWithoutEffect, RegistersReply, RecordedServer, recordedStep,
  SendsReceipt, Stored, KeepsPromise, Receipted, NamesOpen
-/
import Newtmq.Core.Connections
import Newtmq.Proofs.QueueStore
import Newtmq.Proofs.ServerSteps
import Newtmq.Spec.TransactionIsolation

namespace Newtmq

/-- The name of the header with the id of the receipt. -/
def receiptName : List UInt8 := cstring "receipt:"

/-- `handler_reply_to` accepts the reply-to headers: their values leave room in the line. -/
def ReplyTosFit (lines : List Linedata) : Prop :=
  ∀ line ∈ lines, ∀ value ∈ lineValue replyToName line, value.length + UNIQUE_STR_LEN < LD_MAX

instance (lines : List Linedata) : Decidable (ReplyTosFit lines) :=
  inferInstanceAs (Decidable (∀ line ∈ lines, ∀ value ∈ lineValue replyToName line, _))

/-! ### Errors -/

/-- The groups of clients and their threads, the queues, the transactions and the frames to be written
are the same. -/
structure SameState (before after : Server) : Prop where
  workers : after.workers = before.workers
  queues : after.queues = before.queues
  transactions : after.transactions = before.transactions
  persistent : after.persistent = before.persistent

/-- When `handler_stomp_send` rejects the frame, nothing has changed. A rejected frame is not returned,
and an accepted one is. -/
def RejectsWithoutEffect (env : ServerEnv) (object : FrameObject) (server : Server) : Prop :=
  ∀ after, handlerStompSend env object server = some (none, after) → SameState server after

/-- The header of a frame is accepted, it has no destination, and the destination for replies has no
group yet. -/
def RegistersReply (object : FrameObject) (server : Server) : Prop :=
  ReplyTosFit object.frame.hAttrs ∧ object.frame.destination = none ∧
    ∃ reply ∈ object.frame.rewrittenReplyTo, searchDestGroup reply server.workers = none

/-! ### Receipts -/

/-- The server, with a record beside the list of open transactions: the ids that they were started
with. -/
structure RecordedServer where
  server : Server
  ids : List (List UInt8)

/-- The record after a request that works on the transaction it finds. -/
def idsAfterRequest (ids : List (List UInt8)) (manager : TransactionManager) :
    TransactionRequest → List (List UInt8)
  | .start tid =>
      match getTransaction tid manager with
      | some _ => ids
      | none => ids ++ [cstr tid]
  | .abort tid | .commit tid =>
      match getTransaction tid manager with
      | some place => ids.eraseIdx place
      | none => ids
  | .add _ _ => ids

/-- The record after a frame has been handled. -/
def RecordedServer.idsAfter (s : RecordedServer) (object : FrameObject) : List (List UInt8) :=
  match transactionRequest object with
  | some request => idsAfterRequest s.ids s.server.transactions request
  | none => s.ids

/-- One step of the server with its record. -/
def recordedStep (env : ServerEnv) (s : RecordedServer) (action : ServerAction) :
    Option RecordedServer :=
  (serverStep env s.server action).map fun next =>
    { server := next
      ids :=
        match action with
        | .handle object => s.idsAfter object
        | .dequeue _ => s.ids }

/-- The frame that a step handles comes from the parser, which sets no callback. -/
def ServerAction.Parsed : ServerAction → Prop
  | .handle object => object.Received
  | .dequeue _ => True

instance : DecidablePred ServerAction.Parsed
  | .handle object => inferInstanceAs (Decidable (object.frame.transactionCallback = none))
  | .dequeue _ => .isTrue trivial

/-- A part of a `RECEIPT` frame has been sent. -/
def SendsReceipt (before after : Server) : Prop :=
  ∃ message ∈ after.wire.drop before.wire.length, message.msg = cstring "RECEIPT\n"

/-- The frame is the last one in the queue of its destination, or, when it carries a transaction header,
it has been added to an open transaction that was started with exactly this id. -/
def Stored (s : RecordedServer) (object : FrameObject) (after : Server) : Prop :=
  match headerValue transactionName object.frame.hAttrs with
  | none =>
      ∃ (destination : List UInt8) (accepted : FrameObject),
        object.frame.destination = some destination ∧ accepted.address = object.address ∧
        contents (getHash destination) after.queues =
          contents (getHash destination) s.server.queues ++ [accepted]
  | some tid =>
      ∃ (place : Nat) (transaction : Transaction) (accepted : FrameObject),
        s.ids[place]? = some tid ∧ s.server.transactions.list[place]? = some transaction ∧
        accepted.address = object.address ∧
        after.transactions.list[place]? =
          some { transaction with frames := accepted :: transaction.frames }

/-- A receipt is sent for a frame only when it has been stored. -/
def KeepsPromise (env : ServerEnv) (s : RecordedServer) (object : FrameObject) : Prop :=
  ∀ ret after, handlerStompSend env object s.server = some (ret, after) →
    SendsReceipt s.server after → Stored s object after

/-- The frame is answered with a receipt: its header is accepted and has a destination and a receipt,
and its socket can be written to. -/
def Receipted (object : FrameObject) : Prop :=
  object.frame.cinfo ≠ none ∧ 0 < object.frame.sock ∧ ReplyTosFit object.frame.hAttrs ∧
    object.frame.destination ≠ none ∧ headerValue receiptName object.frame.hAttrs ≠ none

/-- The transaction that `get_transaction` finds for the header of the frame, if it has one, was started
with exactly this id. -/
def NamesOpen (s : RecordedServer) (object : FrameObject) : Prop :=
  ∀ tid ∈ headerValue transactionName object.frame.hAttrs,
    ∃ place ∈ getTransaction tid s.server.transactions, s.ids[place]? = some tid

end Newtmq
