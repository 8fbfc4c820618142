/-
Module: Newtmq.Spec.Broker
Purpose: What the broker is for, in terms of the bytes that the clients send: the messages of a stream that
  are sent to a queue come into this queue, each once, whole, and in the order of the stream.
Trusted boundary: human-reviewed spec
Main exports: Message.value, Message.sentTo, Message.withId, Message.LinesFit, Orderly, messagesOf,
  Broker.Filled, Broker.Settled
-/
import Newtmq.Core.Broker
import Newtmq.Proofs.QueueStore
import Newtmq.Spec.ConnectionOrder
import Newtmq.Spec.SentIndex
import Newtmq.Spec.StreamReader

namespace Newtmq

/-! ### Messages -/

/-- The value of the last header line with this name. -/
def Message.value (name : List UInt8) (message : Message) : Option (List UInt8) :=
  (message.headers.filterMap fun line =>
    if name.isPrefixOf line then some (line.drop name.length) else none).getLast?

/-- The destination of a `SEND` that is not part of a transaction. -/
def Message.sentTo (message : Message) : Option (List UInt8) :=
  if message.name = cstring "SEND" ∧ message.value transactionName = none then
    message.value destinationName
  else none

/-- The message with the id of its connection behind the values of its reply-to headers. The NUL that
terminates the id is counted into the line. -/
def Message.withId (id : List UInt8) (message : Message) : Message :=
  { message with
    headers := message.headers.map fun line =>
      if replyToName.isPrefixOf line then line ++ id ++ [0] else line }

/-- Each header line fits the array of its entry: with a NUL, and a reply-to line with the id. -/
def Message.LinesFit (message : Message) : Prop :=
  ∀ line ∈ message.headers,
    line.length + (if replyToName.isPrefixOf line then CONN_ID_LEN else 1) ≤ LD_MAX

instance (message : Message) : Decidable message.LinesFit :=
  inferInstanceAs (Decidable (∀ line ∈ message.headers, _))

/-! ### Streams -/

/-- The messages of a stream, read byte by byte. -/
def messagesOf (stream : List UInt8) : List Message :=
  (feeds .start stream).published

/-- The stream has ended inside a body. -/
def Reading.InBody : Reading → Prop
  | .body _ _ => True
  | .command _ | .header _ _ => False

instance : ∀ reading : Reading, Decidable reading.InBody
  | .body _ _ => .isTrue trivial
  | .command _ | .header _ _ => .isFalse id

/-- A stream that is read alike however it is cut, does not break off in a body, and whose header lines
fit. -/
structure Orderly (stream : List UInt8) : Prop where
  safe : CutSafe stream
  ends : ¬ (feeds .start stream).reading.InBody
  fits : ∀ message ∈ messagesOf stream, message.LinesFit

/-! ### Queues -/

/-- The server has just started: nothing was enqueued by a handler, and the queues hold what was
recovered. -/
structure Server.Started (server : Server) : Prop where
  idle : server.Idle
  queues : server.queues.WellFormed

/-- The id of a connection, as a string. -/
def BrokerEnv.id (env : BrokerEnv) (connection : Nat) : List UInt8 :=
  cstr (connInit (env.recv connection) 0).id

/-- The frames of a list that belong to a connection. -/
def Broker.ofConnection (s : Broker) (connection : Nat) (objects : List FrameObject) :
    List FrameObject :=
  objects.filter fun object => s.publishing.connectionOf object.address = some connection

/-- What was taken from a queue and what waits in it are, in order, what was recovered at the start and
some further frames. These belong to the connections, and those of one connection carry, in the order of
its stream, exactly those of its first `count connection` messages that are sent to this queue. -/
def Broker.Filled (env : BrokerEnv) (streams : Nat → List UInt8) (server : Server) (s : Broker)
    (count : Nat → Nat) : Prop :=
  ∀ hashnum, ∃ objects,
    ofHash hashnum s.taken ++ contents hashnum s.publishing.server.queues =
        contents hashnum server.queues ++ objects ∧
      (∀ object ∈ objects, ∃ connection,
        s.publishing.connectionOf object.address = some connection) ∧
      ∀ connection,
        (s.ofConnection connection objects).map (fun object => object.frame.message) =
          ((((messagesOf (streams connection)).take (count connection)).filter fun message =>
              message.sentTo.map getHash = some hashnum).map
            (Message.withId (env.id connection)))

/-- Nothing is under way: the streams have been read, and the bucket is empty. -/
structure Broker.Settled (s : Broker) : Prop where
  read : ∀ connection, s.unread connection = []
  passed : ∀ connection, (s.receiving connection).rest.getD [] = []
  bucket : s.publishing.bucket = []
  popped : s.publishing.popped = none

end Newtmq
