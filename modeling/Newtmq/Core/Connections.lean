/-
Module: Newtmq.Core.Connections
Purpose: The threads of `connection.c` and `stomp_sending_worker.c` around the management worker:
  connections that are accepted, send frames and close, and sending workers that know their clients by
  the number of a descriptor only. A closed number may be given to a later connection.
Trusted boundary: human-reviewed spec
Main exports: lineValue, headerValue, askedFor, SenderPoint, Connections, ConnectionsAction, isSocketValid,
  connectionsStep
-/
import Newtmq.Core.SendMessage
import Newtmq.Core.Handlers

namespace Newtmq

/-! ### What a frame asks for -/

/-- The value of a header line with this name. -/
def lineValue (name : List UInt8) (line : Linedata) : Option (List UInt8) :=
  if name.isPrefixOf line.memory then some (cstr (line.memory.drop name.length)) else none

/-- The value of the last header line with this name. -/
def headerValue (name : List UInt8) (lines : List Linedata) : Option (List UInt8) :=
  (lines.filterMap (lineValue name)).getLast?

/-- The name of the header with the destination. -/
def destinationName : List UInt8 := cstring "destination:"

/-- The name of the header with the transaction. -/
def transactionName : List UInt8 := cstring "transaction:"

/-- The destination of a frame. -/
def Frame.destination (frame : Frame) : Option (List UInt8) :=
  headerValue destinationName frame.hAttrs

/-- The reply-to destination of a frame, with the id of its connection appended. -/
def Frame.rewrittenReplyTo (frame : Frame) : Option (List UInt8) :=
  (headerValue replyToName frame.hAttrs).bind fun value =>
    frame.cinfo.map fun id => value ++ cstr id

/-- The destinations whose messages a frame asks for. -/
def askedFor (frame : Frame) : List (List UInt8) :=
  if (cstring "SEND").isPrefixOf frame.name then frame.rewrittenReplyTo.toList
  else if (cstring "SUBSCRIBE").isPrefixOf frame.name then frame.destination.toList
  else []

/-- All destinations that a frame names. -/
def Frame.mentions (frame : Frame) : List (List UInt8) :=
  frame.destination.toList ++ askedFor frame

/-! ### Workers -/

/-- The group of a thread, by its place in the list. -/
def Worker.group : Worker → Nat
  | .reply group _ => group
  | .unicast group _ => group
  | .multicast group => group

/-- The destination that a thread serves. -/
def WorkerManager.destination (manager : WorkerManager) (worker : Worker) : Option (List UInt8) :=
  manager.groups[worker.group]?.map DestGroup.destination

/-- The clients that a thread serves. `multicast_worker` goes through the list of its group. -/
def WorkerManager.clients (manager : WorkerManager) : Worker → List ClientInfo
  | .reply _ client | .unicast _ client => [client]
  | .multicast group => (manager.groups[group]?.map DestGroup.clients).getD []

/-- `list_del` of a client, which only `multicast_worker` does. -/
def WorkerManager.removeClient (manager : WorkerManager) (place : Nat) : Worker → WorkerManager
  | .multicast group =>
      { manager with
        groups := manager.groups.modify group fun group =>
          { group with clients := group.clients.eraseIdx place } }
  | .reply _ _ | .unicast _ _ => manager

/-- How far a sending worker is: at the condition of its loop, before the `dequeue`, at a client of its
group, or sending a frame to a client. `list_for_each_entry_safe` looks for the next client before it
handles one: `more` and `onward` are what it has found. -/
inductive SenderPoint where
  | loop
  | ready
  | visiting (object : FrameObject) (place : Nat) (more : Bool)
  | sending (object : FrameObject) (onward : Option Nat) (calls : List SendMsg)
  | ended
deriving DecidableEq, Repr

def SenderPoint.hasEnded : SenderPoint → Bool
  | .ended => true
  | _ => false

/-- The frame that a worker has dequeued. -/
def SenderPoint.object : SenderPoint → Option FrameObject
  | .visiting object _ _ => some object
  | .sending object _ _ => some object
  | .loop | .ready | .ended => none

/-- The calls that a worker has to make. -/
def SenderPoint.calls : SenderPoint → List SendMsg
  | .sending _ _ calls => calls
  | .visiting _ _ _ | .loop | .ready | .ended => []

/-- `owner` gives the connection that has an open descriptor; connections are numbered in the order in
which they are accepted. Records: what the connections have asked for, the parts of `MESSAGE` frames
that were written to connections, and all destinations named. -/
structure Connections where
  server : Server
  owner : Int → Option Nat
  accepted : Nat
  bucket : List FrameObject
  senders : Nat → SenderPoint
  asked : List (Nat × List UInt8)
  written : List (Nat × FrameObject)
  mentioned : List (List UInt8)

def Connections.start (server : Server) (mentioned : List (List UInt8)) : Connections :=
  ⟨server, fun _ => none, 0, [], fun _ => .loop, [], [], mentioned⟩

/-- A step: the system accepts a connection, a connection thread closes its descriptor or puts a frame
into the bucket, the management worker handles a frame, or a sending worker goes on. `error` is an
error of the socket itself. -/
inductive ConnectionsAction where
  | accept (sock : Int)
  | close (sock : Int)
  | receive (object : FrameObject)
  | manage
  | check (n : Nat) (error : Bool)
  | dequeue (n : Nat)
  | visit (n : Nat) (error : Bool)
  | call (n : Nat)
  | finish (n : Nat)
deriving DecidableEq, Repr

/-- `is_socket_valid`. `getsockopt` fails for a descriptor that is not open. -/
def isSocketValid (owner : Int → Option Nat) (sock : Int) (error : Bool) : Bool :=
  !error && (owner sock).isSome

/-- The condition of the loop of a worker. -/
def goesOn (s : Connections) (error : Bool) : Worker → Bool
  | .reply _ client | .unicast _ client => isSocketValid s.owner client.sock error
  | .multicast group => s.server.workers.clients (.multicast group) ≠ []

def Connections.setSender (s : Connections) (n : Nat) (point : SenderPoint) : Connections :=
  { s with senders := Function.update s.senders n point }

/-- What a worker does with the frame that it has dequeued. -/
def beginSending (manager : WorkerManager) (object : FrameObject) : Worker → SenderPoint
  | .reply _ client | .unicast _ client =>
      .sending object none (stompSendMessage client.sock object.frame none)
  | .multicast group =>
      .visiting object 0 (1 < (manager.clients (.multicast group)).length)

/-- The end of a pass of a worker: `update_index_sent`, and `free_frame` in `multicast_worker`. -/
def endPass (destination : List UInt8) (object : FrameObject) (server : Server) : Worker → Server
  | .reply _ _ | .unicast _ _ =>
      { server with persistent := (updateIndexSent destination object server.persistent).2 }
  | .multicast _ =>
      freeFrame object
        { server with persistent := (updateIndexSent destination object server.persistent).2 }

/-- The place of the next client, when there is one. -/
def onwardFrom (place : Nat) (more : Bool) : Option Nat :=
  if more then some (place + 1) else none

/-- A step of the worker `n`, which `worker` describes. -/
def senderStep (s : Connections) (n : Nat) (worker : Worker) (destination : List UInt8) :
    ConnectionsAction → Option Connections
  | .check _ error =>
      match s.senders n with
      | .loop => some (s.setSender n (if goesOn s error worker then .ready else .ended))
      | _ => none
  | .dequeue _ =>
      match s.senders n with
      | .ready =>
          match dequeue destination s.server.queues with
          | (none, queues) =>
              some ({ s with server := { s.server with queues := queues } }.setSender n .loop)
          | (some object, queues) =>
              some ({ s with server := { s.server with queues := queues } }.setSender n
                (beginSending s.server.workers object worker))
      | _ => none
  | .visit _ error =>
      match s.senders n with
      | .visiting object place more =>
          (s.server.workers.clients worker)[place]?.map fun client =>
            if isSocketValid s.owner client.sock error then
              s.setSender n (.sending object (onwardFrom place more)
                (stompSendMessage client.sock object.frame (some [])))
            else
              { s with
                server := { s.server with
                  workers := s.server.workers.removeClient place worker } }.setSender n
                (if more then
                  .visiting object place
                    (place + 2 < (s.server.workers.clients worker).length)
                else .sending object none [])
      | _ => none
  | .call _ =>
      match s.senders n with
      | .sending object onward (call :: calls) =>
          some ({ s with
            written := s.written ++ (s.owner call.sock).toList.map fun connection =>
              (connection, object) }.setSender n (.sending object onward calls))
      | _ => none
  | .finish _ =>
      match s.senders n with
      | .sending object (some place) [] =>
          some (s.setSender n (.visiting object place
            (place + 1 < (s.server.workers.clients worker).length)))
      | .sending object none [] =>
          some ({ s with server := endPass destination object s.server worker }.setSender n .loop)
      | _ => none
  | .accept _ | .close _ | .receive _ | .manage => none

/-- A step of a thread that has been created. -/
def workerStep (s : Connections) (n : Nat) (action : ConnectionsAction) : Option Connections :=
  s.server.workers.workers[n]?.bind fun worker =>
    (s.server.workers.destination worker).bind fun destination =>
      senderStep s n worker destination action

/-- One step. The system does not return the number of an open descriptor. A frame that the parser has
completed has no callback. -/
def connectionsStep (env : ServerEnv) (s : Connections) : ConnectionsAction → Option Connections
  | .accept sock =>
      if s.owner sock = none then
        some { s with
          owner := Function.update s.owner sock (some s.accepted), accepted := s.accepted + 1 }
      else none
  | .close sock =>
      if s.owner sock = none then none
      else some { s with owner := Function.update s.owner sock none }
  | .receive object =>
      if object.frame.transactionCallback = none then
        (s.owner object.frame.sock).map fun connection =>
          { s with
            bucket := s.bucket ++ [object]
            asked := s.asked ++ (askedFor object.frame).map fun destination =>
              (connection, destination)
            mentioned := s.mentioned ++ object.frame.mentions }
      else none
  | .manage =>
      match s.bucket with
      | object :: bucket =>
          (handleFrame env object s.server).map fun server =>
            { s with server := server, bucket := bucket }
      | [] => none
  | .check n error => workerStep s n (.check n error)
  | .dequeue n => workerStep s n (.dequeue n)
  | .visit n error => workerStep s n (.visit n error)
  | .call n => workerStep s n (.call n)
  | .finish n => workerStep s n (.finish n)

end Newtmq
