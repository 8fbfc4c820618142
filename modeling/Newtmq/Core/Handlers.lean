/-
Module: Newtmq.Core.Handlers
Purpose: The frame handlers `stomp_proto_*.c`, the dispatch of `stomp_management_worker.c`, and the
  steps of the server: the management worker handles one frame, or a sending worker takes one frame
  from a queue.
Trusted boundary: human-reviewed spec
Main exports: SendAttrinfo, sendHandlers, handlerStompSend, handlerStompBegin, handlerStompCommit,
  handlerStompAbort, handlerStompSubscribe, stompHandlers, handleFrame, ServerAction, serverStep
-/
import Newtmq.Core.Headers
import Newtmq.Core.Server

namespace Newtmq

/-! ### `SEND` -/

/-- `struct attrinfo_t` of `stomp_proto_send.c`. -/
structure SendAttrinfo where
  cinfoId : List UInt8
  qname : Option (List UInt8)
  tid : Option (List UInt8)
  receiptId : Option (List UInt8)
  replyTo : Option (List UInt8)
deriving DecidableEq, Repr

/-- `UNIQUE_STR_LEN`. -/
def UNIQUE_STR_LEN : Nat := 10

/-- The text of the header name that `handler_reply_to` handles. -/
def replyToName : List UInt8 := cstring "reply-to:"

/-- `handler_reply_to`: `sprintf` writes the value, the id of the connection and a NUL over the value,
and the length grows by `CONN_ID_LEN`. -/
def handlerReplyTo : HeaderHandler SendAttrinfo :=
  fun context info hdr =>
    if context.length + UNIQUE_STR_LEN < LD_MAX then
      let value := context ++ cstr info.cinfoId
      let written := hdr.data.take replyToName.length ++ value ++ [0]
      (.success, { info with replyTo := some value },
        { data := written ++ hdr.data.drop written.length
          len := hdr.len + CONN_ID_LEN })
    else (.error, info, hdr)

/-- `handlers` of `stomp_proto_send.c`. -/
def sendHandlers : List (List UInt8 × HeaderHandler SendAttrinfo) :=
  [(cstring "destination:", storeContext fun info context => { info with qname := some context }),
    (cstring "transaction:", storeContext fun info context => { info with tid := some context }),
    (cstring "receipt:", storeContext fun info context => { info with receiptId := some context }),
    (replyToName, handlerReplyTo)]

/-- What `handler_stomp_send` finds in the header lines of a frame. -/
def sendAttrinfo (cinfoId : List UInt8) (frame : Frame) : Ret × List Linedata × SendAttrinfo :=
  iterateHeader sendHandlers frame.hAttrs
    { cinfoId := cinfoId, qname := none, tid := none, receiptId := none, replyTo := none }

/-- The part of `handler_stomp_send` that takes the frame in: into the queue and the list of frames to
be written, or into the transaction. -/
def takeFrame (object : FrameObject) (qname : List UInt8) (tid : Option (List UInt8))
    (server : Server) : FrameObject × Server :=
  match tid with
  | none =>
      (object,
        enqueueFrame object qname
          { server with persistent := persistFrame object qname server.persistent })
  | some tid =>
      let object := { object with frame := { object.frame with transactionData := some qname } }
      (object,
        { server with transactions := (transactionAdd tid object server.transactions).2 })

/-- The part of `handler_stomp_send` that starts a worker for a reply-to destination. -/
def replyTo (sock : Int) (destination : Option (List UInt8)) (server : Server) : Server :=
  match destination with
  | some destination =>
      { server with workers := registerReplyWorker sock destination server.workers }
  | none => server

/-- The part of `handler_stomp_send` that answers with a receipt. -/
def answerReceipt (sock : Int) (receiptId : Option (List UInt8)) (server : Server) : Server :=
  match receiptId with
  | some id => stompSendReceipt sock id server
  | none => server

/-- `handler_stomp_send`. -/
def handlerStompSend : Handler := fun env object server =>
  match object.frame.cinfo with
  | none => none
  | some cinfoId =>
      match sendAttrinfo cinfoId object.frame with
      | (.error, _, _) =>
          some (none, sendError env object.frame.sock (cstring "failed to validate header\n") server)
      | (.success, hAttrs, info) =>
          let object := { object with frame := { object.frame with hAttrs := hAttrs } }
          let server := replyTo object.frame.sock info.replyTo server
          match info.qname with
          | none =>
              some (none,
                sendError env object.frame.sock (cstring "no destination is specified\n") server)
          | some qname =>
              let (object, server) := takeFrame object qname info.tid server
              some (some object, answerReceipt object.frame.sock info.receiptId server)

/-! ### Transactions -/

/-- `handlers` of `stomp_proto_begin.c`, `stomp_proto_commit.c` and `stomp_proto_abort.c`. -/
def transactionHandlers : List (List UInt8 × HeaderHandler (Option (List UInt8))) :=
  [(cstring "transaction:", storeNonempty fun _ context => some context)]

/-- The shape of the three handlers: `act` on the id, or answer with `missing`. -/
def handleTransaction (missing : List UInt8) (act : List UInt8 → Server → Option Server)
    (env : ServerEnv) (object : FrameObject) (server : Server) :
    Option (Option FrameObject × Server) :=
  match iterateHeader transactionHandlers object.frame.hAttrs none with
  | (.error, _, _) =>
      some (none, sendError env object.frame.sock (cstring "failed to validate header\n") server)
  | (.success, _, some tid) => (act tid server).map fun server => (none, server)
  | (.success, _, none) => some (none, sendError env object.frame.sock missing server)

/-- `handler_stomp_begin`. -/
def handlerStompBegin : Handler := fun env =>
  handleTransaction (cstring "BEGIN frame MUST be specified transaction header")
    (fun tid server =>
      (transactionStart env.malloc tid server.transactions).map fun (_, transactions) =>
        { server with transactions := transactions })
    env

/-- `handler_stomp_commit`. A callback runs on the whole server; the transactions are put back after
it, since `transaction_commit` holds on to the object it commits. -/
def handlerStompCommit : Handler := fun env =>
  handleTransaction (cstring "COMMIT frame MUST be specified transaction header")
    (fun tid server =>
      (transactionCommit env.callbacks tid server.transactions server).map
        fun (_, transactions, server) => { server with transactions := transactions })
    env

/-- `handler_stomp_abort`. -/
def handlerStompAbort : Handler := fun env =>
  handleTransaction (cstring "ABORT frame MUST be specified transaction header")
    (fun tid server =>
      some { server with transactions := (transactionAbort tid server.transactions).2 })
    env

/-! ### Subscriptions -/

/-- `struct attrinfo_t` of `stomp_proto_subscribe.c`. -/
structure SubscribeAttrinfo where
  destination : Option (List UInt8)
  id : Option (List UInt8)
deriving DecidableEq, Repr

/-- `handlers` of `stomp_proto_subscribe.c`. -/
def subscribeHandlers : List (List UInt8 × HeaderHandler SubscribeAttrinfo) :=
  [(cstring "destination:",
      storeContext fun info context => { info with destination := some context }),
    (cstring "id:", storeContext fun info context => { info with id := some context })]

/-- `handler_stomp_subscribe`. -/
def handlerStompSubscribe : Handler := fun env object server =>
  match object.frame.cinfo with
  | none => none
  | some _ =>
      match iterateHeader subscribeHandlers object.frame.hAttrs ⟨none, none⟩ with
      | (.error, _, _) =>
          some (none, sendError env object.frame.sock (cstring "failed to validate header\n") server)
      | (.success, _, info) =>
          match info.destination with
          | none =>
              some (none,
                sendError env object.frame.sock (cstring "no destination is specified\n") server)
          | some destination =>
              let register :=
                if (cstring "/topic/").isPrefixOf destination then registerMulticastWorker
                else registerUnicastWorker
              some (none,
                { server with workers := register object.frame.sock destination server.workers })

/-- `handlers` of `stomp_proto_unsubscribe.c`, `stomp_proto_ack.c` and `stomp_proto_nack.c`. -/
def idHandlers : List (List UInt8 × HeaderHandler (Option (List UInt8))) :=
  [(cstring "id:", storeContext fun _ context => some context)]

/-- `unregister_subscriber`: the first entry goes, whatever its id. -/
def unregisterSubscriber (server : Server) : Server :=
  { server with subscribers := server.subscribers.tail }

/-- `handler_stomp_unsubscribe`. `get_subscriber` returns the first entry, whatever its id. -/
def handlerStompUnsubscribe : Handler := fun env object server =>
  match object.frame.cinfo with
  | none => none
  | some _ =>
      match iterateHeader idHandlers object.frame.hAttrs none with
      | (.error, _, _) =>
          some (none, sendError env object.frame.sock (cstring "failed to validate header\n") server)
      | (.success, _, none) => some (none, server)
      | (.success, _, some _) =>
          let cancelled := (server.subscribers.head?.map Subscriber.threadId).toList
          some (none,
            unregisterSubscriber { server with cancelled := server.cancelled ++ cancelled })

/-- `handler_stomp_ack` and `handler_stomp_nack`, which validate the header and do no more. -/
def handlerStompAck : Handler := fun env object server =>
  match object.frame.cinfo with
  | none => none
  | some _ =>
      match iterateHeader idHandlers object.frame.hAttrs none with
      | (.error, _, _) =>
          some (none, sendError env object.frame.sock (cstring "failed to validate header\n") server)
      | (.success, _, _) => some (none, server)

/-! ### Connections -/

/-- `authinfo_t`. -/
structure Authinfo where
  userid : Option (List UInt8)
  passwd : Option (List UInt8)
deriving DecidableEq, Repr

/-- `handlers` of `stomp_proto_connect.c`. -/
def connectHandlers : List (List UInt8 × HeaderHandler Authinfo) :=
  [(cstring "login:", storeContext fun auth context => { auth with userid := some context }),
    (cstring "passcode:", storeContext fun auth context => { auth with passwd := some context })]

/-- `send_connected_msg`. The last string of its table is empty. -/
def sendConnectedMsg (sock : Int) (server : Server) : Server :=
  { server with
    wire := server.wire ++
      [⟨sock, cstring "CONNECTED\n"⟩, ⟨sock, cstring "version:1.2\n"⟩, ⟨sock, [LF]⟩, ⟨sock, []⟩,
        ⟨sock, [0]⟩] }

/-- `handler_stomp_connect`. The connection state it sets is read by no code. -/
def handlerStompConnect : Handler := fun env object server =>
  match object.frame.cinfo with
  | none => none
  | some _ =>
      match iterateHeader connectHandlers object.frame.hAttrs ⟨none, none⟩ with
      | (.error, _, _) =>
          some (none, sendError env object.frame.sock (cstring "failed to validate header\n") server)
      | (.success, _, _) => some (none, sendConnectedMsg object.frame.sock server)

/-- `handlers` of `stomp_proto_disconnect.c`. -/
def disconnectHandlers : List (List UInt8 × HeaderHandler (Option (List UInt8))) :=
  [(cstring "receipt:", storeNonempty fun _ context => some context)]

/-- `handler_stomp_disconnect`. -/
def handlerStompDisconnect : Handler := fun env object server =>
  match iterateHeader disconnectHandlers object.frame.hAttrs none with
  | (.error, _, _) =>
      some (none, sendError env object.frame.sock (cstring "failed to validate header\n") server)
  | (.success, _, some id) => some (none, stompSendReceipt object.frame.sock id server)
  | (.success, _, none) => some (none, server)

/-! ### Dispatch -/

/-- `stomp_handlers`. -/
def stompHandlers : List (List UInt8 × Handler) :=
  [(cstring "SEND", handlerStompSend),
    (cstring "SUBSCRIBE", handlerStompSubscribe),
    (cstring "CONNECT", handlerStompConnect),
    (cstring "STOMP", handlerStompConnect),
    (cstring "DISCONNECT", handlerStompDisconnect),
    (cstring "UNSUBSCRIBE", handlerStompUnsubscribe),
    (cstring "BEGIN", handlerStompBegin),
    (cstring "COMMIT", handlerStompCommit),
    (cstring "ABORT", handlerStompAbort),
    (cstring "ACK", handlerStompAck),
    (cstring "NACK", handlerStompAck)]

/-- The handler of a frame name, the first one of the table that matches. -/
def findHandler (name : List UInt8) : Option Handler :=
  (stompHandlers.find? fun h => h.1.isPrefixOf name).map Prod.snd

/-- `handle_frame`. -/
def handleFrame (env : ServerEnv) (object : FrameObject) (server : Server) : Option Server :=
  match findHandler object.frame.name with
  | some handler =>
      (handler env object server).map fun (ret, server) =>
        match ret with
        | some _ => server
        | none => freeFrame object server
  | none =>
      some (sendError env object.frame.sock
        (cstring "failed to handle frame (" ++ cstr object.frame.name ++ cstring ")") server)

/-- One step of the server: the management worker handles the frame it has popped from the bucket, or
a sending worker calls `dequeue`. -/
inductive ServerAction where
  | handle (object : FrameObject)
  | dequeue (qname : List UInt8)

def serverStep (env : ServerEnv) (server : Server) : ServerAction → Option Server
  | .handle object => handleFrame env object server
  | .dequeue qname => some { server with queues := (Newtmq.dequeue qname server.queues).2 }

end Newtmq
