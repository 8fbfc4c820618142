/-
Module: Newtmq.Core.HeaderValues
Purpose: The accesses to memory that the handling of a frame makes with its header values: a value is
  read, as a C string, in the array of its entry, and it is formatted or copied into the buffers of
  `alloc_qinfo`, `mkdir_recursive`, `alloc_transaction` and `stomp_send_receipt`.
Trusted boundary: human-reviewed spec
Main exports: HeaderValue, ValueAccess, SystemAnswers, allocAccesses, receiptAccesses,
  trackedSendHandlers, sendAccesses, measuredAccesses, recordedAccesses, handleAccesses
-/
import Newtmq.Core.Startup
import Newtmq.Core.Subscriptions

namespace Newtmq

/-- `context` as a pointer: the entry, and the place in its array after the header name. -/
structure HeaderValue where
  line : Linedata
  start : Nat
deriving DecidableEq, Repr

/-- The C string at the pointer. -/
def HeaderValue.bytes (value : HeaderValue) : List UInt8 :=
  cstr (value.line.memory.drop value.start)

/-- What is read or written: a value up to its NUL, or the first bytes of a buffer of some size. -/
inductive ValueAccess where
  | read (value : HeaderValue)
  | buffer (size count : Nat)
deriving DecidableEq, Repr

/-- `MAX_PATH_LENGTH`, which is the size of the array of `mkdir_recursive` too. -/
def MAX_PATH_LENGTH : Nat := 512

/-- What the system answers, and whether debug messages are printed. `isDirectory` is the result of
`stat`, `none` when there is nothing at the path, and `opens` says whether `fopen` succeeds. -/
structure SystemAnswers where
  isDirectory : List UInt8 → Option Bool
  opens : List UInt8 → Bool
  debugPrinted : Bool

/-! ### The files of a queue -/

/-- `mkdir_recursive`: `snprintf` cuts the path, and then the byte before its length is looked at. -/
def mkdirAccesses (dir : List UInt8) : List ValueAccess :=
  [.buffer MAX_PATH_LENGTH (min (dir.length + 1) MAX_PATH_LENGTH),
    .buffer MAX_PATH_LENGTH dir.length]

/-- `alloc_qinfo` after the directory has been made: the two file paths, and the one of
`unpersist_queue_info`. -/
def openAccesses (system : SystemAnswers) (dirpath : List UInt8) : List ValueAccess :=
  let dataPath := dirpath ++ cstring "/" ++ FNAME_DATA
  let sentIndexPath := dirpath ++ cstring "/" ++ FNAME_SENT_INDEX
  .buffer MAX_PATH_LENGTH (dataPath.length + 1) ::
    if system.opens dataPath then
      .buffer MAX_PATH_LENGTH (sentIndexPath.length + 1) ::
        if (system.isDirectory sentIndexPath).isSome then
          [.buffer MAX_PATH_LENGTH (sentIndexPath.length + 1)]
        else []
    else []

/-- `alloc_qinfo`. -/
def allocAccesses (system : SystemAnswers) (datadir qname : List UInt8) : List ValueAccess :=
  let dirpath := datadir ++ cstring "/" ++ qname
  .buffer MAX_PATH_LENGTH (dirpath.length + 1) ::
    match system.isDirectory dirpath with
    | none => mkdirAccesses dirpath ++ openAccesses system dirpath
    | some true => openAccesses system dirpath
    | some false => []

/-- `alloc_qinfo` returns an object. Otherwise the assertion of `create_qinfo` fails. -/
def SystemAnswers.allocates (system : SystemAnswers) (datadir qname : List UInt8) : Bool :=
  let dirpath := datadir ++ cstring "/" ++ qname
  system.isDirectory dirpath ≠ some false &&
    system.opens (dirpath ++ cstring "/" ++ FNAME_DATA) &&
    system.opens (dirpath ++ cstring "/" ++ FNAME_SENT_INDEX)

/-- `stomp_send_receipt`. -/
def receiptAccesses (sock : Int) (receiptId : Option HeaderValue) : List ValueAccess :=
  match receiptId with
  | some id =>
      if 0 < sock then
        [.read id, .buffer LD_MAX ((cstring "receipt-id:" ++ id.bytes ++ [LF]).length + 1)]
      else []
  | none => []

/-! ### `SEND` -/

/-- `struct attrinfo_t` of `stomp_proto_send.c`, with pointers for values. -/
structure SendValues where
  qname : Option HeaderValue
  tid : Option HeaderValue
  receiptId : Option HeaderValue
  replyTo : Option HeaderValue
deriving DecidableEq, Repr

/-- A handler that records the pointer. -/
def storeValue {δ : Type} (name : List UInt8) (set : δ → HeaderValue → δ) :
    HeaderHandler (δ × List ValueAccess) :=
  fun _ data line => (.success, (set data.1 ⟨line, name.length⟩, data.2), line)

/-- A handler that takes the length of the value, fails when it is zero, and records the pointer. -/
def storeMeasured {δ : Type} (name : List UInt8) (set : δ → HeaderValue → δ) :
    HeaderHandler (δ × List ValueAccess) :=
  fun context data line =>
    let accesses := data.2 ++ [.read ⟨line, name.length⟩]
    if 0 < context.length then
      (.success, (set data.1 ⟨line, name.length⟩, accesses), line)
    else (.error, (data.1, accesses), line)

/-- `handler_reply_to`, which takes the length of the value and may change the entry. -/
def trackedReplyTo (cinfoId : List UInt8) : HeaderHandler (SendValues × List ValueAccess) :=
  fun context data line =>
    let accesses := data.2 ++ [.read ⟨line, replyToName.length⟩]
    match handlerReplyTo context
        { cinfoId := cinfoId, qname := none, tid := none, receiptId := none, replyTo := none } line with
    | (.success, _, line) =>
        (.success, ({ data.1 with replyTo := some ⟨line, replyToName.length⟩ }, accesses), line)
    | (.error, _, line) => (.error, (data.1, accesses), line)

/-- `handlers` of `stomp_proto_send.c`. -/
def trackedSendHandlers (cinfoId : List UInt8) :
    List (List UInt8 × HeaderHandler (SendValues × List ValueAccess)) :=
  [(destinationName,
      storeValue destinationName fun values value => { values with qname := some value }),
    (transactionName,
      storeValue transactionName fun values value => { values with tid := some value }),
    (cstring "receipt:",
      storeValue (cstring "receipt:") fun values value => { values with receiptId := some value }),
    (replyToName, trackedReplyTo cinfoId)]

/-- `get_transaction` reads the id when there is a transaction to compare it with. -/
def lookupAccesses (server : Server) (tid : HeaderValue) : List ValueAccess :=
  if server.transactions.list = [] then [] else [.read tid]

/-- `persist_frame` and `enqueue`, or `transaction_add`, and then the receipt. -/
def takeAccesses (system : SystemAnswers) (server : Server) (sock : Int) (qname : HeaderValue)
    (values : SendValues) : List ValueAccess :=
  match values.tid with
  | none =>
      let known := (getQinfo (getHash qname.bytes) server.persistent).isSome
      .read qname ::
        (if known then []
          else allocAccesses system server.persistent.datadir qname.bytes) ++
        (if known || system.allocates server.persistent.datadir qname.bytes then
          .read qname :: receiptAccesses sock values.receiptId
        else [])
  | some tid => lookupAccesses server tid ++ receiptAccesses sock values.receiptId

/-- `handler_stomp_send`. -/
def sendAccesses (system : SystemAnswers) (object : FrameObject) (server : Server) :
    List ValueAccess :=
  match object.frame.cinfo with
  | none => []
  | some cinfoId =>
      match iterateHeader (trackedSendHandlers cinfoId) object.frame.hAttrs
          (⟨none, none, none, none⟩, []) with
      | (.error, _, _, accesses) => accesses
      | (.success, _, values, accesses) =>
          accesses ++ (values.replyTo.map ValueAccess.read).toList ++
            match values.qname with
            | none => []
            | some qname => takeAccesses system server object.frame.sock qname values

/-! ### The other handlers -/

/-- A table with one header, whose value is measured. -/
def trackedOne (name : List UInt8) :
    List (List UInt8 × HeaderHandler (Option HeaderValue × List ValueAccess)) :=
  [(name, storeMeasured name fun _ value => some value)]

/-- The shape of the handlers that measure the value of one header and then `act` on the last one. -/
def measuredAccesses (name : List UInt8) (act : HeaderValue → List ValueAccess)
    (object : FrameObject) : List ValueAccess :=
  match iterateHeader (trackedOne name) object.frame.hAttrs (none, []) with
  | (.success, _, some value, accesses) => accesses ++ act value
  | (_, _, _, accesses) => accesses

/-- `handler_stomp_begin`: a new transaction gets a copy of the id. -/
def beginAccesses (object : FrameObject) (server : Server) : List ValueAccess :=
  measuredAccesses transactionName
    (fun tid =>
      lookupAccesses server tid ++
        if getTransaction tid.bytes server.transactions = none then
          [.read tid, .buffer TID_LEN tid.bytes.length]
        else [])
    object

/-- `handler_stomp_commit` and `handler_stomp_abort`. -/
def endAccesses (object : FrameObject) (server : Server) : List ValueAccess :=
  measuredAccesses transactionName (lookupAccesses server) object

/-- `handler_stomp_disconnect`. -/
def disconnectAccesses (object : FrameObject) : List ValueAccess :=
  measuredAccesses (cstring "receipt:") (fun id => receiptAccesses object.frame.sock (some id)) object

/-- A table with two headers, whose values are recorded. -/
def trackedTwo (first second : List UInt8) :
    List (List UInt8 × HeaderHandler ((Option HeaderValue × Option HeaderValue) × List ValueAccess)) :=
  [(first, storeValue first fun values value => (some value, values.2)),
    (second, storeValue second fun values value => (values.1, some value))]

/-- The shape of the handlers that record the values of two headers and then `act` on the last ones. -/
def recordedAccesses (first second : List UInt8)
    (act : Option HeaderValue → Option HeaderValue → List ValueAccess) (object : FrameObject) :
    List ValueAccess :=
  match object.frame.cinfo with
  | none => []
  | some _ =>
      match iterateHeader (trackedTwo first second) object.frame.hAttrs ((none, none), []) with
      | (_, _, values, accesses) => accesses ++ act values.1 values.2

/-- `handler_stomp_subscribe`. The functions that register the worker do not look at the id. -/
def subscribeAccesses (object : FrameObject) : List ValueAccess :=
  recordedAccesses destinationName idName
    (fun destination _ => (destination.map ValueAccess.read).toList) object

/-- `handler_stomp_connect`: the values are printed when debug messages are. -/
def connectAccesses (system : SystemAnswers) (object : FrameObject) : List ValueAccess :=
  recordedAccesses (cstring "login:") (cstring "passcode:")
    (fun userid passwd =>
      if system.debugPrinted then
        (userid.map ValueAccess.read).toList ++ (passwd.map ValueAccess.read).toList
      else [])
    object

/-- The handlers of `stomp_handlers`. -/
inductive FrameHandler where
  | send
  | subscribe
  | connect
  | disconnect
  | unsubscribe
  | begin
  | commit
  | abort
  | ack
deriving DecidableEq, Repr

/-- `stomp_handlers`, with one name for `handler_stomp_ack` and `handler_stomp_nack`. -/
def frameHandlers : List (List UInt8 × FrameHandler) :=
  [(cstring "SEND", .send),
    (cstring "SUBSCRIBE", .subscribe),
    (cstring "CONNECT", .connect),
    (cstring "STOMP", .connect),
    (cstring "DISCONNECT", .disconnect),
    (cstring "UNSUBSCRIBE", .unsubscribe),
    (cstring "BEGIN", .begin),
    (cstring "COMMIT", .commit),
    (cstring "ABORT", .abort),
    (cstring "ACK", .ack),
    (cstring "NACK", .ack)]

/-- The handler of a frame name, the first one of the table that matches. -/
def frameHandler (name : List UInt8) : Option FrameHandler :=
  (frameHandlers.find? fun h => h.1.isPrefixOf name).map Prod.snd

/-- What a handler does with the header values. `handler_stomp_unsubscribe`, `handler_stomp_ack` and
`handler_stomp_nack` read none. -/
def FrameHandler.accesses (system : SystemAnswers) (object : FrameObject) (server : Server) :
    FrameHandler → List ValueAccess
  | .send => sendAccesses system object server
  | .subscribe => subscribeAccesses object
  | .connect => connectAccesses system object
  | .disconnect => disconnectAccesses object
  | .begin => beginAccesses object server
  | .commit | .abort => endAccesses object server
  | .unsubscribe | .ack => []

/-- `handle_frame`. -/
def handleAccesses (system : SystemAnswers) (object : FrameObject) (server : Server) :
    List ValueAccess :=
  match frameHandler object.frame.name with
  | some handler => handler.accesses system object server
  | none => []

end Newtmq
