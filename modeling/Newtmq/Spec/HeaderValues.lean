/-
Module: Newtmq.Spec.HeaderValues
Purpose: When the accesses that are made with header values stay in their arrays, and the lengths of the
  values for which they do.
Trusted boundary: human-reviewed spec
Main exports: ValueAccess.Inside, AccessesInside, EndsInEntry, PathsFit, ReceiptFits, SendValuesFit,
  ValuesFit
-/
import Newtmq.Core.HeaderValues
import Newtmq.Spec.SendAnswers

namespace Newtmq

/-- The NUL of a value lies in the array of its entry, and a buffer is not left. -/
def ValueAccess.Inside : ValueAccess → Prop
  | .read value => (0 : UInt8) ∈ (value.line.memory.take LD_MAX).drop value.start
  | .buffer size count => count ≤ size

instance : ∀ access : ValueAccess, Decidable access.Inside
  | .read _ => inferInstanceAs (Decidable (_ ∈ _))
  | .buffer _ _ => inferInstanceAs (Decidable (_ ≤ _))

/-- The handling of the frame stays in the arrays. -/
def AccessesInside (system : SystemAnswers) (object : FrameObject) (server : Server) : Prop :=
  ∀ access ∈ handleAccesses system object server, access.Inside

/-! ### Lengths -/

/-- After a header with this name and value, the entry has a byte left. -/
def EndsInEntry (name value : List UInt8) : Prop :=
  name.length + value.length < LD_MAX

/-- The directory of a new queue, and the paths of its files as far as they are opened, fit. -/
def PathsFit (system : SystemAnswers) (datadir qname : List UInt8) : Prop :=
  let dirpath := datadir ++ cstring "/" ++ qname
  let file :=
    if system.isDirectory dirpath = some false then []
    else if system.opens (dirpath ++ cstring "/" ++ FNAME_DATA) then cstring "/" ++ FNAME_SENT_INDEX
    else cstring "/" ++ FNAME_DATA
  (dirpath ++ file).length < MAX_PATH_LENGTH

/-- A receipt that is sent fits its line. -/
def ReceiptFits (sock : Int) (receiptId : Option (List UInt8)) : Prop :=
  0 < sock → ∀ id ∈ receiptId, id.length + 13 ≤ LD_MAX

/-- The destination of a `SEND` that is not part of a transaction can be read, and the paths of a new
queue fit; of one that is, the id can be read when there are transactions. When the frame has been taken
in, the receipt fits. -/
def TakeFits (system : SystemAnswers) (server : Server) (sock : Int) (qname : List UInt8)
    (tid receiptId : Option (List UInt8)) : Prop :=
  match tid with
  | none =>
      EndsInEntry destinationName qname ∧
        if (getQinfo (getHash qname) server.persistent).isSome then ReceiptFits sock receiptId
        else
          PathsFit system server.persistent.datadir qname ∧
            (system.allocates server.persistent.datadir qname = true → ReceiptFits sock receiptId)
  | some tid =>
      (server.transactions.list ≠ [] → EndsInEntry transactionName tid) ∧ ReceiptFits sock receiptId

/-- The lengths of the values of a `SEND`. The first reply-to value that is rejected can be read. When
none is rejected, the last one can be read after the id of the connection has been appended. -/
def SendValuesFit (system : SystemAnswers) (object : FrameObject) (server : Server) : Prop :=
  ∀ cinfoId ∈ object.frame.cinfo,
    if ReplyTosFit object.frame.hAttrs then
      (∀ value ∈ headerValue replyToName object.frame.hAttrs,
        EndsInEntry replyToName (value ++ cstr cinfoId)) ∧
      ∀ qname ∈ headerValue destinationName object.frame.hAttrs,
        TakeFits system server object.frame.sock qname
          (headerValue transactionName object.frame.hAttrs)
          (headerValue receiptName object.frame.hAttrs)
    else
      ∀ value ∈ (object.frame.hAttrs.filterMap (lineValue replyToName)).find?
        (fun value => LD_MAX ≤ value.length + UNIQUE_STR_LEN), EndsInEntry replyToName value

/-- The values of a header that are measured, up to an empty one, can be read; when none is empty, the
last one is used as `Act` says. -/
def MeasuredFit (name : List UInt8) (Act : List UInt8 → Prop) (object : FrameObject) : Prop :=
  (∀ value ∈ (object.frame.hAttrs.filterMap (lineValue name)).takeWhile (· ≠ []),
    EndsInEntry name value) ∧
  ([] ∉ object.frame.hAttrs.filterMap (lineValue name) →
    ∀ value ∈ headerValue name object.frame.hAttrs, Act value)

/-- The lengths of the values that a handler uses. -/
def FrameHandler.ValuesFit (system : SystemAnswers) (object : FrameObject) (server : Server) :
    FrameHandler → Prop
  | .send => SendValuesFit system object server
  | .subscribe => object.frame.cinfo ≠ none →
      ∀ value ∈ headerValue destinationName object.frame.hAttrs, EndsInEntry destinationName value
  | .connect => object.frame.cinfo ≠ none → system.debugPrinted = true →
      (∀ value ∈ headerValue (cstring "login:") object.frame.hAttrs,
        EndsInEntry (cstring "login:") value) ∧
      ∀ value ∈ headerValue (cstring "passcode:") object.frame.hAttrs,
        EndsInEntry (cstring "passcode:") value
  | .disconnect => MeasuredFit receiptName (fun id => ReceiptFits object.frame.sock (some id)) object
  | .begin =>
      MeasuredFit transactionName
        (fun tid => getTransaction tid server.transactions = none → tid.length ≤ TID_LEN) object
  | .commit | .abort => MeasuredFit transactionName (fun _ => True) object
  | .unsubscribe | .ack => True

/-- The lengths of the header values for which the handling of a frame stays in the arrays. -/
def ValuesFit (system : SystemAnswers) (object : FrameObject) (server : Server) : Prop :=
  ∀ handler ∈ frameHandler object.frame.name, handler.ValuesFit system object server

end Newtmq
