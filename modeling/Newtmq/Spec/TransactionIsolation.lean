/-
Module: Newtmq.Spec.TransactionIsolation
Purpose: The frames by which two clients work on transactions, what a client observes of its
  transactions, and what it means that the other client does not show in it.
Trusted boundary: human-reviewed spec
Main exports: TransactionRequest, transactionRequest, TransactionOutcome, transactionOutcome, Client,
  clientStep, Isolated, ApartIds, Returns
-/
import Newtmq.Library.Unwinding
import Newtmq.Core.Handlers
import Newtmq.Spec.TransactionMap

namespace Newtmq

/-- What a handler asks of the transactions: the id it read, and for `SEND` the frame as the handler
hands it over. -/
inductive TransactionRequest where
  | start (tid : List UInt8)
  | add (tid : List UInt8) (object : FrameObject)
  | abort (tid : List UInt8)
  | commit (tid : List UInt8)
deriving DecidableEq, Repr

def TransactionRequest.tid : TransactionRequest → List UInt8
  | .start tid => tid
  | .add tid _ => tid
  | .abort tid => tid
  | .commit tid => tid

/-- The id that the header of a `BEGIN`, `COMMIT` or `ABORT` frame names. -/
def transactionHeader (object : FrameObject) : Option (List UInt8) :=
  match iterateHeader transactionHandlers object.frame.hAttrs none with
  | (.success, _, tid) => tid
  | (.error, _, _) => none

/-- The request of a `SEND` frame with a destination and a transaction. -/
def sendRequest (object : FrameObject) : Option TransactionRequest :=
  match object.frame.cinfo with
  | none => none
  | some cinfoId =>
      match sendAttrinfo cinfoId object.frame with
      | (.success, hAttrs, { qname := some qname, tid := some tid, .. }) =>
          some (.add tid
            { object with
              frame := { object.frame with hAttrs := hAttrs, transactionData := some qname } })
      | _ => none

/-- The request of a transactional frame. Other frames make none. -/
def transactionRequest (object : FrameObject) : Option TransactionRequest :=
  if (cstring "SEND").isPrefixOf object.frame.name then sendRequest object
  else if (cstring "BEGIN").isPrefixOf object.frame.name then
    (transactionHeader object).map TransactionRequest.start
  else if (cstring "COMMIT").isPrefixOf object.frame.name then
    (transactionHeader object).map TransactionRequest.commit
  else if (cstring "ABORT").isPrefixOf object.frame.name then
    (transactionHeader object).map TransactionRequest.abort
  else none

/-- The frames that `transaction_commit` works on: those of the transaction it finds. -/
def committedFrames (tid : List UInt8) (manager : TransactionManager) : List FrameObject :=
  match getTransaction tid manager with
  | some place => manager.framesAt place
  | none => []

/-- What is compared of a run: whether `BEGIN` succeeds, and the frames a `COMMIT` works on. -/
inductive TransactionOutcome where
  | began (ret : Ret)
  | committed (frames : List FrameObject)
deriving DecidableEq, Repr

/-- What a request yields in a state of the transactions. -/
def transactionOutcome (malloc : Nat → List UInt8) (manager : TransactionManager) :
    TransactionRequest → List TransactionOutcome
  | .start tid => ((transactionStart malloc tid manager).map fun (ret, _) => .began ret).toList
  | .commit tid => [.committed (committedFrames tid manager)]
  | _ => []

/-- The two clients. -/
inductive Client where
  | first
  | second
deriving DecidableEq, Repr

/-- The management worker handles a frame of a client. -/
def clientStep (env : ServerEnv) (server : Server) (sent : Client × FrameObject) : Option Server :=
  handleFrame env sent.2 server

/-- What the frame of a client yields. -/
def clientOutcome (env : ServerEnv) (server : Server) (sent : Client × FrameObject) :
    List TransactionOutcome :=
  match transactionRequest sent.2 with
  | some request => transactionOutcome env.malloc server.transactions request
  | none => []

/-- What the frames of one client yield in a run. -/
def outcomes (env : ServerEnv) (client : Client) (server : Server)
    (frames : List (Client × FrameObject)) : List TransactionOutcome :=
  Unwinding.observed (clientStep env) (clientOutcome env) (fun sent => sent.1 == client) server frames

/-- The frames of a client yield what they yield when the other client sends none. -/
def Isolated (env : ServerEnv) (client : Client) (server : Server)
    (frames : List (Client × FrameObject)) : Prop :=
  outcomes env client server frames =
    outcomes env client server (frames.filter fun sent => sent.1 == client)

/-- A frame that the parser has published, and that works on a transaction with an id of its client's
choice. -/
def Transactional (ids : Client → Set TransactionId) (sent : Client × FrameObject) : Prop :=
  sent.2.frame.transactionCallback = none ∧
    ∃ request, transactionRequest sent.2 = some request ∧
      ∃ id ∈ ids sent.1, request.tid = id.bytes

/-- No id of the client is the beginning of another id that is in use, or begins with one, and the
other client does not use it. -/
def ApartIds (ids : Client → Set TransactionId) (client : Client) : Prop :=
  ∀ a ∈ ids client, ∀ other, ∀ b ∈ ids other,
    a.bytes <+: b.bytes ∨ b.bytes <+: a.bytes → a = b ∧ client = other

/-- The request is no `COMMIT` that finds a frame. Frames have no callback, and handling such a
`COMMIT` does not end. -/
def TransactionRequest.Ends (manager : TransactionManager) : TransactionRequest → Prop
  | .commit tid => committedFrames tid manager = []
  | _ => True

instance (manager : TransactionManager) :
    ∀ request : TransactionRequest, Decidable (request.Ends manager)
  | .commit tid => inferInstanceAs (Decidable (committedFrames tid manager = []))
  | .start _ | .add _ _ | .abort _ => .isTrue trivial

/-- Handling the frame ends, or it is the client's own. -/
def Returns (client : Client) (server : Server) (sent : Client × FrameObject) : Prop :=
  sent.1 ≠ client → ∀ request ∈ transactionRequest sent.2, request.Ends server.transactions

instance (client : Client) (server : Server) (sent : Client × FrameObject) :
    Decidable (Returns client server sent) :=
  inferInstanceAs (Decidable (_ → ∀ request ∈ transactionRequest sent.2, _))

end Newtmq
