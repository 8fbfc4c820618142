/-
Module: Newtmq.Spec.NewtctlWorker
Purpose: What a client of the control port receives: one message for each of its requests. The bytes of its
  context that a request does not bring are those of the requests before it, or of the memory of the server.
Trusted boundary: human-reviewed spec
Main exports: CtlRequest, ctlRequest, ctlRequests, contextByte, contextAfter, ctlReply,
  ctlReplies, FitsContext
-/
import Newtmq.Core.NewtctlWorker

namespace Newtmq

/-- A request: the command, the status, and the bytes that are copied into the context. -/
structure CtlRequest where
  command : Int32
  status : Int32
  text : List UInt8

/-- The request that an array of three elements is. The text is read from the second one. -/
def ctlRequest (lib : Msgpack) (reads : UnionReads) (packet : Packet) : Option CtlRequest :=
  match (lib.unpack packet.bytes).getD packet.root with
  | .array [first, second, _] =>
      some ⟨unpackInt reads first, unpackInt reads second,
        (reads.rawMemory second).take (reads.rawSize second)⟩
  | _ => none

def ctlRequests (lib : Msgpack) (reads : UnionReads) (packets : List Packet) : List CtlRequest :=
  packets.filterMap (ctlRequest lib reads)

/-- The text of the packet is in the memory that the pointer leads to, and it fits into the context. -/
def FitsContext (lib : Msgpack) (reads : UnionReads) (packet : Packet) : Prop :=
  match (lib.unpack packet.bytes).getD packet.root with
  | .array [_, second, _] =>
      reads.rawSize second ≤ (reads.rawMemory second).length ∧ reads.rawSize second ≤ DATALEN
  | _ => True

instance (lib : Msgpack) (reads : UnionReads) : DecidablePred (FitsContext lib reads) := fun packet => by
  unfold FitsContext
  split <;> infer_instance

/-- A byte of the context: that of the last request whose text reaches so far, or the one of the memory that
`malloc` returned. -/
def contextByte (memory : Context) (requests : List CtlRequest) (i : Nat) : UInt8 :=
  match requests.reverse.find? fun request => i < request.text.length with
  | some request => request.text.getD i 0
  | none => memory.val.getD i 0

/-- The context after some requests. -/
def contextAfter (memory : Context) (requests : List CtlRequest) : Context :=
  ⟨(List.range DATALEN).map (contextByte memory requests), by simp⟩

/-- The message sent for a request, when it and the requests before it are `requests`: `RET_SUCCESS` is the
status of the one command that there is, and every other status is sent back. -/
def ctlReply (memory : Context) (requests : List CtlRequest) (request : CtlRequest) : NewtctlT where
  command := request.command
  status := if request.command = NEWTCTL_LIST_QUEUES then Ret.success.status else request.status
  context := contextAfter memory requests

/-- The messages sent for some requests. -/
def ctlReplies (memory : Context) (requests : List CtlRequest) : List NewtctlT :=
  requests.mapIdx fun place request => ctlReply memory (requests.take (place + 1)) request

end Newtmq
