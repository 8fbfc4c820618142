/-
Module: Newtmq.Core.NewtctlWorker
Purpose: `newtctl_worker`, the loop that receives control messages from one client, calls the handler of
  each command and sends the message back, with the handlers of `newtctl_commands.c`.
Trusted boundary: human-reviewed spec
Main exports: NEWTCTL_LIST_QUEUES, newtctlListQueues, ctlHandlers, Packet, newtctlPass, newtctlWorker
-/
import Newtmq.Core.Newtctl

namespace Newtmq

def NEWTCTL_LIST_QUEUES : Int32 := 1

/-- The number of a return code, as `newtctl_t` holds it. -/
def Ret.status : Ret → Int32
  | .success => 1
  | .error => 0

/-- `newtctl_list_queues`, which lists nothing. -/
def newtctlListQueues (_ : NewtctlT) : Ret := .success

/-- `handlers` of `newtctl.c`. -/
def ctlHandlers : List (Int32 × (NewtctlT → Ret)) :=
  [(NEWTCTL_LIST_QUEUES, newtctlListQueues)]

/-- The loop over `handlers`: the first one of the command sets the status. -/
def callCtlHandler (cobj : NewtctlT) : NewtctlT :=
  match ctlHandlers.find? fun row => row.1 = cobj.command with
  | some (_, handler) => { cobj with status := (handler cobj).status }
  | none => cobj

/-- What one call of `recv` returns. `root` is what the object of that name in `unpack` holds when
`msgpack_unpack` fails on it. -/
structure Packet where
  bytes : List UInt8
  root : MsgpackObject

/-- One pass of the loop: what is sent, and the object `cobj`. -/
def newtctlPass (lib : Msgpack) (reads : UnionReads) (packet : Packet) (cobj : NewtctlT) :
    Option (Option (List UInt8) × NewtctlT) :=
  (unpack lib reads packet.root packet.bytes cobj).map fun result =>
    match result.ret with
    | .error => (none, result.data)
    | .success =>
        let cobj := callCtlHandler result.data
        (some (pack lib cobj), cobj)

/-- `newtctl_worker`, when `malloc` does not fail: the messages that it sends until `recv` returns no more.
`cobj` is what the object holds at first, which nothing initializes. -/
def newtctlWorker (lib : Msgpack) (reads : UnionReads) : NewtctlT → List Packet → Option (List (List UInt8))
  | _, [] => some []
  | cobj, packet :: packets =>
      match newtctlPass lib reads packet cobj with
      | none => none
      | some (reply, cobj) => (newtctlWorker lib reads cobj packets).map fun replies =>
          reply.toList ++ replies

end Newtmq
