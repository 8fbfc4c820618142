/-
Module: Newtmq.Core.Signal
Purpose: `signal.c`: the handlers that are to run when the program is interrupted, linked with `list.h`.
  `set_signal_handler` and `del_signal_handler` change the list, and `int_handle` runs the handlers and
  frees them. The functions take no lock; a call is one step here.
Trusted boundary: human-reviewed spec
Main exports: SigHandle, SignalState, setSignalHandler, delSignalHandler, intHandle, SignalCall, signalStep
-/
import Newtmq.Core.Common
import Newtmq.Core.ListHead

namespace Newtmq

/-- `sighandle_t`, without its links: a function and its argument, by their addresses. -/
structure SigHandle where
  func : Nat
  argument : Nat
deriving DecidableEq, Repr

/-- The address of `h_signal`. -/
def hSignal : Nat := 0

/-- The pointers of `h_signal` and of the handlers, what the handlers hold, and the number of the objects
that `malloc` has returned: the object with the number `n` is at the address `n`. Two records: the addresses
given to `free`, and the functions called. -/
structure SignalState where
  links : ListHeads
  handlers : Nat → Option SigHandle
  allocated : Nat
  freed : List Nat
  called : List SigHandle

/-- `LIST_HEAD(h_signal)`. -/
def SignalState.init : SignalState :=
  { links := initListHead hSignal ⟨fun _ => none, fun _ => none⟩
    handlers := fun _ => none
    allocated := 0
    freed := []
    called := [] }

/-- `set_signal_handler`. `allocates` tells whether `malloc` returns an object; the result is `NULL` when it
does not. The outer `none` means that a null pointer is followed. -/
def setSignalHandler (func argument : Nat) (allocates : Bool) (s : SignalState) :
    Option (Option Nat × SignalState) :=
  if allocates then
    let handler := s.allocated + 1
    (listAdd handler hSignal s.links).map fun links =>
      (some handler,
        { s with
          links := links
          handlers := Function.update s.handlers handler (some ⟨func, argument⟩)
          allocated := handler })
  else some (none, s)

/-- `del_signal_handler`. -/
def delSignalHandler (handler : Option Nat) (s : SignalState) : Option (Ret × SignalState) :=
  match handler with
  | some handler =>
      (listDel handler s.links).map fun links =>
        (.success, { s with links := links, freed := s.freed ++ [handler] })
  | none => some (.error, s)

/-- The body of the loop of `int_handle`: the handler at an address is called. -/
def callHandler (s : SignalState) (called : List SigHandle) (handler : Nat) : List SigHandle :=
  called ++ (s.handlers handler).toList

/-- The body of the loop of `cleanup_handler`. -/
def freeHandler (handler : Nat) : ListHeads × List Nat → Option (ListHeads × List Nat)
  | (links, freed) => (listDel handler links).map fun links => (links, freed ++ [handler])

/-- `int_handle`, up to `exit`: a loop that calls the handlers, and `cleanup_handler`. `none` means that a
null pointer is followed or that a loop does not end; there are never more handlers than were allocated. -/
def intHandle (s : SignalState) : Option SignalState :=
  (listFirstEntry hSignal s.links).bind fun first =>
    (Loop.run (listForEachEntry hSignal (callHandler s) s.links) (s.allocated + 1)
        (first, s.called)).join.bind fun called =>
      (LinkedRing.cursorAt hSignal s.links s.freed).bind fun cursor =>
        (Loop.run (LinkedRing.eachSafe hSignal freeHandler) (s.allocated + 1) cursor).join.map
          fun (links, freed) => { s with links := links, freed := freed, called := called }

/-- The calls that other parts of the program make. -/
inductive SignalCall where
  | set (func argument : Nat) (allocates : Bool)
  | del (handler : Option Nat)
deriving DecidableEq, Repr

def signalStep (s : SignalState) : SignalCall → Option SignalState
  | .set func argument allocates => (setSignalHandler func argument allocates s).map Prod.snd
  | .del handler => (delSignalHandler handler s).map Prod.snd

end Newtmq
