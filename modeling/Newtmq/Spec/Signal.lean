/-
Module: Newtmq.Spec.Signal
Purpose: What `signal.c` is for: it remembers the handlers that are set and not deleted, and on an
  interrupt runs them, the one set last first.
Trusted boundary: human-reviewed spec
Main exports: Registered, registeredStep, CleansUp
-/
import Newtmq.Core.Signal

namespace Newtmq

/-- The handlers that are set, the one set last first, with their addresses, and how many were set. -/
structure Registered where
  live : List (Nat × SigHandle)
  count : Nat
deriving DecidableEq, Repr

def Registered.init : Registered := ⟨[], 0⟩

/-- A call, which must delete only a handler that is set. -/
def registeredStep (r : Registered) : SignalCall → Option Registered
  | .set func argument true =>
      some ⟨(r.count + 1, ⟨func, argument⟩) :: r.live, r.count + 1⟩
  | .set _ _ false => some r
  | .del (some handler) =>
      if handler ∈ r.live.map Prod.fst then
        some { r with live := r.live.filter fun entry => entry.1 ≠ handler }
      else none
  | .del none => some r

/-- The interrupt is handled: the handlers that are set have been called in this order, each once, the list
is empty, and every object that was ever allocated has been freed, each once. -/
structure CleansUp (r : Registered) (s : SignalState) : Prop where
  called : s.called = r.live.map Prod.snd
  empty : listEmpty hSignal s.links = true
  freed : s.freed.Perm ((List.range r.count).map (· + 1))

end Newtmq
