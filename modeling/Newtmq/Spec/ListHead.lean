/-
Module: Newtmq.Spec.ListHead
Purpose: What the lists of `list.h` are for: sequences of objects, one for each head, of which no two have
  an object in common. What the functions do to the sequences, and when they may be called.
Trusted boundary: human-reviewed spec
Main exports: ListCall.operation, CallsLegal, Mirrors
-/
import Newtmq.Core.ListHead

namespace Newtmq

open LinkedRing (NodeLists Operation)

/-- The operation that a call stands for. -/
def ListCall.operation : ListCall → Operation Nat
  | .initListHead list => .init list
  | .listAdd new head => .addFirst new head
  | .listAddTail new head => .addLast new head
  | .listDel entry => .remove entry

/-- The calls may be made one after the other, and take the lists to these ones: an object is added when it
is in no list, and deleted when it is in one, and a head is not an object of a list. -/
inductive CallsLegal : NodeLists Nat → List ListCall → NodeLists Nat → Prop where
  | nil (lists : NodeLists Nat) : CallsLegal lists [] lists
  | cons {lists middle later : NodeLists Nat} {call : ListCall} {calls : List ListCall}
      (first : lists.Performs call.operation middle) (rest : CallsLegal middle calls later) :
      CallsLegal lists (call :: calls) later

/-- What the program sees of the pointers is what is in the lists: whether a list is empty, its first
object, and the objects that a loop meets, in order. -/
structure Mirrors (links : ListHeads) (lists : NodeLists Nat) : Prop where
  empty : ∀ head nodes, lists head = some nodes → (listEmpty head links = true ↔ nodes = [])
  first : ∀ head node nodes, lists head = some (node :: nodes) →
    listFirstEntry head links = some node
  each : ∀ head nodes, lists head = some nodes → ∀ (σ : Type) (body : σ → Nat → σ) (state : σ),
    ∃ start, listFirstEntry head links = some start ∧
      Loop.Returns (listForEachEntry head body links) (start, state) (some (nodes.foldl body state))

/-- No list yet. -/
def noLists : NodeLists Nat := fun _ => none

end Newtmq
