/-
Module: Newtmq.Core.ListHead
Purpose: `list.h`, the circular lists that all parts of the program link their objects with: the pointers
  of the `struct list_head` objects, and the functions and macros on them.
Trusted boundary: human-reviewed spec
Main exports: ListHeads, initListHead, listAdd, listAddTail, listDel, listFirstEntry, listEmpty,
  listForEachEntry, ListCall, listStep
-/
import Newtmq.Library.RingFamily

namespace Newtmq

/-- The pointers of the `struct list_head` objects, by their addresses. -/
abbrev ListHeads := LinkedRing.Links Nat

/-- `INIT_LIST_HEAD`. -/
def initListHead (list : Nat) (links : ListHeads) : ListHeads :=
  LinkedRing.single links list

/-- `__list_add`. -/
def listAddBetween (new prev next : Nat) (links : ListHeads) : ListHeads :=
  LinkedRing.insert links new prev next

/-- `list_add`. `none` means that a null pointer is followed. -/
def listAdd (new head : Nat) (links : ListHeads) : Option ListHeads :=
  (links.next head).map fun next => listAddBetween new head next links

/-- `list_add_tail`. -/
def listAddTail (new head : Nat) (links : ListHeads) : Option ListHeads :=
  (links.prev head).map fun prev => listAddBetween new prev head links

/-- `list_del`. -/
def listDel (entry : Nat) (links : ListHeads) : Option ListHeads :=
  LinkedRing.remove links entry

/-- `list_first_entry`: the pointer that it takes for an entry. -/
def listFirstEntry (head : Nat) (links : ListHeads) : Option Nat :=
  links.next head

/-- `list_empty`. -/
def listEmpty (head : Nat) (links : ListHeads) : Bool :=
  links.next head = some head

/-- `list_for_each_entry`, with a body that changes only the state: `none` means that a null pointer is
followed. -/
def listForEachEntry {σ : Type} (head : Nat) (body : σ → Nat → σ) (links : ListHeads) :
    Nat × σ → Loop.Step (Nat × σ) (Option σ) :=
  LinkedRing.eachPlain links head body

/-- The calls that change a list. -/
inductive ListCall where
  | initListHead (list : Nat)
  | listAdd (new head : Nat)
  | listAddTail (new head : Nat)
  | listDel (entry : Nat)
deriving DecidableEq, Repr

def listStep (links : ListHeads) : ListCall → Option ListHeads
  | .initListHead list => some (initListHead list links)
  | .listAdd new head => listAdd new head links
  | .listAddTail new head => listAddTail new head links
  | .listDel entry => listDel entry links

end Newtmq
