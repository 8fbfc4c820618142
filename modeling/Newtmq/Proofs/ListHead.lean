/-
Module: Newtmq.Proofs.ListHead
Purpose: The pointer functions of `list.h` against sequences of objects: in every run of legal calls no
  null pointer is followed, and the pointers show the sequences.
Trusted boundary: none
Main exports: listStep_eq_perform, mirrors_of_holds, lists_mirrored
-/
import Newtmq.Library.Transition
import Newtmq.Spec.ListHead

namespace Newtmq

open LinkedRing (NodeLists Holds Operation)

theorem listStep_eq_perform (links : ListHeads) (call : ListCall) :
    listStep links call = LinkedRing.perform links call.operation := by
  cases call <;> rfl

/-- Pointers that hold the lists show them. -/
theorem mirrors_of_holds {links : ListHeads} {lists : NodeLists Nat} (holds : Holds links lists) :
    Mirrors links lists where
  empty head nodes found := by
    have ring := holds.ring head nodes found
    rw [listEmpty, decide_eq_true_iff, ring.linked.next_eq, Option.some.injEq]
    constructor
    · intro same
      cases nodes with
      | nil => rfl
      | cons node nodes =>
          have here : node = head := same
          exact absurd (here ▸ List.mem_cons_self) (List.nodup_cons.mp ring.distinct).1
    · rintro rfl
      rfl
  first head node nodes found := (holds.ring head _ found).linked.next_eq
  each head nodes found σ body state := LinkedRing.eachPlain_returns (holds.ring head nodes found) body state

/-- A run of legal calls. -/
theorem holds_of_calls {lists later : NodeLists Nat} {calls : List ListCall}
    (legal : CallsLegal lists calls later) {links : ListHeads} (holds : Holds links lists) :
    ∃ links', Transition.run listStep links calls = some links' ∧ Holds links' later := by
  induction legal generalizing links with
  | nil lists => exact ⟨links, rfl, holds⟩
  | @cons lists middle later call calls first _ ih =>
      obtain ⟨next, performed, kept⟩ := holds.perform first
      obtain ⟨links', run, result⟩ := ih kept
      refine ⟨links', ?_, result⟩
      rw [Transition.run, listStep_eq_perform, performed, Option.bind_some]
      exact run

/-- Whatever the pointers are at first, every sequence of legal calls is carried out without following a
null pointer, and afterwards each list has exactly the objects that were added to it and not deleted, in
the order in which they were added at its ends. -/
theorem lists_mirrored (links : ListHeads) {calls : List ListCall} {lists : NodeLists Nat}
    (legal : CallsLegal noLists calls lists) :
    ∃ links', Transition.run listStep links calls = some links' ∧ Mirrors links' lists := by
  have none : Holds links noLists := ⟨nofun, nofun⟩
  obtain ⟨links', run, holds⟩ := holds_of_calls legal none
  exact ⟨links', run, mirrors_of_holds holds⟩

/-- An object that is not in the only list is free. -/
theorem free_of_one {head node : Nat} {nodes : List Nat} (apart : node ≠ head) (outside : node ∉ nodes) :
    NodeLists.Free (Function.update noLists head (some nodes)) node where
  noHead := by rw [Function.update_of_ne apart, noLists]
  outside other others found := by
    rw [Function.update_apply] at found
    split at found
    · cases found
      exact outside
    · cases found

/-- Two objects are put into the list with the head 0, one at each end, and the first one is deleted. -/
theorem callsLegal_one_list :
    CallsLegal noLists [.initListHead 0, .listAddTail 10 0, .listAdd 11 0, .listDel 10]
      (Function.update noLists 0 (some [11])) := by
  have same : ∀ first second : List Nat, Function.update (Function.update noLists 0 (some first)) 0
      (some second) = Function.update noLists 0 (some second) := fun _ _ => Function.update_idem ..
  have here : ∀ nodes : List Nat, Function.update noLists 0 (some nodes) 0 = some nodes :=
    fun _ => Function.update_self ..
  have init : noLists.Performs (.init 0) (Function.update noLists 0 (some [])) := .init 0 nofun
  have tail := NodeLists.Performs.addLast 10 (here []) (free_of_one (by decide) (by decide))
  have add := NodeLists.Performs.addFirst 11 (here [10]) (free_of_one (by decide) (by decide))
  have delete := @NodeLists.Performs.remove _ _ _ 0 10 [11] [] (here [11, 10])
  rw [List.nil_append, same] at tail
  rw [same] at add
  rw [List.append_nil, same] at delete
  exact .cons init (.cons tail (.cons add (.cons delete (.nil _))))

theorem lists_mirrored_one_list :
    ∃ links, Transition.run listStep ⟨fun _ => none, fun _ => none⟩
        [.initListHead 0, .listAddTail 10 0, .listAdd 11 0, .listDel 10] = some links ∧
      Mirrors links (Function.update noLists 0 (some [11])) :=
  lists_mirrored _ callsLegal_one_list

end Newtmq
