/-
Module: Newtmq.Proofs.SubscriberRegistry
Purpose: The registry of subscribers is a map on the calls that are about the entry at its head, and on
  no others.
Trusted boundary: none
Main exports: unsubscribe_uses_registry, register_acts_iff, unregister_acts_iff, get_acts_iff,
  registry_is_map_iff
-/
import Mathlib.Data.Multiset.Basic
import Newtmq.Core.Handlers
import Newtmq.Spec.SubscriberRegistry

namespace Newtmq

variable {memory : Nat → Option (List UInt8)} {info : ManagementInfo} {id : SubscriberId} {tid : Nat}

/-- What the server does to its list of subscribers for an `UNSUBSCRIBE` frame is a call of
`unregister_subscriber`, whatever the id. -/
theorem unsubscribe_uses_registry (server : Server) (allocated : Nat) (text : List UInt8) :
    (unregisterSubscriber server).subscribers =
      (ManagementInfo.unregisterSubscriber (some text) ⟨server.subscribers, allocated⟩).2.hSubscribe := by
  unfold unregisterSubscriber ManagementInfo.unregisterSubscriber
  cases server.subscribers <;> rfl

/-! ### The id of an entry -/

/-- An id that is followed by some memory is read back when a NUL follows. -/
theorem cstr_append_eq_self_iff {text rest : List UInt8} (clean : (0 : UInt8) ∉ text) :
    cstr (text ++ rest) = text ↔ cstr rest = [] := by
  have read : cstr (text ++ rest) = text ++ cstr rest := by
    unfold cstr
    rw [List.takeWhile_append_of_pos]
    intro c mem
    rw [decide_eq_true_eq]
    rintro rfl
    exact clean mem
  rw [read, List.append_right_eq_self]

theorem SubscriberId.copied (id : SubscriberId) : (cstr id.bytes).take LD_MAX = id.bytes := by
  rw [cstr_of_not_mem id.clean]
  exact List.take_of_length_le (Nat.le_of_lt id.short)

theorem SubscriberId.names_iff {array : List UInt8} :
    id.Names ⟨id.bytes ++ array.drop id.bytes.length, tid⟩ ↔
      cstr (array.drop id.bytes.length) = [] :=
  cstr_append_eq_self_iff id.clean

/-! ### The calls -/

/-- Of the entries before a removal, the one that went is determined. -/
theorem eq_of_cons_perm_cons {α : Type} {x y : α} {xs : List α} (perm : (x :: xs).Perm (y :: xs)) :
    x = y := by
  have same := Multiset.coe_eq_coe.mpr perm
  rw [← Multiset.cons_coe, ← Multiset.cons_coe] at same
  exact (Multiset.cons_inj_left _).mp same

theorem registryStep_register_none (failed : memory info.allocated = none) :
    registryStep memory info (.register id tid) =
      (.code .error, { info with allocated := info.allocated + 1 }) := by
  simp only [registryStep, registerSubscriber, failed]

theorem registryStep_register_some {array : List UInt8} (given : memory info.allocated = some array) :
    registryStep memory info (.register id tid) =
      (.code .success,
        ⟨⟨id.bytes ++ array.drop id.bytes.length, tid⟩ :: info.hSubscribe, info.allocated + 1⟩) := by
  simp only [registryStep, registerSubscriber, given, id.copied]

/-- A registration registers the id exactly when a NUL follows it in memory. -/
theorem register_acts_iff :
    ActsAsMap info.hSubscribe (.register id tid) (registryStep memory info (.register id tid)).1
        (registryStep memory info (.register id tid)).2.hSubscribe ↔
      ClearMemory (memory info.allocated) id := by
  rcases given : memory info.allocated with _ | array
  · rw [registryStep_register_none given]
    apply iff_of_true
    · exact Or.inl ⟨rfl, rfl⟩
    · intro array same
      cases same
  · rw [registryStep_register_some given]
    have clear : ClearMemory (some array) id ↔ cstr (array.drop id.bytes.length) = [] := by
      simp [ClearMemory]
    have named : cstr (array.drop id.bytes.length) = [] ↔
        id.Names ⟨id.bytes ++ array.drop id.bytes.length, tid⟩ := SubscriberId.names_iff.symm
    rw [clear, named]
    constructor
    · intro acts
      rcases acts with ⟨answer, _⟩ | ⟨_, entry, names, _, perm⟩
      · cases answer
      · rw [eq_of_cons_perm_cons perm]
        exact names
    · intro names
      exact Or.inr ⟨rfl, _, names, rfl, List.Perm.refl _⟩

theorem forall_head_iff {head : Subscriber} {rest : List Subscriber} {P : Subscriber → Prop} :
    (∀ entry, (head :: rest).head? = some entry → P entry) ↔ P head := by
  simp

/-- An unregistration removes an entry of its id exactly when the entry at the head has it. -/
theorem unregister_acts_iff :
    ActsAsMap info.hSubscribe (.unregister id) (registryStep memory info (.unregister id)).1
        (registryStep memory info (.unregister id)).2.hSubscribe ↔
      ∀ entry, info.hSubscribe.head? = some entry → id.Names entry := by
  obtain ⟨entries, allocated⟩ := info
  cases entries with
  | nil =>
      apply iff_of_true
      · exact Or.inl ⟨rfl, rfl, by simp⟩
      · simp
  | cons head rest =>
      rw [forall_head_iff]
      constructor
      · intro acts
        rcases acts with ⟨answer, _⟩ | ⟨_, entry, names, perm⟩
        · cases answer
        · rw [eq_of_cons_perm_cons perm]
          exact names
      · intro names
        exact Or.inr ⟨rfl, head, names, List.Perm.refl _⟩

/-- A look-up finds what it should exactly when the entry at the head has the id. -/
theorem get_acts_iff :
    ActsAsMap info.hSubscribe (.get id) (registryStep memory info (.get id)).1
        (registryStep memory info (.get id)).2.hSubscribe ↔
      ∀ entry, info.hSubscribe.head? = some entry → id.Names entry := by
  obtain ⟨entries, allocated⟩ := info
  cases entries with
  | nil =>
      apply iff_of_true
      · exact ⟨rfl, Or.inl ⟨rfl, by simp⟩⟩
      · simp
  | cons head rest =>
      rw [forall_head_iff]
      constructor
      · intro acts
        rcases acts with ⟨_, ⟨answer, _⟩ | ⟨entry, _, names, answer⟩⟩
        · cases answer
        · cases answer
          exact names
      · intro names
        exact ⟨rfl, Or.inr ⟨head, List.mem_cons_self, names, rfl⟩⟩

/-! ### Sequences of calls -/

/-- In a sequence of calls, every call acts as one of a map exactly when every call meets the condition:
ids end with a NUL in the memory they are copied to, and only the id of the entry registered last of
those still there is looked up or unregistered. -/
theorem registry_is_map_iff (memory : Nat → Option (List UInt8)) (calls : List SubscriberCall) :
    MapAlong memory calls ↔ HeadAlong memory calls := by
  have kept : ∀ info call next, True → NamesHead memory info call →
      registryNext memory info call = some next → True := by
    intros
    trivial
  apply Transition.meetsAlong_iff kept
  · intro info call _
    cases call with
    | register id tid => exact register_acts_iff
    | unregister id => exact unregister_acts_iff
    | get id => exact get_acts_iff
  · trivial

/-- With two ids in the registry, a look-up of the first one finds the entry of the second. -/
theorem registry_confuses_ids : ¬ ∀ memory calls, MapAlong memory calls := by
  intro holds
  let first : SubscriberId := ⟨cstring "a", by decide, by decide⟩
  let second : SubscriberId := ⟨cstring "b", by decide, by decide⟩
  have along := holds (fun _ => some (List.replicate LD_MAX 0))
    [.register first 1, .register second 2, .get first]
  obtain ⟨_, rest⟩ := along
  obtain ⟨_, rest⟩ := rest _ rfl
  obtain ⟨acts, _⟩ := rest _ rfl
  have found := get_acts_iff.mp acts _ rfl
  revert found
  decide

end Newtmq
