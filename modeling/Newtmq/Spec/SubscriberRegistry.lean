/-
Module: Newtmq.Spec.SubscriberRegistry
Purpose: What the registry of subscribers is meant to be, a map from ids to threads, and the calls on
  which the code behaves as one.
Trusted boundary: human-reviewed spec
Main exports: SubscriberId.Names, ActsAsMap, MapAlong, ClearMemory, NamesHead, HeadAlong
-/
import Newtmq.Core.SubscriberRegistry
import Newtmq.Library.Transition

namespace Newtmq

/-- The entry has the id: the string in its array is the id. -/
def SubscriberId.Names (id : SubscriberId) (entry : Subscriber) : Prop :=
  cstr entry.id = id.bytes

instance (id : SubscriberId) (entry : Subscriber) : Decidable (id.Names entry) :=
  inferInstanceAs (Decidable (_ = _))

/-- A call, with what it returned and the entries before and after it, is one of a map keyed by id: an
entry is registered under its id with its thread; an entry found has the id asked for, and only when
there is none is none found; an entry of that id goes, and only when there is none the call fails; the
other entries stay. -/
def ActsAsMap (before : List Subscriber) :
    SubscriberCall → SubscriberAnswer → List Subscriber → Prop
  | .register id tid, answer, after =>
      (answer = .code .error ∧ after = before) ∨
        (answer = .code .success ∧
          ∃ entry, id.Names entry ∧ entry.threadId = tid ∧ after.Perm (entry :: before))
  | .unregister id, answer, after =>
      (answer = .code .error ∧ after = before ∧ ∀ entry ∈ before, ¬ id.Names entry) ∨
        (answer = .code .success ∧ ∃ entry, id.Names entry ∧ before.Perm (entry :: after))
  | .get id, answer, after =>
      after = before ∧
        ((answer = .entry none ∧ ∀ entry ∈ before, ¬ id.Names entry) ∨
          ∃ entry ∈ before, id.Names entry ∧ answer = .entry (some entry))

/-- The system of calls. -/
def registryNext (memory : Nat → Option (List UInt8)) (info : ManagementInfo) (call : SubscriberCall) :
    Option ManagementInfo :=
  some (registryStep memory info call).2

/-- Every call of a sequence acts as one of a map. -/
def MapAlong (memory : Nat → Option (List UInt8)) (calls : List SubscriberCall) : Prop :=
  Transition.MeetsAlong (registryNext memory)
    (fun info call =>
      ActsAsMap info.hSubscribe call (registryStep memory info call).1
        (registryStep memory info call).2.hSubscribe)
    ManagementInfo.init calls

/-- The memory that `malloc` returns, if any, has a NUL where the id ends. -/
def ClearMemory (memory : Option (List UInt8)) (id : SubscriberId) : Prop :=
  ∀ array, memory = some array → cstr (array.drop id.bytes.length) = []

/-- The condition on a call, in the state before it: an entry is registered in memory with a NUL where
its id ends, and an id is looked up or unregistered only when the registry is empty or the id is that of
the entry registered last of those still there. -/
def NamesHead (memory : Nat → Option (List UInt8)) (info : ManagementInfo) : SubscriberCall → Prop
  | .register id _ => ClearMemory (memory info.allocated) id
  | .unregister id | .get id => ∀ entry, info.hSubscribe.head? = some entry → id.Names entry

/-- Every call of a sequence meets the condition. -/
def HeadAlong (memory : Nat → Option (List UInt8)) (calls : List SubscriberCall) : Prop :=
  Transition.MeetsAlong (registryNext memory) (NamesHead memory) ManagementInfo.init calls

end Newtmq
