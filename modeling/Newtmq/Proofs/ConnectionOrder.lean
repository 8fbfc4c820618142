/-
Module: Newtmq.Proofs.ConnectionOrder
Purpose: Frames leave the bucket in the order in which they were linked, whichever connections they come
  from, and each is enqueued when it is handled. So the frames of one connection come into a queue in
  order.
Trusted boundary: none
Main exports: directSend_eq, PublishingInv, publishingInv_step, order_preserved
-/
import Mathlib.Data.List.Nodup
import Newtmq.Proofs.Registration
import Newtmq.Proofs.TransactionalSend
import Newtmq.Spec.ConnectionOrder

namespace Newtmq

open Transition (Reaches Always)

variable {env : ServerEnv}

/-! ### What is enqueued for a frame -/

theorem cstr_headerValue {name value : List UInt8} {lines : List Linedata}
    (found : headerValue name lines = some value) : cstr value = value :=
  cstr_of_not_mem (zero_not_mem_headerValue found)

/-- The name that a frame is sent to. -/
def Frame.sentTo (frame : Frame) : Option (List UInt8) :=
  if (cstring "SEND").isPrefixOf frame.name = true ∧ frame.headerAccepted = true ∧
      headerValue transactionName frame.hAttrs = none then frame.destination
  else none

theorem sentTo_eq_some_iff {frame : Frame} {qname : List UInt8} :
    frame.sentTo = some qname ↔ frame.SendsTo qname := by
  rw [Frame.sentTo, Frame.SendsTo]
  split
  · next holds =>
      obtain ⟨send, accepted, tid⟩ := holds
      simp only [send, accepted, tid, true_and, and_true]
  · next fails =>
      constructor
      · intro found
        cases found
      · rintro ⟨send, accepted, -, tid⟩
        exact absurd ⟨send, accepted, tid⟩ fails

/-- A frame is enqueued under the name that it is sent to. -/
theorem directSend_eq (object : FrameObject) :
    directSend object = object.frame.sentTo.toList.map fun qname => (qname, object.address) := by
  rw [directSend, sendTarget, Frame.sentTo, Frame.headerAccepted]
  cases (cstring "SEND").isPrefixOf object.frame.name with
  | false => rfl
  | true =>
      cases cinfo : object.frame.cinfo with
      | none => rfl
      | some cinfoId =>
          rcases attrs : sendAttrinfo cinfoId object.frame with ⟨ret, lines, info⟩
          simp only [attrs, if_true]
          cases ret with
          | error => simp
          | success =>
              obtain ⟨destination, -, -, tid⟩ := iterateHeader_sendValues attrs
              rw [Option.or_none] at destination tid
              have same : object.frame.destination = info.qname := destination.symm
              rw [← tid, same]
              cases transaction : info.tid with
              | some tid => cases named : info.qname <;> simp [transaction, named]
              | none =>
                  cases named : info.qname with
                  | none => simp [named]
                  | some name =>
                      simp [transaction, named, cstr_headerValue (destination.symm.trans named)]

/-- What is enqueued under a name for the frames of a connection, given by their addresses. -/
theorem filter_directSend (qname : List UInt8) (own : Nat → Prop) [DecidablePred own]
    (objects : List FrameObject) :
    ((objects.flatMap directSend).filter fun entry => entry.1 = qname ∧ own entry.2).map Prod.snd =
      ((objects.filter fun object => own object.address).filter fun object =>
        object.frame.SendsTo qname).map FrameObject.address := by
  induction objects with
  | nil => rfl
  | cons object objects ih =>
      rw [List.flatMap_cons, List.filter_append, List.map_append, ih, directSend_eq]
      by_cases mine : own object.address
      · cases sent : object.frame.sentTo with
        | none =>
            have apart : ¬ object.frame.SendsTo qname := by
              rw [← sentTo_eq_some_iff, sent]
              simp
            simp [mine, apart]
        | some name =>
            have iff : object.frame.SendsTo qname ↔ name = qname := by
              rw [← sentTo_eq_some_iff, sent, Option.some.injEq]
            by_cases same : name = qname <;> simp [mine, iff, same]
      · cases object.frame.sentTo <;> simp [mine]

/-! ### Runs -/

/-- The frames that were completed are, in order, those handled, the one popped and those in the bucket,
and those handled have been enqueued as their headers say. -/
structure PublishingInv (s : Publishing) : Prop where
  order : s.completed.map Prod.snd = s.handled ++ s.popped.toList ++ s.bucket
  addresses : (s.completed.map fun entry => entry.2.address) = List.range s.completed.length
  received : ∀ entry ∈ s.completed, entry.2.Received
  enqueued : s.server.enqueued = s.handled.flatMap directSend
  callbacks : NoCallbacks s.server.transactions

theorem publishingInv_start {server : Server} (idle : server.Idle) :
    PublishingInv (Publishing.start server) where
  order := rfl
  addresses := rfl
  received _ mem := absurd mem List.not_mem_nil
  enqueued := idle.enqueued
  callbacks := idle.transactions

theorem publishingInv_step {s next : Publishing} {action : PublishingAction} (inv : PublishingInv s)
    (taken : publishingStep env s action = some next) : PublishingInv next := by
  cases action with
  | finish connection frame =>
      obtain ⟨received, same⟩ := Option.ite_none_right_eq_some.mp taken
      cases same
      refine ⟨?_, ?_, ?_, inv.enqueued, inv.callbacks⟩
      · simp [inv.order]
      · simp [inv.addresses, List.range_succ]
      · intro entry mem
        rcases List.mem_append.mp mem with old | new
        · exact inv.received entry old
        · rw [List.mem_singleton.mp new]
          exact received
  | get =>
      simp only [publishingStep] at taken
      split at taken
      · next object rest popped bucket =>
          cases taken
          refine ⟨?_, inv.addresses, inv.received, inv.enqueued, inv.callbacks⟩
          rw [inv.order, popped, bucket]
          simp
      · cases taken
        exact inv
      · cases taken
  | handle =>
      obtain ⟨object, popped, ran⟩ := Option.bind_eq_some_iff.mp taken
      obtain ⟨server, handled, rfl⟩ := Option.map_eq_some_iff.mp ran
      have received : object.Received := by
        have mem : object ∈ s.completed.map Prod.snd := by
          rw [inv.order, popped]
          simp
        obtain ⟨entry, memEntry, rfl⟩ := List.mem_map.mp mem
        exact inv.received entry memEntry
      obtain ⟨enqueued, callbacks⟩ := handleFrame_enqueued received inv.callbacks handled
      refine ⟨?_, inv.addresses, inv.received, ?_, callbacks⟩
      · rw [inv.order, popped]
        simp
      · rw [enqueued, inv.enqueued]
        simp
  | dequeue qname =>
      cases taken
      exact ⟨inv.order, inv.addresses, inv.received, inv.enqueued, inv.callbacks⟩

/-- A frame belongs to the connection that has completed it. -/
theorem PublishingInv.connectionOf {s : Publishing} (inv : PublishingInv s)
    {entry : Nat × FrameObject} (mem : entry ∈ s.completed) :
    s.connectionOf entry.2.address = some entry.1 := by
  rw [Publishing.connectionOf]
  cases found : s.completed.find? fun other => other.2.address = entry.2.address with
  | none =>
      rw [List.find?_eq_none] at found
      exact absurd rfl (of_decide_eq_false (Bool.eq_false_iff.mpr (found entry mem)))
  | some other =>
      have unique : (s.completed.map fun entry => entry.2.address).Nodup := by
        rw [inv.addresses]
        exact List.nodup_range
      have same := List.inj_on_of_nodup_map unique (List.mem_of_find?_eq_some found) mem
        (by simpa using List.find?_some found)
      rw [same]
      rfl

/-- In every run the frames of a connection come into each queue in the order in which it completed
them, and no frame is lost or doubled. -/
theorem order_preserved {server : Server} {s : Publishing} (idle : server.Idle)
    (reached : Reaches (publishingStep env) Always (Publishing.start server) s) :
    OrderPreserved s := by
  have inv : PublishingInv s := by
    apply @Reaches.invariant _ _ _ _ PublishingInv _ _ _ reached (publishingInv_start idle)
    exact fun _ _ _ inv _ taken => publishingInv_step inv taken
  intro connection qname
  constructor
  · rw [Publishing.enqueuedOn, inv.enqueued, Publishing.handledOf]
    exact filter_directSend qname (fun address => s.connectionOf address = some connection) s.handled
  · have mine : s.completedBy connection = (s.completed.map Prod.snd).filter fun object =>
        s.connectionOf object.address = some connection := by
      rw [Publishing.completedBy, List.filter_map]
      apply congrArg (List.map Prod.snd)
      apply List.filter_congr
      intro entry mem
      simp [inv.connectionOf mem]
    rw [mine, inv.order, List.append_assoc, List.filter_append]
    exact List.prefix_append _ _

/-- Two connections complete frames in turns, and all of them are handled. -/
def takeTurns : List PublishingAction :=
  let frame := exampleFrame "SEND" "destination:q"
  [.finish 0 frame, .finish 1 frame, .get, .finish 0 frame, .handle, .get, .handle, .get, .handle]

theorem order_preserved_turns :
    ∃ s, Transition.run (publishingStep quietEnv)
        (Publishing.start (Server.init (cstring "data") fun _ => none)) takeTurns = some s ∧
      s.enqueuedOn 0 (cstring "q") = [0, 2] ∧ OrderPreserved s := by
  have taken : ∃ s, Transition.run (publishingStep quietEnv)
        (Publishing.start (Server.init (cstring "data") fun _ => none)) takeTurns = some s ∧
      s.enqueuedOn 0 (cstring "q") = [0, 2] := by
    apply Option.map_eq_some_iff.mp
    decide +kernel
  obtain ⟨s, run, enqueued⟩ := taken
  have idle : (Server.init (cstring "data") fun _ => none).Idle :=
    ⟨rfl, fun _ mem => absurd mem List.not_mem_nil⟩
  exact ⟨s, run, enqueued, order_preserved idle (Transition.reaches_of_run run)⟩

end Newtmq
