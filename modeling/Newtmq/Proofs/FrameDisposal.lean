/-
Module: Newtmq.Proofs.FrameDisposal
Purpose: Which frames wait to be written and which have been freed, over all runs of the delivering
  threads. A frame that a worker frees has been dequeued, so it was recovered, written, or still waits.
Trusted boundary: none
Main exports: Delivery.unwritten, deliveryStep_addresses, DisposalInv, disposalInv_step,
  pendingLive_iff_freesWritten
-/
import Newtmq.Core.FrameDisposal
import Newtmq.Proofs.FileOrder

namespace Newtmq

open KeyedList (exists_flatMap_modify)
open Transition (MeetsAlong meetsAlong_iff)

/-! ### The frames that are not written yet -/

/-- The frame of the management worker, until it is linked. -/
def HandlerPoint.coming : HandlerPoint → List Nat
  | .accepted _ object => [object.address]
  | .created _ object _ => [object.address]
  | _ => []

/-- The frames that wait to be written. -/
def pendingAddresses (qinfos : List QueueInfo) : List Nat :=
  qinfos.flatMap fun qinfo => qinfo.unpersistent.map FrameObject.address

def Delivery.unwritten (s : Delivery) : List Nat :=
  pendingAddresses s.pm.qinfos ++ s.handler.coming

def Delivery.writtenAddresses (s : Delivery) : List Nat :=
  s.written.map fun entry => entry.2.address

theorem mem_unwritten {s : Delivery} {qinfo : QueueInfo} (mem : qinfo ∈ s.pm.qinfos)
    {object : FrameObject} (pending : object ∈ qinfo.unpersistent) :
    object.address ∈ s.unwritten :=
  List.mem_append_left _ (List.mem_flatMap.mpr ⟨qinfo, mem, List.mem_map.mpr ⟨object, pending, rfl⟩⟩)

/-- A change that leaves the pending frames of an object alone. -/
theorem pendingAddresses_modify (qinfos : List QueueInfo) (place : Nat) {f : QueueInfo → QueueInfo}
    (same : ∀ qinfo, (f qinfo).unpersistent = qinfo.unpersistent) :
    pendingAddresses (qinfos.modify place f) = pendingAddresses qinfos := by
  cases here : qinfos[place]? with
  | none => rw [List.modify_eq_self (List.getElem?_eq_none_iff.mp here)]
  | some qinfo =>
      obtain ⟨before, after, old, new⟩ :=
        exists_flatMap_modify (fun qinfo => qinfo.unpersistent.map FrameObject.address) here
      rw [pendingAddresses, pendingAddresses, old, new, same]

variable {destination : Nat → List UInt8} {start s next : Delivery} {action : DeliveryAction}

/-- A step of the threads keeps the frames that are not written, but for one that is accepted, or it
writes one of them. -/
theorem deliveryStep_addresses (inv : LineInv start s)
    (step : DeliveryStep destination s action next) :
    (next.unwritten.Perm (newAddresses action ++ s.unwritten) ∧ next.written = s.written) ∨
      ∃ hashnum object, s.unwritten.Perm (object.address :: next.unwritten) ∧
        next.written = s.written ++ [(hashnum, object)] ∧ newAddresses action = [] := by
  cases step with
  | accept point =>
      refine Or.inl ⟨?_, rfl⟩
      simp only [Delivery.unwritten, point, HandlerPoint.coming, newAddresses, List.append_nil]
      exact List.perm_append_comm
  | createKnown point known =>
      refine Or.inl ⟨?_, rfl⟩
      simp [Delivery.unwritten, point, HandlerPoint.coming, newAddresses]
  | createNew point unknown =>
      refine Or.inl ⟨?_, rfl⟩
      simp [Delivery.unwritten, point, HandlerPoint.coming, newAddresses, pendingAddresses, allocQinfo]
  | @link qname object place point =>
      obtain ⟨qinfo, here, -⟩ := inv.created qname object place point
      obtain ⟨before, after, old, new⟩ :=
        exists_flatMap_modify (fun qinfo => qinfo.unpersistent.map FrameObject.address) here
      refine Or.inl ⟨?_, rfl⟩
      simp only [Delivery.unwritten, point, HandlerPoint.coming, newAddresses, addFrameIntoQinfo,
        pendingAddresses, old, new, List.map_append, List.append_nil, List.nil_append,
        List.append_assoc]
      refine List.Perm.append_left _ (List.Perm.append_left _ ?_)
      exact List.perm_append_comm
  | grow point =>
      refine Or.inl ⟨?_, rfl⟩
      have same := pendingAddresses_modify s.pm.qinfos
      simp [Delivery.unwritten, point, HandlerPoint.coming, newAddresses, growIndexHead, same]
  | enqueue point =>
      refine Or.inl ⟨?_, rfl⟩
      simp [Delivery.unwritten, point, HandlerPoint.coming, newAddresses]
  | count point known =>
      refine Or.inl ⟨?_, rfl⟩
      have same := pendingAddresses_modify s.pm.qinfos
      simp [Delivery.unwritten, Delivery.setWorker, newAddresses, same]
  | @write place qinfo object rest here pending =>
      obtain ⟨before, after, old, new⟩ :=
        exists_flatMap_modify (fun qinfo => qinfo.unpersistent.map FrameObject.address) here
      refine Or.inr ⟨qinfo.qid, object, ?_, rfl, rfl⟩
      simp only [Delivery.unwritten, set_persistOne here, pendingAddresses, old, new, pending,
        List.map_cons, List.tail_cons, List.append_assoc, List.cons_append]
      exact List.perm_middle
  | dequeueNone got => exact Or.inl ⟨List.Perm.refl _, rfl⟩
  | dequeueSome point got => exact Or.inl ⟨List.Perm.refl _, rfl⟩
  | send point => exact Or.inl ⟨List.Perm.refl _, rfl⟩
  | countNone point => exact Or.inl ⟨List.Perm.refl _, rfl⟩
  | enter => exact Or.inl ⟨List.Perm.refl _, rfl⟩
  | storeIndex point here => exact Or.inl ⟨List.Perm.refl _, rfl⟩
  | compare point => exact Or.inl ⟨List.Perm.refl _, rfl⟩
  | writeNone point => exact Or.inl ⟨List.Perm.refl _, rfl⟩

/-! ### Freed frames -/

/-- A frame is in the hands of a worker. -/
def Disposal.Has (s : Disposal) (worker : Nat) (object : FrameObject) : Prop :=
  s.base.workers worker = .dequeued object ∨ s.base.workers worker = .sent object ∨
    s.holding worker = some object

/-- What every run keeps. A frame has its own address, and no freed frame is one that is not written. -/
structure DisposalInv (start : Delivery) (recovered : List Nat) (s : Disposal) : Prop where
  line : LineInv start s.base
  distinct : (s.base.unwritten ++ s.base.writtenAddresses).Nodup
  allocated : ∀ address ∈ s.base.unwritten ++ s.base.writtenAddresses,
    address ∈ s.allocated ∧ address ∉ recovered
  recovered : ∀ address ∈ recovered, address ∈ s.allocated
  freed : ∀ address ∈ s.freed, address ∈ s.allocated ∧ address ∉ s.base.unwritten
  taken : ∀ worker object, s.Has worker object → ∃ hashnum, (hashnum, object) ∈ s.base.taken

theorem DisposalInv.live {recovered : List Nat} {s : Disposal}
    (inv : DisposalInv start recovered s) : PendingLive s :=
  fun _ mem _ pending gone => (inv.freed _ gone).2 (mem_unwritten mem pending)

theorem disposalInv_start {base : Delivery} (rested : base.Rested) (recovered : List Nat) :
    DisposalInv base recovered (Disposal.start base recovered) := by
  have pending : pendingAddresses base.pm.qinfos = [] := by
    rw [pendingAddresses, List.flatMap_eq_nil_iff]
    intro qinfo mem
    rw [rested.pending qinfo mem, List.map_nil]
  have none : base.unwritten ++ base.writtenAddresses = [] := by
    rw [Delivery.unwritten, Delivery.writtenAddresses, pending, rested.handler,
      rested.records.2.2.2]
    rfl
  constructor
  case line => exact lineInv_start rested
  case distinct =>
    simp only [Disposal.start, none]
    exact List.nodup_nil
  case allocated =>
    simp only [Disposal.start, none]
    exact fun _ mem => absurd mem List.not_mem_nil
  case recovered => exact fun _ mem => mem
  case freed => exact fun _ mem => absurd mem List.not_mem_nil
  case taken =>
    rintro worker object (here | here | here)
    · cases (rested.workers worker).symm.trans here
    · cases (rested.workers worker).symm.trans here
    · cases here

theorem afterCount_some {multicast : Nat → Bool} {s : Disposal} {action : DeliveryAction}
    {worker : Nat} {object : FrameObject}
    (here : afterCount multicast s action worker = some object) : s.Has worker object := by
  have held : s.holding worker = some object → s.Has worker object := fun h => Or.inr (Or.inr h)
  cases action with
  | count other =>
      rw [afterCount] at here
      cases point : s.base.workers other with
      | sent counted =>
          rw [point] at here
          dsimp only at here
          split at here
          · by_cases same : worker = other
            · rw [same, Function.update_self] at here
              cases here
              rw [same]
              exact Or.inr (Or.inl point)
            · rw [Function.update_of_ne same] at here
              exact held here
          · exact held here
      | idle =>
          rw [point] at here
          exact held here
      | dequeued other =>
          rw [point] at here
          exact held here
  | _ => exact held here

/-- A step of the threads keeps it. -/
theorem DisposalInv.base {recovered : List Nat} {s : Disposal} {multicast : Nat → Bool}
    {base : Delivery} (inv : DisposalInv start recovered s) (fresh : NewAddress s.allocated action)
    (taken : deliveryStep destination s.base action = some base) :
    DisposalInv start recovered
      { base := base
        holding := afterCount multicast s action
        freed := s.freed
        allocated := s.allocated ++ newAddresses action } := by
  have step := deliveryStep_cases taken
  have new : ∀ address ∈ newAddresses action, address ∉ s.allocated := by
    cases action with
    | accept qname object =>
        intro address mem
        rw [List.mem_singleton.mp mem]
        exact fresh
    | _ => exact fun _ mem => absurd mem List.not_mem_nil
  have nodup : (newAddresses action).Nodup := by
    cases action with
    | accept qname object => exact List.nodup_singleton _
    | _ => exact List.nodup_nil
  -- the frames that are written or not, in another order, and the accepted one
  have all : (base.unwritten ++ base.writtenAddresses).Perm
        (newAddresses action ++ (s.base.unwritten ++ s.base.writtenAddresses)) ∧
      base.unwritten ⊆ newAddresses action ++ s.base.unwritten := by
    rcases deliveryStep_addresses inv.line step with ⟨kept, written⟩ |
      ⟨hashnum, object, wrote, written, none⟩
    · rw [Delivery.writtenAddresses, written, ← List.append_assoc]
      exact ⟨kept.append_right _, kept.subset⟩
    · have record : base.writtenAddresses = s.base.writtenAddresses ++ [object.address] := by
        rw [Delivery.writtenAddresses, written, List.map_append]
        rfl
      rw [none, record, List.nil_append, List.nil_append]
      constructor
      · refine List.Perm.trans ?_ (wrote.symm.append_right _)
        rw [← List.append_assoc]
        exact List.perm_append_comm
      · exact fun address mem => wrote.mem_iff.mpr (List.mem_cons_of_mem _ mem)
  constructor
  case line => exact lineInv_step inv.line taken
  case distinct =>
    rw [all.1.nodup_iff, List.nodup_append']
    refine ⟨nodup, inv.distinct, ?_⟩
    intro address mem old
    exact new address mem (inv.allocated address old).1
  case allocated =>
    intro address mem
    rcases List.mem_append.mp (all.1.mem_iff.mp mem) with added | old
    · refine ⟨List.mem_append_right _ added, fun found => ?_⟩
      exact new address added (inv.recovered address found)
    · have before := inv.allocated address old
      exact ⟨List.mem_append_left _ before.1, before.2⟩
  case recovered => exact fun address mem => List.mem_append_left _ (inv.recovered address mem)
  case freed =>
    intro address gone
    have before := inv.freed address gone
    refine ⟨List.mem_append_left _ before.1, fun found => ?_⟩
    rcases List.mem_append.mp (all.2 found) with added | old
    · exact new address added before.1
    · exact before.2 old
  case taken =>
    intro worker object has
    have workers := deliveryStep_workers step worker
    have old : s.Has worker object → ∃ hashnum, (hashnum, object) ∈ base.taken := by
      intro had
      obtain ⟨hashnum, mem⟩ := inv.taken worker object had
      exact ⟨hashnum, workers.1 mem⟩
    rcases has with here | here | here
    · rcases workers.2.1 object here with before | ⟨-, now⟩
      · exact old (Or.inl before)
      · exact ⟨_, now⟩
    · rcases workers.2.2 object here with before | before
      · exact old (Or.inr (Or.inl before))
      · exact old (Or.inl before)
    · exact old (afterCount_some here)

/-- A frame that has been dequeued was recovered, has been written, or waits to be written. -/
theorem taken_recovered_or_written {start s : Delivery} (inv : LineInv start s) {recovered : List Nat}
    (covers : ∀ hashnum, ∀ object ∈ contents hashnum start.queues, object.address ∈ recovered)
    {hashnum : UInt64} {object : FrameObject} (mem : (hashnum, object) ∈ s.taken) :
    object.address ∈ recovered ∨ object.address ∈ s.writtenAddresses ∨
      ∃ qinfo ∈ s.pm.qinfos, object ∈ qinfo.unpersistent := by
  have inOrder : object ∈ ofHash hashnum s.taken := mem_ofHash_iff.mpr mem
  cases found : getQinfo hashnum s.pm with
  | none =>
      have empty := (inv.unknown hashnum found).1
      rw [Delivery.queueOrder, List.append_assoc, List.append_eq_nil_iff] at empty
      rw [empty.1] at inOrder
      cases inOrder
  | some place =>
      obtain ⟨qinfo, here, rfl⟩ := getQinfo_some found
      have memQinfo := List.mem_of_getElem? here
      have inFile := (taken_prefix_fileOrder inv memQinfo).subset inOrder
      simp only [fileOrder, List.mem_append] at inFile
      rcases inFile with (old | wrote) | pending
      · exact Or.inl (covers _ object old)
      · exact Or.inr (Or.inl (List.mem_map.mpr ⟨_, mem_ofHash wrote, rfl⟩))
      · exact Or.inr (Or.inr ⟨qinfo, memQinfo, pending⟩)

/-- A frame that was recovered or written does not wait to be written. -/
theorem DisposalInv.done {recovered : List Nat} {s : Disposal}
    (inv : DisposalInv start recovered s) {address : Nat}
    (done : address ∈ recovered ∨ address ∈ s.base.writtenAddresses) :
    address ∉ s.base.unwritten := by
  intro unwritten
  rcases done with old | wrote
  · exact (inv.allocated _ (List.mem_append_left _ unwritten)).2 old
  · exact List.disjoint_of_nodup_append inv.distinct unwritten wrote

/-- Freeing a frame that was recovered or written keeps the invariant. -/
theorem DisposalInv.free {recovered : List Nat} {s : Disposal}
    (inv : DisposalInv start recovered s) (worker : Nat) {object : FrameObject}
    (done : object.address ∈ recovered ∨ object.address ∈ s.base.writtenAddresses) :
    DisposalInv start recovered
      { s with
        holding := Function.update s.holding worker none
        freed := s.freed ++ [object.address] } := by
  refine ⟨inv.line, inv.distinct, inv.allocated, inv.recovered, ?_, ?_⟩
  · intro address gone
    rcases List.mem_append.mp gone with old | new
    · exact inv.freed address old
    · rw [List.mem_singleton.mp new]
      refine ⟨?_, inv.done done⟩
      rcases done with old | wrote
      · exact inv.recovered _ old
      · exact (inv.allocated _ (List.mem_append_right _ wrote)).1
  · rintro other kept (here | here | here)
    · exact inv.taken other kept (Or.inl here)
    · exact inv.taken other kept (Or.inr (Or.inl here))
    · have there : Function.update s.holding worker none other = some kept := here
      by_cases same : other = worker
      · rw [same, Function.update_self] at there
        cases there
      · rw [Function.update_of_ne same] at there
        exact inv.taken other kept (Or.inr (Or.inr there))

/-- The property holds after a step. -/
def LiveAfter (destination : Nat → List UInt8) (multicast : Nat → Bool) (s : Disposal)
    (action : DisposalAction) : Prop :=
  ∀ next, disposalStep destination multicast s action = some next → PendingLive next

/-- One step that meets the condition keeps the invariant. -/
theorem disposalInv_step {recovered : List Nat} {multicast : Nat → Bool} (s : Disposal)
    (action : DisposalAction) (next : Disposal) (inv : DisposalInv start recovered s)
    (frees : FreesWritten recovered s action)
    (taken : disposalStep destination multicast s action = some next) :
    DisposalInv start recovered next := by
  cases action with
  | base action =>
      obtain ⟨⟨fresh, _⟩, goes⟩ := Option.ite_none_right_eq_some.mp taken
      obtain ⟨base, step, rfl⟩ := Option.map_eq_some_iff.mp goes
      exact inv.base fresh step
  | free worker =>
      obtain ⟨object, held, rfl⟩ := Option.map_eq_some_iff.mp taken
      exact inv.free worker (frees object held)

/-- After a step no waiting frame is freed exactly when the step meets the condition. -/
theorem liveAfter_iff {recovered : List Nat} {multicast : Nat → Bool}
    (covers : ∀ hashnum, ∀ object ∈ contents hashnum start.queues, object.address ∈ recovered)
    (s : Disposal) (action : DisposalAction) (inv : DisposalInv start recovered s) :
    LiveAfter destination multicast s action ↔ FreesWritten recovered s action := by
  constructor
  · intro live
    cases action with
    | base action => trivial
    | free worker =>
        intro object held
        obtain ⟨hashnum, mem⟩ := inv.taken worker object (Or.inr (Or.inr held))
        rcases taken_recovered_or_written inv.line covers mem with old | wrote |
          ⟨qinfo, memQinfo, pending⟩
        · exact Or.inl old
        · exact Or.inr wrote
        · have step : disposalStep destination multicast s (.free worker) =
              (some object).map fun object =>
                { s with
                  holding := Function.update s.holding worker none
                  freed := s.freed ++ [object.address] } := congrArg (Option.map _) held
          refine absurd ?_ (live _ step qinfo memQinfo object pending)
          exact List.mem_append_right _ List.mem_cons_self
  · intro frees next taken
    exact (disposalInv_step s action next inv frees taken).live

/-- In every run from the start of the threads, no frame that waits to be written has been freed in any
state, exactly when each frame that a worker frees was recovered at the start or has been written. -/
theorem pendingLive_iff_freesWritten (destination : Nat → List UInt8) (multicast : Nat → Bool)
    {base : Delivery} (rested : base.Rested) {recovered : List Nat}
    (covers : ∀ hashnum, ∀ object ∈ contents hashnum base.queues, object.address ∈ recovered)
    (actions : List DisposalAction) :
    MeetsAlong (disposalStep destination multicast) (LiveAfter destination multicast)
        (Disposal.start base recovered) actions ↔
      MeetsAlong (disposalStep destination multicast) (FreesWritten recovered)
        (Disposal.start base recovered) actions :=
  meetsAlong_iff disposalInv_step (liveAfter_iff covers) (disposalInv_start rested recovered) actions

/-- The frame is written before the worker is done with it. -/
theorem frees_written_letter :
    MeetsAlong (disposalStep (fun _ => cstring "/topic/t") fun _ => true)
      (LiveAfter (fun _ => cstring "/topic/t") fun _ => true)
      (Disposal.start (Delivery.init (cstring "data")) [])
      [.base (.accept (cstring "/topic/t") letterA), .base .create, .base .link, .base .grow,
        .base .enqueue, .base (.dequeue 0), .base (.send 0), .base .enter, .base .storeIndex,
        .base .compare, .base .write, .base (.count 0), .free 0] := by
  refine (pendingLive_iff_freesWritten _ _ (init_rested _) ?_ _).mpr (by decide +kernel)
  intro hashnum object mem
  rw [contents_init] at mem
  cases mem

/-- The persistent worker has not run, and the frame it is to write has been freed. -/
theorem frees_waiting_letter :
    ∃ s, Transition.run (disposalStep (fun _ => cstring "/topic/t") fun _ => true)
        (Disposal.start (Delivery.init (cstring "data")) [])
        [.base (.accept (cstring "/topic/t") letterA), .base .create, .base .link, .base .grow,
          .base .enqueue, .base (.dequeue 0), .base (.send 0), .base (.count 0), .free 0] = some s ∧
      ¬ PendingLive s := by
  obtain ⟨s, taken, facts⟩ :
      ∃ s, Transition.run (disposalStep (fun _ => cstring "/topic/t") fun _ => true)
          (Disposal.start (Delivery.init (cstring "data")) [])
          [.base (.accept (cstring "/topic/t") letterA), .base .create, .base .link, .base .grow,
            .base .enqueue, .base (.dequeue 0), .base (.send 0), .base (.count 0), .free 0] = some s ∧
        (s.base.pm.qinfos.map QueueInfo.unpersistent, s.freed) = ([[letterA]], [0]) := by
    apply Option.map_eq_some_iff.mp
    decide +kernel
  obtain ⟨pending, freed⟩ := Prod.mk.inj facts
  refine ⟨s, taken, fun live => ?_⟩
  have mem : [letterA] ∈ s.base.pm.qinfos.map QueueInfo.unpersistent := by simp [pending]
  obtain ⟨qinfo, memQinfo, waits⟩ := List.mem_map.mp mem
  refine live qinfo memQinfo letterA (by simp [waits]) ?_
  rw [freed]
  exact List.mem_cons_self

end Newtmq
