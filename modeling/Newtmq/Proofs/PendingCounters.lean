/-
Module: Newtmq.Proofs.PendingCounters
Purpose: The counters of a `queue_info` object agree with its pending frames in every state of every
  process that serves the data directory, so the persistent worker notices the frames that wait.
Trusted boundary: none
Main exports: unpersist_even, PlaceMove, deliveryStep_place, FlushInv, flushInv_step, Followed, Watched,
  pending_noticed
-/
import Newtmq.Spec.PendingCounters
import Newtmq.Proofs.DeliverySteps
import Newtmq.Proofs.Startup

namespace Newtmq

open Transition (run guarded HoldsAlong)

/-! ### The start of a process -/

/-- No frame waits, and the counters of each object are the same. -/
def EvenCounters (pm : PersistentManager) : Prop :=
  ∀ qinfo ∈ pm.qinfos, qinfo.unpersistent = [] ∧ qinfo.indexHead = qinfo.indexPersistent

theorem EvenCounters.modify {pm : PersistentManager} (even : EvenCounters pm) {place : Nat}
    {f : QueueInfo → QueueInfo}
    (keeps : ∀ qinfo, (f qinfo).unpersistent = qinfo.unpersistent ∧
      (qinfo.indexHead = qinfo.indexPersistent → (f qinfo).indexHead = (f qinfo).indexPersistent)) :
    EvenCounters { pm with qinfos := pm.qinfos.modify place f } := by
  intro qinfo mem
  obtain ⟨i, here⟩ := List.mem_iff_getElem?.mp mem
  rw [List.getElem?_modify, Option.map_eq_map, Option.map_eq_some_iff] at here
  obtain ⟨old, there, rfl⟩ := here
  obtain ⟨none, same⟩ := even old (List.mem_of_getElem? there)
  split
  · exact ⟨(keeps old).1.trans none, (keeps old).2 same⟩
  · exact ⟨none, same⟩

theorem EvenCounters.createQinfo {pm : PersistentManager} (even : EvenCounters pm)
    (qname : List UInt8) : EvenCounters (createQinfo qname pm).2 := by
  rw [Newtmq.createQinfo]
  split
  · exact even
  · intro qinfo mem
    rcases List.mem_append.mp mem with old | new
    · exact even qinfo old
    · obtain rfl := List.mem_singleton.mp new
      exact ⟨rfl, rfl⟩

theorem unpersistEntry_even {env : StartupEnv} {dName : List UInt8} {s next : Startup}
    (even : EvenCounters s.pm) (pass : unpersistEntry env dName s = some next) :
    EvenCounters next.pm := by
  have created := even.createQinfo dName
  rw [unpersistEntry] at pass
  split at pass
  · cases pass
    exact even
  simp only at pass
  split at pass
  · cases pass
  split at pass
  · cases pass
  split at pass
  · cases pass
    apply created.modify
    exact fun _ => ⟨rfl, id⟩
  split at pass
  · cases pass
    rw [(enqueueAll_rest _ _ _).1]
    refine EvenCounters.modify (EvenCounters.modify created ?sent) ?sizes
    case sent => exact fun _ => ⟨rfl, id⟩
    case sizes => exact fun _ => ⟨rfl, fun _ => rfl⟩
  · cases pass
  · cases pass

/-- After `unpersist`, no frame waits, and the counters of each object are the same. -/
theorem unpersist_even {env : StartupEnv} {pm : PersistentManager} {s : Startup}
    (started : unpersist env pm = some s) : EvenCounters s.pm := by
  have entries : ∀ (entries : List (List UInt8)) (first : Startup), EvenCounters first.pm →
      entries.foldlM (fun s dName => unpersistEntry env dName s) first = some s →
      EvenCounters s.pm := by
    intro entries
    induction entries with
    | nil =>
        intro first even done
        cases done
        exact even
    | cons dName entries ih =>
        intro first even done
        rw [List.foldlM_cons] at done
        obtain ⟨next, pass, rest⟩ := Option.bind_eq_some_iff.mp done
        exact ih next (unpersistEntry_even even pass) rest
  exact entries env.entries (Startup.init pm) (fun _ mem => by cases mem) started

/-! ### What a step does to one object -/

theorem growing_of_not_between {place : Nat} {point : HandlerPoint} (apart : ¬ point.Between place) :
    point.growing place = 0 := by
  cases point with
  | linked qname object at' =>
      rw [HandlerPoint.growing, if_neg]
      rintro rfl
      exact apart ⟨qname, object, rfl⟩
  | _ => rfl

theorem growing_linked (qname : List UInt8) (object : FrameObject) (place : Nat) :
    (HandlerPoint.linked qname object place).growing place = object.frame.size :=
  if_pos rfl

/-- What a step can do to the object at a place. -/
inductive PlaceMove (place : Nat) (s next : Delivery) (qinfo after : QueueInfo) : Prop where
  | quiet (pending : after.unpersistent = qinfo.unpersistent)
      (head : after.indexHead = qinfo.indexHead)
      (persistent : after.indexPersistent = qinfo.indexPersistent)
      (point : ∀ qname object, next.handler = .linked qname object place ↔
        s.handler = .linked qname object place)
      (written : s.written <+: next.written)
  | link {qname : List UInt8} {object : FrameObject} (before : s.handler = .created qname object place)
      (point : next.handler = .linked qname object place)
      (pending : after.unpersistent = qinfo.unpersistent ++ [object])
      (head : after.indexHead = qinfo.indexHead)
      (persistent : after.indexPersistent = qinfo.indexPersistent)
      (written : next.written = s.written)
  | grow {qname : List UInt8} {object : FrameObject} (before : s.handler = .linked qname object place)
      (point : ¬ next.handler.Between place)
      (pending : after.unpersistent = qinfo.unpersistent)
      (head : after.indexHead = qinfo.indexHead + object.frame.size)
      (persistent : after.indexPersistent = qinfo.indexPersistent)
      (written : next.written = s.written)
  | write {object : FrameObject} (point : next.handler = s.handler)
      (pending : qinfo.unpersistent = object :: after.unpersistent)
      (head : after.indexHead = qinfo.indexHead)
      (persistent : after.indexPersistent = qinfo.indexPersistent + object.frame.size)
      (written : next.written = s.written ++ [(qinfo.qid, object)])

theorem deliveryStep_place {destination : Nat → List UInt8} {s next : Delivery}
    {action : DeliveryAction} (step : DeliveryStep destination s action next) {place : Nat}
    {qinfo : QueueInfo} (here : s.pm.qinfos[place]? = some qinfo) :
    ∃ after, next.pm.qinfos[place]? = some after ∧ after.qid = qinfo.qid ∧
      PlaceMove place s next qinfo after := by
  cases step with
  | accept point =>
      exact ⟨qinfo, here, rfl, .quiet rfl rfl rfl (by simp [point]) (List.prefix_refl _)⟩
  | createKnown point known =>
      exact ⟨qinfo, here, rfl, .quiet rfl rfl rfl (by simp [point]) (List.prefix_refl _)⟩
  | createNew point unknown =>
      have inside := (List.getElem?_eq_some_iff.mp here).1
      refine ⟨qinfo, ?_, rfl, .quiet rfl rfl rfl (by simp [point]) (List.prefix_refl _)⟩
      rw [← here]
      exact List.getElem?_append_left inside
  | @link qname object other point =>
      simp only [addFrameIntoQinfo, List.getElem?_modify, here]
      by_cases same : other = place
      · subst same
        exact ⟨_, rfl, by simp, .link point rfl (by simp) (by simp) (by simp) rfl⟩
      · exact ⟨_, rfl, by simp [same],
          .quiet (by simp [same]) (by simp [same]) (by simp [same]) (by simp [point, same])
            (List.prefix_refl _)⟩
  | @grow qname object other point =>
      simp only [growIndexHead, List.getElem?_modify, here]
      by_cases same : other = place
      · subst same
        exact ⟨_, rfl, by simp, .grow point (by simp [HandlerPoint.Between]) (by simp) (by simp)
          (by simp) rfl⟩
      · exact ⟨_, rfl, by simp [same],
          .quiet (by simp [same]) (by simp [same]) (by simp [same]) (by simp [point, same])
            (List.prefix_refl _)⟩
  | enqueue point =>
      exact ⟨qinfo, here, rfl, .quiet rfl rfl rfl (by simp [point]) (List.prefix_refl _)⟩
  | @count worker object other point known =>
      simp only [Delivery.setWorker, List.getElem?_modify, here]
      refine ⟨_, rfl, ?_, .quiet ?_ ?_ ?_ (fun _ _ => Iff.rfl) (List.prefix_refl _)⟩
      all_goals split <;> rfl
  | @write other found object rest there pending =>
      simp only [set_persistOne there, List.getElem?_modify, here]
      by_cases same : other = place
      · subst same
        obtain rfl : qinfo = found := by simpa [here] using there
        exact ⟨_, rfl, by simp, .write rfl (by simp [pending]) (by simp) (by simp) rfl⟩
      · exact ⟨_, rfl, by simp [same],
          .quiet (by simp [same]) (by simp [same]) (by simp [same]) (fun _ _ => Iff.rfl)
            (List.prefix_append _ _)⟩
  | _ => exact ⟨qinfo, here, rfl, .quiet rfl rfl rfl (fun _ _ => Iff.rfl) (List.prefix_refl _)⟩

/-- An object that a step adds. -/
theorem deliveryStep_new {destination : Nat → List UInt8} {s next : Delivery}
    {action : DeliveryAction} (step : DeliveryStep destination s action next) {place : Nat}
    {after : QueueInfo} (absent : s.pm.qinfos[place]? = none)
    (here : next.pm.qinfos[place]? = some after) :
    after.unpersistent = [] ∧ after.indexHead = after.indexPersistent ∧
      ¬ next.handler.Between place := by
  have length : ∀ {f : QueueInfo → QueueInfo} {other : Nat},
      (s.pm.qinfos.modify other f)[place]? = none := by
    intro f other
    rw [List.getElem?_modify, absent]
    rfl
  cases step with
  | @createNew qname object point unknown =>
      have past := List.getElem?_eq_none_iff.mp absent
      simp only [List.getElem?_append_right past] at here
      obtain rfl := List.mem_singleton.mp (List.mem_of_getElem? here)
      exact ⟨rfl, rfl, by simp [HandlerPoint.Between]⟩
  | link point =>
      simp only [addFrameIntoQinfo, length] at here
      cases here
  | grow point =>
      simp only [growIndexHead, length] at here
      cases here
  | count point known =>
      simp only [Delivery.setWorker, length] at here
      cases here
  | write there pending =>
      simp only [set_persistOne there, length] at here
      cases here
  | _ =>
      have same : s.pm.qinfos[place]? = some after := here
      rw [absent] at same
      cases same

/-! ### The counters -/

theorem growing_congr {place : Nat} {first second : HandlerPoint}
    (same : ∀ qname object, first = .linked qname object place ↔ second = .linked qname object place) :
    first.growing place = second.growing place := by
  by_cases between : second.Between place
  · obtain ⟨qname, object, point⟩ := between
    rw [(same qname object).mpr point, point]
  · have apart : ¬ first.Between place := by
      rintro ⟨qname, object, point⟩
      exact between ⟨qname, object, (same qname object).mp point⟩
    rw [growing_of_not_between between, growing_of_not_between apart]

/-- The counters of one object agree with its frames. -/
def QueueInfo.Agrees (qinfo : QueueInfo) (growing : Int) : Prop :=
  qinfo.indexHead - qinfo.indexPersistent + growing = totalSize qinfo.unpersistent

theorem PlaceMove.agrees {place : Nat} {s next : Delivery} {qinfo after : QueueInfo}
    (move : PlaceMove place s next qinfo after)
    (agree : qinfo.Agrees (s.handler.growing place)) :
    after.Agrees (next.handler.growing place) := by
  rw [QueueInfo.Agrees] at agree ⊢
  cases move with
  | quiet pending head persistent point written =>
      rw [pending, head, persistent, growing_congr point, agree]
  | link before point pending head persistent written =>
      have apart : ¬ s.handler.Between place := by simp [before, HandlerPoint.Between]
      rw [growing_of_not_between apart] at agree
      rw [pending, head, persistent, point, growing_linked, totalSize_append, totalSize_singleton]
      omega
  | grow before point pending head persistent written =>
      rw [before, growing_linked] at agree
      rw [pending, head, persistent, growing_of_not_between point]
      omega
  | @write object point pending head persistent written =>
      rw [pending, ← List.singleton_append, totalSize_append, totalSize_singleton] at agree
      rw [head, persistent, point]
      omega

/-- The counters agree in every step. -/
theorem countersAgree_step {destination : Nat → List UInt8} {s next : Delivery}
    {action : DeliveryAction} (agree : CountersAgree s)
    (step : DeliveryStep destination s action next) : CountersAgree next := by
  intro place after here
  cases before : s.pm.qinfos[place]? with
  | none =>
      obtain ⟨pending, head, apart⟩ := deliveryStep_new step before here
      rw [pending, head, growing_of_not_between apart, totalSize_nil]
      omega
  | some qinfo =>
      obtain ⟨found, there, _, move⟩ := deliveryStep_place step before
      obtain rfl : found = after := by
        rw [there] at here
        exact Option.some.inj here
      exact move.agrees (agree place qinfo before)

/-! ### Positive sizes -/

/-- The frame on its way to `h_unpersistent`. -/
def HandlerPoint.arriving : HandlerPoint → List FrameObject
  | .accepted _ object => [object]
  | .created _ object _ => [object]
  | _ => []

/-- The counters agree, and the frames that wait or arrive have positive sizes. -/
structure FlushInv (s : Delivery) : Prop where
  agree : CountersAgree s
  pending : ∀ (place : Nat) (qinfo : QueueInfo), s.pm.qinfos[place]? = some qinfo →
    ∀ object ∈ qinfo.unpersistent, 0 < object.frame.size
  arriving : ∀ object ∈ s.handler.arriving, 0 < object.frame.size

theorem arriving_step {destination : Nat → List UInt8} {s next : Delivery} {action : DeliveryAction}
    (arriving : ∀ object ∈ s.handler.arriving, 0 < object.frame.size)
    (positive : PositiveSizes action) (step : DeliveryStep destination s action next) :
    ∀ object ∈ next.handler.arriving, 0 < object.frame.size := by
  cases step with
  | accept point =>
      intro object mem
      obtain rfl := List.mem_singleton.mp mem
      exact positive
  | createKnown point known => exact fun object mem => arriving object (by rwa [point])
  | createNew point unknown => exact fun object mem => arriving object (by rwa [point])
  | link point => exact fun object mem => by cases mem
  | grow point => exact fun object mem => by cases mem
  | enqueue point => exact fun object mem => by cases mem
  | _ => exact arriving

theorem flushInv_step {destination : Nat → List UInt8} {s next : Delivery}
    {action : DeliveryAction} (inv : FlushInv s) (positive : PositiveSizes action)
    (taken : deliveryStep destination s action = some next) : FlushInv next := by
  have step := deliveryStep_cases taken
  refine ⟨countersAgree_step inv.agree step, ?_, arriving_step inv.arriving positive step⟩
  intro place after here
  cases before : s.pm.qinfos[place]? with
  | none =>
      rw [(deliveryStep_new step before here).1]
      exact fun object mem => by cases mem
  | some qinfo =>
      obtain ⟨found, there, _, move⟩ := deliveryStep_place step before
      obtain rfl : found = after := by
        rw [there] at here
        exact Option.some.inj here
      have old := inv.pending place qinfo before
      cases move with
      | quiet pending => rwa [pending]
      | link before point pending =>
          rw [pending]
          intro object mem
          rcases List.mem_append.mp mem with mem | mem
          · exact old object mem
          · exact inv.arriving object (by rwa [before])
      | grow before point pending => rwa [pending]
      | write point pending =>
          rw [pending] at old
          exact fun object mem => old object (List.mem_cons_of_mem _ mem)

theorem flushInv_begin {malloc : Nat → Nat → Nat} {s : Startup} (even : EvenCounters s.pm) :
    FlushInv (s.begin malloc) where
  agree place qinfo here := by
    obtain ⟨pending, same⟩ := even qinfo (List.mem_of_getElem? here)
    rw [pending, same, totalSize_nil]
    simp [Startup.begin, HandlerPoint.growing]
  pending place qinfo here := by
    rw [(even qinfo (List.mem_of_getElem? here)).1]
    exact fun object mem => by cases mem
  arriving object mem := by cases mem

/-- The invariant holds in every process. -/
theorem flushInv_life {destination : Nat → List UInt8} {s next : Delivery} {action : LifeAction}
    (inv : FlushInv s) (positive : action.Positive)
    (taken : lifeStep destination s action = some next) : FlushInv next := by
  cases action with
  | thread action => exact flushInv_step inv positive taken
  | restart env disk malloc =>
      obtain ⟨started, loaded, rfl⟩ := Option.map_eq_some_iff.mp taken
      exact flushInv_begin (unpersist_even loaded)

theorem totalSize_pos {objects : List FrameObject} (some : objects ≠ [])
    (positive : ∀ object ∈ objects, 0 < object.frame.size) : 0 < totalSize objects := by
  obtain ⟨object, rest, rfl⟩ := List.exists_cons_of_ne_nil some
  have first := positive object List.mem_cons_self
  have others := totalSize_le_of_subperm (List.nil_subperm : [].Subperm rest) fun other mem =>
    (positive other (List.mem_cons_of_mem _ mem)).le
  rw [← List.singleton_append, totalSize_append, totalSize_singleton]
  rw [totalSize_nil] at others
  omega

/-- An object with frames that wait, none of them between its two steps, is noticed. -/
theorem FlushInv.noticed {s : Delivery} (inv : FlushInv s) {place : Nat} {qinfo : QueueInfo}
    (here : s.pm.qinfos[place]? = some qinfo) (waits : qinfo.unpersistent ≠ [])
    (apart : ¬ s.handler.Between place) : qinfo.indexPersistent < qinfo.indexHead := by
  have agree := inv.agree place qinfo here
  have positive := totalSize_pos waits (inv.pending place qinfo here)
  rw [growing_of_not_between apart] at agree
  omega

/-! ### An iteration that nobody disturbs -/

theorem persistQueueContext_flushes (objects : List FrameObject) (qinfo : QueueInfo)
    (pm : PersistentManager) (waits : qinfo.unpersistent = objects) :
    let flushed := objects.foldl (fun (qinfo, pm) object => persistOne object qinfo pm) (qinfo, pm)
    flushed.1.unpersistent = [] ∧
      flushed.2.dataFile qinfo.dirpath = pm.dataFile qinfo.dirpath ++ framesBytes objects := by
  induction objects generalizing qinfo pm with
  | nil => simpa [framesBytes] using waits
  | cons object objects ih =>
      have rest := ih (persistOne object qinfo pm).1 (persistOne object qinfo pm).2
        (by simp [persistOne, waits])
      refine ⟨rest.1, rest.2.trans ?_⟩
      have written : (persistOne object qinfo pm).2.dataFile qinfo.dirpath =
          pm.dataFile qinfo.dirpath ++ frameBytes object.frame := by
        simp [persistOne, PersistentManager.dataFile, files_setFiles]
      change (persistOne object qinfo pm).2.dataFile qinfo.dirpath ++ _ = _
      rw [written, List.append_assoc]
      rfl

theorem flushedByPass {s : Delivery} {qinfo : QueueInfo}
    (noticed : qinfo.indexPersistent < qinfo.indexHead) : FlushedByPass s qinfo := by
  have flushed := persistQueueContext_flushes qinfo.unpersistent qinfo (persistQueueInfo qinfo s.pm)
    rfl
  rw [FlushedByPass, persistentWorkerPass]
  simp only [if_pos noticed]
  refine ⟨flushed.1, flushed.2.trans ?_⟩
  rw [dataFile_persistQueueInfo]

/-! ### An iteration among the steps of the other threads -/

/-- The object at a place since a state in which it was `first`: the frames written from it, those
linked in it, and all that has been written. -/
structure Followed (start : Delivery) (first : QueueInfo) (place : Nat) (s : Delivery)
    (qinfo : QueueInfo) (flushed linked : List FrameObject) : Prop where
  here : s.pm.qinfos[place]? = some qinfo
  qid : qinfo.qid = first.qid
  order : first.unpersistent ++ linked = flushed ++ qinfo.unpersistent
  written : ∃ new, s.written = start.written ++ new ∧
    (flushed.map fun object => (first.qid, object)).Sublist new
  last : ∀ qname object, s.handler = .linked qname object place → linked.getLast? = some object

theorem Followed.start {s : Delivery} {first : QueueInfo} {place : Nat}
    (here : s.pm.qinfos[place]? = some first) (apart : ¬ s.handler.Between place) :
    Followed s first place s first [] [] where
  here := here
  qid := rfl
  order := by simp
  written := ⟨[], by simp, List.Sublist.refl _⟩
  last qname object point := absurd ⟨qname, object, point⟩ apart

theorem Followed.step {start : Delivery} {first : QueueInfo} {place : Nat} {s next : Delivery}
    {qinfo : QueueInfo} {flushed linked : List FrameObject}
    (followed : Followed start first place s qinfo flushed linked)
    {destination : Nat → List UInt8} {action : DeliveryAction}
    (step : DeliveryStep destination s action next) :
    ∃ after more links, Followed start first place next after (flushed ++ more) links := by
  obtain ⟨after, there, qid, move⟩ := deliveryStep_place step followed.here
  obtain ⟨new, record, among⟩ := followed.written
  have same : after.qid = first.qid := qid.trans followed.qid
  cases move with
  | quiet pending head persistent point written =>
      obtain ⟨more, written⟩ := written
      refine ⟨after, [], linked, there, same, ?_, ⟨new ++ more, ?_, ?_⟩, ?_⟩
      · rw [List.append_nil, pending, followed.order]
      · rw [← written, record, List.append_assoc]
      · rw [List.append_nil]
        exact among.trans (List.sublist_append_left _ _)
      · exact fun qname object linked => followed.last qname object ((point qname object).mp linked)
  | @link qname object before point pending head persistent written =>
      refine ⟨after, [], linked ++ [object], there, same, ?_, ⟨new, ?_, ?_⟩, ?_⟩
      · rw [List.append_nil, pending, ← List.append_assoc, followed.order, List.append_assoc]
      · rw [written, record]
      · rwa [List.append_nil]
      · intro other found linked
        rw [point] at linked
        cases linked
        exact List.getLast?_concat
  | grow before point pending head persistent written =>
      refine ⟨after, [], linked, there, same, ?_, ⟨new, ?_, ?_⟩, ?_⟩
      · rw [List.append_nil, pending, followed.order]
      · rw [written, record]
      · rwa [List.append_nil]
      · exact fun qname object linked => absurd ⟨qname, object, linked⟩ point
  | @write object point pending head persistent written =>
      refine ⟨after, [object], linked, there, same, ?_, ⟨new ++ [(qinfo.qid, object)], ?_, ?_⟩, ?_⟩
      · rw [followed.order, pending, List.append_assoc, List.singleton_append]
      · rw [written, record, List.append_assoc]
      · rw [List.map_append, List.map_singleton, followed.qid]
        exact among.append (List.Sublist.refl _)
      · intro qname found linked
        rw [point] at linked
        exact followed.last qname found linked

/-- When the counters do not show a frame, those of the start have been written. -/
theorem Followed.settled {start : Delivery} {first : QueueInfo} {place : Nat} {s : Delivery}
    {qinfo : QueueInfo} {flushed linked : List FrameObject}
    (followed : Followed start first place s qinfo flushed linked) (inv : FlushInv s)
    (even : ¬ qinfo.indexPersistent < qinfo.indexHead) : first.unpersistent <+: flushed := by
  have none : qinfo.unpersistent = [] → first.unpersistent <+: flushed := by
    intro empty
    rw [← List.append_nil flushed, ← empty, ← followed.order]
    exact List.prefix_append _ _
  have positive := inv.pending place qinfo followed.here
  have agree := inv.agree place qinfo followed.here
  by_cases waits : qinfo.unpersistent = []
  · exact none waits
  by_cases between : s.handler.Between place
  · obtain ⟨qname, object, point⟩ := between
    -- Only the frame between its two steps can wait, and it came after the others.
    obtain ⟨before, links⟩ := List.getLast?_eq_some_iff.mp (followed.last qname object point)
    obtain ⟨others, last, pending⟩ := (List.eq_nil_or_concat qinfo.unpersistent).resolve_left waits
    rw [List.concat_eq_append] at pending
    have order := followed.order
    rw [links, pending, ← List.append_assoc, ← List.append_assoc] at order
    obtain ⟨earlier, same⟩ := List.append_inj' order rfl
    obtain rfl := List.singleton_injective same
    rw [pending, point, growing_linked, totalSize_append, totalSize_singleton] at agree
    have alone : others = [] := by
      by_contra some
      have more := totalSize_pos some fun other mem =>
        positive other (by rw [pending]; exact List.mem_append_left _ mem)
      omega
    rw [alone, List.append_nil] at earlier
    exact ⟨before, earlier⟩
  · exact absurd (inv.noticed followed.here waits between) even

/-- The flusher is on its way to the object at a place, or at it. -/
def FlusherPoint.UpTo (place : Nat) : FlusherPoint → Prop
  | .outside => False
  | .store at' => at' ≤ place
  | .compare at' => at' ≤ place
  | .flush at' => at' ≤ place

theorem FlusherPoint.next_upTo {place other : Nat} {pm : PersistentManager} (before : other ≤ place)
    (inside : place < pm.qinfos.length) :
    (FlusherPoint.next other pm).UpTo place ∨ other = place := by
  rw [FlusherPoint.next]
  by_cases same : other = place
  · exact Or.inr same
  · have more : other + 1 < pm.qinfos.length := by omega
    rw [if_pos more]
    exact Or.inl (show other + 1 ≤ place by omega)

/-- The flusher leaves the object at a place when nothing waits there or its counters do not show it. -/
theorem upTo_step {destination : Nat → List UInt8} {s next : Delivery} {action : DeliveryAction}
    (taken : deliveryStep destination s action = some next) {place : Nat} {qinfo : QueueInfo}
    (here : s.pm.qinfos[place]? = some qinfo) (upTo : s.flusher.UpTo place) :
    next.flusher.UpTo place ∨ qinfo.unpersistent = [] ∨
      ¬ qinfo.indexPersistent < qinfo.indexHead := by
  have inside := (List.getElem?_eq_some_iff.mp here).1
  cases action with
  | enter =>
      simp only [deliveryStep] at taken
      split at taken
      next point =>
        rw [point] at upTo
        exact upTo.elim
      · cases taken
  | storeIndex =>
      simp only [deliveryStep] at taken
      split at taken
      next other point =>
        obtain ⟨found, there, rfl⟩ := Option.map_eq_some_iff.mp taken
        rw [point] at upTo
        exact Or.inl upTo
      · cases taken
  | compare =>
      simp only [deliveryStep] at taken
      split at taken
      next other point =>
        obtain ⟨found, there, rfl⟩ := Option.map_eq_some_iff.mp taken
        rw [point] at upTo
        simp only
        split
        next shown => exact Or.inl upTo
        next even =>
          rcases FlusherPoint.next_upTo upTo inside with on | rfl
          · exact Or.inl on
          · obtain rfl : found = qinfo := by
              rw [there] at here
              exact Option.some.inj here
            exact Or.inr (Or.inr even)
      · cases taken
  | write =>
      simp only [deliveryStep] at taken
      split at taken
      next other point =>
        obtain ⟨found, there, rfl⟩ := Option.map_eq_some_iff.mp taken
        rw [point] at upTo
        split
        next empty =>
          rcases FlusherPoint.next_upTo upTo inside with on | rfl
          · exact Or.inl on
          · obtain rfl : found = qinfo := by
              rw [there] at here
              exact Option.some.inj here
            exact Or.inr (Or.inl empty)
        next object rest pending =>
          exact Or.inl (by rw [← point] at upTo; exact upTo)
      · cases taken
  | _ =>
      have step := deliveryStep_cases taken
      cases step <;> exact Or.inl upTo

/-- A run of the threads, with the object at a place in view: since the start, and since the flusher has
set out for it, when the frames of the start are written once it has passed. -/
structure Watched (start : Delivery) (first : QueueInfo) (place : Nat) (setOut : Prop)
    (s : Delivery) : Prop where
  inv : FlushInv s
  followed : ∃ qinfo flushed linked, Followed start first place s qinfo flushed linked ∧
    (setOut → s.flusher.UpTo place ∨ first.unpersistent <+: flushed)

theorem Watched.step {start : Delivery} {first : QueueInfo} {place : Nat} {setOut : Prop}
    {s next : Delivery} (watched : Watched start first place setOut s)
    {destination : Nat → List UInt8} {action : DeliveryAction} (positive : PositiveSizes action)
    (taken : deliveryStep destination s action = some next) :
    Watched start first place setOut next := by
  obtain ⟨qinfo, flushed, linked, followed, phase⟩ := watched.followed
  obtain ⟨after, more, links, later⟩ := followed.step (deliveryStep_cases taken)
  refine ⟨flushInv_step watched.inv positive taken, after, flushed ++ more, links, later, ?_⟩
  have kept : first.unpersistent <+: flushed → first.unpersistent <+: flushed ++ more :=
    fun written => written.trans (List.prefix_append _ _)
  intro out
  rcases phase out with upTo | written
  · rcases upTo_step taken followed.here upTo with on | empty | even
    · exact Or.inl on
    · refine Or.inr (kept ?_)
      rw [← List.append_nil flushed, ← empty, ← followed.order]
      exact List.prefix_append _ _
    · exact Or.inr (kept (followed.settled watched.inv even))
  · exact Or.inr (kept written)

theorem Watched.run {start : Delivery} {first : QueueInfo} {place : Nat} {setOut : Prop}
    {s last : Delivery} (watched : Watched start first place setOut s)
    {destination : Nat → List UInt8} {actions : List DeliveryAction}
    (taken : Transition.run (guarded (deliveryStep destination) fun _ => PositiveSizes) s actions =
      some last) : Watched start first place setOut last :=
  (Transition.reaches_of_guarded_run taken).invariant
    (fun _ _ _ inv positive step => inv.step positive step) watched

theorem flushedByNextIteration {destination : Nat → List UInt8} {s : Delivery} (inv : FlushInv s)
    {place : Nat} {qinfo : QueueInfo} (here : s.pm.qinfos[place]? = some qinfo)
    (apart : ¬ s.handler.Between place) : FlushedByNextIteration destination s qinfo := by
  intro before during last taken outside
  obtain ⟨middle, first, rest⟩ := Transition.run_append.mp taken
  have followed : Watched s qinfo place False s :=
    ⟨inv, qinfo, [], [], .start here apart, False.elim⟩
  obtain ⟨there, found, flushed, links, since, _⟩ := followed.run first
  obtain ⟨entered, entry, iteration⟩ := Option.bind_eq_some_iff.mp rest
  obtain ⟨positive, enter⟩ := Option.ite_none_right_eq_some.mp entry
  obtain ⟨after, more, later, now⟩ := since.step (deliveryStep_cases enter)
  have setOut : entered.flusher = .store 0 := by
    have step := deliveryStep_cases enter
    cases step
    rfl
  have begins : Watched s qinfo place True entered :=
    ⟨flushInv_step there positive enter, after, flushed ++ more, later, now,
      fun _ => Or.inl (by rw [setOut]; exact Nat.zero_le place)⟩
  obtain ⟨_, final, written, newer, ends, passed⟩ := begins.run iteration
  obtain ⟨new, record, among⟩ := ends.written
  refine ⟨new, record, List.Sublist.trans ?_ among⟩
  rcases passed trivial with upTo | all
  · rw [outside] at upTo
    exact upTo.elim
  · exact all.sublist.map _

/-- In every run of the threads, with a restart at any point of it, the counters of each object and the
frame between the two steps of `persist_frame` give the size of the frames that wait, and frames that
wait are noticed by the next iteration of the worker. -/
theorem pending_noticed (destination : Nat → List UInt8) (datadir : List UInt8)
    (actions : List LifeAction) :
    HoldsAlong (guarded (lifeStep destination) fun _ => LifeAction.Positive)
      (PendingNoticed destination) (Delivery.init datadir) actions := by
  have start : FlushInv (Delivery.init datadir) :=
    ⟨fun _ _ here => (by cases here), fun _ _ here => (by cases here), fun _ mem => (by cases mem)⟩
  apply HoldsAlong.imp ?noticed (Transition.holdsAlong_of_invariant ?keeps start actions)
  case keeps =>
    intro s action next inv taken
    obtain ⟨positive, step⟩ := Option.ite_none_right_eq_some.mp taken
    exact flushInv_life inv positive step
  case noticed =>
    intro s inv
    refine ⟨inv.agree, fun place qinfo here waits apart => ?_⟩
    have noticed := inv.noticed here waits apart
    exact ⟨noticed, flushedByPass noticed, flushedByNextIteration inv here apart⟩

end Newtmq
