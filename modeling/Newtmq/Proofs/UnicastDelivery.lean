/-
Module: Newtmq.Proofs.UnicastDelivery
Purpose: Where the frames of a queue are, over all runs of the delivering threads: in the queue, in the
  hands of a worker, or delivered. When the sockets accept all bytes, what is delivered is delivered in
  full.
Trusted boundary: none
Main exports: UnicastInv, unicastInv_step, delivered_or_kept
-/
import Newtmq.Spec.UnicastDelivery
import Newtmq.Proofs.SentIndexOrder

namespace Newtmq

open KeyedList (Lists lists_nil)
open Transition (Reaches)

/-- The frame that a worker sends. -/
def WorkerPoint.sending : WorkerPoint → Option FrameObject
  | .dequeued object => some object
  | _ => none

/-- The frame that a worker is about to count. -/
def WorkerPoint.counting : WorkerPoint → Option FrameObject
  | .sent object => some object
  | _ => none

variable {destination : Nat → List UInt8} {sock : Nat → Int}

/-- A frame in the hands of a worker, with the hash number of its queue. -/
def inHand (destination : Nat → List UInt8) (hand : Nat × FrameObject) : UInt64 × FrameObject :=
  (getHash (destination hand.1), hand.2)

def Transfer.entry (destination : Nat → List UInt8) (transfer : Transfer) : UInt64 × FrameObject :=
  inHand destination (transfer.worker, transfer.object)

/-- Everything that is enqueued is dequeued in order; what is dequeued is being sent or was transferred;
what was transferred is being counted, was counted, or is `lost` to the counting; and what is sent of a
frame and what is left of it are its bytes. -/
structure UnicastInv (destination : Nat → List UInt8) (sock : Nat → Int) (start : Delivery)
    (s : Unicast) : Prop where
  line : LineInv start s.base
  dirs : DirInv start.pm s.base.pm
  index : CountedIndex destination start s.base
  fifo : ∀ hashnum, contents hashnum start.queues ++ ofHash hashnum s.enqueued =
    ofHash hashnum s.base.taken ++ contents hashnum s.base.queues
  sending : ∃ hands, Lists (fun worker => (s.base.workers worker).sending) hands ∧
    s.base.taken.Perm (s.transfers.map (Transfer.entry destination) ++
      hands.map (inHand destination))
  counting : ∃ hands lost, Lists (fun worker => (s.base.workers worker).counting) hands ∧
    (s.transfers.map (Transfer.entry destination)).Perm
      (s.base.counted ++ hands.map (inHand destination) ++ lost)
  progress : ∀ worker object, s.base.workers worker = .dequeued object →
    s.accepted worker ++ wireBytes (s.calls worker) = messageBytes sock worker object
  full : ∀ transfer ∈ s.transfers,
    transfer.accepted = messageBytes sock transfer.worker transfer.object

theorem unicastInv_start {base : Delivery} (rested : base.Rested) :
    UnicastInv destination sock base (Unicast.start base) where
  line := lineInv_start rested
  dirs := dirInv_start rested
  index := countedIndex_start destination rested
  fifo hashnum := by
    simp [Unicast.start, rested.records.1]
  sending := by
    refine ⟨[], lists_nil fun worker => ?_, ?_⟩
    · simp [Unicast.start, rested.workers worker, WorkerPoint.sending]
    · simp [Unicast.start, rested.records.1]
  counting := by
    refine ⟨[], [], lists_nil fun worker => ?_, ?_⟩
    · simp [Unicast.start, rested.workers worker, WorkerPoint.counting]
    · simp [Unicast.start, rested.records.2.2.1]
  progress worker object point := by
    cases (rested.workers worker).symm.trans point
  full _ mem := absurd mem List.not_mem_nil

/-! ### Calls of `send_msg` -/

/-- A call whose bytes are all accepted. -/
theorem UnicastInv.call {start : Delivery} {s next : Unicast}
    (inv : UnicastInv destination sock start s) {worker : Nat} {outcome : Option Nat}
    (accepts : AcceptsAll s (.call worker outcome))
    (taken : unicastStep destination sock s (.call worker outcome) = some next) :
    UnicastInv destination sock start next := by
  simp only [unicastStep] at taken
  split at taken
  · next object call rest point calls =>
      cases taken
      refine ⟨inv.line, inv.dirs, inv.index, inv.fifo, inv.sending, inv.counting, ?_, inv.full⟩
      intro other sent here
      by_cases same : other = worker
      · subst same
        have whole := inv.progress other sent here
        have all : call.msg.take (outcome.getD 0) = call.msg := accepts call (by rw [calls]; rfl)
        rw [calls] at whole
        simp only [Function.update_self]
        rw [all, ← whole, List.append_assoc]
        rfl
      · simp only [Function.update_of_ne same]
        exact inv.progress other sent here
  · cases taken

/-! ### The hands of the workers -/

theorem transferBy_silent {s : Unicast} {action : DeliveryAction}
    (silent : ∀ worker, action ≠ .send worker) : s.transferBy action = [] := by
  cases action with
  | send worker => exact absurd rfl (silent worker)
  | _ => rfl

/-- What is dequeued is being sent or was transferred. -/
theorem sending_step {s : Unicast} {base : Delivery} {action : DeliveryAction}
    (step : DeliveryStep destination s.base action base) {hands : List (Nat × FrameObject)}
    (lists : Lists (fun worker => (s.base.workers worker).sending) hands)
    (perm : s.base.taken.Perm (s.transfers.map (Transfer.entry destination) ++
      hands.map (inHand destination))) :
    ∃ hands', Lists (fun worker => (base.workers worker).sending) hands' ∧
      base.taken.Perm ((s.transfers ++ s.transferBy action).map (Transfer.entry destination) ++
        hands'.map (inHand destination)) := by
  cases deliveryStep_move step with
  | other silent workers taken counted =>
      rw [transferBy_silent silent, workers, taken, List.append_nil]
      exact ⟨hands, lists, perm⟩
  | @dequeue worker object point workers taken counted =>
      rw [workers, taken]
      refine ⟨(worker, object) :: hands, ?_, ?_⟩
      · refine lists.insert (by rw [point]; rfl) ?_ fun other apart => ?_
        · rw [Function.update_self]
          rfl
        · rw [Function.update_of_ne apart]
      · simp only [Unicast.transferBy, List.append_nil, List.map_cons]
        exact (perm.append_right _).trans
          (by rw [List.append_assoc]; exact (List.perm_append_singleton _ _).append_left _)
  | @send worker object point workers taken counted =>
      rw [workers, taken]
      have here : (s.base.workers worker).sending = some object := by rw [point]; rfl
      obtain ⟨rest, erased, lists'⟩ := lists.erase
        (g := fun other => (Function.update s.base.workers worker (.sent object) other).sending) here
        (by rw [Function.update_self]; rfl)
        (fun other apart => by rw [Function.update_of_ne apart])
      refine ⟨rest, lists', ?_⟩
      simp only [Unicast.transferBy, point, List.map_append, List.map_singleton, List.append_assoc]
      exact perm.trans ((erased.map (inHand destination)).append_left _)
  | @count worker object point workers taken counted =>
      have none : s.transferBy (.count worker) = [] := rfl
      rw [workers, taken, none, List.append_nil]
      refine ⟨hands, lists.congr fun other => ?_, perm⟩
      by_cases same : other = worker
      · rw [same, Function.update_self, point]
        rfl
      · rw [Function.update_of_ne same]

/-- What was transferred is being counted, was counted, or is not counted at all. -/
theorem counting_step {s : Unicast} {base : Delivery} {action : DeliveryAction}
    (step : DeliveryStep destination s.base action base) {hands : List (Nat × FrameObject)}
    {lost : List (UInt64 × FrameObject)}
    (lists : Lists (fun worker => (s.base.workers worker).counting) hands)
    (perm : (s.transfers.map (Transfer.entry destination)).Perm
      (s.base.counted ++ hands.map (inHand destination) ++ lost)) :
    ∃ hands' lost', Lists (fun worker => (base.workers worker).counting) hands' ∧
      ((s.transfers ++ s.transferBy action).map (Transfer.entry destination)).Perm
        (base.counted ++ hands'.map (inHand destination) ++ lost') := by
  cases deliveryStep_move step with
  | other silent workers taken counted =>
      rw [transferBy_silent silent, workers, counted, List.append_nil]
      exact ⟨hands, lost, lists, perm⟩
  | @dequeue worker object point workers taken counted =>
      have none : s.transferBy (.dequeue worker) = [] := rfl
      rw [workers, counted, none, List.append_nil]
      refine ⟨hands, lost, lists.congr fun other => ?_, perm⟩
      by_cases same : other = worker
      · rw [same, Function.update_self, point]
        rfl
      · rw [Function.update_of_ne same]
  | @send worker object point workers taken counted =>
      rw [workers, counted]
      refine ⟨(worker, object) :: hands, lost, ?_, ?_⟩
      · refine lists.insert (by rw [point]; rfl) ?_ fun other apart => ?_
        · rw [Function.update_self]
          rfl
        · rw [Function.update_of_ne apart]
      · simp only [Unicast.transferBy, point, List.map_append, List.map_cons]
        refine (perm.append_right _).trans ((List.perm_append_singleton _ _).trans ?_)
        rw [List.append_assoc, List.append_assoc]
        exact List.perm_middle.symm
  | @count worker object point workers taken counted =>
      have none : s.transferBy (.count worker) = [] := rfl
      rw [workers, none, List.append_nil]
      have here : (s.base.workers worker).counting = some object := by rw [point]; rfl
      obtain ⟨rest, erased, lists'⟩ := lists.erase
        (g := fun other => (Function.update s.base.workers worker .idle other).counting) here
        (by rw [Function.update_self]; rfl)
        (fun other apart => by rw [Function.update_of_ne apart])
      have moved := (erased.map (inHand destination)).append_right lost
      rw [List.append_assoc] at perm
      rcases counted with counted | counted
      · refine ⟨rest, lost, lists', ?_⟩
        rw [counted, List.append_assoc, List.append_assoc]
        exact perm.trans (moved.append_left _)
      · -- the frame has no `queue_info`, so that it is never counted
        refine ⟨rest, inHand destination (worker, object) :: lost, lists', ?_⟩
        rw [counted, List.append_assoc]
        exact perm.trans (List.Perm.append_left _ (moved.trans List.perm_middle.symm))

/-- A worker that dequeues a frame has accepted none of its bytes and has all calls to make. -/
theorem progress_step {s : Unicast} {base : Delivery} {action : DeliveryAction}
    (step : DeliveryStep destination s.base action base)
    (progress : ∀ worker object, s.base.workers worker = .dequeued object →
      s.accepted worker ++ wireBytes (s.calls worker) = messageBytes sock worker object)
    (worker : Nat) (object : FrameObject) (point : base.workers worker = .dequeued object) :
    acceptedAfter s.accepted action worker ++ wireBytes (callsAfter sock base s.calls action worker) =
      messageBytes sock worker object := by
  by_cases begins : action = .dequeue worker
  · subst begins
    simp only [acceptedAfter, callsAfter, point, Function.update_self]
    rfl
  · have before : s.base.workers worker = .dequeued object := by
      rcases (deliveryStep_workers step worker).2.1 object point with old | ⟨now, -⟩
      · exact old
      · exact absurd now begins
    have calls : callsAfter sock base s.calls action worker = s.calls worker := by
      cases action with
      | dequeue other =>
          have apart : worker ≠ other := fun same => begins (congrArg _ same.symm)
          cases found : base.workers other with
          | dequeued object =>
              simp only [callsAfter, found]
              exact Function.update_of_ne apart _ _
          | _ => simp only [callsAfter, found]
      | _ => rfl
    have accepted : acceptedAfter s.accepted action worker = s.accepted worker := by
      cases action with
      | dequeue other =>
          have apart : worker ≠ other := fun same => begins (congrArg _ same.symm)
          exact Function.update_of_ne apart _ _
      | _ => rfl
    rw [calls, accepted]
    exact progress worker object before

/-- `stomp_send_message` returns with nothing left to send. -/
theorem full_step {s : Unicast} {action : DeliveryAction} (returns : s.MayReturn action)
    (progress : ∀ worker object, s.base.workers worker = .dequeued object →
      s.accepted worker ++ wireBytes (s.calls worker) = messageBytes sock worker object)
    {transfer : Transfer} (mem : transfer ∈ s.transferBy action) :
    transfer.accepted = messageBytes sock transfer.worker transfer.object := by
  cases action with
  | send worker =>
      simp only [Unicast.transferBy] at mem
      split at mem
      · next object point =>
          obtain rfl := List.mem_singleton.mp mem
          have none : s.calls worker = [] := returns
          have all := progress worker object point
          rw [none] at all
          exact (List.append_nil _).symm.trans all
      · cases mem
  | _ => cases mem

/-! ### Runs -/

theorem unicastInv_step {start : Delivery} {s next : Unicast} {action : UnicastAction}
    (inv : UnicastInv destination sock start s) (accepts : AcceptsAll s action)
    (taken : unicastStep destination sock s action = some next) :
    UnicastInv destination sock start next := by
  cases action with
  | call worker outcome => exact inv.call accepts taken
  | base action =>
      obtain ⟨returns, moved⟩ := Option.ite_none_right_eq_some.mp taken
      obtain ⟨base, did, same⟩ := Option.map_eq_some_iff.mp moved
      cases same
      have step := deliveryStep_cases did
      obtain ⟨hands, lists, perm⟩ := inv.sending
      obtain ⟨counting, lost, listsCounting, permCounting⟩ := inv.counting
      refine
        { line := lineInv_step inv.line did
          dirs := dirInv_step inv.dirs did
          index := countedIndex_step inv.line inv.dirs inv.index did
          fifo := fun hashnum => fifo_step inv.line.queues (deliveryStep_cases did) (inv.fifo hashnum)
          sending := sending_step step lists perm
          counting := counting_step step listsCounting permCounting
          progress := progress_step step inv.progress
          full := ?_ }
      intro transfer mem
      rcases List.mem_append.mp mem with old | new
      · exact inv.full transfer old
      · exact full_step returns inv.progress new

/-- No frame is in the hands of the workers of a queue when these are idle. -/
theorem ofHash_hands {base : Delivery} {f : WorkerPoint → Option FrameObject} (idle : f .idle = none)
    {hands : List (Nat × FrameObject)} (lists : Lists (fun worker => f (base.workers worker)) hands)
    {hashnum : UInt64}
    (rest : ∀ worker, getHash (destination worker) = hashnum → base.workers worker = .idle) :
    ofHash hashnum (hands.map (inHand destination)) = [] := by
  rw [List.eq_nil_iff_forall_not_mem]
  intro object mem
  obtain ⟨⟨worker, held⟩, memHands, same⟩ := List.mem_map.mp (mem_ofHash mem)
  have here := (lists.mem worker held).mp memHands
  simp only [rest worker (congrArg Prod.fst same), idle] at here
  cases here

theorem ofHash_perm {first second : List (UInt64 × FrameObject)} (perm : first.Perm second)
    (hashnum : UInt64) : (ofHash hashnum first).Perm (ofHash hashnum second) :=
  (perm.filter _).map _

/-- When all transfers are in full, what was delivered is what was transferred. -/
theorem UnicastInv.deliveredInFull {start : Delivery} {s : Unicast}
    (inv : UnicastInv destination sock start s) (hashnum : UInt64) :
    s.deliveredInFull destination sock hashnum =
      ofHash hashnum (s.transfers.map (Transfer.entry destination)) := by
  rw [Unicast.deliveredInFull, ofHash, List.filter_map, List.map_map]
  have same : s.transfers.filter (fun transfer => getHash (destination transfer.worker) = hashnum ∧
      transfer.accepted = messageBytes sock transfer.worker transfer.object) =
      s.transfers.filter ((fun entry => decide (entry.1 = hashnum)) ∘ Transfer.entry destination) := by
    apply List.filter_congr
    intro transfer mem
    apply decide_eq_decide.mpr
    rw [and_iff_left (inv.full transfer mem)]
    rfl
  rw [same]
  rfl

/-- While the sockets accept all bytes, each frame is delivered in full or kept. -/
theorem delivered_or_kept {base : Delivery} (rested : base.Rested) {s : Unicast}
    (reached : Reaches (unicastStep destination sock) AcceptsAll (Unicast.start base) s) :
    DeliveredOrKept destination sock base s := by
  have inv : UnicastInv destination sock base s :=
    reached.invariant (fun _ _ _ inv accepts taken => unicastInv_step inv accepts taken)
      (unicastInv_start rested)
  intro hashnum idle
  obtain ⟨hands, lists, sending⟩ := inv.sending
  obtain ⟨counting, lost, listsCounting, counts⟩ := inv.counting
  have transferred := ofHash_perm sending hashnum
  have counted := ofHash_perm counts hashnum
  rw [ofHash_append, ofHash_hands rfl lists idle, List.append_nil] at transferred
  rw [ofHash_append, ofHash_append, ofHash_hands rfl listsCounting idle, List.append_nil] at counted
  rw [inv.deliveredInFull]
  constructor
  · rw [inv.fifo]
    exact (transferred.append_right _).trans List.perm_append_comm
  · refine ⟨ofHash hashnum s.base.counted, ?_, ?_⟩
    · exact (List.sublist_append_left _ _).subperm.trans counted.symm.subperm
    · rintro qinfo mem rfl
      exact inv.index.index qinfo mem

/-- One subscriber of the queue `q`. -/
def oneSubscriber : Nat → List UInt8
  | 0 => cstring "q"
  | _ + 1 => []

/-- The steps that persist and enqueue a frame and have a worker dequeue it. -/
def takeLetter : List UnicastAction :=
  [.base (.accept (cstring "q") letterA), .base .create, .base .link, .base .grow, .base .enqueue,
    .base (.dequeue 0)]

/-- The calls of `send_msg` for this frame after the first one, which the socket accepts, and the steps
of the worker after them. -/
def sendRest : List UnicastAction :=
  List.replicate 10 (.call 0 (some 100)) ++ [.base (.send 0), .base (.count 0)]

theorem delivered_or_kept_letter :
    ∃ s, Transition.run (Transition.guarded (unicastStep oneSubscriber fun _ => 4) AcceptsAll)
        (Unicast.start (Delivery.init (cstring "data")))
        (takeLetter ++ .call 0 (some 100) :: sendRest) = some s ∧
      s.transfers.map Transfer.object = [letterA] ∧
      DeliveredOrKept oneSubscriber (fun _ => 4) (Delivery.init (cstring "data")) s := by
  have taken : ∃ s, Transition.run
        (Transition.guarded (unicastStep oneSubscriber fun _ => 4) AcceptsAll)
        (Unicast.start (Delivery.init (cstring "data")))
        (takeLetter ++ .call 0 (some 100) :: sendRest) = some s ∧
      s.transfers.map Transfer.object = [letterA] := by
    apply Option.map_eq_some_iff.mp
    decide +kernel
  obtain ⟨s, taken, sent⟩ := taken
  exact ⟨s, taken, sent,
    delivered_or_kept (init_rested _) (Transition.reaches_of_guarded_run taken)⟩

/-- A frame whose first call of `send_msg` fails is neither delivered nor kept. -/
theorem frame_lost_when_send_fails :
    ¬ ∀ s, Reaches (unicastStep oneSubscriber fun _ => 4) Transition.Always
      (Unicast.start (Delivery.init (cstring "data"))) s →
        DeliveredOrKept oneSubscriber (fun _ => 4) (Delivery.init (cstring "data")) s := by
  intro always
  have taken : ∃ s, Transition.run (unicastStep oneSubscriber fun _ => 4)
        (Unicast.start (Delivery.init (cstring "data")))
        (takeLetter ++ .call 0 none :: sendRest) = some s ∧
      (s.base.workers 0, ofHash (getHash (cstring "q")) s.enqueued,
        contents (getHash (cstring "q")) s.base.queues,
        s.deliveredInFull oneSubscriber (fun _ => 4) (getHash (cstring "q"))) =
          (.idle, [letterA], [], []) := by
    apply Option.map_eq_some_iff.mp
    decide +kernel
  obtain ⟨s, taken, found⟩ := taken
  simp only [Prod.mk.injEq] at found
  obtain ⟨idle, enqueued, kept, delivered⟩ := found
  have workers : ∀ worker, getHash (oneSubscriber worker) = getHash (cstring "q") →
      s.base.workers worker = .idle := by
    intro worker same
    cases worker with
    | zero => exact idle
    | succ worker =>
        have apart : getHash [] ≠ getHash (cstring "q") := by decide +kernel
        exact absurd same apart
  have perm := (always s (Transition.reaches_of_run taken) (getHash (cstring "q")) workers).1
  rw [contents_init, enqueued, kept, delivered] at perm
  exact absurd perm.length_eq (by decide)

end Newtmq
