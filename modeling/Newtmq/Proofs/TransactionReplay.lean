/-
Module: Newtmq.Proofs.TransactionReplay
Purpose: The calls of callbacks that `transaction_commit` makes. They go from the head of the list up to
  the first failure, which is not reported; and the head is the frame that was added last.
Trusted boundary: none
Main exports: callbackRun, commit_logging, reports_failure_iff, AddedInv, replays_in_order_iff
-/
import Mathlib.Data.List.InsertIdx
import Newtmq.Library.KeyedList
import Newtmq.Library.Transition
import Newtmq.Spec.TransactionCalls

namespace Newtmq

open KeyedList (map_modify_eq)

variable {σ : Type} {malloc : Nat → List UInt8} {callbacks : Nat → FrameObject → σ → Ret × σ}

/-! ### The calls of a commit -/

/-- The callbacks of the frames, called one after the other up to the first failure. -/
def callbackRun (callbacks : Nat → FrameObject → σ → Ret × σ) :
    List FrameObject → σ → CallbackLog × σ
  | [], world => ([], world)
  | object :: rest, world =>
      match object.frame.transactionCallback with
      | none => ([], world)
      | some callback =>
          match callbacks callback object world with
          | (.error, world) => ([(object, .error)], world)
          | (.success, world) =>
              ((object, .success) :: (callbackRun callbacks rest world).1,
                (callbackRun callbacks rest world).2)

theorem callbackRun_error {object : FrameObject} {rest : List FrameObject} {callback : Nat}
    {world after : σ} (called : object.frame.transactionCallback = some callback)
    (failed : callbacks callback object world = (.error, after)) :
    callbackRun callbacks (object :: rest) world = ([(object, .error)], after) := by
  simp only [callbackRun, called, failed]

theorem callbackRun_success {object : FrameObject} {rest : List FrameObject} {callback : Nat}
    {world after : σ} (called : object.frame.transactionCallback = some callback)
    (succeeded : callbacks callback object world = (.success, after)) :
    callbackRun callbacks (object :: rest) world =
      ((object, .success) :: (callbackRun callbacks rest after).1,
        (callbackRun callbacks rest after).2) := by
  simp only [callbackRun, called, succeeded]

theorem HaveCallbacks.uncons {object : FrameObject} {rest : List FrameObject}
    (callable : HaveCallbacks (object :: rest)) :
    (∃ callback, object.frame.transactionCallback = some callback) ∧ HaveCallbacks rest := by
  obtain ⟨first, others⟩ := List.forall_mem_cons.mp callable
  exact ⟨Option.isSome_iff_exists.mp first, others⟩

/-- The loop of a commit makes these calls. -/
theorem run_logging {frames : List FrameObject} (callable : HaveCallbacks frames) (log : CallbackLog)
    (world : σ) :
    Loop.run (commitPass (logging callbacks)) (frames.length + 1) (frames, log, world) =
      some (log ++ (callbackRun callbacks frames world).1, (callbackRun callbacks frames world).2) := by
  induction frames generalizing log world with
  | nil => simp [Loop.run, commitPass, callbackRun]
  | cons object rest ih =>
      obtain ⟨⟨callback, called⟩, others⟩ := callable.uncons
      rcases result : callbacks callback object world with ⟨ret, after⟩
      cases ret with
      | error =>
          have pass : commitPass (logging callbacks) (object :: rest, log, world) =
              .leave (log ++ [(object, .error)], after) := by
            simp only [commitPass, called, logging, result]
          rw [Loop.run_succ_leave pass, callbackRun_error called result]
      | success =>
          have pass : commitPass (logging callbacks) (object :: rest, log, world) =
              .again (rest, log ++ [(object, .success)], after) := by
            simp only [commitPass, called, logging, result]
          rw [List.length_cons, Loop.run_succ_again pass, ih others,
            callbackRun_success called result, List.append_assoc]
          rfl

/-- A commit returns `RET_SUCCESS` after these calls, whatever they returned. -/
theorem commit_logging {tid : List UInt8} {manager : TransactionManager} {place : Nat} (world : σ)
    (found : getTransaction tid manager = some place) (callable : HaveCallbacks (manager.framesAt place)) :
    transactionCommit (logging callbacks) tid manager ([], world) =
      some (.success, freeTransaction place manager,
        callbackRun callbacks (manager.framesAt place) world) := by
  simp only [transactionCommit, found, run_logging callable, List.nil_append, Option.map_some]

/-- No callback is called after the one that fails. -/
theorem callbackRun_stops {frames : List FrameObject} {world : σ} {earlier further : CallbackLog}
    {call : FrameObject × Ret}
    (log : (callbackRun callbacks frames world).1 = earlier ++ call :: further)
    (failed : call.2 = .error) : further = [] := by
  induction frames generalizing world earlier with
  | nil => simp [callbackRun] at log
  | cons object rest ih =>
      cases called : object.frame.transactionCallback with
      | none => simp [callbackRun, called] at log
      | some callback =>
          rcases result : callbacks callback object world with ⟨ret, after⟩
          cases ret with
          | error =>
              rw [callbackRun_error called result] at log
              cases earlier with
              | nil => exact (List.cons.inj log).2.symm
              | cons first earlier => simp at log
          | success =>
              rw [callbackRun_success called result] at log
              cases earlier with
              | nil =>
                  obtain ⟨rfl, -⟩ := List.cons.inj log
                  cases failed
              | cons first earlier => exact ih (List.cons.inj log).2

/-- No call fails exactly when the callbacks, called one after the other, all succeed. -/
theorem callbackRun_succeeds_iff {frames : List FrameObject} (callable : HaveCallbacks frames) (world : σ) :
    (∀ call ∈ (callbackRun callbacks frames world).1, call.2 = .success) ↔
      CallbacksSucceed callbacks frames world := by
  induction frames generalizing world with
  | nil => simp [callbackRun, CallbacksSucceed]
  | cons object rest ih =>
      obtain ⟨⟨callback, called⟩, others⟩ := callable.uncons
      rcases result : callbacks callback object world with ⟨ret, after⟩
      cases ret with
      | error =>
          rw [callbackRun_error called result]
          simp [CallbacksSucceed, called, result]
      | success =>
          rw [callbackRun_success called result]
          simp [CallbacksSucceed, called, result, ← ih others after]

/-- When they all succeed, each frame is called once, in list order. -/
theorem callbackRun_all {frames : List FrameObject} {world : σ} (callable : HaveCallbacks frames)
    (succeed : CallbacksSucceed callbacks frames world) :
    (callbackRun callbacks frames world).1.map Prod.fst = frames := by
  induction frames generalizing world with
  | nil => rfl
  | cons object rest ih =>
      obtain ⟨⟨callback, called⟩, others⟩ := callable.uncons
      obtain ⟨first, more⟩ := succeed callback called
      rcases result : callbacks callback object world with ⟨ret, after⟩
      rw [result] at first more
      obtain rfl : ret = .success := first
      rw [callbackRun_success called result, List.map_cons, ih others more]

/-- Callbacks that always succeed succeed one after the other. -/
theorem callbacksSucceed_of_always {frames : List FrameObject}
    (succeed : ∀ object ∈ frames, ∃ callback, object.frame.transactionCallback = some callback ∧
      ∀ world, (callbacks callback object world).1 = .success) (world : σ) :
    CallbacksSucceed callbacks frames world := by
  induction frames generalizing world with
  | nil => trivial
  | cons object rest ih =>
      intro callback called
      obtain ⟨own, here, always⟩ := succeed object List.mem_cons_self
      obtain rfl : own = callback := Option.some.inj (here.symm.trans called)
      exact ⟨always world, ih (fun other mem => succeed other (List.mem_cons_of_mem _ mem)) _⟩

/-! ### Failures -/

theorem Ret.ne_success {ret : Ret} : ret ≠ .success ↔ ret = .error := by
  cases ret <;> simp

/-- For a transaction whose frames all have callbacks, a commit reports a failure as it should exactly
when there is none to report. -/
theorem reports_failure_iff {tid : List UInt8} {manager : TransactionManager} {place : Nat} {world : σ}
    (found : getTransaction tid manager = some place)
    (callable : HaveCallbacks (manager.framesAt place)) :
    ReportsFailure callbacks tid manager world ↔
      CallbacksSucceed callbacks (manager.framesAt place) world := by
  rw [← callbackRun_succeeds_iff callable, ReportsFailure, commit_logging world found callable]
  constructor
  · rintro ⟨ret, later, log, after, returned, reported, -⟩ call mem
    obtain ⟨code, -, calls⟩ : Ret.success = ret ∧ _ ∧ callbackRun callbacks _ world = (log, after) := by
      simpa using returned
    by_contra failed
    rw [calls] at mem
    have error := reported.mpr ⟨call, mem, Ret.ne_success.mp failed⟩
    rw [← code] at error
    cases error
  · intro succeed
    refine ⟨_, _, _, _, rfl, ?_, fun earlier call further log => callbackRun_stops log⟩
    constructor
    · intro error
      cases error
    · rintro ⟨call, mem, failed⟩
      rw [succeed call mem] at failed
      cases failed

/-- A frame with a callback. -/
def callbackFrame (address callback : Nat) : FrameObject :=
  ⟨address, { allocFrame with transactionCallback := some callback }⟩

/-- One open transaction with the id `t`. -/
def openManager (frames : List FrameObject) : TransactionManager :=
  ⟨[{ tid := cstring "t", frames := frames }], 1⟩

/-- The callback at the address 0 fails, the others succeed. -/
def zeroFails (callback : Nat) (_ : FrameObject) (world : Unit) : Ret × Unit :=
  (if callback = 0 then .error else .success, world)

theorem reports_failure_none :
    ReportsFailure zeroFails (cstring "t") (openManager [callbackFrame 0 1]) () :=
  (@reports_failure_iff _ _ _ _ 0 _ rfl (by decide)).mpr fun _ called => by
    cases called
    exact ⟨rfl, trivial⟩

/-- The callback of the only frame fails, and the commit succeeds. -/
theorem failure_not_reported :
    ¬ ReportsFailure zeroFails (cstring "t") (openManager [callbackFrame 0 0]) () := by
  rintro ⟨ret, later, log, after, returned, reported, -⟩
  cases returned
  cases reported.mpr ⟨_, List.mem_singleton_self _, rfl⟩

/-! ### Order -/

/-- The record holds the frames of the transactions, each list the other way round. -/
structure AddedInv (s : OpenTransactions σ) : Prop where
  frames : s.manager.list.map Transaction.frames = s.added.map List.reverse
  unique : ∀ frames ∈ s.added, (frames.map FrameObject.address).Nodup

theorem AddedInv.framesAt {s : OpenTransactions σ} (inv : AddedInv s) (place : Nat) :
    s.manager.framesAt place = (s.addedAt place).reverse := by
  have same := congrArg (fun lists => lists[place]?) inv.frames
  simp only [List.getElem?_map] at same
  rw [TransactionManager.framesAt, OpenTransactions.addedAt]
  cases here : s.manager.list[place]? with
  | none =>
      rw [here, Option.map_none, eq_comm, Option.map_eq_none_iff] at same
      rw [same]
      rfl
  | some transaction =>
      rw [here, Option.map_some, eq_comm, Option.map_eq_some_iff] at same
      obtain ⟨frames, there, reversed⟩ := same
      rw [there]
      exact reversed.symm

/-- Removing the transaction that a call finds. -/
theorem AddedInv.erase {s : OpenTransactions σ} (inv : AddedInv s) (place : Nat) (world : σ) :
    AddedInv ⟨freeTransaction place s.manager, world, s.added.eraseIdx place⟩ where
  frames := by
    rw [freeTransaction, ← List.eraseIdx_map, ← List.eraseIdx_map, inv.frames]
  unique frames mem := inv.unique frames (List.mem_of_mem_eraseIdx mem)

theorem addedInv_step {s next : OpenTransactions σ} {call : ManagerCall} (inv : AddedInv s)
    (returned : openStep malloc callbacks s call = some next) : AddedInv next := by
  cases call with
  | init =>
      cases returned
      exact ⟨rfl, fun _ mem => by cases mem⟩
  | start tid =>
      obtain ⟨⟨ret, manager⟩, started, rfl⟩ := Option.map_eq_some_iff.mp returned
      rw [transactionStart] at started
      split at started
      · cases started
        exact inv
      · obtain ⟨opened, allocated, same⟩ := Option.map_eq_some_iff.mp started
        cases same
        simp only [allocTransaction] at allocated
        split at allocated
        · cases allocated
        · cases allocated
          constructor
          · simp [inv.frames]
          · intro frames mem
            rcases List.mem_append.mp mem with old | new
            · exact inv.unique frames old
            · rw [List.mem_singleton.mp new]
              exact List.nodup_nil
  | add tid object =>
      simp only [openStep] at returned
      split at returned
      · next unused =>
          cases returned
          simp only [transactionAdd, OpenTransactions.addedAfter]
          cases getTransaction tid s.manager with
          | none => exact inv
          | some place =>
              constructor
              · have one : (s.manager.list.modify place fun transaction =>
                    { transaction with frames := object :: transaction.frames }).map
                      Transaction.frames =
                    (s.manager.list.map Transaction.frames).modify place (object :: ·) :=
                  map_modify_eq _ _ fun _ => rfl
                have other : (s.added.modify place (· ++ [object])).map List.reverse =
                    (s.added.map List.reverse).modify place (object :: ·) :=
                  map_modify_eq _ _ fun _ => List.reverse_concat
                rw [one, other, inv.frames]
              · intro frames mem
                obtain ⟨i, there⟩ := List.mem_iff_getElem?.mp mem
                rw [List.getElem?_modify] at there
                obtain ⟨old, here, rfl⟩ := Option.map_eq_some_iff.mp there
                have memOld := List.mem_of_getElem? here
                split
                · rw [List.map_append, List.nodup_append']
                  refine ⟨inv.unique old memOld, List.nodup_singleton _, ?_⟩
                  simpa using unused old memOld
                · exact inv.unique old memOld
      · cases returned
  | abort tid =>
      cases returned
      simp only [transactionAbort, OpenTransactions.addedAfter]
      cases getTransaction tid s.manager with
      | none => exact inv
      | some place => exact inv.erase place s.world
  | commit tid =>
      obtain ⟨⟨ret, manager, world⟩, committed, rfl⟩ := Option.map_eq_some_iff.mp returned
      simp only [transactionCommit, OpenTransactions.addedAfter] at committed ⊢
      cases found : getTransaction tid s.manager with
      | none =>
          simp only [found] at committed
          cases committed
          exact ⟨inv.frames, inv.unique⟩
      | some place =>
          simp only [found] at committed
          obtain ⟨after, -, same⟩ := Option.map_eq_some_iff.mp committed
          cases same
          exact inv.erase place world

theorem addedInv_reaches {world : σ} {s : OpenTransactions σ}
    (reached : Transition.Reaches (openStep malloc callbacks) Transition.Always
      (OpenTransactions.start world) s) : AddedInv s := by
  apply @Transition.Reaches.invariant _ _ _ _ AddedInv _ _ _ reached
  · exact ⟨rfl, fun _ mem => by cases mem⟩
  · exact fun _ _ _ inv _ returned => addedInv_step inv returned

/-- A list without repetitions reads the same backwards exactly when it has at most one element. -/
theorem reverse_eq_iff_length_le_one {α : Type} {xs : List α} (unique : xs.Nodup) :
    xs.reverse = xs ↔ xs.length ≤ 1 := by
  cases xs with
  | nil => simp
  | cons first rest =>
      rcases List.eq_nil_or_concat rest with rfl | ⟨middle, last, rfl⟩
      · simp
      · constructor
        · intro same
          have ends : last = first := by simpa using congrArg List.head? same
          rw [ends] at unique
          simp at unique
        · intro short
          simp at short

/-- In every state that calls lead to, a transaction whose frames have callbacks that succeed is replayed
in order exactly when at most one frame was added to it. -/
theorem replays_in_order_iff {world : σ} {s : OpenTransactions σ} {tid : List UInt8} {place : Nat}
    (reached : Transition.Reaches (openStep malloc callbacks) Transition.Always
      (OpenTransactions.start world) s)
    (found : getTransaction tid s.manager = some place)
    (succeed : ∀ object ∈ s.addedAt place, ∃ callback,
      object.frame.transactionCallback = some callback ∧
        ∀ world, (callbacks callback object world).1 = .success) :
    ReplaysInOrder callbacks tid place s ↔ (s.addedAt place).length ≤ 1 := by
  have inv := addedInv_reaches reached
  have frames := inv.framesAt place
  have callable : HaveCallbacks (s.manager.framesAt place) := by
    intro object mem
    rw [frames] at mem
    obtain ⟨callback, called, -⟩ := succeed object (List.mem_reverse.mp mem)
    rw [called]
    rfl
  have all : CallbacksSucceed callbacks (s.manager.framesAt place) s.world := by
    apply callbacksSucceed_of_always
    rw [frames]
    exact fun object mem => succeed object (List.mem_reverse.mp mem)
  have calls := callbackRun_all callable all
  rw [frames] at calls
  rw [ReplaysInOrder, commit_logging s.world found callable, frames]
  have unique : (s.addedAt place).Nodup := by
    rw [OpenTransactions.addedAt]
    cases here : s.added[place]? with
    | none => exact List.nodup_nil
    | some added => exact (inv.unique added (List.mem_of_getElem? here)).of_map
  constructor
  · rintro ⟨ret, log, after, returned, order⟩
    have same : callbackRun callbacks (s.addedAt place).reverse s.world = (log, after) := by
      simpa using (congrArg (Option.map fun result => result.2.2) returned)
    rw [same] at calls
    exact (reverse_eq_iff_length_le_one unique).mp (calls.symm.trans order)
  · intro short
    refine ⟨_, _, _, rfl, ?_⟩
    rw [calls]
    exact (reverse_eq_iff_length_le_one unique).mpr short

/-- A callback that always succeeds. -/
def succeeds (_ : Nat) (_ : FrameObject) (world : Unit) : Ret × Unit := (.success, world)

theorem replays_one_frame :
    ∃ s, Transition.run (openStep zeroMalloc succeeds) (OpenTransactions.start ())
        [.start (cstring "t"), .add (cstring "t") (callbackFrame 0 1)] = some s ∧
      ReplaysInOrder succeeds (cstring "t") 0 s := by
  have taken : ∃ s, Transition.run (openStep zeroMalloc succeeds) (OpenTransactions.start ())
        [.start (cstring "t"), .add (cstring "t") (callbackFrame 0 1)] = some s ∧
      getTransaction (cstring "t") s.manager = some 0 ∧ s.addedAt 0 = [callbackFrame 0 1] :=
    ⟨_, rfl, by decide +kernel, rfl⟩
  obtain ⟨s, run, found, added⟩ := taken
  refine ⟨s, run, (replays_in_order_iff (Transition.reaches_of_run run) found ?_).mpr ?_⟩
  · intro object mem
    rw [added, List.mem_singleton] at mem
    rw [mem]
    exact ⟨1, rfl, fun _ => rfl⟩
  · rw [added]
    exact Nat.le_refl 1

/-- Of two frames, the second one is replayed first. -/
theorem two_frames_reversed :
    ¬ ∀ s, Transition.Reaches (openStep zeroMalloc succeeds) Transition.Always
        (OpenTransactions.start ()) s →
      getTransaction (cstring "t") s.manager = some 0 → ReplaysInOrder succeeds (cstring "t") 0 s := by
  intro always
  have taken : ∃ s, Transition.run (openStep zeroMalloc succeeds) (OpenTransactions.start ())
        [.start (cstring "t"), .add (cstring "t") (callbackFrame 0 1),
          .add (cstring "t") (callbackFrame 1 1)] = some s ∧
      getTransaction (cstring "t") s.manager = some 0 ∧
      s.addedAt 0 = [callbackFrame 0 1, callbackFrame 1 1] ∧
      ∃ after, transactionCommit (logging succeeds) (cstring "t") s.manager ([], s.world) =
        some (.success, freeTransaction 0 s.manager,
          [(callbackFrame 1 1, .success), (callbackFrame 0 1, .success)], after) :=
    ⟨_, rfl, by decide +kernel, rfl, (), rfl⟩
  obtain ⟨s, run, found, added, after, committed⟩ := taken
  obtain ⟨ret, log, world, returned, order⟩ := always s (Transition.reaches_of_run run) found
  rw [committed] at returned
  cases returned
  rw [added] at order
  revert order
  decide

end Newtmq
