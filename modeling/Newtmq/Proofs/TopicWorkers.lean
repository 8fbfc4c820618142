/-
Module: Newtmq.Proofs.TopicWorkers
Purpose: A topic with clients keeps the thread that serves it; it lacks one exactly when a client was
  linked after the thread had left its loop.
Trusted boundary: none
Main exports: registering_run, ServedInv, servedInv_step, topics_served_iff
-/
import Newtmq.Spec.TopicWorkers
import Newtmq.Proofs.Recipients

namespace Newtmq

open Transition (HoldsAlong MeetsAlong)

/-! ### Registration -/

@[simp] theorem setManager_manager (s : TopicWorkers) (manager : WorkerManager) :
    (s.setManager manager).manager = manager := rfl

@[simp] theorem setManager_registering (s : TopicWorkers) (manager : WorkerManager) :
    (s.setManager manager).registering = s.registering := rfl

/-- The steps of a call for a topic that has a group, or that has none. -/
def registeringSteps (known : Bool) (sock : Int) (destination : List UInt8) : List TopicAction :=
  if known then [.subscribe sock destination, .search, .link]
  else [.subscribe sock destination, .search, .newGroup, .spawn, .link]

/-- The steps of `register_multicast_worker`, with no step of another thread between them, do what the
function does. -/
theorem registering_run (env : ServerEnv) {s : TopicWorkers} (idle : s.registering = .idle)
    (sock : Int) (destination : List UInt8) :
    Transition.run (topicStep env) s
        (registeringSteps (searchDestGroup destination s.manager).isSome sock destination) =
      some (s.setManager (registerMulticastWorker sock destination s.manager)) := by
  obtain ⟨base, registering⟩ := s
  cases idle
  cases found : searchDestGroup destination base.server.workers with
  | some place =>
      simp [TopicWorkers.manager, registeringSteps, found, Transition.run, topicStep,
        registerMulticastWorker, TopicWorkers.setManager]
  | none =>
      simp [TopicWorkers.manager, registeringSteps, found, Transition.run, topicStep,
        registerMulticastWorker, TopicWorkers.setManager, createDestGroup, createWorker, addClient]

/-! ### Steps of a thread -/

theorem senders_setSender (s : Connections) (n : Nat) (point : SenderPoint) :
    (s.setSender n point).senders n = point :=
  Function.update_self _ _ _

/-- A step of a sending worker adds no client, and `multicast_worker` leaves its loop only when its
group has none. -/
theorem senderStep_clients {s next : Connections} {n : Nat} {worker : Worker}
    {destination : List UInt8} {action : ConnectionsAction}
    (taken : senderStep s n worker destination action = some next) :
    (∀ other, next.server.workers.clients other ⊆ s.server.workers.clients other) ∧
      ∀ group, worker = .multicast group → (next.senders n).hasEnded = true →
        s.server.workers.clients (.multicast group) = [] := by
  -- every step but the look at the loop condition stays in the loop
  have ongoing : (∀ other, next.server.workers.clients other ⊆ s.server.workers.clients other) →
      (next.senders n).hasEnded = false →
      (∀ other, next.server.workers.clients other ⊆ s.server.workers.clients other) ∧
        ∀ group, worker = .multicast group → (next.senders n).hasEnded = true →
          s.server.workers.clients (.multicast group) = [] := by
    intro fewer stays
    refine ⟨fewer, fun group _ ended => ?_⟩
    rw [stays] at ended
    cases ended
  cases action with
  | check m error =>
      simp only [senderStep] at taken
      split at taken
      · cases taken
        refine ⟨fun _ _ mem => mem, ?_⟩
        rintro group rfl ended
        by_contra nonempty
        simp [Connections.setSender, goesOn, nonempty, SenderPoint.hasEnded] at ended
      · cases taken
  | dequeue m =>
      simp only [senderStep] at taken
      split at taken
      · split at taken
        · cases taken
          exact ongoing (fun _ _ mem => mem) (by rw [senders_setSender]; rfl)
        · cases taken
          refine ongoing (fun _ _ mem => mem) ?_
          rw [senders_setSender]
          cases worker <;> rfl
      · cases taken
  | visit m error =>
      simp only [senderStep] at taken
      split at taken
      · obtain ⟨client, here, found⟩ := Option.map_eq_some_iff.mp taken
        split at found
        · cases found
          exact ongoing (fun _ _ mem => mem) (by rw [senders_setSender]; rfl)
        · cases found
          refine ongoing (fun other => (clients_removeClient _ _ worker other).2) ?_
          rw [senders_setSender]
          split <;> rfl
      · cases taken
  | call m =>
      simp only [senderStep] at taken
      split at taken
      · cases taken
        exact ongoing (fun _ _ mem => mem) (by rw [senders_setSender]; rfl)
      · cases taken
  | finish m =>
      simp only [senderStep] at taken
      split at taken
      · cases taken
        exact ongoing (fun _ _ mem => mem) (by rw [senders_setSender]; rfl)
      · cases taken
        refine ongoing (fun other => ?_) (by rw [senders_setSender]; rfl)
        simp only [Connections.setSender, (endPass_server destination _ _ _).1]
        exact fun _ mem => mem
      · cases taken
  | accept sock => cases taken
  | close sock => cases taken
  | receive object => cases taken
  | manage => cases taken

/-! ### The invariant -/

/-- The group that the running call of `register_multicast_worker` has found or created. -/
def Registering.place : Registering → Option Nat
  | .created _ place | .linking _ place => some place
  | .idle | .called _ _ | .missing _ _ => none

/-- What every step that links a client to a group with a thread keeps. -/
structure ServedInv (s : TopicWorkers) : Prop where
  served : ∀ place, s.manager.clients (.multicast place) ≠ [] → Served s place
  opened : ∀ place, s.registering.place = some place → place < s.manager.groups.length

theorem servedInv_start (server : Server) : ServedInv (TopicWorkers.start server) where
  served place nonempty := absurd rfl nonempty
  opened := by rintro place ⟨⟩

theorem topicsServed_iff (s : TopicWorkers) :
    TopicsServed s ↔ (s.registering = .idle →
      ∀ place, s.manager.clients (.multicast place) ≠ [] → Served s place) := by
  refine imp_congr_right fun _ => forall_congr' fun place => ?_
  rw [WorkerManager.clients]
  cases s.manager.groups[place]? <;> simp

theorem lt_length_iff (manager : WorkerManager) (place : Nat) :
    place < manager.groups.length ↔ (manager.destination (.multicast place)).isSome = true := by
  simp [WorkerManager.destination, Worker.group]

theorem ServedInv.topicsServed {s : TopicWorkers} (inv : ServedInv s) : TopicsServed s :=
  (topicsServed_iff s).mpr fun _ => inv.served

/-- The same threads, and those a group is served by where they were, serve the group. -/
theorem Served.congr {s next : TopicWorkers} {place : Nat} (served : Served s place)
    (workers : next.manager.workers = s.manager.workers)
    (points : ∀ n, ServedBy s place n → (next.base.senders n).hasEnded = false) :
    Served next place := by
  obtain ⟨n, inside, runs, ongoing⟩ := served
  refine ⟨n, by rwa [workers], by rwa [workers], points n ⟨runs, ongoing⟩⟩

/-- A step of a sending worker keeps every group served. -/
theorem ServedInv.thread {s : TopicWorkers} {next : Connections} {n : Nat}
    {action : ConnectionsAction} (inv : ServedInv s)
    (taken : workerStep s.base n action = some next) : ServedInv { s with base := next } := by
  obtain ⟨worker, thread, taken⟩ := Option.bind_eq_some_iff.mp taken
  obtain ⟨destination, _, taken⟩ := Option.bind_eq_some_iff.mp taken
  have move := senderStep_move taken
  obtain ⟨fewer, ends⟩ := senderStep_clients taken
  constructor
  · intro place nonempty
    have before : s.manager.clients (.multicast place) ≠ [] := fun none =>
      nonempty (List.eq_nil_of_subset_nil (none ▸ fewer (.multicast place)))
    refine (inv.served place before).congr move.threads fun m ⟨runs, ongoing⟩ => ?_
    by_cases same : m = n
    · subst same
      have serves : worker = .multicast place := Option.some.inj (thread.symm.trans runs)
      by_contra ended
      exact before (ends place serves (by simpa using ended))
    · rw [move.others m same]
      exact ongoing
  · intro place held
    have before := (lt_length_iff _ place).mp (inv.opened place held)
    apply (lt_length_iff _ place).mpr
    rw [show TopicWorkers.manager { s with base := next } = next.server.workers from rfl,
      move.destinations]
    exact before

/-- A step that leaves the threads and the groups as they are. -/
theorem ServedInv.base {s : TopicWorkers} {next : Connections} (inv : ServedInv s)
    (workers : next.server.workers = s.base.server.workers) (senders : next.senders = s.base.senders) :
    ServedInv { s with base := next } := by
  have manager : TopicWorkers.manager { s with base := next } = s.manager := workers
  constructor
  · intro place nonempty
    rw [manager] at nonempty
    refine (inv.served place nonempty).congr (by rw [manager]) fun n by_ => ?_
    simp only [senders]
    exact by_.2
  · rw [manager]
    exact inv.opened

/-- Every step but the linking of a client keeps the groups served, whether or not a thread serves
them. -/
theorem servedInv_other {env : ServerEnv} {s next : TopicWorkers} {action : TopicAction}
    (inv : ServedInv s) (other : action ≠ .link) (taken : topicStep env s action = some next) :
    ServedInv next := by
  cases action with
  | subscribe sock destination =>
      simp only [topicStep] at taken
      split at taken
      · cases taken
        exact ⟨inv.served, by rintro place ⟨⟩⟩
      · cases taken
  | search =>
      simp only [topicStep] at taken
      split at taken
      · split at taken
        next place found =>
          cases taken
          refine ⟨inv.served, ?_⟩
          rintro _ ⟨⟩
          obtain ⟨inside, _⟩ := List.findIdx?_eq_some_iff_getElem.mp found
          exact inside
        · cases taken
          exact ⟨inv.served, by rintro place ⟨⟩⟩
      · cases taken
  | newGroup =>
      simp only [topicStep] at taken
      split at taken
      next sock destination called =>
        cases taken
        have opens := opens_create destination s.manager
        constructor
        · intro place nonempty
          refine (inv.served place ?_).congr rfl fun n runs => runs.2
          rw [← opens.clients (.multicast place)]
          exact nonempty
        · rintro _ ⟨⟩
          simp [TopicWorkers.manager, TopicWorkers.setManager, createDestGroup]
      · cases taken
  | spawn =>
      simp only [topicStep] at taken
      split at taken
      next sock place created =>
        cases taken
        constructor
        · intro other nonempty
          obtain ⟨n, inside, runs, ongoing⟩ := inv.served other nonempty
          refine ⟨n, ?_, ?_, ongoing⟩
          · change n < (s.manager.workers ++ [Worker.multicast place]).length
            rw [List.length_append]
            omega
          · change (s.manager.workers ++ [Worker.multicast place])[n]? = _
            rw [List.getElem?_append_left inside]
            exact runs
        · rintro _ ⟨⟩
          exact inv.opened place (by rw [created]; rfl)
      · cases taken
  | link => exact absurd rfl other
  | publish object qname =>
      simp only [topicStep] at taken
      split at taken
      · cases taken
        exact inv.base rfl rfl
      · cases taken
  | base action =>
      cases action with
      | manage => cases taken
      | accept sock =>
          obtain ⟨next, step, rfl⟩ := Option.map_eq_some_iff.mp taken
          obtain ⟨_, same⟩ := Option.ite_none_right_eq_some.mp step
          cases same
          exact inv.base rfl rfl
      | close sock =>
          obtain ⟨next, step, rfl⟩ := Option.map_eq_some_iff.mp taken
          obtain ⟨_, same⟩ := Option.ite_none_left_eq_some.mp step
          cases same
          exact inv.base rfl rfl
      | receive object =>
          obtain ⟨next, step, rfl⟩ := Option.map_eq_some_iff.mp taken
          obtain ⟨_, same⟩ := Option.ite_none_right_eq_some.mp step
          obtain ⟨connection, _, rfl⟩ := Option.map_eq_some_iff.mp same
          exact inv.base rfl rfl
      | check n error | dequeue n | visit n error | call n | finish n =>
          obtain ⟨next, step, rfl⟩ := Option.map_eq_some_iff.mp taken
          exact inv.thread step

/-- The linking of a client keeps the groups served if and only if a thread served its group. -/
theorem servedInv_link {s next : TopicWorkers} {sock : Int} {place : Nat} (inv : ServedInv s)
    (linking : s.registering = .linking sock place)
    (linked : next = { s.setManager (addClient place (allocClientInfo sock) s.manager) with
      registering := .idle }) :
    (TopicsServed next → Served s place) ∧ (Served s place → ServedInv next) := by
  subst linked
  constructor
  · intro all
    have inside := inv.opened place (by rw [linking]; rfl)
    have nonempty : (addClient place (allocClientInfo sock) s.manager).clients (.multicast place) ≠
        [] := by
      simp [WorkerManager.clients, addClient, inside]
    exact ((topicsServed_iff _).mp all rfl place nonempty).congr rfl fun n runs => runs.2
  · intro served
    constructor
    · intro other nonempty
      have before : Served s other := by
        rcases clients_addClient place (allocClientInfo sock) s.manager (.multicast other) with
          same | ⟨here, _⟩
        · refine inv.served other fun none => nonempty ?_
          exact same.trans none
        · cases here
          exact served
      exact before.congr rfl fun n runs => runs.2
    · rintro _ ⟨⟩

theorem servedInv_step {env : ServerEnv} (s : TopicWorkers) (action : TopicAction)
    (next : TopicWorkers) (inv : ServedInv s) (links : LinksToServed s action)
    (taken : topicStep env s action = some next) : ServedInv next := by
  by_cases link : action = .link
  · subst link
    simp only [topicStep] at taken
    split at taken
    next sock place linking =>
      cases taken
      rw [LinksToServed, linking] at links
      exact (servedInv_link inv linking rfl).2 links
    · cases taken
  · exact servedInv_other inv link taken

/-- Along every run, each group with clients has a running `multicast_worker` whenever
`register_multicast_worker` is not executing, if and only if each client is linked while the thread of
its group has not left its loop. -/
theorem topics_served_iff (env : ServerEnv) (server : Server) (actions : List TopicAction) :
    HoldsAlong (topicStep env) TopicsServed (TopicWorkers.start server) actions ↔
      MeetsAlong (topicStep env) LinksToServed (TopicWorkers.start server) actions := by
  apply Transition.holdsAlong_iff (fun s inv => inv.topicsServed) servedInv_step _
    (servedInv_start server)
  intro s action inv after
  cases action with
  | link =>
      cases point : s.registering with
      | linking sock place =>
          rw [LinksToServed, point]
          exact (servedInv_link inv point rfl).1 (after _ (by simp [topicStep, point]))
      | _ => simp [LinksToServed, point]
  | _ => trivial

/-- The thread that was created for a new topic looks at its loop condition before the first client is
linked. -/
def earlyCheckRun : List TopicAction :=
  [.subscribe 3 (cstring "/topic/t"), .search, .newGroup, .spawn, .base (.check 0 false), .link]

theorem topic_without_thread :
    ¬ ∀ s, Transition.Reaches (topicStep quietEnv) Transition.Always
      (TopicWorkers.start (Server.init [] fun _ => none)) s → TopicsServed s := by
  intro always
  have result : (Transition.run (topicStep quietEnv)
      (TopicWorkers.start (Server.init [] fun _ => none)) earlyCheckRun).map
        (fun s => (s.registering, s.manager.clients (.multicast 0), decide (Served s 0))) =
      some (.idle, [⟨3, none⟩], false) := by decide +kernel
  obtain ⟨s, taken, seen⟩ := Option.map_eq_some_iff.mp result
  obtain ⟨idle, rest⟩ := Prod.mk.inj seen
  obtain ⟨clients, unserved⟩ := Prod.mk.inj rest
  have served := (topicsServed_iff s).mp (always s (Transition.reaches_of_run taken)) idle 0
    (by simp [clients])
  exact of_decide_eq_false unserved served

end Newtmq
