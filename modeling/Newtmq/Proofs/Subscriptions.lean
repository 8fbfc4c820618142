/-
Module: Newtmq.Proofs.Subscriptions
Purpose: The runs of the management worker and the sending workers, subscription by subscription. A
  subscription that no running thread serves stays silent, and one that a thread serves may always
  receive another frame, whether or not its client has sent `UNSUBSCRIBE`.
Trusted boundary: none
Main exports: SubscriptionsInv, ServeMove, serveStep_move, unserved_step, unsubscribe_stops_iff
-/
import Newtmq.Spec.Subscriptions
import Newtmq.Proofs.Recipients
import Newtmq.Proofs.QueueMap

namespace Newtmq

open Transition (Reaches Always)

/-! ### Threads that a handler creates -/

/-- The only new thread. -/
theorem newThread_eq {workers : List Worker} {n : Nat} {worker thread : Worker}
    (new : workers.length ≤ n) (created : (workers ++ [worker])[n]? = some thread) :
    thread = worker := by
  rw [List.getElem?_append_right new] at created
  exact List.mem_singleton.mp (List.mem_of_getElem? created)

/-- A new `multicast_worker` serves a group that had no clients. -/
theorem WorkerChange.newThread {object : FrameObject} {manager next : WorkerManager}
    (change : WorkerChange object manager next) {n group : Nat} (new : manager.workers.length ≤ n)
    (thread : next.workers[n]? = some (.multicast group)) :
    manager.clients (.multicast group) = [] := by
  have outside : manager.workers[n]? ≠ some (.multicast group) := by
    rw [List.getElem?_eq_none new]
    simp
  cases change with
  | kept => exact absurd thread outside
  | @reply destination asked =>
      rw [registerReplyWorker] at thread
      split at thread
      · exact absurd thread outside
      · cases newThread_eq new thread
  | @queue destination asked =>
      have workers := (opens_get destination manager).workers
      have created : (manager.workers ++ [Worker.unicast (getDestGroup destination manager).1
          (allocClientInfo object.frame.sock)])[n]? = some (.multicast group) := by
        rw [← workers]
        exact thread
      cases newThread_eq new created
  | @topic destination asked =>
      rw [registerMulticastWorker] at thread
      split at thread
      · exact absurd thread outside
      · cases newThread_eq new thread
        simp [WorkerManager.clients]

theorem answerReceipt_subscribers (sock : Int) (receiptId : Option (List UInt8)) (server : Server) :
    (answerReceipt sock receiptId server).subscribers = server.subscribers ∧
      (answerReceipt sock receiptId server).cancelled = server.cancelled := by
  cases receiptId with
  | none => exact ⟨rfl, rfl⟩
  | some id =>
      rw [answerReceipt, (Answered.receipt sock id server).rest, stompSendReceipt]
      split <;> exact ⟨rfl, rfl⟩

theorem handlerStompSend_subscribers {env : ServerEnv} {object : FrameObject} {server next : Server}
    {ret : Option FrameObject} (handled : handlerStompSend env object server = some (ret, next)) :
    next.subscribers = server.subscribers ∧ next.cancelled = server.cancelled := by
  have reply : ∀ destination, (replyTo object.frame.sock destination server).subscribers =
      server.subscribers ∧ (replyTo object.frame.sock destination server).cancelled =
      server.cancelled := by
    intro destination
    cases destination <;> exact ⟨rfl, rfl⟩
  simp only [handlerStompSend] at handled
  split at handled
  · cases handled
  · split at handled
    · cases handled
      exact ⟨rfl, rfl⟩
    · next hAttrs info attrs =>
        split at handled
        · cases handled
          exact reply info.replyTo
        · cases handled
          rw [(answerReceipt_subscribers _ _ _).1, (answerReceipt_subscribers _ _ _).2]
          rw [← (reply info.replyTo).1, ← (reply info.replyTo).2]
          cases info.tid <;> exact ⟨rfl, rfl⟩

theorem handlerStompSubscribe_subscribers {env : ServerEnv} {object : FrameObject}
    {server next : Server} {ret : Option FrameObject}
    (handled : handlerStompSubscribe env object server = some (ret, next)) :
    next.subscribers = server.subscribers ∧ next.cancelled = server.cancelled := by
  simp only [handlerStompSubscribe] at handled
  split at handled
  · cases handled
  · split at handled
    · cases handled
      exact ⟨rfl, rfl⟩
    · split at handled <;> cases handled <;> exact ⟨rfl, rfl⟩

/-- No handler registers a subscriber, so no thread is ever cancelled. A frame that is neither a `SEND` nor
a `SUBSCRIBE` changes no thread and no queue. -/
theorem handleFrame_subscribers {env : ServerEnv} {object : FrameObject} {server next : Server}
    (none : NoCallbacks server.transactions) (empty : server.subscribers = [])
    (handled : handleFrame env object server = some next) :
    (next.subscribers = [] ∧ next.cancelled = server.cancelled) ∧
      ((cstring "SEND").isPrefixOf object.frame.name = false →
        (cstring "SUBSCRIBE").isPrefixOf object.frame.name = false →
          next.workers = server.workers ∧ next.queues = server.queues) := by
  rcases handleFrame_cases handled with
    ⟨handler, ret, later, freed, found, ran, rfl⟩ | ⟨notFound, wire, rfl⟩
  · rcases findHandler_kind found with ⟨send, rfl⟩ | ⟨send, ⟨subscribe, rfl⟩ | ⟨_, answers⟩⟩
    · obtain ⟨same, kept⟩ := handlerStompSend_subscribers ran
      exact ⟨⟨same.trans empty, kept⟩, fun notSend => by rw [send] at notSend; cases notSend⟩
    · obtain ⟨same, kept⟩ := handlerStompSubscribe_subscribers ran
      exact ⟨⟨same.trans empty, kept⟩, fun _ other => by rw [subscribe] at other; cases other⟩
    · exact ⟨(answers env object server ret later none ran).none empty,
        fun _ _ => answers.untouched env object server ret later none ran⟩
  · exact ⟨⟨empty, rfl⟩, fun _ _ => ⟨rfl, rfl⟩⟩

/-! ### One pass of a thread -/

theorem length_keptPlaces {α β : Type} (valid : Nat → Bool) {xs : List α} {ys : List β}
    (same : xs.length = ys.length) :
    (keptPlaces valid xs).length = (keptPlaces valid ys).length := by
  induction xs generalizing ys valid with
  | nil =>
      obtain rfl : ys = [] := List.eq_nil_of_length_eq_zero same.symm
      rfl
  | cons x xs ih =>
      obtain ⟨y, ys, rfl⟩ := List.exists_cons_of_length_pos (l := ys) (by simp [← same])
      have rest := ih (fun place => valid (place + 1)) (Nat.succ.inj same)
      rw [keptPlaces, keptPlaces]
      split
      · rw [List.length_cons, List.length_cons, rest]
      · exact rest

theorem keptPlaces_subset {α : Type} (valid : Nat → Bool) (xs : List α) : keptPlaces valid xs ⊆ xs := by
  induction xs generalizing valid with
  | nil => exact List.Subset.refl _
  | cons x xs ih =>
      have rest := ih fun place => valid (place + 1)
      rw [keptPlaces]
      split
      · exact List.cons_subset_cons x rest
      · exact List.subset_cons_of_subset x rest

@[simp] theorem keptPlaces_all {α : Type} (xs : List α) : keptPlaces (fun _ => true) xs = xs := by
  induction xs with
  | nil => rfl
  | cons x xs ih => simp [keptPlaces, ih]

theorem clients_keepClients (manager : WorkerManager) (group : Nat) (valid : Nat → Bool)
    (other : Nat) :
    (manager.keepClients group valid).clients (.multicast other) =
      if group = other then keptPlaces valid (manager.clients (.multicast other))
      else manager.clients (.multicast other) := by
  simp only [WorkerManager.clients, WorkerManager.keepClients, List.getElem?_modify]
  cases manager.groups[other]? with
  | none => split <;> rfl
  | some found => by_cases same : group = other <;> simp [same]

theorem destination_keepClients (manager : WorkerManager) (group : Nat) (valid : Nat → Bool)
    (worker : Worker) :
    (manager.keepClients group valid).destination worker = manager.destination worker := by
  simp only [WorkerManager.destination, WorkerManager.keepClients, List.getElem?_modify]
  cases manager.groups[worker.group]? with
  | none => rfl
  | some found => by_cases same : group = worker.group <;> simp [same]

/-- What one pass of the thread `n` does: it sends at most to the subscriptions that it serves, and no
thread serves more than before. -/
structure ServeMove (s : Subscriptions) (n : Nat) (worker : Worker) (destination : List UInt8)
    (next : Subscriptions) : Prop where
  threads : next.server.workers.workers = s.server.workers.workers
  destinations : ∀ other, next.server.workers.destination other = s.server.workers.destination other
  transactions : next.server.transactions = s.server.transactions
  subscribers : next.server.subscribers = s.server.subscribers ∧
    next.server.cancelled = s.server.cancelled
  queues : next.server.queues = s.server.queues ∨
    next.server.queues = (dequeue destination s.server.queues).2
  handled : next.handled = s.handled
  numbers : next.threads = s.threads
  running : ∀ m, next.ended m = false → s.ended m = false
  fewer : ∀ group, next.clients group ⊆ s.clients group
  parallel : ∀ group, (s.clients group).length =
    (s.server.workers.clients (.multicast group)).length →
      (next.clients group).length = (next.server.workers.clients (.multicast group)).length
  sent : ∃ numbers ⊆ s.served n worker, ∃ object, next.sent = s.sent ++ sentTo numbers object

/-- A pass that sends nothing. -/
theorem serveMove_silent {s : Subscriptions} (n : Nat) (worker : Worker) {destination : List UInt8}
    {queues : QueueStore FrameObject} {ended : Nat → Bool}
    (taken : queues = s.server.queues ∨ queues = (dequeue destination s.server.queues).2)
    (running : ∀ m, ended m = false → s.ended m = false) :
    ServeMove s n worker destination
      { s with server := { s.server with queues := queues }, ended := ended } where
  threads := rfl
  destinations _ := rfl
  transactions := rfl
  subscribers := ⟨rfl, rfl⟩
  queues := taken
  handled := rfl
  numbers := rfl
  running := running
  fewer _ _ mem := mem
  parallel _ same := same
  sent := ⟨[], List.nil_subset _, default, by simp [sentTo]⟩

theorem serveMove_end (s : Subscriptions) (n : Nat) (worker : Worker) (destination : List UInt8) :
    ServeMove s n worker destination (s.endThread n) := by
  apply serveMove_silent n worker (Or.inl rfl)
  intro m running
  by_cases same : m = n
  · subst same
    simp at running
  · simpa [Function.update_of_ne same] using running

theorem endPass_subscribers (destination : List UInt8) (object : FrameObject) (server : Server)
    (worker : Worker) :
    (endPass destination object server worker).subscribers = server.subscribers ∧
      (endPass destination object server worker).cancelled = server.cancelled := by
  cases worker <;> exact ⟨rfl, rfl⟩

theorem serveClient_move (s : Subscriptions) (n : Nat) (valid : Bool) {worker : Worker}
    (client : ClientInfo) (destination : List UInt8)
    (served : s.served n worker = [s.threads[n]?.join]) :
    ServeMove s n worker destination (serveClient s n valid worker client destination) := by
  rw [serveClient]
  split
  · split
    next queues got =>
      exact serveMove_silent n worker (Or.inr (by rw [got])) fun _ running => running
    next object queues got =>
      generalize here : ({ s.server with
        queues := queues
        wire := s.server.wire ++ messagesTo [client] object none } : Server) = server
      obtain ⟨workers, sameQueues, transactions⟩ := endPass_server destination object server worker
      have subscribers := endPass_subscribers destination object server worker
      subst here
      constructor
      case threads => rw [workers]
      case destinations =>
        intro other
        rw [workers]
      case transactions => exact transactions
      case subscribers => exact subscribers
      case queues => exact Or.inr (by rw [sameQueues, got])
      case handled => rfl
      case numbers => rfl
      case running => exact fun _ running => running
      case fewer => exact fun _ _ mem => mem
      case parallel =>
        intro group same
        rw [workers]
        exact same
      case sent => exact ⟨_, by rw [served]; exact List.Subset.refl _, object, rfl⟩
  · exact serveMove_end s n worker destination

theorem serveGroup_move (s : Subscriptions) (n : Nat) (valid : Nat → Bool) (group : Nat)
    (destination : List UInt8) :
    ServeMove s n (.multicast group) destination (serveGroup s n valid group destination) := by
  rw [serveGroup]
  split
  · exact serveMove_end s n _ destination
  · split
    next queues got =>
      exact serveMove_silent n _ (Or.inr (by rw [got])) fun _ running => running
    next object queues got =>
      constructor
      case threads => rfl
      case destinations => exact destination_keepClients s.server.workers group valid
      case transactions => rfl
      case subscribers => exact ⟨rfl, rfl⟩
      case queues => exact Or.inr (by rw [got]; rfl)
      case handled => rfl
      case numbers => rfl
      case running => exact fun _ running => running
      case fewer =>
        intro other
        by_cases same : other = group
        · subst same
          simpa using keptPlaces_subset valid (s.clients other)
        · simp [Function.update_of_ne same]
      case parallel =>
        intro other parallel
        have clients := clients_keepClients s.server.workers group valid other
        refine Eq.trans ?_ (congrArg List.length clients).symm
        by_cases same : other = group
        · subst same
          simpa using length_keptPlaces valid parallel
        · simpa [Function.update_of_ne same, Ne.symm same] using parallel
      case sent => exact ⟨_, keptPlaces_subset valid _, object, rfl⟩

theorem serveStep_move (s : Subscriptions) (n : Nat) (valid : Nat → Bool) (destination : List UInt8)
    (worker : Worker) :
    ServeMove s n worker destination (serveStep s n valid destination worker) := by
  cases worker with
  | reply group own => exact serveClient_move s n (valid 0) own destination rfl
  | unicast group own => exact serveClient_move s n (valid 0) own destination rfl
  | multicast group => exact serveGroup_move s n valid group destination

/-! ### The invariant -/

/-- What every step keeps. -/
structure SubscriptionsInv (s : Subscriptions) : Prop where
  transactions : NoCallbacks s.server.transactions
  queues : s.server.queues.WellFormed
  subscribers : s.server.subscribers = []
  destinations : ∀ worker ∈ s.server.workers.workers, ∃ destination,
    s.server.workers.destination worker = some destination ∧ (0 : UInt8) ∉ destination
  threads : s.threads.length = s.server.workers.workers.length
  clients : ∀ group, (s.clients group).length =
    (s.server.workers.clients (.multicast group)).length

theorem subscriptionsInv_start (datadir : List UInt8) (disk : List UInt8 → Option QueueFiles) :
    SubscriptionsInv (Subscriptions.start (Server.init datadir disk)) where
  transactions := (init_freshServer datadir disk).transactions
  queues := (init_freshServer datadir disk).queues
  subscribers := rfl
  destinations := by simp [Subscriptions.start, Server.init]
  threads := rfl
  clients _ := rfl

variable {env : ServerEnv} {s next : Subscriptions}

theorem SubscriptionsInv.serve (inv : SubscriptionsInv s) {n : Nat} {worker : Worker}
    {destination : List UInt8} (move : ServeMove s n worker destination next) :
    SubscriptionsInv next where
  transactions := by rw [move.transactions]; exact inv.transactions
  queues := by
    rcases move.queues with same | taken
    · rw [same]
      exact inv.queues
    · rw [taken]
      exact inv.queues.dequeue destination
  subscribers := move.subscribers.1.trans inv.subscribers
  destinations := by
    rw [move.threads]
    intro other mem
    rw [move.destinations]
    exact inv.destinations other mem
  threads := by rw [move.numbers, move.threads]; exact inv.threads
  clients group := move.parallel group (inv.clients group)

theorem SubscriptionsInv.handle (inv : SubscriptionsInv s) {object : FrameObject}
    (taken : subscriptionStep env s (.handle object) = some next) : SubscriptionsInv next := by
  obtain ⟨received, taken⟩ := Option.ite_none_right_eq_some.mp taken
  obtain ⟨server, handled, rfl⟩ := Option.map_eq_some_iff.mp taken
  have step := handleFrame_handled inv.transactions handled
  constructor
  case transactions => exact (handleFrame_enqueued received inv.transactions handled).2
  case queues => exact step.wellFormed inv.queues
  case subscribers => exact (handleFrame_subscribers inv.transactions inv.subscribers handled).1.1
  case destinations =>
    intro worker mem
    rcases step.thread mem with old | ⟨destination, asked, serves⟩
    · obtain ⟨served, serves, clean⟩ := inv.destinations worker old
      exact ⟨served, step.serves serves, clean⟩
    · exact ⟨destination, serves, zero_not_mem_asked asked⟩
  case threads =>
    have longer := step.threads.length_le
    simp only [List.length_append, List.length_replicate, inv.threads]
    omega
  case clients =>
    intro group
    have longer := (step.clients (.multicast group)).length_le
    simp only [recordClients, List.length_append, List.length_replicate, inv.clients group]
    omega

theorem subscriptionsInv_step (s : Subscriptions) (action : SubscriptionAction)
    (next : Subscriptions) (inv : SubscriptionsInv s) (_ : Always s action)
    (taken : subscriptionStep env s action = some next) : SubscriptionsInv next := by
  cases action with
  | handle object => exact inv.handle taken
  | serve n valid =>
      obtain ⟨_, taken⟩ := Option.ite_none_right_eq_some.mp taken
      obtain ⟨worker, _, taken⟩ := Option.bind_eq_some_iff.mp taken
      obtain ⟨destination, _, rfl⟩ := Option.map_eq_some_iff.mp taken
      exact inv.serve (serveStep_move s n valid destination worker)

/-! ### Subscriptions that no thread serves -/

/-- Handling a frame makes no thread serve a subscription that was there. -/
theorem SubscriptionsInv.serves_handle (inv : SubscriptionsInv s) {object : FrameObject}
    (taken : subscriptionStep env s (.handle object) = some next) {k : Nat}
    (old : k < s.handled.length) (serves : next.Serves k) : s.Serves k := by
  obtain ⟨received, taken⟩ := Option.ite_none_right_eq_some.mp taken
  obtain ⟨server, handled, rfl⟩ := Option.map_eq_some_iff.mp taken
  obtain ⟨change, _⟩ := handleFrame_change inv.transactions handled
  have cancelled := (handleFrame_subscribers inv.transactions inv.subscribers handled).1.2
  obtain ⟨n, worker, thread, running, alive, mem⟩ := serves
  simp only at thread running alive
  rw [cancelled] at alive
  -- the number of the new subscription is another one
  have apart : ∀ count, some k ∉ List.replicate count
      ((subscriptionOf object.frame).map fun _ => s.handled.length) := by
    intro count mem
    obtain ⟨_, same⟩ := List.mem_replicate.mp mem
    obtain ⟨_, _, rfl⟩ := Option.map_eq_some_iff.mp same.symm
    exact Nat.lt_irrefl _ old
  have threads := (handleFrame_handled inv.transactions handled).threads
  have before : n < s.server.workers.workers.length →
      s.server.workers.workers[n]? = some worker := by
    intro inside
    rw [← thread, List.prefix_iff_getElem?.mp threads n inside]
    exact List.getElem?_eq_getElem inside
  -- the threads that have this number were there
  have own : ∀ count, (s.threads ++ List.replicate count
      ((subscriptionOf object.frame).map fun _ => s.handled.length))[n]?.join = some k →
      n < s.server.workers.workers.length ∧ s.threads[n]?.join = some k := by
    intro count number
    by_cases inside : n < s.threads.length
    · rw [List.getElem?_append_left inside] at number
      exact ⟨inv.threads ▸ inside, number⟩
    · rw [List.getElem?_append_right (Nat.le_of_not_lt inside)] at number
      have here := Option.join_eq_some_iff.mp number
      exact absurd (List.mem_of_getElem? here) (apart count)
  cases worker with
  | reply group client =>
      obtain ⟨inside, number⟩ := own _ (List.mem_singleton.mp mem).symm
      exact ⟨n, _, before inside, running, alive, List.mem_singleton.mpr number.symm⟩
  | unicast group client =>
      obtain ⟨inside, number⟩ := own _ (List.mem_singleton.mp mem).symm
      exact ⟨n, _, before inside, running, alive, List.mem_singleton.mpr number.symm⟩
  | multicast group =>
      have old : some k ∈ s.clients group := by
        rcases List.mem_append.mp mem with old | new
        · exact old
        · exact absurd new (apart _)
      have inside : n < s.server.workers.workers.length := by
        by_contra outside
        have empty := change.newThread (Nat.le_of_not_lt outside) thread
        have length := inv.clients group
        rw [empty, List.length_nil] at length
        rw [List.eq_nil_of_length_eq_zero length] at old
        cases old
      exact ⟨n, _, before inside, running, alive, old⟩

/-- A pass of a thread makes no thread serve more. -/
theorem ServeMove.serves {n : Nat} {worker : Worker} {destination : List UInt8}
    (move : ServeMove s n worker destination next) {k : Nat} (serves : next.Serves k) : s.Serves k := by
  obtain ⟨m, other, thread, running, alive, mem⟩ := serves
  rw [move.threads] at thread
  rw [move.subscribers.2] at alive
  refine ⟨m, other, thread, move.running m running, alive, ?_⟩
  cases other with
  | reply group own => simpa [Subscriptions.served, move.numbers] using mem
  | unicast group own => simpa [Subscriptions.served, move.numbers] using mem
  | multicast group => exact move.fewer group mem

/-- A pass of a thread sends nothing for a subscription that no thread serves. -/
theorem ServeMove.sentFor {n : Nat} {worker : Worker} {destination : List UInt8}
    (move : ServeMove s n worker destination next)
    (thread : s.server.workers.workers[n]? = some worker) (running : s.ended n = false)
    (alive : n ∉ s.server.cancelled) {k : Nat} (unserved : ¬ s.Serves k) :
    next.sentFor k = s.sentFor k := by
  obtain ⟨numbers, among, object, sent⟩ := move.sent
  have none : (sentTo numbers object).filter (fun entry => entry.1 = k) = [] := by
    rw [List.filter_eq_nil_iff]
    intro entry mem same
    obtain ⟨number, here, found⟩ := List.mem_filterMap.mp mem
    obtain ⟨_, rfl, rfl⟩ := Option.map_eq_some_iff.mp found
    obtain rfl : _ = k := of_decide_eq_true same
    exact unserved ⟨n, worker, thread, running, alive, among here⟩
  rw [Subscriptions.sentFor, sent, List.filter_append, none, List.append_nil, Subscriptions.sentFor]

theorem unserved_step (inv : SubscriptionsInv s) {action : SubscriptionAction}
    (taken : subscriptionStep env s action = some next) {k : Nat} (old : k < s.handled.length)
    (unserved : ¬ s.Serves k) :
    k < next.handled.length ∧ ¬ next.Serves k ∧ next.sentFor k = s.sentFor k := by
  cases action with
  | handle object =>
      refine ⟨?_, fun serves => unserved (inv.serves_handle taken old serves), ?_⟩
      · obtain ⟨received, taken⟩ := Option.ite_none_right_eq_some.mp taken
        obtain ⟨server, handled, rfl⟩ := Option.map_eq_some_iff.mp taken
        exact Nat.lt_of_lt_of_le old (by simp)
      · obtain ⟨received, taken⟩ := Option.ite_none_right_eq_some.mp taken
        obtain ⟨server, handled, rfl⟩ := Option.map_eq_some_iff.mp taken
        rfl
  | serve n valid =>
      obtain ⟨⟨running, alive⟩, taken⟩ := Option.ite_none_right_eq_some.mp taken
      obtain ⟨worker, thread, taken⟩ := Option.bind_eq_some_iff.mp taken
      obtain ⟨destination, _, rfl⟩ := Option.map_eq_some_iff.mp taken
      have move := serveStep_move s n valid destination worker
      exact ⟨by rw [move.handled]; exact old, fun serves => unserved (move.serves serves),
        move.sentFor thread running alive unserved⟩

/-- Nothing is ever sent again for a subscription that no thread serves. -/
theorem unserved_run {k : Nat} (inv : SubscriptionsInv s) (old : k < s.handled.length)
    (unserved : ¬ s.Serves k) {later : Subscriptions}
    (reached : Reaches (subscriptionStep env) Always s later) : later.sentFor k = s.sentFor k := by
  have kept := @Transition.Reaches.invariant _ _ _ _ (fun state => SubscriptionsInv state ∧
    k < state.handled.length ∧ ¬ state.Serves k ∧ state.sentFor k = s.sentFor k)
    (fun state action next ⟨inv, old, unserved, same⟩ always taken => by
      obtain ⟨old', unserved', same'⟩ := unserved_step inv taken old unserved
      exact ⟨subscriptionsInv_step state action next inv always taken, old', unserved',
        same'.trans same⟩) _ _ reached ⟨inv, old, unserved, rfl⟩
  exact kept.2.2.2

/-! ### `UNSUBSCRIBE` -/

theorem not_send_subscribe {name : List UInt8}
    (unsubscribe : (cstring "UNSUBSCRIBE").isPrefixOf name = true) :
    (cstring "SEND").isPrefixOf name = false ∧ (cstring "SUBSCRIBE").isPrefixOf name = false := by
  obtain ⟨rest, rfl⟩ := List.isPrefixOf_iff_prefix.mp unsubscribe
  exact ⟨rfl, rfl⟩

/-- A frame that asks for no subscription and leaves the threads and the groups as they are. -/
theorem handle_others {object : FrameObject} (received : object.Received) {server : Server}
    (handled : handleFrame env object s.server = some server)
    (workers : server.workers = s.server.workers) (none : subscriptionOf object.frame = .none) :
    subscriptionStep env s (.handle object) = some { s with server := server } := by
  have clients : recordClients s.server.workers s.server.workers .none s.clients = s.clients := by
    funext group
    simp [recordClients]
  have received : object.frame.transactionCallback = .none := received
  simp [subscriptionStep, received, handled, none, workers, clients]

/-- `UNSUBSCRIBE` leaves the threads, the groups and the queues as they are. -/
theorem SubscriptionsInv.unsubscribe (inv : SubscriptionsInv s) {object : FrameObject}
    (name : (cstring "UNSUBSCRIBE").isPrefixOf object.frame.name = true)
    (taken : subscriptionStep env s (.handle object) = some next) :
    ∃ server, next = { s with server := server } ∧ server.workers = s.server.workers ∧
      server.queues = s.server.queues ∧ server.cancelled = s.server.cancelled := by
  obtain ⟨notSend, notSubscribe⟩ := not_send_subscribe name
  obtain ⟨received, step⟩ := Option.ite_none_right_eq_some.mp taken
  obtain ⟨server, handled, _⟩ := Option.map_eq_some_iff.mp step
  obtain ⟨⟨_, cancelled⟩, other⟩ :=
    handleFrame_subscribers inv.transactions inv.subscribers handled
  obtain ⟨workers, queues⟩ := other notSend notSubscribe
  have none : subscriptionOf object.frame = .none := by
    rw [subscriptionOf, notSubscribe]
    rfl
  exact ⟨server, Option.some.inj (taken.symm.trans (handle_others received handled workers none)),
    workers, queues, cancelled⟩

/-- The same threads serve the same subscriptions. -/
theorem serves_congr {server : Server} (workers : server.workers = s.server.workers)
    (cancelled : server.cancelled = s.server.cancelled) (k : Nat) :
    ({ s with server := server } : Subscriptions).Serves k ↔ s.Serves k := by
  simp only [Subscriptions.Serves, workers, cancelled]
  exact Iff.rfl

/-- A `SEND` frame for a destination. -/
def sendFor (destination : List UInt8) : FrameObject where
  address := 0
  frame :=
    { allocFrame with
      name := cstring "SEND"
      cinfo := some []
      hAttrs := [⟨destinationName ++ destination, (destinationName ++ destination).length⟩] }

theorem cstr_append_zeros {text : List UInt8} (clean : (0 : UInt8) ∉ text) (n : Nat) :
    cstr (text ++ List.replicate n 0) = text := by
  have zeros : cstr (List.replicate n 0) = [] := by cases n <;> rfl
  rw [cstr, List.takeWhile_append_of_pos, ← cstr, zeros, List.append_nil]
  intro c mem
  simp only [decide_eq_true_eq]
  rintro rfl
  exact clean mem

/-- The header line of such a frame names the destination and nothing else. -/
theorem sendAttrinfo_sendFor (destination : List UInt8) (clean : (0 : UInt8) ∉ destination) :
    sendAttrinfo [] (sendFor destination).frame =
      (.success, (sendFor destination).frame.hAttrs,
        { cinfoId := [], qname := some destination, tid := none, receiptId := none,
          replyTo := none }) := by
  let line : Linedata := ⟨destinationName ++ destination, (destinationName ++ destination).length⟩
  have memory : line.memory = destinationName ++ (destination ++
      List.replicate (LD_MAX - (destinationName ++ destination).length) 0) :=
    List.append_assoc _ _ _
  have named : lineValue destinationName line = some destination := by
    rw [lineValue, memory, if_pos (List.isPrefixOf_iff_prefix.mpr (List.prefix_append _ _)),
      List.drop_left, cstr_append_zeros clean]
  have apart : lineValue (cstring "transaction:") line = none ∧
      lineValue (cstring "receipt:") line = none ∧ replyToName.isPrefixOf line.memory = false := by
    rw [lineValue, lineValue, memory]
    exact ⟨rfl, rfl, rfl⟩
  have applied : ∀ info : SendAttrinfo, applyHandlers sendHandlers line info =
      (.success, line, { info with qname := some destination }) := by
    intro info
    rw [sendHandlers, applyHandlers_store, applyHandlers_store, applyHandlers_store, apart.1,
      apart.2.1, show cstring "destination:" = destinationName from rfl, named]
    simp [applyHandlers, apart.2.2]
  simp only [sendAttrinfo, sendFor, iterateHeader]
  rw [show (⟨destinationName ++ destination, (destinationName ++ destination).length⟩ : Linedata) = line
    from rfl, applied]

/-- A frame that is sent to a destination comes into its queue. -/
theorem handle_sendFor (env : ServerEnv) (server : Server) {destination : List UInt8}
    (clean : (0 : UInt8) ∉ destination) :
    ∃ next accepted, handleFrame env (sendFor destination) server = some next ∧
      next.workers = server.workers ∧ next.cancelled = server.cancelled ∧
      next.queues = (enqueue (some accepted) destination server.queues).2 := by
  have found : findHandler (sendFor destination).frame.name = some handlerStompSend := rfl
  have attrs := sendAttrinfo_sendFor destination clean
  rw [handleFrame, found]
  simp only [handlerStompSend, show (sendFor destination).frame.cinfo = some [] from rfl, attrs]
  exact ⟨_, _, rfl, rfl, rfl, rfl⟩

/-- When a frame waits and all clients are valid, the frame is sent to all that the thread serves. -/
theorem serveStep_sent {n : Nat} {worker : Worker} {destination : List UInt8} {object : FrameObject}
    {queues : QueueStore FrameObject}
    (waits : dequeue destination s.server.queues = (some object, queues))
    (clients : s.server.workers.clients worker ≠ []) :
    (serveStep s n (fun _ => true) destination worker).sent =
      s.sent ++ sentTo (s.served n worker) object := by
  cases worker with
  | reply group own => simp [serveStep, serveClient, waits, Subscriptions.served]
  | unicast group own => simp [serveStep, serveClient, waits, Subscriptions.served]
  | multicast group => simp [serveStep, serveGroup, waits, clients, Subscriptions.served]

/-- Whatever a running thread serves may be sent another frame. -/
theorem SubscriptionsInv.sends (inv : SubscriptionsInv s) {k : Nat} (serves : s.Serves k)
    (env : ServerEnv) : ∃ later, Reaches (subscriptionStep env) Always s later ∧
      later.sentFor k ≠ s.sentFor k := by
  obtain ⟨n, worker, thread, running, alive, mem⟩ := serves
  obtain ⟨destination, named, clean⟩ := inv.destinations worker (List.mem_of_getElem? thread)
  obtain ⟨server, accepted, handled, workers, cancelled, queues⟩ :=
    handle_sendFor env s.server clean
  -- a frame is sent to the destination
  have received : (sendFor destination).Received := rfl
  have sent : subscriptionStep env s (.handle (sendFor destination)) =
      some { s with server := server } := handle_others received handled workers rfl
  have wf : server.queues.WellFormed := by
    rw [queues]
    exact inv.queues.enqueue accepted destination
  have waiting : contents (getHash destination) server.queues ≠ [] := by
    rw [queues, contents_enqueue inv.queues, if_pos rfl]
    exact List.append_ne_nil_of_right_ne_nil _ (List.cons_ne_nil _ _)
  obtain ⟨object, more, here⟩ := List.exists_cons_of_ne_nil waiting
  have waits : dequeue destination server.queues =
      (some object, (dequeue destination server.queues).2) := by
    have first := dequeue_fst wf destination
    rw [here] at first
    exact Prod.ext first rfl
  -- and the thread takes it, or one that waited before it
  have clients : server.workers.clients worker ≠ [] := by
    rw [workers]
    cases worker with
    | reply group own => simp [WorkerManager.clients]
    | unicast group own => simp [WorkerManager.clients]
    | multicast group =>
        intro none
        have length := inv.clients group
        rw [none, List.length_nil] at length
        rw [Subscriptions.served, List.eq_nil_of_length_eq_zero length] at mem
        cases mem
  have serve : subscriptionStep env { s with server := server } (.serve n fun _ => true) =
      some (serveStep { s with server := server } n (fun _ => true) destination worker) := by
    simp [subscriptionStep, running, cancelled, alive, workers, thread, named]
  refine ⟨_, Relation.ReflTransGen.head ⟨_, trivial, sent⟩
    (Relation.ReflTransGen.single ⟨_, trivial, serve⟩), ?_⟩
  have all := serveStep_sent (s := { s with server := server }) (n := n) waits clients
  intro same
  rw [Subscriptions.sentFor, all, List.filter_append, Subscriptions.sentFor] at same
  have none := List.append_right_eq_self.mp same
  have recorded : (k, object.address) ∈
      sentTo (Subscriptions.served { s with server := server } n worker) object :=
    List.mem_filterMap.mpr ⟨some k, mem, rfl⟩
  exact List.filter_eq_nil_iff.mp none _ recorded (by simp)

/-- `UNSUBSCRIBE` with the id of a subscription stops it and nothing else, if and only if no running
thread served the subscription any more. -/
theorem unsubscribe_stops_iff (env : ServerEnv) (datadir : List UInt8)
    (disk : List UInt8 → Option QueueFiles) {s next : Subscriptions}
    (reached : Reaches (subscriptionStep env) Always
      (Subscriptions.start (Server.init datadir disk)) s)
    {k : Nat} {subscription : Subscription} (subscribed : s.handled[k]? = some subscription)
    {object : FrameObject} (asks : Unsubscribes object.frame subscription)
    (taken : subscriptionStep env s (.handle object) = some next) :
    StopsAlone env s next k ↔ ¬ s.Serves k := by
  have inv : SubscriptionsInv s :=
    reached.invariant subscriptionsInv_step (subscriptionsInv_start datadir disk)
  have invNext := subscriptionsInv_step s (.handle object) next inv trivial taken
  obtain ⟨inside, _⟩ := List.getElem?_eq_some_iff.mp subscribed
  obtain ⟨server, rfl, workers, queues, cancelled⟩ := inv.unsubscribe asks.1 taken
  have same := serves_congr workers cancelled
  constructor
  · intro stops serves
    obtain ⟨later, goesOn, more⟩ := invNext.sends ((same k).mpr serves) env
    exact more (stops.silent later goesOn)
  · intro unserved
    constructor
    · exact fun later goesOn => unserved_run invNext inside (fun serves => unserved ((same k).mp serves))
        goesOn
    · exact queues
    · exact fun j _ => ⟨same j, rfl⟩

/-- A frame of the client on descriptor 4, with these header lines. -/
def clientFrame (name : List UInt8) (lines : List (List UInt8)) : FrameObject where
  address := 1
  frame :=
    { allocFrame with
      name := name
      sock := 4
      cinfo := some (cstring "one")
      hAttrs := lines.map fun line => ⟨line, line.length⟩ }

def subscribeOne : FrameObject :=
  clientFrame (cstring "SUBSCRIBE") [cstring "destination:q", cstring "id:7"]

def unsubscribeOne : FrameObject :=
  clientFrame (cstring "UNSUBSCRIBE") [cstring "id:7"]

/-- A server that has just started. -/
def noSubscriptions : Subscriptions :=
  Subscriptions.start (Server.init (cstring "data") fun _ => none)

/-- The descriptor is closed before the client's `UNSUBSCRIBE` is handled. -/
theorem unsubscribe_stops_closed : ∃ s next,
    subscriptionStep quietEnv s (.handle unsubscribeOne) = some next ∧
      (StopsAlone quietEnv s next 0 ↔ ¬ s.Serves 0) ∧ ¬ s.Serves 0 := by
  have result : (Transition.run (subscriptionStep quietEnv) noSubscriptions
      [.handle subscribeOne, .serve 0 fun _ => false]).map
        (fun s => (s.handled, s.server.workers.workers.length, s.ended 0,
          (subscriptionStep quietEnv s (.handle unsubscribeOne)).isSome)) =
      some ([⟨4, some (cstring "one"), some (cstring "7"), cstring "q"⟩], 1, true, true) := by
    decide +kernel
  obtain ⟨s, taken, seen⟩ := Option.map_eq_some_iff.mp result
  simp only [Prod.mk.injEq] at seen
  obtain ⟨handled, threads, ended, goesOn⟩ := seen
  obtain ⟨next, step⟩ := Option.isSome_iff_exists.mp goesOn
  have reached := Transition.reaches_of_run taken
  have asks : Unsubscribes unsubscribeOne.frame
      ⟨4, some (cstring "one"), some (cstring "7"), cstring "q"⟩ := by
    refine ⟨?_, rfl, rfl, ?_, ?_⟩ <;> decide +kernel
  refine ⟨s, next, step, unsubscribe_stops_iff quietEnv (cstring "data") (fun _ => none) reached
    (by rw [handled]; rfl) asks step, ?_⟩
  rintro ⟨n, worker, thread, running, _⟩
  obtain ⟨inside, _⟩ := List.getElem?_eq_some_iff.mp thread
  obtain rfl : n = 0 := by omega
  rw [ended] at running
  cases running

/-- The client is still connected: after its `UNSUBSCRIBE`, another frame is sent for the subscription. -/
theorem unsubscribe_ignored :
    ¬ ∀ s next k subscription object,
      Reaches (subscriptionStep quietEnv) Always noSubscriptions s →
      s.handled[k]? = some subscription → Unsubscribes object.frame subscription →
      subscriptionStep quietEnv s (.handle object) = some next → StopsAlone quietEnv s next k := by
  intro always
  have result : ((subscriptionStep quietEnv noSubscriptions (.handle subscribeOne)).bind fun s =>
      (subscriptionStep quietEnv s (.handle unsubscribeOne)).bind fun next =>
        (Transition.run (subscriptionStep quietEnv) next
          [.handle (sendFor (cstring "q")), .serve 0 fun _ => true]).map fun later =>
            (s.handled, next.sentFor 0, later.sentFor 0)) =
      some ([⟨4, some (cstring "one"), some (cstring "7"), cstring "q"⟩], [], [(0, 0)]) := by
    decide +kernel
  obtain ⟨s, first, rest⟩ := Option.bind_eq_some_iff.mp result
  obtain ⟨next, second, rest⟩ := Option.bind_eq_some_iff.mp rest
  obtain ⟨later, taken, seen⟩ := Option.map_eq_some_iff.mp rest
  simp only [Prod.mk.injEq] at seen
  obtain ⟨handled, before, after⟩ := seen
  have asks : Unsubscribes unsubscribeOne.frame
      ⟨4, some (cstring "one"), some (cstring "7"), cstring "q"⟩ := by
    refine ⟨?_, rfl, rfl, ?_, ?_⟩ <;> decide +kernel
  have stops := always s next 0 _ unsubscribeOne
    (Relation.ReflTransGen.single ⟨_, trivial, first⟩) (by rw [handled]; rfl) asks second
  have silent := stops.silent later (Transition.reaches_of_run taken)
  rw [before, after] at silent
  cases silent

end Newtmq
