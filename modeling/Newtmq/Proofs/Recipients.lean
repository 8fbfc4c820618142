/-
Module: Newtmq.Proofs.Recipients
Purpose: The runs of the connections and of the sending workers. While no number of a descriptor is
  mistaken for another connection, each message is written only to connections that have asked for its
  destination.
Trusted boundary: none
Main exports: SenderMove, senderStep_move, RecipientsInv, recipientsInv_step, only_asked_connections
-/
import Newtmq.Spec.Recipients
import Newtmq.Proofs.Registration
import Newtmq.Proofs.DeliverySteps

namespace Newtmq

open Transition (Reaches)

/-! ### Steps of a sending worker -/

/-- What a step of the thread `n` does: it refers to no new descriptors, has at most the frame that it
dequeues, and writes parts of its frame to descriptors that it refers to. -/
structure SenderMove (s : Connections) (n : Nat) (worker : Worker) (destination : List UInt8)
    (next : Connections) : Prop where
  running : (s.senders n).hasEnded = false
  owner : next.owner = s.owner
  bucket : next.bucket = s.bucket
  asked : next.asked = s.asked
  mentioned : next.mentioned = s.mentioned
  transactions : next.server.transactions = s.server.transactions
  threads : next.server.workers.workers = s.server.workers.workers
  destinations : ∀ other, next.server.workers.destination other = s.server.workers.destination other
  others : ∀ m, m ≠ n → next.senders m = s.senders m
  sockets : ∀ m other, (m = n → other = worker) → next.sockets m other ⊆ s.sockets m other
  queues : next.server.queues = s.server.queues ∨
    next.server.queues = (dequeue destination s.server.queues).2
  object : ∀ object, (next.senders n).object = some object → (s.senders n).object = some object ∨
    (dequeue destination s.server.queues).1 = some object
  written : ∀ entry ∈ next.written, entry ∈ s.written ∨
    (s.senders n).object = some entry.2 ∧ ∃ sock ∈ s.sockets n worker, s.owner sock = some entry.1

/-- A step that leaves the connections and the threads as they are. -/
theorem senderMove_of {s : Connections} {n : Nat} {worker : Worker} {destination : List UInt8}
    {server : Server} {written : List (Nat × FrameObject)} {point : SenderPoint}
    (running : (s.senders n).hasEnded = false)
    (transactions : server.transactions = s.server.transactions)
    (threads : server.workers.workers = s.server.workers.workers)
    (destinations : ∀ other, server.workers.destination other = s.server.workers.destination other)
    (clients : ∀ other, server.workers.clients other ⊆ s.server.workers.clients other)
    (calls : ∀ call ∈ point.calls, call.sock ∈ s.sockets n worker)
    (queues : server.queues = s.server.queues ∨
      server.queues = (dequeue destination s.server.queues).2)
    (object : ∀ object, point.object = some object → (s.senders n).object = some object ∨
      (dequeue destination s.server.queues).1 = some object)
    (writes : ∀ entry ∈ written, entry ∈ s.written ∨
      (s.senders n).object = some entry.2 ∧ ∃ sock ∈ s.sockets n worker, s.owner sock = some entry.1) :
    SenderMove s n worker destination
      ({ s with server := server, written := written }.setSender n point) where
  running := running
  owner := rfl
  bucket := rfl
  asked := rfl
  mentioned := rfl
  transactions := transactions
  threads := threads
  destinations := destinations
  others m apart := Function.update_of_ne apart _ _
  sockets m other same := by
    intro sock mem
    rcases List.mem_append.mp mem with ofClient | ofCall
    · exact List.mem_append_left _ (List.map_subset _ (clients other) ofClient)
    · by_cases here : m = n
      · subst here
        obtain ⟨call, memCall, rfl⟩ := List.mem_map.mp ofCall
        simp only [Connections.setSender, Function.update_self] at memCall
        rw [same rfl]
        exact calls call memCall
      · simp only [Connections.setSender, Function.update_of_ne here] at ofCall
        exact List.mem_append_right _ ofCall
  queues := queues
  object found := by
    simp only [Connections.setSender, Function.update_self]
    exact object found
  written := writes

theorem sock_mem_sockets {s : Connections} (n : Nat) {worker : Worker} {client : ClientInfo}
    (mem : client ∈ s.server.workers.clients worker) : client.sock ∈ s.sockets n worker :=
  List.mem_append_left _ (List.mem_map_of_mem mem)

/-- A worker begins to send with calls for its client, or with none. -/
theorem beginSending_calls (s : Connections) (n : Nat) (worker : Worker) (object : FrameObject) :
    (beginSending s.server.workers object worker).object = some object ∧
      ∀ call ∈ (beginSending s.server.workers object worker).calls, call.sock ∈ s.sockets n worker := by
  cases worker with
  | reply group client =>
      refine ⟨rfl, fun call mem => ?_⟩
      rw [stompSendMessage_sock _ _ _ call mem]
      exact sock_mem_sockets n List.mem_cons_self
  | unicast group client =>
      refine ⟨rfl, fun call mem => ?_⟩
      rw [stompSendMessage_sock _ _ _ call mem]
      exact sock_mem_sockets n List.mem_cons_self
  | multicast group => exact ⟨rfl, fun call mem => absurd mem List.not_mem_nil⟩

/-- A client that is removed is missed only in the list of its group. -/
theorem clients_removeClient (manager : WorkerManager) (place : Nat) (worker other : Worker) :
    (manager.removeClient place worker).destination other = manager.destination other ∧
      (manager.removeClient place worker).clients other ⊆ manager.clients other := by
  cases worker with
  | reply group client => exact ⟨rfl, fun _ mem => mem⟩
  | unicast group client => exact ⟨rfl, fun _ mem => mem⟩
  | multicast group =>
      constructor
      · simp only [WorkerManager.destination, WorkerManager.removeClient, List.getElem?_modify]
        cases manager.groups[other.group]? with
        | none => rfl
        | some found => by_cases same : group = other.group <;> simp [same]
      · cases other with
        | reply _ _ => exact fun _ mem => mem
        | unicast _ _ => exact fun _ mem => mem
        | multicast g =>
            simp only [WorkerManager.clients, WorkerManager.removeClient, List.getElem?_modify]
            cases manager.groups[g]? with
            | none => exact fun _ mem => mem
            | some found =>
                by_cases same : group = g
                · simpa [same] using List.eraseIdx_subset
                · simp [same]

theorem endPass_server (destination : List UInt8) (object : FrameObject) (server : Server)
    (worker : Worker) :
    (endPass destination object server worker).workers = server.workers ∧
      (endPass destination object server worker).queues = server.queues ∧
      (endPass destination object server worker).transactions = server.transactions := by
  cases worker <;> exact ⟨rfl, rfl, rfl⟩

theorem senderStep_move {s next : Connections} {n : Nat} {worker : Worker} {destination : List UInt8}
    {action : ConnectionsAction} (taken : senderStep s n worker destination action = some next) :
    SenderMove s n worker destination next := by
  have sameWritten : ∀ entry ∈ s.written, entry ∈ s.written ∨
      (s.senders n).object = some entry.2 ∧ ∃ sock ∈ s.sockets n worker, s.owner sock = some entry.1 :=
    fun _ mem => Or.inl mem
  cases action with
  | check m error =>
      simp only [senderStep] at taken
      split at taken
      · next point =>
          cases taken
          refine senderMove_of (by rw [point]; rfl) rfl rfl (fun _ => rfl) (fun _ _ mem => mem) ?_
            (Or.inl rfl) ?_ sameWritten
          · split <;> exact fun call mem => absurd mem List.not_mem_nil
          · split <;> exact fun object found => by cases found
      · cases taken
  | dequeue m =>
      simp only [senderStep] at taken
      split at taken
      · next point =>
          split at taken
          · next queues got =>
              cases taken
              exact senderMove_of (by rw [point]; rfl) rfl rfl (fun _ => rfl) (fun _ _ mem => mem)
                (fun call mem => absurd mem List.not_mem_nil) (Or.inr (by rw [got]))
                (fun object found => by cases found) sameWritten
          · next object queues got =>
              cases taken
              obtain ⟨begins, calls⟩ := beginSending_calls s n _ object
              refine senderMove_of (by rw [point]; rfl) rfl rfl (fun _ => rfl) (fun _ _ mem => mem)
                calls (Or.inr (by rw [got])) (fun other found => Or.inr ?_) sameWritten
              rw [got, ← found, begins]
      · cases taken
  | visit m error =>
      simp only [senderStep] at taken
      split at taken
      · next object place more point =>
          obtain ⟨client, here, same⟩ := Option.map_eq_some_iff.mp taken
          have has : (s.senders n).object = some object := by rw [point]; rfl
          have running : (s.senders n).hasEnded = false := by rw [point]; rfl
          split at same
          · cases same
            refine senderMove_of running rfl rfl (fun _ => rfl) (fun _ _ mem => mem)
              (fun call mem => ?_) (Or.inl rfl) (fun other found => Or.inl ?_) sameWritten
            · rw [stompSendMessage_sock _ _ _ call mem]
              exact sock_mem_sockets n (List.mem_of_getElem? here)
            · cases found
              exact has
          · cases same
            refine senderMove_of running rfl ?_
              (fun other => (clients_removeClient _ place worker other).1)
              (fun other => (clients_removeClient _ place worker other).2) ?_ (Or.inl rfl) ?_
              sameWritten
            · cases worker <;> rfl
            · split <;> exact fun call mem => absurd mem List.not_mem_nil
            · intro other found
              left
              split at found <;> cases found <;> exact has
      · cases taken
  | call m =>
      simp only [senderStep] at taken
      split at taken
      · next object onward call calls point =>
          cases taken
          have has : (s.senders n).object = some object := by rw [point]; rfl
          have refers : ∀ other ∈ call :: calls, other.sock ∈ s.sockets n worker := by
            intro other mem
            apply List.mem_append_right
            rw [point]
            exact List.mem_map_of_mem mem
          refine senderMove_of (by rw [point]; rfl) rfl rfl (fun _ => rfl) (fun _ _ mem => mem)
            (fun other mem => refers other (List.mem_cons_of_mem _ mem)) (Or.inl rfl)
            (fun other found => Or.inl ?_) ?_
          · cases found
            exact has
          · intro entry mem
            rcases List.mem_append.mp mem with old | new
            · exact Or.inl old
            · obtain ⟨connection, owns, rfl⟩ := List.mem_map.mp new
              exact Or.inr ⟨has, call.sock, refers call List.mem_cons_self, Option.mem_toList.mp owns⟩
      · cases taken
  | finish m =>
      simp only [senderStep] at taken
      split at taken
      · next object place point =>
          cases taken
          have has : (s.senders n).object = some object := by rw [point]; rfl
          refine senderMove_of (by rw [point]; rfl) rfl rfl (fun _ => rfl) (fun _ _ mem => mem)
            (fun call mem => absurd mem List.not_mem_nil) (Or.inl rfl)
            (fun other found => Or.inl ?_) sameWritten
          cases found
          exact has
      · next object point =>
          cases taken
          obtain ⟨workers, queues, transactions⟩ := endPass_server destination object s.server worker
          exact senderMove_of (by rw [point]; rfl) transactions (by rw [workers])
            (fun _ => by rw [workers]) (fun _ => by rw [workers]; exact fun _ mem => mem)
            (fun call mem => absurd mem List.not_mem_nil) (Or.inl queues)
            (fun other found => by cases found) sameWritten
      · cases taken
  | accept sock => cases taken
  | close sock => cases taken
  | receive object => cases taken
  | manage => cases taken

/-! ### The invariant -/

/-- Each descriptor that something refers to, when it is open, is one of a connection that has asked
for what will be done with it. -/
structure RecipientsInv (s : Connections) : Prop where
  transactions : NoCallbacks s.server.transactions
  queues : s.server.queues.WellFormed
  apart : HashApart s.mentioned
  filed : ∀ hashnum, ∀ object ∈ contents hashnum s.server.queues, ∃ destination ∈ s.mentioned,
    object.frame.destination = some destination ∧ getHash destination = hashnum
  received : ∀ object ∈ s.bucket, object.Received
  mentions : ∀ object ∈ s.bucket, object.frame.mentions ⊆ s.mentioned
  senders : ∀ object ∈ s.bucket, ∀ connection, s.owner object.frame.sock = some connection →
    ∀ destination ∈ askedFor object.frame, (connection, destination) ∈ s.asked
  served : ∀ worker ∈ s.server.workers.workers, ∃ destination ∈ s.mentioned,
    s.server.workers.destination worker = some destination
  clients : ∀ (n : Nat) worker, s.server.workers.workers[n]? = some worker →
    (s.senders n).hasEnded = false → ∀ sock ∈ s.sockets n worker, ∀ connection,
      s.owner sock = some connection → ∀ destination,
        s.server.workers.destination worker = some destination → (connection, destination) ∈ s.asked
  sending : ∀ (n : Nat) worker, s.server.workers.workers[n]? = some worker → ∀ object,
    (s.senders n).object = some object →
      object.frame.destination = s.server.workers.destination worker
  unborn : ∀ n, s.server.workers.workers.length ≤ n → s.senders n = .loop
  written : OnlyAsked s

theorem recipientsInv_start {server : Server} {names : List (List UInt8)}
    (fresh : FreshServer server names) : RecipientsInv (Connections.start server names) where
  transactions := fresh.transactions
  queues := fresh.queues
  apart := fresh.apart
  filed := fresh.filed
  received _ mem := absurd mem List.not_mem_nil
  mentions _ mem := absurd mem List.not_mem_nil
  senders _ mem := absurd mem List.not_mem_nil
  served worker mem := by
    simp only [Connections.start, fresh.workers] at mem
    cases mem
  clients n worker thread := by
    simp only [Connections.start, fresh.workers] at thread
    cases thread
  sending n worker thread := by
    simp only [Connections.start, fresh.workers] at thread
    cases thread
  unborn _ _ := rfl
  written _ mem := absurd mem List.not_mem_nil

section Steps

variable {env : ServerEnv} {s next : Connections}

theorem sock_mem_references {object : FrameObject} (mem : object ∈ s.bucket) :
    object.frame.sock ∈ s.references :=
  List.mem_append_left _ (List.mem_map.mpr ⟨object, mem, rfl⟩)

theorem sockets_subset_references {n : Nat} {worker : Worker}
    (thread : s.server.workers.workers[n]? = some worker) (running : (s.senders n).hasEnded = false) :
    s.sockets n worker ⊆ s.references := by
  intro sock mem
  apply List.mem_append_right
  refine List.mem_flatMap.mpr ⟨(worker, n), List.mem_filter.mpr ⟨?_, ?_⟩, mem⟩
  · exact List.mem_zipIdx_iff_getElem?.mpr thread
  · rw [running]
    rfl

/-- A descriptor that something refers to is closed, or has its owner. -/
theorem RecipientsInv.reown (inv : RecipientsInv s) {owner : Int → Option Nat} (accepted : Nat)
    (same : ∀ sock ∈ s.references, ∀ connection, owner sock = some connection →
      s.owner sock = some connection) :
    RecipientsInv { s with owner := owner, accepted := accepted } where
  transactions := inv.transactions
  queues := inv.queues
  apart := inv.apart
  filed := inv.filed
  received := inv.received
  mentions := inv.mentions
  senders object mem connection owns :=
    inv.senders object mem connection (same _ (sock_mem_references mem) connection owns)
  served := inv.served
  clients n worker thread running sock mem connection owns :=
    inv.clients n worker thread running sock mem connection
      (same sock (sockets_subset_references thread running mem) connection owns)
  sending := inv.sending
  unborn := inv.unborn
  written := inv.written

theorem RecipientsInv.receive (inv : RecipientsInv s) {object : FrameObject} {connection : Nat}
    (received : object.Received) (owns : s.owner object.frame.sock = some connection)
    (apart : HashApart (s.mentioned ++ object.frame.mentions)) :
    RecipientsInv { s with
      bucket := s.bucket ++ [object]
      asked := s.asked ++ (askedFor object.frame).map fun destination => (connection, destination)
      mentioned := s.mentioned ++ object.frame.mentions } where
  transactions := inv.transactions
  queues := inv.queues
  apart := apart
  filed hashnum other mem := by
    obtain ⟨destination, named, found⟩ := inv.filed hashnum other mem
    exact ⟨destination, List.mem_append_left _ named, found⟩
  received other mem := by
    rcases List.mem_append.mp mem with old | new
    · exact inv.received other old
    · rw [List.mem_singleton.mp new]
      exact received
  mentions other mem := by
    rcases List.mem_append.mp mem with old | new
    · exact fun name here => List.mem_append_left _ (inv.mentions other old here)
    · rw [List.mem_singleton.mp new]
      exact List.subset_append_right _ _
  senders other mem owner owned destination asks := by
    rcases List.mem_append.mp mem with old | new
    · exact List.mem_append_left _ (inv.senders other old owner owned destination asks)
    · obtain rfl := List.mem_singleton.mp new
      obtain rfl : connection = owner := Option.some.inj (owns.symm.trans owned)
      exact List.mem_append_right _ (List.mem_map_of_mem asks)
  served worker mem := by
    obtain ⟨destination, named, serves⟩ := inv.served worker mem
    exact ⟨destination, List.mem_append_left _ named, serves⟩
  clients n worker thread running sock mem owner owned destination serves :=
    List.mem_append_left _
      (inv.clients n worker thread running sock mem owner owned destination serves)
  sending := inv.sending
  unborn := inv.unborn
  written entry mem := by
    obtain ⟨destination, named, asked⟩ := inv.written entry mem
    exact ⟨destination, named, List.mem_append_left _ asked⟩

/-- Handling a frame files it under a destination that was named, and registers a client that has asked
for the destination. -/
theorem RecipientsInv.manage (inv : RecipientsInv s) {object : FrameObject} {rest : List FrameObject}
    {server : Server} (bucket : s.bucket = object :: rest)
    (handled : handleFrame env object s.server = some server) :
    RecipientsInv { s with server := server, bucket := rest } := by
  have first : object ∈ s.bucket := bucket ▸ List.mem_cons_self
  have later : ∀ other ∈ rest, other ∈ s.bucket := fun other mem =>
    bucket ▸ List.mem_cons_of_mem object mem
  have step := handleFrame_handled inv.transactions handled
  -- A thread that does anything has been there before.
  have old : ∀ {n : Nat} {worker : Worker}, s.senders n ≠ .loop →
      server.workers.workers[n]? = some worker → s.server.workers.workers[n]? = some worker := by
    intro n worker busy thread
    have inside : n < s.server.workers.workers.length := by
      apply Nat.lt_of_not_le
      intro outside
      exact busy (inv.unborn n outside)
    obtain ⟨more, all⟩ := step.threads
    rwa [← all, List.getElem?_append_left inside] at thread
  have kept : ∀ {n : Nat} {worker : Worker}, s.server.workers.workers[n]? = some worker →
      server.workers.destination worker = s.server.workers.destination worker := by
    intro n worker thread
    obtain ⟨destination, -, serves⟩ := inv.served worker (List.mem_of_getElem? thread)
    rw [serves, step.serves serves]
  refine
    { transactions := (handleFrame_enqueued (inv.received object first) inv.transactions handled).2
      queues := step.wellFormed inv.queues
      apart := inv.apart
      filed := ?filed
      received := fun other mem => inv.received other (later other mem)
      mentions := fun other mem => inv.mentions other (later other mem)
      senders := fun other mem => inv.senders other (later other mem)
      served := ?served
      clients := ?clients
      sending := ?sending
      unborn := fun n outside => inv.unborn n (step.threads.length_le.trans outside)
      written := inv.written }
  case filed =>
    intro hashnum other mem
    rcases step.waits inv.queues mem with before | ⟨destination, named, names, here⟩
    · exact inv.filed hashnum other before
    · refine ⟨destination, inv.mentions object first ?_, names, here⟩
      rw [Frame.mentions, named]
      exact List.mem_append_left _ (List.mem_singleton.mpr rfl)
  case served =>
    intro worker mem
    rcases step.thread mem with before | ⟨destination, asks, serves⟩
    · obtain ⟨served, mentioned, serves⟩ := inv.served worker before
      exact ⟨served, mentioned, step.serves serves⟩
    · exact ⟨destination, inv.mentions object first (List.mem_append_right _ asks), serves⟩
  case clients =>
    intro n worker thread running sock mem connection owns destination serves
    rcases List.mem_append.mp mem with ofClient | ofCall
    · obtain ⟨client, memClient, rfl⟩ := List.mem_map.mp ofClient
      rcases step.client thread memClient with ⟨before, was⟩ | ⟨here, asked, asks, new⟩
      · rw [kept before] at serves
        exact inv.clients n worker before running _ (sock_mem_sockets n was) connection owns
          destination serves
      · obtain rfl : asked = destination := Option.some.inj (new.symm.trans serves)
        exact inv.senders object first connection (here ▸ owns) asked asks
    · have busy : s.senders n ≠ .loop := by
        intro idle
        simp only [idle, SenderPoint.calls] at ofCall
        cases ofCall
      have before := old busy thread
      rw [kept before] at serves
      exact inv.clients n worker before running sock (List.mem_append_right _ ofCall) connection owns
        destination serves
  case sending =>
    intro n worker thread other has
    have busy : s.senders n ≠ .loop := by
      intro idle
      rw [idle] at has
      cases has
    have before := old busy thread
    rw [kept before]
    exact inv.sending n worker before other has

/-- A worker dequeues frames of its own destination only. -/
theorem RecipientsInv.dequeued (inv : RecipientsInv s) {destination : List UInt8}
    (mentioned : destination ∈ s.mentioned) {object : FrameObject}
    (got : (dequeue destination s.server.queues).1 = some object) :
    object.frame.destination = some destination := by
  rw [dequeue_fst inv.queues] at got
  obtain ⟨named, memNamed, names, hash⟩ := inv.filed _ object (List.mem_of_head? got)
  rw [names, inv.apart named memNamed destination mentioned hash]

theorem RecipientsInv.move (inv : RecipientsInv s) {n : Nat} {worker : Worker}
    {destination : List UInt8} (thread : s.server.workers.workers[n]? = some worker)
    (serves : s.server.workers.destination worker = some destination)
    (move : SenderMove s n worker destination next) : RecipientsInv next := by
  have mentioned : destination ∈ s.mentioned := by
    obtain ⟨named, mem, found⟩ := inv.served worker (List.mem_of_getElem? thread)
    obtain rfl : destination = named := Option.some.inj (serves.symm.trans found)
    exact mem
  refine
    { transactions := by rw [move.transactions]; exact inv.transactions
      queues := ?queues
      apart := by rw [move.mentioned]; exact inv.apart
      filed := ?filed
      received := by rw [move.bucket]; exact inv.received
      mentions := by rw [move.bucket, move.mentioned]; exact inv.mentions
      senders := ?senders
      served := ?served
      clients := ?clients
      sending := ?sending
      unborn := ?unborn
      written := ?written }
  case queues =>
    rcases move.queues with same | taken
    · rw [same]
      exact inv.queues
    · rw [taken]
      exact inv.queues.dequeue destination
  case filed =>
    intro hashnum object mem
    rw [move.mentioned]
    rcases move.queues with same | taken
    · rw [same] at mem
      exact inv.filed hashnum object mem
    · rw [taken, contents_dequeue inv.queues] at mem
      split at mem
      · next same => exact inv.filed hashnum object (same ▸ List.mem_of_mem_tail mem)
      · exact inv.filed hashnum object mem
  case senders =>
    rw [move.bucket, move.owner, move.asked]
    exact inv.senders
  case served =>
    rw [move.threads, move.mentioned]
    intro other mem
    rw [move.destinations]
    exact inv.served other mem
  case clients =>
    rw [move.threads, move.owner, move.asked]
    intro m other found running sock mem connection owns named names
    rw [move.destinations] at names
    have same : m = n → other = worker := by
      rintro rfl
      exact Option.some.inj (found.symm.trans thread)
    have before : (s.senders m).hasEnded = false := by
      by_cases here : m = n
      · rw [here]
        exact move.running
      · rw [← move.others m here]
        exact running
    exact inv.clients m other found before sock (move.sockets m other same mem) connection owns named
      names
  case sending =>
    rw [move.threads]
    intro m other found object has
    rw [move.destinations]
    by_cases here : m = n
    · subst here
      obtain rfl : worker = other := Option.some.inj (thread.symm.trans found)
      rcases move.object object has with before | got
      · exact inv.sending m worker thread object before
      · rw [serves]
        exact inv.dequeued mentioned got
    · rw [move.others m here] at has
      exact inv.sending m other found object has
  case unborn =>
    rw [move.threads]
    intro m outside
    have apart : m ≠ n := by
      rintro rfl
      rw [List.getElem?_eq_none outside] at thread
      cases thread
    rw [move.others m apart]
    exact inv.unborn m outside
  case written =>
    rw [OnlyAsked, move.asked]
    intro entry mem
    rcases move.written entry mem with old | ⟨has, sock, refers, owns⟩
    · exact inv.written entry old
    · exact ⟨destination, (inv.sending n worker thread entry.2 has).trans serves,
        inv.clients n worker thread move.running sock refers entry.1 owns destination serves⟩

theorem RecipientsInv.workerStep (inv : RecipientsInv s) {n : Nat} {action : ConnectionsAction}
    (taken : workerStep s n action = some next) : RecipientsInv next := by
  obtain ⟨worker, thread, rest⟩ := Option.bind_eq_some_iff.mp taken
  obtain ⟨destination, serves, step⟩ := Option.bind_eq_some_iff.mp rest
  exact inv.move thread serves (senderStep_move step)

theorem recipientsInv_step {action : ConnectionsAction} (inv : RecipientsInv s)
    (apart : KeepsApart s action) (taken : connectionsStep env s action = some next) :
    RecipientsInv next := by
  cases action with
  | accept sock =>
      obtain ⟨closed, same⟩ := Option.ite_none_right_eq_some.mp taken
      cases same
      refine inv.reown _ fun other refers connection owns => ?_
      have differ : other ≠ sock := by
        rintro rfl
        exact apart refers
      rwa [Function.update_of_ne differ] at owns
  | close sock =>
      simp only [connectionsStep] at taken
      split at taken
      · cases taken
      · cases taken
        refine inv.reown _ fun other _ connection owns => ?_
        by_cases same : other = sock
        · rw [same, Function.update_self] at owns
          cases owns
        · rwa [Function.update_of_ne same] at owns
  | receive object =>
      obtain ⟨received, opened⟩ := Option.ite_none_right_eq_some.mp taken
      obtain ⟨connection, owns, same⟩ := Option.map_eq_some_iff.mp opened
      cases same
      exact inv.receive received owns apart
  | manage =>
      simp only [connectionsStep] at taken
      split at taken
      · next object rest bucket =>
          obtain ⟨server, handled, same⟩ := Option.map_eq_some_iff.mp taken
          cases same
          exact inv.manage bucket handled
      · cases taken
  | check n error => exact inv.workerStep taken
  | dequeue n => exact inv.workerStep taken
  | visit n error => exact inv.workerStep taken
  | call n => exact inv.workerStep taken
  | finish n => exact inv.workerStep taken

/-- In every run in which numbers are not mistaken, messages reach only connections that have asked. -/
theorem only_asked_connections {server : Server} {names : List (List UInt8)}
    (fresh : FreshServer server names)
    (reached : Reaches (connectionsStep env) KeepsApart (Connections.start server names) s) :
    OnlyAsked s :=
  (reached.invariant (fun _ _ _ inv apart taken => recipientsInv_step inv apart taken)
    (recipientsInv_start fresh)).written

end Steps

/-! ### Runs -/

theorem init_freshServer (datadir : List UInt8) (disk : List UInt8 → Option QueueFiles) :
    FreshServer (Server.init datadir disk) [] where
  workers := rfl
  transactions _ mem := absurd mem List.not_mem_nil
  queues := emptyStore_wellFormed
  filed hashnum object mem := by
    have none : contents hashnum (Server.init datadir disk).queues = [] := rfl
    rw [none] at mem
    cases mem
  apart _ mem := absurd mem List.not_mem_nil

/-- A server whose data directory is new. -/
def newConnections : Connections :=
  Connections.start (Server.init (cstring "data") fun _ => none) []

/-- A `SUBSCRIBE` frame for `q` that was read from descriptor 4. -/
def subscription : FrameObject where
  address := 1
  frame :=
    { allocFrame with
      name := cstring "SUBSCRIBE"
      sock := 4
      status := .inBucket
      cinfo := some (cstring "a")
      hAttrs := [⟨cstring "destination:q", 13⟩] }

/-- A `SEND` frame for `q` that was read from descriptor 5. -/
def letterTo : FrameObject :=
  { letterA with frame := { letterA.frame with sock := 5, cinfo := some (cstring "b") } }

/-- A connection subscribes and another one sends. -/
def subscribeAndSend : List ConnectionsAction :=
  [.accept 4, .receive subscription, .manage, .accept 5, .receive letterTo, .manage]

/-- The worker delivers the frame and ends when its connection has closed, and then the system gives the
descriptor to another connection. -/
def deliverAndClose : List ConnectionsAction :=
  [.check 0 false, .dequeue 0, .call 0, .call 0, .call 0, .call 0, .call 0, .call 0, .call 0, .call 0,
    .call 0, .call 0, .call 0, .finish 0, .close 4, .check 0 false, .accept 4]

theorem only_asked_connections_letter :
    ∃ s, Transition.run (Transition.guarded (connectionsStep quietEnv) KeepsApart) newConnections
        (subscribeAndSend ++ deliverAndClose) = some s ∧
      s.written.map Prod.fst = List.replicate 11 0 ∧ OnlyAsked s := by
  have taken : ∃ s, Transition.run (Transition.guarded (connectionsStep quietEnv) KeepsApart)
        newConnections (subscribeAndSend ++ deliverAndClose) = some s ∧
      s.written.map Prod.fst = List.replicate 11 0 := by
    apply Option.map_eq_some_iff.mp
    decide +kernel
  obtain ⟨s, taken, written⟩ := taken
  exact ⟨s, taken, written,
    only_asked_connections (init_freshServer _ _) (Transition.reaches_of_guarded_run taken)⟩

/-- A subscriber closes its connection while its worker is about to dequeue, and the system gives the
descriptor to a connection that asks for nothing. -/
def closeAndReuse : List ConnectionsAction :=
  [.check 0 false, .close 4, .accept 4, .dequeue 0, .call 0]

theorem message_reaches_other_connection :
    ¬ ∀ s, Reaches (connectionsStep quietEnv) Transition.Always newConnections s → OnlyAsked s := by
  intro always
  have taken : ∃ s, Transition.run (connectionsStep quietEnv) newConnections
        (subscribeAndSend ++ closeAndReuse) = some s ∧
      (s.written.map Prod.fst, s.asked) = ([2], [(0, cstring "q")]) := by
    apply Option.map_eq_some_iff.mp
    decide +kernel
  obtain ⟨s, taken, found⟩ := taken
  obtain ⟨written, asked⟩ := Prod.mk.inj found
  obtain ⟨entry, only, connection⟩ := List.map_eq_singleton_iff.mp written
  obtain ⟨destination, -, mem⟩ := always s (Transition.reaches_of_run taken) entry (by simp [only])
  rw [asked, connection] at mem
  cases List.mem_singleton.mp mem

end Newtmq
