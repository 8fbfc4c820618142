/-
Module: Newtmq.Proofs.SubscriptionHeaders
Purpose: No registration records the id of a subscription, so that no worker writes a subscription
  header, and a `MESSAGE` frame has the one its client waits for only when the sender has put it there.
Trusted boundary: none
Main exports: headerLines_message, ownHeaders_of_clean, NoIds, noIds_step, messages_wire,
  names_subscriptions_iff
-/
import Newtmq.Spec.SubscriptionHeaders
import Newtmq.Proofs.MessageDecoding
import Newtmq.Proofs.Subscriptions

namespace Newtmq

open WireFrame (encodeLines)
open Transition (Reaches Always MeetsAlong)

/-! ### Lines -/

theorem splitLines_ne_nil (before rest : List UInt8) : splitLines (before ++ LF :: rest) ≠ [] := by
  induction before with
  | nil => simp [splitLines]
  | cons c before ih =>
      rw [List.cons_append, splitLines]
      split
      · exact List.cons_ne_nil _ _
      · split
        next none => exact absurd none ih
        next => exact List.cons_ne_nil _ _

/-- What follows an LF is split on its own. -/
theorem splitLines_after (before rest : List UInt8) :
    splitLines (before ++ LF :: rest) = splitLines (before ++ [LF]) ++ splitLines rest := by
  induction before with
  | nil => simp [splitLines]
  | cons c before ih =>
      rw [List.cons_append, List.cons_append, splitLines, splitLines, ih]
      split
      · rfl
      · cases lines : splitLines (before ++ [LF]) with
        | nil => exact absurd lines (splitLines_ne_nil before [])
        | cons line lines => rfl

theorem splitLines_line {line : List UInt8} (clean : LF ∉ line) (rest : List UInt8) :
    splitLines (line ++ LF :: rest) = line :: splitLines rest := by
  induction line with
  | nil =>
      change splitLines (LF :: rest) = _
      rw [splitLines, if_pos rfl]
  | cons c line ih =>
      have other : c ≠ LF := fun same => clean (same ▸ List.mem_cons_self)
      rw [List.cons_append, splitLines, if_neg other, ih fun mem => clean (List.mem_cons_of_mem c mem)]

theorem splitLines_encodeLines {lines : List (List UInt8)} (clean : ∀ line ∈ lines, LF ∉ line) :
    splitLines (encodeLines lines) = lines := by
  induction lines with
  | nil => rfl
  | cons line lines ih =>
      rw [WireFrame.encodeLines_cons, splitLines_line (clean line List.mem_cons_self),
        ih fun other mem => clean other (List.mem_cons_of_mem line mem)]

/-- Lines that start with an empty one add no header line. -/
theorem takeWhile_append_empty (lines : List (List UInt8)) {more : List (List UInt8)}
    (stops : ∀ line ∈ more.head?, line = []) :
    (lines ++ more).takeWhile (· ≠ []) = lines.takeWhile (· ≠ []) := by
  have none : more.takeWhile (· ≠ []) = [] := by
    cases more with
    | nil => rfl
    | cons line more =>
        rw [List.takeWhile_cons, stops line rfl]
        rfl
  rw [List.takeWhile_append, none, List.append_nil]
  split
  next all => exact ((List.takeWhile_prefix _).eq_of_length all).symm
  next => rfl

/-- The header lines of a `MESSAGE` frame: those of the frame, the extra ones and the message id. -/
theorem headerLines_message (sock : Int) (frame : Frame) (headers : Option (List Linedata)) :
    headerLines (wireBytes (stompSendMessage sock frame headers)) =
      (splitLines (encodeLines (entryLines frame.hAttrs ++ entryLines (headers.getD []) ++
        [cstring "message-id: " ++ frame.id]))).takeWhile (· ≠ []) := by
  have command : LF ∉ cstring "MESSAGE" := by decide
  have block : encodeLines (entryLines frame.hAttrs ++ entryLines (headers.getD []) ++
      [cstring "message-id: " ++ frame.id]) =
        encodeLines (entryLines frame.hAttrs ++ entryLines (headers.getD [])) ++
          (cstring "message-id: " ++ frame.id) ++ [LF] := by
    rw [encodeLines_append _ [_], WireFrame.encodeLines_cons, WireFrame.encodeLines_nil,
      ← List.append_assoc]
  rw [headerLines, wireBytes_stompSendMessage, splitLines_line command, List.tail_cons,
    ← List.append_assoc, splitLines_after, block]
  apply takeWhile_append_empty
  split
  · intro line first
    cases first
  · intro line first
    rw [List.cons_append, splitLines, if_pos rfl] at first
    exact (Option.some.inj first).symm

/-- Without extra headers, a `MESSAGE` frame has the headers that the frame brings with it. -/
theorem headerLines_own (sock : Int) (frame : Frame) {headers : Option (List Linedata)}
    (none : headers.getD [] = []) :
    headerLines (wireBytes (stompSendMessage sock frame headers)) = frame.ownHeaders := by
  rw [headerLines_message, none, Frame.ownHeaders]
  simp [entryLines]

/-- A stored header line is a line as the parser stores it: not empty, and without an LF. -/
def CleanHeaders (frame : Frame) : Prop :=
  (∀ line ∈ entryLines frame.hAttrs, line ≠ [] ∧ LF ∉ line) ∧ LF ∉ frame.id

/-- Such a frame names an id exactly when one of its stored lines does. -/
theorem namesId_ownHeaders {frame : Frame} (clean : CleanHeaders frame) (id : List UInt8) :
    NamesId id frame.ownHeaders ↔ NamesId id (entryLines frame.hAttrs) := by
  have idLine : LF ∉ cstring "message-id: " ++ frame.id := by
    intro mem
    rcases List.mem_append.mp mem with name | own
    · revert name
      decide
    · exact clean.2 own
  have own : frame.ownHeaders = entryLines frame.hAttrs ++ [cstring "message-id: " ++ frame.id] := by
    rw [Frame.ownHeaders, splitLines_encodeLines, List.takeWhile_eq_self_iff]
    · intro line mem
      rcases List.mem_append.mp mem with stored | last
      · exact decide_eq_true (clean.1 line stored).1
      · rw [List.mem_singleton.mp last]
        rfl
    · intro line mem
      rcases List.mem_append.mp mem with stored | last
      · exact (clean.1 line stored).2
      · rw [List.mem_singleton.mp last]
        exact idLine
  have apart : ∀ text, cstring "subscription:" ++ text ≠ cstring "message-id: " ++ frame.id := by
    intro text same
    cases congrArg List.head? same
  have blank : cstring "subscription: " = cstring "subscription:" ++ [32] := rfl
  have spaced : cstring "subscription: " ++ id = cstring "subscription:" ++ ([32] ++ id) := by
    rw [blank, List.append_assoc]
  rw [own, NamesId, NamesId, spaced]
  simp only [List.mem_append, List.mem_singleton, apart, or_false]

/-! ### No client has an id -/

/-- The client that a thread was created with. -/
def Worker.client : Worker → Option ClientInfo
  | .reply _ client | .unicast _ client => some client
  | .multicast _ => none

/-- No client has an id. -/
structure NoIds (manager : WorkerManager) : Prop where
  clients : ∀ group ∈ manager.groups, ∀ client ∈ group.clients, client.id = none
  workers : ∀ worker ∈ manager.workers, ∀ client ∈ worker.client, client.id = none

theorem NoIds.createDestGroup {manager : WorkerManager} (bare : NoIds manager)
    (destination : List UInt8) : NoIds (createDestGroup destination manager).2 where
  clients group mem := by
    rcases List.mem_append.mp mem with old | new
    · exact bare.clients group old
    · rw [List.mem_singleton.mp new]
      intro client mem
      cases mem
  workers := bare.workers

theorem NoIds.addClient {manager : WorkerManager} (bare : NoIds manager) (place : Nat) (sock : Int) :
    NoIds (addClient place (allocClientInfo sock) manager) where
  clients group mem client here := by
    obtain ⟨n, there⟩ := List.mem_iff_getElem?.mp mem
    rw [Newtmq.addClient, List.getElem?_modify] at there
    obtain ⟨old, found, rfl⟩ := Option.map_eq_some_iff.mp there
    have kept := bare.clients old (List.mem_of_getElem? found)
    split at here
    · rcases List.mem_append.mp here with before | new
      · exact kept client before
      · rw [List.mem_singleton.mp new]
        rfl
    · exact kept client here
  workers := bare.workers

theorem NoIds.createWorker {manager : WorkerManager} (bare : NoIds manager) {worker : Worker}
    (none : ∀ client ∈ worker.client, client.id = none) : NoIds (createWorker worker manager) where
  clients := bare.clients
  workers other mem := by
    rcases List.mem_append.mp mem with old | new
    · exact bare.workers other old
    · rw [List.mem_singleton.mp new]
      exact none

theorem NoIds.getDestGroup {manager : WorkerManager} (bare : NoIds manager)
    (destination : List UInt8) : NoIds (getDestGroup destination manager).2 := by
  rw [Newtmq.getDestGroup]
  split
  · exact bare
  · exact bare.createDestGroup destination

/-- The registrations ignore the id that they are given. -/
theorem NoIds.change {object : FrameObject} {manager next : WorkerManager} (bare : NoIds manager)
    (change : WorkerChange object manager next) : NoIds next := by
  have own : ∀ client ∈ some (allocClientInfo object.frame.sock), client.id = none := by
    rintro client ⟨⟩
    rfl
  cases change with
  | kept => exact bare
  | reply asked =>
      rw [registerReplyWorker]
      split
      · exact bare
      · exact ((bare.createDestGroup _).addClient _ _).createWorker own
  | queue asked =>
      rw [registerUnicastWorker]
      exact ((bare.getDestGroup _).addClient _ _).createWorker own
  | topic asked =>
      rw [registerMulticastWorker]
      split
      · exact bare.addClient _ _
      · refine ((bare.createDestGroup _).createWorker ?_).addClient _ _
        intro client mem
        cases mem

theorem NoIds.keepClients {manager : WorkerManager} (bare : NoIds manager) (group : Nat)
    (valid : Nat → Bool) : NoIds (manager.keepClients group valid) where
  clients found mem client here := by
    obtain ⟨n, there⟩ := List.mem_iff_getElem?.mp mem
    rw [WorkerManager.keepClients, List.getElem?_modify] at there
    obtain ⟨old, place, rfl⟩ := Option.map_eq_some_iff.mp there
    have kept := bare.clients old (List.mem_of_getElem? place)
    split at here
    · exact kept client (keptPlaces_subset valid _ here)
    · exact kept client here
  workers := bare.workers

theorem NoIds.serveStep {s : Subscriptions} (bare : NoIds s.server.workers) (n : Nat)
    (valid : Nat → Bool) (destination : List UInt8) (worker : Worker) :
    NoIds (serveStep s n valid destination worker).server.workers := by
  have client : ∀ own worker,
      NoIds (serveClient s n (valid 0) worker own destination).server.workers := by
    intro own worker
    rw [serveClient]
    split
    · split
      · exact bare
      · rw [(endPass_server _ _ _ worker).1]
        exact bare
    · exact bare
  cases worker with
  | reply group own => exact client own _
  | unicast group own => exact client own _
  | multicast group =>
      rw [Newtmq.serveStep, serveGroup]
      split
      · exact bare
      · split
        · exact bare
        · exact bare.keepClients group valid

variable {env : ServerEnv} {s next : Subscriptions}

theorem noIds_step (inv : SubscriptionsInv s) (bare : NoIds s.server.workers)
    {action : SubscriptionAction} (taken : subscriptionStep env s action = some next) :
    NoIds next.server.workers := by
  cases action with
  | handle object =>
      obtain ⟨_, taken⟩ := Option.ite_none_right_eq_some.mp taken
      obtain ⟨server, handled, rfl⟩ := Option.map_eq_some_iff.mp taken
      exact bare.change (handleFrame_change inv.transactions handled).1
  | serve n valid =>
      obtain ⟨_, taken⟩ := Option.ite_none_right_eq_some.mp taken
      obtain ⟨worker, _, taken⟩ := Option.bind_eq_some_iff.mp taken
      obtain ⟨destination, _, rfl⟩ := Option.map_eq_some_iff.mp taken
      exact bare.serveStep n valid destination worker

/-- A worker adds no header for a client without an id. -/
theorem headers_getD {worker : Worker} {client : ClientInfo} (none : client.id = none) :
    (worker.headers client).getD [] = [] := by
  cases worker <;> simp [Worker.headers, ClientInfo.headers, none]

/-! ### The `MESSAGE` frames of a pass -/

theorem mem_clients_group {manager : WorkerManager} {group : Nat} {client : ClientInfo}
    (mem : client ∈ manager.clients (.multicast group)) :
    ∃ found ∈ manager.groups, client ∈ found.clients := by
  rw [WorkerManager.clients] at mem
  cases there : manager.groups[group]? with
  | none => simp [there] at mem
  | some found =>
      refine ⟨found, List.mem_of_getElem? there, ?_⟩
      simpa [there] using mem

/-- The clients that a pass sends to have no id. -/
theorem NoIds.recipients (bare : NoIds s.server.workers) {n : Nat} {valid : Nat → Bool}
    {worker : Worker} (mem : worker ∈ s.server.workers.workers) :
    ∀ recipient ∈ s.recipients n valid worker, recipient.2.id = none := by
  intro recipient here
  cases worker with
  | reply group own =>
      rw [Subscriptions.recipients] at here
      split at here
      · rw [List.mem_singleton.mp here]
        exact bare.workers _ mem own rfl
      · cases here
  | unicast group own =>
      rw [Subscriptions.recipients] at here
      split at here
      · rw [List.mem_singleton.mp here]
        exact bare.workers _ mem own rfl
      · cases here
  | multicast group =>
      have inside := List.of_mem_zip (keptPlaces_subset valid _ here)
      obtain ⟨found, groups, client⟩ := mem_clients_group inside.2
      exact bare.clients found groups _ client

theorem serving_eq_some {n : Nat} {worker : Worker} {destination : List UInt8}
    (serving : s.serving n = some (worker, destination)) :
    worker ∈ s.server.workers.workers := by
  obtain ⟨_, serving⟩ := Option.ite_none_right_eq_some.mp serving
  obtain ⟨thread, there, serving⟩ := Option.bind_eq_some_iff.mp serving
  obtain ⟨_, _, same⟩ := Option.map_eq_some_iff.mp serving
  cases same
  exact List.mem_of_getElem? there

theorem keptPlaces_map {α β : Type} (f : α → β) (valid : Nat → Bool) (xs : List α) :
    keptPlaces valid (xs.map f) = (keptPlaces valid xs).map f := by
  induction xs generalizing valid with
  | nil => rfl
  | cons x xs ih =>
      rw [List.map_cons, keptPlaces, keptPlaces, ih]
      split <;> rfl

theorem endPass_wire (destination : List UInt8) (object : FrameObject) (server : Server)
    (worker : Worker) : (endPass destination object server worker).wire = server.wire := by
  cases worker <;> rfl

/-- The calls for clients to which a worker gives no header of its own. -/
theorem calls_messages {worker : Worker} {extra : Option (List Linedata)} (object : FrameObject)
    {recipients : List (Option Nat × ClientInfo)}
    (same : ∀ recipient ∈ recipients, worker.headers recipient.2 = extra) :
    (worker.messages object recipients).flatMap SentMessage.calls =
      messagesTo (recipients.map Prod.snd) object extra := by
  induction recipients with
  | nil => rfl
  | cons recipient recipients ih =>
      have rest := ih fun other mem => same other (List.mem_cons_of_mem _ mem)
      have first : stompSendMessage recipient.2.sock object.frame (worker.headers recipient.2) =
          stompSendMessage recipient.2.sock object.frame extra := by
        rw [same recipient List.mem_cons_self]
      rw [Worker.messages] at rest ⊢
      rw [List.map_cons, List.flatMap_cons, rest]
      exact congrArg (· ++ messagesTo (recipients.map Prod.snd) object extra) first

theorem serveClient_wire (n : Nat) (valid : Nat → Bool) {worker : Worker} {client : ClientInfo}
    (destination : List UInt8) (none : worker.headers client = none)
    (own : s.recipients n valid worker = if valid 0 then [(s.threads[n]?.join, client)] else []) :
    (serveClient s n (valid 0) worker client destination).server.wire = s.server.wire ++
      (match (dequeue destination s.server.queues).1 with
        | .none => []
        | some object => worker.messages object (s.recipients n valid worker)).flatMap
          SentMessage.calls := by
  rw [serveClient, own]
  split
  · split
    next queues got =>
      rw [got]
      exact (List.append_nil _).symm
    next object queues got =>
      have same : ∀ recipient ∈ [(s.threads[n]?.join, client)],
          worker.headers recipient.2 = Option.none := by
        intro recipient mem
        rw [List.mem_singleton.mp mem]
        exact none
      rw [got]
      dsimp only
      rw [calls_messages object same, endPass_wire]
      rfl
  · cases (dequeue destination s.server.queues).1 <;> exact (List.append_nil _).symm

theorem serveGroup_wire (inv : SubscriptionsInv s) (bare : NoIds s.server.workers) (n : Nat)
    (valid : Nat → Bool) {group : Nat} (destination : List UInt8)
    (mem : .multicast group ∈ s.server.workers.workers) :
    (serveGroup s n valid group destination).server.wire = s.server.wire ++
      (match (dequeue destination s.server.queues).1 with
        | none => []
        | some object => (Worker.multicast group).messages object
            (s.recipients n valid (.multicast group))).flatMap SentMessage.calls := by
  have clients : (s.recipients n valid (.multicast group)).map Prod.snd =
      keptPlaces valid (s.server.workers.clients (.multicast group)) := by
    rw [Subscriptions.recipients, ← keptPlaces_map, List.map_snd_zip (inv.clients group).ge]
  have same : ∀ recipient ∈ s.recipients n valid (.multicast group),
      (Worker.multicast group).headers recipient.2 = some [] := by
    intro recipient here
    rw [Worker.headers, ClientInfo.headers, bare.recipients mem recipient here]
    rfl
  rw [serveGroup]
  split
  next empty =>
    rw [empty] at clients
    rw [List.map_eq_nil_iff.mp clients]
    cases (dequeue destination s.server.queues).1 <;> exact (List.append_nil _).symm
  next =>
    split
    next queues got =>
      rw [got]
      exact (List.append_nil _).symm
    next object queues got =>
      rw [got]
      dsimp only
      rw [calls_messages object same, endPass_wire, clients_keepClients, if_pos rfl, clients]

/-- The calls of a step are those of its `MESSAGE` frames, one after the other. -/
theorem messages_wire (inv : SubscriptionsInv s) (bare : NoIds s.server.workers) {n : Nat}
    {valid : Nat → Bool} (taken : subscriptionStep env s (.serve n valid) = some next) :
    next.server.wire = s.server.wire ++ (s.messages (.serve n valid)).flatMap SentMessage.calls := by
  obtain ⟨runs, taken⟩ := Option.ite_none_right_eq_some.mp taken
  obtain ⟨worker, thread, taken⟩ := Option.bind_eq_some_iff.mp taken
  obtain ⟨destination, serves, rfl⟩ := Option.map_eq_some_iff.mp taken
  have serving : s.serving n = some (worker, destination) := by
    rw [Subscriptions.serving, if_pos runs, thread, Option.bind_some, serves]
    rfl
  have mem := serving_eq_some serving
  rw [Subscriptions.messages, serving]
  cases worker with
  | reply group own => exact serveClient_wire n valid destination rfl rfl
  | unicast group own =>
      have none : own.id = none := bare.workers _ mem own rfl
      exact serveClient_wire n valid destination (by rw [Worker.headers, none]; rfl) rfl
  | multicast group => exact serveGroup_wire inv bare n valid destination mem

/-- The header lines of each `MESSAGE` frame are those that the frame taken from the queue brought with
it. -/
theorem namesSubscriptions_iff (bare : NoIds s.server.workers) (action : SubscriptionAction) :
    NamesSubscriptions s action ↔ SentWithIds s action := by
  cases action with
  | handle object => exact ⟨fun _ => trivial, fun _ message mem => by cases mem⟩
  | serve n valid =>
      rw [NamesSubscriptions, SentWithIds, Subscriptions.messages]
      cases serving : s.serving n with
      | none => simp
      | some thread =>
          obtain ⟨worker, destination⟩ := thread
          have own : ∀ recipient ∈ s.recipients n valid worker, ∀ object : FrameObject,
              headerLines (wireBytes (stompSendMessage recipient.2.sock object.frame
                (worker.headers recipient.2))) = object.frame.ownHeaders := by
            intro recipient mem object
            exact headerLines_own _ _
              (headers_getD (bare.recipients (serving_eq_some serving) recipient mem))
          constructor
          · rintro names _ _ ⟨⟩ object taken recipient mem id named
            rw [← own recipient mem object]
            have message : ⟨recipient.1, object, stompSendMessage recipient.2.sock object.frame
                (worker.headers recipient.2)⟩ ∈ worker.messages object (s.recipients n valid worker) :=
              List.mem_map.mpr ⟨recipient, mem, rfl⟩
            refine names ⟨recipient.1, object, _⟩ ?_ id named
            dsimp only
            rw [taken]
            exact message
          · intro sent message mem id named
            dsimp only at mem
            split at mem
            · cases mem
            next object taken =>
              obtain ⟨recipient, here, rfl⟩ := List.mem_map.mp mem
              rw [own recipient here object]
              exact sent worker destination rfl object taken recipient here id named

/-- In a run from the start of the server, every `MESSAGE` frame names the subscription that it is for
exactly when each frame taken from a queue names the ids of the subscriptions it is sent to itself. -/
theorem names_subscriptions_iff (env : ServerEnv) (datadir : List UInt8)
    (disk : List UInt8 → Option QueueFiles) (actions : List SubscriptionAction) :
    MeetsAlong (subscriptionStep env) NamesSubscriptions
        (Subscriptions.start (Server.init datadir disk)) actions ↔
      MeetsAlong (subscriptionStep env) SentWithIds
        (Subscriptions.start (Server.init datadir disk)) actions := by
  have keeps : ∀ s action next, SubscriptionsInv s ∧ NoIds s.server.workers → SentWithIds s action →
      subscriptionStep env s action = some next →
        SubscriptionsInv next ∧ NoIds next.server.workers := by
    intro s action next inv _ taken
    exact ⟨subscriptionsInv_step s action next inv.1 trivial taken, noIds_step inv.1 inv.2 taken⟩
  apply Transition.meetsAlong_iff keeps
  · intro s action inv
    exact namesSubscriptions_iff inv.2 action
  · refine ⟨subscriptionsInv_start datadir disk, ?_, ?_⟩
    · intro group mem
      cases mem
    · intro worker mem
      cases mem

/-- A subscription with the id 7, and a frame that is sent to its destination: the `MESSAGE` frame does
not name the id, neither for a queue nor for a topic. -/
theorem subscription_not_named :
    ¬ (∀ actions, MeetsAlong (subscriptionStep quietEnv) NamesSubscriptions noSubscriptions actions) ∧
      ¬ MeetsAlong (subscriptionStep quietEnv) NamesSubscriptions noSubscriptions
        [.handle (clientFrame (cstring "SUBSCRIBE") [cstring "destination:/topic/t", cstring "id:7"]),
          .handle (sendFor (cstring "/topic/t")), .serve 0 fun _ => true] := by
  have queue : ¬ MeetsAlong (subscriptionStep quietEnv) NamesSubscriptions noSubscriptions
      [.handle subscribeOne, .handle (sendFor (cstring "q")), .serve 0 fun _ => true] := by
    decide +kernel
  exact ⟨fun always => queue (always _), by decide +kernel⟩

end Newtmq
