/-
Module: Newtmq.Proofs.FrameOwnership
Purpose: Every frame has at most one owner at a time, whatever the threads do: no step takes a frame from
  one place without removing it there. So no frame is freed twice, no freed frame is queued, and no two
  workers send the same frame.
Trusted boundary: none
Main exports: count_modify, count_enqueue, count_dequeue, handleFrame_places, connectionsStep_places,
  frames_in_one_place
-/
import Mathlib.Data.List.Flatten
import Newtmq.Proofs.Registration
import Newtmq.Proofs.SendAnswers
import Newtmq.Proofs.TransactionIsolation
import Newtmq.Spec.FrameOwnership

namespace Newtmq

variable {env : ServerEnv}

/-! ### Lists of lists -/

section
variable {α : Type} {f : α → List Nat}

/-- When an element is changed, only its part is counted differently. -/
theorem count_modify (address : Nat) {list : List α} {place : Nat} {x : α} (g : α → α)
    (here : list[place]? = some x) :
    ((list.modify place g).flatMap f).count address + (f x).count address =
      (list.flatMap f).count address + (f (g x)).count address := by
  induction list generalizing place with
  | nil => cases here
  | cons head tail ih =>
      cases place with
      | zero =>
          cases here
          simp only [List.modify_zero_cons, List.flatMap_cons, List.count_append]
          omega
      | succ place =>
          have rest := @ih place here
          simp only [List.modify_succ_cons, List.flatMap_cons, List.count_append]
          omega

/-- An element that is not there is not changed. -/
theorem modify_of_none {list : List α} {place : Nat} (g : α → α) (missing : list[place]? = none) :
    list.modify place g = list := by
  apply List.ext_getElem?
  intro i
  rw [List.getElem?_modify]
  by_cases same : place = i
  · subst same
    rw [missing]
    rfl
  · simp [same]

theorem count_eraseIdx_le (address : Nat) (list : List α) (place : Nat) :
    ((list.eraseIdx place).flatMap f).count address ≤ (list.flatMap f).count address :=
  ((List.eraseIdx_sublist list place).flatMap f).count_le address

end

/-! ### Queues -/

theorem getQueue_addresses (qname : List UInt8) (store : QueueStore FrameObject) :
    (getQueue qname store).2.addresses = store.addresses := by
  have init : (initBucket qname store).addresses = store.addresses := by
    simp only [initBucket]
    split <;> rfl
  rw [getQueue]
  split
  · exact init
  · rw [insertQueue, QueueStore.addresses, List.flatMap_append, ← init]
    exact List.append_nil _

/-- An enqueued frame is counted once more. -/
theorem count_enqueue (address : Nat) (object : FrameObject) (qname : List UInt8)
    (store : QueueStore FrameObject) :
    (enqueue (some object) qname store).2.addresses.count address ≤
      store.addresses.count address + [object.address].count address := by
  rw [← getQueue_addresses qname store, enqueue]
  rcases getQueue qname store with ⟨place, found⟩
  simp only [appendEntry, QueueStore.addresses]
  cases here : found.objects[place]? with
  | none =>
      rw [modify_of_none _ here]
      exact Nat.le_add_right _ _
  | some queue =>
      have counted := count_modify (f := fun queue => queue.entries.map FrameObject.address) address
        (fun q : Queue FrameObject =>
          { q with entries := q.entries ++ [object], count := wrap32 (q.count + 1) }) here
      simp only [List.map_append, List.map_cons, List.map_nil, List.count_append] at counted
      omega

/-- A dequeued frame was counted in the queues. -/
theorem count_dequeue (address : Nat) (qname : List UInt8) (store : QueueStore FrameObject) :
    (dequeue qname store).2.addresses.count address +
        ((dequeue qname store).1.map FrameObject.address).toList.count address ≤
      store.addresses.count address := by
  rw [← getQueue_addresses qname store, dequeue]
  rcases getQueue qname store with ⟨place, found⟩
  simp only [popEntry, QueueStore.addresses]
  cases here : found.objects[place]? with
  | none =>
      rw [modify_of_none _ here]
      exact Nat.le_refl _
  | some queue =>
      have counted := count_modify (f := fun queue => queue.entries.map FrameObject.address) address
        (fun q : Queue FrameObject => { q with entries := q.entries.tail }) here
      rw [Option.bind_some]
      cases entries : queue.entries with
      | nil =>
          simp only [entries, List.tail_nil, List.map_nil, List.count_nil] at counted
          simp only [List.head?_nil, Option.map_none, Option.toList_none, List.count_nil]
          omega
      | cons first rest =>
          simp only [entries, List.tail_cons, List.map_cons, List.count_cons] at counted
          simp only [List.head?_cons, Option.map_some, Option.toList_some, List.count_singleton]
          omega

/-! ### Transactions -/

theorem count_transactionStart (address : Nat) {malloc : Nat → List UInt8} {tid : List UInt8}
    {manager later : TransactionManager} {ret : Ret}
    (started : transactionStart malloc tid manager = some (ret, later)) :
    later.addresses.count address ≤ manager.addresses.count address := by
  rw [transactionStart] at started
  split at started
  · cases started
    exact Nat.le_refl _
  · obtain ⟨allocated, fits, same⟩ := Option.map_eq_some_iff.mp started
    cases same
    simp only [allocTransaction] at fits
    split at fits
    · cases fits
    · cases fits
      simp [TransactionManager.addresses]

theorem count_transactionAdd (address : Nat) (tid : List UInt8) (object : FrameObject)
    (manager : TransactionManager) :
    (transactionAdd tid object manager).2.addresses.count address ≤
      manager.addresses.count address + [object.address].count address := by
  rw [transactionAdd]
  split
  · next place _ =>
      simp only [TransactionManager.addresses]
      cases here : manager.list[place]? with
      | none =>
          rw [modify_of_none _ here]
          exact Nat.le_add_right _ _
      | some transaction =>
          have counted := count_modify
            (f := fun transaction => transaction.frames.map FrameObject.address) address
            (fun transaction : Transaction =>
              { transaction with frames := object :: transaction.frames }) here
          simp only [List.map_cons, List.count_cons] at counted
          simp only [List.count_singleton]
          omega
  · exact Nat.le_add_right _ _

theorem count_transactionAbort (address : Nat) (tid : List UInt8) (manager : TransactionManager) :
    (transactionAbort tid manager).2.addresses.count address ≤ manager.addresses.count address := by
  rw [transactionAbort]
  split
  · exact count_eraseIdx_le address _ _
  · exact Nat.le_refl _

theorem count_transactionCommit (address : Nat) {σ : Type} {callbacks : Nat → FrameObject → σ → Ret × σ}
    {tid : List UInt8} {manager later : TransactionManager} {ret : Ret} {world after : σ}
    (none : NoCallbacks manager)
    (committed : transactionCommit callbacks tid manager world = some (ret, later, after)) :
    later.addresses.count address ≤ manager.addresses.count address ∧ after = world := by
  rw [transactionCommit_silent none.framesAt] at committed
  split at committed
  · cases committed
    exact ⟨Nat.le_refl _, rfl⟩
  · split at committed
    · cases committed
      exact ⟨count_eraseIdx_le address _ _, rfl⟩
    · cases committed

/-! ### Handlers -/

/-- What a step counts for a frame that the handler has kept. -/
def keptCount (address : Nat) (object : FrameObject) (ret : Option FrameObject) : Nat :=
  if ret.isSome then [object.address].count address else 0

/-- A handler puts the frame it was given into one place at most, and into none when it is to be freed. -/
def PlacesOnce (handler : Handler) : Prop :=
  ∀ env object server ret next, NoCallbacks server.transactions →
    handler env object server = some (ret, next) → ∀ address,
    next.places.count address ≤ server.places.count address + keptCount address object ret

/-- Only the transactions may have changed. -/
theorem count_places_le (address : Nat) {server next : Server} (queues : next.queues = server.queues)
    (freed : next.freed = server.freed)
    (transactions : next.transactions.addresses.count address ≤
      server.transactions.addresses.count address) :
    next.places.count address ≤ server.places.count address := by
  simp only [Server.places, List.count_append, queues, freed]
  omega

/-- A handler that only answers, and whose transactions hold no new frames. -/
theorem Answering.placesOnce {handler : Handler} (answers : Answering handler)
    (shrinks : ∀ env object server ret next, NoCallbacks server.transactions →
      handler env object server = some (ret, next) → ∀ address,
      next.transactions.addresses.count address ≤ server.transactions.addresses.count address) :
    PlacesOnce handler := by
  intro env object server ret next none handled address
  have rest := (answers env object server ret next none handled).rest
  refine (count_places_le address ?_ ?_ ?_).trans (Nat.le_add_right _ _)
  · rw [rest]
  · rw [rest]
  · exact shrinks env object server ret next none handled address

theorem KeepsTransactions.shrinks {handler : Handler} (keeps : KeepsTransactions handler) :
    ∀ env object server ret next, NoCallbacks server.transactions →
      handler env object server = some (ret, next) → ∀ address,
      next.transactions.addresses.count address ≤ server.transactions.addresses.count address := by
  intro env object server ret next _ handled address
  rw [keeps env object server ret next handled]

theorem shrinks_handleTransaction (missing : ServerEnv → List UInt8)
    {act : ServerEnv → List UInt8 → Server → Option Server}
    (shrinks : ∀ env tid server next, NoCallbacks server.transactions →
      act env tid server = some next → ∀ address,
      next.transactions.addresses.count address ≤ server.transactions.addresses.count address) :
    ∀ env object server ret next, NoCallbacks server.transactions →
      handleTransaction (missing env) (act env) env object server = some (ret, next) → ∀ address,
      next.transactions.addresses.count address ≤ server.transactions.addresses.count address := by
  intro env object server ret next none handled address
  simp only [handleTransaction] at handled
  split at handled
  · cases handled
    exact Nat.le_refl _
  · obtain ⟨acted, ran, same⟩ := Option.map_eq_some_iff.mp handled
    cases same
    exact shrinks env _ server _ none ran address
  · cases handled
    exact Nat.le_refl _

theorem placesOnce_begin : PlacesOnce handlerStompBegin := by
  refine answering_begin.placesOnce (shrinks_handleTransaction (fun _ => _) ?_)
  intro env tid server next none started address
  obtain ⟨_, ran, same⟩ := Option.map_eq_some_iff.mp started
  cases same
  exact count_transactionStart address ran

theorem placesOnce_abort : PlacesOnce handlerStompAbort := by
  refine answering_abort.placesOnce (shrinks_handleTransaction (fun _ => _) ?_)
  intro env tid server next none aborted address
  cases aborted
  exact count_transactionAbort address tid server.transactions

theorem placesOnce_commit : PlacesOnce handlerStompCommit := by
  refine answering_commit.placesOnce (shrinks_handleTransaction (fun _ => _) ?_)
  intro env tid server next none committed address
  obtain ⟨_, ran, same⟩ := Option.map_eq_some_iff.mp committed
  cases same
  exact (count_transactionCommit address none ran).1

theorem placesOnce_subscribe : PlacesOnce handlerStompSubscribe := by
  intro env object server ret next none handled address
  have kept : next.queues = server.queues ∧ next.freed = server.freed := by
    simp only [handlerStompSubscribe] at handled
    split at handled
    · cases handled
    · split at handled
      · cases handled
        exact ⟨rfl, rfl⟩
      · split at handled <;> cases handled <;> exact ⟨rfl, rfl⟩
  have same := keepsTransactions_subscribe env object server ret next handled
  refine (count_places_le address kept.1 kept.2 ?_).trans (Nat.le_add_right _ _)
  rw [same]

/-- Every handler of the table but the first one. -/
theorem placesOnce_handlers : ∀ row ∈ stompHandlers.tail, PlacesOnce row.2 := by
  simp only [stompHandlers, List.tail_cons, List.forall_mem_cons, List.not_mem_nil, IsEmpty.forall_iff,
    implies_true, and_true]
  exact ⟨placesOnce_subscribe,
    answering_connect.placesOnce keepsTransactions_connect.shrinks,
    answering_connect.placesOnce keepsTransactions_connect.shrinks,
    answering_disconnect.placesOnce keepsTransactions_disconnect.shrinks,
    answering_unsubscribe.placesOnce keepsTransactions_unsubscribe.shrinks,
    placesOnce_begin, placesOnce_commit, placesOnce_abort,
    answering_ack.placesOnce keepsTransactions_ack.shrinks,
    answering_ack.placesOnce keepsTransactions_ack.shrinks⟩

/-- A frame that is taken in comes into one queue or into one transaction. -/
theorem count_takeFrame (address : Nat) (object : FrameObject) (qname : List UInt8)
    (tid : Option (List UInt8)) (server : Server) :
    (takeFrame object qname tid server).2.places.count address ≤
      server.places.count address + [object.address].count address := by
  cases tid with
  | none =>
      have queued := count_enqueue address object qname server.queues
      simp only [takeFrame, enqueueFrame, Server.places, List.count_append]
      omega
  | some tid =>
      have added := count_transactionAdd address tid
        ⟨object.address, { object.frame with transactionData := some qname }⟩ server.transactions
      dsimp only at added
      simp only [takeFrame, Server.places, List.count_append]
      omega

theorem placesOnce_send : PlacesOnce handlerStompSend := by
  intro env object server ret next _ handled address
  have replied : ∀ destination, (replyTo object.frame.sock destination server).places = server.places := by
    intro destination
    cases destination <;> rfl
  have refused : ∀ body later, (sendError env object.frame.sock body later).places = later.places :=
    fun _ _ => rfl
  have answered : ∀ sock receiptId later, (answerReceipt sock receiptId later).places = later.places := by
    intro sock receiptId later
    cases receiptId with
    | none => rfl
    | some id =>
        rw [answerReceipt, stompSendReceipt]
        split <;> rfl
  simp only [handlerStompSend] at handled
  split at handled
  · cases handled
  · split at handled
    · cases handled
      exact Nat.le_add_right _ _
    · next hAttrs info _ =>
        split at handled
        · cases handled
          rw [refused, replied]
          exact Nat.le_add_right _ _
        · next qname _ =>
            cases handled
            rw [answered, ← replied info.replyTo]
            exact count_takeFrame address
              ⟨object.address, { object.frame with hAttrs := hAttrs }⟩ qname info.tid _

/-- A frame that is handled comes into one place at most. -/
theorem handleFrame_places {object : FrameObject} {server next : Server}
    (none : NoCallbacks server.transactions) (handled : handleFrame env object server = some next)
    (address : Nat) :
    next.places.count address ≤ server.places.count address + [object.address].count address := by
  rw [handleFrame] at handled
  split at handled
  · next handler found =>
      have once : PlacesOnce handler := by
        obtain ⟨row, first, rfl⟩ := Option.map_eq_some_iff.mp found
        rcases List.mem_cons.mp (List.mem_of_find?_eq_some first) with rfl | later
        · exact placesOnce_send
        · exact placesOnce_handlers row later
      obtain ⟨⟨ret, later⟩, ran, same⟩ := Option.map_eq_some_iff.mp handled
      have counted := once env object server ret later none ran address
      cases same
      cases ret with
      | some kept => exact counted
      | none =>
          simp only [keptCount, Option.isSome_none, Bool.false_eq_true, if_false] at counted
          simp only [freeFrame, Server.places, List.count_append] at counted ⊢
          omega
  · cases handled
    exact Nat.le_add_right _ _

/-! ### Workers -/

/-- One of the numbers below `m` is given another value. -/
theorem count_filterMap_update (address : Nat) (f : Nat → Option Nat) (value : Option Nat) {m n : Nat}
    (below : n < m) :
    ((List.range m).filterMap (Function.update f n value)).count address + (f n).toList.count address =
      ((List.range m).filterMap f).count address + value.toList.count address := by
  have last : ∀ (g : Nat → Option Nat) k, [k].filterMap g = (g k).toList := by
    intro g k
    rw [List.filterMap_cons, List.filterMap_nil]
    cases g k <;> rfl
  induction m with
  | zero => exact absurd below (Nat.not_lt_zero n)
  | succ m ih =>
      simp only [List.range_succ, List.filterMap_append, List.count_append, last]
      rcases Nat.lt_succ_iff_lt_or_eq.mp below with less | rfl
      · have apart : m ≠ n := Nat.ne_of_gt less
        rw [Function.update_of_ne apart]
        have := ih less
        omega
      · have same : (List.range n).filterMap (Function.update f n value) = (List.range n).filterMap f := by
          apply List.filterMap_congr
          intro k mem
          exact Function.update_of_ne (Nat.ne_of_lt (List.mem_range.mp mem)) _ _
        rw [same, Function.update_self]
        omega

/-- A worker is somewhere else. -/
theorem count_inHands_setSender (address : Nat) (s : Connections) {n : Nat} (point : SenderPoint)
    (thread : n < s.server.workers.workers.length) :
    (s.setSender n point).inHands.count address +
        ((s.senders n).object.map FrameObject.address).toList.count address =
      s.inHands.count address + (point.object.map FrameObject.address).toList.count address := by
  have same : (fun k => ((s.setSender n point).senders k).object.map FrameObject.address) =
      Function.update (fun k => (s.senders k).object.map FrameObject.address) n
        (point.object.map FrameObject.address) := by
    funext k
    simp only [Connections.setSender, Function.update_apply]
    split <;> rfl
  rw [Connections.inHands, same]
  exact count_filterMap_update address (fun k => (s.senders k).object.map FrameObject.address) _ thread

/-- Frames have no callbacks, and a worker that does not exist has no frame. -/
structure OwnershipInv (s : Connections) : Prop where
  silent : NoCallbacks s.server.transactions
  received : ∀ object ∈ s.bucket, object.Received
  idle : ∀ n, s.server.workers.workers.length ≤ n → (s.senders n).object = none

/-- A worker moves its frame along with itself. -/
structure MovesOnce (s next : Connections) : Prop where
  transactions : next.server.transactions = s.server.transactions
  threads : next.server.workers.workers = s.server.workers.workers
  bucket : next.bucket = s.bucket
  others : ∀ n, s.server.workers.workers.length ≤ n → next.senders n = s.senders n
  count : ∀ address, next.places.count address ≤ s.places.count address

/-- A step that changes nothing but the point of one worker, and leaves its frame with it. -/
theorem movesOnce_setSender {s next : Connections} {n : Nat} {point : SenderPoint}
    (thread : n < s.server.workers.workers.length) (same : (s.senders n).object = point.object)
    (workers : next.server.workers.workers = s.server.workers.workers)
    (rest : next.server = { s.server with workers := next.server.workers })
    (bucket : next.bucket = s.bucket) (senders : next.senders = Function.update s.senders n point) :
    MovesOnce s next where
  transactions := by rw [rest]
  threads := workers
  bucket := bucket
  others k above := by
    rw [senders, Function.update_of_ne]
    omega
  count address := by
    have moved := count_inHands_setSender address s point thread
    have places : next.server.places = s.server.places := by rw [rest]; rfl
    have hands : next.inHands = (s.setSender n point).inHands := by
      rw [Connections.inHands, Connections.inHands, workers, senders]
      rfl
    rw [same] at moved
    simp only [Connections.places, List.count_append, bucket, places, hands]
    omega

theorem removeClient_workers (manager : WorkerManager) (place : Nat) (worker : Worker) :
    (manager.removeClient place worker).workers = manager.workers := by
  cases worker <;> rfl

theorem beginSending_object (manager : WorkerManager) (object : FrameObject) (worker : Worker) :
    (beginSending manager object worker).object = some object := by
  cases worker <;> rfl

theorem senderStep_moves {s next : Connections} {n : Nat} {worker : Worker} {destination : List UInt8}
    {action : ConnectionsAction} (thread : n < s.server.workers.workers.length)
    (taken : senderStep s n worker destination action = some next) : MovesOnce s next := by
  cases action with
  | accept _ | close _ | receive _ | manage => cases taken
  | check _ error =>
      simp only [senderStep] at taken
      split at taken
      · next here =>
          cases taken
          refine movesOnce_setSender thread ?_ rfl rfl rfl rfl
          rw [here]
          split <;> rfl
      · cases taken
  | dequeue _ =>
      simp only [senderStep] at taken
      split at taken
      · next here =>
          have counted := fun address => count_dequeue address destination s.server.queues
          split at taken
          · next queues popped =>
              cases taken
              refine ⟨rfl, rfl, rfl, ?_, ?_⟩
              · intro k above
                exact Function.update_of_ne (by omega) _ _
              · intro address
                have moved := count_inHands_setSender address s .loop thread
                have queued := counted address
                rw [here] at moved
                rw [popped] at queued
                simp only [Connections.places, Server.places, List.count_append, Connections.setSender,
                  SenderPoint.object, Option.map_none, Option.toList_none, List.count_nil,
                  Connections.inHands] at moved queued ⊢
                omega
          · next object queues popped =>
              cases taken
              refine ⟨rfl, rfl, rfl, ?_, ?_⟩
              · intro k above
                exact Function.update_of_ne (by omega) _ _
              · intro address
                have moved := count_inHands_setSender address s
                  (beginSending s.server.workers object worker) thread
                have queued := counted address
                rw [here, beginSending_object] at moved
                rw [popped] at queued
                simp only [Connections.places, Server.places, List.count_append, Connections.setSender,
                  SenderPoint.object, Option.map_none, Option.toList_none, List.count_nil,
                  Option.map_some, Option.toList_some, Connections.inHands] at moved queued ⊢
                omega
      · cases taken
  | visit _ error =>
      simp only [senderStep] at taken
      split at taken
      · next object place more here =>
          obtain ⟨client, _, same⟩ := Option.map_eq_some_iff.mp taken
          split at same
          · cases same
            exact movesOnce_setSender thread (by rw [here]; rfl) rfl rfl rfl rfl
          · cases same
            refine movesOnce_setSender thread ?_ (removeClient_workers _ _ _) rfl rfl rfl
            rw [here]
            split <;> rfl
      · cases taken
  | call _ =>
      simp only [senderStep] at taken
      split at taken
      · next object onward call calls here =>
          cases taken
          exact movesOnce_setSender thread (by rw [here]; rfl) rfl rfl rfl rfl
      · cases taken
  | finish _ =>
      simp only [senderStep] at taken
      split at taken
      · next object place here =>
          cases taken
          exact movesOnce_setSender thread (by rw [here]; rfl) rfl rfl rfl rfl
      · next object here =>
          cases taken
          have ended : (endPass destination object s.server worker).transactions =
                s.server.transactions ∧
              (endPass destination object s.server worker).workers = s.server.workers := by
            cases worker <;> exact ⟨rfl, rfl⟩
          refine ⟨ended.1, congrArg WorkerManager.workers ended.2, rfl, ?_, ?_⟩
          · intro k above
            exact Function.update_of_ne (by omega) _ _
          · intro address
            have moved := count_inHands_setSender address s .loop thread
            have freed : (endPass destination object s.server worker).places.count address ≤
                s.server.places.count address + [object.address].count address := by
              cases worker with
              | reply group client => exact Nat.le_add_right _ _
              | unicast group client => exact Nat.le_add_right _ _
              | multicast group =>
                  simp only [endPass, freeFrame, Server.places, List.count_append]
                  omega
            have hands : (({ s with server := endPass destination object s.server worker } :
                Connections).setSender n .loop).inHands = (s.setSender n .loop).inHands := by
              rw [Connections.inHands, Connections.inHands]
              simp only [Connections.setSender, ended.2]
            rw [here] at moved
            simp only [SenderPoint.object, Option.map_none, Option.toList_none, List.count_nil,
              Option.map_some, Option.toList_some] at moved
            rw [Connections.places, Connections.places, hands]
            simp only [Connections.setSender, List.count_append] at moved ⊢
            omega
      · cases taken

/-! ### Runs -/

/-- More workers than before have no frames yet. -/
theorem inHands_of_isPrefix {s next : Connections} (senders : next.senders = s.senders)
    (threads : s.server.workers.workers <+: next.server.workers.workers)
    (idle : ∀ n, s.server.workers.workers.length ≤ n → (s.senders n).object = none) :
    next.inHands = s.inHands := by
  obtain ⟨more, same⟩ := threads
  rw [Connections.inHands, ← same, List.length_append, List.range_add, List.filterMap_append, senders]
  have none : ((List.range more.length).map (s.server.workers.workers.length + ·)).filterMap
      (fun n => (s.senders n).object.map FrameObject.address) = [] := by
    rw [List.filterMap_eq_nil_iff]
    intro n mem
    obtain ⟨k, -, rfl⟩ := List.mem_map.mp mem
    rw [idle _ (Nat.le_add_right _ _)]
    rfl
  rw [none, List.append_nil]
  rfl

theorem MovesOnce.inv {s next : Connections} (moves : MovesOnce s next) (inv : OwnershipInv s) :
    OwnershipInv next where
  silent := moves.transactions ▸ inv.silent
  received := moves.bucket ▸ inv.received
  idle n above := by
    rw [moves.threads] at above
    rw [moves.others n above]
    exact inv.idle n above

theorem workerStep_moves {s next : Connections} {n : Nat} {action : ConnectionsAction}
    (taken : workerStep s n action = some next) : MovesOnce s next := by
  obtain ⟨worker, thread, ran⟩ := Option.bind_eq_some_iff.mp taken
  obtain ⟨destination, _, step⟩ := Option.bind_eq_some_iff.mp ran
  exact senderStep_moves (List.getElem?_eq_some_iff.mp thread).1 step

/-- Every step keeps this, and only a received frame is counted anew. -/
theorem connectionsStep_places {s next : Connections} {action : ConnectionsAction}
    (inv : OwnershipInv s) (taken : connectionsStep env s action = some next) :
    OwnershipInv next ∧ ∀ address,
      next.places.count address ≤ s.places.count address + (newlyReceived action).count address := by
  have worker : ∀ {n : Nat} {action : ConnectionsAction}, workerStep s n action = some next →
      OwnershipInv next ∧ ∀ address,
        next.places.count address ≤ s.places.count address + (newlyReceived action).count address :=
    fun step => ⟨(workerStep_moves step).inv inv,
      fun address => ((workerStep_moves step).count address).trans (Nat.le_add_right _ _)⟩
  cases action with
  | accept sock =>
      obtain ⟨_, same⟩ := Option.ite_none_right_eq_some.mp taken
      cases same
      exact ⟨⟨inv.silent, inv.received, inv.idle⟩, fun _ => Nat.le_refl _⟩
  | close sock =>
      obtain ⟨_, same⟩ := Option.ite_none_left_eq_some.mp taken
      cases same
      exact ⟨⟨inv.silent, inv.received, inv.idle⟩, fun _ => Nat.le_refl _⟩
  | receive object =>
      obtain ⟨received, ran⟩ := Option.ite_none_right_eq_some.mp taken
      obtain ⟨connection, _, same⟩ := Option.map_eq_some_iff.mp ran
      cases same
      refine ⟨⟨inv.silent, ?_, inv.idle⟩, ?_⟩
      · intro other mem
        rcases List.mem_append.mp mem with before | new
        · exact inv.received other before
        · rw [List.mem_singleton.mp new]
          exact received
      · intro address
        simp only [Connections.places, Connections.inHands, List.map_append, List.map_cons,
          List.map_nil, List.count_append, newlyReceived]
        omega
  | manage =>
      simp only [connectionsStep] at taken
      split at taken
      · next object bucket here =>
          obtain ⟨server, handled, same⟩ := Option.map_eq_some_iff.mp taken
          cases same
          have received := inv.received object (here ▸ List.mem_cons_self)
          have threads := (handleFrame_handled inv.silent handled).threads
          refine ⟨⟨(handleFrame_enqueued received inv.silent handled).2, ?_, ?_⟩, ?_⟩
          · exact fun other mem => inv.received other (here ▸ List.mem_cons_of_mem _ mem)
          · exact fun n above => inv.idle n (threads.length_le.trans above)
          · intro address
            have placed := handleFrame_places inv.silent handled address
            have hands : ({ s with server := server, bucket := bucket } : Connections).inHands =
                s.inHands := @inHands_of_isPrefix s { s with server := server, bucket := bucket } rfl
              threads inv.idle
            simp only [Connections.places, hands, here, List.map_cons, List.count_append,
              List.count_cons, List.count_nil, newlyReceived] at placed ⊢
            omega
      · cases taken
  | check n error => exact worker taken
  | dequeue n => exact worker taken
  | visit n error => exact worker taken
  | call n => exact worker taken
  | finish n => exact worker taken

/-- A run counts the received frames and those that were there at its start. -/
theorem run_places {s next : Connections} (inv : OwnershipInv s) (actions : List ConnectionsAction)
    (taken : Transition.run (connectionsStep env) s actions = some next) (address : Nat) :
    next.places.count address ≤
      s.places.count address + (receivedAddresses actions).count address := by
  induction actions generalizing s with
  | nil =>
      cases taken
      exact Nat.le_add_right _ _
  | cons action actions ih =>
      obtain ⟨middle, first, rest⟩ := Option.bind_eq_some_iff.mp taken
      obtain ⟨kept, here⟩ := connectionsStep_places inv first
      have later := ih kept rest
      have now := here address
      rw [receivedAddresses, List.flatMap_cons, List.count_append, ← receivedAddresses]
      omega

/-- In every run of the threads in which each received frame has an address of its own, a frame is in one
place at a time: in the bucket, in one queue, in one transaction, with one worker, or freed once. -/
theorem frames_in_one_place {server : Server} (silent : NoCallbacks server.transactions)
    (mentioned : List (List UInt8)) (actions : List ConnectionsAction) {s : Connections}
    (taken : Transition.run (connectionsStep env) (.start server mentioned) actions = some s)
    (apart : (server.places ++ receivedAddresses actions).Nodup) :
    s.places.Nodup ∧ ∀ address ∈ s.places, address ∈ server.places ++ receivedAddresses actions := by
  have fresh : OwnershipInv (.start server mentioned) :=
    ⟨silent, fun _ mem => absurd mem List.not_mem_nil, fun _ _ => rfl⟩
  have start : (Connections.start server mentioned).inHands = [] := by
    rw [Connections.inHands, List.filterMap_eq_nil_iff]
    exact fun _ _ => rfl
  have counted : ∀ address, s.places.count address ≤
      (server.places ++ receivedAddresses actions).count address := by
    intro address
    have run := run_places fresh actions taken address
    have first : (Connections.start server mentioned).places = server.places := by
      rw [Connections.places, start, List.append_nil]
      rfl
    rw [first] at run
    rw [List.count_append]
    exact run
  constructor
  · rw [List.nodup_iff_count_le_one] at apart ⊢
    exact fun address => (counted address).trans (apart address)
  · intro address mem
    exact List.count_pos_iff.mp ((List.count_pos_iff.mpr mem).trans_le (counted address))

/-- A connection on socket 3 subscribes to a topic and sends a message to it, which the worker of the topic
dequeues, sends and frees. -/
def topicRun : List ConnectionsAction :=
  [.accept 3, .receive ⟨0, exampleFrame "SUBSCRIBE" "destination:/topic/t"⟩, .manage,
    .receive ⟨1, exampleFrame "SEND" "destination:/topic/t"⟩, .manage, .check 0 false, .dequeue 0,
    .visit 0 false] ++ List.replicate 7 (.call 0) ++ [.finish 0]

theorem frames_in_one_place_topic :
    ∃ s, Transition.run (connectionsStep quietEnv)
        (.start (Server.init (cstring "data") fun _ => none) []) topicRun = some s ∧
      s.places = [0, 1] ∧ s.places.Nodup ∧ ∀ address ∈ s.places, address ∈
        (Server.init (cstring "data") fun _ => none).places ++ receivedAddresses topicRun := by
  have taken : ∃ s, Transition.run (connectionsStep quietEnv)
      (.start (Server.init (cstring "data") fun _ => none) []) topicRun = some s ∧
      s.places = [0, 1] := by
    apply Option.map_eq_some_iff.mp
    decide +kernel
  obtain ⟨s, run, places⟩ := taken
  have silent : NoCallbacks (Server.init (cstring "data") fun _ => none).transactions :=
    fun _ mem => absurd mem List.not_mem_nil
  exact ⟨s, run, places, frames_in_one_place silent [] topicRun run (by decide +kernel)⟩

end Newtmq
