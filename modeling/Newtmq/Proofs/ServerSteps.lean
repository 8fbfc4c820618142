/-
Module: Newtmq.Proofs.ServerSteps
Purpose: What one step of the server does to the record of enqueued frames and to the frames that wait
  in transactions. Only a `SEND` without a transaction is enqueued, and no frame that waits has a
  callback.
Trusted boundary: none
Main exports: NoCallbacks, FrameObject.Received, directSend, Quiet, handleFrame_cases,
  handleFrame_enqueued, run_enqueued
-/
import Newtmq.Core.Handlers
import Newtmq.Library.Transition
import Newtmq.Proofs.TransactionCommit

namespace Newtmq

variable {env : ServerEnv}

/-- No frame of an open transaction has a callback. -/
def NoCallbacks (manager : TransactionManager) : Prop :=
  ∀ transaction ∈ manager.list, ∀ object ∈ transaction.frames,
    object.frame.transactionCallback = none

/-- The frame as the parser leaves it: without a callback. -/
def FrameObject.Received (object : FrameObject) : Prop :=
  object.frame.transactionCallback = none

/-- The transaction and the destination that a `SEND` frame names, when its header is accepted. -/
def sendTarget (object : FrameObject) : Option (Option (List UInt8) × List UInt8) :=
  if (cstring "SEND").isPrefixOf object.frame.name then
    match object.frame.cinfo with
    | none => none
    | some cinfoId =>
        match sendAttrinfo cinfoId object.frame with
        | (.error, _, _) => none
        | (.success, _, info) => info.qname.map fun qname => (info.tid, qname)
  else none

/-- The record of a `SEND` frame without a transaction. -/
def directSend (object : FrameObject) : List (List UInt8 × Nat) :=
  match sendTarget object with
  | some (none, qname) => [(cstr qname, object.address)]
  | _ => []

/-! ### Transactions -/

theorem NoCallbacks.framesAt {manager : TransactionManager} (none : NoCallbacks manager)
    (place : Nat) : ∀ object ∈ manager.framesAt place, object.frame.transactionCallback = .none := by
  intro object mem
  unfold TransactionManager.framesAt at mem
  cases here : manager.list[place]? with
  | none => simp [here] at mem
  | some transaction =>
      rw [here] at mem
      exact none transaction (List.mem_of_getElem? here) object mem

theorem NoCallbacks.freeTransaction {manager : TransactionManager} (none : NoCallbacks manager)
    (place : Nat) : NoCallbacks (freeTransaction place manager) :=
  fun transaction mem => none transaction (List.mem_of_mem_eraseIdx mem)

theorem NoCallbacks.transactionAdd {manager : TransactionManager} (none : NoCallbacks manager)
    (tid : List UInt8) {object : FrameObject} (received : object.Received) :
    NoCallbacks (transactionAdd tid object manager).2 := by
  unfold Newtmq.transactionAdd
  split
  · next place _ =>
      intro transaction mem other memOther
      obtain ⟨i, at_⟩ := List.mem_iff_getElem?.mp mem
      simp only [List.getElem?_modify, Option.map_eq_map, Option.map_eq_some_iff] at at_
      obtain ⟨old, atOld, rfl⟩ := at_
      have memOld := List.mem_of_getElem? atOld
      split at memOther
      · rcases List.mem_cons.mp memOther with rfl | memOther
        · exact received
        · exact none old memOld other memOther
      · exact none old memOld other memOther
  · exact none

theorem NoCallbacks.transactionAbort {manager : TransactionManager} (none : NoCallbacks manager)
    (tid : List UInt8) : NoCallbacks (transactionAbort tid manager).2 := by
  unfold Newtmq.transactionAbort
  split
  · exact none.freeTransaction _
  · exact none

theorem NoCallbacks.transactionStart {manager manager' : TransactionManager} {ret : Ret}
    {malloc : Nat → List UInt8} {tid : List UInt8} (none : NoCallbacks manager)
    (started : transactionStart malloc tid manager = some (ret, manager')) :
    NoCallbacks manager' := by
  unfold Newtmq.transactionStart at started
  split at started
  · cases started
    exact none
  · obtain ⟨allocated, fits, same⟩ := Option.map_eq_some_iff.mp started
    cases same
    simp only [allocTransaction] at fits
    split at fits
    · cases fits
    · cases fits
      intro transaction mem object memObject
      rcases List.mem_append.mp mem with old | new
      · exact none transaction old object memObject
      · rw [List.mem_singleton.mp new] at memObject
        cases memObject

/-! ### Handlers that enqueue nothing -/

/-- A handler that enqueues nothing and keeps callbacks out of the transactions. -/
def Quiet (handler : Handler) : Prop :=
  ∀ env object server ret server', NoCallbacks server.transactions →
    handler env object server = some (ret, server') →
    server'.enqueued = server.enqueued ∧ NoCallbacks server'.transactions

theorem stompSendReceipt_enqueued (sock : Int) (id : List UInt8) (server : Server) :
    (stompSendReceipt sock id server).enqueued = server.enqueued ∧
      (stompSendReceipt sock id server).transactions = server.transactions := by
  unfold stompSendReceipt
  split <;> exact ⟨rfl, rfl⟩

theorem quiet_handleTransaction (missing : ServerEnv → List UInt8)
    {act : ServerEnv → List UInt8 → Server → Option Server}
    (quiet : ∀ env tid server server', NoCallbacks server.transactions →
      act env tid server = some server' →
      server'.enqueued = server.enqueued ∧ NoCallbacks server'.transactions) :
    Quiet fun env => handleTransaction (missing env) (act env) env := by
  intro env object server ret server' none handled
  simp only [handleTransaction] at handled
  split at handled
  · cases handled
    exact ⟨rfl, none⟩
  · obtain ⟨acted, ran, same⟩ := Option.map_eq_some_iff.mp handled
    cases same
    exact quiet env _ server _ none ran
  · cases handled
    exact ⟨rfl, none⟩

theorem quiet_begin : Quiet handlerStompBegin := by
  refine quiet_handleTransaction (fun _ => _) ?_
  intro env tid server server' none started
  obtain ⟨⟨ret, manager⟩, transaction, same⟩ := Option.map_eq_some_iff.mp started
  cases same
  exact ⟨rfl, none.transactionStart transaction⟩

theorem quiet_abort : Quiet handlerStompAbort := by
  refine quiet_handleTransaction (fun _ => _) ?_
  intro env tid server server' none aborted
  cases aborted
  exact ⟨rfl, none.transactionAbort tid⟩

theorem quiet_commit : Quiet handlerStompCommit := by
  refine quiet_handleTransaction (fun _ => _) ?_
  intro env tid server server' none committed
  obtain ⟨⟨ret, manager, world⟩, commit, same⟩ := Option.map_eq_some_iff.mp committed
  cases same
  rw [transactionCommit_silent none.framesAt] at commit
  split at commit
  · cases commit
    exact ⟨rfl, none⟩
  · split at commit
    · cases commit
      exact ⟨rfl, none.freeTransaction _⟩
    · cases commit

theorem quiet_subscribe : Quiet handlerStompSubscribe := by
  intro env object server ret server' none handled
  simp only [handlerStompSubscribe] at handled
  split at handled
  · cases handled
  · split at handled
    · cases handled
      exact ⟨rfl, none⟩
    · split at handled <;> cases handled <;> exact ⟨rfl, none⟩

theorem quiet_unsubscribe : Quiet handlerStompUnsubscribe := by
  intro env object server ret server' none handled
  simp only [handlerStompUnsubscribe] at handled
  split at handled
  · cases handled
  · split at handled <;> cases handled <;> exact ⟨rfl, none⟩

theorem quiet_ack : Quiet handlerStompAck := by
  intro env object server ret server' none handled
  simp only [handlerStompAck] at handled
  split at handled
  · cases handled
  · split at handled <;> cases handled <;> exact ⟨rfl, none⟩

theorem quiet_connect : Quiet handlerStompConnect := by
  intro env object server ret server' none handled
  simp only [handlerStompConnect] at handled
  split at handled
  · cases handled
  · split at handled <;> cases handled <;> exact ⟨rfl, none⟩

theorem quiet_disconnect : Quiet handlerStompDisconnect := by
  intro env object server ret server' none handled
  simp only [handlerStompDisconnect] at handled
  split at handled
  · cases handled
    exact ⟨rfl, none⟩
  · next id _ =>
      cases handled
      obtain ⟨enqueued, transactions⟩ := stompSendReceipt_enqueued object.frame.sock id server
      exact ⟨enqueued, transactions ▸ none⟩
  · cases handled
    exact ⟨rfl, none⟩

/-- Every handler of the table but the first one. -/
theorem quiet_handlers : ∀ row ∈ stompHandlers.tail, Quiet row.2 := by
  simp only [stompHandlers, List.tail_cons, List.forall_mem_cons, List.not_mem_nil, IsEmpty.forall_iff,
    implies_true, and_true]
  exact ⟨quiet_subscribe, quiet_connect, quiet_connect, quiet_disconnect, quiet_unsubscribe,
    quiet_begin, quiet_commit, quiet_abort, quiet_ack, quiet_ack⟩

/-! ### `SEND` -/

theorem replyTo_enqueued (sock : Int) (destination : Option (List UInt8)) (server : Server) :
    (replyTo sock destination server).enqueued = server.enqueued ∧
      (replyTo sock destination server).transactions = server.transactions := by
  cases destination <;> exact ⟨rfl, rfl⟩

theorem answerReceipt_enqueued (sock : Int) (receiptId : Option (List UInt8)) (server : Server) :
    (answerReceipt sock receiptId server).enqueued = server.enqueued ∧
      (answerReceipt sock receiptId server).transactions = server.transactions := by
  cases receiptId with
  | none => exact ⟨rfl, rfl⟩
  | some id => exact stompSendReceipt_enqueued sock id server

/-- A frame without a transaction is recorded, and one with a transaction waits in it. -/
theorem takeFrame_enqueued {object : FrameObject} (received : object.Received) {server : Server}
    (none : NoCallbacks server.transactions) (qname : List UInt8) (tid : Option (List UInt8)) :
    (takeFrame object qname tid server).2.enqueued =
        server.enqueued ++ (if tid = .none then [(cstr qname, object.address)] else []) ∧
      NoCallbacks (takeFrame object qname tid server).2.transactions := by
  cases tid with
  | none => exact ⟨rfl, none⟩
  | some tid =>
      refine ⟨by simp [takeFrame], ?_⟩
      have waiting : FrameObject.Received
          ⟨object.address, { object.frame with transactionData := some qname }⟩ := received
      exact none.transactionAdd tid waiting

theorem handlerStompSend_enqueued {object : FrameObject} (received : object.Received)
    (name : (cstring "SEND").isPrefixOf object.frame.name = true) {server server' : Server}
    {ret : Option FrameObject} (none : NoCallbacks server.transactions)
    (handled : handlerStompSend env object server = some (ret, server')) :
    server'.enqueued = server.enqueued ++ directSend object ∧
      NoCallbacks server'.transactions := by
  simp only [handlerStompSend] at handled
  split at handled
  · cases handled
  · next cinfoId cinfo =>
      split at handled
      · next lines info attrs =>
          cases handled
          refine ⟨?_, none⟩
          simp [directSend, sendTarget, name, cinfo, attrs, sendError]
      · next hAttrs info attrs =>
          obtain ⟨sameRecord, sameManager⟩ := replyTo_enqueued object.frame.sock info.replyTo server
          have noneReplied := sameManager.symm ▸ none
          split at handled
          · next noQname =>
              cases handled
              refine ⟨?_, noneReplied⟩
              simp [directSend, sendTarget, name, cinfo, attrs, noQname, sendError, sameRecord]
          · next qname isQname =>
              cases handled
              have receivedHere : FrameObject.Received
                  ⟨object.address, { object.frame with hAttrs := hAttrs }⟩ := received
              obtain ⟨record, waiting⟩ := takeFrame_enqueued receivedHere noneReplied qname info.tid
              have direct : directSend object =
                  if info.tid = .none then [(cstr qname, object.address)] else [] := by
                simp only [directSend, sendTarget, name, cinfo, attrs, isQname, if_true,
                  Option.map_some]
                cases info.tid <;> simp
              rw [(answerReceipt_enqueued _ _ _).1, (answerReceipt_enqueued _ _ _).2, direct,
                ← sameRecord]
              exact ⟨record, waiting⟩

/-! ### Every step -/

/-- A handler other than that of `SEND` runs only for frames that are no `SEND`. -/
theorem findHandler_cases {name : List UInt8} {handler : Handler}
    (found : findHandler name = some handler) :
    ((cstring "SEND").isPrefixOf name = true ∧ handler = handlerStompSend) ∨
      ((cstring "SEND").isPrefixOf name = false ∧ Quiet handler) := by
  obtain ⟨row, first, rfl⟩ := Option.map_eq_some_iff.mp found
  by_cases send : (cstring "SEND").isPrefixOf name = true
  · refine Or.inl ⟨send, ?_⟩
    rw [stompHandlers, List.find?_cons, send] at first
    cases first
    rfl
  · have notSend := Bool.eq_false_iff.mpr send
    refine Or.inr ⟨notSend, ?_⟩
    rw [stompHandlers, List.find?_cons, notSend] at first
    exact quiet_handlers row (List.mem_of_find?_eq_some first)

/-- A frame goes to the handler of its name, and may be freed after that. Without a handler an error is
sent. -/
theorem handleFrame_cases {object : FrameObject} {server next : Server}
    (handled : handleFrame env object server = some next) :
    (∃ handler ret later freed, findHandler object.frame.name = some handler ∧
      handler env object server = some (ret, later) ∧ next = { later with freed := freed }) ∨
    (findHandler object.frame.name = none ∧ ∃ wire, next = { server with wire := wire }) := by
  rw [handleFrame] at handled
  split at handled
  · next handler found =>
      obtain ⟨⟨ret, later⟩, ran, same⟩ := Option.map_eq_some_iff.mp handled
      cases same
      cases ret with
      | some kept => exact Or.inl ⟨handler, _, later, later.freed, found, ran, rfl⟩
      | none => exact Or.inl ⟨handler, _, later, _, found, ran, rfl⟩
  · next notFound =>
      cases handled
      exact Or.inr ⟨notFound, _, rfl⟩

/-- Handling a frame records it when it is a `SEND` without a transaction, and nothing else. -/
theorem handleFrame_enqueued {object : FrameObject} (received : object.Received)
    {server server' : Server} (none : NoCallbacks server.transactions)
    (handled : handleFrame env object server = some server') :
    server'.enqueued = server.enqueued ++ directSend object ∧
      NoCallbacks server'.transactions := by
  rcases handleFrame_cases handled with
    ⟨handler, ret, later, freed, found, ran, rfl⟩ | ⟨notFound, wire, rfl⟩
  · rcases findHandler_cases found with ⟨send, rfl⟩ | ⟨notSend, quiet⟩
    · have sent := handlerStompSend_enqueued received send none ran
      exact sent
    · have direct : directSend object = [] := by simp [directSend, sendTarget, notSend]
      rw [direct, List.append_nil]
      have unsent := quiet env object server ret later none ran
      exact unsent
  · have notSend : (cstring "SEND").isPrefixOf object.frame.name = false := by
      have missing := Option.map_eq_none_iff.mp notFound
      rw [List.find?_eq_none] at missing
      exact Bool.eq_false_iff.mpr
        (missing (cstring "SEND", handlerStompSend) (List.mem_cons_self ..))
    have direct : directSend object = [] := by simp [directSend, sendTarget, notSend]
    rw [direct, List.append_nil]
    exact ⟨rfl, none⟩

/-- The frames that the management worker handles in some steps. -/
def handledObjects (actions : List ServerAction) : List FrameObject :=
  actions.filterMap fun action =>
    match action with
    | .handle object => some object
    | .dequeue _ => none

/-- A run records the `SEND` frames without a transaction, in the order in which they are handled. -/
theorem run_enqueued (actions : List ServerAction) {server server' : Server}
    (received : ∀ object ∈ handledObjects actions, object.Received)
    (none : NoCallbacks server.transactions)
    (taken : Transition.run (serverStep env) server actions = some server') :
    server'.enqueued = server.enqueued ++ (handledObjects actions).flatMap directSend ∧
      NoCallbacks server'.transactions := by
  induction actions generalizing server with
  | nil =>
      cases taken
      exact ⟨by simp [handledObjects], none⟩
  | cons action actions ih =>
      obtain ⟨next, first, rest⟩ := Option.bind_eq_some_iff.mp taken
      cases action with
      | handle object =>
          have split : handledObjects (.handle object :: actions) =
              object :: handledObjects actions := rfl
          rw [split] at received ⊢
          obtain ⟨recorded, noneNext⟩ := handleFrame_enqueued (received object (by simp)) none first
          obtain ⟨more, noneLast⟩ :=
            ih (fun o mem => received o (List.mem_cons_of_mem object mem)) noneNext rest
          exact ⟨by rw [more, recorded, List.flatMap_cons, List.append_assoc], noneLast⟩
      | dequeue qname =>
          have keeps : next.enqueued = server.enqueued ∧ NoCallbacks next.transactions := by
            cases first
            exact ⟨rfl, none⟩
          obtain ⟨more, noneLast⟩ := ih received keeps.2 rest
          exact ⟨by rw [more, keeps.1]; rfl, noneLast⟩

end Newtmq
