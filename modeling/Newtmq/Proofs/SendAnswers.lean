/-
Module: Newtmq.Proofs.SendAnswers
Purpose: What `handler_stomp_send` does, case by case, and from this when its answers are true: an
  `ERROR` unless a group has been registered for replies before, and a `RECEIPT` when the transaction of
  the frame is found under its own id.
Trusted boundary: none
Main exports: iterateHeader_send_success_iff, handlerStompSend_cases, rejects_without_effect_iff,
  handleFrame_no_request, RecordedInv, keeps_promise_iff
-/
import Newtmq.Proofs.QueueMap
import Newtmq.Proofs.Registration
import Newtmq.Proofs.TransactionIsolation
import Newtmq.Spec.SendAnswers

namespace Newtmq

open Transition (Reaches)

variable {env : ServerEnv} {object : FrameObject} {server : Server}

/-! ### The header of a `SEND` -/

theorem applyHandlers_replyTo_success_iff (line : Linedata) (info : SendAttrinfo) :
    (applyHandlers [(replyToName, handlerReplyTo)] line info).1 = .success ↔
      ∀ value ∈ lineValue replyToName line, value.length + UNIQUE_STR_LEN < LD_MAX := by
  rw [applyHandlers, lineValue]
  split
  · simp only [handlerReplyTo, Option.mem_def, Option.some.injEq, forall_eq']
    by_cases fits : (cstr (line.memory.drop replyToName.length)).length + UNIQUE_STR_LEN < LD_MAX
    · rw [if_pos fits]
      exact iff_of_true rfl fits
    · rw [if_neg fits]
      exact iff_of_false (by simp) fits
  · exact iff_of_true rfl (by simp)

theorem applyHandlers_send_success_iff (line : Linedata) (info : SendAttrinfo) :
    (applyHandlers sendHandlers line info).1 = .success ↔
      ∀ value ∈ lineValue replyToName line, value.length + UNIQUE_STR_LEN < LD_MAX := by
  rw [sendHandlers, applyHandlers_store, applyHandlers_store, applyHandlers_store]
  exact applyHandlers_replyTo_success_iff line _

/-- The header of a `SEND` frame is accepted when the values of its reply-to headers fit. -/
theorem iterateHeader_send_success_iff (lines : List Linedata) (info : SendAttrinfo) :
    (iterateHeader sendHandlers lines info).1 = .success ↔ ReplyTosFit lines := by
  induction lines generalizing info with
  | nil => exact iff_of_true rfl (by simp [ReplyTosFit])
  | cons line lines ih =>
      have first := applyHandlers_send_success_iff line info
      rw [ReplyTosFit, List.forall_mem_cons, ← first, iterateHeader]
      rcases applyHandlers sendHandlers line info with ⟨_ | _, line', middle⟩
      · exact (ih middle).trans (by simp [ReplyTosFit])
      · simp

/-- The handlers of `SEND` record the receipt of a line. -/
theorem applyHandlers_sendReceipt {line line' : Linedata} {info info' : SendAttrinfo}
    (applied : applyHandlers sendHandlers line info = (.success, line', info')) :
    info'.receiptId = (lineValue receiptName line).or info.receiptId := by
  rw [sendHandlers, applyHandlers_store, applyHandlers_store, applyHandlers_store] at applied
  obtain ⟨stored, recorded, receipt⟩ : ∃ stored,
      applyHandlers [(replyToName, handlerReplyTo)] line stored = (.success, line', info') ∧
      stored.receiptId = (lineValue receiptName line).or info.receiptId := by
    refine ⟨_, applied, ?_⟩
    rw [receiptName]
    cases lineValue (cstring "destination:") line <;> cases lineValue (cstring "transaction:") line <;>
      cases lineValue (cstring "receipt:") line <;> rfl
  rw [← receipt]
  rw [applyHandlers] at recorded
  split at recorded
  · simp only [handlerReplyTo] at recorded
    split at recorded
    · cases recorded
    · next found =>
        split at found
        · cases found
          cases recorded
          rfl
        · cases found
  · cases recorded
    rfl

theorem iterateHeader_sendReceipt {lines lines' : List Linedata} {info info' : SendAttrinfo}
    (applied : iterateHeader sendHandlers lines info = (.success, lines', info')) :
    info'.receiptId = (headerValue receiptName lines).or info.receiptId := by
  induction lines generalizing lines' info with
  | nil =>
      cases applied
      rfl
  | cons line lines ih =>
      rw [iterateHeader] at applied
      split at applied
      · cases applied
      · next changed middle first =>
          cases later : iterateHeader sendHandlers lines middle with
          | mk ret tail =>
              rw [later] at applied
              cases applied
              rw [headerValue_cons, ih later, applyHandlers_sendReceipt first, Option.or_assoc]

/-- Everything that `handler_stomp_send` can do: reject the header, reject a frame without a destination
after the worker for replies has been registered, or take the frame in and send the receipt. -/
theorem handlerStompSend_cases {ret : Option FrameObject} {after : Server}
    (handled : handlerStompSend env object server = some (ret, after)) :
    (¬ ReplyTosFit object.frame.hAttrs ∧ ret = none ∧
        after = sendError env object.frame.sock (cstring "failed to validate header\n") server) ∨
      (ReplyTosFit object.frame.hAttrs ∧ object.frame.destination = none ∧ ret = none ∧
        after = sendError env object.frame.sock (cstring "no destination is specified\n")
          (replyTo object.frame.sock object.frame.rewrittenReplyTo server)) ∨
      (ReplyTosFit object.frame.hAttrs ∧ ∃ hAttrs destination taken stored,
        object.frame.destination = some destination ∧
        takeFrame { object with frame := { object.frame with hAttrs := hAttrs } } destination
          (headerValue transactionName object.frame.hAttrs)
          (replyTo object.frame.sock object.frame.rewrittenReplyTo server) = (taken, stored) ∧
        ret = some taken ∧
        after = answerReceipt taken.frame.sock (headerValue receiptName object.frame.hAttrs) stored) := by
  rw [handlerStompSend] at handled
  split at handled
  · cases handled
  · next cinfoId cinfo =>
      have accepts := iterateHeader_send_success_iff object.frame.hAttrs
        { cinfoId := cinfoId, qname := none, tid := none, receiptId := none, replyTo := none }
      split at handled
      · next attrs =>
          cases handled
          rw [sendAttrinfo] at attrs
          rw [attrs] at accepts
          have refused : ¬ ReplyTosFit object.frame.hAttrs := by
            intro fits
            cases accepts.mpr fits
          exact Or.inl ⟨refused, rfl, rfl⟩
      · next hAttrs info attrs =>
          obtain ⟨qname, replied, -, tid⟩ := iterateHeader_sendValues attrs
          have receipt := iterateHeader_sendReceipt attrs
          rw [sendAttrinfo] at attrs
          rw [attrs] at accepts
          have fits := accepts.mp rfl
          have rewritten : info.replyTo = object.frame.rewrittenReplyTo := by
            rw [replied, Option.or_none, Frame.rewrittenReplyTo, cinfo]
            cases headerValue replyToName object.frame.hAttrs <;> rfl
          rw [Option.or_none] at qname tid receipt
          have named : object.frame.destination = info.qname := qname.symm
          rw [rewritten] at handled
          dsimp only at handled
          split at handled
          · next missing =>
              cases handled
              exact Or.inr (Or.inl ⟨fits, named.trans missing, rfl, rfl⟩)
          · next destination found =>
              cases handled
              rw [← tid, ← receipt]
              exact Or.inr (Or.inr ⟨fits, hAttrs, destination, _, _, named.trans found, rfl, rfl, rfl⟩)

/-- The handler returns for every frame of a connection. -/
theorem handlerStompSend_returns (env : ServerEnv) (server : Server)
    (connected : object.frame.cinfo ≠ none) :
    ∃ ret after, handlerStompSend env object server = some (ret, after) := by
  rw [handlerStompSend]
  split
  · next missing => exact absurd missing connected
  · split
    · exact ⟨_, _, rfl⟩
    · dsimp only
      split
      · exact ⟨_, _, rfl⟩
      · exact ⟨_, _, rfl⟩

/-! ### Errors -/

/-- A registration changes the groups exactly when the destination has none yet. -/
theorem replyTo_workers_iff (sock : Int) (destination : Option (List UInt8)) (server : Server) :
    (replyTo sock destination server).workers = server.workers ↔
      ∀ reply ∈ destination, searchDestGroup reply server.workers ≠ none := by
  cases destination with
  | none => exact iff_of_true rfl (by simp)
  | some reply =>
      simp only [replyTo, registerReplyWorker, Option.mem_def, Option.some.injEq, forall_eq']
      cases found : searchDestGroup reply server.workers with
      | some place => exact iff_of_true rfl (by simp)
      | none =>
          refine iff_of_false (fun same => ?_) (by simp)
          have lengths := congrArg (fun workers => workers.workers.length) same
          simp [createWorker, addClient, createDestGroup] at lengths

theorem replyTo_others (sock : Int) (destination : Option (List UInt8)) (server : Server) :
    (replyTo sock destination server).queues = server.queues ∧
      (replyTo sock destination server).transactions = server.transactions ∧
      (replyTo sock destination server).persistent = server.persistent ∧
      (replyTo sock destination server).wire = server.wire := by
  cases destination <;> exact ⟨rfl, rfl, rfl, rfl⟩

theorem answerReceipt_others (sock : Int) (receiptId : Option (List UInt8)) (server : Server) :
    (answerReceipt sock receiptId server).queues = server.queues ∧
      (answerReceipt sock receiptId server).transactions = server.transactions :=
  ⟨(answerReceipt_untouched sock receiptId server).2, (answerReceipt_enqueued sock receiptId server).2⟩

/-- An `ERROR` answer says that nothing has changed, unless the frame has no destination and its
destination for replies had no group: the worker for replies is registered before the destination is
looked at. -/
theorem rejects_without_effect_iff (env : ServerEnv) (object : FrameObject) (server : Server) :
    RejectsWithoutEffect env object server ↔ ¬ RegistersReply object server := by
  have changes :=
    replyTo_workers_iff object.frame.sock object.frame.rewrittenReplyTo server
  constructor
  · rintro inert ⟨fits, missing, reply, asked, fresh⟩
    have connected : object.frame.cinfo ≠ none := by
      intro none
      rw [Frame.rewrittenReplyTo, none] at asked
      simp at asked
    obtain ⟨ret, after, handled⟩ := handlerStompSend_returns env server connected
    rcases handlerStompSend_cases handled with ⟨refused, _⟩ | ⟨_, _, rfl, rfl⟩ |
      ⟨_, _, _, _, _, named, _⟩
    · exact refused fits
    · exact changes.mp (inert _ handled).workers reply asked fresh
    · rw [missing] at named
      cases named
  · intro harmless after handled
    obtain ⟨queues, transactions, persistent, -⟩ :=
      replyTo_others object.frame.sock object.frame.rewrittenReplyTo server
    rcases handlerStompSend_cases handled with ⟨_, _, rfl⟩ | ⟨fits, missing, _, rfl⟩ |
      ⟨_, _, _, _, _, _, _, kept, _⟩
    · exact ⟨rfl, rfl, rfl, rfl⟩
    · refine ⟨changes.mpr ?_, queues, transactions, persistent⟩
      intro reply asked fresh
      exact harmless ⟨fits, missing, reply, asked, fresh⟩
    · cases kept

/-- A `SEND` frame of a connection with the id `c` that has these header lines. -/
def sendOf (lines : List String) : FrameObject where
  address := 0
  frame :=
    { allocFrame with
      name := cstring "SEND"
      sock := 3
      hAttrs := lines.map fun line => ⟨cstring line, line.length⟩
      cinfo := some (cstring "c") }

/-- A `SEND` with a reply-to header only is rejected, and leaves a group and a thread behind. -/
theorem rejected_send_registers :
    ¬ ∀ env object server, RejectsWithoutEffect env object server := by
  intro holds
  have left : ∃ after,
      handlerStompSend quietEnv (sendOf ["reply-to:r"]) (Server.init [] fun _ => none) =
        some (none, after) ∧
      after.workers.workers ≠ [] := ⟨_, rfl, by decide⟩
  obtain ⟨after, handled, created⟩ := left
  exact created (congrArg WorkerManager.workers (holds _ _ _ after handled).workers)

/-! ### The record -/

/-- A handler that leaves the transactions as they are. -/
def KeepsTransactions (handler : Handler) : Prop :=
  ∀ env object server ret next, handler env object server = some (ret, next) →
    next.transactions = server.transactions

theorem keepsTransactions_subscribe : KeepsTransactions handlerStompSubscribe := by
  intro env object server ret next handled
  simp only [handlerStompSubscribe] at handled
  split at handled
  · cases handled
  · split at handled
    · cases handled
      rfl
    · split at handled
      · cases handled
        rfl
      · cases handled
        rfl

theorem keepsTransactions_unsubscribe : KeepsTransactions handlerStompUnsubscribe := by
  intro env object server ret next handled
  simp only [handlerStompUnsubscribe] at handled
  split at handled
  · cases handled
  · split at handled
    · cases handled
      rfl
    · cases handled
      rfl
    · cases handled
      rfl

theorem keepsTransactions_ack : KeepsTransactions handlerStompAck := by
  intro env object server ret next handled
  simp only [handlerStompAck] at handled
  split at handled
  · cases handled
  · split at handled
    · cases handled
      rfl
    · cases handled
      rfl

theorem keepsTransactions_connect : KeepsTransactions handlerStompConnect := by
  intro env object server ret next handled
  simp only [handlerStompConnect] at handled
  split at handled
  · cases handled
  · split at handled
    · cases handled
      rfl
    · cases handled
      rfl

theorem keepsTransactions_disconnect : KeepsTransactions handlerStompDisconnect := by
  intro env object server ret next handled
  simp only [handlerStompDisconnect] at handled
  split at handled
  · cases handled
    rfl
  · cases handled
    exact (stompSendReceipt_enqueued _ _ _).2
  · cases handled
    rfl

/-- A frame without a transaction header is handled as an error. -/
theorem handleTransaction_headerless {missing : List UInt8} {act : List UInt8 → Server → Option Server}
    {ret : Option FrameObject} {next : Server} (headerless : transactionHeader object = none)
    (handled : handleTransaction missing act env object server = some (ret, next)) :
    next.transactions = server.transactions := by
  unfold transactionHeader at headerless
  rcases accepted : iterateHeader transactionHandlers object.frame.hAttrs none with
    ⟨_ | _, hAttrs, _ | tid⟩
  · rw [handleTransaction, accepted] at handled
    cases handled
    rfl
  · rw [accepted] at headerless
    cases headerless
  · rw [handleTransaction, accepted] at handled
    cases handled
    rfl
  · rw [handleTransaction, accepted] at handled
    cases handled
    rfl

/-- A `SEND` frame that makes no request of the transactions leaves them as they are. -/
theorem handlerStompSend_no_request {ret : Option FrameObject} {next : Server}
    (requests : sendRequest object = none)
    (handled : handlerStompSend env object server = some (ret, next)) :
    next.transactions = server.transactions := by
  simp only [handlerStompSend] at handled
  split at handled
  · cases handled
  · next cinfoId cinfo =>
      split at handled
      · cases handled
        rfl
      · next hAttrs info attrs =>
          have replied := (replyTo_others object.frame.sock info.replyTo server).2.1
          split at handled
          · cases handled
            exact replied
          · next destination found =>
              cases handled
              rw [(answerReceipt_others _ _ _).2]
              cases transaction : info.tid with
              | none => exact replied
              | some tid =>
                  obtain ⟨_, qname, tid', _, _⟩ := info
                  cases found
                  cases transaction
                  simp [sendRequest, cinfo, attrs] at requests

/-- A frame with one of the three commands that makes no request has no transaction header. -/
theorem transactionHeader_none {command : List UInt8} {request : List UInt8 → TransactionRequest}
    (named : command.isPrefixOf object.frame.name = true)
    (reads : ∀ (rest : List UInt8) (other : FrameObject), other.frame.name = command ++ rest →
      transactionRequest other = (transactionHeader other).map request)
    (requests : transactionRequest object = none) : transactionHeader object = none := by
  obtain ⟨rest, same⟩ := List.isPrefixOf_iff_prefix.mp named
  rw [reads rest object same.symm] at requests
  exact Option.map_eq_none_iff.mp requests

/-- A frame that makes no request of the transactions leaves them as they are. -/
theorem handleFrame_no_request {next : Server} (requests : transactionRequest object = none)
    (handled : handleFrame env object server = some next) :
    next.transactions = server.transactions := by
  rcases handleFrame_cases handled with
    ⟨handler, ret, later, freed, found, ran, rfl⟩ | ⟨_, wire, rfl⟩
  · change later.transactions = server.transactions
    obtain ⟨row, first, rfl⟩ := Option.map_eq_some_iff.mp found
    have named : row.1.isPrefixOf object.frame.name = true :=
      @List.find?_some _ (fun row : List UInt8 × Handler => row.1.isPrefixOf object.frame.name) _ _ first
    have member := List.mem_of_find?_eq_some first
    simp only [stompHandlers, List.mem_cons, List.not_mem_nil, or_false] at member
    rcases member with rfl | rfl | rfl | rfl | rfl | rfl | rfl | rfl | rfl | rfl | rfl
    · rw [transactionRequest, if_pos named] at requests
      exact handlerStompSend_no_request requests ran
    · exact keepsTransactions_subscribe _ _ _ _ _ ran
    · exact keepsTransactions_connect _ _ _ _ _ ran
    · exact keepsTransactions_connect _ _ _ _ _ ran
    · exact keepsTransactions_disconnect _ _ _ _ _ ran
    · exact keepsTransactions_unsubscribe _ _ _ _ _ ran
    · have headerless := transactionHeader_none named
        (fun rest other same => by rw [transactionRequest, same]; rfl) requests
      simp only [handlerStompBegin] at ran
      exact handleTransaction_headerless headerless ran
    · have headerless := transactionHeader_none named
        (fun rest other same => by rw [transactionRequest, same]; rfl) requests
      simp only [handlerStompCommit] at ran
      exact handleTransaction_headerless headerless ran
    · have headerless := transactionHeader_none named
        (fun rest other same => by rw [transactionRequest, same]; rfl) requests
      simp only [handlerStompAbort] at ran
      exact handleTransaction_headerless headerless ran
    · exact keepsTransactions_ack _ _ _ _ _ ran
    · exact keepsTransactions_ack _ _ _ _ _ ran
  · rfl

theorem forall₂_eraseIdx {α β : Type} {R : α → β → Prop} {xs : List α} {ys : List β}
    (related : List.Forall₂ R xs ys) (place : Nat) :
    List.Forall₂ R (xs.eraseIdx place) (ys.eraseIdx place) := by
  induction related generalizing place with
  | nil => exact List.Forall₂.nil
  | cons first rest ih =>
      cases place with
      | zero => exact rest
      | succ place => exact List.Forall₂.cons first (ih place)

theorem forall₂_modify {α β : Type} {R : α → β → Prop} {f : β → β}
    (keeps : ∀ x y, R x y → R x (f y)) {xs : List α} {ys : List β}
    (related : List.Forall₂ R xs ys) (place : Nat) : List.Forall₂ R xs (ys.modify place f) := by
  induction related generalizing place with
  | nil =>
      rw [List.modify_nil]
      exact List.Forall₂.nil
  | cons first rest ih =>
      cases place with
      | zero => exact List.Forall₂.cons (keeps _ _ first) rest
      | succ place => exact List.Forall₂.cons first (ih place)

/-- The array of a transaction begins with the id. -/
def StartsWith (id : List UInt8) (transaction : Transaction) : Prop :=
  id <+: transaction.tid

/-- A request keeps the record in step with the list. -/
theorem idsAfterRequest_named {malloc : Nat → List UInt8} {ids : List (List UInt8)}
    {manager manager' : TransactionManager} (named : List.Forall₂ StartsWith ids manager.list)
    {request : TransactionRequest} (step : requestStep malloc manager request = some manager') :
    List.Forall₂ StartsWith (idsAfterRequest ids manager request) manager'.list := by
  cases request with
  | start tid =>
      rw [requestStep, transactionStart] at step
      rw [idsAfterRequest]
      cases found : getTransaction tid manager with
      | some place =>
          rw [found] at step
          cases step
          exact named
      | none =>
          rw [found] at step
          simp only [allocTransaction] at step
          split at step
          · cases step
          · cases step
            exact List.rel_append named (.cons (List.prefix_append _ _) .nil)
  | add tid added =>
      rw [requestStep, transactionAdd] at step
      rw [idsAfterRequest]
      split at step
      · cases step
        refine forall₂_modify ?_ named _
        intro id transaction starts
        exact starts
      · cases step
        exact named
  | abort tid =>
      rw [requestStep, transactionAbort] at step
      rw [idsAfterRequest]
      cases found : getTransaction tid manager with
      | some place =>
          rw [found] at step
          cases step
          exact forall₂_eraseIdx named place
      | none =>
          rw [found] at step
          cases step
          exact named
  | commit tid =>
      rw [requestStep] at step
      rw [idsAfterRequest]
      cases found : getTransaction tid manager with
      | some place =>
          rw [found] at step
          dsimp only at step
          split at step
          · cases step
            exact forall₂_eraseIdx named place
          · cases step
      | none =>
          rw [found] at step
          cases step
          exact named

/-- After a frame has been handled, the record names the transactions that are open then. -/
theorem idsAfter_named {s : RecordedServer} {next : Server} (silent : NoCallbacks s.server.transactions)
    (named : List.Forall₂ StartsWith s.ids s.server.transactions.list)
    (handled : handleFrame env object s.server = some next) :
    List.Forall₂ StartsWith (s.idsAfter object) next.transactions.list := by
  rw [RecordedServer.idsAfter]
  cases requests : transactionRequest object with
  | none =>
      rw [handleFrame_no_request requests handled]
      exact named
  | some request =>
      have step : (handleFrame env object s.server).map Server.transactions =
          requestStep env.malloc s.server.transactions request :=
        handleFrame_request silent requests
      rw [handled] at step
      exact idsAfterRequest_named named step.symm

/-! ### Runs -/

/-- What holds of a state reached: no waiting frame has a callback, the record has one id for each open
transaction, and the queues are well formed. -/
structure RecordedInv (s : RecordedServer) : Prop where
  silent : NoCallbacks s.server.transactions
  named : List.Forall₂ StartsWith s.ids s.server.transactions.list
  queues : s.server.queues.WellFormed

theorem RecordedInv.step {s next : RecordedServer} {action : ServerAction} (inv : RecordedInv s)
    (parsed : action.Parsed) (taken : recordedStep env s action = some next) : RecordedInv next := by
  obtain ⟨server, step, rfl⟩ := Option.map_eq_some_iff.mp taken
  cases action with
  | handle object =>
      have handled := handleFrame_handled inv.silent step
      exact ⟨(handleFrame_enqueued parsed inv.silent step).2,
        idsAfter_named inv.silent inv.named step, handled.wellFormed inv.queues⟩
  | dequeue qname =>
      cases step
      exact ⟨inv.silent, inv.named, inv.queues.dequeue qname⟩

theorem RecordedInv.of_reaches {start : Server} (fresh : start.transactions = .init)
    (wellFormed : start.queues.WellFormed) {s : RecordedServer}
    (reaches : Reaches (recordedStep env) (fun _ action => action.Parsed) ⟨start, []⟩ s) :
    RecordedInv s := by
  refine reaches.invariant (fun _ _ _ inv parsed taken => inv.step parsed taken) ⟨?_, ?_, wellFormed⟩
  · rw [fresh]
    intro transaction mem
    cases mem
  · rw [fresh]
    exact List.Forall₂.nil

/-! ### Receipts -/

/-- An error is no receipt. -/
theorem sendError_no_receipt {before : Server} (sock : Int) {body : List UInt8}
    (other : body ≠ cstring "RECEIPT\n") (same : server.wire = before.wire) :
    ¬ SendsReceipt before (sendError env sock body server) := by
  rintro ⟨message, mem, receipt⟩
  simp only [sendError, stompSendError, same] at mem
  split at mem
  · rw [List.drop_left] at mem
    simp only [List.mem_cons, List.not_mem_nil, or_false] at mem
    rcases mem with rfl | rfl | rfl | rfl
    · exact absurd receipt (by decide : cstring "ERROR\n" ≠ cstring "RECEIPT\n")
    · exact absurd receipt (by decide : [LF] ≠ cstring "RECEIPT\n")
    · exact other receipt
    · exact absurd receipt (by decide : [0] ≠ cstring "RECEIPT\n")
  · rw [List.drop_length] at mem
    cases mem

/-- The receipt is sent when there is one, and the socket can be written to. -/
theorem answerReceipt_sends_iff {before : Server} {sock : Int} {receiptId : Option (List UInt8)}
    (same : server.wire = before.wire) :
    SendsReceipt before (answerReceipt sock receiptId server) ↔ receiptId ≠ none ∧ 0 < sock := by
  cases receiptId with
  | none =>
      refine iff_of_false ?_ (by simp)
      rintro ⟨message, mem, _⟩
      rw [answerReceipt, same, List.drop_length] at mem
      cases mem
  | some id =>
      rw [answerReceipt, stompSendReceipt]
      by_cases open_ : 0 < sock
      · rw [if_pos open_]
        refine iff_of_true ?_ ⟨by simp, open_⟩
        refine ⟨⟨sock, cstring "RECEIPT\n"⟩, ?_, rfl⟩
        rw [same, List.drop_left]
        exact List.mem_cons_self
      · rw [if_neg open_]
        refine iff_of_false ?_ fun sent => open_ sent.2
        rintro ⟨message, mem, _⟩
        rw [same, List.drop_length] at mem
        cases mem

theorem takeFrame_others (object : FrameObject) (destination : List UInt8)
    (tid : Option (List UInt8)) (server : Server) :
    (takeFrame object destination tid server).1.frame.sock = object.frame.sock ∧
      (takeFrame object destination tid server).2.wire = server.wire := by
  cases tid <;> exact ⟨rfl, rfl⟩

/-- The transaction that a frame has been added to is the one that `get_transaction` finds. -/
theorem getTransaction_of_added {tid : List UInt8} {manager : TransactionManager} {place : Nat}
    {transaction : Transaction} {added accepted : FrameObject}
    (here : manager.list[place]? = some transaction)
    (grown : (transactionAdd tid added manager).2.list[place]? =
      some { transaction with frames := accepted :: transaction.frames }) :
    getTransaction tid manager = some place := by
  have apart : manager.list[place]? ≠
      some { transaction with frames := accepted :: transaction.frames } := by
    rw [here]
    intro same
    have frames := congrArg (fun t => t.frames.length) (Option.some.inj same)
    simp at frames
  rw [transactionAdd] at grown
  split at grown
  · next found place' =>
      rw [List.getElem?_modify] at grown
      by_cases same : found = place
      · rw [place', same]
      · simp only [same, if_false, Option.map_eq_map, Option.map_id'] at grown
        exact absurd grown apart
  · exact absurd grown apart

/-- A frame that has been taken in is stored when the transaction that is found for it has its id. -/
theorem stored_iff {s : RecordedServer} (wellFormed : s.server.queues.WellFormed)
    {accepted taken : FrameObject} {destination : List UInt8} {before stored after : Server}
    (named : object.frame.destination = some destination) (same : accepted.address = object.address)
    (queues : before.queues = s.server.queues)
    (transactions : before.transactions = s.server.transactions)
    (took : takeFrame accepted destination (headerValue transactionName object.frame.hAttrs) before =
      (taken, stored))
    (sameQueues : after.queues = stored.queues)
    (sameTransactions : after.transactions = stored.transactions) :
    Stored s object after ↔ NamesOpen s object := by
  rw [Stored, NamesOpen]
  cases header : headerValue transactionName object.frame.hAttrs with
  | none =>
      refine iff_of_true ⟨destination, accepted, named, same, ?_⟩ (by simp)
      rw [header] at took
      cases took
      rw [sameQueues, enqueueFrame]
      dsimp only
      rw [queues, contents_enqueue wellFormed, if_pos rfl]
  | some tid =>
      rw [header] at took
      cases took
      rw [transactions] at sameTransactions
      simp only [Option.mem_def, Option.some.injEq, forall_eq']
      constructor
      · rintro ⟨place, transaction, added, exactId, here, _, there⟩
        rw [sameTransactions] at there
        exact ⟨place, getTransaction_of_added here there, exactId⟩
      · rintro ⟨place, found, exactId⟩
        obtain ⟨transaction, here, -⟩ := lastMatch_some found
        refine ⟨place, transaction,
          { accepted with frame := { accepted.frame with transactionData := some destination } },
          exactId, here, same, ?_⟩
        rw [sameTransactions, transactionAdd, found]
        simp [here]

/-- A receipt is true exactly when the transaction that is found for the frame, if it names one, was
started with its id. -/
theorem keepsPromise_iff_of_wellFormed {s : RecordedServer} (wellFormed : s.server.queues.WellFormed)
    (object : FrameObject) :
    KeepsPromise env s object ↔ (Receipted object → NamesOpen s object) := by
  obtain ⟨replyQueues, replyTransactions, -, replyWire⟩ :=
    replyTo_others object.frame.sock object.frame.rewrittenReplyTo s.server
  -- of the three answers, only the last one can be a receipt
  have answered : ∀ ret after, handlerStompSend env object s.server = some (ret, after) →
      (SendsReceipt s.server after ↔ Receipted object) ∧
        (Receipted object → (Stored s object after ↔ NamesOpen s object)) := by
    intro ret after handled
    rcases handlerStompSend_cases handled with ⟨refused, _, rfl⟩ | ⟨fits, missing, _, rfl⟩ |
      ⟨fits, hAttrs, destination, taken, stored, named, took, _, rfl⟩
    · have silent : ¬ Receipted object := fun receipted => refused receipted.2.2.1
      exact ⟨iff_of_false (sendError_no_receipt _ (by decide) rfl) silent,
        fun receipted => absurd receipted silent⟩
    · have silent : ¬ Receipted object := fun receipted => receipted.2.2.2.1 missing
      exact ⟨iff_of_false (sendError_no_receipt _ (by decide) replyWire) silent,
        fun receipted => absurd receipted silent⟩
    · obtain ⟨sock, wire⟩ := takeFrame_others
        { object with frame := { object.frame with hAttrs := hAttrs } } destination
        (headerValue transactionName object.frame.hAttrs)
        (replyTo object.frame.sock object.frame.rewrittenReplyTo s.server)
      rw [took] at sock wire
      obtain ⟨sameQueues, sameTransactions⟩ := answerReceipt_others taken.frame.sock
        (headerValue receiptName object.frame.hAttrs) stored
      have connected : object.frame.cinfo ≠ none := by
        intro none
        rw [handlerStompSend, none] at handled
        cases handled
      constructor
      · rw [answerReceipt_sends_iff (wire.trans replyWire), sock, Receipted, named]
        exact ⟨fun sent => ⟨connected, sent.2, fits, by simp, sent.1⟩,
          fun receipted => ⟨receipted.2.2.2.2, receipted.2.1⟩⟩
      · have same : FrameObject.address
            { object with frame := { object.frame with hAttrs := hAttrs } } = object.address := rfl
        exact fun _ => stored_iff wellFormed named same replyQueues replyTransactions took sameQueues
          sameTransactions
  constructor
  · intro keeps receipted
    obtain ⟨ret, after, handled⟩ := handlerStompSend_returns env s.server receipted.1
    obtain ⟨sends, stores⟩ := answered ret after handled
    exact (stores receipted).mp (keeps ret after handled (sends.mpr receipted))
  · intro opens ret after handled sent
    obtain ⟨sends, stores⟩ := answered ret after handled
    have receipted := sends.mp sent
    exact (stores receipted).mpr (opens receipted)

/-- In every state reached, a receipt for a frame is true exactly when the transaction that is found for
it, if it names one, was started with its id. -/
theorem keeps_promise_iff {start : Server} (fresh : start.transactions = .init)
    (wellFormed : start.queues.WellFormed) {s : RecordedServer}
    (reaches : Reaches (recordedStep env) (fun _ action => action.Parsed) ⟨start, []⟩ s)
    (object : FrameObject) :
    KeepsPromise env s object ↔ (Receipted object → NamesOpen s object) :=
  keepsPromise_iff_of_wellFormed (RecordedInv.of_reaches fresh wellFormed reaches).queues object

/-- A `BEGIN` frame of the transaction `t`. -/
def beginOf (line : String) : FrameObject where
  address := 1
  frame := { allocFrame with name := cstring "BEGIN", hAttrs := [⟨cstring line, line.length⟩] }

/-- After `BEGIN` of `t`, a frame for `t` is added to it and its receipt is true. -/
theorem keeps_promise_open :
    ∃ s, Transition.run (recordedStep quietEnv) ⟨Server.init [] fun _ => none, []⟩
        [.handle (beginOf "transaction:t")] = some s ∧
      KeepsPromise quietEnv s (sendOf ["destination:/queue/a", "transaction:t", "receipt:1"]) := by
  let first : RecordedServer := ⟨Server.init [] fun _ => none, []⟩
  have began : ∃ s, Transition.run (recordedStep quietEnv) first
      [.handle (beginOf "transaction:t")] = some s ∧ s.ids = [cstring "t"] ∧
      getTransaction (cstring "t") s.server.transactions = some 0 := ⟨_, rfl, by decide, by decide⟩
  obtain ⟨s, taken, ids, found⟩ := began
  have guarded : Transition.run (Transition.guarded (recordedStep quietEnv)
      fun _ action => action.Parsed) first [.handle (beginOf "transaction:t")] = some s := taken
  refine ⟨s, taken, ?_⟩
  apply (keeps_promise_iff rfl emptyStore_wellFormed (Transition.reaches_of_guarded_run guarded) _).mpr
  intro _ tid named
  have same : tid = cstring "t" := by
    have value : headerValue transactionName
        (sendOf ["destination:/queue/a", "transaction:t", "receipt:1"]).frame.hAttrs =
        some (cstring "t") := by decide
    rw [value] at named
    exact (Option.some.inj named).symm
  subst same
  exact ⟨0, found, by rw [ids]; rfl⟩

/-- A `SEND` to a transaction that was never started is answered with a receipt. -/
theorem receipt_without_transaction :
    ¬ ∀ env start, start.transactions = .init → start.queues.WellFormed → ∀ s,
      Reaches (recordedStep env) (fun _ action => action.Parsed) ⟨start, []⟩ s →
      ∀ object, KeepsPromise env s object := by
  intro holds
  have keeps := holds quietEnv (Server.init [] fun _ => none) rfl emptyStore_wellFormed _
    Relation.ReflTransGen.refl (sendOf ["destination:/queue/a", "transaction:t", "receipt:1"])
  have answered : Receipted (sendOf ["destination:/queue/a", "transaction:t", "receipt:1"]) := by
    refine ⟨by decide, by decide, by decide, by decide, by decide⟩
  have opens := (keepsPromise_iff_of_wellFormed emptyStore_wellFormed _).mp keeps answered
  obtain ⟨place, found, _⟩ := opens (cstring "t") (by decide)
  cases found

end Newtmq
