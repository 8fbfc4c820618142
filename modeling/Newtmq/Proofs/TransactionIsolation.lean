/-
Module: Newtmq.Proofs.TransactionIsolation
Purpose: Two clients on the one list of transactions. While their ids are apart, the transactions of a
  client are found as if the list held no others, so that the unwinding rule applies.
Trusted boundary: none
Main exports: requestStep, handleFrame_request, Stores.request, Stores.requestOther, AgreeOn,
  unwinds, isolated_of_apart
-/
import Newtmq.Proofs.TransactionStore
import Newtmq.Proofs.TransactionalSend
import Newtmq.Spec.TransactionIsolation

namespace Newtmq

open Transition (MeetsAlong)
open Unwinding (Unwinds)

/-! ### Handlers as requests -/

/-- What a request does to the transactions when none of their frames has a callback. -/
def requestStep (malloc : Nat → List UInt8) (manager : TransactionManager) :
    TransactionRequest → Option TransactionManager
  | .start tid => (transactionStart malloc tid manager).map Prod.snd
  | .add tid object => some (transactionAdd tid object manager).2
  | .abort tid => some (transactionAbort tid manager).2
  | .commit tid =>
      match getTransaction tid manager with
      | none => some manager
      | some place =>
          if manager.framesAt place = [] then some (freeTransaction place manager) else none

section Handlers

variable {env : ServerEnv} {object : FrameObject} {server : Server}

theorem handleFrame_of_handler {handler : Handler}
    (found : findHandler object.frame.name = some handler) :
    (handleFrame env object server).map Server.transactions =
      (handler env object server).map fun result => result.2.transactions := by
  simp only [handleFrame, found, Option.map_map]
  congr 1
  funext result
  obtain ⟨ret, after⟩ := result
  cases ret <;> rfl

/-- The handlers of `BEGIN`, `COMMIT` and `ABORT` act on the id of the header. -/
theorem handleTransaction_accepted {missing : List UInt8}
    {act : List UInt8 → Server → Option Server} {tid : List UInt8}
    (header : transactionHeader object = some tid) :
    (handleTransaction missing act env object server).map (fun result => result.2.transactions) =
      (act tid server).map Server.transactions := by
  unfold transactionHeader at header
  rcases accepted : iterateHeader transactionHandlers object.frame.hAttrs none with
    ⟨_ | _, hAttrs, named⟩
  · rw [accepted] at header
    cases header
    rw [handleTransaction, accepted]
    exact Option.map_map _ _ _
  · rw [accepted] at header
    cases header

theorem findHandler_of_prefix {name command : List UInt8} {handler : Handler}
    (starts : command.isPrefixOf name = true)
    (first : ∀ rest, findHandler (command ++ rest) = some handler) :
    findHandler name = some handler := by
  obtain ⟨rest, rfl⟩ := List.isPrefixOf_iff_prefix.mp starts
  exact first rest

theorem handlerStompSend_request {request : TransactionRequest}
    (sends : sendRequest object = some request) :
    (handlerStompSend env object server).map (fun result => result.2.transactions) =
      requestStep env.malloc server.transactions request := by
  unfold sendRequest at sends
  split at sends
  · cases sends
  · next cinfoId cinfo =>
      split at sends
      · next hAttrs _ qname tid _ _ attrs =>
          cases sends
          simp only [handlerStompSend, cinfo, attrs, Option.map_some]
          rw [(answerReceipt_enqueued _ _ _).2]
          simp only [takeFrame, (replyTo_enqueued _ _ _).2, requestStep]
      · cases sends

/-- Handling a transactional frame changes the transactions as its request does. -/
theorem handleFrame_request {request : TransactionRequest}
    (none : NoCallbacks server.transactions)
    (requests : transactionRequest object = some request) :
    (handleFrame env object server).map Server.transactions =
      requestStep env.malloc server.transactions request := by
  unfold transactionRequest at requests
  split at requests
  · next command =>
      have found : findHandler object.frame.name = some handlerStompSend :=
        findHandler_of_prefix command fun _ => rfl
      rw [handleFrame_of_handler found]
      exact handlerStompSend_request requests
  · split at requests
    · next command =>
        obtain ⟨tid, header, rfl⟩ := Option.map_eq_some_iff.mp requests
        have found : findHandler object.frame.name = some handlerStompBegin :=
          findHandler_of_prefix command fun _ => rfl
        rw [handleFrame_of_handler found, handlerStompBegin, handleTransaction_accepted header]
        exact Option.map_map _ _ _
    · split at requests
      · next command =>
          obtain ⟨tid, header, rfl⟩ := Option.map_eq_some_iff.mp requests
          have found : findHandler object.frame.name = some handlerStompCommit :=
            findHandler_of_prefix command fun _ => rfl
          rw [handleFrame_of_handler found, handlerStompCommit, handleTransaction_accepted header,
            transactionCommit_silent none.framesAt, requestStep]
          cases getTransaction tid server.transactions with
          | none => rfl
          | some place =>
              by_cases empty : server.transactions.framesAt place = [] <;> simp [empty]
      · split at requests
        · next command =>
            obtain ⟨tid, header, rfl⟩ := Option.map_eq_some_iff.mp requests
            have found : findHandler object.frame.name = some handlerStompAbort :=
              findHandler_of_prefix command fun _ => rfl
            rw [handleFrame_of_handler found, handlerStompAbort, handleTransaction_accepted header]
            rfl
        · cases requests

end Handlers

/-! ### Requests on the list -/

/-- What a request makes of the frames of the transaction it names. `none` means that it does not
return. -/
def TransactionRequest.on (request : TransactionRequest) (frames : Option (List FrameObject)) :
    Option (Option (List FrameObject)) :=
  match request with
  | .start _ => some (frames.or (some []))
  | .add _ object => some (frames.map (object :: ·))
  | .abort _ => some none
  | .commit _ => if frames.getD [] = [] then some none else none

variable {ids exact : Set TransactionId} {manager : TransactionManager}
  {transactions : TransactionMap} {entries : List (TransactionId × Transaction)}

/-- The frames that a `COMMIT` works on are those of the transaction with its id. -/
theorem Stores.committedFrames (stores : Stores ids exact manager transactions entries)
    {id : TransactionId} (mem : id ∈ exact) (clear : Clear ids id) :
    Newtmq.committedFrames id.bytes manager = (transactions id).getD [] := by
  unfold Newtmq.committedFrames
  rcases stores.lookup mem clear with ⟨place, transaction, found, here, opened⟩ |
    ⟨found, closed, _⟩
  · rw [found, opened]
    exact stores.framesAt here
  · rw [found, closed]
    rfl

/-- `BEGIN` succeeds when no transaction with the id is open. -/
theorem Stores.started (stores : Stores ids exact manager transactions entries)
    {id : TransactionId} (mem : id ∈ exact) (clear : Clear ids id) (malloc : Nat → List UInt8) :
    (transactionStart malloc id.bytes manager).map Prod.fst =
      some (if (transactions id).isSome then .error else .success) := by
  rcases stores.lookup mem clear with ⟨place, transaction, found, here, opened⟩ |
    ⟨found, closed, _⟩
  · rw [transactionStart, found, opened]
    rfl
  · rw [transactionStart_missing found, closed]
    rfl

/-- A request on an exact id does to the list what it does to the map. -/
theorem Stores.request (stores : Stores ids exact manager transactions entries)
    {id : TransactionId} (memIds : id ∈ ids) (mem : id ∈ exact) (clear : Clear ids id)
    (malloc : Nat → List UInt8) {request : TransactionRequest} (named : request.tid = id.bytes) :
    match request.on (transactions id) with
    | none => requestStep malloc manager request = none
    | some frames => ∃ manager' entries', requestStep malloc manager request = some manager' ∧
        Stores ids exact manager' (Function.update transactions id frames) entries' := by
  have unchanged : ∀ frames, transactions id = frames →
      Stores ids exact manager (Function.update transactions id frames) entries := by
    rintro _ rfl
    rw [Function.update_eq_self]
    exact stores
  rcases stores.lookup mem clear with ⟨place, transaction, found, here, opened⟩ |
    ⟨found, closed, absent⟩
  · cases request with
    | start tid =>
        obtain rfl : tid = id.bytes := named
        rw [opened]
        refine ⟨manager, entries, ?_, unchanged _ opened⟩
        rw [requestStep, transactionStart, found]
        rfl
    | add tid object =>
        obtain rfl : tid = id.bytes := named
        rw [opened]
        refine ⟨_, _, ?_, stores.modify here object⟩
        rw [requestStep, transactionAdd, found]
    | abort tid =>
        obtain rfl : tid = id.bytes := named
        refine ⟨_, _, ?_, stores.free here⟩
        rw [requestStep, transactionAbort, found]
    | commit tid =>
        obtain rfl : tid = id.bytes := named
        by_cases empty : transaction.frames = []
        · have on : TransactionRequest.on (.commit id.bytes) (some transaction.frames) =
              some none := if_pos empty
          rw [opened, on]
          refine ⟨_, _, ?_, stores.free here⟩
          rw [requestStep, found]
          exact if_pos ((stores.framesAt here).trans empty)
        · have on : TransactionRequest.on (.commit id.bytes) (some transaction.frames) = none :=
            if_neg empty
          rw [opened, on]
          dsimp only
          rw [requestStep, found]
          exact if_neg fun none => empty ((stores.framesAt here).symm.trans none)
  · cases request with
    | start tid =>
        obtain rfl : tid = id.bytes := named
        rw [closed]
        exact ⟨_, _, congrArg (Option.map Prod.snd) (transactionStart_missing found malloc),
          stores.start memIds absent _ _⟩
    | add tid object =>
        obtain rfl : tid = id.bytes := named
        rw [closed]
        refine ⟨manager, entries, ?_, unchanged _ closed⟩
        rw [requestStep, transactionAdd, found]
    | abort tid =>
        obtain rfl : tid = id.bytes := named
        refine ⟨manager, entries, ?_, unchanged _ closed⟩
        rw [requestStep, transactionAbort, found]
    | commit tid =>
        obtain rfl : tid = id.bytes := named
        rw [closed]
        refine ⟨manager, entries, ?_, unchanged _ closed⟩
        rw [requestStep, found]

/-- A request on an id that is comparable with no exact id leaves the exact transactions alone. -/
theorem Stores.requestOther (stores : Stores ids exact manager transactions entries)
    {id : TransactionId} (memIds : id ∈ ids)
    (apart : ∀ stored ∈ ids, id.bytes <+: stored.bytes ∨ stored.bytes <+: id.bytes →
      stored ∉ exact)
    (malloc : Nat → List UInt8) {request : TransactionRequest} (named : request.tid = id.bytes)
    (returns : request.Ends manager) :
    ∃ manager' transactions' entries', requestStep malloc manager request = some manager' ∧
      Stores ids exact manager' transactions' entries' ∧
      ∀ a ∈ exact, transactions' a = transactions a := by
  have elsewhere : ∀ stored, stored ∉ exact → ∀ frames, ∀ a ∈ exact,
      Function.update transactions stored frames a = transactions a := by
    intro stored other frames a mem
    have apart : a ≠ stored := by
      rintro rfl
      exact other mem
    exact Function.update_of_ne apart _ _
  cases found : getTransaction id.bytes manager with
  | some place =>
      obtain ⟨stored, transaction, here, memStored, related⟩ := stores.found found
      have keeps := elsewhere stored (apart stored memStored related)
      cases request with
      | start tid =>
          obtain rfl : tid = id.bytes := named
          refine ⟨manager, transactions, entries, ?_, stores, fun _ _ => rfl⟩
          rw [requestStep, transactionStart, found]
          rfl
      | add tid object =>
          obtain rfl : tid = id.bytes := named
          refine ⟨_, _, _, ?_, stores.modify here object, keeps _⟩
          rw [requestStep, transactionAdd, found]
      | abort tid =>
          obtain rfl : tid = id.bytes := named
          refine ⟨_, _, _, ?_, stores.free here, keeps _⟩
          rw [requestStep, transactionAbort, found]
      | commit tid =>
          obtain rfl : tid = id.bytes := named
          have empty : Newtmq.committedFrames id.bytes manager = [] := returns
          rw [Newtmq.committedFrames, found] at empty
          refine ⟨_, _, _, ?_, stores.free here, keeps _⟩
          rw [requestStep, found]
          exact if_pos empty
  | none =>
      cases request with
      | start tid =>
          obtain rfl : tid = id.bytes := named
          exact ⟨_, _, _, congrArg (Option.map Prod.snd) (transactionStart_missing found malloc),
            stores.start memIds (stores.absent found) _ _,
            elsewhere id (apart id memIds (Or.inl (List.prefix_refl _))) _⟩
      | add tid object =>
          obtain rfl : tid = id.bytes := named
          refine ⟨manager, transactions, entries, ?_, stores, fun _ _ => rfl⟩
          rw [requestStep, transactionAdd, found]
      | abort tid =>
          obtain rfl : tid = id.bytes := named
          refine ⟨manager, transactions, entries, ?_, stores, fun _ _ => rfl⟩
          rw [requestStep, transactionAbort, found]
      | commit tid =>
          obtain rfl : tid = id.bytes := named
          refine ⟨manager, transactions, entries, ?_, stores, fun _ _ => rfl⟩
          rw [requestStep, found]

/-! ### Two clients -/

/-- The ids of both clients. -/
def inUse (ids : Client → Set TransactionId) : Set TransactionId :=
  {id | ∃ client, id ∈ ids client}

/-- The servers of a run and of the run without the other client: the transactions of the client are
the same, and no frame has a callback. -/
structure AgreeOn (ids : Client → Set TransactionId) (client : Client) (together alone : Server) :
    Prop where
  silentTogether : NoCallbacks together.transactions
  silentAlone : NoCallbacks alone.transactions
  same : ∃ map₁ map₂ entries₁ entries₂,
    Stores (inUse ids) (ids client) together.transactions map₁ entries₁ ∧
    Stores (inUse ids) (ids client) alone.transactions map₂ entries₂ ∧
    ∀ id ∈ ids client, map₁ id = map₂ id

variable {env : ServerEnv} {ids : Client → Set TransactionId} {client : Client}

theorem ApartIds.clear (apart : ApartIds ids client) {id : TransactionId} (mem : id ∈ ids client) :
    Clear (inUse ids) id := by
  intro other memOther related
  obtain ⟨c, memC⟩ := memOther
  exact (apart id mem c other memC related).1.symm

theorem ApartIds.elsewhere (apart : ApartIds ids client) {c : Client} (other : c ≠ client)
    {id : TransactionId} (mem : id ∈ ids c) (stored : TransactionId)
    (related : id.bytes <+: stored.bytes ∨ stored.bytes <+: id.bytes) : stored ∉ ids client :=
  fun own => other (apart stored own c id mem related.symm).2.symm

/-- A frame handled in a state without callbacks leaves a state without callbacks, and changes the
transactions as its request does. -/
theorem clientStep_request {server : Server} (none : NoCallbacks server.transactions)
    {sent : Client × FrameObject} (silent : sent.2.frame.transactionCallback = .none)
    {request : TransactionRequest} (requests : transactionRequest sent.2 = some request) :
    (requestStep env.malloc server.transactions request = .none ∧
        clientStep env server sent = .none) ∨
      ∃ next, clientStep env server sent = some next ∧ NoCallbacks next.transactions ∧
        requestStep env.malloc server.transactions request = some next.transactions := by
  have step : (handleFrame env sent.2 server).map Server.transactions =
      requestStep env.malloc server.transactions request := handleFrame_request none requests
  cases handled : handleFrame env sent.2 server with
  | none =>
      rw [handled] at step
      exact Or.inl ⟨step.symm, handled⟩
  | some next =>
      rw [handled] at step
      exact Or.inr ⟨next, handled, (handleFrame_enqueued silent none handled).2, step.symm⟩

theorem AgreeOn.outcome {together alone : Server} (agree : AgreeOn ids client together alone)
    (apart : ApartIds ids client) {sent : Client × FrameObject} (own : sent.1 = client)
    (transactional : Transactional ids sent) :
    clientOutcome env together sent = clientOutcome env alone sent := by
  obtain ⟨_, request, requests, id, mem, named⟩ := transactional
  obtain ⟨map₁, map₂, _, _, stores₁, stores₂, same⟩ := agree.same
  rw [own] at mem
  have clear := apart.clear mem
  simp only [clientOutcome, requests]
  cases request with
  | start tid =>
      obtain rfl : tid = id.bytes := named
      have started₁ := stores₁.started mem clear env.malloc
      have started₂ := stores₂.started mem clear env.malloc
      have results : (transactionStart env.malloc id.bytes together.transactions).map Prod.fst =
          (transactionStart env.malloc id.bytes alone.transactions).map Prod.fst := by
        rw [started₁, started₂, same id mem]
      have outcome : ∀ start : Option (Ret × TransactionManager),
          start.map (fun result => TransactionOutcome.began result.1) =
            (start.map Prod.fst).map TransactionOutcome.began := fun start =>
        (Option.map_map _ _ _).symm
      simp only [transactionOutcome]
      rw [outcome, outcome, results]
  | commit tid =>
      obtain rfl : tid = id.bytes := named
      simp only [transactionOutcome]
      rw [stores₁.committedFrames mem clear, stores₂.committedFrames mem clear, same id mem]
  | add tid object => rfl
  | abort tid => rfl

theorem AgreeOn.stepOwn {together alone : Server} (agree : AgreeOn ids client together alone)
    (apart : ApartIds ids client) {sent : Client × FrameObject} (own : sent.1 = client)
    (transactional : Transactional ids sent) :
    (clientStep env together sent = none ∧ clientStep env alone sent = none) ∨
      ∃ together' alone', clientStep env together sent = some together' ∧
        clientStep env alone sent = some alone' ∧ AgreeOn ids client together' alone' := by
  obtain ⟨silent, request, requests, id, mem, named⟩ := transactional
  obtain ⟨map₁, map₂, _, _, stores₁, stores₂, same⟩ := agree.same
  have memIds : id ∈ inUse ids := ⟨_, mem⟩
  rw [own] at mem
  have step₁ := stores₁.request memIds mem (apart.clear mem) env.malloc named
  have step₂ := stores₂.request memIds mem (apart.clear mem) env.malloc named
  rw [← same id mem] at step₂
  cases result : request.on (map₁ id) with
  | none =>
      rw [result] at step₁ step₂
      rcases clientStep_request agree.silentTogether silent requests with ⟨_, stuck₁⟩ |
        ⟨_, _, _, goes⟩
      · rcases clientStep_request agree.silentAlone silent requests with ⟨_, stuck₂⟩ |
          ⟨_, _, _, goes⟩
        · exact Or.inl ⟨stuck₁, stuck₂⟩
        · rw [step₂] at goes
          cases goes
      · rw [step₁] at goes
        cases goes
  | some frames =>
      rw [result] at step₁ step₂
      obtain ⟨_, entries₁, took₁, stores₁⟩ := step₁
      obtain ⟨_, entries₂, took₂, stores₂⟩ := step₂
      rcases clientStep_request agree.silentTogether silent requests with ⟨stuck, _⟩ |
        ⟨together', handled₁, silent₁, goes₁⟩
      · rw [took₁] at stuck
        cases stuck
      · rcases clientStep_request agree.silentAlone silent requests with ⟨stuck, _⟩ |
          ⟨alone', handled₂, silent₂, goes₂⟩
        · rw [took₂] at stuck
          cases stuck
        · rw [took₁] at goes₁
          rw [took₂] at goes₂
          cases goes₁
          cases goes₂
          refine Or.inr ⟨together', alone', handled₁, handled₂, silent₁, silent₂,
            _, _, entries₁, entries₂, stores₁, stores₂, ?_⟩
          intro other memOther
          by_cases here : other = id
          · rw [here, Function.update_self, Function.update_self]
          · rw [Function.update_of_ne here, Function.update_of_ne here]
            exact same other memOther

theorem AgreeOn.stepOther {together alone : Server} (agree : AgreeOn ids client together alone)
    (apart : ApartIds ids client) {sent : Client × FrameObject} (other : sent.1 ≠ client)
    (transactional : Transactional ids sent) (returns : Returns client together sent) :
    ∃ together', clientStep env together sent = some together' ∧
      AgreeOn ids client together' alone := by
  obtain ⟨silent, request, requests, id, mem, named⟩ := transactional
  obtain ⟨map₁, map₂, _, entries₂, stores₁, stores₂, same⟩ := agree.same
  have memIds : id ∈ inUse ids := ⟨_, mem⟩
  obtain ⟨_, _, entries₁, took, stores₁, keeps⟩ :=
    stores₁.requestOther memIds
      (fun stored _ related => apart.elsewhere other mem stored related) env.malloc named
      (returns other request requests)
  rcases clientStep_request agree.silentTogether silent requests with ⟨stuck, _⟩ |
    ⟨together', handled, silent', goes⟩
  · rw [took] at stuck
    cases stuck
  · rw [took] at goes
    cases goes
    refine ⟨together', handled, silent', agree.silentAlone, _, _, entries₁, entries₂, stores₁,
      stores₂, ?_⟩
    intro own memOwn
    rw [keeps own memOwn]
    exact same own memOwn

/-- While the ids are apart, the frames of the other client keep the states that a client cannot tell
apart. -/
theorem unwinds (env : ServerEnv) (apart : ApartIds ids client) :
    Unwinds (clientStep env) (clientOutcome env) (fun sent => sent.1 == client)
      (fun server sent => Transactional ids sent ∧ Returns client server sent)
      (AgreeOn ids client) where
  output _ _ _ own allowed agree := agree.outcome apart (beq_iff_eq.mp own) allowed.1
  stepOwn _ _ _ own allowed agree := agree.stepOwn apart (beq_iff_eq.mp own) allowed.1
  stepOther _ _ _ other allowed agree :=
    agree.stepOther apart (beq_eq_false_iff_ne.mp other) allowed.1 allowed.2

theorem agreeOn_init (ids : Client → Set TransactionId) (client : Client) (datadir : List UInt8)
    (disk : List UInt8 → Option QueueFiles) :
    AgreeOn ids client (Server.init datadir disk) (Server.init datadir disk) := by
  have empty : Stores (inUse ids) (ids client) TransactionManager.init (fun _ => none) [] :=
    ⟨rfl, List.nodup_nil, fun _ mem => absurd mem List.not_mem_nil, fun _ _ _ => by simp⟩
  have silent : NoCallbacks TransactionManager.init := fun _ mem => absurd mem List.not_mem_nil
  exact ⟨silent, silent, _, _, _, _, empty, empty, fun _ _ => rfl⟩

/-- In every run of the frames of two clients whose ids are apart, and in which each `COMMIT` of the
other client is handled to its end, the transactions of a client are isolated. -/
theorem isolated_of_apart (env : ServerEnv) (datadir : List UInt8)
    (disk : List UInt8 → Option QueueFiles) (ids : Client → Set TransactionId) (client : Client)
    (frames : List (Client × FrameObject)) (transactional : ∀ sent ∈ frames, Transactional ids sent)
    (apart : ApartIds ids client)
    (returns : MeetsAlong (clientStep env) (Returns client) (Server.init datadir disk) frames) :
    Isolated env client (Server.init datadir disk) frames :=
  (unwinds env apart).observed_filter (agreeOn_init ids client datadir disk)
    (returns.and_forall transactional)

/-- The ids `t` and `u`. -/
def idT : TransactionId := ⟨cstring "t", by decide, by decide, by decide⟩

def idU : TransactionId := ⟨cstring "u", by decide, by decide, by decide⟩

/-- The other client has opened `t` already. -/
def collidingFrames : List (Client × FrameObject) :=
  [(.second, ⟨0, exampleFrame "BEGIN" "transaction:t"⟩),
    (.first, ⟨1, exampleFrame "BEGIN" "transaction:t"⟩)]

/-- The two clients use `t` and `u`. -/
def apartFrames : List (Client × FrameObject) :=
  [(.second, ⟨0, exampleFrame "BEGIN" "transaction:u"⟩),
    (.first, ⟨1, exampleFrame "BEGIN" "transaction:t"⟩),
    (.second, ⟨2, exampleFrame "COMMIT" "transaction:u"⟩),
    (.first, ⟨3, exampleFrame "COMMIT" "transaction:t"⟩)]

theorem collidingFrames_not_isolated :
    ¬ ∀ (env : ServerEnv) (datadir : List UInt8) (disk : List UInt8 → Option QueueFiles)
      (ids : Client → Set TransactionId) (client : Client) (frames : List (Client × FrameObject)),
      (∀ sent ∈ frames, Transactional ids sent) →
        Isolated env client (Server.init datadir disk) frames := by
  intro always
  have isolated := always quietEnv (cstring "data") (fun _ => none) (fun _ => {idT}) .first
    collidingFrames (by
      intro sent mem
      simp only [collidingFrames, List.mem_cons, List.not_mem_nil, or_false] at mem
      rcases mem with rfl | rfl
      · exact ⟨rfl, .start (cstring "t"), by decide +kernel, idT, rfl, rfl⟩
      · exact ⟨rfl, .start (cstring "t"), by decide +kernel, idT, rfl, rfl⟩)
  revert isolated
  unfold Isolated
  decide +kernel

/-- Each client names its transactions by an id of its own. -/
def ownIds : Client → Set TransactionId
  | .first => {idT}
  | .second => {idU}

theorem apartFrames_isolated :
    Isolated quietEnv .first (Server.init (cstring "data") fun _ => none) apartFrames := by
  apply isolated_of_apart quietEnv (cstring "data") (fun _ => none) ownIds .first apartFrames
  case transactional =>
    intro sent mem
    simp only [apartFrames, List.mem_cons, List.not_mem_nil, or_false] at mem
    rcases mem with rfl | rfl | rfl | rfl
    · exact ⟨rfl, .start (cstring "u"), by decide +kernel, idU, rfl, rfl⟩
    · exact ⟨rfl, .start (cstring "t"), by decide +kernel, idT, rfl, rfl⟩
    · exact ⟨rfl, .commit (cstring "u"), by decide +kernel, idU, rfl, rfl⟩
    · exact ⟨rfl, .commit (cstring "t"), by decide +kernel, idT, rfl, rfl⟩
  case apart =>
    rintro a rfl (_ | _) b rfl related
    · exact ⟨rfl, rfl⟩
    · revert related
      decide
  case returns => decide +kernel

end Newtmq
