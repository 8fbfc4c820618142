/-
Module: Newtmq.Proofs.Registration
Purpose: What the handlers do to the workers and to the queues. A frame is enqueued under its own
  destination, and a client is registered with the socket of a frame for a destination that the frame
  asks for.
Trusted boundary: none
Main exports: headerValue_cons, iterateHeader_sendValues, iterateHeader_subscribeValues,
  zero_not_mem_asked, Registers, WorkerChange, Answering, handleFrame_change, Handled,
  handleFrame_handled
-/
import Newtmq.Core.Connections
import Newtmq.Proofs.QueueMap
import Newtmq.Proofs.ServerSteps

namespace Newtmq

/-! ### Values of headers -/

/-- A later line with the name counts more. -/
theorem headerValue_cons (name : List UInt8) (line : Linedata) (lines : List Linedata) :
    headerValue name (line :: lines) = (headerValue name lines).or (lineValue name line) := by
  rw [headerValue, headerValue, List.filterMap_cons]
  cases lineValue name line with
  | none => rw [Option.or_none]
  | some value => rw [List.getLast?_cons, Option.or_some]

/-- The value of a header is a C string. -/
theorem zero_not_mem_headerValue {name value : List UInt8} {lines : List Linedata}
    (found : headerValue name lines = some value) : (0 : UInt8) ∉ value := by
  obtain ⟨line, -, here⟩ := List.mem_filterMap.mp (List.mem_of_getLast? found)
  rw [lineValue] at here
  split at here
  · cases here
    exact zero_not_mem_cstr _
  · cases here

/-- A handler that records the value records that of its name. -/
theorem applyHandlers_store {δ : Type} (name : List UInt8) (set : δ → List UInt8 → δ)
    (rest : List (List UInt8 × HeaderHandler δ)) (line : Linedata) (data : δ) :
    applyHandlers ((name, storeContext set) :: rest) line data =
      applyHandlers rest line (((lineValue name line).map (set data)).getD data) := by
  rw [applyHandlers, lineValue]
  split <;> rfl

/-- A line that does not begin with a `d` has no destination. -/
theorem lineValue_destination_none {c : UInt8} (apart : c ≠ 100) (data : List UInt8) (len : Nat) :
    lineValue destinationName { data := c :: data, len := len } = none := by
  have name : destinationName = 100 :: cstring "estination:" := by decide
  have first : ((100 : UInt8) == c) = false := beq_eq_false_iff_ne.mpr apart.symm
  rw [lineValue, name, Linedata.memory, List.cons_append, List.isPrefixOf, first, Bool.false_and]
  rfl

/-- A name without a NUL that begins the array begins what was stored in it. -/
theorem name_prefix_data {name : List UInt8} (clean : (0 : UInt8) ∉ name) {line : Linedata}
    (named : name.isPrefixOf line.memory = true) : name <+: line.data := by
  have whole := List.isPrefixOf_iff_prefix.mp named
  rw [Linedata.memory] at whole
  rcases List.prefix_or_prefix_of_prefix whole (List.prefix_append line.data _) with inside | ⟨more, same⟩
  · exact inside
  · rw [← same, List.prefix_append_right_inj] at whole
    cases more with
    | nil => exact ⟨[], by rw [List.append_nil, ← same, List.append_nil]⟩
    | cons c more =>
        have zero := List.eq_of_mem_replicate (whole.subset List.mem_cons_self)
        exact absurd (by rw [← same, zero]; simp) clean

/-- A reply-to line begins with an `r`. -/
theorem data_replyTo {line : Linedata} (named : replyToName.isPrefixOf line.memory = true) :
    ∃ data, line.data = 114 :: data := by
  have name : replyToName = 114 :: cstring "eply-to:" := by decide
  obtain ⟨more, data⟩ := name_prefix_data (by decide) named
  exact ⟨_, by rw [← data, name, List.cons_append]⟩

/-- The handlers of `SEND` record the values of a line and leave its destination as it is. -/
theorem applyHandlers_sendValues {line line' : Linedata} {info info' : SendAttrinfo}
    (applied : applyHandlers sendHandlers line info = (.success, line', info')) :
    info'.cinfoId = info.cinfoId ∧
      info'.qname = (lineValue destinationName line).or info.qname ∧
      info'.replyTo = ((lineValue replyToName line).map fun value => value ++ cstr info.cinfoId).or
        info.replyTo ∧
      lineValue destinationName line' = lineValue destinationName line ∧
      info'.tid = (lineValue transactionName line).or info.tid := by
  rw [sendHandlers, applyHandlers_store, applyHandlers_store, applyHandlers_store] at applied
  -- the three handlers that only record
  obtain ⟨stored, recorded, cinfoId, qname, replyTo, tid⟩ : ∃ stored,
      applyHandlers [(replyToName, handlerReplyTo)] line stored = (.success, line', info') ∧
      stored.cinfoId = info.cinfoId ∧ stored.qname = (lineValue destinationName line).or info.qname ∧
      stored.replyTo = info.replyTo ∧ stored.tid = (lineValue transactionName line).or info.tid := by
    refine ⟨_, applied, ?_⟩
    rw [destinationName, transactionName]
    cases lineValue (cstring "destination:") line <;> cases lineValue (cstring "transaction:") line <;>
      cases lineValue (cstring "receipt:") line <;> exact ⟨rfl, rfl, rfl, rfl⟩
  rw [← cinfoId, ← qname, ← replyTo, ← tid]
  rw [applyHandlers] at recorded
  split at recorded
  · next named =>
      obtain ⟨data, here⟩ := data_replyTo named
      have value : lineValue replyToName line =
          some (cstr (line.memory.drop replyToName.length)) := by rw [lineValue, if_pos named]
      rw [value]
      simp only [handlerReplyTo] at recorded
      split at recorded
      · cases recorded
      · next found =>
          split at found
          · cases found
            cases recorded
            refine ⟨rfl, rfl, rfl, ?_, rfl⟩
            have before : lineValue destinationName line = none := by
              have whole : line = { data := 114 :: data, len := line.len } := by rw [← here]
              rw [whole]
              exact lineValue_destination_none (by decide) data line.len
            rw [before, here]
            exact lineValue_destination_none (by decide) _ _
          · cases found
  · next other =>
      cases recorded
      have value : lineValue replyToName line = none := by rw [lineValue, if_neg other]
      rw [value]
      exact ⟨rfl, rfl, rfl, rfl, rfl⟩

/-- What `handler_stomp_send` finds: the last destination, the last reply-to, rewritten, and the last
transaction. -/
theorem iterateHeader_sendValues {lines lines' : List Linedata} {info info' : SendAttrinfo}
    (applied : iterateHeader sendHandlers lines info = (.success, lines', info')) :
    info'.qname = (headerValue destinationName lines).or info.qname ∧
      info'.replyTo =
        ((headerValue replyToName lines).map fun value => value ++ cstr info.cinfoId).or
          info.replyTo ∧
      headerValue destinationName lines' = headerValue destinationName lines ∧
      info'.tid = (headerValue transactionName lines).or info.tid := by
  induction lines generalizing lines' info with
  | nil =>
      cases applied
      exact ⟨rfl, rfl, rfl, rfl⟩
  | cons line lines ih =>
      rw [iterateHeader] at applied
      split at applied
      · cases applied
      · next changed middle first =>
          obtain ⟨cinfoId, qname, replyTo, kept, tid⟩ := applyHandlers_sendValues first
          cases later : iterateHeader sendHandlers lines middle with
          | mk ret tail =>
              rw [later] at applied
              cases applied
              obtain ⟨qnameRest, replyToRest, keptRest, tidRest⟩ := ih later
              simp only [headerValue_cons, qnameRest, replyToRest, tidRest, qname, replyTo, tid, cinfoId,
                kept, keptRest, Option.or_assoc, Option.map_or, and_self]

/-- What `handler_stomp_subscribe` finds: the last destination. -/
theorem iterateHeader_subscribeValues {lines lines' : List Linedata} {info info' : SubscribeAttrinfo}
    (applied : iterateHeader subscribeHandlers lines info = (.success, lines', info')) :
    info'.destination = (headerValue destinationName lines).or info.destination := by
  induction lines generalizing lines' info with
  | nil =>
      cases applied
      rfl
  | cons line lines ih =>
      rw [iterateHeader] at applied
      split at applied
      · cases applied
      · next changed middle first =>
          have found : middle.destination = (lineValue destinationName line).or info.destination := by
            rw [subscribeHandlers, applyHandlers_store, applyHandlers_store] at first
            cases first
            rw [destinationName]
            cases lineValue (cstring "destination:") line <;> cases lineValue (cstring "id:") line <;>
              rfl
          cases later : iterateHeader subscribeHandlers lines middle with
          | mk ret tail =>
              rw [later] at applied
              cases applied
              rw [ih later, headerValue_cons, found, Option.or_assoc]

/-- A destination that a frame asks for is a C string. -/
theorem zero_not_mem_asked {frame : Frame} {destination : List UInt8}
    (asked : destination ∈ askedFor frame) : (0 : UInt8) ∉ destination := by
  rw [askedFor] at asked
  split at asked
  · obtain ⟨value, found, rest⟩ := Option.bind_eq_some_iff.mp (Option.mem_toList.mp asked)
    obtain ⟨id, _, rfl⟩ := Option.map_eq_some_iff.mp rest
    rw [List.mem_append, not_or]
    exact ⟨zero_not_mem_headerValue found, zero_not_mem_cstr id⟩
  · split at asked
    · exact zero_not_mem_headerValue (Option.mem_toList.mp asked)
    · cases asked

/-! ### Registration -/

/-- A registration leaves the threads that there are, and gives the threads of `destination`, old and
new, at most the client `sock`. -/
structure Registers (sock : Int) (destination : List UInt8) (manager next : WorkerManager) : Prop where
  threads : manager.workers <+: next.workers
  kept : ∀ worker served, manager.destination worker = some served →
    next.destination worker = some served
  clients : ∀ worker, manager.clients worker <+: next.clients worker
  served : ∀ worker ∈ next.workers, worker ∈ manager.workers ∨
    next.destination worker = some destination
  added : ∀ (n : Nat) worker, next.workers[n]? = some worker → ∀ client ∈ next.clients worker,
    (manager.workers[n]? = some worker ∧ client ∈ manager.clients worker) ∨
      (client.sock = sock ∧ next.destination worker = some destination)

/-- A new client is one of the clients of its group. -/
theorem destination_addClient (place : Nat) (client : ClientInfo) (manager : WorkerManager)
    (worker : Worker) :
    (addClient place client manager).destination worker = manager.destination worker := by
  simp only [WorkerManager.destination, addClient, List.getElem?_modify]
  cases manager.groups[worker.group]? with
  | none => rfl
  | some group => by_cases same : place = worker.group <;> simp [same]

theorem clients_addClient (place : Nat) (client : ClientInfo) (manager : WorkerManager)
    (worker : Worker) :
    (addClient place client manager).clients worker = manager.clients worker ∨
      worker = .multicast place ∧
        (addClient place client manager).clients worker = manager.clients worker ++ [client] := by
  cases worker with
  | reply group own => exact Or.inl rfl
  | unicast group own => exact Or.inl rfl
  | multicast group =>
      simp only [WorkerManager.clients, addClient, List.getElem?_modify]
      cases manager.groups[group]? with
      | none => exact Or.inl rfl
      | some found =>
          by_cases same : place = group
          · exact Or.inr ⟨by rw [same], by simp [same]⟩
          · exact Or.inl (by simp [same])

/-- The group of a destination is there, at a place of the list, and the threads that there are serve
what they served. -/
structure Opens (destination : List UInt8) (manager : WorkerManager) (place : Nat)
    (next : WorkerManager) : Prop where
  workers : next.workers = manager.workers
  kept : ∀ worker served, manager.destination worker = some served →
    next.destination worker = some served
  clients : ∀ worker, next.clients worker = manager.clients worker
  here : next.groups[place]?.map DestGroup.destination = some destination

theorem opens_create (destination : List UInt8) (manager : WorkerManager) :
    Opens destination manager (createDestGroup destination manager).1
      (createDestGroup destination manager).2 where
  workers := rfl
  kept worker served serves := by
    obtain ⟨group, there, rfl⟩ := Option.map_eq_some_iff.mp serves
    obtain ⟨inside, -⟩ := List.getElem?_eq_some_iff.mp there
    rw [WorkerManager.destination, createDestGroup, List.getElem?_append_left inside, there]
    rfl
  clients worker := by
    cases worker with
    | reply group own => rfl
    | unicast group own => rfl
    | multicast group =>
        simp only [WorkerManager.clients, createDestGroup, List.getElem?_append]
        split
        · rfl
        · next outside =>
            rw [List.getElem?_eq_none (Nat.le_of_not_lt outside)]
            cases group - manager.groups.length <;> rfl
  here := by simp [createDestGroup]

theorem opens_get (destination : List UInt8) (manager : WorkerManager) :
    Opens destination manager (getDestGroup destination manager).1
      (getDestGroup destination manager).2 := by
  cases found : searchDestGroup destination manager with
  | none =>
      rw [getDestGroup, found]
      exact opens_create destination manager
  | some place =>
      rw [getDestGroup, found]
      obtain ⟨inside, same, -⟩ := List.findIdx?_eq_some_iff_getElem.mp found
      refine ⟨rfl, fun _ _ serves => serves, fun _ => rfl, ?_⟩
      rw [List.getElem?_eq_getElem inside, Option.map_some, of_decide_eq_true same]

theorem Opens.serves {destination : List UInt8} {manager next : WorkerManager} {place : Nat}
    (opens : Opens destination manager place next) {worker : Worker} (group : worker.group = place)
    (client : ClientInfo) :
    (addClient place client next).destination worker = some destination := by
  have here := opens.here
  rw [← group] at here
  exact (destination_addClient place _ next worker).trans here

/-- The client is added to the group, and threads that serve it may be created. -/
theorem Opens.registers {sock : Int} {destination : List UInt8} {manager next : WorkerManager}
    {place : Nat} (opens : Opens destination manager place next) {new : List Worker}
    (threads : ∀ worker ∈ new, worker.group = place ∧
      ∀ client ∈ next.clients worker, client.sock = sock) :
    Registers sock destination manager
      { addClient place ⟨sock, none⟩ next with workers := manager.workers ++ new } where
  threads := List.prefix_append _ _
  kept worker served serves :=
    (destination_addClient place _ next worker).trans (opens.kept worker served serves)
  clients worker := by
    rw [← opens.clients worker]
    rcases clients_addClient place ⟨sock, none⟩ next worker with same | ⟨-, more⟩
    · exact ⟨[], (List.append_nil _).trans same.symm⟩
    · exact ⟨_, more.symm⟩
  served worker mem := by
    rcases List.mem_append.mp mem with old | added
    · exact Or.inl old
    · exact Or.inr (opens.serves (threads worker added).1 _)
  added n worker there client mem := by
    have thread : manager.workers[n]? = some worker ∨ worker ∈ new := by
      simp only [List.getElem?_append] at there
      split at there
      · exact Or.inl there
      · exact Or.inr (List.mem_of_getElem? there)
    rcases clients_addClient place ⟨sock, none⟩ next worker with same | ⟨multicast, more⟩
    · have old : client ∈ next.clients worker := same ▸ mem
      rcases thread with thread | added
      · exact Or.inl ⟨thread, opens.clients worker ▸ old⟩
      · obtain ⟨group, own⟩ := threads worker added
        exact Or.inr ⟨own client old, opens.serves group _⟩
    · have here := opens.serves (congrArg Worker.group multicast) ⟨sock, none⟩
      have split : client ∈ next.clients worker ++ [⟨sock, none⟩] := more ▸ mem
      rcases List.mem_append.mp split with old | last
      · rcases thread with thread | added
        · exact Or.inl ⟨thread, opens.clients worker ▸ old⟩
        · exact Or.inr ⟨(threads worker added).2 client old, here⟩
      · rw [List.mem_singleton.mp last]
        exact Or.inr ⟨rfl, here⟩

theorem registers_reply {sock : Int} {destination : List UInt8} {manager : WorkerManager}
    (unknown : searchDestGroup destination manager = none) :
    Registers sock destination manager (registerReplyWorker sock destination manager) := by
  rw [registerReplyWorker, unknown]
  apply (opens_create destination manager).registers
  intro worker mem
  rw [List.mem_singleton.mp mem]
  exact ⟨rfl, fun client mem => by rw [List.mem_singleton.mp mem]; rfl⟩

theorem registers_unicast (sock : Int) (destination : List UInt8) (manager : WorkerManager) :
    Registers sock destination manager (registerUnicastWorker sock destination manager) := by
  have opens := opens_get destination manager
  have all : Registers sock destination manager
      { addClient (getDestGroup destination manager).1 ⟨sock, none⟩
          (getDestGroup destination manager).2 with
        workers := manager.workers ++ [.unicast (getDestGroup destination manager).1 ⟨sock, none⟩] } := by
    apply opens.registers
    intro worker mem
    rw [List.mem_singleton.mp mem]
    exact ⟨rfl, fun client mem => by rw [List.mem_singleton.mp mem]⟩
  rw [← opens.workers] at all
  exact all

theorem registers_multicast (sock : Int) (destination : List UInt8) (manager : WorkerManager) :
    Registers sock destination manager (registerMulticastWorker sock destination manager) := by
  cases found : searchDestGroup destination manager with
  | some place =>
      have get : getDestGroup destination manager = (place, manager) := by rw [getDestGroup, found]
      have opens := opens_get destination manager
      rw [get] at opens
      have all : Registers sock destination manager
          { addClient place ⟨sock, none⟩ manager with workers := manager.workers ++ [] } :=
        opens.registers fun worker mem => absurd mem List.not_mem_nil
      rw [List.append_nil] at all
      rw [registerMulticastWorker, found]
      exact all
  | none =>
      rw [registerMulticastWorker, found]
      apply (opens_create destination manager).registers
      intro worker mem
      rw [List.mem_singleton.mp mem]
      refine ⟨rfl, fun client mem => ?_⟩
      simp [WorkerManager.clients, createDestGroup] at mem

/-- What handling a frame does to the threads and the groups: nothing, or a call of one of the three
functions, with the socket of the frame, for a destination that the frame asks for. -/
inductive WorkerChange (object : FrameObject) (manager : WorkerManager) : WorkerManager → Prop where
  | kept : WorkerChange object manager manager
  | reply {destination : List UInt8} (asked : destination ∈ askedFor object.frame) :
      WorkerChange object manager (registerReplyWorker object.frame.sock destination manager)
  | queue {destination : List UInt8} (asked : destination ∈ askedFor object.frame) :
      WorkerChange object manager (registerUnicastWorker object.frame.sock destination manager)
  | topic {destination : List UInt8} (asked : destination ∈ askedFor object.frame) :
      WorkerChange object manager (registerMulticastWorker object.frame.sock destination manager)

theorem WorkerChange.registers {object : FrameObject} {manager next : WorkerManager}
    (change : WorkerChange object manager next) :
    next = manager ∨ ∃ destination ∈ askedFor object.frame,
      Registers object.frame.sock destination manager next := by
  cases change with
  | kept => exact Or.inl rfl
  | @reply destination asked =>
      cases unknown : searchDestGroup destination manager with
      | none => exact Or.inr ⟨destination, asked, registers_reply unknown⟩
      | some place =>
          left
          rw [registerReplyWorker, unknown]
  | queue asked => exact Or.inr ⟨_, asked, registers_unicast _ _ _⟩
  | topic asked => exact Or.inr ⟨_, asked, registers_multicast _ _ _⟩

/-! ### Handlers -/

/-- Handling a frame registers at most one client, with the socket of the frame, for a destination that
the frame asks for, and enqueues at most the frame itself, under its destination. -/
structure Handled (object : FrameObject) (server next : Server) : Prop where
  workers : next.workers = server.workers ∨ ∃ destination ∈ askedFor object.frame,
    Registers object.frame.sock destination server.workers next.workers
  queues : next.queues = server.queues ∨ ∃ (accepted : FrameObject) (destination : List UInt8),
    object.frame.destination = some destination ∧ accepted.frame.destination = some destination ∧
      next.queues = (enqueue (some accepted) destination server.queues).2

/-- A handler that neither registers nor enqueues. -/
def Untouched (handler : Handler) : Prop :=
  ∀ env object server ret next, NoCallbacks server.transactions →
    handler env object server = some (ret, next) →
    next.workers = server.workers ∧ next.queues = server.queues

theorem stompSendReceipt_untouched (sock : Int) (id : List UInt8) (server : Server) :
    (stompSendReceipt sock id server).workers = server.workers ∧
      (stompSendReceipt sock id server).queues = server.queues := by
  unfold stompSendReceipt
  split <;> exact ⟨rfl, rfl⟩

/-- The server has at most answered, changed the transactions, or cancelled a thread of the list of
subscribers. -/
structure Answered (server next : Server) : Prop where
  rest : next = { server with
    wire := next.wire
    transactions := next.transactions
    subscribers := next.subscribers
    cancelled := next.cancelled }
  none : server.subscribers = [] → next.subscribers = [] ∧ next.cancelled = server.cancelled

theorem Answered.refl (server : Server) : Answered server server := ⟨rfl, fun none => ⟨none, rfl⟩⟩

theorem Answered.error (env : ServerEnv) (sock : Int) (body : List UInt8) (server : Server) :
    Answered server (sendError env sock body server) := ⟨rfl, fun none => ⟨none, rfl⟩⟩

theorem Answered.receipt (sock : Int) (id : List UInt8) (server : Server) :
    Answered server (stompSendReceipt sock id server) := by
  unfold stompSendReceipt
  split
  · exact ⟨rfl, fun none => ⟨none, rfl⟩⟩
  · exact Answered.refl server

/-- A handler that does no more. -/
def Answering (handler : Handler) : Prop :=
  ∀ env object server ret next, NoCallbacks server.transactions →
    handler env object server = some (ret, next) → Answered server next

theorem Answering.untouched {handler : Handler} (answers : Answering handler) : Untouched handler := by
  intro env object server ret next none handled
  rw [(answers env object server ret next none handled).rest]
  exact ⟨rfl, rfl⟩

theorem answering_handleTransaction (missing : ServerEnv → List UInt8)
    {act : ServerEnv → List UInt8 → Server → Option Server}
    (answers : ∀ env tid server next, NoCallbacks server.transactions →
      act env tid server = some next → Answered server next) :
    Answering fun env => handleTransaction (missing env) (act env) env := by
  intro env object server ret next none handled
  simp only [handleTransaction] at handled
  split at handled
  · cases handled
    exact Answered.error env _ _ server
  · obtain ⟨acted, ran, same⟩ := Option.map_eq_some_iff.mp handled
    cases same
    exact answers env _ server _ none ran
  · cases handled
    exact Answered.error env _ _ server

theorem answering_begin : Answering handlerStompBegin := by
  refine answering_handleTransaction (fun _ => _) ?_
  intro env tid server next none started
  obtain ⟨_, _, same⟩ := Option.map_eq_some_iff.mp started
  cases same
  exact ⟨rfl, fun none => ⟨none, rfl⟩⟩

theorem answering_abort : Answering handlerStompAbort := by
  refine answering_handleTransaction (fun _ => _) ?_
  intro env tid server next none aborted
  cases aborted
  exact ⟨rfl, fun none => ⟨none, rfl⟩⟩

theorem answering_commit : Answering handlerStompCommit := by
  refine answering_handleTransaction (fun _ => _) ?_
  intro env tid server next none committed
  obtain ⟨⟨ret, manager, world⟩, commit, same⟩ := Option.map_eq_some_iff.mp committed
  cases same
  rw [transactionCommit_silent none.framesAt] at commit
  split at commit
  · cases commit
    exact ⟨rfl, fun none => ⟨none, rfl⟩⟩
  · split at commit
    · cases commit
      exact ⟨rfl, fun none => ⟨none, rfl⟩⟩
    · cases commit

theorem answering_unsubscribe : Answering handlerStompUnsubscribe := by
  intro env object server ret next _ handled
  simp only [handlerStompUnsubscribe] at handled
  split at handled
  · cases handled
  · split at handled
    · cases handled
      exact Answered.error env _ _ server
    · cases handled
      exact Answered.refl server
    · cases handled
      refine ⟨rfl, fun none => ?_⟩
      simp [unregisterSubscriber, none]

theorem answering_ack : Answering handlerStompAck := by
  intro env object server ret next _ handled
  simp only [handlerStompAck] at handled
  split at handled
  · cases handled
  · split at handled
    · cases handled
      exact Answered.error env _ _ server
    · cases handled
      exact Answered.refl server

theorem answering_connect : Answering handlerStompConnect := by
  intro env object server ret next _ handled
  simp only [handlerStompConnect] at handled
  split at handled
  · cases handled
  · split at handled
    · cases handled
      exact Answered.error env _ _ server
    · cases handled
      exact ⟨rfl, fun none => ⟨none, rfl⟩⟩

theorem answering_disconnect : Answering handlerStompDisconnect := by
  intro env object server ret next _ handled
  simp only [handlerStompDisconnect] at handled
  split at handled
  · cases handled
    exact Answered.error env _ _ server
  · cases handled
    exact Answered.receipt _ _ server
  · cases handled
    exact Answered.refl server

/-- Every handler of the table but the first two. -/
theorem answering_handlers : ∀ row ∈ stompHandlers.tail.tail, Answering row.2 := by
  simp only [stompHandlers, List.tail_cons, List.forall_mem_cons, List.not_mem_nil, IsEmpty.forall_iff,
    implies_true, and_true]
  exact ⟨answering_connect, answering_connect, answering_disconnect, answering_unsubscribe,
    answering_begin, answering_commit, answering_abort, answering_ack, answering_ack⟩

theorem handlerStompSubscribe_change {env : ServerEnv} {object : FrameObject} {server next : Server}
    {ret : Option FrameObject} (notSend : (cstring "SEND").isPrefixOf object.frame.name = false)
    (name : (cstring "SUBSCRIBE").isPrefixOf object.frame.name = true)
    (handled : handlerStompSubscribe env object server = some (ret, next)) :
    WorkerChange object server.workers next.workers ∧ next.queues = server.queues := by
  simp only [handlerStompSubscribe] at handled
  split at handled
  · cases handled
  · split at handled
    · cases handled
      exact ⟨.kept, rfl⟩
    · next lines info attrs =>
        have values := iterateHeader_subscribeValues attrs
        split at handled
        · cases handled
          exact ⟨.kept, rfl⟩
        · next destination found =>
            cases handled
            rw [found, Option.or_none] at values
            have asked : destination ∈ askedFor object.frame := by
              rw [askedFor, if_neg (by rw [notSend]; decide), if_pos name, Frame.destination, ← values]
              exact List.mem_singleton.mpr rfl
            refine ⟨?_, rfl⟩
            dsimp only
            split
            · exact .topic asked
            · exact .queue asked

theorem answerReceipt_untouched (sock : Int) (receiptId : Option (List UInt8)) (server : Server) :
    (answerReceipt sock receiptId server).workers = server.workers ∧
      (answerReceipt sock receiptId server).queues = server.queues := by
  cases receiptId with
  | none => exact ⟨rfl, rfl⟩
  | some id => exact stompSendReceipt_untouched sock id server

/-- A frame without a transaction is enqueued. -/
theorem takeFrame_queues (object : FrameObject) (qname : List UInt8) (tid : Option (List UInt8))
    (server : Server) :
    (takeFrame object qname tid server).2.workers = server.workers ∧
      ((takeFrame object qname tid server).2.queues = server.queues ∨
        (takeFrame object qname tid server).2.queues =
          (enqueue (some object) qname server.queues).2) := by
  cases tid with
  | none => exact ⟨rfl, Or.inr rfl⟩
  | some tid => exact ⟨rfl, Or.inl rfl⟩

theorem handlerStompSend_change {env : ServerEnv} {object : FrameObject} {server next : Server}
    {ret : Option FrameObject} (name : (cstring "SEND").isPrefixOf object.frame.name = true)
    (handled : handlerStompSend env object server = some (ret, next)) :
    WorkerChange object server.workers next.workers ∧
      (next.queues = server.queues ∨ ∃ (accepted : FrameObject) (destination : List UInt8),
        object.frame.destination = some destination ∧
          accepted.frame.destination = some destination ∧
          next.queues = (enqueue (some accepted) destination server.queues).2) := by
  simp only [handlerStompSend] at handled
  split at handled
  · cases handled
  · next cinfoId cinfo =>
      split at handled
      · cases handled
        exact ⟨.kept, Or.inl rfl⟩
      · next hAttrs info attrs =>
          obtain ⟨qname, replied, kept, -⟩ := iterateHeader_sendValues attrs
          rw [Option.or_none] at qname replied
          -- a reply-to destination is one that the frame asks for
          have registered : (replyTo object.frame.sock info.replyTo server).queues = server.queues ∧
              WorkerChange object server.workers
                (replyTo object.frame.sock info.replyTo server).workers := by
            cases reply : info.replyTo with
            | none => exact ⟨rfl, .kept⟩
            | some destination =>
                refine ⟨rfl, .reply ?_⟩
                rw [askedFor, if_pos name, Frame.rewrittenReplyTo, cinfo, Option.mem_toList]
                rw [reply] at replied
                rw [replied]
                cases headerValue replyToName object.frame.hAttrs <;> rfl
          obtain ⟨queues, workers⟩ := registered
          split at handled
          · cases handled
            exact ⟨workers, Or.inl queues⟩
          · next destination found =>
              cases handled
              obtain ⟨sameWorkers, sameQueues⟩ := answerReceipt_untouched
                (takeFrame ⟨object.address, { object.frame with hAttrs := hAttrs }⟩ destination info.tid
                  (replyTo object.frame.sock info.replyTo server)).1.frame.sock info.receiptId
                (takeFrame ⟨object.address, { object.frame with hAttrs := hAttrs }⟩ destination info.tid
                  (replyTo object.frame.sock info.replyTo server)).2
              obtain ⟨takeWorkers, takeQueues⟩ := takeFrame_queues
                ⟨object.address, { object.frame with hAttrs := hAttrs }⟩ destination info.tid
                (replyTo object.frame.sock info.replyTo server)
              have named : object.frame.destination = some destination := qname.symm.trans found
              constructor
              · rw [sameWorkers, takeWorkers]
                exact workers
              · rw [sameQueues]
                rw [queues] at takeQueues
                exact takeQueues.imp_right fun enqueued =>
                  ⟨⟨object.address, { object.frame with hAttrs := hAttrs }⟩, destination, named,
                    kept.trans named, enqueued⟩

/-- Which handler a name has: that of `SEND`, that of `SUBSCRIBE`, or one that only answers. -/
theorem findHandler_kind {name : List UInt8} {handler : Handler}
    (found : findHandler name = some handler) :
    (cstring "SEND").isPrefixOf name = true ∧ handler = handlerStompSend ∨
      (cstring "SEND").isPrefixOf name = false ∧
        ((cstring "SUBSCRIBE").isPrefixOf name = true ∧ handler = handlerStompSubscribe ∨
          (cstring "SUBSCRIBE").isPrefixOf name = false ∧ Answering handler) := by
  obtain ⟨row, first, rfl⟩ := Option.map_eq_some_iff.mp found
  rw [stompHandlers, List.find?_cons] at first
  cases send : (cstring "SEND").isPrefixOf name with
  | true =>
      rw [send] at first
      cases first
      exact Or.inl ⟨rfl, rfl⟩
  | false =>
      rw [send, List.find?_cons] at first
      refine Or.inr ⟨rfl, ?_⟩
      cases subscribe : (cstring "SUBSCRIBE").isPrefixOf name with
      | true =>
          rw [subscribe] at first
          cases first
          exact Or.inl ⟨rfl, rfl⟩
      | false =>
          rw [subscribe] at first
          exact Or.inr ⟨rfl, answering_handlers row (List.mem_of_find?_eq_some first)⟩

theorem handleFrame_change {env : ServerEnv} {object : FrameObject} {server next : Server}
    (none : NoCallbacks server.transactions)
    (handled : handleFrame env object server = some next) :
    WorkerChange object server.workers next.workers ∧
      (next.queues = server.queues ∨ ∃ (accepted : FrameObject) (destination : List UInt8),
        object.frame.destination = some destination ∧
          accepted.frame.destination = some destination ∧
          next.queues = (enqueue (some accepted) destination server.queues).2) := by
  rcases handleFrame_cases handled with
    ⟨handler, ret, later, freed, found, ran, rfl⟩ | ⟨notFound, wire, rfl⟩
  · rcases findHandler_kind found with ⟨send, rfl⟩ | ⟨send, ⟨subscribe, rfl⟩ | ⟨_, answers⟩⟩
    · have change := handlerStompSend_change send ran
      exact change
    · obtain ⟨change, queues⟩ := handlerStompSubscribe_change send subscribe ran
      exact ⟨change, Or.inl queues⟩
    · obtain ⟨workers, queues⟩ := answers.untouched env object server ret later none ran
      simp only [workers]
      exact ⟨.kept, Or.inl queues⟩
  · exact ⟨.kept, Or.inl rfl⟩

/-- Handling any frame. -/
theorem handleFrame_handled {env : ServerEnv} {object : FrameObject} {server next : Server}
    (none : NoCallbacks server.transactions)
    (handled : handleFrame env object server = some next) : Handled object server next := by
  obtain ⟨change, queues⟩ := handleFrame_change none handled
  exact ⟨change.registers, queues⟩

section Handled

variable {object : FrameObject} {server next : Server} (handled : Handled object server next)
include handled

/-- The threads that there are stay. -/
theorem Handled.threads : server.workers.workers <+: next.workers.workers := by
  rcases handled.workers with same | ⟨_, _, registers⟩
  · exact ⟨[], by rw [same, List.append_nil]⟩
  · exact registers.threads

theorem Handled.clients (worker : Worker) :
    server.workers.clients worker <+: next.workers.clients worker := by
  rcases handled.workers with same | ⟨_, _, registers⟩
  · exact ⟨[], by rw [same, List.append_nil]⟩
  · exact registers.clients worker

/-- A thread keeps its destination. -/
theorem Handled.serves {worker : Worker} {destination : List UInt8}
    (serves : server.workers.destination worker = some destination) :
    next.workers.destination worker = some destination := by
  rcases handled.workers with same | ⟨_, _, registers⟩
  · rw [same, serves]
  · exact registers.kept worker destination serves

/-- A new thread serves what the frame asks for. -/
theorem Handled.thread {worker : Worker} (mem : worker ∈ next.workers.workers) :
    worker ∈ server.workers.workers ∨
      ∃ destination ∈ askedFor object.frame, next.workers.destination worker = some destination := by
  rcases handled.workers with same | ⟨destination, asks, registers⟩
  · rw [same] at mem
    exact Or.inl mem
  · exact (registers.served worker mem).imp_right fun serves => ⟨destination, asks, serves⟩

/-- A new client has the socket of the frame and is served what the frame asks for. -/
theorem Handled.client {n : Nat} {worker : Worker}
    (thread : next.workers.workers[n]? = some worker) {client : ClientInfo}
    (mem : client ∈ next.workers.clients worker) :
    (server.workers.workers[n]? = some worker ∧ client ∈ server.workers.clients worker) ∨
      client.sock = object.frame.sock ∧
        ∃ destination ∈ askedFor object.frame, next.workers.destination worker = some destination := by
  rcases handled.workers with same | ⟨destination, asks, registers⟩
  · rw [same] at thread mem
    exact Or.inl ⟨thread, mem⟩
  · exact (registers.added n worker thread client mem).imp_right
      fun ⟨here, serves⟩ => ⟨here, destination, asks, serves⟩

theorem Handled.wellFormed (queues : server.queues.WellFormed) : next.queues.WellFormed := by
  rcases handled.queues with same | ⟨accepted, destination, _, _, enqueued⟩
  · rw [same]
    exact queues
  · rw [enqueued]
    exact queues.enqueue accepted destination

/-- A frame that waits has waited before, or has been filed under its destination. -/
theorem Handled.waits (queues : server.queues.WellFormed) {hashnum : UInt64} {other : FrameObject}
    (mem : other ∈ contents hashnum next.queues) :
    other ∈ contents hashnum server.queues ∨
      ∃ destination, object.frame.destination = some destination ∧
        other.frame.destination = some destination ∧ getHash destination = hashnum := by
  rcases handled.queues with same | ⟨accepted, destination, named, names, enqueued⟩
  · rw [same] at mem
    exact Or.inl mem
  · rw [enqueued, contents_enqueue queues] at mem
    split at mem
    · next here =>
        rcases List.mem_append.mp mem with before | new
        · exact Or.inl (here ▸ before)
        · rw [List.mem_singleton.mp new]
          exact Or.inr ⟨destination, named, names, here.symm⟩
    · exact Or.inl mem

end Handled

end Newtmq
