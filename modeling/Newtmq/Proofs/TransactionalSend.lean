/-
Module: Newtmq.Proofs.TransactionalSend
Purpose: `SEND` frames inside a transaction, over whole runs of the server. `handler_stomp_send` leaves
  no callback in the frames it adds to a transaction, so `COMMIT` returns only for a transaction
  without frames, and no frame sent in a transaction is ever enqueued.
Trusted boundary: none
Main exports: FramesReceived, transactionalSend, TransactionRun, TakesEffectAtCommit,
  commit_returns_iff, abort_enqueues_none, takesEffectAtCommit_iff
-/
import Newtmq.Proofs.RecvPass
import Newtmq.Proofs.ServerSteps
import Mathlib.Data.List.Nodup

namespace Newtmq

variable {env : ServerEnv}

/-! ### The parser sets no callback -/

theorem frameUpdate_callback (finish : Frame → Frame)
    (keeps : ∀ frame, (finish frame).transactionCallback = frame.transactionCallback)
    (line : List UInt8) (len : Nat) (frame : Frame) :
    (frameUpdate finish line len frame).2.transactionCallback = frame.transactionCallback := by
  have body : (frameBodyPiece line len frame).transactionCallback = frame.transactionCallback := by
    unfold frameBodyPiece
    split <;> rfl
  unfold frameUpdate
  split
  · unfold frameSetname
    split
    · rfl
    · next h =>
        split at h <;> cases h
        rfl
  · split
    · rfl
    · split
      · exact keeps frame
      · unfold frameHeaderLine
        split <;> rfl
  · dsimp only
    split
    · exact (keeps _).trans body
    · exact body
  · rfl

/-- The frames of the bucket and the frame that is being received have no callback. -/
def FramesReceived (st : RecvState) : Prop :=
  (∀ frame ∈ st.bucket, frame.transactionCallback = none) ∧
    (prepareFrame 0 st.cinfo).transactionCallback = none

theorem prepareFrame_callback (sock : Int) (cinfo : StompConninfo) :
    (prepareFrame sock cinfo).transactionCallback =
      (prepareFrame 0 cinfo).transactionCallback := by
  unfold prepareFrame
  split <;> rfl

theorem FramesReceived.afterUpdate {st : RecvState} (received : FramesReceived st) (env : RecvEnv)
    (sock : Int) {ret : Int} {frame : Frame} (silent : frame.transactionCallback = none) :
    FramesReceived (afterUpdate env sock st (ret, frame)).dropPrev := by
  by_cases finished : 0 < ret
  · simp only [Newtmq.afterUpdate, finished, if_true]
    refine ⟨?_, rfl⟩
    intro other mem
    rcases List.mem_append.mp mem with old | new
    · exact received.1 other old
    · rw [List.mem_singleton.mp new]
      exact silent
  · simp only [Newtmq.afterUpdate, finished, if_false]
    exact ⟨received.1, silent⟩

theorem recvLine_received {st : RecvState} (received : FramesReceived st) (env : RecvEnv)
    (sock : Int) (curr : List UInt8) (n : Nat) :
    FramesReceived (recvLine env sock curr n st).2 := by
  rcases joined : joinedLine st.cinfo curr n with ⟨line, len⟩
  have silent : (frameUpdate (frameFinish env st.rands) line len
      (prepareFrame sock st.cinfo)).2.transactionCallback = none := by
    rw [frameUpdate_callback (frameFinish env st.rands) (fun _ => rfl), prepareFrame_callback]
    exact received.2
  simp only [recvLine, joined]
  split
  · exact received.afterUpdate env sock silent
  · exact received

/-- The frames that `recv_data` publishes have no callback. -/
theorem framesReceived_kept (env : RecvEnv) (sock : Int) : RecvInvariant env sock FramesReceived where
  line st curr n _ received := recvLine_received received env sock curr n
  save st text received := by
    refine ⟨received.1, ?_⟩
    have same : prepareFrame 0 (savePrev st.cinfo text) = prepareFrame 0 st.cinfo := by
      rw [prepareFrame, prepareFrame, savePrev_frame, savePrev_id]
    dsimp only
    rw [same]
    exact received.2

/-! ### Runs with a transaction -/

/-- The record that a `SEND` frame is to leave when the transaction it names is committed. -/
def transactionalSend (tid : List UInt8) (object : FrameObject) : List (List UInt8 × Nat) :=
  match sendTarget object with
  | some (some named, qname) => if named = tid then [(cstr qname, object.address)] else []
  | _ => []

/-- A frame with this command whose header is accepted and names the transaction `tid`. -/
def Names (command : String) (tid : List UInt8) (object : FrameObject) : Prop :=
  (cstring command).isPrefixOf object.frame.name = true ∧
    ∃ hAttrs, iterateHeader transactionHandlers object.frame.hAttrs none = (.success, hAttrs, some tid)

/-- The frames enqueued between two states of a run. -/
def enqueuedSince (earlier later : Server) : List (List UInt8 × Nat) :=
  later.enqueued.drop earlier.enqueued.length

/-- A run of the server from its start, in which the management worker handles `BEGIN tid` in the state
`opened` and then the frames of `middle`, up to the state `sent`. The run may go on with the handling
of `commit` or of `abort`. -/
structure TransactionRun (env : ServerEnv) (tid : List UInt8) where
  datadir : List UInt8
  disk : List UInt8 → Option QueueFiles
  before : List ServerAction
  opened : Server
  begun : FrameObject
  middle : List ServerAction
  sent : Server
  commit : FrameObject
  abort : FrameObject
  reached : Transition.run (serverStep env) (Server.init datadir disk) before = some opened
  handled : Transition.run (serverStep env) opened (.handle begun :: middle) = some sent
  begun_names : Names "BEGIN" tid begun
  commit_names : Names "COMMIT" tid commit
  abort_names : Names "ABORT" tid abort
  received : ∀ object ∈ handledObjects before ++ begun :: handledObjects middle, object.Received
  abort_received : abort.Received

/-- The records that the frames sent in the transaction are to leave. -/
def TransactionRun.sends {tid : List UInt8} (r : TransactionRun env tid) :
    List (List UInt8 × Nat) :=
  (handledObjects r.middle).flatMap (transactionalSend tid)

/-- Handling `COMMIT` returns, and enqueues each frame sent in the transaction once on its own
destination, none of which was enqueued before. -/
def CommitTakesEffect {tid : List UInt8} (r : TransactionRun env tid) : Prop :=
  ∃ last, serverStep env r.sent (.handle r.commit) = some last ∧
    ∀ send ∈ r.sends,
      send ∉ enqueuedSince r.opened r.sent ∧ (enqueuedSince r.sent last).count send = 1

/-- However the run goes on after `ABORT`, no frame sent in the transaction is ever enqueued. Objects
that are handled have different addresses. -/
def AbortTakesEffect {tid : List UInt8} (r : TransactionRun env tid) : Prop :=
  ∀ later last, (∀ object ∈ handledObjects later, object.Received) →
    ((r.begun :: handledObjects r.middle ++ r.abort :: handledObjects later).map
      FrameObject.address).Nodup →
    Transition.run (serverStep env) r.sent (.handle r.abort :: later) = some last →
    ∀ send ∈ r.sends, send ∉ enqueuedSince r.opened last

/-- Transactional sends take effect exactly at `COMMIT`. -/
def TakesEffectAtCommit {tid : List UInt8} (r : TransactionRun env tid) : Prop :=
  CommitTakesEffect r ∧ AbortTakesEffect r

/-! ### `ABORT` -/

theorem noCallbacks_init (datadir : List UInt8) (disk : List UInt8 → Option QueueFiles) :
    NoCallbacks (Server.init datadir disk).transactions := by
  intro transaction mem
  cases mem

/-- What the run has enqueued since `BEGIN`, and that its transactions hold no callbacks. -/
theorem TransactionRun.recorded {tid : List UInt8} (r : TransactionRun env tid) :
    r.sent.enqueued = r.opened.enqueued ++
        (r.begun :: handledObjects r.middle).flatMap directSend ∧
      NoCallbacks r.sent.transactions := by
  have first := run_enqueued _ (fun o mem => r.received o (List.mem_append_left _ mem))
    (noCallbacks_init r.datadir r.disk) r.reached
  exact run_enqueued (.handle r.begun :: r.middle)
    (fun o mem => r.received o (List.mem_append_right _ mem)) first.2 r.handled

/-- A frame is not both: sent in a transaction, and enqueued at once. -/
theorem directSend_of_transactionalSend {tid : List UInt8} {object : FrameObject}
    {send : List UInt8 × Nat} (sent : send ∈ transactionalSend tid object) :
    directSend object = [] ∧ send.2 = object.address := by
  unfold transactionalSend at sent
  unfold directSend
  split at sent
  · next named qname target =>
      rw [target]
      split at sent
      · simp only [List.mem_singleton] at sent
        exact ⟨rfl, by rw [sent]⟩
      · cases sent
  · cases sent

theorem address_of_directSend {object : FrameObject} {send : List UInt8 × Nat}
    (sent : send ∈ directSend object) : send.2 = object.address := by
  unfold directSend at sent
  split at sent
  · simp only [List.mem_singleton] at sent
    rw [sent]
  · cases sent

/-- Among objects with different addresses, the record of a frame sent in a transaction is not the
record of a frame enqueued at once. -/
theorem transactionalSend_not_direct {tid : List UInt8} {objects : List FrameObject}
    (distinct : (objects.map FrameObject.address).Nodup) {object : FrameObject}
    (mem : object ∈ objects) {send : List UInt8 × Nat} (sent : send ∈ transactionalSend tid object) :
    send ∉ objects.flatMap directSend := by
  intro direct
  obtain ⟨other, memOther, recorded⟩ := List.mem_flatMap.mp direct
  obtain ⟨notDirect, address⟩ := directSend_of_transactionalSend sent
  have same : other = object :=
    List.inj_on_of_nodup_map distinct memOther mem
      ((address_of_directSend recorded).symm.trans address)
  rw [same, notDirect] at recorded
  cases recorded

/-- A frame sent in a transaction that is aborted is never enqueued. -/
theorem abort_enqueues_none {tid : List UInt8} (r : TransactionRun env tid) :
    AbortTakesEffect r := by
  intro later last received distinct taken send mem
  obtain ⟨recorded, none⟩ := r.recorded
  have receivedAll : ∀ object ∈ handledObjects (.handle r.abort :: later), object.Received := by
    intro object here
    rcases List.mem_cons.mp here with rfl | here
    · exact r.abort_received
    · exact received object here
  have more := (run_enqueued _ receivedAll none taken).1
  obtain ⟨object, memObject, sent⟩ := List.mem_flatMap.mp mem
  have since : enqueuedSince r.opened last =
      (r.begun :: handledObjects r.middle ++ r.abort :: handledObjects later).flatMap directSend := by
    rw [enqueuedSince, more, recorded, List.append_assoc, List.drop_left, List.flatMap_append]
    rfl
  rw [since]
  exact transactionalSend_not_direct distinct
    (List.mem_append_left _ (List.mem_cons_of_mem _ memObject)) sent

/-! ### `COMMIT` -/

theorem findHandler_commit {name : List UInt8} (command : (cstring "COMMIT").isPrefixOf name = true) :
    findHandler name = some handlerStompCommit := by
  obtain ⟨rest, rfl⟩ := List.isPrefixOf_iff_prefix.mp command
  rfl

/-- Handling `COMMIT tid` is `transaction_commit`, after which the frame is freed. -/
theorem commit_step {tid : List UInt8} {commit : FrameObject} {server : Server}
    (none : NoCallbacks server.transactions) (names : Names "COMMIT" tid commit) :
    serverStep env server (.handle commit) =
      match getTransaction tid server.transactions with
      | .none => some (freeFrame commit server)
      | some place =>
          if server.transactions.framesAt place = [] then
            some (freeFrame commit
              { server with transactions := freeTransaction place server.transactions })
          else .none := by
  obtain ⟨command, hAttrs, accepted⟩ := names
  simp only [serverStep, handleFrame, findHandler_commit command, handlerStompCommit,
    handleTransaction, accepted, Option.map_map, transactionCommit_silent none.framesAt]
  cases getTransaction tid server.transactions with
  | none => rfl
  | some place => by_cases empty : server.transactions.framesAt place = [] <;> simp [empty]

/-- In a state without callbacks, handling `COMMIT tid` returns exactly when the transaction that is
found has no frames. -/
theorem commit_returns_iff {tid : List UInt8} {commit : FrameObject} {server : Server}
    (none : NoCallbacks server.transactions) (names : Names "COMMIT" tid commit) :
    (∃ last, serverStep env server (.handle commit) = some last) ↔
      ∀ place, getTransaction tid server.transactions = some place →
        server.transactions.framesAt place = [] := by
  rw [commit_step none names]
  cases getTransaction tid server.transactions with
  | none => simp
  | some place => by_cases empty : server.transactions.framesAt place = [] <;> simp [empty]

/-- It enqueues nothing. -/
theorem commit_enqueued {tid : List UInt8} {commit : FrameObject} {server last : Server}
    (none : NoCallbacks server.transactions) (names : Names "COMMIT" tid commit)
    (taken : serverStep env server (.handle commit) = some last) :
    last.enqueued = server.enqueued := by
  rw [commit_step none names] at taken
  split at taken
  · cases taken
    rfl
  · split at taken
    · cases taken
      rfl
    · cases taken

/-- In every run, transactional sends take effect exactly at `COMMIT` when there are none: no frame is
sent in the transaction, and the transaction that `COMMIT` finds has no frames. -/
theorem takesEffectAtCommit_iff (env : ServerEnv) (tid : List UInt8) (r : TransactionRun env tid) :
    TakesEffectAtCommit r ↔
      r.sends = [] ∧ ∀ place, getTransaction tid r.sent.transactions = some place →
        r.sent.transactions.framesAt place = [] := by
  have none := r.recorded.2
  have returns : (∃ last, serverStep env r.sent (.handle r.commit) = some last) ↔ _ :=
    commit_returns_iff none r.commit_names
  constructor
  · rintro ⟨⟨last, taken, effect⟩, _⟩
    have same := commit_enqueued none r.commit_names taken
    refine ⟨?_, returns.mp ⟨last, taken⟩⟩
    rw [List.eq_nil_iff_forall_not_mem]
    intro send mem
    have once := (effect send mem).2
    rw [enqueuedSince, same, List.drop_length] at once
    cases once
  · rintro ⟨noSends, empty⟩
    obtain ⟨last, taken⟩ := returns.mpr empty
    refine ⟨⟨last, taken, ?_⟩, abort_enqueues_none r⟩
    intro send mem
    rw [noSends] at mem
    cases mem

/-- A frame with one header line, on socket 3. -/
def exampleFrame (name header : String) : Frame :=
  { allocFrame with
    name := cstring name
    sock := 3
    cinfo := some (cstring "AAAAAAAAA")
    hAttrs := [⟨cstring header, header.length⟩] }

/-- `BEGIN t`, one `SEND` in the transaction `t`, and then `COMMIT t`, which does not return. -/
theorem commit_of_one_send_hangs :
    ¬ ∀ (env : ServerEnv) (tid : List UInt8) (r : TransactionRun env tid), TakesEffectAtCommit r := by
  intro always
  let env : ServerEnv :=
    { rand := fun _ => 0
      socketValid := fun _ _ => true
      malloc := fun _ => List.replicate TID_LEN 0
      callbacks := fun _ _ server => (.success, server) }
  let begun : FrameObject := ⟨0, exampleFrame "BEGIN" "transaction:t"⟩
  let send : FrameObject :=
    ⟨1, { exampleFrame "SEND" "destination:q" with
          hAttrs := [⟨cstring "destination:q", 13⟩, ⟨cstring "transaction:t", 13⟩] }⟩
  let commit : FrameObject := ⟨2, exampleFrame "COMMIT" "transaction:t"⟩
  let abort : FrameObject := ⟨3, exampleFrame "ABORT" "transaction:t"⟩
  obtain ⟨sent, handled, hangs⟩ :
      ∃ sent, Transition.run (serverStep env) (Server.init (cstring "data") fun _ => none)
          [.handle begun, .handle send] = some sent ∧
        serverStep env sent (.handle commit) = none :=
    ⟨_, rfl, rfl⟩
  let r : TransactionRun env (cstring "t") :=
    { datadir := cstring "data"
      disk := fun _ => none
      before := []
      opened := Server.init (cstring "data") fun _ => none
      begun := begun
      middle := [.handle send]
      sent := sent
      commit := commit
      abort := abort
      reached := rfl
      handled := handled
      begun_names := ⟨by decide, _, rfl⟩
      commit_names := ⟨by decide, _, rfl⟩
      abort_names := ⟨by decide, _, rfl⟩
      received := by
        intro object mem
        simp only [handledObjects, List.filterMap_nil, List.nil_append, List.filterMap_cons,
          List.mem_cons, List.not_mem_nil, or_false] at mem
        rcases mem with rfl | rfl <;> rfl
      abort_received := rfl }
  obtain ⟨last, taken, _⟩ := (always env (cstring "t") r).1
  rw [hangs] at taken
  cases taken

end Newtmq
