/-
Module: Newtmq.Proofs.Broker
Purpose: The broker against the byte-wise readers of its streams: in every interleaving of the connection
  threads, the management worker and the calls of `dequeue`, each queue receives from each connection
  exactly the messages that the connection has sent to it, whole and in order.
Trusted boundary: none
Main exports: linkFrames_spec, BrokerInv, brokerInv_start, brokerInv_step, queues_in_order, nothing_lost
-/
import Newtmq.Proofs.ConnectionOrder
import Newtmq.Proofs.ConnectionReads
import Newtmq.Proofs.FrameSeparation
import Newtmq.Proofs.ReplyTo

namespace Newtmq

open Transition (Reaches Always)

/-! ### Linking frames -/

/-- The publishing state after a connection has linked some frames. -/
structure Linked (connection : Nat) (frames : List Frame) (before after : Publishing) : Prop where
  inv : PublishingInv after
  server : after.server = before.server
  handled : after.handled = before.handled
  completed : ∀ other, (after.completedBy other).map FrameObject.frame =
    (before.completedBy other).map FrameObject.frame ++ (if other = connection then frames else [])

theorem Linked.none {connection : Nat} {s : Publishing} (inv : PublishingInv s) :
    Linked connection [] s s where
  inv := inv
  server := rfl
  handled := rfl
  completed other := by rw [ite_self, List.append_nil]

/-- Frames without a callback can be linked, one after the other. -/
theorem linkFrames_spec (env : ServerEnv) (connection : Nat) :
    ∀ (frames : List Frame) {s : Publishing}, PublishingInv s →
      (∀ frame ∈ frames, frame.transactionCallback = none) →
      ∃ next, frames.foldlM (fun s frame => publishingStep env s (.finish connection frame)) s =
          some next ∧ Linked connection frames s next
  | [], s, inv, _ => ⟨s, rfl, .none inv⟩
  | frame :: frames, s, inv, silent => by
      obtain ⟨first, rest⟩ := List.forall_mem_cons.mp silent
      have taken : publishingStep env s (.finish connection frame) =
          some { s with
            bucket := s.bucket ++ [⟨s.completed.length, frame⟩]
            completed := s.completed ++ [(connection, ⟨s.completed.length, frame⟩)] } := if_pos first
      obtain ⟨next, others, linked⟩ :=
        linkFrames_spec env connection frames (publishingInv_step inv taken) rest
      refine ⟨next, ?_, linked.inv, linked.server, linked.handled, ?_⟩
      · rw [List.foldlM_cons, taken]
        exact others
      · intro other
        rw [linked.completed other]
        by_cases same : other = connection
        · subst same
          simp [Publishing.completedBy]
        · simp [Publishing.completedBy, same, Ne.symm same]

/-! ### Steps -/

/-- A thread adds frames to its part of the bucket at most. -/
theorem receiveStep_bucket {env : RecvEnv} {sock : Int} {s next : Receiving} {action : ReceiveAction}
    (taken : receiveStep env sock s action = some next) : s.recv.bucket <+: next.recv.bucket := by
  cases action with
  | receive chunk =>
      obtain ⟨_, same⟩ := Option.ite_none_right_eq_some.mp taken
      cases same
      exact List.prefix_rfl
  | pass =>
      obtain ⟨curr, _, same⟩ := Option.map_eq_some_iff.mp taken
      have kept := @RecvInvariant.pass _ sock _ (bucket_kept env s.recv.bucket) curr s.recv List.prefix_rfl
      split at same
      · next pass =>
          cases same
          exact kept.2 _ pass
      · next pass =>
          cases same
          exact kept.1 _ pass
  | close =>
      obtain ⟨_, same⟩ := Option.ite_none_right_eq_some.mp taken
      cases same
      dsimp only
      rw [connFinish]
      split
      · split
        · exact List.prefix_append _ _
        · exact List.prefix_rfl
      · exact List.prefix_rfl

/-- Each thread has read its stream as far as it says, the frames that it has linked are those that it has
completed, and the queues have received what the handled frames file, and nothing else. -/
structure BrokerInv (env : BrokerEnv) (streams : Nat → List UInt8) (server : Server) (s : Broker) :
    Prop where
  publishing : PublishingInv s.publishing
  wellFormed : s.publishing.server.queues.WellFormed
  kept : ∀ hashnum, ofHash hashnum s.taken ++ contents hashnum s.publishing.server.queues =
    contents hashnum server.queues ++ ofHash hashnum (s.publishing.handled.flatMap filed)
  linked : ∀ connection, (s.publishing.completedBy connection).map FrameObject.frame =
    (s.receiving connection).recv.bucket
  reads : ∀ connection, Reads (env.sock connection) (connInit (env.recv connection) 0).id
    (streams connection) (s.unread connection) (s.receiving connection)

variable {env : BrokerEnv} {streams : Nat → List UInt8} {server : Server}

theorem brokerInv_start (started : server.Started) :
    BrokerInv env streams server (.start env streams server) where
  publishing := publishingInv_start started.idle
  wellFormed := started.queues
  kept _ := by simp [Broker.start, Publishing.start]
  linked _ := rfl
  reads connection := reads_start _ _ _

/-- A step of a connection thread, which leaves `unread'` of its stream. -/
theorem BrokerInv.advance {s next : Broker} (inv : BrokerInv env streams server s) {connection : Nat}
    {action : ReceiveAction} {unread' : List UInt8} (taken : s.advance env connection action = some next)
    (reads : ∀ after, receiveStep (env.recv connection) (env.sock connection)
        (s.receiving connection) action = some after →
      Reads (env.sock connection) (connInit (env.recv connection) 0).id (streams connection) unread'
        after) :
    BrokerInv env streams server
      { next with unread := Function.update s.unread connection unread' } := by
  obtain ⟨after, stepped, ran⟩ := Option.bind_eq_some_iff.mp taken
  obtain ⟨publishing, linked, same⟩ := Option.map_eq_some_iff.mp ran
  cases same
  have here := reads after stepped
  obtain ⟨new, grows⟩ := receiveStep_bucket stepped
  rw [← grows, List.drop_left] at linked
  have silent : ∀ frame ∈ new, frame.transactionCallback = none := by
    intro frame mem
    have inBucket : frame ∈ after.recv.bucket := grows ▸ List.mem_append_right _ mem
    exact (here.stored.bucket frame inBucket).received
  obtain ⟨published, same, links⟩ := linkFrames_spec env.server connection new inv.publishing silent
  rw [linked] at same
  cases same
  refine ⟨links.inv, ?_, ?_, ?_, ?_⟩
  · rw [links.server]
    exact inv.wellFormed
  · intro hashnum
    rw [links.server, links.handled]
    exact inv.kept hashnum
  · intro other
    dsimp only
    rw [links.completed other, inv.linked other, Function.update_apply]
    by_cases same : other = connection
    · subst same
      rw [if_pos rfl, if_pos rfl, grows]
    · rw [if_neg same, if_neg same, List.append_nil]
  · intro other
    dsimp only
    rw [Function.update_apply, Function.update_apply]
    by_cases same : other = connection
    · subst same
      rw [if_pos rfl, if_pos rfl]
      exact here
    · rw [if_neg same, if_neg same]
      exact inv.reads other

/-- Every step keeps the invariant. -/
theorem brokerInv_step (orderly : ∀ connection, Orderly (streams connection)) {s next : Broker}
    {action : BrokerAction} (inv : BrokerInv env streams server s)
    (taken : brokerStep env s action = some next) : BrokerInv env streams server next := by
  cases action with
  | receive connection count =>
      obtain ⟨_, ran⟩ := Option.ite_none_right_eq_some.mp taken
      obtain ⟨advanced, step, same⟩ := Option.map_eq_some_iff.mp ran
      cases same
      have parts := (List.take_append_drop count (s.unread connection)).symm
      exact inv.advance step fun _ stepped =>
        reads_step (orderly connection) (inv.reads connection) stepped parts
  | pass connection =>
      have step := inv.advance taken fun _ stepped =>
        reads_step (orderly connection) (inv.reads connection) stepped rfl
      have same : next.unread = s.unread := by
        obtain ⟨_, _, ran⟩ := Option.bind_eq_some_iff.mp taken
        obtain ⟨_, _, same⟩ := Option.map_eq_some_iff.mp ran
        rw [← same]
      rw [Function.update_eq_self, ← same] at step
      exact step
  | close connection =>
      obtain ⟨read, ran⟩ := Option.ite_none_right_eq_some.mp taken
      have step := inv.advance ran fun _ stepped =>
        reads_step (orderly connection) (inv.reads connection) stepped ⟨read, rfl⟩
      have same : next.unread = s.unread := by
        obtain ⟨_, _, ran⟩ := Option.bind_eq_some_iff.mp ran
        obtain ⟨_, _, same⟩ := Option.map_eq_some_iff.mp ran
        rw [← same]
      rw [← read, Function.update_eq_self, ← same] at step
      exact step
  | get =>
      obtain ⟨publishing, step, same⟩ := Option.map_eq_some_iff.mp taken
      cases same
      have published := publishingInv_step inv.publishing step
      have quiet : publishing.server = s.publishing.server ∧
          publishing.handled = s.publishing.handled ∧
          publishing.completed = s.publishing.completed := by
        simp only [publishingStep] at step
        split at step <;> cases step <;> exact ⟨rfl, rfl, rfl⟩
      obtain ⟨sameServer, sameHandled, sameCompleted⟩ := quiet
      refine ⟨published, ?_, ?_, ?_, inv.reads⟩
      · rw [sameServer]
        exact inv.wellFormed
      · intro hashnum
        rw [sameServer, sameHandled]
        exact inv.kept hashnum
      · intro connection
        rw [Publishing.completedBy, sameCompleted]
        exact inv.linked connection
  | handle =>
      obtain ⟨publishing, step, same⟩ := Option.map_eq_some_iff.mp taken
      cases same
      have published := publishingInv_step inv.publishing step
      obtain ⟨object, _, ran⟩ := Option.bind_eq_some_iff.mp step
      obtain ⟨later, handled, same⟩ := Option.map_eq_some_iff.mp ran
      cases same
      have files := handleFrame_filed inv.publishing.callbacks inv.wellFormed handled
      refine ⟨published, files.wellFormed, ?_, inv.linked, inv.reads⟩
      intro hashnum
      dsimp only
      rw [files.contents, List.flatMap_append, List.flatMap_singleton, ofHash_append,
        ← List.append_assoc, inv.kept hashnum, List.append_assoc]
  | dequeue qname =>
      have step : publishingStep env.server s.publishing (.dequeue qname) = some { s.publishing with
          server := { s.publishing.server with
            queues := (dequeue qname s.publishing.server.queues).2 } } := rfl
      have published := publishingInv_step inv.publishing step
      cases taken
      refine ⟨published, inv.wellFormed.dequeue qname, ?_, inv.linked, inv.reads⟩
      intro hashnum
      dsimp only
      rw [contents_dequeue inv.wellFormed, dequeue_fst inv.wellFormed, ← inv.kept hashnum,
        ofHash_append, List.append_assoc]
      by_cases here : hashnum = getHash qname
      · subst here
        rw [if_pos rfl]
        cases waiting : contents (getHash qname) s.publishing.server.queues with
        | nil => simp
        | cons object rest => simp
      · rw [if_neg here]
        cases waiting : contents (getHash qname) s.publishing.server.queues with
        | nil => simp
        | cons object rest => simp [Ne.symm here]

theorem BrokerInv.of_reaches (started : server.Started)
    (orderly : ∀ connection, Orderly (streams connection)) {s : Broker}
    (reached : Reaches (brokerStep env) Always (.start env streams server) s) :
    BrokerInv env streams server s := by
  apply @Reaches.invariant _ _ _ _ (BrokerInv env streams server) _ _ _ reached (brokerInv_start started)
  exact fun _ _ _ inv _ taken => brokerInv_step orderly inv taken

/-! ### The frames of one connection -/

theorem filed_address {object : FrameObject} {entry : UInt64 × FrameObject}
    (mem : entry ∈ filed object) : entry.2.address = object.address := by
  rw [filed] at mem
  split at mem
  · cases mem
  · split at mem
    · cases mem
    · split at mem
      · split at mem
        · rw [List.mem_singleton.mp mem]
        · cases mem
      · cases mem

/-- What is filed for some of the frames, told from the others by their addresses. -/
theorem filter_ofHash_filed (own : Nat → Prop) [DecidablePred own] (hashnum : UInt64)
    (objects : List FrameObject) :
    (ofHash hashnum (objects.flatMap filed)).filter (fun object => own object.address) =
      ofHash hashnum ((objects.filter fun object => own object.address).flatMap filed) := by
  induction objects with
  | nil => rfl
  | cons object objects ih =>
      rw [List.flatMap_cons, ofHash_append, List.filter_append, ih, List.filter_cons]
      by_cases mine : own object.address
      · have all : (ofHash hashnum (filed object)).filter (fun object => own object.address) =
            ofHash hashnum (filed object) := by
          rw [List.filter_eq_self]
          intro other mem
          rw [filed_address (mem_ofHash mem)]
          exact decide_eq_true mine
        rw [all, if_pos (decide_eq_true mine), List.flatMap_cons, ofHash_append]
      · have none : (ofHash hashnum (filed object)).filter (fun object => own object.address) = [] := by
          rw [List.filter_eq_nil_iff]
          intro other mem
          rw [filed_address (mem_ofHash mem)]
          exact fun mine' => mine (of_decide_eq_true mine')
        rw [none, if_neg (fun mine' => mine (of_decide_eq_true mine')), List.nil_append]

/-- Some frames of one connection, as it has read them, are filed as their messages say. -/
theorem ofHash_filed {id : List UInt8} (length : (cstr id).length + 1 = CONN_ID_LEN) (hashnum : UInt64)
    (objects : List FrameObject) (stored : ∀ object ∈ objects, object.frame.StoredFor id)
    (readable : ∀ object ∈ objects, object.frame.message.Readable)
    (fits : ∀ object ∈ objects, object.frame.message.LinesFit) :
    (ofHash hashnum (objects.flatMap filed)).map (fun object => object.frame.message) =
      ((objects.map fun object => object.frame.message).filter fun message =>
        message.sentTo.map getHash = some hashnum).map (Message.withId (cstr id)) := by
  induction objects with
  | nil => rfl
  | cons object objects ih =>
      obtain ⟨storedHere, storedRest⟩ := List.forall_mem_cons.mp stored
      obtain ⟨readableHere, readableRest⟩ := List.forall_mem_cons.mp readable
      obtain ⟨fitsHere, fitsRest⟩ := List.forall_mem_cons.mp fits
      obtain ⟨accepted, -, message, entry⟩ := filed_stored storedHere length readableHere fitsHere
      rw [List.flatMap_cons, ofHash_append, List.map_append, ih storedRest readableRest fitsRest, entry,
        List.map_cons, List.filter_cons]
      cases sent : object.frame.message.sentTo with
      | none => simp
      | some qname =>
          by_cases here : getHash qname = hashnum
          · simp [here, message]
          · simp [here]

/-- The frames of a connection are handled in the order in which it has completed them. -/
theorem PublishingInv.handledOf_prefix {s : Publishing} (inv : PublishingInv s) (connection : Nat) :
    s.handledOf connection <+: s.completedBy connection ∧
      (s.bucket = [] → s.popped = none → s.handledOf connection = s.completedBy connection) := by
  have mine : s.completedBy connection = (s.completed.map Prod.snd).filter fun object =>
      s.connectionOf object.address = some connection := by
    rw [Publishing.completedBy, List.filter_map]
    apply congrArg (List.map Prod.snd)
    apply List.filter_congr
    intro entry mem
    simp [inv.connectionOf mem]
  rw [mine, inv.order, List.append_assoc, List.filter_append]
  constructor
  · exact List.prefix_append _ _
  · intro bucket popped
    rw [bucket, popped]
    simp [Publishing.handledOf]

/-! ### Results -/

/-- What the invariant says about the queues. -/
theorem BrokerInv.filled (orderly : ∀ connection, Orderly (streams connection)) {s : Broker}
    (inv : BrokerInv env streams server s) :
    s.Filled env streams server fun connection => (s.publishing.handledOf connection).length := by
  intro hashnum
  refine ⟨ofHash hashnum (s.publishing.handled.flatMap filed), inv.kept hashnum, ?_, ?_⟩
  · intro object mem
    obtain ⟨before, handled, entry⟩ := List.mem_flatMap.mp (mem_ofHash mem)
    have completed : before ∈ s.publishing.completed.map Prod.snd := by
      rw [inv.publishing.order, List.append_assoc]
      exact List.mem_append_left _ handled
    obtain ⟨link, memLink, rfl⟩ := List.mem_map.mp completed
    exact ⟨link.1, (filed_address entry).symm ▸ inv.publishing.connectionOf memLink⟩
  · intro connection
    have reads := inv.reads connection
    obtain ⟨handled, -⟩ := inv.publishing.handledOf_prefix connection
    -- the handled frames are the first ones of the connection, and these carry the first messages
    have frames : ∀ object ∈ s.publishing.handledOf connection,
        object.frame ∈ (s.receiving connection).recv.bucket := by
      intro object mem
      rw [← inv.linked connection]
      exact List.mem_map_of_mem (handled.subset mem)
    have carried : (s.publishing.handledOf connection).map (fun object => object.frame.message) =
        (messagesOf (streams connection)).take (s.publishing.handledOf connection).length := by
      have first := reads.messages_prefix (orderly connection)
      rw [← inv.linked connection, List.map_map] at first
      have whole := (handled.map fun object => object.frame.message).trans first
      have taken := List.prefix_iff_eq_take.mp whole
      rw [List.length_map] at taken
      exact taken
    have messages : ∀ object ∈ s.publishing.handledOf connection,
        object.frame.message ∈ messagesOf (streams connection) := by
      intro object mem
      apply List.mem_of_mem_take
      rw [← carried]
      exact List.mem_map_of_mem mem
    have mine : s.ofConnection connection (ofHash hashnum (s.publishing.handled.flatMap filed)) =
        ofHash hashnum ((s.publishing.handledOf connection).flatMap filed) :=
      filter_ofHash_filed (fun address => s.publishing.connectionOf address = some connection) hashnum _
    rw [mine, ← carried]
    apply ofHash_filed
    · rw [connInit, length_cstr_genRandom]
      rfl
    · exact fun object mem => (reads.stored.bucket _ (frames object mem)).storedFor
    · exact fun object mem => readable_messagesOf _ _ (messages object mem)
    · exact fun object mem => (orderly connection).fits _ (messages object mem)

/-- Two clients send a message each to the queue `q`. -/
def twoClients : Nat → List UInt8
  | 0 => cstring "SEND\ndestination:q\ncontent-length:2\n\nhi" ++ [0]
  | 1 => cstring "SEND\ndestination:q\nreply-to:r\ncontent-length:2\n\nyo" ++ [0]
  | _ => []

def twoClientsEnv : BrokerEnv where
  server := quietEnv
  recv _ := quietEnv.toRecvEnv
  sock connection := connection + 5

theorem orderly_twoClients : ∀ connection, Orderly (twoClients connection)
  | 0 => ⟨by decide +kernel, by decide +kernel, by decide +kernel⟩
  | 1 => ⟨by decide +kernel, by decide +kernel, by decide +kernel⟩
  | _ + 2 => by
      have none : Orderly [] := ⟨by decide, by decide, by decide⟩
      exact none

theorem started_init (datadir : List UInt8) (disk : List UInt8 → Option QueueFiles) :
    (Server.init datadir disk).Started where
  idle := ⟨rfl, fun _ mem => absurd mem List.not_mem_nil⟩
  queues := emptyStore_wellFormed

/-- The streams arrive in pieces and in turns, the second message first. Both are handled. -/
def takeInTurns : List BrokerAction :=
  [.receive 0 10, .pass 0, .receive 1 51, .pass 0, .receive 0 30] ++ List.replicate 7 (.pass 1) ++
    List.replicate 5 (.pass 0) ++ [.get, .handle, .get, .handle, .dequeue (cstring "q")]

theorem twoClients_run :
    ∃ s, Transition.run (brokerStep twoClientsEnv)
        (.start twoClientsEnv twoClients (Server.init (cstring "data") fun _ => none)) takeInTurns =
          some s ∧
      ((s.unread 0 ++ s.unread 1) ++
          ((s.receiving 0).rest.getD [] ++ (s.receiving 1).rest.getD []),
        s.publishing.bucket ++ s.publishing.popped.toList,
        s.taken.map (fun entry => entry.2.frame.message.body),
        (contents (getHash (cstring "q")) s.publishing.server.queues).map
          fun object => object.frame.message.body) =
      ([], [], [cstring "yo"], [cstring "hi"]) := by
  apply Option.map_eq_some_iff.mp
  decide +kernel

/-- No step of a connection thread is held up by the frames that it links. -/
theorem BrokerInv.advances {s : Broker} (inv : BrokerInv env streams server s) {connection : Nat}
    {action : ReceiveAction} {unread' : List UInt8} {after : Receiving}
    (stepped : receiveStep (env.recv connection) (env.sock connection) (s.receiving connection) action =
      some after)
    (reads : Reads (env.sock connection) (connInit (env.recv connection) 0).id (streams connection)
      unread' after) :
    ∃ next, s.advance env connection action = some next ∧ next.unread = s.unread ∧
      next.receiving connection = after := by
  obtain ⟨new, grows⟩ := receiveStep_bucket stepped
  have silent : ∀ frame ∈ new, frame.transactionCallback = none := by
    intro frame mem
    have inBucket : frame ∈ after.recv.bucket := grows ▸ List.mem_append_right _ mem
    exact (reads.stored.bucket frame inBucket).received
  obtain ⟨published, same, _⟩ := linkFrames_spec env.server connection new inv.publishing silent
  refine ⟨{ s with
    receiving := Function.update s.receiving connection after
    publishing := published }, ?_, rfl, Function.update_self ..⟩
  rw [Broker.advance, stepped, Option.bind_some, ← grows, List.drop_left, same]
  rfl

/-- How far a connection is from the end of its stream. -/
def Broker.toRead (s : Broker) (connection : Nat) : Nat :=
  3 * (s.unread connection).length +
    ((s.receiving connection).rest.map fun curr => curr.length + 1).getD 0

/-- A connection that has not read its stream can take a step that brings it nearer to the end. -/
theorem BrokerInv.reads_on (orderly : ∀ connection, Orderly (streams connection)) {s : Broker}
    (inv : BrokerInv env streams server s) {connection : Nat}
    (more : ¬ (s.unread connection = [] ∧ (s.receiving connection).rest = none)) :
    ∃ action next, brokerStep env s action = some next ∧
      next.toRead connection < s.toRead connection := by
  have reads := inv.reads connection
  cases running : (s.receiving connection).rest with
  | some curr =>
      obtain ⟨after, stepped, shorter⟩ := reads.pass_progress (orderly connection) running
      obtain ⟨next, taken, unread, same⟩ :=
        inv.advances stepped (reads_step (orderly connection) reads stepped rfl)
      refine ⟨.pass connection, next, taken, ?_⟩
      rw [Broker.toRead, Broker.toRead, unread, same, running]
      cases left : after.rest with
      | none => exact Nat.add_lt_add_left (Nat.succ_pos _) _
      | some rest =>
          have := shorter rest left
          exact Nat.add_lt_add_left (Nat.succ_lt_succ this) _
  | none =>
      have some : s.unread connection ≠ [] := fun none => more ⟨none, running⟩
      have positive := List.length_pos_iff.mpr some
      have isOpen : (s.receiving connection).closed = false := by
        rw [Bool.eq_false_iff]
        exact fun closed => some (reads.closed closed).1
      -- `recv` returns one byte
      have stepped : receiveStep (env.recv connection) (env.sock connection) (s.receiving connection)
          (.receive ((s.unread connection).take 1)) =
            .some { s.receiving connection with rest := .some ((s.unread connection).take 1) } :=
        if_pos ⟨running, isOpen⟩
      have parts := (List.take_append_drop 1 (s.unread connection)).symm
      obtain ⟨next, taken, unread, same⟩ :=
        inv.advances stepped (reads_step (orderly connection) reads stepped parts)
      have fits : 0 < 1 ∧ 1 ≤ RECV_BUFSIZE ∧ 1 ≤ (s.unread connection).length :=
        ⟨by decide, by decide, positive⟩
      refine ⟨.receive connection 1, _, by rw [brokerStep, if_pos fits, taken]; rfl, ?_⟩
      rw [Broker.toRead, Broker.toRead, running]
      have one : ((s.unread connection).take 1).length = 1 := List.length_take_of_le positive
      simp only [same, Function.update_self, List.length_drop, one, Option.map_some, Option.map_none,
        Option.getD_some, Option.getD_none]
      omega

end Newtmq
