/-
Module: Newtmq.Proofs.MulticastRound
Purpose: A round of `multicast_worker` serves the clients that are valid and unlinks the others, although
  it goes through the list that it unlinks them from; and it is a pass as the coarser model of the
  threads has it.
Trusted boundary: none
Main exports: visitClient_keepsOrRemoves, multicast_round_serves, round_serveGroup
-/
import Newtmq.Spec.MulticastRound
import Newtmq.Proofs.SubscriptionHeaders

namespace Newtmq

open LinkedRing (Links IsRing KeepsOrRemoves)

variable (group : ClientGroup) (valid : Nat → Bool) (object : FrameObject)

/-- What a round does for one client. -/
def clientEvent (node : Nat) : RoundEvent :=
  if valid node then
    .message node (stompSendMessage (group.client node).sock object.frame
      (some (group.client node).headers))
  else .unlink node

theorem visitClient_keepsOrRemoves :
    KeepsOrRemoves valid (fun events node => events ++ [clientEvent group valid object node])
      (visitClient group valid object) := by
  intro node links events
  cases kept : valid node with
  | true => simp [visitClient, clientEvent, kept]
  | false => simp [visitClient, clientEvent, kept]

theorem foldl_events (nodes : List Nat) (events : List RoundEvent) :
    nodes.foldl (fun events node => events ++ [clientEvent group valid object node]) events =
      events ++ nodes.map (clientEvent group valid object) := by
  induction nodes generalizing events with
  | nil => exact (List.append_nil events).symm
  | cons node nodes ih =>
      rw [List.foldl_cons, ih, List.append_assoc]
      rfl

theorem messages_clientEvents (nodes : List Nat) :
    (nodes.map (clientEvent group valid object)).filterMap RoundEvent.message? =
      (nodes.filter valid).map fun node => (node, stompSendMessage (group.client node).sock object.frame
        (some (group.client node).headers)) := by
  induction nodes with
  | nil => rfl
  | cons node nodes ih =>
      rw [List.map_cons, List.filterMap_cons, ih, clientEvent]
      cases kept : valid node with
      | true =>
          rw [List.filter_cons_of_pos kept]
          rfl
      | false =>
          rw [List.filter_cons_of_neg (by rw [kept]; exact Bool.false_ne_true)]
          rfl

theorem unlinked_clientEvents (nodes : List Nat) :
    (nodes.map (clientEvent group valid object)).filterMap RoundEvent.unlinked? =
      nodes.filter fun node => !valid node := by
  induction nodes with
  | nil => rfl
  | cons node nodes ih =>
      rw [List.map_cons, List.filterMap_cons, List.filter_cons, ih, clientEvent]
      cases valid node <;> rfl

/-- For every list of clients and whichever of them are valid, the round with a frame ends, has served
the clients, and leaves the list of the valid ones. -/
theorem multicast_round_serves {links : Links Nat} {nodes : List Nat}
    (ring : IsRing links group.hClient nodes) :
    ∃ later events, RoundReturns group valid object links later events ∧
      IsRing later group.hClient (nodes.filter valid) ∧
      RoundServes group valid object nodes events := by
  obtain ⟨cursor, later, start, returns, left⟩ :=
    LinkedRing.eachSafe_returns (visitClient_keepsOrRemoves group valid object) ring []
  rw [foldl_events, List.nil_append] at returns
  refine ⟨later, _, ⟨cursor, _, start, returns, rfl⟩, left, ?_⟩
  constructor
  case messages =>
    rw [List.filterMap_append, messages_clientEvents]
    exact List.append_nil _
  case unlinked =>
    rw [List.filterMap_append, unlinked_clientEvents]
    exact List.append_nil _
  case ending =>
    refine ⟨_, rfl, fun event mem => ?_⟩
    obtain ⟨node, _, rfl⟩ := List.mem_map.mp mem
    rw [clientEvent]
    cases valid node <;> rfl

/-! ### The coarser model -/

/-- The clients at the nodes that are kept. -/
theorem keptPlaces_filter (node : Nat → ClientInfo) (nodes : List Nat) :
    keptPlaces (fun place => (nodes[place]?.map valid).getD false) (nodes.map node) =
      (nodes.filter valid).map node := by
  induction nodes with
  | nil => rfl
  | cons first nodes ih =>
      rw [List.map_cons, keptPlaces]
      have rest : (fun place => (((first :: nodes)[place + 1]?).map valid).getD false) =
          fun place => (nodes[place]?.map valid).getD false := rfl
      rw [rest, ih]
      cases kept : valid first with
      | true =>
          rw [List.filter_cons_of_pos kept]
          exact if_pos kept
      | false =>
          have gone : ¬ valid first = true := by simp [kept]
          rw [List.filter_cons_of_neg gone]
          exact if_neg gone

variable {group valid object} in
/-- The round as a pass of the thread: it makes the calls that the pass makes, and the list that it
leaves holds the clients that the pass leaves. -/
theorem round_serveGroup {s : Subscriptions} {place n : Nat} {nodes : List Nat}
    {events : List RoundEvent} {queues : QueueStore FrameObject}
    (bare : NoIds s.server.workers) (serves : RoundServes group valid object nodes events)
    (clients : s.server.workers.clients (.multicast place) = nodes.map group.client)
    (some : nodes ≠ []) (got : dequeue group.destination s.server.queues = (.some object, queues)) :
    (serveGroup s n (fun place => (nodes[place]?.map valid).getD false) place
        group.destination).server.wire =
      s.server.wire ++ (events.filterMap RoundEvent.message?).flatMap Prod.snd ∧
    (serveGroup s n (fun place => (nodes[place]?.map valid).getD false) place
        group.destination).server.workers.clients (.multicast place) =
      (nodes.filter valid).map group.client := by
  have bareHere : ∀ node ∈ nodes, (group.client node).headers = [] := by
    intro node mem
    have client : group.client node ∈ s.server.workers.clients (.multicast place) := by
      rw [clients]
      exact List.mem_map_of_mem mem
    obtain ⟨found, groups, inside⟩ := mem_clients_group client
    rw [ClientInfo.headers, bare.clients found groups _ inside]
    rfl
  have left : (s.server.workers.keepClients place fun place =>
      (nodes[place]?.map valid).getD false).clients (.multicast place) =
        (nodes.filter valid).map group.client := by
    rw [clients_keepClients, if_pos rfl, clients, keptPlaces_filter]
  have stays : s.server.workers.clients (.multicast place) ≠ [] := by
    rw [clients]
    exact fun none => some (List.map_eq_nil_iff.mp none)
  rw [serveGroup, if_neg stays, got]
  dsimp only
  refine ⟨?_, left⟩
  have same : messagesTo ((nodes.filter valid).map group.client) object (.some []) =
      (events.filterMap RoundEvent.message?).flatMap Prod.snd := by
    rw [serves.messages, messagesTo, List.flatMap_map, List.flatMap_map]
    apply List.flatMap_congr
    intro node mem
    rw [bareHere node (List.mem_of_mem_filter mem)]
  rw [endPass_wire, left, same]

/-- Three clients, of which the first two are not valid. -/
theorem multicast_round_three :
    let links : Links Nat := ⟨fun node => [1, 2, 3, 0][node]?, fun node => [3, 0, 1, 2][node]?⟩
    let group : ClientGroup := ⟨cstring "/topic/t", 0, fun node => allocClientInfo node⟩
    ∃ later events, RoundReturns group (· = 3) default links later events ∧
      IsRing later 0 [3] ∧ RoundServes group (· = 3) default [1, 2, 3] events := by
  intro links group
  have ring : IsRing links group.hClient [1, 2, 3] := by decide
  exact multicast_round_serves group (· = 3) default ring

end Newtmq
