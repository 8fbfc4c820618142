/-
Module: Newtmq.Proofs.NewtctlWorker
Purpose: A session of `newtctl_worker`, whatever is received: one message is sent for each array of three
  elements, and nothing for other input; the context of a message shows what the requests before it left.
Trusted boundary: none
Main exports: contextAfter_cons, newtctlPass_request, newtctlPass_other, control_session
-/
import Newtmq.Spec.NewtctlWorker
import Newtmq.Proofs.Newtctl

namespace Newtmq

variable {lib : Msgpack} {reads : UnionReads}

/-! ### The context -/

theorem contextByte_cons {memory left : Context} {request : CtlRequest} {i : Nat}
    (here : left.val.getD i 0 = contextByte memory [request] i) (requests : List CtlRequest) :
    contextByte memory (request :: requests) i = contextByte left requests i := by
  simp only [contextByte, List.reverse_cons, List.find?_append, List.reverse_nil, List.nil_append] at here ⊢
  cases requests.reverse.find? fun later => decide (i < later.text.length) with
  | some later => rfl
  | none => exact here.symm

theorem contextAfter_val (memory : Context) (requests : List CtlRequest) :
    (contextAfter memory requests).val = (List.range DATALEN).map (contextByte memory requests) := by
  rw [contextAfter]

theorem contextAfter_getD (memory : Context) (requests : List CtlRequest) {i : Nat} (bound : i < DATALEN) :
    (contextAfter memory requests).val.getD i 0 = contextByte memory requests i := by
  simp [contextAfter, bound]

/-- The text of a request overwrites the beginning of the context. -/
theorem contextAfter_single (memory : Context) (request : CtlRequest) (short : request.text.length ≤ DATALEN) :
    (contextAfter memory [request]).val = request.text ++ memory.val.drop request.text.length := by
  refine List.ext_getElem ?_ fun i inside _ => ?_
  · rw [(contextAfter memory [request]).property, List.length_append, List.length_drop, memory.property]
    omega
  · have bound : i < DATALEN := by rwa [(contextAfter memory [request]).property] at inside
    have known : i < memory.val.length := by rwa [memory.property]
    simp only [contextAfter, List.getElem_map, List.getElem_range, contextByte, List.reverse_singleton,
      List.find?_singleton]
    by_cases copied : i < request.text.length
    · simp [copied]
    · rw [List.getElem_append_right (by omega)]
      simp [copied, known, List.getElem_drop, Nat.add_sub_cancel' (Nat.le_of_not_lt copied)]

/-- The requests that follow find the context as the first one has left it. -/
theorem contextAfter_cons (memory : Context) (request : CtlRequest) (requests : List CtlRequest) :
    contextAfter memory (request :: requests) = contextAfter (contextAfter memory [request]) requests := by
  refine Subtype.ext ?_
  rw [contextAfter_val, contextAfter_val]
  refine List.map_congr_left fun i mem => ?_
  exact contextByte_cons (contextAfter_getD memory [request] (List.mem_range.mp mem)) requests

/-! ### One pass -/

/-- The message that answers a request, when the context is `memory` before it. -/
theorem callCtlHandler_eq (memory : Context) (request : CtlRequest) :
    callCtlHandler ⟨request.command, request.status, contextAfter memory [request]⟩ =
      ctlReply memory [request] request := by
  by_cases known : request.command = NEWTCTL_LIST_QUEUES
  · simp [callCtlHandler, ctlHandlers, ctlReply, known, newtctlListQueues]
  · simp [callCtlHandler, ctlHandlers, ctlReply, known, Ne.symm known]

theorem ctlRequest_array {packet : Packet} {request : CtlRequest}
    (asked : ctlRequest lib reads packet = some request) :
    ∃ first second third, (lib.unpack packet.bytes).getD packet.root = .array [first, second, third] ∧
      request = ⟨unpackInt reads first, unpackInt reads second,
        (reads.rawMemory second).take (reads.rawSize second)⟩ := by
  rw [ctlRequest] at asked
  split at asked
  · next first second third root =>
      cases asked
      exact ⟨first, second, third, root, rfl⟩
  · cases asked

/-- A request whose text fits is answered, and its text is in the context from then on. -/
theorem newtctlPass_request {packet : Packet} {request : CtlRequest}
    (asked : ctlRequest lib reads packet = some request) (fits : FitsContext lib reads packet)
    (cobj : NewtctlT) :
    newtctlPass lib reads packet cobj =
      some (some (pack lib (ctlReply cobj.context [request] request)),
        ctlReply cobj.context [request] request) := by
  obtain ⟨first, second, third, root, rfl⟩ := ctlRequest_array asked
  rw [FitsContext, root] at fits
  obtain ⟨copied, stored, bytes⟩ := @unpackStr_some reads second cobj.context fits
  have context : copied = contextAfter cobj.context
      [⟨unpackInt reads first, unpackInt reads second,
        (reads.rawMemory second).take (reads.rawSize second)⟩] := by
    have length : ((reads.rawMemory second).take (reads.rawSize second)).length = reads.rawSize second := by
      rw [List.length_take, Nat.min_eq_left fits.1]
    refine Subtype.ext ?_
    rw [contextAfter_single _ _ (by rw [length]; exact fits.2), bytes, length]
  rw [newtctlPass, unpack_array root, stored, context, ← callCtlHandler_eq]
  rfl

/-- A text that does not fit is copied past the end of the context, or from memory that is not there. -/
theorem newtctlPass_outside {packet : Packet} (outside : ¬ FitsContext lib reads packet) (cobj : NewtctlT) :
    newtctlPass lib reads packet cobj = none := by
  rw [FitsContext] at outside
  split at outside
  · next first second third root => rw [newtctlPass, unpack_array root, unpackStr_none outside]; rfl
  · exact absurd trivial outside

/-- Other input is not answered, and changes nothing. -/
theorem newtctlPass_other {packet : Packet} (other : ctlRequest lib reads packet = none) (cobj : NewtctlT) :
    newtctlPass lib reads packet cobj = some (none, cobj) := by
  have root : ∀ items, (lib.unpack packet.bytes).getD packet.root = .array items →
      items.length ≠ NEWTCTL_MEMBERS := by
    intro items root three
    rw [ctlRequest, root] at other
    obtain ⟨first, second, third, rfl⟩ := List.length_eq_three.mp three
    cases other
  rw [newtctlPass, unpack]
  split
  · next items array => rw [if_neg (root items array)]; rfl
  · rfl

/-! ### The session -/

/-- After a request, its own message is where the next ones begin. -/
theorem ctlReplies_cons (memory : Context) (request : CtlRequest) (requests : List CtlRequest) :
    ctlReplies memory (request :: requests) =
      ctlReply memory [request] request ::
        ctlReplies (ctlReply memory [request] request).context requests := by
  have later : ∀ place, ∀ next, ctlReply memory (request :: requests.take (place + 1)) next =
      ctlReply (ctlReply memory [request] request).context (requests.take (place + 1)) next := by
    intro place next
    simp only [ctlReply, contextAfter_cons memory request (requests.take (place + 1))]
  rw [ctlReplies, List.mapIdx_cons, ctlReplies]
  simp only [List.take_succ_cons, List.take_zero, later]

/-- A session of any packets: when every text fits, each array of three elements is answered by one message,
in order. A message has the command of its request; its status is `RET_SUCCESS` or was sent by the client; a
byte of its context was sent last in this place by one of the requests so far, or is one of the memory of
the server. A text that does not fit makes the worker go outside its memory. -/
theorem control_session (lib : Msgpack) (reads : UnionReads) (cobj : NewtctlT) (packets : List Packet) :
    newtctlWorker lib reads cobj packets =
      if ∀ packet ∈ packets, FitsContext lib reads packet then
        some ((ctlReplies cobj.context (ctlRequests lib reads packets)).map (pack lib))
      else none := by
  induction packets generalizing cobj with
  | nil => simp [newtctlWorker, ctlReplies, ctlRequests]
  | cons packet packets ih =>
      rw [newtctlWorker]
      by_cases fits : FitsContext lib reads packet
      · simp only [List.forall_mem_cons, fits, true_and]
        cases asked : ctlRequest lib reads packet with
        | none =>
            rw [newtctlPass_other asked, ctlRequests, List.filterMap_cons_none asked]
            simp [ih, ctlRequests]
        | some request =>
            rw [newtctlPass_request asked fits, ctlRequests, List.filterMap_cons_some asked,
              ctlReplies_cons, List.map_cons]
            simp only [ih, ctlRequests]
            split <;> rfl
      · rw [newtctlPass_outside fits, if_neg]
        exact fun all => fits (all packet (List.mem_cons_self ..))

end Newtmq
