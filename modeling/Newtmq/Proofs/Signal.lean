/-
Module: Newtmq.Proofs.Signal
Purpose: The handlers of `signal.c` after any sequence of calls: the pointers hold exactly the handlers that
  are set, so an interrupt runs these, and frees what is left.
Trusted boundary: none
Main exports: SignalInv, signalInv_step, intHandle_spec, interrupt_cleans_up
-/
import Newtmq.Library.Transition
import Newtmq.Spec.Signal

namespace Newtmq

open LinkedRing (IsRing)

/-- The list holds the handlers that are set, and each other one has been freed. -/
structure SignalInv (r : Registered) (s : SignalState) : Prop where
  ring : IsRing s.links hSignal (r.live.map Prod.fst)
  held : ∀ entry ∈ r.live, s.handlers entry.1 = some entry.2
  count : s.allocated = r.count
  known : (s.freed ++ r.live.map Prod.fst).Perm ((List.range r.count).map (· + 1))
  called : s.called = []

theorem signalInv_init : SignalInv .init .init where
  ring := LinkedRing.isRing_single _ _
  held := nofun
  count := rfl
  known := .refl _
  called := rfl

/-- The address of a handler is one that was returned. -/
theorem SignalInv.address_le {r : Registered} {s : SignalState} (inv : SignalInv r s) {address : Nat}
    (mem : address ∈ r.live.map Prod.fst) : 0 < address ∧ address ≤ r.count := by
  have known := inv.known.mem_iff.mp (List.mem_append_right s.freed mem)
  obtain ⟨n, below, rfl⟩ := List.mem_map.mp known
  have := List.mem_range.mp below
  omega

/-- A handler is set. -/
theorem SignalInv.set {r : Registered} {s : SignalState} (inv : SignalInv r s) (func argument : Nat) :
    ∃ links, listAdd (s.allocated + 1) hSignal s.links = some links ∧
      SignalInv ⟨(r.count + 1, ⟨func, argument⟩) :: r.live, r.count + 1⟩
        { s with
          links := links
          handlers := Function.update s.handlers (s.allocated + 1) (some ⟨func, argument⟩)
          allocated := s.allocated + 1 } := by
  have new : r.count + 1 ∉ r.live.map Prod.fst := by
    intro mem
    have := inv.address_le mem
    omega
  have outside : r.count + 1 ∉ hSignal :: r.live.map Prod.fst :=
    List.not_mem_cons_of_ne_of_not_mem (Nat.succ_ne_zero _) new
  obtain ⟨added, ring⟩ := inv.ring.addFirst outside
  rw [inv.count]
  refine ⟨_, added, ring, ?_, rfl, ?_, inv.called⟩
  · intro entry mem
    dsimp only
    rcases List.mem_cons.mp mem with rfl | before
    · exact Function.update_self ..
    · have apart : entry.1 ≠ r.count + 1 := by
        intro same
        exact new (same ▸ List.mem_map_of_mem before)
      rw [Function.update_of_ne apart]
      exact inv.held entry before
  · rw [List.range_succ, List.map_append, List.map_cons, List.map_cons, List.map_nil]
    exact List.perm_middle.trans ((inv.known.cons _).trans (List.perm_append_singleton _ _).symm)

/-- A handler is deleted. -/
theorem SignalInv.del {r : Registered} {s : SignalState} (inv : SignalInv r s) {handler : Nat}
    (mem : handler ∈ r.live.map Prod.fst) :
    ∃ links, listDel handler s.links = some links ∧
      SignalInv { r with live := r.live.filter fun entry => entry.1 ≠ handler }
        { s with links := links, freed := s.freed ++ [handler] } := by
  obtain ⟨before, after, parts⟩ := List.append_of_mem mem
  have distinct : (before ++ handler :: after).Nodup := by
    rw [← parts]
    exact (List.nodup_cons.mp inv.ring.distinct).2
  have left : (r.live.filter fun entry => entry.1 ≠ handler).map Prod.fst = before ++ after := by
    have filtered : (r.live.filter fun entry => entry.1 ≠ handler).map Prod.fst =
        (r.live.map Prod.fst).filter (· ≠ handler) := by
      rw [List.filter_map]
      rfl
    rw [List.nodup_append, List.nodup_cons] at distinct
    obtain ⟨_, ⟨notAfter, _⟩, disjoint⟩ := distinct
    have keepBefore : before.filter (· ≠ handler) = before := by
      rw [List.filter_eq_self]
      exact fun one here => decide_eq_true (disjoint one here handler List.mem_cons_self)
    have keepAfter : after.filter (· ≠ handler) = after := by
      rw [List.filter_eq_self]
      rintro one here
      exact decide_eq_true fun same => notAfter (same ▸ here)
    rw [filtered, parts, List.filter_append, List.filter_cons_of_neg (by simp), keepBefore, keepAfter]
  have ring := inv.ring
  rw [parts] at ring
  obtain ⟨links, removed, rest⟩ := ring.remove
  refine ⟨links, removed, ?_, ?_, inv.count, ?_, inv.called⟩
  · rw [left]
    exact rest
  · exact fun entry mem => inv.held entry (List.mem_of_mem_filter mem)
  · have known := inv.known
    rw [parts] at known
    dsimp only
    rw [left, List.append_assoc]
    have moved : (handler :: (before ++ after)).Perm (before ++ handler :: after) :=
      List.perm_middle.symm
    exact (List.Perm.append_left s.freed moved).trans known

/-- Every call keeps the invariant, and follows no null pointer. -/
theorem signalInv_step {r next : Registered} {s : SignalState} {call : SignalCall}
    (inv : SignalInv r s) (taken : registeredStep r call = some next) :
    ∃ later, signalStep s call = some later ∧ SignalInv next later := by
  cases call with
  | set func argument allocates =>
      cases allocates with
      | true =>
          cases taken
          obtain ⟨links, added, kept⟩ := inv.set func argument
          refine ⟨_, ?_, kept⟩
          rw [signalStep, setSignalHandler, if_pos rfl]
          dsimp only
          rw [added]
          rfl
      | false =>
          cases taken
          exact ⟨s, rfl, inv⟩
  | del handler =>
      cases handler with
      | some handler =>
          obtain ⟨mem, same⟩ := Option.ite_none_right_eq_some.mp taken
          cases same
          obtain ⟨links, removed, kept⟩ := inv.del mem
          refine ⟨_, ?_, kept⟩
          rw [signalStep, delSignalHandler, removed]
          rfl
      | none =>
          cases taken
          exact ⟨s, rfl, inv⟩

theorem signalInv_run {calls : List SignalCall} {r last : Registered} {s : SignalState}
    (inv : SignalInv r s) (taken : Transition.run registeredStep r calls = some last) :
    ∃ later, Transition.run signalStep s calls = some later ∧ SignalInv last later := by
  induction calls generalizing r s with
  | nil =>
      cases taken
      exact ⟨s, rfl, inv⟩
  | cons call calls ih =>
      obtain ⟨next, first, rest⟩ := Option.bind_eq_some_iff.mp taken
      obtain ⟨middle, step, kept⟩ := signalInv_step inv first
      obtain ⟨later, run, result⟩ := ih kept rest
      refine ⟨later, ?_, result⟩
      rw [Transition.run, step, Option.bind_some]
      exact run

/-- The functions are called as the list has them. -/
theorem foldl_callHandler {s : SignalState} (live : List (Nat × SigHandle))
    (held : ∀ entry ∈ live, s.handlers entry.1 = some entry.2) (called : List SigHandle) :
    (live.map Prod.fst).foldl (callHandler s) called = called ++ live.map Prod.snd := by
  induction live generalizing called with
  | nil => exact (List.append_nil called).symm
  | cons entry live ih =>
      obtain ⟨here, rest⟩ := List.forall_mem_cons.mp held
      rw [List.map_cons, List.foldl_cons, ih rest, callHandler, here, List.append_assoc]
      rfl

theorem foldl_append_singleton (nodes freed : List Nat) :
    nodes.foldl (fun freed handler => freed ++ [handler]) freed = freed ++ nodes := by
  induction nodes generalizing freed with
  | nil => exact (List.append_nil freed).symm
  | cons node nodes ih => rw [List.foldl_cons, ih, List.append_assoc, List.singleton_append]

/-- What an interrupt does in a state in which the list holds these handlers. -/
theorem intHandle_spec {r : Registered} {s : SignalState} (inv : SignalInv r s) :
    ∃ later, intHandle s = some later ∧ CleansUp r later := by
  have few : (r.live.map Prod.fst).length + 1 ≤ s.allocated + 1 := by
    have lengths := inv.known.length_eq
    simp only [List.length_append, List.length_map, List.length_range] at lengths ⊢
    rw [inv.count]
    omega
  -- the first loop calls the handlers
  have calls := Loop.run_mono few (LinkedRing.eachPlain_run inv.ring (callHandler s) s.called)
  rw [foldl_callHandler r.live inv.held, inv.called, List.nil_append] at calls
  -- the second one removes and frees them
  have keeps : LinkedRing.KeepsOrRemoves (fun _ => false) (fun freed handler => freed ++ [handler])
      freeHandler := by
    intro node links freed
    rfl
  have whole : IsRing s.links hSignal ([] ++ r.live.map Prod.fst) := inv.ring
  obtain ⟨saved, next⟩ := whole.next_some
  obtain ⟨links, run, empty⟩ := @LinkedRing.eachSafe_rest _ _ _ _ _ _ _ keeps _ _ _ _ s.freed whole next
  have frees := Loop.run_mono few run
  rw [foldl_append_singleton] at frees
  rw [List.filter_false, List.append_nil] at empty
  refine ⟨{ s with
      links := links
      freed := s.freed ++ r.live.map Prod.fst
      called := r.live.map Prod.snd }, ?_, rfl, ?_, inv.known⟩
  · have first : listFirstEntry hSignal s.links = some ((r.live.map Prod.fst).headD hSignal) :=
      inv.ring.linked.next_eq
    have cursor : LinkedRing.cursorAt hSignal s.links s.freed =
        some ⟨(r.live.map Prod.fst).headD hSignal, saved, s.links, s.freed⟩ := by
      rw [LinkedRing.cursorAt, inv.ring.linked.next_eq, Option.bind_some, next, Option.map_some]
    rw [intHandle, first, Option.bind_some, listForEachEntry, inv.called, calls, Option.join_some,
      Option.bind_some, cursor, Option.bind_some, frees, Option.join_some, Option.map_some]
  · rw [listEmpty, decide_eq_true_iff]
    exact empty.linked.next_eq

/-- After every sequence of calls that deletes only handlers that are set, an interrupt runs exactly the
handlers that are set and not deleted, each once, the one set last first, empties the list, and leaves no
handler unfreed and none freed twice. -/
theorem interrupt_cleans_up {calls : List SignalCall} {r : Registered}
    (taken : Transition.run registeredStep .init calls = some r) :
    ∃ s later, Transition.run signalStep .init calls = some s ∧ intHandle s = some later ∧
      CleansUp r later := by
  obtain ⟨s, run, inv⟩ := signalInv_run signalInv_init taken
  obtain ⟨later, handled, clean⟩ := intHandle_spec inv
  exact ⟨s, later, run, handled, clean⟩

/-- Three handlers are set, and the second one is deleted. -/
theorem interrupt_cleans_up_two :
    ∃ s later, Transition.run signalStep .init
        [.set 7 0 true, .set 8 1 true, .set 9 2 true, .del (some 2), .set 9 3 false, .del none] =
          some s ∧
      intHandle s = some later ∧ CleansUp ⟨[(3, ⟨9, 2⟩), (1, ⟨7, 0⟩)], 3⟩ later :=
  interrupt_cleans_up (by decide)

end Newtmq
