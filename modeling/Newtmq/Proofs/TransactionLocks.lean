/-
Module: Newtmq.Proofs.TransactionLocks
Purpose: With the mutex free, each function of `transaction.c` but one does what it does without the
  mutex, and leaves it free. `transaction_destruct` locks the mutex a second time as soon as there is a
  transaction to free.
Trusted boundary: none
Main exports: lockedStep_free, reaches_free, destruct_clears_iff
-/
import Newtmq.Library.Transition
import Newtmq.Spec.TransactionCalls

namespace Newtmq

open Mutex (Guarded critical critical_free critical_held)

variable {σ : Type} {malloc : Nat → List UInt8} {callbacks : Nat → FrameObject → σ → Ret × σ}

/-! ### With the mutex free -/

theorem Locked.getTransaction_free (tid : List UInt8) (value : TransactionManager × σ) :
    Locked.getTransaction tid (Guarded.free value) =
      some (Newtmq.getTransaction tid value.1, Guarded.free value) := by
  rw [Locked.getTransaction, critical_free]
  rfl

theorem Locked.freeTransaction_free (place : Nat) (value : TransactionManager × σ) :
    Locked.freeTransaction place (Guarded.free value) =
      some (.success, Guarded.free (Newtmq.freeTransaction place value.1, value.2)) := by
  rw [Locked.freeTransaction, critical_free]
  rfl

theorem Locked.allocTransaction_free (tid : List UInt8) (value : TransactionManager × σ) :
    Locked.allocTransaction malloc tid (Guarded.free value) =
      (Newtmq.allocTransaction malloc tid value.1).map fun manager =>
        ((), Guarded.free (manager, value.2)) := by
  rw [Locked.allocTransaction, critical_free, Option.map_map]
  rfl

theorem Locked.transactionStart_free (tid : List UInt8) (value : TransactionManager × σ) :
    Locked.transactionStart malloc tid (Guarded.free value) =
      (Newtmq.transactionStart malloc tid value.1).map fun (ret, manager) =>
        (ret, Guarded.free (manager, value.2)) := by
  rw [Locked.transactionStart, Locked.getTransaction_free, Option.bind_some, Newtmq.transactionStart]
  cases Newtmq.getTransaction tid value.1 with
  | some place => rfl
  | none =>
      simp only [Locked.allocTransaction_free, Option.map_map]
      rfl

theorem Locked.transactionAdd_free (tid : List UInt8) (object : FrameObject)
    (value : TransactionManager × σ) :
    Locked.transactionAdd tid object (Guarded.free value) =
      some ((Newtmq.transactionAdd tid object value.1).1,
        Guarded.free ((Newtmq.transactionAdd tid object value.1).2, value.2)) := by
  rw [Locked.transactionAdd, Locked.getTransaction_free, Option.map_some, Newtmq.transactionAdd]
  cases Newtmq.getTransaction tid value.1 <;> rfl

theorem Locked.transactionAbort_free (tid : List UInt8) (value : TransactionManager × σ) :
    Locked.transactionAbort tid (Guarded.free value) =
      some ((Newtmq.transactionAbort tid value.1).1,
        Guarded.free ((Newtmq.transactionAbort tid value.1).2, value.2)) := by
  rw [Locked.transactionAbort, Locked.getTransaction_free, Option.bind_some, Newtmq.transactionAbort]
  cases Newtmq.getTransaction tid value.1 with
  | some place => simp only [Locked.freeTransaction_free, Option.map_some]
  | none => rfl

theorem Locked.transactionCommit_free (tid : List UInt8) (value : TransactionManager × σ) :
    Locked.transactionCommit callbacks tid (Guarded.free value) =
      (Newtmq.transactionCommit callbacks tid value.1 value.2).map fun (ret, manager, world) =>
        (ret, Guarded.free (manager, world)) := by
  rw [Locked.transactionCommit, Locked.getTransaction_free, Option.bind_some,
    Newtmq.transactionCommit]
  cases Newtmq.getTransaction tid value.1 with
  | none => rfl
  | some place =>
      simp only [Option.map_map, Guarded.free_value]
      cases Loop.run (commitPass callbacks) ((value.1.framesAt place).length + 1)
          (value.1.framesAt place, value.2) with
      | none => rfl
      | some world =>
          have freed := Locked.freeTransaction_free place (value.1, world)
          exact congrArg (Option.map fun result => (Ret.success, result.2)) freed

/-! ### Runs -/

/-- A call that begins with the mutex free ends with the mutex free. -/
theorem lockedStep_free {value : TransactionManager × σ} {call : ManagerCall} {next : LockedStore σ}
    (returned : lockedStep malloc callbacks (Guarded.free value) call = some next) :
    next.held = false := by
  cases call with
  | init =>
      cases returned
      rfl
  | start tid =>
      rw [lockedStep, Locked.transactionStart_free, Option.map_map, Option.map_eq_some_iff] at returned
      obtain ⟨_, -, rfl⟩ := returned
      rfl
  | add tid object =>
      rw [lockedStep, Locked.transactionAdd_free] at returned
      cases returned
      rfl
  | abort tid =>
      rw [lockedStep, Locked.transactionAbort_free] at returned
      cases returned
      rfl
  | commit tid =>
      rw [lockedStep, Locked.transactionCommit_free, Option.map_map, Option.map_eq_some_iff] at returned
      obtain ⟨_, -, rfl⟩ := returned
      rfl

/-- Between the calls the mutex is free. -/
theorem reaches_free {world : σ} {s : LockedStore σ}
    (reached : Transition.Reaches (lockedStep malloc callbacks) Transition.Always
      (LockedStore.start world) s) : s.held = false := by
  apply @Transition.Reaches.invariant _ _ _ _ (fun s => s.held = false) _ _ _ reached
  · rfl
  · rintro ⟨value, held⟩ call next free - returned
    cases free
    exact lockedStep_free returned

/-! ### `transaction_destruct` -/

/-- The first transaction that is to be freed keeps the loop from going on. -/
theorem destructLoop_cons (transaction : Transaction) (rest : List Transaction) {s : LockedStore σ}
    (held : s.held = true) : Locked.destructLoop (transaction :: rest) s = none := by
  rw [Locked.destructLoop, Locked.freeTransaction, critical_held _ held]
  rfl

theorem destruct_free (value : TransactionManager × σ) :
    Locked.transactionDestruct (Guarded.free value) =
      if value.1.list = [] then some (.success, Guarded.free value) else none := by
  rw [Locked.transactionDestruct, critical_free]
  cases list : value.1.list with
  | nil =>
      simp only [Locked.destructLoop]
      rfl
  | cons transaction rest =>
      simp only [destructLoop_cons, Option.map_none, List.cons_ne_nil, if_false]

/-- `transaction_destruct` clears the store exactly when no transaction is open. -/
theorem destruct_clears_iff {world : σ} {s : LockedStore σ}
    (reached : Transition.Reaches (lockedStep malloc callbacks) Transition.Always
      (LockedStore.start world) s) :
    ClearsStore s ↔ s.value.1.list = [] := by
  obtain ⟨value, held⟩ := s
  obtain rfl : held = false := reaches_free reached
  have destruct := destruct_free value
  constructor
  · rintro ⟨last, returned, -, -⟩
    by_contra nonempty
    rw [if_neg nonempty] at destruct
    rw [Guarded.free] at destruct
    rw [destruct] at returned
    cases returned
  · intro empty
    rw [if_pos empty] at destruct
    exact ⟨_, destruct, empty, rfl⟩

/-- With one transaction aborted, none is open. -/
theorem destruct_clears_aborted :
    ∃ s, Transition.run (lockedStep zeroMalloc fun _ _ world => (.success, world))
        (LockedStore.start ()) [.start (cstring "t"), .abort (cstring "t")] = some s ∧
      ClearsStore s := by
  have taken : ∃ s, Transition.run (lockedStep zeroMalloc fun _ _ world => (.success, world))
      (LockedStore.start ()) [.start (cstring "t"), .abort (cstring "t")] = some s ∧
      s.value.1.list = [] := ⟨_, rfl, rfl⟩
  obtain ⟨s, run, empty⟩ := taken
  exact ⟨s, run, (destruct_clears_iff (Transition.reaches_of_run run)).mpr empty⟩

/-- One open transaction is enough: `transaction_destruct` does not return. -/
theorem destruct_hangs_when_open :
    ¬ ∀ s, Transition.Reaches (lockedStep zeroMalloc fun _ _ world => (.success, world))
      Transition.Always (LockedStore.start ()) s → ClearsStore s := by
  intro always
  have run : ∃ s, Transition.run (lockedStep zeroMalloc fun _ _ world => (.success, world))
      (LockedStore.start ()) [.start (cstring "t")] = some s ∧
      Locked.transactionDestruct s = none := ⟨_, rfl, rfl⟩
  obtain ⟨s, taken, hangs⟩ := run
  obtain ⟨last, returned, -⟩ := always s (Transition.reaches_of_run taken)
  rw [hangs] at returned
  cases returned

end Newtmq
