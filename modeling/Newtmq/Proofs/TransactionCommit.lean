/-
Module: Newtmq.Proofs.TransactionCommit
Purpose: The loop of `transaction_commit`: it ends unless it meets a frame without a callback, which
  it never removes.
Trusted boundary: none
Main exports: commit_stuck, commitPass_terminates_iff, transactionCommit_silent
-/
import Newtmq.Core.Transaction

namespace Newtmq

variable {σ : Type} {callbacks : Nat → FrameObject → σ → Ret × σ}

/-- A pass that meets a frame without a callback starts over. -/
theorem commitPass_stuck {object : FrameObject} (rest : List FrameObject) (world : σ)
    (silent : object.frame.transactionCallback = none) :
    commitPass callbacks (object :: rest, world) = .again (object :: rest, world) := by
  simp [commitPass, silent]

/-- The loop does not get past a frame without a callback. -/
theorem commit_stuck {object : FrameObject} (rest : List FrameObject) (world : σ)
    (silent : object.frame.transactionCallback = none) :
    ¬ Loop.Terminates (commitPass callbacks) (object :: rest, world) :=
  Loop.not_terminates_of_trap (fun state => state = (object :: rest, world))
    (fun _ here => ⟨_, by rw [here]; exact commitPass_stuck rest world silent, rfl⟩) rfl

/-- The loop ends exactly when it never meets a frame without a callback. -/
theorem commitPass_terminates_iff (frames : List FrameObject) (world : σ) :
    Loop.Terminates (commitPass callbacks) (frames, world) ↔
      ∀ later, Loop.Visits (commitPass callbacks) (frames, world) later →
        ∀ object rest, later.1 = object :: rest → object.frame.transactionCallback.isSome := by
  have rule : Loop.Terminates (commitPass callbacks) (frames, world) ↔ _ :=
    Loop.terminates_iff_never_stuck
    (fun state => ∃ object rest, state.1 = object :: rest ∧
      object.frame.transactionCallback = none)
    (fun state => state.1.length) ?progress ?stays (frames, world)
  case progress =>
    rintro ⟨frames, world⟩ next moves again
    cases frames with
    | nil => cases again
    | cons object rest =>
        cases called : object.frame.transactionCallback with
        | none => exact absurd ⟨object, rest, rfl, called⟩ moves
        | some callback =>
            simp only [commitPass, called] at again
            split at again
            · cases again
            · cases again
              exact Nat.lt_succ_self _
  case stays =>
    rintro ⟨frames, world⟩ ⟨object, rest, here, silent⟩
    cases here
    exact ⟨_, commitPass_stuck rest world silent, object, rest, rfl, silent⟩
  rw [rule]
  refine forall_congr' fun later => imp_congr_right fun _ => ?_
  constructor
  · intro never object rest here
    cases called : object.frame.transactionCallback with
    | none => exact absurd ⟨object, rest, here, called⟩ never
    | some callback => rfl
  · rintro always ⟨object, rest, here, silent⟩
    have := always object rest here
    rw [silent] at this
    cases this

/-- When no frame of the transaction has a callback, the commit returns only for a transaction without
frames, and then does no more than remove it. -/
theorem transactionCommit_silent {tid : List UInt8} {manager : TransactionManager} {world : σ}
    (silent : ∀ place, ∀ object ∈ manager.framesAt place,
      object.frame.transactionCallback = none) :
    transactionCommit callbacks tid manager world =
      match getTransaction tid manager with
      | none => some (.error, manager, world)
      | some place =>
          if manager.framesAt place = [] then some (.success, freeTransaction place manager, world)
          else none := by
  unfold transactionCommit
  cases found : getTransaction tid manager with
  | none => rfl
  | some place =>
      cases frames : manager.framesAt place with
      | nil => simp [frames, Loop.run, commitPass]
      | cons object rest =>
          have first := silent place object (by rw [frames]; simp)
          have never : Loop.run (commitPass callbacks) ((object :: rest).length + 1)
              (object :: rest, world) = none := by
            by_contra h
            obtain ⟨result, run⟩ := Option.ne_none_iff_exists'.mp h
            exact commit_stuck rest world first ⟨result, _, run⟩
          simp only [frames, never, Option.map_none, List.cons_ne_nil, if_false]

end Newtmq
