/-
Module: Newtmq.Library.Unwinding
Purpose: What one party observes of a system that several parties act on, and the unwinding rule: when
  the actions of the others keep a relation between the states that the party cannot tell apart, its
  observations are those of the run in which the others do nothing.
Trusted boundary: none
Main exports: Unwinding.observed, Unwinding.Unwinds, Unwinding.Unwinds.observed_filter
-/
import Newtmq.Library.Transition

namespace Unwinding

open Transition (MeetsAlong)

universe u v w

variable {σ : Type u} {ι : Type v} {ρ : Type w}

/-- What the actions of a party observe, each in the state before it. A run ends at an action that
cannot be taken. -/
def observed (step : σ → ι → Option σ) (observe : σ → ι → List ρ) (own : ι → Bool) :
    σ → List ι → List ρ
  | _, [] => []
  | state, action :: actions =>
      (if own action then observe state action else []) ++
        match step state action with
        | none => []
        | some next => observed step observe own next actions

/-- The unwinding conditions. Related states give the party the same observation, an own action is
taken in both of them or in neither, and an action of the others keeps the relation. -/
structure Unwinds (step : σ → ι → Option σ) (observe : σ → ι → List ρ) (own : ι → Bool)
    (Allowed : σ → ι → Prop) (Related : σ → σ → Prop) : Prop where
  output : ∀ s t action, own action = true → Allowed s action → Related s t →
    observe s action = observe t action
  stepOwn : ∀ s t action, own action = true → Allowed s action → Related s t →
    (step s action = none ∧ step t action = none) ∨
      ∃ s' t', step s action = some s' ∧ step t action = some t' ∧ Related s' t'
  stepOther : ∀ s t action, own action = false → Allowed s action → Related s t →
    ∃ s', step s action = some s' ∧ Related s' t

/-- The unwinding rule. -/
theorem Unwinds.observed_filter {step : σ → ι → Option σ} {observe : σ → ι → List ρ}
    {own : ι → Bool} {Allowed : σ → ι → Prop} {Related : σ → σ → Prop}
    (unwinds : Unwinds step observe own Allowed Related) {actions : List ι} {s t : σ}
    (related : Related s t) (meets : MeetsAlong step Allowed s actions) :
    observed step observe own s actions = observed step observe own t (actions.filter own) := by
  induction actions generalizing s t with
  | nil => rfl
  | cons action actions ih =>
      obtain ⟨allowed, rest⟩ := meets
      cases mine : own action with
      | true =>
          rw [List.filter_cons_of_pos mine, observed, observed,
            unwinds.output s t action mine allowed related]
          rcases unwinds.stepOwn s t action mine allowed related with ⟨one, two⟩ |
            ⟨s', t', one, two, related'⟩
          · rw [one, two]
          · rw [one, two]
            exact congrArg _ (ih related' (rest s' one))
      | false =>
          obtain ⟨s', one, related'⟩ := unwinds.stepOther s t action mine allowed related
          rw [List.filter_cons_of_neg (by simp [mine]), observed, one, mine]
          exact ih related' (rest s' one)

end Unwinding
