/-
Module: Newtmq.Library.Responder
Purpose: A system that answers requests and changes its state: the answers to a sequence of requests,
  and the simulation rule by which two systems give the same answers.
Trusted boundary: none
Main exports: Responder.responses, Responder.Agree, Responder.responses_eq
-/
import Mathlib.Data.List.Basic

namespace Responder

universe u v w x

variable {σ : Type u} {τ : Type v} {ι : Type w} {ρ : Type x}

/-- The answers to the requests of a sequence, in order. A request that is not answered ends the
sequence. -/
def responses (step : σ → ι → Option (ρ × σ)) : σ → List ι → List (Option ρ)
  | _, [] => []
  | state, request :: requests =>
      match step state request with
      | none => [none]
      | some (response, next) => some response :: responses step next requests

/-- Two answers agree: both are missing, or they are the same and the states after them are related. -/
def Agree (Related : σ → τ → Prop) : Option (ρ × σ) → Option (ρ × τ) → Prop
  | none, none => True
  | some (one, s), some (two, t) => one = two ∧ Related s t
  | _, _ => False

/-- Systems whose answers agree on related states give the same answers to a sequence of requests. -/
theorem responses_eq {first : σ → ι → Option (ρ × σ)} {second : τ → ι → Option (ρ × τ)}
    {Allowed : ι → Prop} (Related : σ → τ → Prop)
    (simulates : ∀ s t request, Allowed request → Related s t →
      Agree Related (first s request) (second t request)) :
    ∀ (requests : List ι) {s : σ} {t : τ}, (∀ request ∈ requests, Allowed request) → Related s t →
      responses first s requests = responses second t requests := by
  intro requests
  induction requests with
  | nil => exact fun _ _ => rfl
  | cons request requests ih =>
      intro s t allowed related
      have agree := simulates s t request (allowed request List.mem_cons_self) related
      have rest := fun other mem => allowed other (List.mem_cons_of_mem request mem)
      rw [responses, responses]
      rcases one : first s request with _ | ⟨response, next⟩
      · rcases two : second t request with _ | ⟨other, after⟩
        · rfl
        · rw [one, two] at agree
          exact agree.elim
      · rcases two : second t request with _ | ⟨other, after⟩
        · rw [one, two] at agree
          exact agree.elim
        · rw [one, two] at agree
          obtain ⟨rfl, related'⟩ := agree
          exact congrArg (some response :: ·) (ih rest related')

end Responder
