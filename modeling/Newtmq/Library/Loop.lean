/-
Module: Newtmq.Library.Loop
Purpose: A `while` loop with `break`, as the iteration of a body: fuelled execution, the result of
  the loop, the states it passes through, and the rules that decide whether it ends.
Trusted boundary: none
Main exports: Loop.Step, Loop.run, Loop.Returns, Loop.Terminates, Loop.Visits,
  Loop.Visits.invariant, Loop.returns_of_measure, Loop.run_invariant, Loop.run_view,
  Loop.run_follows, Loop.terminates_iff_never_stuck
-/
import Mathlib.Logic.Relation

namespace Loop

universe u v

/-- What one pass through a loop body does: go round again from a new state, or leave the loop. -/
inductive Step (σ : Type u) (ρ : Type v) where
  | again (state : σ)
  | leave (result : ρ)
deriving Repr, DecidableEq

variable {σ : Type u} {ρ : Type v} {body : σ → Step σ ρ}

/-- Run the loop for at most `fuel` passes. `none` means that the fuel was not enough. -/
def run (body : σ → Step σ ρ) : Nat → σ → Option ρ
  | 0, _ => none
  | fuel + 1, state =>
      match body state with
      | .again next => run body fuel next
      | .leave result => some result

/-- The loop, started in `state`, leaves with `result`. -/
def Returns (body : σ → Step σ ρ) (state : σ) (result : ρ) : Prop :=
  ∃ fuel, run body fuel state = some result

/-- The loop, started in `state`, leaves at all. -/
def Terminates (body : σ → Step σ ρ) (state : σ) : Prop :=
  ∃ result, Returns body state result

/-- `later` is one of the states in which the loop started in `state` begins a pass. -/
def Visits (body : σ → Step σ ρ) : σ → σ → Prop :=
  Relation.ReflTransGen fun state next => body state = .again next

/-! ### Fuel -/

theorem run_succ_again {state next : σ} (h : body state = .again next) (fuel : Nat) :
    run body (fuel + 1) state = run body fuel next := by
  simp [run, h]

theorem run_succ_leave {state : σ} {result : ρ} (h : body state = .leave result) (fuel : Nat) :
    run body (fuel + 1) state = some result := by
  simp [run, h]

/-- More fuel never changes a result. -/
theorem run_mono {fuel more : Nat} {state : σ} {result : ρ} (le : fuel ≤ more)
    (h : run body fuel state = some result) : run body more state = some result := by
  induction fuel generalizing more state with
  | zero => simp [run] at h
  | succ fuel ih =>
      obtain ⟨more, rfl⟩ : ∃ m, more = m + 1 := ⟨more - 1, by omega⟩
      cases hbody : body state with
      | again next =>
          rw [run_succ_again hbody] at h ⊢
          exact ih (by omega) h
      | leave found =>
          rw [run_succ_leave hbody] at h ⊢
          exact h

/-- A loop has at most one result. -/
theorem Returns.unique {state : σ} {first second : ρ} (one : Returns body state first)
    (two : Returns body state second) : first = second := by
  obtain ⟨fuel, h₁⟩ := one
  obtain ⟨more, h₂⟩ := two
  have e₁ := run_mono (Nat.le_max_left fuel more) h₁
  have e₂ := run_mono (Nat.le_max_right fuel more) h₂
  exact Option.some.inj (e₁.symm.trans e₂)

/-! ### Unfolding one pass -/

theorem returns_of_leave {state : σ} {result : ρ} (h : body state = .leave result) :
    Returns body state result :=
  ⟨1, run_succ_leave h 0⟩

theorem returns_again_iff {state next : σ} {result : ρ} (h : body state = .again next) :
    Returns body state result ↔ Returns body next result := by
  constructor
  · rintro ⟨fuel, hrun⟩
    cases fuel with
    | zero => simp [run] at hrun
    | succ fuel => exact ⟨fuel, by rwa [run_succ_again h] at hrun⟩
  · rintro ⟨fuel, hrun⟩
    exact ⟨fuel + 1, by rwa [run_succ_again h]⟩

/-- What every pass keeps holds in every state that the loop visits. -/
theorem Visits.invariant (Inv : σ → Prop)
    (keeps : ∀ state next, Inv state → body state = .again next → Inv next)
    {state later : σ} (visits : Visits body state later) (start : Inv state) : Inv later := by
  induction visits with
  | refl => exact start
  | tail _ again ih => exact keeps _ _ ih again

/-- A state the loop visits leaves with the same result. -/
theorem Visits.returns_iff {state later : σ} {result : ρ} (h : Visits body state later) :
    Returns body state result ↔ Returns body later result := by
  induction h with
  | refl => rfl
  | tail _ step ih => exact ih.trans (returns_again_iff step)

theorem Visits.terminates_iff {state later : σ} (h : Visits body state later) :
    Terminates body state ↔ Terminates body later :=
  exists_congr fun _ => h.returns_iff

/-! ### Rules for ending and for not ending -/

/-- An invariant that every pass keeps, with a measure that every pass lowers, makes the loop leave
within `measure + 1` passes, from a state that satisfies the invariant. -/
theorem returns_of_measure (body : σ → Step σ ρ) (Inv : σ → Prop) (measure : σ → Nat)
    (keeps : ∀ state next, Inv state → body state = .again next →
      Inv next ∧ measure next < measure state)
    (state : σ) (start : Inv state) :
    ∃ last result, run body (measure state + 1) state = some result ∧ Inv last ∧
      body last = .leave result := by
  suffices H : ∀ fuel state, measure state < fuel → Inv state →
      ∃ last result, run body fuel state = some result ∧ Inv last ∧
        body last = .leave result from H _ state (Nat.lt_succ_self _) start
  intro fuel
  induction fuel with
  | zero => intro state lt; omega
  | succ fuel ih =>
      intro state lt inv
      cases hbody : body state with
      | again next =>
          obtain ⟨invNext, lower⟩ := keeps state next inv hbody
          rw [run_succ_again hbody]
          exact ih next (by omega) invNext
      | leave result => exact ⟨state, result, run_succ_leave hbody fuel, inv, hbody⟩

/-- With fuel above the measure, one pass of the fuel does not matter. -/
theorem run_eq_next (body : σ → Step σ ρ) (Inv : σ → Prop) (measure : σ → Nat)
    (keeps : ∀ state next, Inv state → body state = .again next →
      Inv next ∧ measure next < measure state)
    {fuel : Nat} {state next : σ} (start : Inv state) (enough : measure state < fuel)
    (again : body state = .again next) : run body fuel state = run body fuel next := by
  obtain ⟨invNext, lower⟩ := keeps state next start again
  obtain ⟨_, result, found, _⟩ := returns_of_measure body Inv measure keeps next invNext
  obtain ⟨fuel, rfl⟩ : ∃ more, fuel = more + 1 := ⟨fuel - 1, by omega⟩
  rw [run_succ_again again, run_mono (by omega) found, run_mono (by omega) found]

/-- What every pass keeps holds in the state from which the loop leaves. -/
theorem run_invariant (Inv : σ → Prop) (Post : ρ → Prop)
    (keeps : ∀ state next, Inv state → body state = .again next → Inv next)
    (leaves : ∀ state result, Inv state → body state = .leave result → Post result) :
    ∀ {fuel state result}, Inv state → run body fuel state = some result → Post result := by
  intro fuel
  induction fuel with
  | zero =>
      intro state result _ h
      cases h
  | succ fuel ih =>
      intro state result inv h
      cases hbody : body state with
      | again next =>
          rw [run_succ_again hbody] at h
          exact ih (keeps state next inv hbody) h
      | leave found =>
          rw [run_succ_leave hbody] at h
          cases h
          exact leaves state result inv hbody

/-- A loop whose passes are, seen through `view`, the passes of another one has the result of the other
one. -/
theorem run_view {τ : Type u} {π : Type v} {other : τ → Step τ π} (Inv : σ → Prop) (view : σ → τ)
    (viewResult : ρ → π) (keeps : ∀ state next, Inv state → body state = .again next → Inv next)
    (again : ∀ state next, Inv state → body state = .again next →
      other (view state) = .again (view next))
    (leaves : ∀ state result, Inv state → body state = .leave result →
      other (view state) = .leave (viewResult result)) :
    ∀ (fuel : Nat) (state : σ), Inv state →
      run other fuel (view state) = (run body fuel state).map viewResult := by
  intro fuel
  induction fuel with
  | zero =>
      intro state _
      rfl
  | succ fuel ih =>
      intro state inv
      cases pass : body state with
      | again next =>
          rw [run_succ_again pass, run_succ_again (again state next inv pass)]
          exact ih next (keeps state next inv pass)
      | leave result =>
          rw [run_succ_leave pass, run_succ_leave (leaves state result inv pass)]
          rfl

/-! ### Two loops side by side -/

/-- One pass beside another one: either the first loop is left without a value, or both go round again
from related states, or both are left with related values. -/
inductive Follows {τ : Type u} {α β : Type v} (Rel : σ → τ → Prop) (Post : α → β → Prop) :
    Step σ (Option α) → Step τ (Option β) → Prop where
  | lost (step : Step τ (Option β)) : Follows Rel Post (.leave none) step
  | again {state : σ} {beside : τ} (related : Rel state beside) :
      Follows Rel Post (.again state) (.again beside)
  | leave {value : α} {found : β} (related : Post value found) :
      Follows Rel Post (.leave (some value)) (.leave (some found))

/-- When the passes of one loop are followed by those of another one, so is its value. -/
theorem run_follows {τ : Type u} {α β : Type v} {one : σ → Step σ (Option α)}
    {other : τ → Step τ (Option β)} {Rel : σ → τ → Prop} {Post : α → β → Prop}
    (passes : ∀ state beside, Rel state beside → Follows Rel Post (one state) (other beside)) :
    ∀ {fuel : Nat} {state : σ} {beside : τ} {value : α}, Rel state beside →
      run one fuel state = some (some value) →
        ∃ found, run other fuel beside = some (some found) ∧ Post value found := by
  intro fuel
  induction fuel with
  | zero =>
      intro state beside value _ h
      cases h
  | succ fuel ih =>
      intro state beside value related h
      have step := passes state beside related
      cases pass : one state with
      | again next =>
          rw [run_succ_again pass] at h
          rw [pass] at step
          cases side : other beside with
          | again nextBeside =>
              rw [side] at step
              cases step with
              | again kept =>
                  rw [run_succ_again side]
                  exact ih kept h
          | leave result =>
              rw [side] at step
              cases step
      | leave result =>
          rw [run_succ_leave pass] at h
          cases h
          rw [pass] at step
          cases side : other beside with
          | again nextBeside =>
              rw [side] at step
              cases step
          | leave result =>
              rw [side] at step
              cases step with
              | leave post => exact ⟨_, run_succ_leave side fuel, post⟩

/-- A set of states that every pass re-enters is never left. -/
theorem not_terminates_of_trap (Trap : σ → Prop)
    (closed : ∀ state, Trap state → ∃ next, body state = .again next ∧ Trap next)
    {state : σ} (start : Trap state) : ¬ Terminates body state := by
  rintro ⟨result, fuel, h⟩
  induction fuel generalizing state with
  | zero => simp [run] at h
  | succ fuel ih =>
      obtain ⟨next, again, trapped⟩ := closed state start
      rw [run_succ_again again] at h
      exact ih trapped h

/-- When every pass that does not start in a stuck state lowers a measure, and a stuck state leads
to a stuck state, the loop ends exactly when it never starts a pass in a stuck state. -/
theorem terminates_iff_never_stuck (Stuck : σ → Prop) (measure : σ → Nat)
    (progress : ∀ state next, ¬ Stuck state → body state = .again next →
      measure next < measure state)
    (stays : ∀ state, Stuck state → ∃ next, body state = .again next ∧ Stuck next)
    (state : σ) :
    Terminates body state ↔ ∀ later, Visits body state later → ¬ Stuck later := by
  constructor
  · intro ends later visited stuck
    exact not_terminates_of_trap Stuck stays stuck (visited.terminates_iff.mp ends)
  · intro never
    obtain ⟨_, result, h, _⟩ :=
      returns_of_measure body (fun s => ∀ later, Visits body s later → ¬ Stuck later) measure
        (fun s next inv again =>
          ⟨fun later visited => inv later (Relation.ReflTransGen.head again visited),
            progress s next (inv s Relation.ReflTransGen.refl) again⟩) state never
    exact ⟨result, _, h⟩

/-- A fuel bound that suffices whenever the loop ends: the result, if any, is found by `run`. -/
theorem returns_iff_run (body : σ → Step σ ρ) (Stuck : σ → Prop) (measure : σ → Nat)
    (progress : ∀ state next, ¬ Stuck state → body state = .again next →
      measure next < measure state)
    (stays : ∀ state, Stuck state → ∃ next, body state = .again next ∧ Stuck next)
    (state : σ) (result : ρ) :
    Returns body state result ↔ run body (measure state + 1) state = some result := by
  constructor
  · intro returns
    have never := (terminates_iff_never_stuck Stuck measure progress stays state).mp ⟨result, returns⟩
    obtain ⟨_, found, h, _⟩ :=
      returns_of_measure body (fun s => ∀ later, Visits body s later → ¬ Stuck later) measure
        (fun s next inv again =>
          ⟨fun later visited => inv later (Relation.ReflTransGen.head again visited),
            progress s next (inv s Relation.ReflTransGen.refl) again⟩) state never
    rw [h, Returns.unique ⟨_, h⟩ returns]
  · exact fun h => ⟨_, h⟩

end Loop
