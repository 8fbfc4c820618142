/-
Module: Newtmq.Library.Transition
Purpose: A system given by a partial step function on states and actions: its runs, the runs all of
  whose steps meet a condition, and the invariant rule for them.
Trusted boundary: none
Main exports: Transition.run, Transition.run_append, Transition.Reaches, Transition.guarded,
  Transition.reaches_of_guarded_run, Transition.reaches_of_run, Transition.Reaches.invariant,
  Transition.MeetsAlong, Transition.meetsAlong_iff, Transition.HoldsAlong,
  Transition.holdsAlong_of_invariant, Transition.holdsAlong_iff, Transition.noting,
  Transition.Reaches.noted_invariant, Transition.recording, Transition.Reaches.recorded_invariant
-/
import Mathlib.Logic.Relation

namespace Transition

universe u v

variable {σ : Type u} {ι : Type v} {step : σ → ι → Option σ}

/-- Take the actions one after the other. `none` means that one of them could not be taken. -/
def run (step : σ → ι → Option σ) : σ → List ι → Option σ
  | state, [] => some state
  | state, action :: actions => (step state action).bind fun next => run step next actions

/-- A run goes through the state in which a part of its actions ends. -/
theorem run_append {state last : σ} {first second : List ι} :
    run step state (first ++ second) = some last ↔
      ∃ middle, run step state first = some middle ∧ run step middle second = some last := by
  induction first generalizing state with
  | nil => simp [run]
  | cons action first ih =>
      rw [List.cons_append, run, run]
      cases step state action with
      | none => simp
      | some next => exact ih

/-- `later` is reached from `state` by steps that all meet the condition `Allowed`, which looks at
the state before the step and at the action. -/
def Reaches (step : σ → ι → Option σ) (Allowed : σ → ι → Prop) : σ → σ → Prop :=
  Relation.ReflTransGen fun state next =>
    ∃ action, Allowed state action ∧ step state action = some next

/-- The condition that every step meets. -/
def Always : σ → ι → Prop := fun _ _ => True

instance (state : σ) (action : ι) : Decidable (Always state action) := .isTrue trivial

/-- The steps that meet the condition, and no others. -/
def guarded (step : σ → ι → Option σ) (Allowed : σ → ι → Prop)
    [∀ state action, Decidable (Allowed state action)] (state : σ) (action : ι) : Option σ :=
  if Allowed state action then step state action else none

/-- A run of steps that meet the condition reaches its last state. -/
theorem reaches_of_guarded_run {Allowed : σ → ι → Prop} [∀ state action, Decidable (Allowed state action)]
    {state last : σ} {actions : List ι}
    (taken : run (guarded step Allowed) state actions = some last) :
    Reaches step Allowed state last := by
  induction actions generalizing state with
  | nil =>
      cases taken
      exact Relation.ReflTransGen.refl
  | cons action actions ih =>
      obtain ⟨next, first, rest⟩ := Option.bind_eq_some_iff.mp taken
      obtain ⟨allowed, step⟩ := Option.ite_none_right_eq_some.mp first
      exact Relation.ReflTransGen.head ⟨action, allowed, step⟩ (ih rest)

/-- A run that can be taken reaches its last state. -/
theorem reaches_of_run {state last : σ} {actions : List ι}
    (taken : run step state actions = some last) : Reaches step Always state last := by
  have same : guarded step Always = step := by
    funext state action
    exact if_pos trivial
  rw [← same] at taken
  exact reaches_of_guarded_run taken

/-- What holds at the start and is kept by every step that meets the condition holds of every state
reached by such steps. -/
theorem Reaches.invariant {Allowed : σ → ι → Prop} {Inv : σ → Prop}
    (keeps : ∀ state action next, Inv state → Allowed state action →
      step state action = some next → Inv next)
    {state later : σ} (reaches : Reaches step Allowed state later) (start : Inv state) :
    Inv later := by
  induction reaches with
  | refl => exact start
  | tail _ last ih =>
      obtain ⟨action, allowed, taken⟩ := last
      exact keeps _ action _ ih allowed taken

/-- Each action of a run meets the condition in the state before it. -/
def MeetsAlong (step : σ → ι → Option σ) (Allowed : σ → ι → Prop) : σ → List ι → Prop
  | _, [] => True
  | state, action :: actions =>
      Allowed state action ∧ ∀ next, step state action = some next →
        MeetsAlong step Allowed next actions

instance decidableMeetsAlong (step : σ → ι → Option σ) (Allowed : σ → ι → Prop)
    [∀ state action, Decidable (Allowed state action)] :
    ∀ (state : σ) (actions : List ι), Decidable (MeetsAlong step Allowed state actions)
  | _, [] => .isTrue trivial
  | state, action :: actions =>
      @instDecidableAnd _ _ _ <|
        match taken : step state action with
        | none => .isTrue fun next same => by cases same
        | some next =>
            @decidable_of_iff _ (MeetsAlong step Allowed next actions)
              ⟨fun meets _ same => Option.some.inj same ▸ meets, fun meets => meets next rfl⟩
              (decidableMeetsAlong step Allowed next actions)

/-- A condition on the actions alone is met along every run. -/
theorem MeetsAlong.and_forall {Allowed : σ → ι → Prop} {Kind : ι → Prop}
    {actions : List ι} {state : σ} (meets : MeetsAlong step Allowed state actions)
    (kinds : ∀ action ∈ actions, Kind action) :
    MeetsAlong step (fun state action => Kind action ∧ Allowed state action) state actions := by
  induction actions generalizing state with
  | nil => trivial
  | cons action actions ih =>
      obtain ⟨first, rest⟩ := meets
      refine ⟨⟨kinds action List.mem_cons_self, first⟩, fun next taken => ?_⟩
      exact ih (rest next taken) fun other mem => kinds other (List.mem_cons_of_mem action mem)

/-- Two conditions that agree in the states where an invariant holds are met along the same runs, when
steps that meet the second one keep the invariant. -/
theorem meetsAlong_iff {One Two : σ → ι → Prop} {Inv : σ → Prop}
    (keeps : ∀ state action next, Inv state → Two state action → step state action = some next →
      Inv next)
    (same : ∀ state action, Inv state → (One state action ↔ Two state action)) {state : σ}
    (start : Inv state) (actions : List ι) :
    MeetsAlong step One state actions ↔ MeetsAlong step Two state actions := by
  induction actions generalizing state with
  | nil => exact Iff.rfl
  | cons action actions ih =>
      rw [MeetsAlong, MeetsAlong, same state action start]
      apply and_congr_right
      intro two
      refine forall_congr' fun next => imp_congr_right fun taken => ?_
      exact ih (keeps state action next start two taken)

/-- The property holds in every state that a run goes through. -/
def HoldsAlong (step : σ → ι → Option σ) (P : σ → Prop) : σ → List ι → Prop
  | state, [] => P state
  | state, action :: actions =>
      P state ∧ ∀ next, step state action = some next → HoldsAlong step P next actions

theorem HoldsAlong.start {P : σ → Prop} {state : σ} {actions : List ι}
    (holds : HoldsAlong step P state actions) : P state := by
  cases actions with
  | nil => exact holds
  | cons action actions => exact holds.1

/-- What every step that can be taken keeps holds along every run. -/
theorem holdsAlong_of_invariant {Inv : σ → Prop}
    (keeps : ∀ state action next, Inv state → step state action = some next → Inv next) {state : σ}
    (start : Inv state) (actions : List ι) : HoldsAlong step Inv state actions := by
  induction actions generalizing state with
  | nil => exact start
  | cons action actions ih => exact ⟨start, fun next taken => ih (keeps state action next start taken)⟩

theorem HoldsAlong.imp {P Q : σ → Prop} (implies : ∀ state, P state → Q state) {state : σ}
    {actions : List ι} (holds : HoldsAlong step P state actions) : HoldsAlong step Q state actions := by
  induction actions generalizing state with
  | nil => exact implies state holds
  | cons action actions ih => exact ⟨implies state holds.1, fun next taken => ih (holds.2 next taken)⟩

/-- A property holds along the runs whose steps meet a condition, and along no others, when steps that
meet the condition keep an invariant that implies the property, and a step from such a state leads to
the property only when it meets the condition. -/
theorem holdsAlong_iff {P : σ → Prop} {Allowed : σ → ι → Prop} {Inv : σ → Prop}
    (holds : ∀ state, Inv state → P state)
    (keeps : ∀ state action next, Inv state → Allowed state action →
      step state action = some next → Inv next)
    (needs : ∀ state action, Inv state → (∀ next, step state action = some next → P next) →
      Allowed state action) {state : σ} (start : Inv state) (actions : List ι) :
    HoldsAlong step P state actions ↔ MeetsAlong step Allowed state actions := by
  induction actions generalizing state with
  | nil => exact ⟨fun _ => trivial, fun _ => holds state start⟩
  | cons action actions ih =>
      constructor
      · rintro ⟨_, rest⟩
        have allowed := needs state action start fun next taken => (rest next taken).start
        exact ⟨allowed, fun next taken =>
          (ih (keeps state action next start allowed taken)).mp (rest next taken)⟩
      · rintro ⟨allowed, rest⟩
        exact ⟨holds state start, fun next taken =>
          (ih (keeps state action next start allowed taken)).mpr (rest next taken)⟩

/-! ### Records -/

universe w

variable {ν : Type w}

/-- The system with a record beside its state, to which each step adds what `note` says of the state
before it and of the action. -/
def noting (step : σ → ι → Option σ) (note : σ → ι → List ν) (s : σ × List ν) (action : ι) :
    Option (σ × List ν) :=
  (step s.1 action).map fun next => (next, s.2 ++ note s.1 action)

theorem noting_eq_some_iff {note : σ → ι → List ν} {s next : σ × List ν} {action : ι} :
    noting step note s action = some next ↔
      step s.1 action = some next.1 ∧ next.2 = s.2 ++ note s.1 action := by
  rw [noting, Option.map_eq_some_iff]
  constructor
  · rintro ⟨state, taken, rfl⟩
    exact ⟨taken, rfl⟩
  · rintro ⟨taken, record⟩
    exact ⟨next.1, taken, by rw [← record]⟩

/-- The invariant rule for a state with its record. -/
theorem Reaches.noted_invariant {Allowed : σ → ι → Prop} {note : σ → ι → List ν}
    {Inv : σ → List ν → Prop}
    (keeps : ∀ state record action next, Inv state record → Allowed state action →
      step state action = some next → Inv next (record ++ note state action))
    {state later : σ} {first last : List ν}
    (reaches : Reaches (noting step note) (fun s action => Allowed s.1 action) (state, first)
      (later, last)) (start : Inv state first) : Inv later last := by
  apply @Reaches.invariant _ _ _ _ (fun s => Inv s.1 s.2) _ _ _ reaches start
  intro s action next inv allowed taken
  obtain ⟨took, record⟩ := noting_eq_some_iff.mp taken
  rw [record]
  exact keeps s.1 s.2 action next.1 inv allowed took

/-- The system with a record beside its state, to which each step adds what `note` says of the action. -/
def recording (step : σ → ι → Option σ) (note : ι → List ν) (s : σ × List ν) (action : ι) :
    Option (σ × List ν) :=
  (step s.1 action).map fun next => (next, s.2 ++ note action)

theorem recording_eq_noting (note : ι → List ν) :
    recording step note = noting step fun _ => note := rfl

/-- The invariant rule for a record of actions alone. -/
theorem Reaches.recorded_invariant {Allowed : σ → ι → Prop} {note : ι → List ν}
    {Inv : σ → List ν → Prop}
    (keeps : ∀ state record action next, Inv state record → Allowed state action →
      step state action = some next → Inv next (record ++ note action))
    {state later : σ} {first last : List ν}
    (reaches : Reaches (recording step note) (fun s action => Allowed s.1 action) (state, first)
      (later, last)) (start : Inv state first) : Inv later last := by
  rw [recording_eq_noting] at reaches
  exact reaches.noted_invariant keeps start

end Transition
