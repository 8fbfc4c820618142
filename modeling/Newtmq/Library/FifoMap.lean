/-
Module: Newtmq.Library.FifoMap
Purpose: A store of first-in first-out lists, addressed by names. A key function tells which names
  share a list; two key functions give the same answers to all requests exactly when they tell the
  same names apart.
Trusted boundary: none
Main exports: FifoMap.Request, FifoMap.answers, FifoMap.answers_congr, FifoMap.answers_eq_iff
-/
import Mathlib.Data.Set.Basic
import Mathlib.Logic.Function.Basic

namespace FifoMap

universe u v w

/-- A request to the store: put an item under a name, or take the oldest item under a name. -/
inductive Request (ν : Type u) (α : Type v) where
  | put (name : ν) (item : α)
  | take (name : ν)

variable {ν : Type u} {α : Type v} {κ κ₁ κ₂ : Type w} [DecidableEq κ] [DecidableEq κ₁]
  [DecidableEq κ₂]

/-- The name that a request is about. -/
def Request.name : Request ν α → ν
  | .put name _ => name
  | .take name => name

/-- One list for each key. -/
abbrev Store (κ : Type w) (α : Type v) := κ → List α

def empty : Store κ α := fun _ => []

def put (key : κ) (item : α) (store : Store κ α) : Store κ α :=
  Function.update store key (store key ++ [item])

def take (key : κ) (store : Store κ α) : Store κ α :=
  Function.update store key (store key).tail

/-- The answers to the `take` requests of a sequence, in order. -/
def answers (key : ν → κ) : Store κ α → List (Request ν α) → List (Option α)
  | _, [] => []
  | store, .put name item :: requests => answers key (put (key name) item store) requests
  | store, .take name :: requests =>
      (store (key name)).head? :: answers key (take (key name) store) requests

/-- Key functions that tell the same names apart give the same answers, from stores that agree on
those names. -/
theorem answers_congr {key₁ : ν → κ₁} {key₂ : ν → κ₂} {names : Set ν}
    (same : ∀ a ∈ names, ∀ b ∈ names, key₁ a = key₁ b ↔ key₂ a = key₂ b) :
    ∀ (requests : List (Request ν α)) (store₁ : Store κ₁ α) (store₂ : Store κ₂ α),
      (∀ request ∈ requests, request.name ∈ names) →
      (∀ a ∈ names, store₁ (key₁ a) = store₂ (key₂ a)) →
      answers key₁ store₁ requests = answers key₂ store₂ requests := by
  have updated : ∀ {store₁ : Store κ₁ α} {store₂ : Store κ₂ α} {name : ν} (value : List α),
      name ∈ names → (∀ a ∈ names, store₁ (key₁ a) = store₂ (key₂ a)) →
      ∀ a ∈ names, Function.update store₁ (key₁ name) value (key₁ a) =
        Function.update store₂ (key₂ name) value (key₂ a) := by
    intro store₁ store₂ name value mem agree a mem'
    simp only [Function.update_apply, same a mem' name mem, agree a mem']
  intro requests
  induction requests with
  | nil => exact fun _ _ _ _ => rfl
  | cons request requests ih =>
      intro store₁ store₂ within agree
      have mem := within request (by simp)
      have rest := fun r h => within r (List.mem_cons_of_mem request h)
      cases request with
      | put name item =>
          refine ih _ _ rest ?_
          unfold put
          rw [agree name mem]
          exact updated _ mem agree
      | take name =>
          rw [answers, answers, agree name mem]
          refine congrArg _ (ih _ _ rest ?_)
          unfold take
          rw [agree name mem]
          exact updated _ mem agree

/-- Put an item under the first name and take from the second: the item comes back exactly when the
key function does not tell the names apart. -/
theorem answers_put_take (key : ν → κ) (a b : ν) (item : α) :
    answers key empty [.put a item, .take b] = [if key a = key b then some item else none] := by
  by_cases h : key a = key b
  · simp [answers, put, empty, h]
  · simp [answers, put, empty, h, Function.update_of_ne (Ne.symm h)]

/-- Two key functions answer all requests about some names alike exactly when they tell the same
names apart. -/
theorem answers_eq_iff [Inhabited α] (key₁ : ν → κ₁) (key₂ : ν → κ₂) (names : Set ν) :
    (∀ requests : List (Request ν α), (∀ request ∈ requests, request.name ∈ names) →
        answers key₁ empty requests = answers key₂ empty requests) ↔
      ∀ a ∈ names, ∀ b ∈ names, key₁ a = key₁ b ↔ key₂ a = key₂ b := by
  constructor
  · intro alike a memA b memB
    have answer := alike [.put a default, .take b] (by simp [Request.name, memA, memB])
    rw [answers_put_take, answers_put_take] at answer
    by_cases h₁ : key₁ a = key₁ b <;> by_cases h₂ : key₂ a = key₂ b <;> simp_all
  · intro same requests within
    exact answers_congr same requests empty empty within fun _ _ => rfl

end FifoMap
