/-
Module: Newtmq.Library.Mutex
Purpose: Calls of one thread on a value under a mutex that is not recursive. Locking a mutex that the
  thread holds never proceeds, so a critical section inside another one has no result.
Trusted boundary: none
Main exports: Mutex.Guarded, Mutex.lock, Mutex.critical, Mutex.critical_free, Mutex.critical_held
-/
import Mathlib.Data.Option.Basic

namespace Mutex

universe u v

variable {σ : Type u} {α : Type v}

/-- A value, and whether the thread holds the mutex of the value. -/
structure Guarded (σ : Type u) where
  value : σ
  held : Bool
deriving DecidableEq, Repr

/-- The mutex is released. -/
def Guarded.free (value : σ) : Guarded σ := ⟨value, false⟩

@[simp] theorem Guarded.free_value (value : σ) : (Guarded.free value).value = value := rfl

/-- Lock the mutex. `none` means that the thread waits for itself. -/
def lock (s : Guarded σ) : Option (Guarded σ) :=
  if s.held then none else some { s with held := true }

def unlock (s : Guarded σ) : Guarded σ := { s with held := false }

@[simp] theorem unlock_eq (s : Guarded σ) : unlock s = Guarded.free s.value := rfl

/-- Lock the mutex, run the body, and unlock the mutex. -/
def critical (body : Guarded σ → Option (α × Guarded σ)) (s : Guarded σ) :
    Option (α × Guarded σ) :=
  (lock s).bind fun s => (body s).map fun (result, s) => (result, unlock s)

/-- A critical section does not proceed inside another one. -/
theorem critical_held (body : Guarded σ → Option (α × Guarded σ)) {s : Guarded σ}
    (held : s.held = true) : critical body s = none := by
  rw [critical, lock, if_pos held]
  rfl

/-- A critical section that begins with the mutex free ends with the mutex free. -/
theorem critical_free (body : Guarded σ → Option (α × Guarded σ)) (value : σ) :
    critical body (Guarded.free value) =
      (body ⟨value, true⟩).map fun (result, s) => (result, Guarded.free s.value) :=
  rfl

end Mutex
