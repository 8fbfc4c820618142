/-
Module: Newtmq.Library.LockedLog
Purpose: Threads that append blocks of items to one log, each thread under a mutex from the first item of
  its block to the last. The log is then made of whole blocks, and the blocks of each thread stand in the
  order in which it took them.
Trusted boundary: none
Main exports: LockedLog.State, LockedLog.Action, LockedLog.step, LockedLog.step_begun,
  LockedLog.ofThread, LockedLog.Inv, LockedLog.inv_start, LockedLog.Inv.step
-/
import Mathlib.Logic.Function.Basic
import Newtmq.Library.Transition

namespace LockedLog

universe u v w

variable {τ : Type u} {β : Type v} {α : Type w}

/-- The block of each thread, with the items left, the thread that holds the mutex, and the log; with a
record of the blocks that were taken, and of those that were finished. -/
structure State (τ : Type u) (β : Type v) (α : Type w) where
  running : τ → Option (β × List α)
  holder : Option τ
  log : List α
  begun : List (τ × β)
  finished : List (τ × β)

def State.start : State τ β α := ⟨fun _ => none, none, [], [], []⟩

inductive Action (τ : Type u) (β : Type v) where
  | take (thread : τ) (block : β)
  | lock (thread : τ)
  | put (thread : τ)
  | unlock (thread : τ)

section Step

variable [DecidableEq τ] (items : β → List α)

/-- One step. The mutex is unlocked when no item of the block is left. -/
def step (s : State τ β α) : Action τ β → Option (State τ β α)
  | .take thread block =>
      if s.running thread = none then
        some { s with
          running := Function.update s.running thread (some (block, items block))
          begun := s.begun ++ [(thread, block)] }
      else none
  | .lock thread =>
      if s.holder = none ∧ s.running thread ≠ none then some { s with holder := some thread } else none
  | .put thread =>
      match s.running thread with
      | some (block, item :: rest) =>
          if s.holder = some thread then
            some { s with
              running := Function.update s.running thread (some (block, rest))
              log := s.log ++ [item] }
          else none
      | _ => none
  | .unlock thread =>
      match s.running thread with
      | some (block, []) =>
          if s.holder = some thread then
            some { s with
              running := Function.update s.running thread none
              holder := none
              finished := s.finished ++ [(thread, block)] }
          else none
      | _ => none

/-- The block that an action takes. -/
def Action.begins : Action τ β → List (τ × β)
  | .take thread block => [(thread, block)]
  | .lock _ | .put _ | .unlock _ => []

theorem step_begun {s next : State τ β α} {action : Action τ β} (taken : step items s action = some next) :
    next.begun = s.begun ++ action.begins := by
  cases action with
  | take thread block =>
      obtain ⟨-, same⟩ := Option.ite_none_right_eq_some.mp taken
      cases same
      rfl
  | lock thread =>
      obtain ⟨-, same⟩ := Option.ite_none_right_eq_some.mp taken
      cases same
      exact (List.append_nil _).symm
  | put thread | unlock thread =>
      rw [step] at taken
      split at taken
      · obtain ⟨-, same⟩ := Option.ite_none_right_eq_some.mp taken
        cases same
        exact (List.append_nil _).symm
      · cases taken

end Step

/-! ### The invariant -/

section Invariant

variable [DecidableEq τ]

/-- The blocks of a thread, in order. -/
def ofThread (thread : τ) (blocks : List (τ × β)) : List β :=
  (blocks.filter fun entry => entry.1 = thread).map Prod.snd

theorem ofThread_append (thread : τ) (first second : List (τ × β)) :
    ofThread thread (first ++ second) = ofThread thread first ++ ofThread thread second := by
  rw [ofThread, List.filter_append, List.map_append, ofThread, ofThread]

theorem ofThread_concat (thread other : τ) (blocks : List (τ × β)) (block : β) :
    ofThread other (blocks ++ [(thread, block)]) =
      ofThread other blocks ++ if thread = other then [block] else [] := by
  rw [ofThread_append]
  by_cases same : thread = other <;> simp [ofThread, same]

/-- The block that a thread is at. -/
def State.current (s : State τ β α) (thread : τ) : List β :=
  ((s.running thread).map Prod.fst).toList

/-- The log is made of the finished blocks, and of the beginning of the block of the thread that holds the
mutex. All other threads have their whole blocks before them. -/
structure Inv (items : β → List α) (s : State τ β α) : Prop where
  order : ∀ thread, ofThread thread s.begun = ofThread thread s.finished ++ s.current thread
  waiting : ∀ thread block rest, s.holder ≠ some thread → s.running thread = some (block, rest) →
    rest = items block
  free : s.holder = none → s.log = s.finished.flatMap fun entry => items entry.2
  held : ∀ thread, s.holder = some thread → ∃ block sent rest, s.running thread = some (block, rest) ∧
    items block = sent ++ rest ∧ s.log = (s.finished.flatMap fun entry => items entry.2) ++ sent

theorem inv_start (items : β → List α) : Inv items (State.start : State τ β α) where
  order _ := rfl
  waiting _ _ _ _ running := by cases running
  free _ := rfl
  held _ holds := by cases holds

theorem Inv.take {items : β → List α} {s : State τ β α} (inv : Inv items s) {thread : τ}
    (idle : s.running thread = none) (block : β) :
    Inv items { s with
      running := Function.update s.running thread (some (block, items block))
      begun := s.begun ++ [(thread, block)] } where
  order other := by
    rw [ofThread_concat, inv.order other]
    by_cases same : thread = other
    · subst same
      simp [State.current, idle]
    · simp [State.current, same, Function.update_of_ne (Ne.symm same)]
  waiting other taken rest apart running := by
    by_cases same : other = thread
    · subst same
      simp only [Function.update_self, Option.some.injEq, Prod.mk.injEq] at running
      obtain ⟨rfl, rfl⟩ := running
      rfl
    · simp only [Function.update_of_ne same] at running
      exact inv.waiting other taken rest apart running
  free := inv.free
  held other holds := by
    obtain ⟨taken, sent, rest, running, split⟩ := inv.held other holds
    have apart : other ≠ thread := by
      rintro rfl
      rw [idle] at running
      cases running
    refine ⟨taken, sent, rest, ?_, split⟩
    simp only [Function.update_of_ne apart]
    exact running

theorem Inv.lock {items : β → List α} {s : State τ β α} (inv : Inv items s) {thread : τ}
    (free : s.holder = none) (busy : s.running thread ≠ none) :
    Inv items { s with holder := some thread } where
  order := inv.order
  waiting other block rest _ running := inv.waiting other block rest (by rw [free]; simp) running
  free unheld := by cases unheld
  held other holds := by
    cases holds
    obtain ⟨⟨block, rest⟩, running⟩ := Option.ne_none_iff_exists'.mp busy
    have whole := inv.waiting thread block rest (by rw [free]; simp) running
    exact ⟨block, [], rest, running, by rw [whole]; rfl, by rw [inv.free free, List.append_nil]⟩

theorem Inv.put {items : β → List α} {s : State τ β α} (inv : Inv items s) {thread : τ} {block : β}
    {item : α} {rest : List α} (running : s.running thread = some (block, item :: rest))
    (holds : s.holder = some thread) :
    Inv items { s with
      running := Function.update s.running thread (some (block, rest))
      log := s.log ++ [item] } where
  order other := by
    by_cases same : other = thread
    · subst same
      simpa [State.current, running] using inv.order other
    · simpa [State.current, Function.update_of_ne same] using inv.order other
  waiting other taken left apart now := by
    have different : other ≠ thread := fun same => apart (same ▸ holds)
    simp only [Function.update_of_ne different] at now
    exact inv.waiting other taken left apart now
  free unheld := by
    rw [holds] at unheld
    cases unheld
  held other locked := by
    have same : thread = other := Option.some.inj (holds.symm.trans locked)
    subst same
    obtain ⟨taken, sent, left, before, split, log⟩ := inv.held thread holds
    rw [running] at before
    cases before
    refine ⟨block, sent ++ [item], rest, Function.update_self .., ?_, ?_⟩
    · rw [split, List.append_assoc]
      rfl
    · rw [log, List.append_assoc]

theorem Inv.unlock {items : β → List α} {s : State τ β α} (inv : Inv items s) {thread : τ} {block : β}
    (running : s.running thread = some (block, [])) (holds : s.holder = some thread) :
    Inv items { s with
      running := Function.update s.running thread none
      holder := none
      finished := s.finished ++ [(thread, block)] } where
  order other := by
    rw [ofThread_concat, inv.order other]
    by_cases same : thread = other
    · subst same
      simp [State.current, running]
    · simp [State.current, same, Function.update_of_ne (Ne.symm same)]
  waiting other taken rest _ now := by
    by_cases same : other = thread
    · subst same
      simp at now
    · simp only [Function.update_of_ne same] at now
      refine inv.waiting other taken rest (fun locked => same ?_) now
      exact Option.some.inj (locked.symm.trans holds)
  free _ := by
    obtain ⟨taken, sent, left, before, split, log⟩ := inv.held thread holds
    rw [running] at before
    cases before
    rw [log, List.flatMap_append, List.flatMap_singleton, split, List.append_nil]
  held other locked := by cases locked

theorem Inv.step {items : β → List α} {s next : State τ β α} {action : Action τ β} (inv : Inv items s)
    (taken : LockedLog.step items s action = some next) : Inv items next := by
  cases action with
  | take thread block =>
      obtain ⟨idle, same⟩ := Option.ite_none_right_eq_some.mp taken
      cases same
      exact inv.take idle block
  | lock thread =>
      obtain ⟨⟨free, busy⟩, same⟩ := Option.ite_none_right_eq_some.mp taken
      cases same
      exact inv.lock free busy
  | put thread =>
      rw [LockedLog.step] at taken
      split at taken
      · next block item rest running =>
          obtain ⟨holds, same⟩ := Option.ite_none_right_eq_some.mp taken
          cases same
          exact inv.put running holds
      · cases taken
  | unlock thread =>
      rw [LockedLog.step] at taken
      split at taken
      · next block running =>
          obtain ⟨holds, same⟩ := Option.ite_none_right_eq_some.mp taken
          cases same
          exact inv.unlock running holds
      · cases taken

end Invariant

end LockedLog
