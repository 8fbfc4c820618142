/-
Module: Newtmq.Library.BlockLog
Purpose: Threads that append blocks of items to a log, one item at a time. The items of a block belong
  to one channel. When nobody appends to a channel while another one is in the middle of a block there,
  the blocks of the channel stay whole.
Trusted boundary: none
Main exports: BlockLog.State, BlockLog.Action, BlockLog.step, BlockLog.OneAtATime,
  BlockLog.WholeBlocks, BlockLog.wholeBlocks_of_oneAtATime
-/
import Newtmq.Library.Transition
import Mathlib.Logic.Function.Basic

namespace BlockLog

universe u v w x

variable {τ : Type u} {β : Type v} {α : Type w} {κ : Type x}

/-- What each thread is in the middle of, with the items left, the log, and the blocks that were
finished, in order. -/
structure State (τ : Type u) (β : Type v) (α : Type w) where
  running : τ → Option (β × List α)
  log : List α
  finished : List β

def State.start : State τ β α := ⟨fun _ => none, [], []⟩

/-- A thread takes a block, or appends the next item of its block. -/
inductive Action (τ : Type u) (β : Type v) where
  | take (thread : τ) (block : β)
  | put (thread : τ)

section Step

variable [DecidableEq τ] (items : β → List α) (may : τ → β → Bool)

/-- One step. `may` tells which blocks a thread can take. -/
def step (s : State τ β α) : Action τ β → Option (State τ β α)
  | .take thread block =>
      if s.running thread = none ∧ may thread block = true ∧ items block ≠ [] then
        some { s with running := Function.update s.running thread (some (block, items block)) }
      else none
  | .put thread =>
      match s.running thread with
      | some (block, item :: rest) =>
          if rest = [] then
            some
              { running := Function.update s.running thread none
                log := s.log ++ [item]
                finished := s.finished ++ [block] }
          else
            some { s with
              running := Function.update s.running thread (some (block, rest))
              log := s.log ++ [item] }
      | _ => none

end Step

variable {items : β → List α} {may : τ → β → Bool} {channel : α → κ} {channelOf : β → κ}

/-- The thread has appended a part of a block of the channel, and not all of it. -/
def State.Amid (items : β → List α) (channelOf : β → κ) (s : State τ β α) (thread : τ) (c : κ) :
    Prop :=
  ∃ block sent rest, s.running thread = some (block, rest) ∧ channelOf block = c ∧
    items block = sent ++ rest ∧ sent ≠ []

/-- An item is appended only when no other thread is in the middle of a block of its channel. -/
def OneAtATime (items : β → List α) (channelOf : β → κ) (s : State τ β α) : Action τ β → Prop
  | .take _ _ => True
  | .put thread => ∀ block rest, s.running thread = some (block, rest) →
      ∀ other, other ≠ thread → ¬ s.Amid items channelOf other (channelOf block)

section Whole

variable [DecidableEq κ]

/-- The log of a channel: the finished blocks in some order, and the beginning of at most one block
that a thread is in the middle of. -/
def WholeBlocks (items : β → List α) (channel : α → κ) (channelOf : β → κ) (s : State τ β α) : Prop :=
  ∀ c, ∃ (whole : List β) (sent : List α), whole.Perm (s.finished.filter fun block => channelOf block = c) ∧
    (s.log.filter fun item => channel item = c) = whole.flatMap items ++ sent ∧
    (sent = [] ∨ ∃ thread block rest, s.running thread = some (block, rest) ∧ channelOf block = c ∧
      items block = sent ++ rest)

/-- What is kept: the blocks of a channel stand in the order in which they were finished. -/
structure Inv (items : β → List α) (channel : α → κ) (channelOf : β → κ) (s : State τ β α) :
    Prop where
  running : ∀ thread block rest, s.running thread = some (block, rest) →
    ∃ sent, items block = sent ++ rest
  logs : ∀ c, ∃ sent : List α, (s.log.filter fun item => channel item = c) =
      (s.finished.filter fun block => channelOf block = c).flatMap items ++ sent ∧
    (sent = [] ∧ (∀ thread, ¬ s.Amid items channelOf thread c) ∨
      ∃ thread block rest, s.running thread = some (block, rest) ∧ channelOf block = c ∧
        items block = sent ++ rest ∧ sent ≠ [])

theorem inv_start : Inv items channel channelOf (State.start : State τ β α) where
  running _ _ _ running := by cases running
  logs c := by
    refine ⟨[], rfl, Or.inl ⟨rfl, ?_⟩⟩
    rintro thread ⟨block, sent, rest, running, _⟩
    cases running

theorem Inv.wholeBlocks {s : State τ β α} (inv : Inv items channel channelOf s) :
    WholeBlocks items channel channelOf s := by
  intro c
  obtain ⟨sent, log, amid⟩ := inv.logs c
  refine ⟨_, sent, List.Perm.refl _, log, ?_⟩
  rcases amid with ⟨none, _⟩ | ⟨thread, block, rest, running, same, split, _⟩
  · exact Or.inl none
  · exact Or.inr ⟨thread, block, rest, running, same, split⟩

/-- Taking a block changes no log. -/
theorem Inv.take [DecidableEq τ] {s : State τ β α} (inv : Inv items channel channelOf s) {thread : τ}
    (idle : s.running thread = none) (block : β) :
    Inv items channel channelOf
      { s with running := Function.update s.running thread (some (block, items block)) } where
  running other taken rest running := by
    by_cases same : other = thread
    · rw [same] at running
      simp only [Function.update_self, Option.some.injEq, Prod.mk.injEq] at running
      obtain ⟨rfl, rfl⟩ := running
      exact ⟨[], rfl⟩
    · simp only [Function.update_of_ne same] at running
      exact inv.running other taken rest running
  logs c := by
    obtain ⟨sent, log, amid⟩ := inv.logs c
    refine ⟨sent, log, ?_⟩
    rcases amid with ⟨none, nobody⟩ | ⟨other, taken, rest, running, same⟩
    · refine Or.inl ⟨none, ?_⟩
      rintro other ⟨taken, before, rest, running, channel, split, nonempty⟩
      by_cases same : other = thread
      · rw [same] at running
        simp only [Function.update_self, Option.some.injEq, Prod.mk.injEq] at running
        obtain ⟨rfl, rfl⟩ := running
        exact nonempty (List.self_eq_append_left.mp split)
      · simp only [Function.update_of_ne same] at running
        exact nobody other ⟨taken, before, rest, running, channel, split, nonempty⟩
    · have apart : other ≠ thread := by
        rintro rfl
        rw [idle] at running
        cases running
      refine Or.inr ⟨other, taken, rest, ?_, same⟩
      simp only [Function.update_of_ne apart]
      exact running

/-- The part of its block that a thread has appended is the end of the log of the channel. -/
theorem Inv.sent {s : State τ β α} (inv : Inv items channel channelOf s) {thread : τ} {block : β}
    {rest : List α} (running : s.running thread = some (block, rest))
    (alone : ∀ other, other ≠ thread → ¬ s.Amid items channelOf other (channelOf block)) :
    ∃ sent, items block = sent ++ rest ∧
      (s.log.filter fun item => channel item = channelOf block) =
        (s.finished.filter fun other => channelOf other = channelOf block).flatMap items ++ sent := by
  obtain ⟨sent, log, amid⟩ := inv.logs (channelOf block)
  rcases amid with ⟨rfl, nobody⟩ | ⟨other, taken, left, here, same, split, nonempty⟩
  · obtain ⟨before, split⟩ := inv.running thread block rest running
    have none : before = [] := by
      by_contra nonempty
      exact nobody thread ⟨block, before, rest, running, rfl, split, nonempty⟩
    exact ⟨[], by rw [split, none], log⟩
  · by_cases apart : other = thread
    · rw [apart, running] at here
      cases here
      exact ⟨sent, split, log⟩
    · exact absurd ⟨taken, sent, left, here, same, split, nonempty⟩ (alone other apart)

/-- Appending an item to one channel changes no other one. -/
theorem Inv.elsewhere [DecidableEq τ] {s next : State τ β α} (inv : Inv items channel channelOf s)
    {thread : τ} {block : β} {rest : List α} (running : s.running thread = some (block, rest))
    (others : ∀ other, other ≠ thread → next.running other = s.running other)
    (own : ∀ taken left, next.running thread = some (taken, left) → taken = block) {c : κ}
    (apart : channelOf block ≠ c)
    (log : (next.log.filter fun item => channel item = c) =
      s.log.filter fun item => channel item = c)
    (finished : (next.finished.filter fun other => channelOf other = c) =
      s.finished.filter fun other => channelOf other = c) :
    ∃ sent : List α, (next.log.filter fun item => channel item = c) =
        (next.finished.filter fun block => channelOf block = c).flatMap items ++ sent ∧
      (sent = [] ∧ (∀ thread, ¬ next.Amid items channelOf thread c) ∨
        ∃ thread block rest, next.running thread = some (block, rest) ∧ channelOf block = c ∧
          items block = sent ++ rest ∧ sent ≠ []) := by
  obtain ⟨sent, old, amid⟩ := inv.logs c
  rw [log, finished]
  refine ⟨sent, old, ?_⟩
  rcases amid with ⟨none, nobody⟩ | ⟨other, taken, left, here, same, split⟩
  · refine Or.inl ⟨none, ?_⟩
    rintro other ⟨taken, before, left, here, same, split⟩
    by_cases mine : other = thread
    · rw [mine] at here
      exact apart (own taken left here ▸ same)
    · rw [others other mine] at here
      exact nobody other ⟨taken, before, left, here, same, split⟩
  · have mine : other ≠ thread := by
      rintro rfl
      rw [running] at here
      cases here
      exact apart same
    exact Or.inr ⟨other, taken, left, (others other mine).trans here, same, split⟩

/-- Appending an item, when nobody else is in the middle of a block of its channel. -/
theorem Inv.put [DecidableEq τ] {s next : State τ β α} (inv : Inv items channel channelOf s)
    (uniform : ∀ block, ∀ item ∈ items block, channel item = channelOf block) {thread : τ} {block : β}
    {item : α} {rest : List α} (running : s.running thread = some (block, item :: rest))
    (alone : ∀ other, other ≠ thread → ¬ s.Amid items channelOf other (channelOf block))
    (others : ∀ other, other ≠ thread → next.running other = s.running other)
    (log : next.log = s.log ++ [item])
    (own : (rest = [] ∧ next.running thread = none ∧ next.finished = s.finished ++ [block]) ∨
      (next.running thread = some (block, rest) ∧ next.finished = s.finished)) :
    Inv items channel channelOf next := by
  obtain ⟨sent, split, here⟩ := inv.sent running alone
  have itemChannel : channel item = channelOf block :=
    uniform block item (by rw [split]; exact List.mem_append_right _ List.mem_cons_self)
  have alone' : ∀ other, other ≠ thread → ¬ next.Amid items channelOf other (channelOf block) := by
    rintro other apart ⟨taken, before, left, there, same, cut⟩
    rw [others other apart] at there
    exact alone other apart ⟨taken, before, left, there, same, cut⟩
  constructor
  case running =>
    intro other taken left there
    by_cases mine : other = thread
    · rw [mine] at there
      rcases own with ⟨_, idle, _⟩ | ⟨now, _⟩
      · rw [idle] at there
        cases there
      · rw [now] at there
        cases there
        exact ⟨sent ++ [item], by rw [split, List.append_assoc]; rfl⟩
    · rw [others other mine] at there
      exact inv.running other taken left there
  case logs =>
    intro c
    by_cases same : channelOf block = c
    · subst same
      have longer : (next.log.filter fun item => channel item = channelOf block) =
          (s.finished.filter fun other => channelOf other = channelOf block).flatMap items ++
            (sent ++ [item]) := by
        rw [log, List.filter_append, here]
        simp [itemChannel]
      rcases own with ⟨rfl, idle, finished⟩ | ⟨now, finished⟩
      · refine ⟨[], ?_, Or.inl ⟨rfl, ?_⟩⟩
        · rw [longer, finished, List.filter_append, List.flatMap_append]
          simp [split]
        · intro other amid
          by_cases mine : other = thread
          · obtain ⟨taken, before, left, there, _⟩ := amid
            rw [mine, idle] at there
            cases there
          · exact alone' other mine amid
      · refine ⟨sent ++ [item], by rw [longer, finished], Or.inr ⟨thread, block, rest, now, rfl, ?_⟩⟩
        rw [split, List.append_assoc]
        exact ⟨rfl, by simp⟩
    · apply inv.elsewhere running others _ same
      · rw [log, List.filter_append]
        simp [itemChannel, same]
      · rcases own with ⟨_, _, finished⟩ | ⟨_, finished⟩
        · rw [finished, List.filter_append]
          simp [same]
        · rw [finished]
      · intro taken left there
        rcases own with ⟨_, idle, _⟩ | ⟨now, _⟩
        · rw [idle] at there
          cases there
        · rw [now] at there
          cases there
          rfl

/-- The rule: when items are appended one block at a time, the blocks of every channel are whole. -/
theorem wholeBlocks_of_oneAtATime [DecidableEq τ]
    (uniform : ∀ block, ∀ item ∈ items block, channel item = channelOf block)
    {s : State τ β α}
    (reaches : Transition.Reaches (step items may) (OneAtATime items channelOf) State.start s) :
    WholeBlocks items channel channelOf s := by
  refine Inv.wholeBlocks (reaches.invariant ?keeps inv_start)
  case keeps =>
    intro s action next inv allowed taken
    cases action with
    | take thread block =>
        obtain ⟨⟨idle, _⟩, same⟩ := Option.ite_none_right_eq_some.mp taken
        cases same
        exact inv.take idle block
    | put thread =>
        simp only [step] at taken
        split at taken
        · next block item rest running =>
            have alone := allowed block (item :: rest) running
            split at taken
            · next last =>
                cases taken
                refine inv.put uniform running alone ?_ rfl (Or.inl ⟨last, ?_, rfl⟩)
                · exact fun other apart => Function.update_of_ne apart _ _
                · exact Function.update_self _ _ _
            · cases taken
              refine inv.put uniform running alone ?_ rfl (Or.inr ⟨?_, rfl⟩)
              · exact fun other apart => Function.update_of_ne apart _ _
              · exact Function.update_self _ _ _
        · cases taken

end Whole

end BlockLog
