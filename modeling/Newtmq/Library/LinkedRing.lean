/-
Module: Newtmq.Library.LinkedRing
Purpose: Circular doubly linked lists on a heap of nodes, as pointers from node to node: removal of a
  node, and the loop that goes through a list while its body removes the node it is at.
Trusted boundary: none
Main exports: LinkedRing.Links, LinkedRing.remove, LinkedRing.Segment, LinkedRing.IsRing,
  LinkedRing.IsRing.remove, LinkedRing.Cursor, LinkedRing.eachSafe, LinkedRing.eachSafe_returns
-/
import Mathlib.Data.List.Nodup
import Mathlib.Logic.Function.Basic
import Newtmq.Library.Loop

namespace LinkedRing

universe u v

variable {ν : Type u}

/-- The pointers of the nodes. `none` is the null pointer. -/
structure Links (ν : Type u) where
  next : ν → Option ν
  prev : ν → Option ν

/-- Make the two neighbours of a node point to each other, and clear its own pointers. `none` means that a
null pointer was followed. -/
def remove [DecidableEq ν] (links : Links ν) (entry : ν) : Option (Links ν) :=
  match links.prev entry, links.next entry with
  | some before, some after =>
      some {
        next := Function.update (Function.update links.next before (some after)) entry none
        prev := Function.update (Function.update links.prev after (some before)) entry none }
  | _, _ => none

/-- The pointers lead from `start` through the nodes to `stop`, and back. -/
def Segment (links : Links ν) : ν → List ν → ν → Prop
  | start, [], stop => links.next start = some stop ∧ links.prev stop = some start
  | start, node :: nodes, stop =>
      (links.next start = some node ∧ links.prev node = some start) ∧ Segment links node nodes stop

/-- A list with this head holds these nodes, in this order. -/
structure IsRing (links : Links ν) (head : ν) (nodes : List ν) : Prop where
  linked : Segment links head nodes head
  distinct : (head :: nodes).Nodup

instance decidableSegment [DecidableEq ν] (links : Links ν) :
    ∀ (start : ν) (nodes : List ν) (stop : ν), Decidable (Segment links start nodes stop)
  | _, [], _ => inferInstanceAs (Decidable (_ ∧ _))
  | _, node :: nodes, stop =>
      @instDecidableAnd _ _ _ (decidableSegment links node nodes stop)

instance [DecidableEq ν] (links : Links ν) (head : ν) (nodes : List ν) :
    Decidable (IsRing links head nodes) :=
  decidable_of_iff (Segment links head nodes head ∧ (head :: nodes).Nodup)
    ⟨fun ring => ⟨ring.1, ring.2⟩, fun ring => ⟨ring.linked, ring.distinct⟩⟩

/-! ### Segments -/

section
variable {links later : Links ν} {start stop : ν}

theorem segment_append {before after : List ν} {node : ν} :
    Segment links start (before ++ node :: after) stop ↔
      Segment links start before node ∧ Segment links node after stop := by
  induction before generalizing start with
  | nil => exact Iff.rfl
  | cons first before ih =>
      rw [List.cons_append, Segment, Segment, ih]
      exact and_assoc.symm

theorem Segment.next_eq {nodes : List ν} (segment : Segment links start nodes stop) :
    links.next start = some (nodes.headD stop) := by
  cases nodes with
  | nil => exact segment.1
  | cons node nodes => exact segment.1.1

/-- The node before the last one is a node of the segment. -/
theorem Segment.prev_eq {nodes : List ν} (segment : Segment links start nodes stop) :
    ∃ before ∈ start :: nodes, links.prev stop = some before := by
  induction nodes generalizing start with
  | nil => exact ⟨start, List.mem_cons_self, segment.2⟩
  | cons node nodes ih =>
      obtain ⟨before, mem, found⟩ := ih segment.2
      exact ⟨before, List.mem_cons_of_mem start mem, found⟩

/-- A segment depends on the pointers between its nodes only. -/
theorem Segment.congr {nodes : List ν} (segment : Segment links start nodes stop)
    (next : ∀ node ∈ start :: nodes, later.next node = links.next node)
    (prev : ∀ node ∈ nodes ++ [stop], later.prev node = links.prev node) :
    Segment later start nodes stop := by
  induction nodes generalizing start with
  | nil =>
      rw [Segment, next start List.mem_cons_self, prev stop List.mem_cons_self]
      exact segment
  | cons node nodes ih =>
      rw [Segment, next start List.mem_cons_self, prev node List.mem_cons_self]
      refine ⟨segment.1, ih segment.2 ?_ ?_⟩
      · intro other mem
        exact next other (List.mem_cons_of_mem start mem)
      · intro other mem
        exact prev other (List.mem_cons_of_mem node mem)

/-- A segment whose last pointer is turned to another node. -/
theorem Segment.retarget {nodes : List ν} {before other : ν} (segment : Segment links start nodes stop)
    (distinct : (start :: nodes).Nodup) (last : links.prev stop = some before)
    (next : ∀ node ∈ start :: nodes, node ≠ before → later.next node = links.next node)
    (prev : ∀ node ∈ nodes, later.prev node = links.prev node)
    (turned : later.next before = some other ∧ later.prev other = some before) :
    Segment later start nodes other := by
  induction nodes generalizing start with
  | nil =>
      obtain rfl : start = before := Option.some.inj (segment.2.symm.trans last)
      exact turned
  | cons node nodes ih =>
      obtain ⟨here, distinct⟩ := List.nodup_cons.mp distinct
      obtain ⟨found, mem, same⟩ := segment.2.prev_eq
      obtain rfl : found = before := Option.some.inj (same.symm.trans last)
      have apart : start ≠ found := fun same => here (same ▸ mem)
      rw [Segment, next start List.mem_cons_self apart, prev node List.mem_cons_self]
      refine ⟨segment.1, ih segment.2 distinct ?_ ?_⟩
      · intro other mem
        exact next other (List.mem_cons_of_mem start mem)
      · intro other mem
        exact prev other (List.mem_cons_of_mem node mem)

/-- The pointer after any point of the list is no null pointer. -/
theorem IsRing.next_some {head : ν} {before rest : List ν}
    (ring : IsRing links head (before ++ rest)) :
    ∃ after, links.next (rest.headD head) = some after := by
  cases rest with
  | nil => exact ⟨_, ring.linked.next_eq⟩
  | cons node rest => exact ⟨_, (segment_append.mp ring.linked).2.next_eq⟩

end

/-! ### Removal -/

variable [DecidableEq ν] {links : Links ν} {head : ν}

/-- The removed node is gone, and the others are as they were. -/
theorem IsRing.remove {before after : List ν} {node : ν}
    (ring : IsRing links head (before ++ node :: after)) :
    ∃ later, remove links node = some later ∧ IsRing later head (before ++ after) := by
  obtain ⟨linked, distinct⟩ := ring
  obtain ⟨first, second⟩ := segment_append.mp linked
  obtain ⟨last, mem, prev⟩ := first.prev_eq
  have next := second.next_eq
  have apart : (head :: before ++ node :: after).Nodup := distinct
  rw [List.nodup_append] at apart
  obtain ⟨distinctBefore, distinctAfter, disjoint⟩ := apart
  obtain ⟨notAfter, distinctAfter⟩ := List.nodup_cons.mp distinctAfter
  have notBefore : ∀ other ∈ head :: before, other ≠ node := fun other here =>
    disjoint other here node List.mem_cons_self
  have notHead : head ≠ node := notBefore head List.mem_cons_self
  have lastNode : last ≠ node := notBefore last mem
  have other : after.headD head ≠ node ∧ after.headD head ∉ before := by
    cases after with
    | nil => exact ⟨notHead, (List.nodup_cons.mp distinctBefore).1⟩
    | cons first after =>
        constructor
        · rintro rfl
          exact notAfter List.mem_cons_self
        · intro here
          exact disjoint first (List.mem_cons_of_mem head here) first
            (List.mem_cons_of_mem node List.mem_cons_self) rfl
  refine ⟨_, by rw [LinkedRing.remove, prev, next], ?_, ?_⟩
  · have turned : Segment
        { next := Function.update (Function.update links.next last (some (after.headD head))) node none
          prev := Function.update (Function.update links.prev (after.headD head) (some last)) node none }
        head before (after.headD head) := by
      apply first.retarget distinctBefore prev
      · intro one here apart
        simp [notBefore one here, apart]
      · intro one here
        have apart : one ≠ after.headD head := fun same => other.2 (same ▸ here)
        simp only [Function.update_of_ne (notBefore one (List.mem_cons_of_mem head here)),
          Function.update_of_ne apart]
      · simp only [Function.update_of_ne lastNode, Function.update_of_ne other.1, Function.update_self,
          and_self]
    cases after with
    | nil =>
        rw [List.append_nil]
        exact turned
    | cons one after =>
        refine segment_append.mpr ⟨turned, second.2.congr ?_ ?_⟩
        · intro two here
          have apart : two ≠ last := fun same =>
            disjoint last mem two (List.mem_cons_of_mem node here) same.symm
          have notNode : two ≠ node := fun same => notAfter (same ▸ here)
          simp [notNode, apart]
        · intro two here
          have facts : two ≠ node ∧ two ≠ one := by
            rcases List.mem_append.mp here with inside | atHead
            · refine ⟨fun same => notAfter (same ▸ List.mem_cons_of_mem one inside), ?_⟩
              exact fun same => (List.nodup_cons.mp distinctAfter).1 (same ▸ inside)
            · rw [List.mem_singleton.mp atHead]
              exact ⟨notHead, disjoint head List.mem_cons_self one
                (List.mem_cons_of_mem node List.mem_cons_self)⟩
          simp [facts.1, facts.2]
  · have split : (head :: before ++ after).Nodup := by
      rw [List.nodup_append]
      exact ⟨distinctBefore, distinctAfter, fun one here other there =>
        disjoint one here other (List.mem_cons_of_mem node there)⟩
    exact split

/-! ### Going through a list -/

/-- The loop is at `pos`, and has looked for the node after it. -/
structure Cursor (ν : Type u) (σ : Type v) where
  pos : ν
  saved : ν
  links : Links ν
  state : σ

variable {σ : Type v}

/-- One pass of a loop through a list. The node after the next one is looked for when the body has been
run, from the next one, which had been found before. -/
def eachSafe (head : ν) (body : ν → Links ν × σ → Option (Links ν × σ)) (cursor : Cursor ν σ) :
    Loop.Step (Cursor ν σ) (Option (Links ν × σ)) :=
  if cursor.pos = head then .leave (some (cursor.links, cursor.state))
  else
    match body cursor.pos (cursor.links, cursor.state) with
    | none => .leave none
    | some (links, state) =>
        match links.next cursor.saved with
        | none => .leave none
        | some after => .again ⟨cursor.saved, after, links, state⟩

/-- The start of the loop: the first two nodes are looked for. -/
def cursorAt (head : ν) (links : Links ν) (state : σ) : Option (Cursor ν σ) :=
  (links.next head).bind fun pos => (links.next pos).map fun saved => ⟨pos, saved, links, state⟩

/-- The body leaves the list as it is at a node that is kept, and removes any other node. -/
def KeepsOrRemoves (keep : ν → Bool) (act : σ → ν → σ)
    (body : ν → Links ν × σ → Option (Links ν × σ)) : Prop :=
  ∀ node links state, body node (links, state) =
    if keep node then some (links, act state node)
    else (remove links node).map fun links => (links, act state node)

variable {keep : ν → Bool} {act : σ → ν → σ} {body : ν → Links ν × σ → Option (Links ν × σ)}

/-- With part of the list behind it, the loop goes through the rest. -/
theorem eachSafe_rest (keeps : KeepsOrRemoves keep act body) {rest : List ν} :
    ∀ {before : List ν} {links : Links ν} {saved : ν} {state : σ},
      IsRing links head (before ++ rest) → links.next (rest.headD head) = some saved →
      ∃ later, Loop.run (eachSafe head body) (rest.length + 1)
          ⟨rest.headD head, saved, links, state⟩ = some (some (later, rest.foldl act state)) ∧
        IsRing later head (before ++ rest.filter keep) := by
  induction rest with
  | nil =>
      intro before links saved state ring _
      refine ⟨links, ?_, ring⟩
      apply Loop.run_succ_leave
      exact if_pos rfl
  | cons node rest ih =>
      intro prior links saved state ring next
      have apart : node ≠ head := by
        rintro rfl
        exact (List.nodup_cons.mp ring.distinct).1 (List.mem_append_right _ List.mem_cons_self)
      have onward : saved = rest.headD head := by
        have found := (segment_append.mp ring.linked).2.next_eq
        exact Option.some.inj (next.symm.trans found)
      subst onward
      -- What the body leaves is a list with the nodes before, and the rest.
      have visited : ∃ middle before, body node (links, state) = some (middle, act state node) ∧
          IsRing middle head (before ++ rest) ∧
          before ++ rest.filter keep = prior ++ (node :: rest).filter keep := by
        rw [keeps node links state]
        cases kept : keep node with
        | true =>
            refine ⟨links, prior ++ [node], rfl, ?_, ?_⟩
            · rw [List.append_assoc]
              exact ring
            · rw [List.filter_cons_of_pos kept, List.append_assoc]
              rfl
        | false =>
            obtain ⟨later, removed, left⟩ := ring.remove
            refine ⟨later, prior, by rw [removed]; rfl, left, ?_⟩
            rw [List.filter_cons_of_neg (by rw [kept]; exact Bool.false_ne_true)]
      obtain ⟨middle, before, acted, left, same⟩ := visited
      obtain ⟨after, found⟩ := left.next_some
      obtain ⟨later, run, result⟩ := ih left found
      refine ⟨later, ?_, by rw [← same]; exact result⟩
      have pass : eachSafe head body ⟨node, rest.headD head, links, state⟩ =
          .again ⟨rest.headD head, after, middle, act state node⟩ := by
        rw [eachSafe, if_neg apart, acted]
        dsimp only
        rw [found]
      exact (Loop.run_succ_again pass _).trans run

/-- The loop ends. It acts once on each node, in list order, and leaves the nodes that are kept. -/
theorem eachSafe_returns (keeps : KeepsOrRemoves keep act body) {nodes : List ν} {links : Links ν}
    (ring : IsRing links head nodes) (state : σ) :
    ∃ cursor later, cursorAt head links state = some cursor ∧
      Loop.Returns (eachSafe head body) cursor (some (later, nodes.foldl act state)) ∧
      IsRing later head (nodes.filter keep) := by
  have whole : IsRing links head ([] ++ nodes) := ring
  have first := ring.linked.next_eq
  obtain ⟨saved, second⟩ := whole.next_some
  obtain ⟨later, run, left⟩ := eachSafe_rest keeps whole second
  refine ⟨⟨nodes.headD head, saved, links, state⟩, later, ?_, ⟨_, run⟩, left⟩
  rw [cursorAt, first, Option.bind_some, second]
  rfl

end LinkedRing
