/-
Module: Newtmq.Library.RingFamily
Purpose: Several circular lists on one heap: nodes are put into a list, taken out of it, and put into
  another. Each operation on the pointers does to the lists what its name says, to one list only, and the
  plain loop through a list meets its nodes in order.
Trusted boundary: none
Main exports: LinkedRing.single, LinkedRing.insert, LinkedRing.addFirst, LinkedRing.addLast,
  LinkedRing.IsRing.insert, LinkedRing.NodeLists, LinkedRing.Operation, LinkedRing.perform,
  LinkedRing.NodeLists.Performs, LinkedRing.Holds, LinkedRing.Holds.perform, LinkedRing.eachPlain,
  LinkedRing.eachPlain_run, LinkedRing.eachPlain_returns
-/
import Newtmq.Library.LinkedRing

namespace LinkedRing

universe u v

variable {ν : Type u} [DecidableEq ν]

/-- Make a node the head of a list without nodes. -/
def single (links : Links ν) (head : ν) : Links ν where
  next := Function.update links.next head (some head)
  prev := Function.update links.prev head (some head)

/-- Put a node between two others. The pointers are written in this order: `prev` of `after`, `next` and
`prev` of the node, `next` of `before`. -/
def insert (links : Links ν) (node before after : ν) : Links ν where
  next := Function.update (Function.update links.next node (some after)) before (some node)
  prev := Function.update (Function.update links.prev after (some node)) node (some before)

/-- Put a node after the head. `none` means that a null pointer was followed. -/
def addFirst (links : Links ν) (node head : ν) : Option (Links ν) :=
  (links.next head).map fun first => insert links node head first

/-- Put a node before the head, that is at the end. -/
def addLast (links : Links ν) (node head : ν) : Option (Links ν) :=
  (links.prev head).map fun last => insert links node last head

variable {links later : Links ν} {head : ν}

/-! ### One list -/

theorem isRing_single (links : Links ν) (head : ν) : IsRing (single links head) head [] where
  linked := ⟨Function.update_self .., Function.update_self ..⟩
  distinct := List.nodup_singleton head

omit [DecidableEq ν] in
/-- A list depends on the pointers of its own nodes only. -/
theorem IsRing.congr {nodes : List ν} (ring : IsRing links head nodes)
    (next : ∀ node ∈ head :: nodes, later.next node = links.next node)
    (prev : ∀ node ∈ head :: nodes, later.prev node = links.prev node) :
    IsRing later head nodes where
  linked := ring.linked.congr next fun node mem => prev node <| by
    rcases List.mem_append.mp mem with inside | atHead
    · exact List.mem_cons_of_mem head inside
    · rw [List.mem_singleton.mp atHead]
      exact List.mem_cons_self
  distinct := ring.distinct

omit [DecidableEq ν] in
/-- A list is the way to a place in it and the way back to its head. -/
theorem IsRing.split {before after : List ν} (ring : IsRing links head (before ++ after)) :
    Segment links head before (after.headD head) ∧
      ∀ first rest, after = first :: rest → Segment links first rest head := by
  cases after with
  | nil =>
      have linked := ring.linked
      rw [List.append_nil] at linked
      exact ⟨linked, nofun⟩
  | cons first rest =>
      obtain ⟨front, back⟩ := segment_append.mp ring.linked
      refine ⟨front, ?_⟩
      rintro _ _ ⟨⟩
      exact back

/-- A node that is put between two neighbours is between them, and the others are as they were. -/
theorem IsRing.insert {before after : List ν} {node last : ν}
    (ring : IsRing links head (before ++ after)) (new : node ∉ head :: (before ++ after))
    (isLast : links.prev (after.headD head) = some last) :
    IsRing (insert links node last (after.headD head)) head (before ++ node :: after) := by
  obtain ⟨front, back⟩ := ring.split
  obtain ⟨found, mem, same⟩ := front.prev_eq
  obtain rfl : found = last := Option.some.inj (same.symm.trans isLast)
  have distinct : (head :: before ++ after).Nodup := ring.distinct
  rw [List.nodup_append] at distinct
  obtain ⟨distinctBefore, distinctAfter, disjoint⟩ := distinct
  have notBefore : ∀ other ∈ head :: before, other ≠ node := by
    rintro other here rfl
    exact new (List.mem_append_left after here)
  have notAfter : ∀ other ∈ after, other ≠ node := by
    rintro other here rfl
    exact new (List.mem_append_right (head :: before) here)
  have notHead : head ≠ node := notBefore head List.mem_cons_self
  have lastNode : found ≠ node := notBefore found mem
  have stop : after.headD head ≠ node ∧ after.headD head ∉ before := by
    cases after with
    | nil => exact ⟨notHead, (List.nodup_cons.mp distinctBefore).1⟩
    | cons first after =>
        refine ⟨notAfter first List.mem_cons_self, fun here => ?_⟩
        exact disjoint first (List.mem_cons_of_mem head here) first List.mem_cons_self rfl
  constructor
  · refine segment_append.mpr ⟨?_, ?_⟩
    · apply front.retarget distinctBefore isLast
      · intro one here apart
        simp only [LinkedRing.insert, Function.update_of_ne apart, Function.update_of_ne (notBefore one here)]
      · intro one here
        have apart : one ≠ after.headD head := fun same => stop.2 (same ▸ here)
        simp only [LinkedRing.insert, Function.update_of_ne (notBefore one (List.mem_cons_of_mem head here)),
          Function.update_of_ne apart]
      · simp only [LinkedRing.insert, Function.update_self, and_self]
    · -- from the new node on
      have here : (LinkedRing.insert links node found (after.headD head)).next node =
            some (after.headD head) ∧
          (LinkedRing.insert links node found (after.headD head)).prev (after.headD head) = some node := by
        simp only [LinkedRing.insert, Function.update_of_ne lastNode.symm, Function.update_of_ne stop.1,
          Function.update_self, and_self]
      cases after with
      | nil => exact here
      | cons first after =>
          refine ⟨here, (back first after rfl).congr ?_ ?_⟩
          · intro one inside
            have apart : one ≠ found := fun same => disjoint found mem one inside same.symm
            simp only [LinkedRing.insert, Function.update_of_ne apart,
              Function.update_of_ne (notAfter one inside)]
          · intro one inside
            have facts : one ≠ node ∧ one ≠ first := by
              rcases List.mem_append.mp inside with within | atHead
              · refine ⟨notAfter one (List.mem_cons_of_mem first within), ?_⟩
                exact fun same => (List.nodup_cons.mp distinctAfter).1 (same ▸ within)
              · rw [List.mem_singleton.mp atHead]
                exact ⟨notHead, disjoint head List.mem_cons_self first List.mem_cons_self⟩
            simp only [LinkedRing.insert, List.headD_cons, Function.update_of_ne facts.1,
              Function.update_of_ne facts.2]
  · have split : (head :: before ++ node :: after).Nodup := by
      rw [List.nodup_append]
      refine ⟨distinctBefore, List.nodup_cons.mpr ⟨fun here => notAfter node here rfl, distinctAfter⟩, ?_⟩
      intro one here other there
      rcases List.mem_cons.mp there with rfl | inside
      · exact notBefore one here
      · exact disjoint one here other inside
    exact split

/-- The first node of a list. -/
theorem IsRing.addFirst {nodes : List ν} {node : ν} (ring : IsRing links head nodes)
    (new : node ∉ head :: nodes) :
    LinkedRing.addFirst links node head = some (LinkedRing.insert links node head (nodes.headD head)) ∧
      IsRing (LinkedRing.insert links node head (nodes.headD head)) head (node :: nodes) := by
  have whole : IsRing links head ([] ++ nodes) := ring
  have front := whole.split.1
  refine ⟨?_, whole.insert new front.2⟩
  rw [LinkedRing.addFirst, front.1, Option.map_some]

/-- The last node of a list. -/
theorem IsRing.addLast {nodes : List ν} {node : ν} (ring : IsRing links head nodes)
    (new : node ∉ head :: nodes) :
    ∃ last ∈ head :: nodes,
      LinkedRing.addLast links node head = some (LinkedRing.insert links node last head) ∧
        IsRing (LinkedRing.insert links node last head) head (nodes ++ [node]) := by
  have whole : IsRing links head (nodes ++ []) := by rwa [List.append_nil]
  obtain ⟨last, mem, prev⟩ := ring.linked.prev_eq
  refine ⟨last, mem, ?_, ?_⟩
  · rw [LinkedRing.addLast, prev, Option.map_some]
  · exact whole.insert (by rwa [List.append_nil]) prev

/-! ### The pointers that an operation writes -/

theorem insert_frame {node before after other : ν} (one : other ≠ node) (two : other ≠ before)
    (three : other ≠ after) :
    (insert links node before after).next other = links.next other ∧
      (insert links node before after).prev other = links.prev other := by
  simp only [insert, Function.update_of_ne one, Function.update_of_ne two, Function.update_of_ne three,
    and_self]

theorem single_frame {other : ν} (apart : other ≠ head) :
    (single links head).next other = links.next other ∧
      (single links head).prev other = links.prev other := by
  simp only [single, Function.update_of_ne apart, and_self]

/-- Removing a node of a list writes to nodes of this list only. -/
theorem remove_frame {nodes : List ν} {node other : ν} (ring : IsRing links head nodes)
    (mem : node ∈ nodes) (outside : other ∉ head :: nodes) (removed : remove links node = some later) :
    later.next other = links.next other ∧ later.prev other = links.prev other := by
  obtain ⟨before, after, rfl⟩ := List.append_of_mem mem
  obtain ⟨front, back⟩ := segment_append.mp ring.linked
  obtain ⟨last, memLast, prev⟩ := front.prev_eq
  have next := back.next_eq
  rw [remove, prev, next] at removed
  cases removed
  have inside : ∀ one ∈ head :: (before ++ node :: after), other ≠ one := by
    rintro one here rfl
    exact outside here
  have apartNode := inside node (List.mem_cons_of_mem head mem)
  have apartLast : other ≠ last := by
    apply inside
    rcases List.mem_cons.mp memLast with rfl | within
    · exact List.mem_cons_self
    · exact List.mem_cons_of_mem head (List.mem_append_left _ within)
  have apartNext : other ≠ after.headD head := by
    apply inside
    cases after with
    | nil => exact List.mem_cons_self
    | cons first after =>
        exact List.mem_cons_of_mem head
          (List.mem_append_right before (List.mem_cons_of_mem node List.mem_cons_self))
  simp only [Function.update_of_ne apartNode, Function.update_of_ne apartLast,
    Function.update_of_ne apartNext, and_self]

/-! ### Several lists -/

/-- The nodes of each list, by its head. -/
abbrev NodeLists (ν : Type u) := ν → Option (List ν)

/-- The node is no head, and in no list. -/
structure NodeLists.Free (lists : NodeLists ν) (node : ν) : Prop where
  noHead : lists node = none
  outside : ∀ head nodes, lists head = some nodes → node ∉ nodes

inductive Operation (ν : Type u) where
  | init (head : ν)
  | addFirst (node head : ν)
  | addLast (node head : ν)
  | remove (node : ν)
deriving DecidableEq, Repr

/-- An operation on the pointers. -/
def perform (links : Links ν) : Operation ν → Option (Links ν)
  | .init head => some (single links head)
  | .addFirst node head => addFirst links node head
  | .addLast node head => addLast links node head
  | .remove node => remove links node

/-- An operation on the lists, when it may be called. A head that is made anew loses its nodes; a node that
is added is in no list; a node that is removed is in one. -/
inductive NodeLists.Performs (lists : NodeLists ν) : Operation ν → NodeLists ν → Prop where
  | init (head : ν) (outside : ∀ other nodes, lists other = some nodes → head ∉ nodes) :
      Performs lists (.init head) (Function.update lists head (some []))
  | addFirst (node : ν) {head : ν} {nodes : List ν} (here : lists head = some nodes)
      (free : lists.Free node) :
      Performs lists (.addFirst node head) (Function.update lists head (some (node :: nodes)))
  | addLast (node : ν) {head : ν} {nodes : List ν} (here : lists head = some nodes)
      (free : lists.Free node) :
      Performs lists (.addLast node head) (Function.update lists head (some (nodes ++ [node])))
  | remove {head node : ν} {before after : List ν} (here : lists head = some (before ++ node :: after)) :
      Performs lists (.remove node) (Function.update lists head (some (before ++ after)))

/-- The pointers hold the lists, and no node is in two of them. -/
structure Holds (links : Links ν) (lists : NodeLists ν) : Prop where
  ring : ∀ head nodes, lists head = some nodes → IsRing links head nodes
  apart : ∀ head nodes other others, lists head = some nodes → lists other = some others →
    head ≠ other → List.Disjoint (head :: nodes) (other :: others)

variable {lists lists' : NodeLists ν}

/-- One list is changed, by writing to nodes that are in no other list. -/
theorem Holds.update {nodes : List ν} (holds : Holds links lists) (ring : IsRing later head nodes)
    (frame : ∀ other others, other ≠ head → lists other = some others → ∀ node ∈ other :: others,
      later.next node = links.next node ∧ later.prev node = links.prev node)
    (apart : ∀ other others, other ≠ head → lists other = some others →
      List.Disjoint (head :: nodes) (other :: others)) :
    Holds later (Function.update lists head (some nodes)) where
  ring other others found := by
    by_cases same : other = head
    · subst same
      rw [Function.update_self] at found
      cases found
      exact ring
    · rw [Function.update_of_ne same] at found
      have kept := frame other others same found
      exact (holds.ring other others found).congr (fun node mem => (kept node mem).1)
        fun node mem => (kept node mem).2
  apart one ones other others foundOne foundOther different := by
    rw [Function.update_apply] at foundOne foundOther
    split at foundOne
    · next isHead =>
        subst isHead
        rw [if_neg (Ne.symm different)] at foundOther
        cases foundOne
        exact apart other others (Ne.symm different) foundOther
    · next notHead =>
        split at foundOther
        · next isHead =>
            subst isHead
            cases foundOther
            exact fun node inOne inHead => apart one ones notHead foundOne inHead inOne
        · exact holds.apart one ones other others foundOne foundOther different

omit [DecidableEq ν] in
/-- A free node is not in the list of a head, nor the head itself. -/
theorem NodeLists.Free.not_mem {node other : ν} {others : List ν} (free : lists.Free node)
    (found : lists other = some others) : node ∉ other :: others := by
  rw [List.mem_cons, not_or]
  refine ⟨?_, free.outside other others found⟩
  rintro rfl
  rw [free.noHead] at found
  cases found

/-- A node that is put into a list from outside. -/
theorem Holds.insert {nodes nodes' : List ν} {node before after : ν} (holds : Holds links lists)
    (here : lists head = some nodes) (free : lists.Free node) (inBefore : before ∈ head :: nodes)
    (inAfter : after ∈ head :: nodes) (ring : IsRing (insert links node before after) head nodes')
    (members : ∀ other ∈ nodes', other = node ∨ other ∈ nodes) :
    Holds (LinkedRing.insert links node before after) (Function.update lists head (some nodes')) := by
  apply holds.update ring
  · intro other others different found one mem
    have apart := holds.apart head nodes other others here found (Ne.symm different)
    apply insert_frame
    · rintro rfl
      exact free.not_mem found mem
    · rintro rfl
      exact apart inBefore mem
    · rintro rfl
      exact apart inAfter mem
  · intro other others different found one inHere inOther
    have apart := holds.apart head nodes other others here found (Ne.symm different)
    rcases List.mem_cons.mp inHere with rfl | inside
    · exact apart List.mem_cons_self inOther
    · rcases members one inside with rfl | old
      · exact free.not_mem found inOther
      · exact apart (List.mem_cons_of_mem head old) inOther

omit [DecidableEq ν] in
theorem headD_mem (nodes : List ν) (head : ν) : nodes.headD head ∈ head :: nodes := by
  cases nodes with
  | nil => exact List.mem_cons_self
  | cons node nodes => exact List.mem_cons_of_mem head List.mem_cons_self

/-- Every operation follows no null pointer, and does to the lists what its name says. -/
theorem Holds.perform {operation : Operation ν} (holds : Holds links lists)
    (performs : lists.Performs operation lists') :
    ∃ later, LinkedRing.perform links operation = some later ∧ Holds later lists' := by
  cases performs with
  | init head outside =>
      refine ⟨_, rfl, holds.update (isRing_single links head) ?_ ?_⟩
      · intro other others different found node mem
        apply single_frame
        rintro rfl
        rcases List.mem_cons.mp mem with rfl | inside
        · exact different rfl
        · exact outside other others found inside
      · intro other others different found node inHere inOther
        rw [List.mem_singleton.mp inHere] at inOther
        rcases List.mem_cons.mp inOther with rfl | inside
        · exact different rfl
        · exact outside other others found inside
  | @addFirst node head nodes here free =>
      obtain ⟨added, ring⟩ := (holds.ring head nodes here).addFirst (free.not_mem here)
      refine ⟨_, added, holds.insert here free List.mem_cons_self (headD_mem nodes head) ring ?_⟩
      exact fun other mem => List.mem_cons.mp mem
  | @addLast node head nodes here free =>
      obtain ⟨last, mem, added, ring⟩ := (holds.ring head nodes here).addLast (free.not_mem here)
      refine ⟨_, added, holds.insert here free mem List.mem_cons_self ring ?_⟩
      intro other inside
      rcases List.mem_append.mp inside with old | new
      · exact Or.inr old
      · exact Or.inl (List.mem_singleton.mp new)
  | @remove head node before after here =>
      have ring := holds.ring _ _ here
      obtain ⟨later, removed, left⟩ := ring.remove
      have inside : ∀ one ∈ head :: (before ++ after), one ∈ head :: (before ++ node :: after) := by
        intro one mem
        simp only [List.mem_cons, List.mem_append] at mem ⊢
        exact mem.imp_right fun mem => mem.imp_right Or.inr
      refine ⟨later, removed, holds.update left ?_ ?_⟩
      · intro other others different found one mem
        have apart := holds.apart _ _ other others here found (Ne.symm different)
        exact remove_frame ring (List.mem_append_right before List.mem_cons_self)
          (fun within => apart within mem) removed
      · intro other others different found one inHere inOther
        exact holds.apart _ _ other others here found (Ne.symm different) (inside one inHere) inOther

/-! ### The plain loop -/

variable {σ : Type v}

/-- One pass of a loop through a list whose body leaves the pointers alone. -/
def eachPlain (links : Links ν) (head : ν) (act : σ → ν → σ) (at_ : ν × σ) :
    Loop.Step (ν × σ) (Option σ) :=
  if at_.1 = head then .leave (some at_.2)
  else
    match links.next at_.1 with
    | none => .leave none
    | some next => .again (next, act at_.2 at_.1)

/-- The loop ends after a pass for each node and one more, and acts on the nodes in list order. -/
theorem eachPlain_run {nodes : List ν} (ring : IsRing links head nodes) (act : σ → ν → σ)
    (state : σ) :
    Loop.run (eachPlain links head act) (nodes.length + 1) (nodes.headD head, state) =
      some (some (nodes.foldl act state)) := by
  -- with part of the list behind it, the loop goes through the rest
  have rest : ∀ (after before : List ν) (state : σ), nodes = before ++ after →
      Loop.run (eachPlain links head act) (after.length + 1) (after.headD head, state) =
        some (some (after.foldl act state)) := by
    intro after
    induction after with
    | nil =>
        intro before state _
        apply Loop.run_succ_leave
        exact if_pos rfl
    | cons node after ih =>
        intro before state parts
        have apart : node ≠ head := by
          rintro rfl
          have distinct := ring.distinct
          rw [parts] at distinct
          exact (List.nodup_cons.mp distinct).1 (List.mem_append_right _ List.mem_cons_self)
        have next : links.next node = some (after.headD head) := by
          have linked := ring.linked
          rw [parts] at linked
          exact (segment_append.mp linked).2.next_eq
        have pass : eachPlain links head act (node, state) =
            .again (after.headD head, act state node) := by
          rw [eachPlain, if_neg apart]
          dsimp only
          rw [next]
        exact (Loop.run_succ_again pass _).trans
          (ih (before ++ [node]) (act state node) (by rw [parts, List.append_assoc]; rfl))
  exact rest nodes [] state rfl

theorem eachPlain_returns {nodes : List ν} (ring : IsRing links head nodes) (act : σ → ν → σ)
    (state : σ) :
    ∃ first, links.next head = some first ∧
      Loop.Returns (eachPlain links head act) (first, state) (some (nodes.foldl act state)) :=
  ⟨nodes.headD head, ring.linked.next_eq, _, eachPlain_run ring act state⟩

end LinkedRing
