/-
Module: Newtmq.Library.KeyedList
Purpose: Lists whose elements have different keys, and what a change or a removal of the element at one
  place does to them.
Trusted boundary: none
Main exports: KeyedList.map_modify_eq, KeyedList.map_modify, KeyedList.mem_modify,
  KeyedList.mem_eraseIdx_iff, KeyedList.place_eq, KeyedList.exists_flatMap_modify, KeyedList.Lists
-/
import Mathlib.Data.List.Nodup

namespace KeyedList

universe u v

variable {α : Type u} {κ : Type v} {key : α → κ} {xs : List α}

/-- A change at one place changes the list of values at that place. -/
theorem map_modify_eq {β : Type v} (g : α → β) {xs : List α} (place : Nat) {f : α → α} {h : β → β}
    (same : ∀ x, g (f x) = h (g x)) : (xs.modify place f).map g = (xs.map g).modify place h := by
  apply List.ext_getElem?
  intro i
  rw [List.getElem?_map, List.getElem?_modify, List.getElem?_modify, List.getElem?_map]
  cases xs[i]? with
  | none => simp
  | some x => by_cases here : place = i <;> simp [here, same]

/-- A change that keeps a value keeps the list of these values. -/
theorem map_modify {β : Type v} (g : α → β) {xs : List α} (place : Nat) {f : α → α}
    (same : ∀ x, g (f x) = g x) : (xs.modify place f).map g = xs.map g := by
  rw [map_modify_eq g place (h := id) same]
  exact List.modify_id place _

/-- An element is at one place only. -/
theorem place_eq (unique : (xs.map key).Nodup) {i j : Nat} {x y : α} (first : xs[i]? = some x)
    (second : xs[j]? = some y) (same : key x = key y) : i = j := by
  have left : (xs.map key)[i]? = some (key x) := by simp [first]
  have right : (xs.map key)[j]? = some (key x) := by simp [second, same]
  obtain ⟨inside, at_i⟩ := List.getElem?_eq_some_iff.mp left
  obtain ⟨inside', at_j⟩ := List.getElem?_eq_some_iff.mp right
  exact (List.Nodup.getElem_inj_iff unique).mp (at_i.trans at_j.symm)

/-- After a change at one place, an element is the changed one, or an old one with another key. -/
theorem mem_modify (unique : (xs.map key).Nodup) {place : Nat} {f : α → α} {x : α}
    (mem : x ∈ xs.modify place f) :
    (∃ old, xs[place]? = some old ∧ x = f old) ∨
      (x ∈ xs ∧ ∀ old, xs[place]? = some old → key x ≠ key old) := by
  obtain ⟨i, found⟩ := List.mem_iff_getElem?.mp mem
  rw [List.getElem?_modify] at found
  by_cases same : place = i
  · subst same
    simp only [if_true, Option.map_eq_map, Option.map_eq_some_iff] at found
    obtain ⟨old, here, rfl⟩ := found
    exact Or.inl ⟨old, here, rfl⟩
  · have kept : xs[i]? = some x := by simpa [same] using found
    refine Or.inr ⟨List.mem_of_getElem? kept, ?_⟩
    intro old here equal
    exact same (place_eq unique here kept equal.symm)

/-- After a change at one place, the changed element and those with another key are there. -/
theorem mem_modify_iff (unique : (xs.map key).Nodup) {place : Nat} {f : α → α} {x old : α}
    (here : xs[place]? = some old) :
    x ∈ xs.modify place f ↔ x = f old ∨ (x ∈ xs ∧ key x ≠ key old) := by
  constructor
  · intro mem
    rcases mem_modify unique mem with ⟨other, found, rfl⟩ | ⟨mem, apart⟩
    · obtain rfl : old = other := by simpa [here] using found
      exact Or.inl rfl
    · exact Or.inr ⟨mem, apart old here⟩
  · rintro (rfl | ⟨mem, apart⟩)
    · apply List.mem_of_getElem?
      rw [List.getElem?_modify, here]
      simp
    · obtain ⟨i, found⟩ := List.mem_iff_getElem?.mp mem
      have other : place ≠ i := by
        rintro rfl
        rw [here] at found
        cases found
        exact apart rfl
      apply List.mem_of_getElem? (i := i)
      rw [List.getElem?_modify, found]
      simp [other]

/-- Of a concatenation, a change at one place changes one part. -/
theorem exists_flatMap_modify {β : Type v} {xs : List α} (g : α → List β) {place : Nat} {x : α}
    (here : xs[place]? = some x) :
    ∃ before after, xs.flatMap g = before ++ g x ++ after ∧
      ∀ f, (xs.modify place f).flatMap g = before ++ g (f x) ++ after := by
  obtain ⟨inside, rfl⟩ := List.getElem?_eq_some_iff.mp here
  refine ⟨(xs.take place).flatMap g, (xs.drop (place + 1)).flatMap g, ?_, fun f => ?_⟩
  · conv_lhs => rw [← List.take_append_drop place xs, List.drop_eq_getElem_cons inside]
    rw [List.flatMap_append, List.flatMap_cons, List.append_assoc]
  · rw [List.modify_eq_take_cons_drop inside, List.flatMap_append, List.flatMap_cons,
      List.append_assoc]

/-- After a removal, the elements with another key are there. -/
theorem mem_eraseIdx_iff (unique : (xs.map key).Nodup) {place : Nat} {x old : α}
    (here : xs[place]? = some old) : x ∈ xs.eraseIdx place ↔ x ∈ xs ∧ key x ≠ key old := by
  rw [List.mem_eraseIdx_iff_getElem?]
  constructor
  · rintro ⟨i, other, found⟩
    exact ⟨List.mem_of_getElem? found, fun same => other (place_eq unique found here same)⟩
  · rintro ⟨mem, apart⟩
    obtain ⟨i, found⟩ := List.mem_iff_getElem?.mp mem
    refine ⟨i, ?_, found⟩
    rintro rfl
    rw [here] at found
    cases found
    exact apart rfl

/-! ### The values of a partial function -/

section Lists

variable {κ : Type u} {β : Type v}

/-- The list has the values of a partial function, each once, with its argument. -/
structure Lists (f : κ → Option β) (xs : List (κ × β)) : Prop where
  unique : (xs.map Prod.fst).Nodup
  mem : ∀ k b, (k, b) ∈ xs ↔ f k = some b

theorem lists_nil {f : κ → Option β} (none : ∀ k, f k = .none) : Lists f [] :=
  ⟨List.nodup_nil, fun k b => by simp [none k]⟩

/-- A new value. -/
theorem Lists.insert {f g : κ → Option β} {xs : List (κ × β)} (lists : Lists f xs) {k : κ} {b : β}
    (absent : f k = none) (here : g k = some b) (others : ∀ other, other ≠ k → g other = f other) :
    Lists g ((k, b) :: xs) where
  unique := by
    rw [List.map_cons, List.nodup_cons]
    refine ⟨fun mem => ?_, lists.unique⟩
    obtain ⟨⟨_, old⟩, memEntry, rfl⟩ := List.mem_map.mp mem
    rw [(lists.mem _ old).mp memEntry] at absent
    cases absent
  mem other value := by
    rw [List.mem_cons, lists.mem]
    by_cases same : other = k
    · subst same
      rw [absent, here]
      simp [eq_comm]
    · rw [others other same]
      simp [same]

/-- A value is given up. -/
theorem Lists.erase {f g : κ → Option β} {xs : List (κ × β)} (lists : Lists f xs) {k : κ} {b : β}
    (here : f k = some b) (gone : g k = none) (others : ∀ other, other ≠ k → g other = f other) :
    ∃ rest, xs.Perm ((k, b) :: rest) ∧ Lists g rest := by
  obtain ⟨before, after, rfl⟩ := List.append_of_mem ((lists.mem k b).mpr here)
  have perm : (before ++ (k, b) :: after).Perm ((k, b) :: (before ++ after)) := List.perm_middle
  have unique := (perm.map Prod.fst).nodup_iff.mp lists.unique
  rw [List.map_cons, List.nodup_cons] at unique
  refine ⟨before ++ after, perm, unique.2, fun other value => ?_⟩
  by_cases same : other = k
  · subst same
    rw [gone]
    simp only [reduceCtorEq, iff_false]
    exact fun mem => unique.1 (List.mem_map.mpr ⟨_, mem, rfl⟩)
  · rw [others other same, ← lists.mem, perm.mem_iff, List.mem_cons]
    simp [same]

/-- The function does not change. -/
theorem Lists.congr {f g : κ → Option β} {xs : List (κ × β)} (lists : Lists f xs)
    (same : ∀ k, g k = f k) : Lists g xs :=
  ⟨lists.unique, fun k b => by rw [same, lists.mem]⟩

end Lists

end KeyedList
