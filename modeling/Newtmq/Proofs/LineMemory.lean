/-
Module: Newtmq.Proofs.LineMemory
Purpose: The code hands a line on as a pointer and a length, and some of its tests look past the line.
  What these tests find does not depend on what follows the line, up to `atoi`, which a blank value
  lets run into the next line.
Trusted boundary: none
Main exports: findFrameName_append, isContentlen_append, TailOk, getContentlen_append
-/
import Newtmq.Proofs.LineSplit
import Newtmq.Spec.StreamReader

namespace Newtmq

/-- A prefix that is no longer than `line` does not see what follows the line. -/
theorem isPrefixOf_append {w line : List UInt8} (le : w.length ≤ line.length) (tail : List UInt8) :
    w.isPrefixOf (line ++ tail) = w.isPrefixOf line := by
  rw [Bool.eq_iff_iff, List.isPrefixOf_iff_prefix, List.isPrefixOf_iff_prefix]
  constructor
  · exact fun h => List.prefix_of_prefix_length_le h (List.prefix_append line tail) le
  · exact fun h => h.trans (List.prefix_append line tail)

theorem findFrameName_append (line tail : List UInt8) :
    ∀ rows, findFrameName (line ++ tail) line.length rows = findFrameName line line.length rows
  | [] => rfl
  | name :: rows => by
      rw [findFrameName, findFrameName, findFrameName_append line tail rows]
      by_cases long : line.length < name.length
      · simp [long]
      · simp [long, isPrefixOf_append (by omega : name.length ≤ line.length) tail]

theorem isContentlen_append (line tail : List UInt8) :
    isContentlen (line ++ tail) line.length = isContentlen line line.length := by
  unfold isContentlen
  by_cases long : 15 < line.length
  · have le : (cstring "content-length:").length ≤ line.length := by
      have : (cstring "content-length:").length = 15 := by decide
      omega
    rw [isPrefixOf_append le]
  · simp [long]

/-- What may follow a line in memory: nothing, a NUL, or an LF when `atoi` stops before it. -/
def TailOk (line tail : List UInt8) : Prop :=
  tail = [] ∨ tail.head? = some 0 ∨ (tail.head? = some LF ∧ LengthInLine line)

/-- `atoi` on a value and what follows it, when that is no digit. -/
theorem atoi_append {value tail : List UInt8}
    (stop : ∀ c, tail.head? = some c → isdigit c = false)
    (found : (∃ c ∈ value, isspace c = false) ∨ tail = [] ∨ tail.head? = some 0) :
    atoi (value ++ tail) = atoi value := by
  have taken : ∀ digits : List UInt8,
      (digits ++ tail).takeWhile isdigit = digits.takeWhile isdigit := by
    intro digits
    induction digits with
    | nil =>
        cases tail with
        | nil => rfl
        | cons c more => simp [stop c rfl]
    | cons d digits ih =>
        rw [List.cons_append, List.takeWhile_cons, List.takeWhile_cons, ih]
  by_cases blank : ∃ c ∈ value, isspace c = false
  · have skipped : (value ++ tail).dropWhile isspace = value.dropWhile isspace ++ tail := by
      induction value with
      | nil => obtain ⟨c, mem, _⟩ := blank; cases mem
      | cons d value ih =>
          by_cases space : isspace d = true
          · obtain ⟨c, mem, notSpace⟩ := blank
            have inRest : ∃ c ∈ value, isspace c = false := by
              rcases List.mem_cons.mp mem with rfl | mem
              · rw [space] at notSpace
                cases notSpace
              · exact ⟨c, mem, notSpace⟩
            simp [space, ih (Or.inl inRest) inRest]
          · simp [space]
    cases number : value.dropWhile isspace with
    | nil =>
        obtain ⟨c, mem, notSpace⟩ := blank
        have := List.dropWhile_eq_nil_iff.mp number c mem
        rw [this] at notSpace
        cases notSpace
    | cons d more =>
        rw [number] at skipped
        simp only [atoi, strtol, skipped, number, List.cons_append]
        have whole := taken (d :: more)
        rw [List.cons_append] at whole
        split_ifs <;> simp only [taken, whole]
  · have spaces : ∀ c ∈ value, isspace c = true := by
      intro c mem
      by_contra h
      exact blank ⟨c, mem, by simpa using h⟩
    have allSpace : value.dropWhile isspace = [] := List.dropWhile_eq_nil_iff.mpr spaces
    have skipped : (value ++ tail).dropWhile isspace = tail.dropWhile isspace := by
      rw [List.dropWhile_append_of_pos spaces]
    rcases found with h | rfl | h
    · exact absurd h blank
    · simp
    · obtain ⟨more, rfl⟩ : ∃ more, tail = 0 :: more := by
        cases tail with
        | nil => cases h
        | cons c more => exact ⟨more, by simpa using h⟩
      have notSpace : isspace 0 = false := by decide
      simp only [atoi, strtol, skipped, allSpace, List.dropWhile_cons, notSpace]
      rfl

theorem getContentlen_append {line tail : List UInt8} (ok : TailOk line tail)
    (header : isContentlen line line.length = true) :
    getContentlen (line ++ tail) = getContentlen line := by
  have long : 15 < line.length := by
    simp only [isContentlen, Bool.and_eq_true, decide_eq_true_eq] at header
    exact header.1
  rw [getContentlen, getContentlen, List.drop_append_of_le_length (by omega)]
  apply atoi_append
  · intro c hc
    rcases ok with rfl | h | ⟨h, _⟩
    · cases hc
    · rw [h] at hc
      cases hc
      decide
    · rw [h] at hc
      cases hc
      decide
  · rcases ok with h | h | ⟨_, h⟩
    · exact Or.inr (Or.inl h)
    · exact Or.inr (Or.inr h)
    · exact Or.inl (h header)

theorem wrap32_lt (x : Int) : wrap32 x < 2147483648 := by
  have := @Int.bmod_lt x 4294967296 (by decide)
  unfold wrap32
  omega

end Newtmq
