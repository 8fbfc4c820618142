/-
Module: Newtmq.Proofs.LineSplit
Purpose: What the line splitter, the command table and the length conversion compute: one equation
  for each function, from which every later module reasons.
Trusted boundary: none
Main exports: nonStop, ssplitScan_eq, ssplit_eq, ssplit_line, ssplit_open, findFrameName_eq_some,
  findFrameName_of_known, atoi_decimal
-/
import Newtmq.Core.Frame
import Mathlib.Data.List.Infix
import Mathlib.Data.List.DropRight

namespace Newtmq

/-! ### The splitter -/

/-- The bytes that do not end a line once it has begun. -/
def nonStop (isBody : Bool) (c : UInt8) : Bool :=
  !(c = 0 || (c = LF && !isBody))

/-- The bytes at which `ssplit` finds an empty line. -/
def emptyStart (isBody : Bool) (c : UInt8) : Bool :=
  c = 0 || (!isBody && (c = LF || c = CR))

theorem ssplitScan_eq (isBody : Bool) (bytes : List UInt8) :
    ∀ count ≤ LD_MAX, ssplitScan isBody bytes count =
      (if bytes.all (nonStop isBody) ∧ count + bytes.length ≤ LD_MAX then .error else .success,
        min (count + (bytes.takeWhile (nonStop isBody)).length) LD_MAX) := by
  induction bytes with
  | nil =>
      intro count le
      simp [ssplitScan, le]
  | cons c rest ih =>
      intro count le
      by_cases stop : nonStop isBody c = true
      · have passes : (c = 0 || (c = LF && !isBody)) = false := by
          rwa [nonStop, Bool.not_eq_true'] at stop
        by_cases full : LD_MAX ≤ count
        · have exact : count = LD_MAX := by omega
          simp [ssplitScan, passes, stop, exact]
        · have step : ssplitScan isBody (c :: rest) count = ssplitScan isBody rest (count + 1) := by
            simp [ssplitScan, passes, full]
          rw [step, ih (count + 1) (by omega)]
          simp [stop, Nat.add_assoc, Nat.add_comm 1]
      · have stops : (c = 0 || (c = LF && !isBody)) = true := by
          rwa [nonStop, Bool.not_eq_true', Bool.not_eq_false] at stop
        have first : ssplitScan isBody (c :: rest) count = (.success, count) := by
          rw [ssplitScan, stops]
          simp
        simp [first, stop, le]

/-- The result of `ssplit` on a line that begins with `c`. -/
theorem ssplit_eq (isBody : Bool) (c : UInt8) (rest : List UInt8) :
    ssplit (c :: rest) isBody =
      if emptyStart isBody c then (.success, 0)
      else (if rest.all (nonStop isBody) ∧ rest.length + 1 ≤ LD_MAX then .error else .success,
        min ((rest.takeWhile (nonStop isBody)).length + 1) LD_MAX) := by
  have one : (1 : Nat) ≤ LD_MAX := by decide
  have start : (isBl (c :: rest) || (!isBody && isNl (c :: rest))) = emptyStart isBody c := by
    simp [isBl, isNl, emptyStart]
  rw [ssplit, start, List.tail_cons, ssplitScan_eq isBody rest 1 one]
  simp [Nat.add_comm 1]

/-- At a byte that starts no line, `ssplit` reports an empty line. -/
theorem ssplit_empty {isBody : Bool} {c : UInt8} (rest : List UInt8)
    (h : emptyStart isBody c = true) : ssplit (c :: rest) isBody = (.success, 0) := by
  rw [ssplit_eq, if_pos h]

/-- A line is never longer than the memory it is looked for in. -/
theorem ssplit_le (isBody : Bool) {start : List UInt8} (nonempty : start ≠ []) :
    (ssplit start isBody).2 ≤ start.length := by
  obtain ⟨c, rest, rfl⟩ := List.exists_cons_of_ne_nil nonempty
  have taken := (List.takeWhile_prefix (nonStop isBody) (l := rest)).length_le
  rw [ssplit_eq]
  split
  · exact Nat.zero_le _
  · simp only [List.length_cons]
    omega

/-- The lines `ssplit` can find: a first byte that starts a line and no byte that ends one. -/
structure LineText (isBody : Bool) (line : List UInt8) : Prop where
  nonempty : line ≠ []
  start : ∀ c, line.head? = some c → emptyStart isBody c = false
  inside : line.all (nonStop isBody) = true

theorem LineText.first {isBody : Bool} {first second : List UInt8}
    (text : LineText isBody (first ++ second)) (nonempty : first ≠ []) : LineText isBody first where
  nonempty := nonempty
  start c head := text.start c (by rw [List.head?_append, head]; rfl)
  inside := by
    have inside := text.inside
    rw [List.all_append, Bool.and_eq_true] at inside
    exact inside.1

/-- A line of at most `LD_MAX` bytes is found whole when a byte that ends it follows. -/
theorem ssplit_line {isBody : Bool} {line : List UInt8} (text : LineText isBody line)
    (short : line.length ≤ LD_MAX) {t : UInt8} (ends : nonStop isBody t = false)
    (rest : List UInt8) : ssplit (line ++ t :: rest) isBody = (.success, line.length) := by
  obtain ⟨c, more, rfl⟩ := List.exists_cons_of_ne_nil text.nonempty
  have start := text.start c rfl
  have inside := text.inside
  simp only [List.all_cons, Bool.and_eq_true] at inside
  rw [List.cons_append, ssplit_eq, start]
  have taken : (more ++ t :: rest).takeWhile (nonStop isBody) = more := by
    rw [List.takeWhile_append_of_pos (by simpa using inside.2), List.takeWhile_cons, ends]
    simp
  rw [taken]
  simp only [List.length_cons] at short
  simp [ends, short]

/-- Without a byte that ends it, a line of at most `LD_MAX` bytes is unfinished. -/
theorem ssplit_open {isBody : Bool} {line : List UInt8} (text : LineText isBody line)
    (short : line.length ≤ LD_MAX) : ssplit line isBody = (.error, line.length) := by
  obtain ⟨c, more, rfl⟩ := List.exists_cons_of_ne_nil text.nonempty
  have start := text.start c rfl
  have inside := text.inside
  simp only [List.all_cons, Bool.and_eq_true] at inside
  have taken : more.takeWhile (nonStop isBody) = more :=
    List.takeWhile_eq_self_iff.mpr (by simpa using inside.2)
  simp only [List.length_cons] at short
  rw [ssplit_eq, start, taken]
  simp [inside.2, short]

/-- A longer line is cut after `LD_MAX` bytes. -/
theorem ssplit_full {isBody : Bool} {line : List UInt8} (text : LineText isBody line)
    (full : line.length = LD_MAX) (c : UInt8) (rest : List UInt8) :
    ssplit (line ++ c :: rest) isBody = (.success, LD_MAX) := by
  obtain ⟨first, more, rfl⟩ := List.exists_cons_of_ne_nil text.nonempty
  have start := text.start first rfl
  have inside := text.inside
  simp only [List.all_cons, Bool.and_eq_true] at inside
  simp only [List.length_cons] at full
  rw [List.cons_append, ssplit_eq, start,
    List.takeWhile_append_of_pos (by simpa using inside.2)]
  simp only [List.length_append, List.length_cons, Bool.false_eq_true, if_false]
  have notShort : ¬ more.length + (rest.length + 1) + 1 ≤ LD_MAX := by omega
  have least : min (more.length + ((c :: rest).takeWhile (nonStop isBody)).length + 1) LD_MAX
      = LD_MAX := by omega
  simp [notShort, least]

/-! ### The command table -/

/-- No command of the table starts another one. -/
theorem finfoArr_prefix_free :
    ∀ w ∈ finfoArr, ∀ w' ∈ finfoArr, w <+: w' → w = w' := by
  decide

theorem finfoArr_ne_nil : ∀ w ∈ finfoArr, w ≠ [] := by
  decide

theorem findFrameName_eq_some {data : List UInt8} {len : Nat} {w : List UInt8} :
    ∀ {rows}, findFrameName data len rows = some w → w ∈ rows ∧ w.length ≤ len ∧ w <+: data
  | [], h => by simp [findFrameName] at h
  | name :: rows, h => by
      rw [findFrameName] at h
      split at h
      · obtain ⟨mem, short, pre⟩ := findFrameName_eq_some h
        exact ⟨List.mem_cons_of_mem _ mem, short, pre⟩
      · split at h
        · next short pre =>
            cases Option.some.inj h
            exact ⟨by simp, by omega, List.isPrefixOf_iff_prefix.mp pre⟩
        · obtain ⟨mem, short, pre⟩ := findFrameName_eq_some h
          exact ⟨List.mem_cons_of_mem _ mem, short, pre⟩

theorem findFrameName_eq_none {data : List UInt8} {len : Nat} :
    ∀ {rows}, findFrameName data len rows = none ↔
      ∀ w ∈ rows, w.length ≤ len → ¬ w <+: data
  | [] => by simp [findFrameName]
  | name :: rows => by
      rw [findFrameName]
      split
      · next long =>
          rw [findFrameName_eq_none]
          constructor
          · intro h w mem short
            rcases List.mem_cons.mp mem with rfl | mem
            · omega
            · exact h w mem short
          · exact fun h w mem => h w (List.mem_cons_of_mem _ mem)
      · split
        · next short pre =>
            simp only [reduceCtorEq, false_iff]
            intro h
            exact h name (by simp) (by omega) (List.isPrefixOf_iff_prefix.mp pre)
        · next pre =>
            rw [findFrameName_eq_none]
            constructor
            · intro h w mem short
              rcases List.mem_cons.mp mem with rfl | mem
              · exact fun hp => pre (List.isPrefixOf_iff_prefix.mpr hp)
              · exact h w mem short
            · exact fun h w mem => h w (List.mem_cons_of_mem _ mem)

/-- The command that starts the memory is the one that is found. -/
theorem findFrameName_of_known {data w : List UInt8} {len : Nat} (mem : w ∈ finfoArr)
    (short : w.length ≤ len) (pre : w <+: data) : findFrameName data len finfoArr = some w := by
  cases h : findFrameName data len finfoArr with
  | none => exact absurd pre (findFrameName_eq_none.mp h w mem short)
  | some other =>
      obtain ⟨otherMem, _, otherPre⟩ := findFrameName_eq_some h
      rcases List.prefix_or_prefix_of_prefix pre otherPre with le | le
      · rw [finfoArr_prefix_free w mem other otherMem le]
      · rw [finfoArr_prefix_free other otherMem w mem le]

theorem isFrameName_eq_error {name : List UInt8} {len : Nat} :
    isFrameName name len = .error ↔ ∀ w ∈ finfoArr, w.length ≤ len → ¬ w <+: name := by
  rw [← findFrameName_eq_none, isFrameName]
  cases findFrameName name len finfoArr <;> simp

/-! ### Numbers -/

theorem isdigit_not_space {c : UInt8} (h : isdigit c = true) : isspace c = false := by
  simp only [isdigit, isspace, Bool.and_eq_true, decide_eq_true_eq, Bool.or_eq_false_iff,
    decide_eq_false_iff_not, Bool.and_eq_false_iff, UInt8.le_iff_toNat_le, ← UInt8.toNat_inj,
    UInt8.reduceToNat] at h ⊢
  omega

theorem isdigit_not_sign {c : UInt8} (h : isdigit c = true) : c ≠ 45 ∧ c ≠ 43 := by
  simp only [isdigit, Bool.and_eq_true, decide_eq_true_eq, ne_eq, UInt8.le_iff_toNat_le,
    ← UInt8.toNat_inj, UInt8.reduceToNat] at h ⊢
  omega

/-- `atoi` reads a numeral that another byte follows. -/
theorem atoi_decimal {digits : List UInt8} {n : Nat} (nonempty : digits ≠ [])
    (digit : ∀ c ∈ digits, isdigit c = true) (value : digitsValue 0 digits = n)
    (bound : n < 2147483648) {t : UInt8} (stop : isdigit t = false) (rest : List UInt8) :
    atoi (digits ++ t :: rest) = n := by
  obtain ⟨c, more, rfl⟩ := List.exists_cons_of_ne_nil nonempty
  have first := digit c (by simp)
  have notSpace := isdigit_not_space first
  have notSign := isdigit_not_sign first
  have taken : ((c :: more) ++ t :: rest).takeWhile isdigit = c :: more := by
    rw [List.takeWhile_append_of_pos digit, List.takeWhile_cons, stop]
    simp
  have skipped : ((c :: more) ++ t :: rest).dropWhile isspace = (c :: more) ++ t :: rest := by
    simp [notSpace]
  rw [List.cons_append] at skipped taken ⊢
  simp only [atoi, strtol, skipped, notSign.1, notSign.2, or_self, if_false, taken, value]
  rw [wrap32_of_bounds] <;> omega

end Newtmq
