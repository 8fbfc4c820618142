/-
Module: Newtmq.Core.Common
Purpose: The constants and helper functions of `common.h` and `common.c`, with the pieces of the C
  library that the server's own functions call: C strings, `atoi`, 32-bit wrap-around.
Trusted boundary: human-reviewed spec
Main exports: Ret, LF, CR, LD_MAX, cstring, cstr, wrap32, getHash, genRandom, atoi
-/
import Mathlib.Data.List.Basic
import Mathlib.Data.List.TakeWhile

namespace Newtmq

/-- The two return codes of the server, `RET_SUCCESS` and `RET_ERROR`. -/
inductive Ret where
  | success
  | error
deriving DecidableEq, Repr, Inhabited

/-- The new-line character. -/
def LF : UInt8 := 10

/-- The carriage return, which `IS_NL` takes for a new line as well. -/
def CR : UInt8 := 13

/-- `LD_MAX`, the size of the data array of one `linedata_t`. -/
def LD_MAX : Nat := 1024

/-- The bytes of a string literal of the source, without its terminating NUL. -/
def cstring (literal : String) : List UInt8 :=
  literal.toList.map fun c => c.toNat.toUInt8

/-- The C string that starts at the first byte of some memory: its bytes before the first NUL. -/
def cstr (memory : List UInt8) : List UInt8 :=
  memory.takeWhile (· ≠ 0)

/-- The value that a 32-bit `int` holds after an operation with the exact result `x`. -/
def wrap32 (x : Int) : Int :=
  Int.bmod x 4294967296

/-- `get_hash`: 64-bit arithmetic on `unsigned long`, over the characters before the NUL. -/
def getHash (str : List UInt8) : UInt64 :=
  (cstr str).foldl (fun hash c => ((hash <<< 5) + hash) + c.toUInt64) 5381

/-- The table `alphanum` of `gen_random`. -/
def alphanum : List UInt8 :=
  cstring "0123456789ABCDEFGHIJKLMNOPQRSTUVWXYZabcdefghijklmnopqrstuvwxyz"

/-- `gen_random`: fill an array of `len` characters. `rand` gives the results of the successive
calls of `rand()`, and `pos` counts the calls made before. The last character is the NUL. -/
def genRandom (rand : Nat → Nat) (pos len : Nat) : List UInt8 :=
  (List.range (len - 1)).map (fun i => alphanum.getD (rand (pos + i) % alphanum.length) 0) ++ [0]

/-- The place of the element that a loop over a list keeps when each match overwrites the one before:
the last element that satisfies `p`. -/
def lastMatch {α : Type} (p : α → Bool) : List α → Option Nat
  | [] => none
  | x :: xs =>
      match lastMatch p xs with
      | some place => some (place + 1)
      | none => if p x then some 0 else none

/-! ### `atoi` -/

/-- `isspace` in the C locale. -/
def isspace (c : UInt8) : Bool :=
  c = 32 || (9 ≤ c && c ≤ 13)

/-- `isdigit`. -/
def isdigit (c : UInt8) : Bool :=
  48 ≤ c && c ≤ 57

/-- The value of a run of decimal digits, read after the number `acc`. -/
def digitsValue (acc : Nat) (digits : List UInt8) : Nat :=
  digits.foldl (fun n c => 10 * n + (c.toNat - 48)) acc

/-- `strtol` with base ten: skip spaces, read a sign and the digits, saturate at 64 bits. -/
def strtol (input : List UInt8) : Int :=
  let number := input.dropWhile isspace
  match number with
  | [] => 0
  | c :: rest =>
      let negative := c = 45
      let digits := (if c = 45 ∨ c = 43 then rest else number).takeWhile isdigit
      let value := digitsValue 0 digits
      if negative then max (-(value : Int)) (-9223372036854775808)
      else min (value : Int) 9223372036854775807

/-- `atoi` converts the 64-bit result of `strtol` to an `int`. -/
def atoi (input : List UInt8) : Int :=
  wrap32 (strtol input)

/-! ### Basic facts -/

theorem wrap32_of_bounds {x : Int} (lower : -2147483648 ≤ x) (upper : x < 2147483648) :
    wrap32 x = x := by
  unfold wrap32
  exact Int.bmod_eq_of_le (by omega) (by omega)

/-- Wrapping twice is wrapping once. -/
@[simp] theorem wrap32_wrap32_add (x y : Int) : wrap32 (wrap32 x + y) = wrap32 (x + y) := by
  simp [wrap32]

@[simp] theorem cstr_nil : cstr [] = [] := rfl

/-- Memory without a NUL is one C string. -/
theorem cstr_of_not_mem {memory : List UInt8} (h : (0 : UInt8) ∉ memory) : cstr memory = memory := by
  unfold cstr
  rw [List.takeWhile_eq_self_iff]
  intro c hc
  simp only [decide_eq_true_eq]
  rintro rfl
  exact h hc

/-- A C string holds no NUL. -/
theorem zero_not_mem_cstr (memory : List UInt8) : (0 : UInt8) ∉ cstr memory := by
  intro h
  have := List.mem_takeWhile_imp h
  simp at this

/-! ### The last match -/

theorem lastMatch_some {α : Type} {p : α → Bool} :
    ∀ {xs : List α} {place : Nat}, lastMatch p xs = some place →
      ∃ x, xs[place]? = some x ∧ p x = true
  | [], _, found => by cases found
  | x :: xs, place, found => by
      rw [lastMatch] at found
      split at found
      next place' later =>
        cases found
        obtain ⟨y, here, holds⟩ := lastMatch_some later
        exact ⟨y, by simpa using here, holds⟩
      · split at found <;> cases found
        next holds => exact ⟨x, rfl, holds⟩

theorem lastMatch_none {α : Type} {p : α → Bool} :
    ∀ {xs : List α}, lastMatch p xs = none ↔ ∀ x ∈ xs, p x = false
  | [] => by simp [lastMatch]
  | x :: xs => by
      have tail : lastMatch p xs = none ↔ _ := lastMatch_none
      rw [lastMatch]
      split
      next place later =>
        simp only [reduceCtorEq, false_iff]
        intro all
        rw [tail.mpr fun y mem => all y (List.mem_cons_of_mem x mem)] at later
        cases later
      next later =>
        have rest := tail.mp later
        by_cases holds : p x = true <;> simp_all

end Newtmq
