/-
Module: Newtmq.Proofs.ContentLength
Purpose: A length header is read faithfully when its text is a length that fits an `int`. No other text
  is refused, whatever number `atoi` makes of it.
Trusted boundary: none
Main exports: atoi_padded, not_refused, faithful_or_refused_iff
-/
import Newtmq.Spec.ContentLength
import Newtmq.Proofs.LineSplit

namespace Newtmq

theorem atoi_spaces (before : Nat) (input : List UInt8) :
    atoi (List.replicate before 32 ++ input) = atoi input := by
  induction before with
  | zero => rfl
  | succ before ih =>
      rw [List.replicate_succ, List.cons_append, ← ih]
      rfl

/-- `atoi` passes over the spaces and reads the numeral. -/
theorem atoi_padded {text : List UInt8} {n : Nat} (padded : PaddedDecimal text n) (fits : n ≤ 2147483647)
    {stop : UInt8} (ends : isdigit stop = false) (rest : List UInt8) :
    atoi (text ++ stop :: rest) = n := by
  obtain ⟨before, digits, after, rfl, number⟩ := padded
  rw [List.append_assoc, atoi_spaces, List.append_assoc]
  cases after with
  | zero => exact atoi_decimal number.nonempty number.digit number.value (by omega) ends rest
  | succ after =>
      rw [List.replicate_succ, List.cons_append]
      exact atoi_decimal number.nonempty number.digit number.value (by omega) (by decide) _

theorem PaddedDecimal.of_no_space {text : List UInt8} {n : Nat} (padded : PaddedDecimal text n)
    (noSpace : (32 : UInt8) ∉ text) : Decimal text n := by
  obtain ⟨before, digits, after, rfl, number⟩ := padded
  rw [List.mem_append, List.mem_append, not_or, not_or, List.mem_replicate, List.mem_replicate] at noSpace
  obtain ⟨noneBefore, -, noneAfter⟩ := noSpace
  have zeroBefore : before = 0 := by
    by_contra some
    exact noneBefore ⟨some, rfl⟩
  have zeroAfter : after = 0 := by
    by_contra some
    exact noneAfter ⟨some, rfl⟩
  rw [zeroBefore, zeroAfter, List.replicate_zero, List.append_nil, List.nil_append]
  exact number

/-! ### The line -/

theorem lengthLine_long (text : List UInt8) (stop : UInt8) (rest : List UInt8) :
    0 < (lengthLine text stop rest).len :=
  Nat.lt_of_lt_of_le (by decide) (Nat.le_add_right 15 _)

theorem frameUpdate_lengthLine (finish : Frame → Frame) {frame : Frame}
    (header : frame.status = .inputHeader) (text : List UInt8) (stop : UInt8) (rest : List UInt8) :
    frameUpdate finish (lengthLine text stop rest).memory (lengthLine text stop rest).len frame =
      (0, frameHeaderLine (lengthLine text stop rest).memory (lengthLine text stop rest).len frame) := by
  have starts : isNl (lengthLine text stop rest).memory = false := rfl
  simp [frameUpdate, header, starts]

theorem lengthLine_status {frame : Frame} (header : frame.status = .inputHeader) (text : List UInt8)
    (stop : UInt8) (rest : List UInt8) :
    (frameHeaderLine (lengthLine text stop rest).memory (lengthLine text stop rest).len frame).status =
      .inputHeader := by
  rw [frameHeaderLine, if_pos (lengthLine_long text stop rest)]
  exact header

/-- When there is a text, the length becomes what `atoi` makes of it. -/
theorem lengthLine_contentlen {text : List UInt8} (nonempty : text ≠ []) (stop : UInt8)
    (rest : List UInt8) (frame : Frame) :
    (frameHeaderLine (lengthLine text stop rest).memory (lengthLine text stop rest).len
      frame).contentlen = atoi (text ++ stop :: rest) := by
  have positive := List.length_pos_iff.mpr nonempty
  have announces : isContentlen (lengthLine text stop rest).memory (lengthLine text stop rest).len =
      true := by
    rw [isContentlen, Bool.and_eq_true_iff, decide_eq_true_iff, List.isPrefixOf_iff_prefix]
    exact ⟨Nat.lt_add_of_pos_right positive, List.prefix_append _ _⟩
  rw [frameHeaderLine, if_pos (lengthLine_long text stop rest)]
  simp only [announces, if_true, getContentlen]
  rw [lengthLine, List.drop_left' (by decide)]

/-! ### No text is refused -/

/-- A blank line completes a frame whose length is 0. -/
theorem completes_blank (finish : Frame → Frame) {frame : Frame} (header : frame.status = .inputHeader)
    (announced : frame.contentlen = 0) :
    completes finish frame [⟨[LF], 0, Nat.zero_le _⟩] = some (finishFrame finish frame) := by
  have newline : isNl [LF] = true := rfl
  simp [completes, frameUpdate, header, newline, announced]

/-- Whatever the text was, a length of 0 and a blank line after it complete the frame. -/
theorem not_refused (finish : Frame → Frame) {frame : Frame} (header : frame.status = .inputHeader)
    (text : List UInt8) (stop : UInt8) (rest : List UInt8) :
    ¬ Refused finish (frameUpdate finish (lengthLine text stop rest).memory
      (lengthLine text stop rest).len frame) := by
  have first := frameUpdate_lengthLine finish header text stop rest
  have status := lengthLine_status header text stop rest
  rw [first]
  rintro (error | never)
  · exact absurd error (Int.lt_irrefl 0)
  · have zero := lengthLine_contentlen (show cstring "0" ≠ [] by decide) LF []
      (frameHeaderLine (lengthLine text stop rest).memory (lengthLine text stop rest).len frame)
    have none : atoi (cstring "0" ++ LF :: []) = 0 := by decide
    rw [none] at zero
    have complete := never [lengthLine (cstring "0") LF [], ⟨[LF], 0, Nat.zero_le _⟩]
    rw [completes, frameUpdate_lengthLine finish status] at complete
    simp only [Int.lt_irrefl, if_false] at complete
    rw [completes_blank finish (lengthLine_status status _ _ _) zero] at complete
    cases complete

/-- A length header is read faithfully exactly when its text is a length that fits an `int`. -/
theorem faithful_or_refused_iff (finish : Frame → Frame) {frame : Frame}
    (header : frame.status = .inputHeader) (text : List UInt8) {stop : UInt8}
    (ends : stop = LF ∨ stop = 0) (rest : List UInt8) :
    FaithfulOrRefused finish frame (lengthLine text stop rest) text ↔
      ∃ n ≤ 2147483647, PaddedDecimal text n := by
  constructor
  · rintro (⟨n, padded, fits, -⟩ | refused)
    · exact ⟨n, fits, padded⟩
    · exact absurd refused (not_refused finish header text stop rest)
  · rintro ⟨n, fits, padded⟩
    have nonempty : text ≠ [] := by
      obtain ⟨before, digits, after, rfl, number⟩ := padded
      simp [number.nonempty]
    have notDigit : isdigit stop = false := by
      rcases ends with rfl | rfl
      · decide
      · decide
    refine Or.inl ⟨n, padded, fits, ?_⟩
    rw [frameUpdate_lengthLine finish header]
    exact (lengthLine_contentlen nonempty stop rest frame).trans (atoi_padded padded fits notDigit rest)

/-- A frame after its command line. -/
def headerFrame : Frame :=
  { allocFrame with name := cstring "SEND", status := .inputHeader }

theorem faithful_seven :
    FaithfulOrRefused id headerFrame (lengthLine (cstring " 7") LF []) (cstring " 7") :=
  (faithful_or_refused_iff id rfl (cstring " 7") (Or.inl rfl) []).mpr
    ⟨7, by decide, 1, cstring "7", 0, rfl, by decide +kernel⟩

/-- Of a number beyond 2^32 only the last 32 bits are kept. -/
theorem unfaithful_large :
    ¬ FaithfulOrRefused id headerFrame (lengthLine (cstring "4294967298") LF []) (cstring "4294967298") := by
  rintro (⟨n, padded, fits, -⟩ | refused)
  · have number := padded.of_no_space (by decide)
    have value : digitsValue 0 (cstring "4294967298") = 4294967298 := by decide
    rw [← number.value, value] at fits
    exact absurd fits (by decide)
  · exact not_refused id rfl _ _ _ refused

end Newtmq
