/-
Module: Newtmq.Spec.Encoding
Purpose: The frames a client means to send, and the bytes it sends for them: a command, header lines
  with one content-length header, and a body of that length.
Trusted boundary: human-reviewed spec
Main exports: HeaderLine, isLengthHeader, Decimal, WireFrame, WireFrame.encode, Frame.Carries
-/
import Newtmq.Core.Frame

namespace Newtmq

/-- A header line: one to `LD_MAX` bytes, none of which is a NUL, an LF or a CR. -/
structure HeaderLine (line : List UInt8) : Prop where
  nonempty : line ≠ []
  short : line.length ≤ LD_MAX
  clean : ∀ c ∈ line, c ≠ 0 ∧ c ≠ LF ∧ c ≠ CR

/-- The line starts with `content-length:`. -/
def isLengthHeader (line : List UInt8) : Bool :=
  (cstring "content-length:").isPrefixOf line

/-- `digits` is a decimal numeral of `n`. -/
structure Decimal (digits : List UInt8) (n : Nat) : Prop where
  nonempty : digits ≠ []
  digit : ∀ c ∈ digits, isdigit c = true
  value : digitsValue 0 digits = n

instance (line : List UInt8) : Decidable (HeaderLine line) :=
  have := List.decidableBAll (fun c : UInt8 => c ≠ 0 ∧ c ≠ LF ∧ c ≠ CR) line
  decidable_of_iff
    (line ≠ [] ∧ line.length ≤ LD_MAX ∧ ∀ c ∈ line, c ≠ 0 ∧ c ≠ LF ∧ c ≠ CR)
    ⟨fun h => ⟨h.1, h.2.1, h.2.2⟩, fun h => ⟨h.nonempty, h.short, h.clean⟩⟩

instance (digits : List UInt8) (n : Nat) : Decidable (Decimal digits n) :=
  have := List.decidableBAll (fun c => isdigit c = true) digits
  decidable_of_iff
    (digits ≠ [] ∧ (∀ c ∈ digits, isdigit c = true) ∧ digitsValue 0 digits = n)
    ⟨fun h => ⟨h.1, h.2.1, h.2.2⟩, fun h => ⟨h.nonempty, h.digit, h.value⟩⟩

/-- A frame as a client sends it. The fields say that it is one of the eleven commands, that exactly
one header announces a length, and that this is the length of the body. -/
structure WireFrame where
  command : List UInt8
  headers : List (List UInt8)
  body : List UInt8
  command_known : command ∈ finfoArr
  header_line : ∀ h ∈ headers, HeaderLine h
  one_length : headers.countP isLengthHeader = 1
  length_value : ∀ h ∈ headers, isLengthHeader h = true → Decimal (h.drop 15) body.length
  body_clean : (0 : UInt8) ∉ body
  body_bound : body.length < 2147483648

namespace WireFrame

/-- The lines of a header block, each with its LF. -/
def encodeLines (lines : List (List UInt8)) : List UInt8 :=
  lines.flatMap fun line => line ++ [LF]

@[simp] theorem encodeLines_nil : encodeLines [] = [] := rfl

@[simp] theorem encodeLines_cons (line : List UInt8) (lines : List (List UInt8)) :
    encodeLines (line :: lines) = line ++ LF :: encodeLines lines := by
  simp [encodeLines]

/-- The bytes of a frame: command line, header lines, blank line, body, NUL. -/
def encode (frame : WireFrame) : List UInt8 :=
  frame.command ++ LF :: (encodeLines frame.headers ++ LF :: (frame.body ++ [0]))

end WireFrame

/-- The lines stored in a list of entries. -/
def entryLines (entries : List Linedata) : List (List UInt8) :=
  entries.map Linedata.bytes

/-- A frame object carries the frame that was sent: the same command, the same header lines, and the
same body, in whatever pieces. -/
structure Frame.Carries (frame : Frame) (sent : WireFrame) : Prop where
  name : frame.name = sent.command
  headers : entryLines frame.hAttrs = sent.headers
  body : (entryLines frame.hData).flatten = sent.body

end Newtmq
