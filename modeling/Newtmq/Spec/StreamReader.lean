/-
Module: Newtmq.Spec.StreamReader
Purpose: What a connection is meant to read: the bytes of the stream one at a time, with no notion of
  a chunk. `ByteSafe` names the bytes at which a chunk boundary can change what `recv_data` makes of
  the stream, and `CutSafe` the streams that have none.
Trusted boundary: human-reviewed spec
Main exports: Message, Draft, Reading, Reader, feed, feeds, ByteSafe, EndSafe, SafeFrom, CutSafe
-/
import Newtmq.Spec.Encoding

namespace Newtmq

/-- What a published frame says: name, header lines, body and size. -/
structure Message where
  name : List UInt8
  headers : List (List UInt8)
  body : List UInt8
  size : Int
deriving DecidableEq, Repr

/-- The message of a frame object. -/
def Frame.message (frame : Frame) : Message :=
  { name := frame.name
    headers := entryLines frame.hAttrs
    body := (entryLines frame.hData).flatten
    size := frame.size }

/-- The header read so far. The size is the exact one, before it is cut to 32 bits. -/
structure Draft where
  name : List UInt8
  headers : List (List UInt8)
  contentlen : Int
  size : Int
deriving DecidableEq, Repr

/-- A header line ends. -/
def Draft.addLine (draft : Draft) (line : List UInt8) : Draft :=
  { draft with
    headers := draft.headers ++ [line]
    contentlen := if isContentlen line line.length then getContentlen line else draft.contentlen
    size := draft.size + (line.length + 1) }

/-- The message with the body `body`, whose bytes and final NUL are counted in the size. -/
def Draft.finish (draft : Draft) (body : List UInt8) : Message :=
  { name := draft.name
    headers := draft.headers
    body := body
    size := wrap32 (draft.size + body.length + 1) }

/-- Where in a frame the stream is: in the command line, in a header line, or in the body, with the
bytes read of it. -/
inductive Reading where
  | command (line : List UInt8)
  | header (draft : Draft) (line : List UInt8)
  | body (draft : Draft) (got : List UInt8)
deriving DecidableEq, Repr

structure Reader where
  reading : Reading
  published : List Message
deriving DecidableEq, Repr

def Reader.start : Reader := ⟨.command [], []⟩

/-- The end of a command line: a command starts a header, anything else is ignored. -/
def endCommand (line : List UInt8) : Reading :=
  match findFrameName line line.length finfoArr with
  | some w => .header { name := w, headers := [], contentlen := -1, size := line.length + 1 } []
  | none => .command []

/-- Read one byte. -/
def feed (reader : Reader) (b : UInt8) : Reader :=
  match reader.reading with
  | .command line =>
      if b = 0 ∨ b = LF ∨ (line = [] ∧ b = CR) then { reader with reading := endCommand line }
      else { reader with reading := .command (line ++ [b]) }
  | .header draft [] =>
      if b = LF ∨ b = CR then
        if 0 < draft.contentlen then
          { reader with reading := .body { draft with size := draft.size + 1 } [] }
        else if draft.contentlen = 0 then
          ⟨.command [], reader.published ++ [draft.finish []]⟩
        else reader
      else if b = 0 then reader
      else { reader with reading := .header draft [b] }
  | .header draft line =>
      if b = 0 ∨ b = LF then { reader with reading := .header (draft.addLine line) [] }
      else { reader with reading := .header draft (line ++ [b]) }
  | .body draft got =>
      if b = 0 then
        if draft.contentlen ≤ got.length then
          ⟨.command [], reader.published ++ [draft.finish got]⟩
        else reader
      else { reader with reading := .body draft (got ++ [b]) }

/-- Read several bytes. -/
def feeds (reader : Reader) (bytes : List UInt8) : Reader :=
  bytes.foldl feed reader

/-- The line ends with one of the commands. -/
def EndsCommand (line : List UInt8) : Prop :=
  ∃ w ∈ finfoArr, w <:+ line

/-- One of the commands occurs in the text. -/
def HoldsCommand (text : List UInt8) : Prop :=
  ∃ w ∈ finfoArr, w <:+: text

instance (line : List UInt8) : Decidable (EndsCommand line) :=
  inferInstanceAs (Decidable (∃ w ∈ finfoArr, w <:+ line))

instance (text : List UInt8) : Decidable (HoldsCommand text) :=
  inferInstanceAs (Decidable (∃ w ∈ finfoArr, w <:+: text))

/-- `atoi` finds in the line all it looks for: the line is no length header, or its value is not
blank. -/
def LengthInLine (line : List UInt8) : Prop :=
  isContentlen line line.length = true → ∃ c ∈ line.drop 15, isspace c = false

instance (line : List UInt8) : Decidable (LengthInLine line) :=
  inferInstanceAs (Decidable (_ → _))

/-- A byte inside a line that has begun: the line is not full, no command ends before the byte, and
the byte is no CR. -/
def InLine (line : List UInt8) (b : UInt8) : Prop :=
  line.length < LD_MAX ∧ ¬ EndsCommand line ∧ (line = [] ∨ b ≠ CR)

instance (line : List UInt8) (b : UInt8) : Decidable (InLine line b) :=
  inferInstanceAs (Decidable (_ ∧ _))

/-- The byte `b`, read next, is read alike wherever the chunks end. -/
def ByteSafe (reading : Reading) (b : UInt8) : Prop :=
  match reading with
  | .command line => b = 0 ∨ b = LF ∨ (line = [] ∧ b = CR) ∨ InLine line b
  | .header draft line =>
      (line = [] ∧ (b = LF ∨ b = CR)) ∨ b = 0 ∨
        (line ≠ [] ∧ b = LF ∧ LengthInLine line ∧
          (EndsCommand line → (draft.addLine line).contentlen < 0)) ∨
        (b ≠ LF ∧ (line = [] → b ≠ CR) ∧ InLine line b)
  | .body draft got =>
      (b = 0 ∧ draft.contentlen ≤ got.length) ∨
        (b ≠ 0 ∧ (got.length < draft.contentlen ∨ (got.length < LD_MAX ∧ ¬ HoldsCommand got)))

instance (reading : Reading) (b : UInt8) : Decidable (ByteSafe reading b) := by
  cases reading <;> exact inferInstanceAs (Decidable (_ ∨ _))

/-- The stream may end here: no chunk boundary can have published the body that is being read. -/
def EndSafe : Reading → Prop
  | .body draft got => got.length < draft.contentlen ∨ ¬ HoldsCommand got
  | _ => True

instance (reading : Reading) : Decidable (EndSafe reading) := by
  cases reading
  · exact inferInstanceAs (Decidable True)
  · exact inferInstanceAs (Decidable True)
  · exact inferInstanceAs (Decidable (_ ∨ _))

/-- Every byte is safe, and so is the end. -/
def SafeFrom : Reader → List UInt8 → Prop
  | reader, [] => EndSafe reader.reading
  | reader, b :: bytes => ByteSafe reader.reading b ∧ SafeFrom (feed reader b) bytes

instance decidableSafeFrom : ∀ reader bytes, Decidable (SafeFrom reader bytes)
  | reader, [] => inferInstanceAs (Decidable (EndSafe reader.reading))
  | reader, b :: bytes =>
      have := decidableSafeFrom (feed reader b) bytes
      inferInstanceAs (Decidable (_ ∧ _))

/-- A stream on a new connection that is read alike however it is cut. -/
def CutSafe (stream : List UInt8) : Prop :=
  SafeFrom .start stream

instance (stream : List UInt8) : Decidable (CutSafe stream) :=
  decidableSafeFrom _ _

/-! ### Reading in parts -/

@[simp] theorem feeds_nil (reader : Reader) : feeds reader [] = reader := rfl

@[simp] theorem feeds_cons (reader : Reader) (b : UInt8) (bytes : List UInt8) :
    feeds reader (b :: bytes) = feeds (feed reader b) bytes := rfl

theorem feeds_append (reader : Reader) (first second : List UInt8) :
    feeds reader (first ++ second) = feeds (feeds reader first) second := by
  simp [feeds]

/-- What is safe from the start is safe after a part of it. -/
theorem SafeFrom.after {reader : Reader} {first second : List UInt8}
    (safe : SafeFrom reader (first ++ second)) : SafeFrom (feeds reader first) second := by
  induction first generalizing reader with
  | nil => exact safe
  | cons b first ih => exact ih safe.2

end Newtmq
