/-
Module: Newtmq.Spec.ClientStream
Purpose: The frames that a client may send, with or without a length header, and what it means that
  `recv_data` keeps them apart however the stream arrives.
Trusted boundary: human-reviewed spec
Main exports: HeaderText, ClientFrame, ClientFrame.encode, ClientFrame.Announced, EndsAtNul,
  KeepsFramesApart
-/
import Newtmq.Core.Stomp
import Newtmq.Spec.StreamReader

namespace Newtmq

/-- The text of a header line: some bytes, none of which is a NUL, an LF or a CR. -/
structure HeaderText (text : List UInt8) : Prop where
  nonempty : text ≠ []
  clean : ∀ c ∈ text, c ≠ 0 ∧ c ≠ LF ∧ c ≠ CR

instance (text : List UInt8) : Decidable (HeaderText text) :=
  have := List.decidableBAll (fun c : UInt8 => c ≠ 0 ∧ c ≠ LF ∧ c ≠ CR) text
  decidable_of_iff (text ≠ [] ∧ ∀ c ∈ text, c ≠ 0 ∧ c ≠ LF ∧ c ≠ CR)
    ⟨fun h => ⟨h.1, h.2⟩, fun h => ⟨h.nonempty, h.clean⟩⟩

/-- The CR that may come before an LF. -/
def optionalCr : Bool → List UInt8
  | true => [CR]
  | false => []

/-- A frame as a client may send it. Each line ends with an LF or with a CR and an LF, as the Booleans
say. At most one header announces a length, and this is the length of the body. A body without an
announced length has no NUL. -/
structure ClientFrame where
  command : List UInt8
  commandCr : Bool
  headers : List (List UInt8 × Bool)
  blankCr : Bool
  body : List UInt8
  command_known : command ∈ finfoArr
  header_text : ∀ h ∈ headers, HeaderText h.1
  length_once : headers.countP (fun h => isLengthHeader h.1) ≤ 1
  length_value : ∀ h ∈ headers, isLengthHeader h.1 = true → Decimal (h.1.drop 15) body.length
  body_clean : headers.countP (fun h => isLengthHeader h.1) = 0 → (0 : UInt8) ∉ body

namespace ClientFrame

/-- The header lines as they come before their LF. -/
def lines (frame : ClientFrame) : List (List UInt8) :=
  frame.headers.map fun h => h.1 ++ optionalCr h.2

/-- The bytes of a frame: command line, header lines, blank line, body, NUL. -/
def encode (frame : ClientFrame) : List UInt8 :=
  (frame.command ++ optionalCr frame.commandCr) ++ LF ::
    (WireFrame.encodeLines frame.lines ++ (optionalCr frame.blankCr ++ LF :: (frame.body ++ [0])))

/-- The frame announces the length of its body, which has no NUL, and its lines and its body are not
longer than the server can count. -/
structure Announced (frame : ClientFrame) : Prop where
  length : frame.headers.countP (fun h => isLengthHeader h.1) = 1
  clean : (0 : UInt8) ∉ frame.body
  short : ∀ line ∈ frame.lines, line.length ≤ LD_MAX
  bound : frame.body.length + 1 < 2147483648

instance (frame : ClientFrame) : Decidable frame.Announced :=
  decidable_of_iff
    (frame.headers.countP (fun h => isLengthHeader h.1) = 1 ∧ (0 : UInt8) ∉ frame.body ∧
      (∀ line ∈ frame.lines, line.length ≤ LD_MAX) ∧ frame.body.length + 1 < 2147483648)
    ⟨fun h => ⟨h.1, h.2.1, h.2.2.1, h.2.2.2⟩, fun h => ⟨h.length, h.clean, h.short, h.bound⟩⟩

/-- The bytes of several frames. -/
def encodeAll (frames : List ClientFrame) : List UInt8 :=
  frames.flatMap encode

end ClientFrame

/-- When the last byte of the frames `before` has been read, each of them has been published, and
whatever is read from there on leaves what is published as it is. The last byte is in one of the
chunks, after `head`. -/
def EndsAtNul (env : RecvEnv) (sock : Int) (st : RecvState) (chunks : List (List UInt8))
    (before : List ClientFrame) : Prop :=
  ∃ done head tail later first there, chunks = done ++ (head ++ tail) :: later ∧
    done.flatten ++ head = ClientFrame.encodeAll before ∧
    recvChunks env sock done st = some first ∧
    Loop.Visits (recvPass env sock) (head ++ tail, first) (tail, there) ∧
    there.bucket.length = st.bucket.length + before.length ∧
    ∀ more result, recvChunks env sock (tail :: more) there = some result →
      there.bucket <+: result.bucket

/-- Each frame of the stream is complete at its NUL, and gets no byte that follows it. -/
def KeepsFramesApart (env : RecvEnv) (sock : Int) (st : RecvState) (chunks : List (List UInt8))
    (frames : List ClientFrame) : Prop :=
  ∀ before after, frames = before ++ after → before ≠ [] → EndsAtNul env sock st chunks before

end Newtmq
