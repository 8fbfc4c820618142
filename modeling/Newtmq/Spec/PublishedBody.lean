/-
Module: Newtmq.Spec.PublishedBody
Purpose: The length of a frame's body against the length that its header announced, and the steps of
  the receiving side that keep to what was announced.
Trusted boundary: human-reviewed spec
Main exports: Frame.bodyLength, BodyExact, bodyPiece, KeepsToLength
-/
import Mathlib.Algebra.Ring.Int.Defs
import Mathlib.Algebra.Ring.Nat
import Newtmq.Core.Receiving

namespace Newtmq

/-- The total length of the entries of the body. -/
def Frame.bodyLength (frame : Frame) : Nat :=
  (frame.hData.map Linedata.len).sum

/-- When the header announced a length, the body has this length. -/
def BodyExact (frame : Frame) : Prop :=
  0 ≤ frame.contentlen → (frame.bodyLength : Int) = frame.contentlen

instance (frame : Frame) : Decidable (BodyExact frame) :=
  inferInstanceAs (Decidable (_ → _))

/-- The length of the piece of a body that a pass of `recv_data` hands on, if it hands one on: up to the
next NUL, at most 1024 bytes, with the fragment that was saved before it. -/
def bodyPiece (cinfo : StompConninfo) (curr : List UInt8) : Option Nat :=
  if curr = [] then none
  else
    let (ret, lineLen) := ssplit curr true
    if ret = .error ∧ isFrameName curr lineLen = .error then none
    else some (joinedLine cinfo curr lineLen).2

/-- A step that keeps to the announced length: a piece of a body does not go past it, and the connection
is not closed within a body. -/
def KeepsToLength (s : Receiving) : ReceiveAction → Prop
  | .receive _ => True
  | .pass => ∀ curr ∈ s.rest, ∀ frame ∈ s.recv.cinfo.frame, frame.status = .inputBody →
      ∀ len ∈ bodyPiece s.recv.cinfo curr, frame.hasContentlen + len ≤ frame.contentlen
  | .close => ∀ frame ∈ s.recv.cinfo.frame, frame.status ≠ .inputBody

instance (s : Receiving) : ∀ action, Decidable (KeepsToLength s action)
  | .receive _ => .isTrue trivial
  | .pass => inferInstanceAs (Decidable (∀ curr ∈ s.rest, _))
  | .close => inferInstanceAs (Decidable (∀ frame ∈ s.recv.cinfo.frame, _))

end Newtmq
