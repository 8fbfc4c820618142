/-
Module: Newtmq.Spec.BlockLayout
Purpose: How the frames of a data file lie in the blocks of `BUFFER_LEN` bytes that it is read in.
  `BlocksFit` says which layouts `unpersist_queue_context` can read.
Trusted boundary: human-reviewed spec
Main exports: Place, Place.next, Place.body, Place.blank, Place.headers, Place.frame,
  Place.frames, BlocksFit
-/
import Newtmq.Spec.Encoding
import Newtmq.Core.Unpersist

namespace Newtmq

/-- A position in a block, less than `BUFFER_LEN`, and whether the call of `parse_frame` that reads
there began at the start of the block. Only such a call ends where the block ends. -/
structure Place where
  index : Nat
  fresh : Bool
deriving DecidableEq, Repr

/-- The place after a frame whose last byte lies just before position `last`. What follows the frame
is read by a new call. -/
def Place.next (last : Nat) : Place :=
  if last < BUFFER_LEN then ⟨last, false⟩ else ⟨0, true⟩

/-- A body has to lie in one block, with its NUL. -/
def Place.body (sent : WireFrame) (place : Place) : Option Place :=
  let last := place.index + sent.body.length + 1
  if last ≤ BUFFER_LEN then some (Place.next last) else none

/-- The blank line. The NUL of an empty body is skipped with it, unless it is the first byte of the
next block. -/
def Place.blank (sent : WireFrame) (place : Place) : Option Place :=
  if sent.body = [] then
    if place.index + 2 ≤ BUFFER_LEN then some (Place.next (place.index + 2)) else some ⟨1, true⟩
  else if place.index + 1 < BUFFER_LEN then Place.body sent ⟨place.index + 1, place.fresh⟩
  else if place.fresh then Place.body sent ⟨0, true⟩
  else none

/-- The header lines that are still to be read, where `known` says that one of those before announced
the length. A block may end after the LF of a line when the call is fresh. It may end just before
the LF only when that LF is taken for nothing, or for the blank line of a frame without a body. -/
def Place.headers (sent : WireFrame) : Bool → List (List UInt8) → Place → Option Place
  | _, [], place => place.blank sent
  | known, line :: lines, place =>
      let last := place.index + line.length + 1
      let announced := known || isLengthHeader line
      if last < BUFFER_LEN then Place.headers sent announced lines ⟨last, place.fresh⟩
      else if place.fresh ∧ last = BUFFER_LEN then Place.headers sent announced lines ⟨0, true⟩
      else if place.fresh ∧ last = BUFFER_LEN + 1 ∧ announced = false then
        Place.headers sent announced lines ⟨1, true⟩
      else if place.fresh ∧ last = BUFFER_LEN + 1 ∧ known ∧ lines = [] ∧ sent.body = [] then
        some ⟨3, false⟩
      else none

/-- One frame; its command line has to lie in one block. -/
def Place.frame (place : Place) (sent : WireFrame) : Option Place :=
  let last := place.index + sent.command.length + 1
  if last < BUFFER_LEN then Place.headers sent false sent.headers ⟨last, place.fresh⟩ else none

/-- The frames of a file, one after the other. -/
def Place.frames (place : Place) (sent : List WireFrame) : Option Place :=
  sent.foldlM Place.frame place

/-- Every frame lies in the blocks in such a way that it can be read. -/
def BlocksFit (sent : List WireFrame) : Prop :=
  (Place.frames ⟨0, true⟩ sent).isSome

instance (sent : List WireFrame) : Decidable (BlocksFit sent) :=
  inferInstanceAs (Decidable (_ = true))

end Newtmq
