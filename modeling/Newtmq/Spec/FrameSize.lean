/-
Module: Newtmq.Spec.FrameSize
Purpose: The lines that `recv_data` hands to `frame_update` for one frame, what `frame->size` counts for
  them, and how far that is from the number of bytes that the frame takes in the data file.
Trusted boundary: human-reviewed spec
Main exports: HandedLine, completes, FrameLines, FrameLines.counted, FrameLines.excess, SizeExact
-/
import Mathlib.Algebra.Ring.Int.Defs
import Mathlib.Algebra.Ring.Nat
import Newtmq.Core.Handlers

namespace Newtmq

/-! ### Lines -/

/-- A line as `frame_update` is given it: the memory it starts in, of which it takes `len` bytes. -/
structure HandedLine where
  memory : List UInt8
  len : Nat
  inside : len ≤ memory.length

def HandedLine.text (line : HandedLine) : List UInt8 :=
  line.memory.take line.len

/-- The entries that `frame_update` stores for a header line or for a piece of the body. -/
def HandedLine.entries (line : HandedLine) : List Linedata :=
  if 0 < line.len then stompSetdata line.text [] else []

/-- What `frame->size` counts for a header line: the line and a newline, or nothing. -/
def HandedLine.counted (line : HandedLine) : Nat :=
  if 0 < line.len then line.len + 1 else 0

/-- The number of entries of a header line after the first one. -/
def HandedLine.further (line : HandedLine) : Nat :=
  line.entries.length - 1

/-- The frame that `frame_update` finishes when it is given these lines, if it finishes one with the
last of them and none before. -/
def completes (finish : Frame → Frame) : Frame → List HandedLine → Option Frame
  | _, [] => none
  | frame, line :: lines =>
      let (ret, frame) := frameUpdate finish line.memory line.len frame
      if 0 < ret then (if lines.isEmpty then some frame else none) else completes finish frame lines

/-- The announced length, after a header line. -/
def announce (contentlen : Int) (line : HandedLine) : Int :=
  if isContentlen line.memory line.len then getContentlen line.memory else contentlen

/-- None of these header lines ends the header: a line that starts with a newline comes only while no
length from 0 on has been announced. -/
def HeaderGoesOn : Int → List HandedLine → Prop
  | _, [] => True
  | contentlen, line :: lines =>
      (isNl line.memory = true → contentlen < 0) ∧ HeaderGoesOn (announce contentlen line) lines

/-- The lines of one frame: lines that start with no command, the command line, the header lines, the
line that ends the header, and the pieces of the body. -/
structure FrameLines where
  rejected : List HandedLine
  command : HandedLine
  headers : List HandedLine
  blank : HandedLine
  body : List HandedLine
  unknown : ∀ line ∈ rejected, isFrameName line.memory line.len = .error
  known : isFrameName command.memory command.len = .success
  goesOn : HeaderGoesOn (-1) headers
  ends : isNl blank.memory = true ∧ 0 ≤ headers.foldl announce (-1)

namespace FrameLines

def all (lines : FrameLines) : List HandedLine :=
  lines.rejected ++ lines.command :: (lines.headers ++ lines.blank :: lines.body)

/-- The frame is what `frame_update` makes of the lines, for a connection with this id. -/
def Make (lines : FrameLines) (env : RecvEnv) (sock : Int) (id : List UInt8) (frame : Frame) :
    Prop :=
  ∃ rands, completes (frameFinish env rands) { allocFrame with sock := sock, cinfo := some id }
    lines.all = some frame

/-- The command that the first line starts with. -/
def name (lines : FrameLines) : List UInt8 :=
  (findFrameName lines.command.memory lines.command.len finfoArr).getD []

def contentlen (lines : FrameLines) : Int :=
  lines.headers.foldl announce (-1)

/-- The entries of the header, as they are received. -/
def headerEntries (lines : FrameLines) : List Linedata :=
  lines.headers.flatMap HandedLine.entries

/-- The number of entries that `handler_reply_to` lengthens. -/
def replies (lines : FrameLines) : Nat :=
  lines.headerEntries.countP fun entry => replyToName.isPrefixOf entry.memory

/-! ### Sizes -/

/-- What `frame->size` counts: the command line and the header lines, each with a newline, the line
that ends the header when a body follows, the body, and the NUL. -/
def counted (lines : FrameLines) : Nat :=
  (lines.command.len + 1) + (lines.headers.map HandedLine.counted).sum +
    (if lines.contentlen = 0 then 0 else 1) + (lines.body.map HandedLine.len).sum + 1

/-- How much more `frame->size` counts than is written: the bytes of the command line after the
command, less a newline for each further entry of a header line, the newline that ends the header of
a frame without a body, and the ids that `handler_reply_to` appends. -/
def excess (lines : FrameLines) : Int :=
  (lines.command.len - lines.name.length : Int) -
    (lines.headers.map HandedLine.further).sum -
    (if lines.contentlen = 0 then 1 else 0) - CONN_ID_LEN * lines.replies

/-- The size is the number of bytes written: the two differ by a multiple of 2^32, and the number of
bytes fits an `int`. For a frame that fits, this says that nothing is counted in excess. -/
def SizeExact (lines : FrameLines) : Prop :=
  4294967296 ∣ lines.excess ∧ lines.counted - lines.excess < 2147483648

end FrameLines

end Newtmq
