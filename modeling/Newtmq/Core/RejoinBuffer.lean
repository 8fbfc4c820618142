/-
Module: Newtmq.Core.RejoinBuffer
Purpose: The accesses of `recv_data` to the buffer `prev_data`: where each pass writes to it, and how many
  bytes it was allocated with by then.
Trusted boundary: human-reviewed spec
Main exports: BufferWrite, savesFragment, bufferWrites, Rejoining, rejoinStep
-/
import Newtmq.Core.Receiving

namespace Newtmq

/-- A write of `count` bytes from the index `start` on, to a buffer of `allocated` bytes. -/
structure BufferWrite where
  start : Nat
  count : Nat
  allocated : Nat
deriving DecidableEq, Repr

/-- A pass at `curr` saves what is left of the chunk as an unfinished line. -/
def savesFragment (curr : List UInt8) (st : RecvState) : Prop :=
  (ssplit curr st.isBodyInput).1 = .error ∧
    isFrameName curr (ssplit curr st.isBodyInput).2 = .error

instance (curr : List UInt8) (st : RecvState) : Decidable (savesFragment curr st) :=
  inferInstanceAs (Decidable (_ ∧ _))

/-- The size that `prev_data` is reallocated or allocated with. -/
def StompConninfo.grownSize (cinfo : StompConninfo) : Nat :=
  match cinfo.prevData with
  | some prev => prev.bytes.length + LD_MAX
  | none => LD_MAX * 2

/-- The writes of a pass to `prev_data`: `memset` and `strncpy` when a fragment is saved; `strncpy` and
the final NUL when a line is joined. -/
def bufferWrites (curr : List UInt8) (st : RecvState) : List BufferWrite :=
  let lineLen := (ssplit curr st.isBodyInput).2
  if curr = [] then []
  else if savesFragment curr st then
    [⟨st.cinfo.prevLen, LD_MAX, st.cinfo.grownSize⟩, ⟨st.cinfo.prevLen, lineLen, st.cinfo.grownSize⟩]
  else
    match st.cinfo.prevData with
    | some prev =>
        [⟨prev.bytes.length, lineLen, prev.allocated⟩,
          ⟨lineLen + prev.bytes.length, 1, prev.allocated⟩]
    | none => []

/-- The receiving side, with a record of the lengths of the fragments that are in `prev_data`. -/
structure Rejoining where
  base : Receiving
  fragments : List Nat
deriving DecidableEq, Repr

def Rejoining.start (recv : RecvState) : Rejoining := ⟨Receiving.start recv, []⟩

/-- The fragments after a step. -/
def Rejoining.fragmentsAfter (s : Rejoining) : ReceiveAction → List Nat
  | .pass =>
      match s.base.rest with
      | none | some [] => s.fragments
      | some curr =>
          if savesFragment curr s.base.recv then
            s.fragments ++ [(ssplit curr s.base.recv.isBodyInput).2]
          else []
  | .receive _ | .close => s.fragments

def rejoinStep (env : RecvEnv) (sock : Int) (s : Rejoining) (action : ReceiveAction) :
    Option Rejoining :=
  (receiveStep env sock s.base action).map fun base => ⟨base, s.fragmentsAfter action⟩

end Newtmq
