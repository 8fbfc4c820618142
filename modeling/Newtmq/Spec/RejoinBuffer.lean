/-
Module: Newtmq.Spec.RejoinBuffer
Purpose: When the writes to `prev_data` stay in it, and how long the parts of a joined line may be.
Trusted boundary: human-reviewed spec
Main exports: WritesFit, RoomFor, JoinsShortLines
-/
import Newtmq.Core.RejoinBuffer

namespace Newtmq

/-- All writes of a step stay below the allocated size. -/
def WritesFit (s : Rejoining) : ReceiveAction → Prop
  | .pass => ∀ curr ∈ s.base.rest, ∀ write ∈ bufferWrites curr s.base.recv,
      write.start + write.count ≤ write.allocated
  | .receive _ | .close => True

/-- The fragments may be followed by this many bytes: one fragment and the bytes are less than 2048
together, and after several fragments the last one and the bytes are less than 1024. -/
def RoomFor (length : Nat) : List Nat → Prop
  | [] => True
  | [only] => only + length < LD_MAX * 2
  | _ :: first :: more => (first :: more).getLast (List.cons_ne_nil _ _) + length < LD_MAX

/-- When a step joins a line, there is room for it behind the fragments. -/
def JoinsShortLines (s : Rejoining) : ReceiveAction → Prop
  | .pass => ∀ curr ∈ s.base.rest, curr ≠ [] → ¬ savesFragment curr s.base.recv →
      RoomFor (ssplit curr s.base.recv.isBodyInput).2 s.fragments
  | .receive _ | .close => True

instance (length : Nat) : ∀ fragments, Decidable (RoomFor length fragments)
  | [] => .isTrue trivial
  | [_] => inferInstanceAs (Decidable (_ < _))
  | _ :: _ :: _ => inferInstanceAs (Decidable (_ < _))

instance (s : Rejoining) : ∀ action, Decidable (WritesFit s action)
  | .pass => inferInstanceAs (Decidable (∀ curr ∈ s.base.rest, _))
  | .receive _ | .close => .isTrue trivial

instance (s : Rejoining) : ∀ action, Decidable (JoinsShortLines s action)
  | .pass => inferInstanceAs (Decidable (∀ curr ∈ s.base.rest, _))
  | .receive _ | .close => .isTrue trivial

end Newtmq
