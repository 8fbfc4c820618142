/-
Module: Newtmq.Proofs.RejoinBuffer
Purpose: `prev_data` is as large as its first or its last allocation made it, which is enough for every
  fragment that is saved, but not for every line that is joined in it.
Trusted boundary: none
Main exports: RejoinInv, rejoinInv_step, writesFit_iff, rejoin_buffer_fits_iff
-/
import Mathlib.Algebra.Ring.Int.Defs
import Mathlib.Algebra.Ring.Nat
import Newtmq.Spec.RejoinBuffer
import Newtmq.Proofs.ParseEnds

namespace Newtmq

open Transition (MeetsAlong)

variable {env : RecvEnv} {sock : Int}

/-- The size of a buffer that these fragments were saved in, one after the other. -/
def bufferSize : List Nat → Nat
  | [] => 0
  | [_] => LD_MAX * 2
  | first :: second :: more => (first :: second :: more).dropLast.sum + LD_MAX

/-- The buffer holds the fragments, and has the size that saving them gave it. -/
structure BufferHolds (prevData : Option PrevData) (fragments : List Nat) : Prop where
  absent : prevData = none ↔ fragments = []
  short : ∀ fragment ∈ fragments, fragment ≤ LD_MAX
  bytes : ∀ prev ∈ prevData, prev.bytes.length = fragments.sum
  allocated : ∀ prev ∈ prevData, prev.allocated = bufferSize fragments

theorem bufferSize_append {fragments : List Nat} (some : fragments ≠ []) (length : Nat) :
    bufferSize (fragments ++ [length]) = fragments.sum + LD_MAX := by
  obtain ⟨first, more, rfl⟩ := List.exists_cons_of_ne_nil some
  have whole : first :: more ++ [length] = first :: (more ++ [length]) := rfl
  rw [whole]
  cases rest : more ++ [length] with
  | nil => simp at rest
  | cons second others =>
      rw [bufferSize, ← rest, ← whole, List.dropLast_concat]

/-- What is left of the size behind the fragments is what `RoomFor` says. -/
theorem roomFor_iff {fragments : List Nat} (some : fragments ≠ []) (length : Nat) :
    length + fragments.sum + 1 ≤ bufferSize fragments ↔ RoomFor length fragments := by
  match fragments with
  | [] => exact absurd rfl some
  | [only] =>
      rw [bufferSize, RoomFor, List.sum_singleton]
      omega
  | first :: second :: more =>
      have last := List.dropLast_append_getLast (List.cons_ne_nil first (second :: more))
      have sum : (first :: second :: more).sum = (first :: second :: more).dropLast.sum +
          (second :: more).getLast (List.cons_ne_nil _ _) := by
        conv => lhs; rw [← last]
        rw [List.sum_append, List.sum_singleton, List.getLast_cons (List.cons_ne_nil _ _)]
      rw [bufferSize, RoomFor, sum]
      omega

/-- A fragment that is saved comes behind the others, in a buffer that has grown. -/
theorem BufferHolds.save {cinfo : StompConninfo} {fragments : List Nat}
    (holds : BufferHolds cinfo.prevData fragments) {fragment : List UInt8}
    (short : fragment.length ≤ LD_MAX) :
    BufferHolds (savePrev cinfo fragment).prevData (fragments ++ [fragment.length]) := by
  have shorts : ∀ length ∈ fragments ++ [fragment.length], length ≤ LD_MAX := by
    intro length mem
    rcases List.mem_append.mp mem with old | new
    · exact holds.short length old
    · rw [List.mem_singleton.mp new]
      exact short
  obtain ⟨id, frame, prevData⟩ := cinfo
  cases prevData with
  | none =>
      rw [holds.absent.mp rfl] at shorts ⊢
      constructor
      case absent => simp [savePrev]
      case short => exact shorts
      case bytes =>
        rintro prev ⟨⟩
        exact (List.sum_singleton).symm
      case allocated =>
        rintro prev ⟨⟩
        rfl
  | some prev =>
      have some : fragments ≠ [] := fun none => by cases holds.absent.mpr none
      have bytes : prev.bytes.length = fragments.sum := holds.bytes prev rfl
      constructor
      case absent => simp [savePrev]
      case short => exact shorts
      case bytes =>
        rintro later ⟨⟩
        simp [bytes]
      case allocated =>
        rintro later ⟨⟩
        rw [bufferSize_append some, ← bytes]

theorem BufferHolds.none : BufferHolds none [] where
  absent := iff_of_true rfl rfl
  short _ mem := by cases mem
  bytes _ mem := by cases mem
  allocated _ mem := by cases mem

/-- A pass that is not at the end of its chunk. -/
theorem recvPass_eq (c : UInt8) (rest : List UInt8) (st : RecvState) :
    recvPass env sock (c :: rest, st) =
      if savesFragment (c :: rest) st then
        .leave { st with
          cinfo := savePrev st.cinfo ((c :: rest).take (ssplit (c :: rest) st.isBodyInput).2) }
      else .again (recvLine env sock (c :: rest) (ssplit (c :: rest) st.isBodyInput).2 st) := rfl

/-- A line that is handed on leaves no buffer. -/
theorem recvLine_prevData (curr : List UInt8) (n : Nat) (st : RecvState) :
    (recvLine env sock curr n st).2.cinfo.prevData = none := by
  rw [recvLine]
  dsimp only
  split <;> rfl

theorem bufferHolds_step {s next : Rejoining} {action : ReceiveAction}
    (holds : BufferHolds s.base.recv.cinfo.prevData s.fragments)
    (taken : rejoinStep env sock s action = some next) :
    BufferHolds next.base.recv.cinfo.prevData next.fragments := by
  obtain ⟨base, step, rfl⟩ := Option.map_eq_some_iff.mp taken
  cases action with
  | receive chunk =>
      obtain ⟨_, same⟩ := Option.ite_none_right_eq_some.mp step
      cases same
      exact holds
  | close =>
      obtain ⟨_, same⟩ := Option.ite_none_right_eq_some.mp step
      cases same
      have kept : (connFinish env s.base.recv).cinfo = s.base.recv.cinfo := by
        rw [connFinish]
        split
        · split <;> rfl
        · rfl
      dsimp only
      rw [kept]
      exact holds
  | pass =>
      obtain ⟨curr, running, same⟩ := Option.map_eq_some_iff.mp step
      subst same
      simp only [Rejoining.fragmentsAfter, running]
      cases curr with
      | nil => exact holds
      | cons c rest =>
          have nonempty : c :: rest ≠ [] := List.cons_ne_nil c rest
          have bounds := (ssplit_bounds s.base.recv.isBodyInput nonempty).1
          have inside := ssplit_le s.base.recv.isBodyInput nonempty
          have length := List.length_take_of_le inside
          rw [recvPass_eq]
          by_cases saves : savesFragment (c :: rest) s.base.recv
          · have saved := holds.save (length.trans_le bounds)
            rw [length] at saved
            rw [if_pos saves]
            dsimp only
            rw [if_pos saves]
            exact saved
          · rw [if_neg saves]
            dsimp only
            rw [if_neg saves, recvLine_prevData]
            exact BufferHolds.none

/-- A pass writes inside the buffer exactly when there is room for the line that it joins. -/
theorem writesFit_iff {s : Rejoining} (holds : BufferHolds s.base.recv.cinfo.prevData s.fragments)
    (action : ReceiveAction) : WritesFit s action ↔ JoinsShortLines s action := by
  cases action with
  | receive chunk => exact Iff.rfl
  | close => exact Iff.rfl
  | pass =>
      rw [WritesFit, JoinsShortLines]
      refine forall_congr' fun curr => imp_congr_right fun _ => ?_
      by_cases empty : curr = []
      · simp [bufferWrites, empty]
      rw [bufferWrites]
      by_cases saves : savesFragment curr s.base.recv
      · have bounds := (ssplit_bounds s.base.recv.isBodyInput empty).1
        have grown : s.base.recv.cinfo.prevLen + LD_MAX ≤ s.base.recv.cinfo.grownSize := by
          rw [StompConninfo.prevLen, StompConninfo.grownSize]
          cases s.base.recv.cinfo.prevData with
          | none =>
              dsimp only
              omega
          | some prev => exact Nat.le_refl _
        have fits : ∀ write ∈ [
            (⟨s.base.recv.cinfo.prevLen, LD_MAX, s.base.recv.cinfo.grownSize⟩ : BufferWrite),
            ⟨s.base.recv.cinfo.prevLen, (ssplit curr s.base.recv.isBodyInput).2,
              s.base.recv.cinfo.grownSize⟩], write.start + write.count ≤ write.allocated := by
          intro write mem
          rcases List.mem_pair.mp mem with rfl | rfl
          · exact grown
          · exact (Nat.add_le_add_left bounds _).trans grown
        simp only [empty, saves, if_true, if_false, not_true_eq_false, false_implies, implies_true,
          iff_true]
        exact fits
      · simp only [empty, saves, if_false, ne_eq, not_false_eq_true, true_implies]
        cases buffer : s.base.recv.cinfo.prevData with
        | none =>
            rw [holds.absent.mp buffer]
            simp [RoomFor]
        | some prev =>
            have some : s.fragments ≠ [] := fun none => by
              rw [holds.absent.mpr none] at buffer
              cases buffer
            rw [← roomFor_iff some, ← holds.bytes prev buffer, ← holds.allocated prev buffer]
            constructor
            · intro fits
              exact fits _ (List.mem_cons_of_mem _ List.mem_cons_self)
            · intro room write mem
              rcases List.mem_pair.mp mem with rfl | rfl
              · dsimp only
                omega
              · exact room

/-- Over any calls of `recv_data` on a new connection, every write to `prev_data` stays below its
allocated size exactly when every line that is joined there is short enough. -/
theorem rejoin_buffer_fits_iff (env : RecvEnv) (sock : Int) (first : Nat) (bucket : List Frame)
    (wire : List SendMsg) (rands : Nat) (actions : List ReceiveAction) :
    MeetsAlong (rejoinStep env sock) WritesFit
        (Rejoining.start ⟨connInit env first, bucket, wire, rands⟩) actions ↔
      MeetsAlong (rejoinStep env sock) JoinsShortLines
        (Rejoining.start ⟨connInit env first, bucket, wire, rands⟩) actions := by
  have keeps : ∀ s action next, BufferHolds s.base.recv.cinfo.prevData s.fragments →
      JoinsShortLines s action → rejoinStep env sock s action = some next →
        BufferHolds next.base.recv.cinfo.prevData next.fragments :=
    fun s action next holds _ taken => bufferHolds_step holds taken
  apply Transition.meetsAlong_iff keeps
  · exact fun s action holds => writesFit_iff holds action
  · exact BufferHolds.none

/-- A line that comes in parts of 1000, 100 and 1000 bytes is written past the end of the buffer. -/
theorem rejoin_buffer_overflows :
    ¬ ∀ env sock first bucket wire rands actions, MeetsAlong (rejoinStep env sock) WritesFit
      (Rejoining.start ⟨connInit env first, bucket, wire, rands⟩) actions := by
  intro always
  have overflow : ¬ MeetsAlong (rejoinStep ⟨fun _ => 0, fun _ _ => true⟩ 3) WritesFit
      (Rejoining.start ⟨connInit ⟨fun _ => 0, fun _ _ => true⟩ 0, [], [], 0⟩)
      [.receive (List.replicate 1000 97), .pass, .receive (List.replicate 100 97), .pass,
        .receive (List.replicate 1000 97 ++ [LF]), .pass] := by
    decide +kernel
  exact overflow (always _ 3 0 [] [] 0 _)

end Newtmq
