/-
Module: Newtmq.Proofs.Entries
Purpose: What `stomp_setdata` stores: entries of at most `LD_MAX` bytes whose bytes, put together, are
  the data.
Trusted boundary: none
Main exports: stompSetdata_short, stompSetdata_flatten, BodyGrows, frameBodyPiece_grows
-/
import Newtmq.Spec.Encoding

namespace Newtmq

/-- The entry that holds exactly `data`. -/
@[simp] theorem linedata_bytes_exact (data : List UInt8) :
    (Linedata.mk data data.length).bytes = data := by
  simp [Linedata.bytes]

@[simp] theorem entryLines_append (first second : List Linedata) :
    entryLines (first ++ second) = entryLines first ++ entryLines second := by
  simp [entryLines]

@[simp] theorem entryLines_exact (lines : List (List UInt8)) :
    entryLines (lines.map fun line => ⟨line, line.length⟩) = lines := by
  simp [entryLines, Function.comp_def]

/-- Data of at most `LD_MAX` bytes is one entry. -/
theorem stompSetdata_short {data : List UInt8} (short : data.length ≤ LD_MAX)
    (head : List Linedata) : stompSetdata data head = head ++ [⟨data, data.length⟩] := by
  have notLong : ¬ LD_MAX < data.length := by omega
  simp [stompSetdata, setdataEntries, notLong, List.take_of_length_le short, Nat.min_eq_left short]

/-- An entry of the first `LD_MAX` bytes of longer data holds just these. -/
theorem setdataEntries_long {fuel : Nat} {data : List UInt8} (long : LD_MAX < data.length) :
    setdataEntries (fuel + 1) data =
      ⟨data.take LD_MAX, (data.take LD_MAX).length⟩ :: setdataEntries fuel (data.drop LD_MAX) := by
  simp [setdataEntries, long, Nat.min_comm]

/-- No entry is longer than its array. -/
theorem setdataEntries_le (fuel : Nat) (data : List UInt8) :
    ∀ line ∈ entryLines (setdataEntries fuel data), line.length ≤ LD_MAX := by
  induction fuel generalizing data with
  | zero => exact nofun
  | succ fuel ih =>
      intro line mem
      rw [setdataEntries, entryLines, List.map_cons, List.mem_cons] at mem
      rcases mem with rfl | mem
      · rw [Linedata.bytes, List.length_take]
        dsimp only
        omega
      · split at mem
        · exact ih _ line mem
        · cases mem

theorem setdataEntries_flatten :
    ∀ (fuel : Nat) (data : List UInt8), data.length < fuel →
      (entryLines (setdataEntries fuel data)).flatten = data := by
  intro fuel
  induction fuel with
  | zero => intro data lt; omega
  | succ fuel ih =>
      intro data lt
      by_cases long : LD_MAX < data.length
      · have shorter : (data.drop LD_MAX).length < fuel := by
          simp only [List.length_drop]
          have : 0 < LD_MAX := by decide
          omega
        rw [setdataEntries_long long, entryLines, List.map_cons, linedata_bytes_exact,
          List.flatten_cons, ← entryLines, ih _ shorter, List.take_append_drop]
      · have short : data.length ≤ LD_MAX := by omega
        simp [setdataEntries, long, entryLines, List.take_of_length_le short, Nat.min_eq_left short]

/-- The stored bytes are the data. -/
theorem stompSetdata_flatten (data : List UInt8) (head : List Linedata) :
    (entryLines (stompSetdata data head)).flatten = (entryLines head).flatten ++ data := by
  rw [stompSetdata, entryLines_append, List.flatten_append,
    setdataEntries_flatten _ _ (Nat.lt_succ_self _)]

/-- `frame` is `start` with `piece` appended to its body. -/
structure BodyGrows (start frame : Frame) (piece : List UInt8) : Prop where
  name : frame.name = start.name
  attrs : frame.hAttrs = start.hAttrs
  status : frame.status = start.status
  contentlen : frame.contentlen = start.contentlen
  received : frame.hasContentlen = wrap32 (start.hasContentlen + piece.length)
  data : (entryLines frame.hData).flatten = (entryLines start.hData).flatten ++ piece
  size : frame.size = wrap32 (start.size + piece.length)

/-- A piece of the body that is not empty grows the frame by its bytes. -/
theorem frameBodyPiece_grows (frame : Frame) {piece : List UInt8} (rest : List UInt8)
    (nonempty : piece ≠ []) :
    BodyGrows frame (frameBodyPiece (piece ++ rest) piece.length frame) piece := by
  have positive := List.length_pos_iff.mpr nonempty
  constructor <;> simp [frameBodyPiece, positive]
  rw [stompSetdata_flatten]

end Newtmq
