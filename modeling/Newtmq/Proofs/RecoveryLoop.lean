/-
Module: Newtmq.Proofs.RecoveryLoop
Purpose: The first call of `parse_frame` in a block either uses the block up or leaves an index from
  which the next call reaches past the block, so the loop over the blocks advances exactly when each
  block is used up by one call.
Trusted boundary: none
Main exports: parseFrom_readBlock, blockAdvances_iff, filePass_usedUp, recovery_advances_iff
-/
import Newtmq.Spec.RecoveryLoop
import Newtmq.Proofs.HandedLines
import Newtmq.Proofs.ParseSteps
import Newtmq.Proofs.Recovery
import Mathlib.Data.Vector.Basic

namespace Newtmq

open Loop (Visits)

variable (rand : Nat → Nat)

/-- The loop over the file is what `unpersist_queue_context` runs. -/
theorem unpersistQueueContext_start {frameBuffer dirpath : List UInt8} {pm : PersistentManager}
    {prevBuffer : Option (List UInt8)} {rands : Nat} {start : FileState}
    (begins : recoveryStart frameBuffer dirpath pm prevBuffer rands = some start) :
    unpersistQueueContext rand frameBuffer dirpath pm prevBuffer rands =
      (Loop.run (filePass rand) (start.1.1.length + 1) start).join.map
        fun st => (.success, st.head, st.prevBuffer) := by
  rw [recoveryStart] at begins
  rw [unpersistQueueContext]
  split at begins
  · cases begins
  next stored =>
    rw [if_neg stored]
    obtain ⟨files, disk, rfl⟩ := Option.map_eq_some_iff.mp begins
    rw [disk]

/-! ### One call -/

/-- At the start of a pass nothing has been stored through `offset` but the end of the line before. -/
def ParseState.AtLine (st : ParseState) : Prop :=
  st.prevBuffer = none ∧ (st.curr = 0 ∧ st.offset = -1 ∨ 0 < st.curr ∧ st.offset = st.curr + 1)

/-- What a call does from here on, when the lines of the block are read from here on. -/
def ReadOutcome (inputLen : Nat) (returned : Option (Ret × ParseState)) :
    Option (Option Frame) → Prop
  | some left => ∃ ret parsed, returned = some (ret, parsed) ∧ (inputLen : Int) ≤ parsed.offset ∧
      parsed.prevBuffer = none ∧ left = if ret = .success then none else some parsed.frame
  | none => ∀ ret parsed, returned = some (ret, parsed) → parsed.offset < (inputLen : Int)

theorem readBlock_line {fuel limit len : Nat} {memory : List UInt8} {frame : Frame} {ret : Ret}
    (more : 0 < limit)
    (split : ssplit (memory.take limit) (frame.status = .inputBody) = (ret, len)) :
    readBlock (fuel + 1) memory limit frame =
      if (ret = .error ∧ frame.status = .inputBody) ∨ updateInside memory len frame = false then none
      else
        let used :=
          if frame.status = .inputBody then len + (if isBl memory then 1 else 0) else len + 1
        let updated := frameUpdate id memory len frame
        if 0 < updated.1 then (if limit ≤ used + 1 then some none else none)
        else readBlock fuel (memory.drop used) (limit - used) updated.2 := by
  have some : limit ≠ 0 := by omega
  rw [readBlock, if_neg some]
  simp only [split]

/-- A piece of a body that is left over ends a call with the offset that it began with. -/
theorem readOutcome_open {memory : List UInt8} {inputLen len : Nat} {st : ParseState}
    (atLine : st.AtLine) (more : st.curr < inputLen)
    (found : ssplitIn (memory.drop st.curr) (inputLen - st.curr) (st.frame.status = .inputBody) =
      some (.error, len)) (within : len ≤ inputLen - st.curr)
    (body : st.frame.status = .inputBody) :
    ReadOutcome inputLen (parseFrom rand memory inputLen st) none := by
  have pass := parsePass_open rand more found body
  have moved := atLine.2
  intro ret parsed returned
  split at pass
  next =>
    rw [parseFrom_leave rand pass] at returned
    cases returned
  next whole =>
    rw [parseFrom_leave rand pass] at returned
    cases returned
    simp only
    omega

/-- A line that completes a frame uses the block up unless more than one byte follows. -/
theorem readOutcome_complete {memory : List UInt8} {inputLen used : Nat} {st next : ParseState}
    (more : st.curr < inputLen)
    (pass : parsePass rand memory inputLen st = .leave (some (.success, next)))
    (offset : next.offset = (st.curr + used : Nat) + 1) (kept : next.prevBuffer = none) :
    ReadOutcome inputLen (parseFrom rand memory inputLen st)
      (if inputLen - st.curr ≤ used + 1 then some none else none) := by
  rw [parseFrom_leave rand pass]
  split
  next all => exact ⟨.success, next, rfl, by omega, kept, rfl⟩
  next short =>
    rintro ret parsed ⟨⟩
    omega

/-- A call uses the block up when the lines of the block leave nothing over, and stops short of its end
when they do. -/
theorem parseFrom_readBlock {memory : List UInt8} {inputLen : Nat} (positive : 0 < inputLen)
    (sized : inputLen ≤ memory.length) :
    ∀ (fuel : Nat) (st : ParseState), st.AtLine → inputLen - st.curr ≤ fuel →
      ReadOutcome inputLen (parseFrom rand memory inputLen st)
        (readBlock fuel (memory.drop st.curr) (inputLen - st.curr) st.frame) := by
  have past : ∀ (st : ParseState), st.AtLine → inputLen ≤ st.curr →
      ReadOutcome inputLen (parseFrom rand memory inputLen st) (some (some st.frame)) := by
    rintro st ⟨saved, moved⟩ done
    have pass : parsePass rand memory inputLen st = .leave (some (.error, st)) := by
      rw [parsePass, if_pos done]
    rw [parseFrom_leave rand pass]
    exact ⟨.error, st, rfl, by omega, saved, rfl⟩
  intro fuel
  induction fuel with
  | zero =>
      intro st atLine enough
      rw [readBlock]
      exact past st atLine (by omega)
  | succ fuel ih =>
      intro st atLine enough
      by_cases done : inputLen ≤ st.curr
      · rw [readBlock, if_pos (by omega)]
        exact past st atLine done
      have more : st.curr < inputLen := by omega
      cases split : ssplit ((memory.drop st.curr).take (inputLen - st.curr))
        (st.frame.status = .inputBody) with
      | mk ret len =>
      have found : ssplitIn (memory.drop st.curr) (inputLen - st.curr)
          (st.frame.status = .inputBody) = some (ret, len) := by
        rw [ssplitIn, if_pos (by rw [List.length_drop]; omega), split]
      have nonempty : (memory.drop st.curr).take (inputLen - st.curr) ≠ [] := by
        rw [← List.length_pos_iff, List.length_take, List.length_drop]
        omega
      have within : len ≤ inputLen - st.curr := by
        have short := (ssplit_le (st.frame.status = .inputBody) nonempty).trans
          (List.length_take_le _ _)
        rwa [split] at short
      rw [readBlock_line (by omega) split]
      by_cases leftOver : ret = .error ∧ st.frame.status = .inputBody
      · rw [if_pos (Or.inl leftOver)]
        rw [leftOver.1] at found
        exact readOutcome_open rand atLine more found within leftOver.2
      have whole : ret = .success ∨ st.frame.status ≠ .inputBody := by
        cases ret with
        | success => exact Or.inl rfl
        | error => exact Or.inr fun body => leftOver ⟨rfl, body⟩
      have pass := parsePass_line rand more atLine.1 found whole
      by_cases inside : updateInside (memory.drop st.curr) len st.frame = true
      · rw [if_neg (by simp [leftOver, inside])]
        rw [if_pos inside] at pass
        obtain ⟨same, goesOn⟩ := frameUpdate_finish (parseFinish rand st.rands)
          (memory.drop st.curr) len st.frame
        have place : (if st.frame.status = .inputBody then
            st.curr + len + (if isBl (memory.drop st.curr) then 1 else 0)
            else st.curr + len + 1) =
            st.curr + (if st.frame.status = .inputBody then
              len + (if isBl (memory.drop st.curr) then 1 else 0) else len + 1) := by
          split <;> omega
        simp only [place] at pass ⊢
        by_cases complete : 0 < (frameUpdate id (memory.drop st.curr) len st.frame).1
        · rw [if_pos complete]
          rw [same, if_pos complete] at pass
          exact readOutcome_complete rand more pass (by simp) atLine.1
        · rw [if_neg complete]
          rw [same, if_neg complete, goesOn complete] at pass
          have forward := parsePass_again rand pass
          rw [parseFrom_again rand pass, List.drop_drop, Nat.sub_sub]
          exact ih _ ⟨forward.2.2.1, Or.inr ⟨by omega, forward.2.2.2.2⟩⟩ (by omega)
      · rw [if_pos (Or.inr (by simpa using inside))]
        rw [if_neg inside] at pass
        rw [parseFrom_leave rand pass]
        rintro ret parsed ⟨⟩

/-! ### One block -/

/-- With a saved fragment, the first call of a block does not advance. -/
theorem blockAdvances_unsaved {frameBuffer : List UInt8} {len : Nat} {st : UnpersistState}
    (start : st.index = 0) (advances : BlockAdvances rand frameBuffer len st) :
    st.prevBuffer = none := by
  by_contra saved
  have kept : st.prevBuffer.isSome := Option.isSome_iff_ne_none.mpr saved
  obtain ⟨next, grows, pass⟩ := (advances.calls st Relation.ReflTransGen.refl).grows
  rw [blockPass_eq rand frameBuffer len (by omega)] at pass
  split at pass
  · rcases pass with pass | pass <;> cases pass
  next returned call =>
    have back := (parseFrame_saved rand kept call).2
    have after : next = st.afterCall returned := by
      split at pass
      · rcases pass with pass | pass
        · exact (Loop.Step.again.inj pass).symm
        · cases pass
      · rcases pass with pass | pass
        · cases pass
        · exact (Option.some.inj (Loop.Step.leave.inj pass)).symm
    rw [after, UnpersistState.afterCall] at grows
    simp only at grows
    omega

/-- Without one, the first call uses the block up or it does not advance. -/
theorem blockPass_readBlock {frameBuffer : List UInt8} {len : Nat} (positive : 0 < len)
    (sized : len ≤ frameBuffer.length) {st : UnpersistState} (start : st.index = 0)
    (saved : st.prevBuffer = none) :
    match readBlock len frameBuffer len (st.frame.getD allocFrame) with
    | some left => ∃ next, blockPass rand frameBuffer len st = .leave (some next) ∧
        0 < next.index ∧ next.frame = left ∧ next.prevBuffer = none
    | none => ¬ BlockAdvances rand frameBuffer len st := by
  let first : ParseState := ⟨0, st.frame.getD allocFrame, none, -1, st.rands⟩
  have outcome := parseFrom_readBlock rand positive sized len first ⟨rfl, Or.inl ⟨rfl, rfl⟩⟩
    (Nat.sub_le _ _)
  have call : parseFrame rand (frameBuffer.drop st.index.toNat) len (st.frame.getD allocFrame)
      st.prevBuffer st.rands = parseFrom rand frameBuffer len first := by
    rw [start, saved]
    rfl
  have pass := blockPass_eq rand frameBuffer len (show 0 ≤ st.index by omega)
  rw [call] at pass
  change ReadOutcome len (parseFrom rand frameBuffer len first)
    (readBlock len frameBuffer len (st.frame.getD allocFrame)) at outcome
  split
  next left read =>
    rw [read] at outcome
    obtain ⟨ret, parsed, returned, offset, kept, same⟩ := outcome
    rw [returned] at pass
    have past : ¬ (st.afterCall (ret, parsed)).index < len := by
      simp only [UnpersistState.afterCall, start]
      omega
    refine ⟨_, pass.trans (if_neg past), by omega, ?_, kept⟩
    rw [same, UnpersistState.afterCall]
  next read =>
    rw [read] at outcome
    intro advances
    cases returned : parseFrom rand frameBuffer len first with
    | none =>
        rw [returned] at pass
        obtain ⟨next, _, again⟩ := (advances.calls st Relation.ReflTransGen.refl).grows
        rw [pass] at again
        rcases again with again | again <;> cases again
    | some result =>
        -- The second call is given the length of the whole block again.
        have short := outcome result.1 result.2 returned
        rw [returned] at pass
        have inside : (st.afterCall result).index < len := by
          simp only [UnpersistState.afterCall, start]
          omega
        simp only [if_pos inside] at pass
        have second := (advances.calls _ (Relation.ReflTransGen.single pass)).length
        obtain ⟨next, grows, again⟩ := (advances.calls st Relation.ReflTransGen.refl).grows
        rw [pass] at again
        rcases again with again | again
        · cases again
          omega
        · cases again

/-- The loop advances in a block exactly when no fragment is at hand and the block leaves nothing over. -/
theorem blockAdvances_iff {frameBuffer : List UInt8} {len : Nat} (positive : 0 < len)
    (sized : len ≤ frameBuffer.length) {st : UnpersistState} (start : st.index = 0) :
    BlockAdvances rand frameBuffer len st ↔
      st.prevBuffer = none ∧ readBlock len frameBuffer len (st.frame.getD allocFrame) ≠ none := by
  constructor
  · intro advances
    have saved := blockAdvances_unsaved rand start advances
    have read := blockPass_readBlock rand positive sized start saved
    refine ⟨saved, fun outside => ?_⟩
    rw [outside] at read
    exact read advances
  · rintro ⟨saved, read⟩
    obtain ⟨left, used⟩ := Option.ne_none_iff_exists'.mp read
    have whole := blockPass_readBlock rand positive sized start saved
    rw [used] at whole
    obtain ⟨next, leave, grows, _, _⟩ := whole
    refine ⟨⟨_, Loop.returns_of_leave leave⟩, ?_⟩
    intro later visits
    have only : later = st := by
      cases visits.cases_head with
      | inl same => exact same.symm
      | inr moved =>
          obtain ⟨other, again, _⟩ := moved
          rw [leave] at again
          cases again
    rw [only]
    exact ⟨by omega, by omega, by omega, next, by omega, Or.inr leave⟩

/-! ### The file -/

/-- A block that is used up leads to the next one, without a saved fragment. -/
theorem filePass_usedUp {s : FileState} (sized : s.1.2.length = BUFFER_LEN)
    (more : FileState.block s ≠ []) (saved : s.2.prevBuffer = none) {left : Option Frame}
    (read : readBlock (FileState.block s).length (FileState.filled s) (FileState.block s).length
      (s.2.frame.getD allocFrame) = some left) :
    ∃ next : FileState, filePass rand s = .again next ∧ next.1 = (s.1.1.drop BUFFER_LEN, s.filled) ∧
      next.2.frame = left ∧ next.2.prevBuffer = none := by
  have size : BUFFER_LEN = 1024 := rfl
  have positive : 0 < (FileState.block s).length := List.length_pos_iff.mpr more
  have fits : (FileState.block s).length ≤ (FileState.filled s).length := by
    rw [FileState.filled, List.length_append]
    exact Nat.le_add_right _ _
  have first : ({ s.2 with index := 0 } : UnpersistState).index = 0 := rfl
  have whole := blockPass_readBlock rand positive fits first saved
  rw [read] at whole
  obtain ⟨next, leave, _, frame, kept⟩ := whole
  refine ⟨((s.1.1.drop BUFFER_LEN, s.filled), next), ?_, rfl, frame, kept⟩
  obtain ⟨⟨file, frameBuffer⟩, st⟩ := s
  have ran : Loop.run (blockPass rand (FileState.filled ((file, frameBuffer), st))
      (FileState.block ((file, frameBuffer), st)).length) (3 * BUFFER_LEN) { st with index := 0 } =
        some (some next) := Loop.run_succ_leave leave _
  simp only [FileState.block, FileState.filled] at more ran
  simp only [filePass, more, if_false, ran]
  rfl

theorem FileState.filled_length {s : FileState} (sized : s.1.2.length = BUFFER_LEN) :
    (FileState.filled s).length = BUFFER_LEN := by
  have short : (FileState.block s).length ≤ BUFFER_LEN := List.length_take_le _ _
  rw [filled, List.length_append, List.length_drop, sized]
  omega

/-- The buffer stays as large as it is. -/
theorem filePass_sized {s next : FileState} (sized : s.1.2.length = BUFFER_LEN)
    (again : filePass rand s = .again next) : next.1.2.length = BUFFER_LEN := by
  obtain ⟨⟨file, frameBuffer⟩, st⟩ := s
  have filled := FileState.filled_length sized
  simp only [filePass] at again
  split at again
  · cases again
  · split at again
    · cases again
      exact filled
    · cases again

theorem recoveryAdvances_end {s : FileState} (ended : FileState.block s = []) :
    RecoveryAdvances rand s := by
  obtain ⟨⟨file, frameBuffer⟩, st⟩ := s
  have leave : filePass rand ((file, frameBuffer), st) = .leave (some st) := by
    simp only [FileState.block] at ended
    simp [filePass, ended]
  intro later visits more
  cases visits.cases_head with
  | inl same => exact absurd (same ▸ ended) more
  | inr moved =>
      obtain ⟨next, again, _⟩ := moved
      rw [leave] at again
      cases again

/-- The loop advances in this block and in those that follow it. -/
theorem recoveryAdvances_step {s : FileState} (more : FileState.block s ≠ []) :
    RecoveryAdvances rand s ↔
      (s.2.prevBuffer = none ∧ readBlock (FileState.block s).length (FileState.filled s)
        (FileState.block s).length (s.2.frame.getD allocFrame) ≠ none) ∧
      ∀ next, filePass rand s = .again next → RecoveryAdvances rand next := by
  have positive : 0 < (FileState.block s).length := List.length_pos_iff.mpr more
  have fits : (FileState.block s).length ≤ (FileState.filled s).length := by
    rw [FileState.filled, List.length_append]
    exact Nat.le_add_right _ _
  have first : ({ s.2 with index := 0 } : UnpersistState).index = 0 := rfl
  rw [← blockAdvances_iff rand positive fits first]
  constructor
  · intro advances
    exact ⟨advances s Relation.ReflTransGen.refl more,
      fun next again later visits => advances later (Relation.ReflTransGen.head again visits)⟩
  · rintro ⟨here, rest⟩ later visits
    cases visits.cases_head with
    | inl same => exact fun _ => same ▸ here
    | inr moved =>
        obtain ⟨next, again, visits⟩ := moved
        exact rest next again later visits

theorem blocksUsedUp_block (fuel : Nat) (s : FileState) :
    blocksUsedUp (fuel + 1) s.1.1 s.1.2 s.2.frame =
      if FileState.block s = [] then true
      else
        match readBlock (FileState.block s).length (FileState.filled s) (FileState.block s).length
          (s.2.frame.getD allocFrame) with
        | none => false
        | some left => blocksUsedUp fuel (s.1.1.drop BUFFER_LEN) (FileState.filled s) left :=
  rfl

/-- From a state without a saved fragment, the loop advances in all blocks exactly when none of them
leaves anything over. -/
theorem recoveryAdvances_blocks :
    ∀ (fuel : Nat) {s : FileState}, s.1.1.length ≤ fuel → s.1.2.length = BUFFER_LEN →
      s.2.prevBuffer = none →
        (RecoveryAdvances rand s ↔ blocksUsedUp fuel s.1.1 s.1.2 s.2.frame = true) := by
  have size : BUFFER_LEN = 1024 := rfl
  intro fuel
  induction fuel with
  | zero =>
      intro s enough _ _
      have ended : FileState.block s = [] := by
        rw [FileState.block, List.length_eq_zero_iff.mp (Nat.le_zero.mp enough), List.take_nil]
      simp [blocksUsedUp, recoveryAdvances_end rand ended]
  | succ fuel ih =>
      intro s enough sized saved
      rw [blocksUsedUp_block]
      by_cases ended : FileState.block s = []
      · rw [if_pos ended]
        simp [recoveryAdvances_end rand ended]
      rw [if_neg ended, recoveryAdvances_step rand ended]
      cases read : readBlock (FileState.block s).length (FileState.filled s)
        (FileState.block s).length (s.2.frame.getD allocFrame) with
      | none => simp
      | some left =>
          obtain ⟨next, again, moved, frame, kept⟩ := filePass_usedUp rand sized ended saved read
          have positive := List.length_pos_iff.mpr ended
          rw [FileState.block, List.length_take] at positive
          have rest := ih (s := next) (by rw [moved, List.length_drop]; omega)
            (filePass_sized rand sized again) kept
          rw [moved, frame] at rest
          rw [← rest]
          constructor
          · rintro ⟨_, follows⟩
            exact follows next again
          · intro advances
            refine ⟨⟨saved, Option.some_ne_none left⟩, fun other same => ?_⟩
            rw [again] at same
            cases same
            exact advances

theorem recoveryAdvances_usedUp {s : FileState} (sized : s.1.2.length = BUFFER_LEN) :
    RecoveryAdvances rand s ↔ UsedUpInBlocks s := by
  by_cases empty : s.1.1 = []
  · have ended : FileState.block s = [] := by rw [FileState.block, empty, List.take_nil]
    simp [UsedUpInBlocks, empty, recoveryAdvances_end rand ended]
  · have more : FileState.block s ≠ [] := by
      rw [FileState.block, ne_eq, List.take_eq_nil_iff]
      simp [empty, BUFFER_LEN]
    rw [UsedUpInBlocks, or_iff_right empty]
    constructor
    · intro advances
      have saved := ((recoveryAdvances_step rand more).mp advances).1.1
      exact ⟨saved, (recoveryAdvances_blocks rand _ (Nat.le_refl _) sized saved).mp advances⟩
    · rintro ⟨saved, used⟩
      exact (recoveryAdvances_blocks rand _ (Nat.le_refl _) sized saved).mpr used

/-- `frame_buffer` at the start is the array as it was. -/
theorem recoveryStart_frameBuffer {frameBuffer dirpath : List UInt8} {pm : PersistentManager}
    {prevBuffer : Option (List UInt8)} {rands : Nat} {start : FileState}
    (begins : start ∈ recoveryStart frameBuffer dirpath pm prevBuffer rands) :
    start.1.2 = frameBuffer := by
  rw [recoveryStart] at begins
  split at begins
  · cases begins
  · obtain ⟨files, _, rfl⟩ := Option.map_eq_some_iff.mp begins
    rfl

/-- In recovering a data file, the inner loop advances in every block exactly when the blocks are used
up by one call each. -/
theorem recovery_advances_iff (frameBuffer : List.Vector UInt8 BUFFER_LEN) (dirpath : List UInt8)
    (pm : PersistentManager) (prevBuffer : Option (List UInt8)) (rands : Nat) :
    (∀ start ∈ recoveryStart frameBuffer.toList dirpath pm prevBuffer rands,
        RecoveryAdvances rand start) ↔
      ∀ start ∈ recoveryStart frameBuffer.toList dirpath pm prevBuffer rands,
        UsedUpInBlocks start := by
  refine forall₂_congr fun start begins => recoveryAdvances_usedUp rand ?_
  rw [recoveryStart_frameBuffer begins, List.Vector.toList_length]

/-- A data file with two short frames, both of which are still to be sent. -/
def twoShortFrames : PersistentManager :=
  { emptyFiles with
    disk := fun _ => some
      ⟨cstring "SEND\ncontent-length:0\n\n" ++ [0] ++ cstring "SEND\ncontent-length:0\n\n" ++ [0],
        some 0⟩ }

/-- After the first frame, the call of `parse_frame` is given the length of both. -/
theorem recovery_reaches_past_block :
    ¬ ∀ start ∈ recoveryStart (List.replicate BUFFER_LEN 0) (cstring "/var/q") twoShortFrames none 0,
        RecoveryAdvances (fun _ => 0) start := by
  intro advances
  cases begins : recoveryStart (List.replicate BUFFER_LEN 0) (cstring "/var/q") twoShortFrames none 0 with
  | none => cases begins
  | some start =>
      have used := (recoveryAdvances_usedUp (fun _ => 0)
        (by rw [recoveryStart_frameBuffer begins, List.length_replicate])).mp (advances start begins)
      cases begins
      revert used
      decide +kernel

end Newtmq
