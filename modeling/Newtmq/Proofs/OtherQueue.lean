/-
Module: Newtmq.Proofs.OtherQueue
Purpose: A call of `unpersist_queue_context` leaves nothing in the static buffer of `parse_frame`, so
  that a later call depends on it through `frame_buffer` only, and not at all when the later one reads
  the bytes of its own file only.
Trusted boundary: none
Main exports: Alike, parsePass_follows, recoverBytes_follows, readsInside_whole,
  independent_of_readsInside
-/
import Newtmq.Spec.OtherQueue
import Newtmq.Proofs.LineMemory
import Newtmq.Proofs.ParseRuns

namespace Newtmq

/-! ### More memory -/

theorem ssplitScan_append {isBody : Bool} (more : List UInt8) {len : Nat} :
    ∀ {bytes : List UInt8} {count : Nat}, ssplitScan isBody bytes count = (.success, len) →
      ssplitScan isBody (bytes ++ more) count = (.success, len)
  | [], _, found => by cases found
  | c :: rest, count, found => by
      rw [ssplitScan] at found
      rw [List.cons_append, ssplitScan]
      split at found
      next stops => rwa [if_pos stops]
      next passes =>
        rw [if_neg passes]
        exact ssplitScan_append more found

/-- A line that is found does not depend on what follows. -/
theorem ssplit_append {isBody : Bool} {bytes : List UInt8} {len : Nat}
    (found : ssplit bytes isBody = (.success, len)) (more : List UInt8) :
    ssplit (bytes ++ more) isBody = (.success, len) := by
  cases bytes with
  | nil => simp [ssplit, isBl, isNl, ssplitScan] at found
  | cons c rest =>
      have start : ∀ tail, (isBl (c :: tail) || (!isBody && isNl (c :: tail))) =
          emptyStart isBody c := fun tail => by simp [isBl, isNl, emptyStart]
      rw [ssplit, start, List.tail_cons] at found
      rw [List.cons_append, ssplit, start, List.tail_cons]
      split at found
      next empty => rwa [if_pos empty]
      next text =>
        rw [if_neg text]
        exact ssplitScan_append more found

theorem ssplitIn_append {isBody : Bool} {memory : List UInt8} {limit : Nat} {found : Ret × Nat}
    (split : ssplitIn memory limit isBody = some found) (more : List UInt8) :
    ssplitIn (memory ++ more) limit isBody = some found := by
  rw [ssplitIn] at split
  by_cases inside : limit ≤ memory.length
  · rw [if_pos inside] at split
    rw [ssplitIn, if_pos (by rw [List.length_append]; omega),
      List.take_append_of_le_length inside, split]
  · rw [if_neg inside] at split
    cases here : ssplit memory isBody with
    | mk ret len =>
        cases ret with
        | error =>
            rw [here] at split
            cases split
        | success =>
            rw [here] at split
            rw [ssplitIn]
            by_cases wide : limit ≤ (memory ++ more).length
            · have cut : (memory ++ more).take limit = memory ++ more.take (limit - memory.length) := by
                rw [List.take_append, List.take_of_length_le (by omega)]
              rw [if_pos wide, cut, ssplit_append here]
              exact split
            · rw [if_neg wide, ssplit_append here]
              exact split

/-- The line lies inside the memory, and before the limit. -/
theorem ssplitIn_inside {isBody : Bool} {memory : List UInt8} {limit : Nat} {ret : Ret} {len : Nat}
    (positive : 0 < limit) (split : ssplitIn memory limit isBody = some (ret, len)) :
    memory ≠ [] ∧ len ≤ memory.length ∧ len ≤ limit := by
  rw [ssplitIn] at split
  split at split
  next inside =>
    have nonempty : memory ≠ [] := by
      rintro rfl
      rw [List.length_nil] at inside
      omega
    have cut : memory.take limit ≠ [] := by
      rw [ne_eq, List.take_eq_nil_iff]
      rintro (zero | none)
      · omega
      · exact nonempty none
    have le := ssplit_le isBody cut
    rw [Option.some.inj split, List.length_take] at le
    exact ⟨nonempty, by omega, by omega⟩
  · split at split
    next found here =>
      cases split
      have nonempty : memory ≠ [] := by
        rintro rfl
        simp [ssplit, isBl, isNl, ssplitScan] at here
      have le := ssplit_le isBody nonempty
      rw [here] at le
      exact ⟨nonempty, le, by omega⟩
    · cases split

/-- A number whose end lies inside the memory does not depend on what follows. -/
theorem atoi_inside {input : List UInt8} (inside : atoiInside input = true) (more : List UInt8) :
    atoi (input ++ more) = atoi input ∧ atoiInside (input ++ more) = true := by
  have ends : ∀ {digits : List UInt8}, (digits.dropWhile isdigit).isEmpty = false →
      (digits ++ more).takeWhile isdigit = digits.takeWhile isdigit ∧
        ((digits ++ more).dropWhile isdigit).isEmpty = false := by
    intro digits rest
    rw [List.dropWhile_append, rest, List.takeWhile_append, if_neg]
    · refine ⟨rfl, ?_⟩
      cases tail : digits.dropWhile isdigit with
      | nil => rw [tail] at rest; cases rest
      | cons c tail => simp
    · intro whole
      have split := congrArg List.length (List.takeWhile_append_dropWhile (p := isdigit) (l := digits))
      rw [List.length_append, whole] at split
      have none : digits.dropWhile isdigit = [] := List.length_eq_zero_iff.mp (by omega)
      rw [none] at rest
      cases rest
  unfold atoiInside at inside
  cases number : input.dropWhile isspace with
  | nil => rw [number] at inside; cases inside
  | cons c rest =>
      rw [number] at inside
      have skipped : (input ++ more).dropWhile isspace = c :: (rest ++ more) := by
        rw [List.dropWhile_append, number]
        rfl
      simp only [Bool.not_eq_true'] at inside
      simp only [atoi, strtol, atoiInside, skipped, number, Bool.not_eq_true']
      by_cases sign : c = 45 ∨ c = 43
      · rw [if_pos sign] at inside
        simp only [if_pos sign, (ends inside).1, (ends inside).2, and_self]
      · rw [if_neg sign] at inside
        have found := ends inside
        rw [List.cons_append] at found
        simp only [if_neg sign, found.1, found.2, and_self]

/-- `frame_update` does not depend on what follows the memory that it stays in. -/
theorem frameUpdate_append (finish : Frame → Frame) {line : List UInt8} {len : Nat} {frame : Frame}
    (nonempty : line ≠ []) (held : len ≤ line.length) (inside : updateInside line len frame = true)
    (more : List UInt8) :
    frameUpdate finish (line ++ more) len frame = frameUpdate finish line len frame ∧
      updateInside (line ++ more) len frame = true := by
  have cut : line ++ more = line.take len ++ (line.drop len ++ more) := by
    rw [← List.append_assoc, List.take_append_drop]
  have sized : (line.take len).length = len := List.length_take_of_le held
  have command : ∀ rows, findFrameName (line ++ more) len rows = findFrameName line len rows := by
    intro rows
    have one := findFrameName_append (line.take len) (line.drop len ++ more) rows
    have two := findFrameName_append (line.take len) (line.drop len) rows
    rw [← cut, sized] at one
    rw [List.take_append_drop, sized] at two
    rw [one, two]
  have header : isContentlen (line ++ more) len = isContentlen line len := by
    have one := isContentlen_append (line.take len) (line.drop len ++ more)
    have two := isContentlen_append (line.take len) (line.drop len)
    rw [← cut, sized] at one
    rw [List.take_append_drop, sized] at two
    rw [one, two]
  have newline : isNl (line ++ more) = isNl line := by
    obtain ⟨c, rest, rfl⟩ := List.exists_cons_of_ne_nil nonempty
    rfl
  have taken : (line ++ more).take len = line.take len := List.take_append_of_le_length held
  have number : frame.status = .inputHeader → isContentlen line len = true →
      getContentlen (line ++ more) = getContentlen line ∧
        atoiInside ((line ++ more).drop 15) = true := by
    intro status announces
    have long : 15 < len := by
      simp only [isContentlen, Bool.and_eq_true, decide_eq_true_eq] at announces
      exact announces.1
    simp only [updateInside, status, announces, decide_true, Bool.and_self, Bool.not_true,
      Bool.false_or] at inside
    rw [getContentlen, getContentlen, List.drop_append_of_le_length (by omega)]
    exact atoi_inside inside more
  constructor
  · cases status : frame.status with
    | born => simp only [frameUpdate, status, frameSetname, command]
    | inputHeader =>
        have stored : frameHeaderLine (line ++ more) len frame = frameHeaderLine line len frame := by
          simp only [frameHeaderLine, header, taken]
          by_cases announces : isContentlen line len = true
          · simp only [announces, (number status announces).1]
          · simp only [announces, Bool.false_eq_true, if_false]
        simp only [frameUpdate, status, newline, stored]
    | inputBody => simp only [frameUpdate, status, frameBodyPiece, taken]
    | clear | inputName | inBucket | inQueue => simp only [frameUpdate, status]
  · simp only [updateInside, header]
    by_cases announces : frame.status = .inputHeader ∧ isContentlen line len = true
    · simp [announces.1, announces.2, (number announces.1 announces.2).2]
    · by_cases status : frame.status = .inputHeader
      · have silent : isContentlen line len = false := by
          rw [← Bool.not_eq_true]
          exact fun h => announces ⟨status, h⟩
        simp [silent]
      · simp [status]

/-! ### Two runs -/

/-- Two frames that differ in nothing but their ids. -/
theorem eq_of_withoutId {one two : Frame} (same : one.withoutId = two.withoutId) :
    one = { two with id := one.id } := by
  cases one
  cases two
  simp only [Frame.withoutId, Frame.mk.injEq, true_and] at same
  simp [same]

/-- `frame_update` does not look at the id. -/
theorem frameUpdate_withoutId (rand : Nat → Nat) (rands later : Nat) (line : List UInt8) (len : Nat)
    {one two : Frame} (same : one.withoutId = two.withoutId) :
    (frameUpdate (parseFinish rand rands) line len one).1 =
        (frameUpdate (parseFinish rand later) line len two).1 ∧
      (frameUpdate (parseFinish rand rands) line len one).2.withoutId =
        (frameUpdate (parseFinish rand later) line len two).2.withoutId := by
  rw [eq_of_withoutId same]
  generalize one.id = id
  obtain ⟨name, _, sock, status, contentlen, hasContentlen, hAttrs, hData, size, cinfo, callback,
    data⟩ := two
  cases status with
  | born =>
      simp only [frameUpdate, frameSetname]
      cases findFrameName line len finfoArr <;> exact ⟨rfl, rfl⟩
  | inputHeader =>
      simp only [frameUpdate, frameHeaderLine]
      by_cases begins : (isNl line && decide (0 < contentlen)) = true
      · simp only [if_pos begins]
        exact ⟨trivial, rfl⟩
      · by_cases ends : (isNl line && decide (contentlen = 0)) = true
        · simp only [if_neg begins, if_pos ends]
          exact ⟨trivial, rfl⟩
        · simp only [if_neg begins, if_neg ends]
          split <;> exact ⟨trivial, rfl⟩
  | inputBody =>
      simp only [frameUpdate, frameBodyPiece]
      by_cases some : 0 < len
      · simp only [if_pos some]
        split <;> exact ⟨rfl, rfl⟩
      · simp only [if_neg some]
        split <;> exact ⟨rfl, rfl⟩
  | clear | inputName | inBucket | inQueue => exact ⟨rfl, rfl⟩

/-- Two states of the loop of `parse_frame` in two runs: they differ in the ids and in the number of
calls of `rand()` only. -/
structure Alike (one two : ParseState) : Prop where
  curr : one.curr = two.curr
  frame : one.frame.withoutId = two.frame.withoutId
  prevBuffer : one.prevBuffer = two.prevBuffer
  offset : one.offset = two.offset

/-- What two calls of `parse_frame` return in two runs. -/
def AlikeReturn (one two : Ret × ParseState) : Prop :=
  one.1 = two.1 ∧ Alike one.2 two.2

variable (rand : Nat → Nat)

/-- A pass that stays inside its memory is the same pass when more memory follows. -/
theorem parsePass_follows {memory more : List UInt8} {inputLen : Nat} (extends_ : memory <+: more)
    (st beside : ParseState) (alike : Alike st beside) :
    Loop.Follows Alike AlikeReturn (parsePass rand memory inputLen st)
      (parsePass rand more inputLen beside) := by
  obtain ⟨curr, frame, prevBuffer, offset, rands⟩ := st
  obtain ⟨curr', frame', prevBuffer', offset', later⟩ := beside
  obtain ⟨rfl, same, rfl, rfl⟩ := alike
  obtain ⟨tail, rfl⟩ := extends_
  have status : frame'.status = frame.status := (congrArg Frame.status same).symm
  simp only [parsePass, status]
  by_cases past : inputLen ≤ curr
  · simp only [if_pos past]
    exact .leave ⟨rfl, rfl, same, rfl, rfl⟩
  · simp only [if_neg past]
    cases split : ssplitIn (memory.drop curr) (inputLen - curr) (frame.status = .inputBody) with
    | none => exact .lost _
    | some found =>
        obtain ⟨ret, len⟩ := found
        obtain ⟨nonempty, held, -⟩ := ssplitIn_inside (by omega) split
        have start : (memory ++ tail).drop curr = memory.drop curr ++ tail := by
          have before : curr ≤ memory.length := by
            by_contra behind
            exact nonempty (List.drop_eq_nil_of_le (by omega))
          rw [List.drop_append_of_le_length before]
        rw [start, ssplitIn_append split]
        simp only
        by_cases open_ : ret = .error ∧ frame.status = .inputBody
        · rw [if_pos open_, if_pos open_]
          by_cases lost : len < inputLen
          · rw [if_pos lost, if_pos lost]
            exact .lost _
          · rw [if_neg lost, if_neg lost, List.take_append_of_le_length held]
            exact .leave ⟨rfl, rfl, same, rfl, rfl⟩
        · rw [if_neg open_, if_neg open_]
          by_cases saved : prevBuffer.isSome = true
          · rw [if_pos saved, if_pos saved]
            exact .lost _
          · rw [if_neg saved, if_neg saved]
            by_cases inside : updateInside (memory.drop curr) len frame = true
            · have inside' : updateInside (memory.drop curr) len frame' = true := by
                rwa [updateInside, status, ← updateInside]
              obtain ⟨updated, stays⟩ := frameUpdate_append (parseFinish rand later) nonempty held
                inside' tail
              obtain ⟨code, kept⟩ := frameUpdate_withoutId rand rands later (memory.drop curr) len same
              have blank : isBl (memory.drop curr ++ tail) = isBl (memory.drop curr) := by
                obtain ⟨c, rest, line⟩ := List.exists_cons_of_ne_nil nonempty
                rw [line]
                rfl
              rw [if_pos inside, if_pos stays, updated, ← code, blank]
              split
              · exact .leave ⟨rfl, rfl, kept, rfl, rfl⟩
              · exact .again ⟨rfl, kept, rfl, rfl⟩
            · rw [if_neg inside]
              exact .lost _

theorem parseFrame_follows {memory more : List UInt8} {inputLen : Nat} (extends_ : memory <+: more)
    {frame beside : Frame} (same : frame.withoutId = beside.withoutId)
    {prevBuffer : Option (List UInt8)} {rands : Nat} (later : Nat) {returned : Ret × ParseState}
    (h : parseFrame rand memory inputLen frame prevBuffer rands = some returned) :
    ∃ found, parseFrame rand more inputLen beside prevBuffer later = some found ∧
      AlikeReturn returned found := by
  rw [parseFrame, Option.join_eq_some_iff] at h
  have begun : Alike ⟨0, frame, prevBuffer, -1, rands⟩ ⟨0, beside, prevBuffer, -1, later⟩ :=
    ⟨rfl, same, rfl, rfl⟩
  obtain ⟨found, runs, alike⟩ := Loop.run_follows (parsePass_follows rand extends_) begun h
  exact ⟨found, by rw [parseFrame, runs, Option.join_some], alike⟩

/-- Two states of the loop over a block in two runs. -/
structure AlikeStates (one two : UnpersistState) : Prop where
  index : one.index = two.index
  frame : one.frame.map Frame.withoutId = two.frame.map Frame.withoutId
  head : one.head.map Frame.withoutId = two.head.map Frame.withoutId
  prevBuffer : one.prevBuffer = two.prevBuffer

theorem AlikeStates.started {one two : UnpersistState} (alike : AlikeStates one two) :
    (one.frame.getD allocFrame).withoutId = (two.frame.getD allocFrame).withoutId := by
  have same := congrArg (fun frame => frame.getD allocFrame.withoutId) alike.frame
  simpa only [Option.getD_map] using same

theorem AlikeStates.afterCall {one two : UnpersistState} (alike : AlikeStates one two)
    {returned found : Ret × ParseState} (same : AlikeReturn returned found) :
    AlikeStates (one.afterCall returned) (two.afterCall found) := by
  obtain ⟨ret, parsed⟩ := returned
  obtain ⟨ret', parsed'⟩ := found
  obtain ⟨rfl, parsed⟩ := same
  refine ⟨?_, ?_, ?_, parsed.prevBuffer⟩
  · change one.index + _ = two.index + _
    rw [alike.index, parsed.offset]
  · simp only [UnpersistState.afterCall]
    split
    · rfl
    · exact congrArg some parsed.frame
  · simp only [UnpersistState.afterCall]
    split
    · simp only [List.map_append, alike.head, List.map_cons, List.map_nil, parsed.frame]
    · exact alike.head

theorem blockPass_follows {frameBuffer more : List UInt8} {len : Nat}
    (extends_ : frameBuffer <+: more) (st beside : UnpersistState) (alike : AlikeStates st beside) :
    Loop.Follows AlikeStates AlikeStates (blockPass rand frameBuffer len st)
      (blockPass rand more len beside) := by
  by_cases before : st.index < 0
  · rw [blockPass, if_pos before]
    exact .lost _
  · rw [blockPass_eq rand frameBuffer len (by omega),
      blockPass_eq rand more len (by rw [← alike.index]; omega)]
    cases call : parseFrame rand (frameBuffer.drop st.index.toNat) len (st.frame.getD allocFrame)
        st.prevBuffer st.rands with
    | none => exact .lost _
    | some returned =>
        obtain ⟨found, back, same⟩ := parseFrame_follows rand (extends_.drop st.index.toNat)
          alike.started beside.rands call
        rw [← alike.index, ← alike.prevBuffer, back]
        have after := alike.afterCall same
        simp only [← after.index]
        split
        · exact .again after
        · exact .leave after

/-- Two states of the loop over the file in two runs: the rest of the file is the same, and the array
of the second run holds what that of the first holds, and perhaps more. -/
structure AlikeReads (one two : (List UInt8 × List UInt8) × UnpersistState) : Prop where
  file : one.1.1 = two.1.1
  frameBuffer : one.1.2 <+: two.1.2
  state : AlikeStates one.2 two.2

theorem filePass_follows (one two : (List UInt8 × List UInt8) × UnpersistState)
    (alike : AlikeReads one two) :
    Loop.Follows AlikeReads AlikeStates (filePass rand one) (filePass rand two) := by
  obtain ⟨⟨file, frameBuffer⟩, st⟩ := one
  obtain ⟨⟨file', more⟩, beside⟩ := two
  obtain ⟨rfl, extends_, state⟩ := alike
  simp only [filePass]
  by_cases ended : file.take BUFFER_LEN = []
  · rw [if_pos ended, if_pos ended]
    exact .leave state
  · rw [if_neg ended, if_neg ended]
    have longer : file.take BUFFER_LEN ++ frameBuffer.drop (file.take BUFFER_LEN).length <+:
        file.take BUFFER_LEN ++ more.drop (file.take BUFFER_LEN).length :=
      (List.prefix_append_right_inj _).mpr (extends_.drop _)
    have begun : AlikeStates { st with index := 0 } { beside with index := 0 } :=
      ⟨rfl, state.frame, state.head, state.prevBuffer⟩
    split
    next last block =>
      obtain ⟨found, runs, after⟩ := Loop.run_follows (blockPass_follows rand longer) begun block
      rw [runs]
      exact .again ⟨rfl, longer, after⟩
    · exact .lost _

/-- What a file gives, it gives with more bytes in the array as well. -/
theorem recoverBytes_follows {bytes frameBuffer more : List UInt8} (extends_ : frameBuffer <+: more)
    {rands : Nat} (later : Nat) {st : UnpersistState}
    (h : recoverBytes rand bytes frameBuffer rands = some st) :
    ∃ found, recoverBytes rand bytes more later = some found ∧ AlikeStates st found := by
  rw [recoverBytes, Option.join_eq_some_iff] at h
  have begun : AlikeReads ((bytes, frameBuffer), ⟨0, none, [], none, rands⟩)
      ((bytes, more), ⟨0, none, [], none, later⟩) :=
    ⟨rfl, extends_, rfl, rfl, rfl, rfl⟩
  obtain ⟨found, runs, alike⟩ := Loop.run_follows (filePass_follows rand) begun h
  exact ⟨found, by rw [recoverBytes, runs, Option.join_some], alike⟩

/-! ### The static buffer -/

/-- A call that saves a fragment has stored nothing through `offset`: the fragment is the whole input,
since otherwise `memset` writes behind it. -/
theorem parseFrame_saves {memory : List UInt8} {inputLen : Nat} {frame : Frame} {rands : Nat} {ret : Ret}
    {parsed : ParseState} (h : parseFrame rand memory inputLen frame none rands = some (ret, parsed))
    (saved : parsed.prevBuffer.isSome) : parsed.offset = -1 := by
  rw [parseFrame, Option.join_eq_some_iff] at h
  refine Loop.run_invariant
    (fun st : ParseState => st.prevBuffer = none ∧ (st.curr = 0 → st.offset = -1))
    (fun result => ∀ ret parsed, result = some (ret, parsed) →
      parsed.prevBuffer.isSome → parsed.offset = -1)
    ?keeps ?leaves ⟨rfl, fun _ => rfl⟩ h ret parsed rfl saved
  case keeps =>
    intro st next _ again
    have step := parsePass_again rand again
    exact ⟨step.2.2.1, fun zero => by omega⟩
  case leaves =>
    rintro st result ⟨none, first⟩ leave ret parsed rfl saved
    simp only [parsePass, none] at leave
    split at leave
    · cases leave
      rw [none] at saved
      cases saved
    next more =>
      split at leave
      · cases leave
      next code len split =>
        split at leave
        · split at leave
          · cases leave
          next whole =>
            cases leave
            apply first
            by_contra moved
            obtain ⟨-, -, inside⟩ := ssplitIn_inside (by omega) split
            omega
        · split at leave
          · cases leave
          · split at leave
            · split at leave
              · cases leave
                cases saved
              · cases leave
            · cases leave

/-- With a saved fragment the next call would begin before the array, so the loop over a block is left
without one. -/
theorem blockPass_unsaved {frameBuffer : List UInt8} {len fuel : Nat} {st last : UnpersistState}
    (inside : st.index < len)
    (h : Loop.run (blockPass rand frameBuffer len) fuel st = some (some last)) :
    last.prevBuffer = none := by
  refine Loop.run_invariant (fun st : UnpersistState => st.index < len)
    (fun result => ∀ last, result = some last → last.prevBuffer = none) ?keeps ?leaves inside h last rfl
  case keeps =>
    intro st next inside again
    by_cases before : st.index < 0
    · simp [blockPass, before] at again
    · rw [blockPass_eq rand frameBuffer len (by omega)] at again
      split at again
      · cases again
      · split at again
        next more =>
          cases again
          exact more
        · cases again
  case leaves =>
    rintro st result inside leave last rfl
    by_cases before : st.index < 0
    · simp [blockPass, before] at leave
    · rw [blockPass_eq rand frameBuffer len (by omega)] at leave
      split at leave
      · cases leave
      next returned call =>
        obtain ⟨ret, parsed⟩ := returned
        split at leave
        · cases leave
        next ended =>
          cases leave
          by_contra saved
          have kept : parsed.prevBuffer.isSome := Option.isSome_iff_ne_none.mpr saved
          have back : parsed.offset = -1 := by
            cases before : st.prevBuffer with
            | none =>
                rw [before] at call
                exact parseFrame_saves rand call kept
            | some fragment =>
                rw [before] at call
                exact (parseFrame_saved rand rfl call).2
          apply ended
          change st.index + parsed.offset < len
          omega

/-- A recovery that returns leaves nothing in the static buffer. -/
theorem recoverBytes_unsaved {bytes frameBuffer : List UInt8} {rands : Nat} {st : UnpersistState}
    (h : recoverBytes rand bytes frameBuffer rands = some st) : st.prevBuffer = none := by
  rw [recoverBytes, Option.join_eq_some_iff] at h
  refine Loop.run_invariant
    (fun s : (List UInt8 × List UInt8) × UnpersistState => s.2.prevBuffer = none)
    (fun result => ∀ last, result = some last → last.prevBuffer = none) ?keeps ?leaves rfl h st rfl
  case keeps =>
    rintro ⟨⟨file, frameBuffer⟩, st⟩ next _ again
    simp only [filePass] at again
    split at again
    · cases again
    next some_ =>
      split at again
      next last block =>
        cases again
        have positive : (0 : Int) < (file.take BUFFER_LEN).length :=
          Int.natCast_pos.mpr (List.length_pos_iff.mpr some_)
        exact blockPass_unsaved rand positive block
      · cases again
  case leaves =>
    rintro ⟨⟨file, frameBuffer⟩, st⟩ result unsaved leave last rfl
    simp only [filePass] at leave
    split at leave
    · cases leave
      exact unsaved
    · split at leave <;> cases leave

/-! ### The array -/

theorem bufferAfter_length : ∀ (fuel : Nat) (file : List UInt8) {frameBuffer : List UInt8},
    frameBuffer.length = BUFFER_LEN → (bufferAfter fuel file frameBuffer).length = BUFFER_LEN
  | 0, _, _, sized => sized
  | fuel + 1, file, frameBuffer, sized => by
      simp only [bufferAfter]
      split
      · exact sized
      · apply bufferAfter_length
        simp only [List.length_append, List.length_drop, List.length_take, sized]
        omega

/-- A file that fills the array leaves nothing of what was there before. -/
theorem recoverBytes_full {bytes frameBuffer : List UInt8} {rands : Nat}
    (full : BUFFER_LEN ≤ bytes.length) (sized : frameBuffer.length = BUFFER_LEN) :
    recoverBytes rand bytes frameBuffer rands = recoverBytes rand bytes [] rands := by
  have block : (bytes.take BUFFER_LEN).length = BUFFER_LEN := List.length_take_of_le full
  have pass : filePass rand ((bytes, frameBuffer), ⟨0, none, [], none, rands⟩) =
      filePass rand ((bytes, []), ⟨0, none, [], none, rands⟩) := by
    simp only [filePass, block, List.drop_of_length_le (Nat.le_of_eq sized), List.drop_nil]
  rw [recoverBytes, recoverBytes, Loop.run, Loop.run, pass]

/-- What returns reads the bytes of the file only. -/
theorem ReadsInside.returns {bytes frameBuffer : List UInt8} {rands : Nat} {st : UnpersistState}
    (inside : ReadsInside bytes) (sized : frameBuffer.length = BUFFER_LEN)
    (h : recoverBytes rand bytes frameBuffer rands = some st) :
    (recoverBytes rand bytes [] rands).isSome := by
  rcases inside with full | short
  · rw [← recoverBytes_full rand full sized, h]
    rfl
  · exact short rand frameBuffer rands sized (by rw [h]; rfl)

/-- Two recoveries that return give the same frames, whatever the array held before. -/
theorem ReadsInside.same {bytes left left' : List UInt8} {later later' : Nat}
    {one two : UnpersistState} (inside : ReadsInside bytes) (sized : left.length = BUFFER_LEN)
    (h : recoverBytes rand bytes left later = some one)
    (h' : recoverBytes rand bytes left' later' = some two) :
    one.head.map Frame.withoutId = two.head.map Frame.withoutId := by
  obtain ⟨alone, reads⟩ := Option.isSome_iff_exists.mp (inside.returns rand sized h)
  obtain ⟨found, again, alike⟩ := recoverBytes_follows rand (List.nil_prefix (l := left)) later reads
  obtain ⟨found', again', alike'⟩ := recoverBytes_follows rand (List.nil_prefix (l := left')) later' reads
  rw [h] at again
  rw [h'] at again'
  cases again
  cases again'
  rw [← alike.head, ← alike'.head]

/-! ### Complete files -/

theorem WireFrame.encode_pos (sent : WireFrame) : 0 < sent.encode.length := by
  rw [WireFrame.encode, List.length_append, List.length_cons]
  omega

/-- From the start of a frame on, nothing is needed behind the block that holds it and the following
frames whole. -/
theorem blockFrom_whole {block : List UInt8} (short : block.length ≤ BUFFER_LEN) :
    ∀ (sent : List WireFrame) {start : Nat} {st : UnpersistState}, sent ≠ [] →
      st.index = start → st.frame = none → st.prevBuffer = none →
      block.drop start = encodeAll sent → (blockFrom rand [] block block.length st).isSome
  | [], _, _, some_, _, _, _, _ => absurd rfl some_
  | first :: sent, start, st, _, index, frame, saved, rest => by
      have parts : block.drop start = first.encode ++ encodeAll sent := rest
      have length : block.length = start + (first.encode.length + (encodeAll sent).length) := by
        have positive := first.encode_pos
        have sizes := congrArg List.length parts
        rw [List.length_drop, List.length_append] at sizes
        omega
      have positive := first.encode_pos
      obtain ⟨parsed, call, -, offset⟩ := parseFrame_encode rand block.length first (encodeAll sent)
        st.rands (by omega)
      have unsaved : parsed.prevBuffer = none := by
        by_contra kept
        have back := parseFrame_saves rand call (Option.isSome_iff_ne_none.mpr kept)
        omega
      rw [blockFrom_call rand short index (by omega), frame, saved, Call.from]
      change ((parseFrame rand (block.drop start) block.length allocFrame none st.rands).bind _).isSome
      rw [parts, call, Option.bind_some, Call.return]
      split
      next more =>
        have next : (Call.next ⟨[], block, block.length, start, st.head⟩ (.success, parsed)).index =
            (start + first.encode.length : Nat) := by
          simp only [Call.next, offset]
          push_cast
          rfl
        apply blockFrom_whole short sent _ next rfl unsaved
        · rw [← List.drop_drop, parts, List.drop_left]
        · rintro rfl
          rw [next] at more
          change ((start + first.encode.length : Nat) : Int) < block.length at more
          simp only [encodeAll, List.flatMap_nil, List.length_nil] at length
          omega
      · rfl

/-- A file of complete frames is read without the bytes that were in the array before. -/
theorem readsInside_whole (sent : List WireFrame) : ReadsInside (encodeAll sent) := by
  by_cases full : BUFFER_LEN ≤ (encodeAll sent).length
  · exact Or.inl full
  · refine Or.inr fun rand _ rands _ _ => ?_
    change (fileFrom rand (encodeAll sent) [] ⟨0, none, [], none, rands⟩).isSome
    have fits : (encodeAll sent).length ≤ BUFFER_LEN := by omega
    cases sent with
    | nil => rfl
    | cons first sent =>
      have more : encodeAll (first :: sent) ≠ [] := by
        have positive := first.encode_pos
        intro empty
        have none := congrArg List.length empty
        rw [encodeAll, List.flatMap_cons, List.length_append, List.length_nil] at none
        omega
      rw [fileFrom_block rand more, List.take_of_length_le fits, List.drop_of_length_le fits,
        List.drop_nil, List.append_nil]
      exact blockFrom_whole rand fits (first :: sent) (List.cons_ne_nil _ _) rfl rfl rfl List.drop_zero

/-! ### The directory -/

theorem unpersistQueueContext_files {frameBuffer dirpath : List UInt8} {pm : PersistentManager}
    {files : QueueFiles} (held : pm.disk dirpath = some files) (rands : Nat) :
    unpersistQueueContext rand frameBuffer dirpath pm none rands =
      if files.sentIndex.getD 0 < 0 then some (.error, [], none)
      else (recoverBytes rand files.unsent frameBuffer rands).map
        fun st => (.success, st.head, st.prevBuffer) := by
  have stored : unpersistQueueInfo dirpath pm = files.sentIndex.getD 0 := by
    simp [unpersistQueueInfo, PersistentManager.files, held]
  simp only [unpersistQueueContext, stored, held]
  by_cases negative : files.sentIndex.getD 0 < 0
  · rw [if_pos negative, if_pos negative]
  · rw [if_neg negative, if_neg negative, recoverBytes, QueueFiles.unsent, if_neg negative]

theorem unpersistQueueContext_unsaved {frameBuffer dirpath : List UInt8} {pm : PersistentManager}
    {rands : Nat} {ret : Ret} {frames : List Frame} {prevBuffer : Option (List UInt8)}
    (h : unpersistQueueContext rand frameBuffer dirpath pm none rands = some (ret, frames, prevBuffer)) :
    prevBuffer = none := by
  cases held : pm.disk dirpath with
  | none =>
      simp [unpersistQueueContext, unpersistQueueInfo, PersistentManager.files, held] at h
  | some files =>
      rw [unpersistQueueContext_files rand held] at h
      split at h
      · cases h
        rfl
      · obtain ⟨st, reads, returned⟩ := Option.map_eq_some_iff.mp h
        cases returned
        exact recoverBytes_unsaved rand reads

/-- The second call finds the static buffer empty, and an array of the same size. -/
theorem recoverSecond_eq {between : List UInt8 → List UInt8}
    (keeps : ∀ left, left.length = BUFFER_LEN → (between left).length = BUFFER_LEN)
    {frameBuffer first second : List UInt8} (sized : frameBuffer.length = BUFFER_LEN)
    {rands later : Nat} {pm : PersistentManager} {files : QueueFiles}
    (held : pm.disk second = some files) {result : Ret × List Frame}
    (h : recoverSecond rand between frameBuffer first second rands later pm = some result) :
    ∃ left, left.length = BUFFER_LEN ∧
      (if files.sentIndex.getD 0 < 0 then some (Ret.error, [])
        else (recoverBytes rand files.unsent left later).map fun st => (Ret.success, st.head)) =
      some result := by
  obtain ⟨⟨ret, frames, prevBuffer⟩, returned, h⟩ := Option.bind_eq_some_iff.mp h
  obtain rfl := unpersistQueueContext_unsaved rand returned
  simp only [unpersistQueueContext_files rand held] at h
  refine ⟨between (leftInBuffer frameBuffer first pm), keeps _ (bufferAfter_length _ _ sized), ?_⟩
  rw [← h]
  split
  · rfl
  · rw [Option.map_map]
    rfl

/-- A complete frame, and one that lacks the last byte of its body. -/
def cutFiles : QueueFiles :=
  { data := cstring "SEND\ncontent-length:0\n\n\x00SEND\ncontent-length:2\n\nh", sentIndex := some 0 }

/-- One complete frame, two bytes longer. -/
def longerFiles : QueueFiles :=
  { data := cstring "SEND\ncontent-length:25\n\naaaaaaaaaaaaaaaaaaaaaaaai\x00", sentIndex := some 0 }

/-- Two directories, of which the second one holds `cutFiles`. -/
def besideCut (files : QueueFiles) : PersistentManager :=
  { datadir := cstring "/var"
    qinfos := []
    disk := fun dirpath =>
      if dirpath = cstring "/var/a" then some files
      else if dirpath = cstring "/var/b" then some cutFiles
      else none }

/-- The frames that the second recovery gives. -/
def framesBesideCut (files : QueueFiles) : Option (Ret × List Frame) :=
  recoverSecond (fun _ => 0) id (List.replicate BUFFER_LEN 0) (cstring "/var/a") (cstring "/var/b") 0 0
    (besideCut files)

end Newtmq
