/-
Module: Newtmq.Proofs.SplitReads
Purpose: `ssplit` inspects the byte behind its input exactly when it reports an unfinished line, since it
  compares a byte before it compares the position with the end.
Trusted boundary: none
Main exports: Scanning, SsplitOutcome, ssplitRun_outcome, ssplitRun_eq_ssplit, reads_only_input_iff,
  buf_reads_inside_iff
-/
import Newtmq.Spec.SplitReads
import Newtmq.Proofs.RecvPass

namespace Newtmq

variable {memory : Nat → UInt8} {len : Nat} {isBody : Bool}

/-! ### The loop -/

/-- A position behind the first one at which a line ends. -/
def StopsAt (memory : Nat → UInt8) (isBody : Bool) (p : Nat) : Prop :=
  memory p = 0 ∨ (memory p = LF ∧ isBody = false)

/-- What holds at the head of the loop: no position up to `count` has stopped it. -/
structure Scanning (memory : Nat → UInt8) (len : Nat) (isBody : Bool) (st : SsplitRun) : Prop where
  ret : st.ret = .success
  inside : st.count < len
  room : st.count < LD_MAX
  passed : ∀ p, 0 < p → p ≤ st.count → ¬ StopsAt memory isBody p
  inspected : ∀ p ∈ st.inspected, p ≤ st.count

/-- What holds when `ssplit` returns from the loop. -/
structure ScanDone (memory : Nat → UInt8) (len : Nat) (isBody : Bool) (result : SsplitRun) : Prop where
  positive : 0 < result.count
  inside : result.count ≤ len
  room : result.count ≤ LD_MAX
  ret : result.ret = .error ↔ result.count = len
  passed : ∀ p, 0 < p → p < result.count → ¬ StopsAt memory isBody p
  stopped : result.count < len → result.count < LD_MAX → StopsAt memory isBody result.count
  inspected : ∀ p ∈ result.inspected, p ≤ result.count
  last : result.count ∈ result.inspected

/-- A pass goes to the next position and stops there, or goes round again. -/
theorem ssplitPass_cases (st : SsplitRun) :
    (∃ next, ssplitPass memory len isBody st = .again next ∧ next.count = st.count + 1 ∧
        next.ret = st.ret ∧ st.count + 1 < len ∧ st.count + 1 < LD_MAX ∧
        ¬ StopsAt memory isBody (st.count + 1) ∧
        ∀ p ∈ next.inspected, p ∈ st.inspected ∨ p = st.count + 1) ∨
      ∃ result, ssplitPass memory len isBody st = .leave result ∧ result.count = st.count + 1 ∧
        (result.ret = if len ≤ st.count + 1 then .error else st.ret) ∧
        (StopsAt memory isBody (st.count + 1) ∨ len ≤ st.count + 1 ∨ LD_MAX ≤ st.count + 1) ∧
        st.count + 1 ∈ result.inspected ∧
        ∀ p ∈ result.inspected, p ∈ st.inspected ∨ p = st.count + 1 := by
  have inspected : ∀ p ∈ st.inspected ++
      (if memory (st.count + 1) = 0 then [st.count + 1] else [st.count + 1, st.count + 1]),
      p ∈ st.inspected ∨ p = st.count + 1 := by
    intro p mem
    rcases List.mem_append.mp mem with mem | mem
    · exact Or.inl mem
    · split at mem <;> simp at mem <;> exact Or.inr mem
  by_cases leaves : StopsAt memory isBody (st.count + 1) ∨ len ≤ st.count + 1 ∨ LD_MAX ≤ st.count + 1
  · refine Or.inr ⟨_, if_pos ?_, rfl, rfl, leaves, ?_, inspected⟩
    · rcases leaves with (nul | ⟨lf, body⟩) | ends | full
      · simp [nul]
      · simp [lf, body]
      · simp [ends]
      · simp [full]
    · rw [List.mem_append]
      split <;> simp
  · obtain ⟨goesOn, inside, room⟩ := not_or.mp leaves |>.imp_right not_or.mp
    refine Or.inl ⟨_, if_neg ?_, rfl, if_neg inside, by omega, by omega, goesOn, inspected⟩
    rw [StopsAt] at goesOn
    simpa [inside, room] using goesOn

theorem Scanning.again {st next : SsplitRun} (scanning : Scanning memory len isBody st)
    (again : ssplitPass memory len isBody st = .again next) :
    Scanning memory len isBody next ∧ LD_MAX - 1 - next.count < LD_MAX - 1 - st.count := by
  rcases ssplitPass_cases st with
    ⟨other, pass, count, ret, inside, room, goesOn, inspected⟩ | ⟨result, pass, -⟩
  · rw [pass] at again
    cases again
    refine ⟨⟨ret.trans scanning.ret, by omega, by omega, ?_, ?_⟩, by omega⟩
    · intro p positive upTo
      by_cases last : p = st.count + 1
      · rwa [last]
      · exact scanning.passed p positive (by omega)
    · intro p mem
      rcases inspected p mem with before | rfl
      · have earlier := scanning.inspected p before
        omega
      · omega
  · rw [pass] at again
    cases again

theorem Scanning.leave {st result : SsplitRun} (scanning : Scanning memory len isBody st)
    (leave : ssplitPass memory len isBody st = .leave result) : ScanDone memory len isBody result := by
  rcases ssplitPass_cases st with ⟨next, pass, -⟩ | ⟨other, pass, count, ret, stops, last, inspected⟩
  · rw [pass] at leave
    cases leave
  · rw [pass] at leave
    cases leave
    have inside := scanning.inside
    have room := scanning.room
    rw [scanning.ret] at ret
    exact
      { positive := by omega
        inside := by omega
        room := by omega
        ret := by
          rw [ret]
          split
          next ends => exact iff_of_true rfl (by omega)
          next before => exact iff_of_false nofun (by omega)
        passed := fun p positive upTo => scanning.passed p positive (by omega)
        stopped := by
          intro before notFull
          rw [count] at before notFull ⊢
          rcases stops with stops | ends | full
          · exact stops
          · omega
          · omega
        inspected := by
          intro p mem
          rcases inspected p mem with before | rfl
          · have earlier := scanning.inspected p before
            omega
          · omega
        last := by rwa [count] }

/-! ### The whole function -/

/-- What `ssplit` returns, and how far it looks. -/
structure SsplitOutcome (memory : Nat → UInt8) (len : Nat) (isBody : Bool) (result : SsplitRun) :
    Prop where
  length : result.count ≤ min len LD_MAX
  error : result.ret = .error ↔ len ≤ LD_MAX ∧ ¬ Terminated memory len isBody
  ends : result.ret = .error ↔ result.count = len
  inspected : ∀ p ∈ result.inspected, p ≤ result.count
  last : result.count ∈ result.inspected

theorem mem_startInspected {p : Nat} : p ∈ startInspected memory isBody ↔ p = 0 := by
  rw [startInspected]
  split
  · exact List.mem_singleton
  · split <;> simp

theorem endsLine_zero_iff :
    EndsLine memory isBody 0 ↔
      (memory 0 = 0 || (!isBody && (memory 0 = LF || memory 0 = CR))) = true := by
  simp [EndsLine]

theorem endsLine_iff {p : Nat} (positive : 0 < p) :
    EndsLine memory isBody p ↔ StopsAt memory isBody p := by
  have notStart : p ≠ 0 := Nat.ne_of_gt positive
  simp [EndsLine, StopsAt, notStart, and_comm]

/-- An empty line. -/
theorem ssplitOutcome_start (some : 1 ≤ len) (ends : EndsLine memory isBody 0) :
    SsplitOutcome memory len isBody ⟨0, .success, startInspected memory isBody⟩ where
  length := Nat.zero_le _
  error := iff_of_false nofun fun unfinished => unfinished.2 ⟨0, some, ends⟩
  ends := iff_of_false nofun (by dsimp only; omega)
  inspected p mem := Nat.le_of_eq (mem_startInspected.mp mem)
  last := mem_startInspected.mpr rfl

theorem ScanDone.outcome {result : SsplitRun} (start : ¬ EndsLine memory isBody 0)
    (done : ScanDone memory len isBody result) : SsplitOutcome memory len isBody result where
  length := Nat.le_min.mpr ⟨done.inside, done.room⟩
  error := by
    have inside := done.inside
    have room := done.room
    rw [done.ret]
    constructor
    · intro all
      refine ⟨by omega, ?_⟩
      rintro ⟨p, before, ends⟩
      rcases Nat.eq_zero_or_pos p with rfl | positive
      · exact start ends
      · exact done.passed p positive (by omega) ((endsLine_iff positive).mp ends)
    · rintro ⟨short, unterminated⟩
      by_contra before
      have stops := done.stopped (by omega) (by omega)
      exact unterminated ⟨result.count, by omega, (endsLine_iff done.positive).mpr stops⟩
  ends := done.ret
  inspected := done.inspected
  last := done.last

variable (memory isBody) in
/-- `ssplit` returns. -/
theorem ssplitRun_outcome (some : 1 ≤ len) :
    ∃ result, ssplitRun memory len isBody = .some result ∧ SsplitOutcome memory len isBody result := by
  rw [ssplitRun]
  split
  next ends => exact ⟨_, rfl, ssplitOutcome_start some (endsLine_zero_iff.mpr ends)⟩
  next begins =>
    have start : ¬ EndsLine memory isBody 0 := fun ends => begins (endsLine_zero_iff.mp ends)
    have room : 0 < LD_MAX := by decide
    have scanning : Scanning memory len isBody ⟨0, .success, startInspected memory isBody⟩ :=
      ⟨rfl, some, room, fun p positive upTo => absurd upTo (Nat.not_le.mpr positive),
        fun p mem => Nat.le_of_eq (mem_startInspected.mp mem)⟩
    obtain ⟨last, result, returns, kept, leave⟩ := Loop.returns_of_measure
      (ssplitPass memory len isBody) (Scanning memory len isBody) (fun st => LD_MAX - 1 - st.count)
      (fun st next scanning again => scanning.again again) _ scanning
    exact ⟨result, returns, (kept.leave leave).outcome start⟩

/-! ### The splitter of the parsers -/

variable (memory len isBody) in
theorem run_eq_ssplitScan : ∀ (fuel : Nat) (st : SsplitRun), st.ret = .success → st.count < len →
    st.count < LD_MAX → LD_MAX ≤ st.count + fuel →
    (Loop.run (ssplitPass memory len isBody) fuel st).map (fun run => (run.ret, run.count)) =
      some (ssplitScan isBody ((List.range' (st.count + 1) (len - (st.count + 1))).map memory)
        (st.count + 1))
  | 0, st, _, _, room, enough => absurd room (Nat.not_lt.mpr enough)
  | fuel + 1, st, success, inside, room, enough => by
      rcases ssplitPass_cases st with
        ⟨next, pass, count, ret, inside', room', goesOn, -⟩ | ⟨result, pass, count, ret, stops, -⟩
      · have later := run_eq_ssplitScan fuel next (ret.trans success) (by rwa [count]) (by rwa [count])
          (by omega)
        have rest : len - (st.count + 1) = len - (st.count + 1 + 1) + 1 := by omega
        rw [Loop.run_succ_again pass, later, count, rest, List.range'_succ, List.map_cons, ssplitScan,
          if_neg]
        rw [StopsAt] at goesOn
        simpa [room'] using goesOn
      · rw [Loop.run_succ_leave pass, Option.map_some, count, ret, success]
        by_cases ends : len ≤ st.count + 1
        · rw [if_pos ends, Nat.sub_eq_zero_of_le ends]
          rfl
        · have rest : len - (st.count + 1) = len - (st.count + 1 + 1) + 1 := by omega
          rw [if_neg ends, rest, List.range'_succ, List.map_cons, ssplitScan, if_pos]
          simpa [StopsAt, ends, or_assoc] using stops

/-- Its result is that of the splitter of the parsers on the bytes of the input. -/
theorem ssplitRun_eq_ssplit (some : 1 ≤ len) :
    (ssplitRun memory len isBody).map (fun run => (run.ret, run.count)) =
      .some (ssplit ((List.range len).map memory) isBody) := by
  obtain ⟨n, rfl⟩ := Nat.exists_eq_add_of_le' some
  have bytes : (List.range (n + 1)).map memory = memory 0 :: (List.range' 1 n).map memory := by
    rw [List.range_eq_range', List.range'_succ, List.map_cons]
  have start : (isBl (memory 0 :: (List.range' 1 n).map memory) ||
      (!isBody && isNl (memory 0 :: (List.range' 1 n).map memory))) =
        (memory 0 = 0 || (!isBody && (memory 0 = LF || memory 0 = CR))) := by
    simp [isBl, isNl]
  rw [bytes, ssplit, ssplitRun, start]
  split
  · rfl
  · exact run_eq_ssplitScan _ _ _ LD_MAX ⟨0, .success, startInspected memory isBody⟩ rfl (Nat.succ_pos n)
      (by show 0 < LD_MAX; decide) (Nat.le_add_left _ _)

/-! ### What is read -/

/-- `ssplit` reads only its input exactly when it finds a terminator there, or the input is longer than
the longest line. -/
theorem reads_only_input_iff (memory : Nat → UInt8) {len : Nat} (some : 1 ≤ len) (isBody : Bool) :
    ReadsOnlyInput memory len isBody ↔ LD_MAX < len ∨ Terminated memory len isBody := by
  obtain ⟨result, returns, outcome⟩ := ssplitRun_outcome memory isBody some
  have inside : result.count ≤ len := (Nat.le_min.mp outcome.length).1
  have finished : result.ret ≠ .error ↔ LD_MAX < len ∨ Terminated memory len isBody := by
    rw [ne_eq, outcome.error, not_and_or, Nat.not_le, not_not]
  rw [← finished, ne_eq, outcome.ends]
  constructor
  · rintro ⟨other, same, splits⟩ all
    rw [returns] at same
    cases same
    exact Nat.lt_irrefl len (splits.inside len (by rw [← all]; exact outcome.last))
  · intro before
    refine ⟨result, returns, ?_, outcome.length, outcome.error⟩
    intro p mem
    have upTo := outcome.inspected p mem
    omega

/-- A line with its LF is found in the line alone. -/
theorem reads_only_line : ReadsOnlyInput (fun p => (cstring "SEND\n").getD p 1) 5 false :=
  (reads_only_input_iff _ (by decide) false).mpr (Or.inr (by decide))

/-- Of one letter, `ssplit` inspects the byte behind it as well. -/
theorem splitter_reads_past :
    ¬ ∀ (memory : Nat → UInt8) (len : Nat) (isBody : Bool), 1 ≤ len →
        ReadsOnlyInput memory len isBody := by
  intro always
  obtain ⟨result, returns, splits⟩ := always (fun _ => 97) 1 false (Nat.le_refl 1)
  have run : ssplitRun (fun _ => 97) 1 false = some ⟨1, .error, [0, 0, 0, 1, 1]⟩ := by decide
  rw [run] at returns
  cases returns
  exact absurd (splits.inside 1 (by decide)) (Nat.lt_irrefl 1)

/-! ### The receive buffer -/

theorem recvLine_suffix (env : RecvEnv) (sock : Int) (curr : List UInt8) (n : Nat) (st : RecvState) :
    (recvLine env sock curr n st).1 <:+ curr := by
  have next : (if st.isBodyInput then curr.drop n else curr.drop (n + 1)) <:+ curr := by
    split <;> exact List.drop_suffix _ _
  simp only [recvLine]
  split
  · split
    · exact (List.drop_suffix _ _).trans next
    · exact next
  · exact next

/-- What is left of a chunk is its end. -/
theorem visits_suffix {env : RecvEnv} {sock : Int} {chunk curr : List UInt8} {st st' : RecvState}
    (visits : Loop.Visits (recvPass env sock) (chunk, st) (curr, st')) : curr <:+ chunk := by
  refine visits.invariant (fun s => s.1 <:+ chunk) ?keeps (List.suffix_refl chunk)
  rintro ⟨rest, st⟩ next suffix again
  cases rest with
  | nil => cases again
  | cons c rest =>
      rcases recvPass_cases env sock st (List.cons_ne_nil c rest) with pass | pass
      · rw [pass] at again
        cases again
      · rw [pass] at again
        cases again
        exact (recvLine_suffix env sock _ _ st).trans suffix

/-- In the buffer, the bytes of what is left of the chunk follow its place. -/
theorem recvBuf_curr {chunk curr : List UInt8} (suffix : curr <:+ chunk)
    (fits : chunk.length ≤ RECV_BUFSIZE) (behind : Nat → UInt8) {p : Nat} (inside : p < curr.length) :
    recvBuf chunk behind (chunk.length - curr.length + p) = curr.getD p 0 := by
  obtain ⟨used, rfl⟩ := suffix
  rw [List.length_append] at fits ⊢
  have place : used.length + curr.length - curr.length + p = used.length + p := by omega
  rw [place, recvBuf, if_pos (by omega), List.getD_eq_getElem?_getD,
    List.getElem?_append_right (Nat.le_add_right _ _), Nat.add_sub_cancel_left,
    ← List.getD_eq_getElem?_getD]

theorem Terminated.congr {other : Nat → UInt8} (same : ∀ p < len, memory p = other p) :
    Terminated memory len isBody ↔ Terminated other len isBody := by
  simp only [Terminated]
  apply exists_congr
  intro p
  apply and_congr_right
  intro inside
  rw [EndsLine, EndsLine, same p inside]

/-- All bytes that `ssplit` inspects lie in the buffer, unless the chunk fills it and ends with a part of
a line. -/
theorem buf_reads_inside_iff (env : RecvEnv) (sock : Int) {chunk : List UInt8}
    (fits : chunk.length ≤ RECV_BUFSIZE) (behind : Nat → UInt8) (st : RecvState) :
    BufReadsInside env sock chunk behind st ↔
      chunk.length < RECV_BUFSIZE ∨
        ∀ curr st', Loop.Visits (recvPass env sock) (chunk, st) (curr, st') → curr ≠ [] →
          LD_MAX < curr.length ∨ Terminated (fun p => curr.getD p 0) curr.length st'.isBodyInput := by
  have call : ∀ curr st', Loop.Visits (recvPass env sock) (chunk, st) (curr, st') → curr ≠ [] →
      ((∃ inspected, inspectedInBuf chunk behind curr st'.isBodyInput = some inspected ∧
          ∀ p ∈ inspected, p < RECV_BUFSIZE) ↔
        chunk.length < RECV_BUFSIZE ∨ LD_MAX < curr.length ∨
          Terminated (fun p => curr.getD p 0) curr.length st'.isBodyInput) := by
    intro curr st' visits nonempty
    have suffix := visits_suffix visits
    have within := suffix.length_le
    have positive := List.length_pos_iff.mpr nonempty
    obtain ⟨result, returns, outcome⟩ := ssplitRun_outcome
      (fun p => recvBuf chunk behind (chunk.length - curr.length + p)) st'.isBodyInput positive
    have inside := (Nat.le_min.mp outcome.length).1
    have unfinished := outcome.error
    rw [outcome.ends, Terminated.congr fun p inside => recvBuf_curr suffix fits behind inside] at unfinished
    rw [inspectedInBuf, returns]
    simp only [Option.map_some, Option.some.injEq, exists_eq_left', List.forall_mem_map]
    constructor
    · intro all
      have last := all _ outcome.last
      by_contra notInside
      simp only [not_or, Nat.not_lt] at notInside
      have whole := unfinished.mpr ⟨notInside.2.1, notInside.2.2⟩
      omega
    · intro safe p mem
      have upTo := outcome.inspected p mem
      rcases safe with room | finished
      · omega
      · have before : result.count ≠ curr.length := by
          intro whole
          obtain ⟨short, unterminated⟩ := unfinished.mp whole
          rcases finished with long | terminated
          · exact Nat.not_lt.mpr short long
          · exact unterminated terminated
        omega
  constructor
  · intro inside
    by_cases room : chunk.length < RECV_BUFSIZE
    · exact Or.inl room
    · refine Or.inr fun curr st' visits nonempty => ?_
      exact ((call curr st' visits nonempty).mp (inside curr st' visits nonempty)).resolve_left room
  · intro safe curr st' visits nonempty
    apply (call curr st' visits nonempty).mpr
    rcases safe with room | finished
    · exact Or.inl room
    · exact Or.inr (finished curr st' visits nonempty)

end Newtmq
