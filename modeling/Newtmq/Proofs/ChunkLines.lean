/-
Module: Newtmq.Proofs.ChunkLines
Purpose: How `recv_data` reads one line that arrives in several chunks. A part of it that a chunk ends
  with is saved, unless it begins with a command: then it is handed on as a line.
Trusted boundary: none
Main exports: recvChunks_again, recvChunks_leave, recvChunks_dropBytes, HandsOn, chunks_line
-/
import Newtmq.Spec.LongHeaders
import Newtmq.Proofs.FrameSeparation

namespace Newtmq

variable (env : RecvEnv) {sock : Int}

/-! ### Passes and chunks -/

theorem recvChunks_cons (chunk : List UInt8) (later : List (List UInt8)) (st : RecvState) :
    recvChunks env sock (chunk :: later) st =
      (recvData env sock chunk st).bind (recvChunks env sock later) := by
  rw [recvChunks, List.foldlM_cons]
  rfl

/-- A pass that goes round again leaves the rest of the chunk to be read. -/
theorem recvChunks_again {chunk rest : List UInt8} {st next : RecvState}
    (again : recvPass env sock (chunk, st) = .again (rest, next)) (later : List (List UInt8)) :
    recvChunks env sock (chunk :: later) st = recvChunks env sock (rest :: later) next := by
  have same : recvData env sock chunk st = recvData env sock rest next := by
    apply Option.ext
    intro result
    rw [recvData_eq_some_iff, recvData_eq_some_iff, Loop.returns_again_iff again]
  rw [recvChunks_cons, recvChunks_cons, same]

/-- A pass that leaves ends the chunk. -/
theorem recvChunks_leave {chunk : List UInt8} {st next : RecvState}
    (leave : recvPass env sock (chunk, st) = .leave next) (later : List (List UInt8)) :
    recvChunks env sock (chunk :: later) st = recvChunks env sock later next := by
  rw [recvChunks_cons, recvData, Loop.run_succ_leave leave, Option.bind_some]

theorem recvChunks_empty (later : List (List UInt8)) (st : RecvState) :
    recvChunks env sock ([] :: later) st = recvChunks env sock later st :=
  recvChunks_leave env (recvPass_nil st) later

theorem flatten_dropBytes : ∀ (n : Nat) (chunks : List (List UInt8)),
    (dropBytes n chunks).flatten = chunks.flatten.drop n
  | _, [] => by simp [dropBytes]
  | n, chunk :: later => by
      rw [dropBytes]
      split
      next inside =>
        rw [List.flatten_cons, List.flatten_cons, List.drop_append_of_le_length (by omega)]
      next beyond =>
        have none : chunk.drop n = [] := List.drop_of_length_le (by omega)
        rw [flatten_dropBytes, List.flatten_cons, List.drop_append, none, List.nil_append]

/-- Chunks without a byte make no difference. -/
theorem recvChunks_dropBytes_zero (st : RecvState) : ∀ (chunks : List (List UInt8)),
    recvChunks env sock (dropBytes 0 chunks) st = recvChunks env sock chunks st
  | [] => rfl
  | [] :: later => by
      rw [recvChunks_empty]
      exact recvChunks_dropBytes_zero st later
  | (c :: rest) :: later => by
      have some : 0 < (c :: rest).length := Nat.succ_pos _
      rw [dropBytes, if_pos some, List.drop_zero]

variable (sock) in
/-- What is left when the first bytes of a chunk have been read. -/
theorem recvChunks_dropBytes (used rest : List UInt8) (later : List (List UInt8)) (st : RecvState) :
    recvChunks env sock (dropBytes used.length ((used ++ rest) :: later)) st =
      recvChunks env sock (rest :: later) st := by
  rw [dropBytes]
  split
  · rw [List.drop_left]
  next all =>
    rw [List.length_append] at all
    obtain rfl : rest = [] := List.length_eq_zero_iff.mp (by omega)
    rw [List.append_nil, Nat.sub_self, recvChunks_dropBytes_zero, recvChunks_empty]

/-! ### One line -/

/-- `text` has been handed on as a line of its own; what remains is to read `after` from `next`. -/
structure HandsOn (env : RecvEnv) (sock : Int) (reading : Reading) (chunks : List (List UInt8))
    (st : RecvState) (text : List UInt8) (after : List (List UInt8)) (next : RecvState) : Prop where
  same : recvChunks env sock chunks st = recvChunks env sock after next
  place : AtLine sock (reading.setLine text).endLine next
  saved : Saved next.cinfo []
  bucket : next.bucket = st.bucket

theorem HandsOn.later {reading : Reading} {chunks others after : List (List UInt8)}
    {st middle next : RecvState} {text : List UInt8}
    (same : recvChunks env sock chunks st = recvChunks env sock others middle)
    (bucket : middle.bucket = st.bucket)
    (hands : HandsOn env sock reading others middle text after next) :
    HandsOn env sock reading chunks st text after next where
  same := same.trans hands.same
  place := hands.place
  saved := hands.saved
  bucket := hands.bucket.trans bucket

/-- The text of a line: some bytes that neither end a line nor make an empty one. -/
theorem HeaderText.part {line text : List UInt8} (header : HeaderText line) (nonempty : text ≠ [])
    (part : ∀ c ∈ text, c ∈ line) : LineText false text where
  nonempty := nonempty
  start c first := by
    have clean := header.clean c (part c (List.mem_of_mem_head? first))
    simp [emptyStart, clean]
  inside := by
    rw [List.all_eq_true]
    intro c mem
    have clean := header.clean c (part c mem)
    simp [nonStop, clean]

theorem isFrameName_error_iff {text : List UInt8} :
    isFrameName text text.length = .error ↔ ¬ BeginsCommand text := by
  rw [isFrameName_eq_error, BeginsCommand]
  constructor
  · rintro none ⟨w, mem, pre⟩
    exact none w mem pre.length_le pre
  · intro none w mem _ pre
    exact none ⟨w, mem, pre⟩

theorem isFrameName_success_iff {text : List UInt8} :
    isFrameName text text.length = .success ↔ BeginsCommand text := by
  have error : isFrameName text text.length = .error ↔ _ := isFrameName_error_iff
  cases found : isFrameName text text.length with
  | error =>
      rw [found] at error
      simpa using error
  | success =>
      rw [found] at error
      simpa using error

theorem not_beginsCommand_nil : ¬ BeginsCommand [] := by
  rintro ⟨w, mem, pre⟩
  exact finfoArr_ne_nil w mem (List.prefix_nil.mp pre)

/-- What becomes of a line, the first `n` bytes of the chunks and what has been saved of it: it is handed
on with its LF, or before it because its last part begins with a command, or a part of it is handed on
because that part ends with one that begins with a command. -/
inductive LineOutcome (env : RecvEnv) (sock : Int) (reading : Reading) (line more : List UInt8) (n : Nat)
    (chunks : List (List UInt8)) (st : RecvState) : Prop where
  | ended (next : RecvState)
      (hands : HandsOn env sock reading chunks st line (dropBytes (n + 1) chunks) next)
      (silent : ∀ cut ∈ lineCuts n chunks, ¬ BeginsCommand cut.1)
  | early (after : List (List UInt8)) (next : RecvState)
      (hands : HandsOn env sock reading chunks st line after next)
      (rest : after.flatten = LF :: more) (same : dropBytes 1 after = dropBytes (n + 1) chunks)
      (begins : ∃ cut ∈ lineCuts n chunks, BeginsCommand cut.1)
      (complete : ∀ cut ∈ lineCuts n chunks, BeginsCommand cut.1 → cut.2 = 0)
  | torn (part : List UInt8) (after : List (List UInt8)) (next : RecvState)
      (hands : HandsOn env sock reading chunks st part after next) (nonempty : part ≠ [])
      (inside : part <+: line) (proper : part ≠ line)
      (begins : ∃ cut ∈ lineCuts n chunks, BeginsCommand cut.1 ∧ cut.2 ≠ 0)

theorem lineCuts_cons (chunk : List UInt8) (later : List (List UInt8)) (n : Nat) :
    lineCuts (chunk.length + n) (chunk :: later) = (chunk, n) :: lineCuts n later := by
  rw [lineCuts, if_neg (by omega), Nat.add_sub_cancel_left]

theorem dropBytes_cons (chunk : List UInt8) (later : List (List UInt8)) (n : Nat) :
    dropBytes (chunk.length + n) (chunk :: later) = dropBytes n later := by
  rw [dropBytes, if_neg (by omega), Nat.add_sub_cancel_left]

theorem lineCuts_le {cut : List UInt8 × Nat} : ∀ {n : Nat} {chunks : List (List UInt8)},
    cut ∈ lineCuts n chunks → cut.2 ≤ n
  | _, [], mem => by cases mem
  | n, chunk :: later, mem => by
      rw [lineCuts] at mem
      split at mem
      · cases mem
      · rcases List.mem_cons.mp mem with rfl | mem
        · exact Nat.sub_le _ _
        · exact (lineCuts_le mem).trans (Nat.sub_le _ _)

/-- A chunk that does not change the outcome. -/
theorem LineOutcome.later {reading : Reading} {line more chunk : List UInt8} {n : Nat}
    {chunks : List (List UInt8)} {st middle : RecvState}
    (outcome : LineOutcome env sock reading line more n chunks middle)
    (same : recvChunks env sock (chunk :: chunks) st = recvChunks env sock chunks middle)
    (bucket : middle.bucket = st.bucket) (silent : ¬ BeginsCommand chunk) :
    LineOutcome env sock reading line more (chunk.length + n) (chunk :: chunks) st := by
  have cuts := lineCuts_cons chunk chunks n
  have drops : dropBytes (chunk.length + n + 1) (chunk :: chunks) = dropBytes (n + 1) chunks :=
    dropBytes_cons chunk chunks (n + 1)
  cases outcome with
  | ended next hands none =>
      refine .ended next ?_ ?_
      · rw [drops]
        exact hands.later env same bucket
      · rw [cuts]
        intro cut mem
        rcases List.mem_cons.mp mem with rfl | mem
        · exact silent
        · exact none cut mem
  | early after next hands rest dropped begins complete =>
      refine .early after next (hands.later env same bucket) rest (dropped.trans drops.symm) ?_ ?_
      · obtain ⟨cut, mem, command⟩ := begins
        rw [cuts]
        exact ⟨cut, List.mem_cons_of_mem _ mem, command⟩
      · rw [cuts]
        intro cut mem command
        rcases List.mem_cons.mp mem with rfl | mem
        · exact absurd command silent
        · exact complete cut mem command
  | torn part after next hands nonempty inside proper begins =>
      refine .torn part after next (hands.later env same bucket) nonempty inside proper ?_
      obtain ⟨cut, mem, command⟩ := begins
      rw [cuts]
      exact ⟨cut, List.mem_cons_of_mem _ mem, command⟩

/-- A text that is handed on as a line in one pass. -/
theorem handsOn_pass (reading : Reading) {fragment run rest text : List UInt8} {st : RecvState}
    {ret : Ret} (isLine : reading.line?.isSome) (place : AtLine sock reading st)
    (saved : Saved st.cinfo fragment) (whole : text = fragment ++ run) (nonempty : text ≠ [])
    (start : isNl text = false) (short : text.length ≤ LD_MAX)
    (tailOk : rest = [] ∨ (LengthInLine text ∧ ∃ more, rest = LF :: more))
    (some : run ++ rest ≠ []) (split : ssplit (run ++ rest) false = (ret, run.length))
    (known : ret = .success ∨ isFrameName (run ++ rest) run.length = .success)
    (later : List (List UInt8)) :
    ∃ next, HandsOn env sock reading ((run ++ rest) :: later) st text (rest.drop 1 :: later) next := by
  obtain ⟨other, isOther⟩ := Option.isSome_iff_exists.mp isLine
  obtain ⟨tail, joined, tailIs⟩ := joinedLine_saved saved (run ++ rest) (n := run.length) (by simp)
  rw [List.take_left, ← whole] at joined
  have ok : TailOk text tail := by
    rcases tailIs with rfl | rfl
    · rw [List.drop_left]
      rcases tailOk with rfl | ⟨inLine, more, rfl⟩
      · exact Or.inl rfl
      · exact Or.inr (Or.inr ⟨rfl, inLine⟩)
    · exact Or.inr (Or.inl rfl)
  obtain ⟨next, passes, place', saved', bucket'⟩ :=
    recvLine_endLine env (reading.setLine text) (by simp [isOther]) (AtLine.setLine_iff.mpr place)
      nonempty start short (fun _ => ok) joined
  have dropped : (run ++ rest).drop (run.length + 1) = rest.drop 1 := by
    rw [← List.drop_drop, List.drop_left]
  rw [dropped] at passes
  rw [← place.isBodyInput] at split
  refine ⟨next, ?_, place', saved', bucket'⟩
  exact recvChunks_again env (by rw [recvPass_line split some known, passes]) later

theorem HeaderText.not_newline {line text : List UInt8} (header : HeaderText line)
    (nonempty : text ≠ []) (pre : text <+: line) : isNl text = false := by
  have all := (header.part nonempty fun c mem => pre.subset mem).not_newline []
  rwa [List.append_nil] at all

/-- The byte behind a text is in the first chunk, or the chunk ends before it. -/
theorem first_chunk {chunk tail left more : List UInt8} {t : UInt8}
    (whole : chunk ++ tail = left ++ t :: more) :
    (∃ rest, chunk = left ++ t :: rest ∧ more = rest ++ tail) ∨
      ∃ left', left = chunk ++ left' ∧ tail = left' ++ t :: more := by
  rcases List.append_eq_append_iff.mp whole with ⟨left', rfl, rest⟩ | ⟨back, rfl, rest⟩
  · exact Or.inr ⟨left', rfl, rest⟩
  · cases back with
    | nil => exact Or.inr ⟨[], by simp, rest.symm⟩
    | cons c back =>
        cases rest
        exact Or.inl ⟨back, rfl, rfl⟩

section Line

variable {reading : Reading} {line more fragment chunk : List UInt8} {later : List (List UInt8)}
  {st : RecvState}

/-- The LF of the line is in the chunk. -/
theorem lineOutcome_ended {left rest : List UInt8} (isLine : reading.line?.isSome)
    (header : HeaderText line) (short : line.length ≤ LD_MAX) (inLine : LengthInLine line)
    (split : line = fragment ++ left) (place : AtLine sock reading st) (saved : Saved st.cinfo fragment) :
    LineOutcome env sock reading line more left.length ((left ++ LF :: rest) :: later) st := by
  have sizes := congrArg List.length split
  rw [List.length_append] at sizes
  have cut : ssplit (left ++ LF :: rest) false = (.success, left.length) := by
    by_cases empty : left = []
    · subst empty
      exact ssplit_empty rest (by decide)
    · have text : LineText false left := header.part empty fun c mem => by
        rw [split]
        exact List.mem_append_right _ mem
      exact ssplit_line text (by omega) (by decide) rest
  obtain ⟨next, hands⟩ := handsOn_pass env reading isLine place saved split header.nonempty
    (header.not_newline header.nonempty List.prefix_rfl) short (Or.inr ⟨inLine, rest, rfl⟩)
    (by simp) cut (Or.inl rfl) later
  refine .ended next { hands with same := hands.same.trans ?_ } ?_
  · have drops := recvChunks_dropBytes env sock (left ++ [LF]) rest later next
    rw [List.length_append, List.length_singleton, List.append_assoc] at drops
    exact drops.symm
  · rw [lineCuts, if_pos (by rw [List.length_append, List.length_cons]; omega)]
    exact nofun

/-- The chunk ends in the line or with it, and begins with a command. -/
theorem lineOutcome_command {left : List UInt8} (isLine : reading.line?.isSome)
    (header : HeaderText line) (short : line.length ≤ LD_MAX) (split : line = fragment ++ (chunk ++ left))
    (place : AtLine sock reading st) (saved : Saved st.cinfo fragment) (some : chunk ≠ [])
    (cut : ssplit chunk false = (.error, chunk.length)) (command : BeginsCommand chunk)
    (rest : later.flatten = left ++ LF :: more) :
    LineOutcome env sock reading line more (chunk.length + left.length) (chunk :: later) st := by
  have part : fragment ++ chunk <+: line := by
    rw [split, ← List.append_assoc]
    exact List.prefix_append _ _
  have known := isFrameName_success_iff.mpr command
  have nonempty : fragment ++ chunk ≠ [] := by simp [some]
  obtain ⟨next, hands⟩ := handsOn_pass env reading isLine place saved rfl nonempty
    (header.not_newline nonempty part) (part.length_le.trans short) (Or.inl (Eq.refl []))
    (by simpa using some) (by simpa using cut) (Or.inr (by simpa using known)) later
  rw [List.append_nil, List.drop_nil] at hands
  have hands' : HandsOn env sock reading (chunk :: later) st (fragment ++ chunk) later next :=
    { hands with same := hands.same.trans (recvChunks_empty env later next) }
  have here : (chunk, left.length) ∈ lineCuts (chunk.length + left.length) (chunk :: later) := by
    rw [lineCuts_cons]
    exact List.mem_cons_self
  by_cases complete : left = []
  · subst complete
    rw [List.append_nil] at split
    rw [← split] at hands'
    refine .early later next hands' rest (dropBytes_cons chunk later 1).symm ⟨_, here, command⟩ ?_
    rw [List.length_nil, lineCuts_cons]
    intro cut mem _
    rcases List.mem_cons.mp mem with rfl | mem
    · rfl
    · exact Nat.le_zero.mp (lineCuts_le mem)
  · refine .torn (fragment ++ chunk) later next hands' nonempty part ?_
      ⟨_, here, command, fun zero => complete (List.length_eq_zero_iff.mp zero)⟩
    intro same
    rw [← same, ← List.append_assoc] at split
    exact complete (List.self_eq_append_right.mp split)

end Line

/-- A line that arrives in several chunks, of which `fragment` has been saved and `left` is still to
come. -/
theorem chunks_line (reading : Reading) {line more : List UInt8} (isLine : reading.line?.isSome)
    (header : HeaderText line) (short : line.length ≤ LD_MAX) (inLine : LengthInLine line) :
    ∀ (chunks : List (List UInt8)) (fragment left : List UInt8) (st : RecvState),
      line = fragment ++ left → AtLine sock reading st → Saved st.cinfo fragment →
      chunks.flatten = left ++ LF :: more →
      LineOutcome env sock reading line more left.length chunks st
  | [], fragment, left, st, _, _, _, whole => by simp at whole
  | chunk :: later, fragment, left, st, split, place, saved, whole => by
      rw [List.flatten_cons] at whole
      rcases first_chunk whole with ⟨rest, rfl, -⟩ | ⟨left', rfl, rest⟩
      · exact lineOutcome_ended env isLine header short inLine split place saved
      · have sizes := congrArg List.length split
        rw [List.length_append, List.length_append] at sizes
        rw [List.length_append]
        by_cases empty : chunk = []
        · subst empty
          have outcome := chunks_line reading isLine header short inLine later fragment left' st
            split place saved rest
          exact outcome.later env (recvChunks_empty env later st) rfl not_beginsCommand_nil
        have text : LineText false chunk := header.part empty fun c mem => by
          rw [split]
          simp [mem]
        have cut : ssplit chunk false = (.error, chunk.length) := ssplit_open text (by omega)
        by_cases command : BeginsCommand chunk
        · exact lineOutcome_command env isLine header short split place saved empty cut command rest
        · have unknown := isFrameName_error_iff.mpr command
          have leave : recvPass env sock (chunk, st) =
              .leave { st with cinfo := savePrev st.cinfo (chunk.take chunk.length) } :=
            recvPass_save (by rw [place.isBodyInput]; exact cut) empty unknown
          rw [List.take_length] at leave
          have outcome := chunks_line reading isLine header short inLine later (fragment ++ chunk) left'
            _ (by rw [split, List.append_assoc]) (place.savePrev chunk) (savePrev_saved saved empty) rest
          exact outcome.later env (recvChunks_leave env leave later) rfl command

end Newtmq
