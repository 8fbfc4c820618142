/-
Module: Newtmq.Proofs.FrameLosses
Purpose: A frame that has gone wrong stays wrong. Header lines are only ever appended and no header
  line is read once the body has begun, so neither the rest of the call nor any later block can mend a
  frame that holds a line too many, too few, or a line cut in two.
Trusted boundary: none
Main exports: Spoiled, frameUpdate_spoiled, Damaged, Loses, Call.return_loses, Call.from_loses
-/
import Newtmq.Proofs.UnpersistLoops
import Newtmq.Proofs.Entries

namespace Newtmq

variable (rand : Nat → Nat)

/-! ### One frame -/

/-- The header lines of the frame can no longer become those that were sent. -/
def Spoiled (headers : List (List UInt8)) (frame : Frame) : Prop :=
  ¬ entryLines frame.hAttrs <+: headers ∨
    (frame.status = .inputBody ∧ entryLines frame.hAttrs ≠ headers)

theorem Spoiled.headers_ne {headers : List (List UInt8)} {frame : Frame}
    (spoiled : Spoiled headers frame) : entryLines frame.hAttrs ≠ headers := by
  rintro rfl
  rcases spoiled with notPrefix | ⟨_, ne⟩
  · exact notPrefix (List.prefix_refl _)
  · exact ne rfl

theorem Spoiled.notPrefix {headers : List (List UInt8)} {frame : Frame}
    (spoiled : Spoiled headers frame) (outside : frame.status ≠ .inputBody) :
    ¬ entryLines frame.hAttrs <+: headers := by
  rcases spoiled with notPrefix | ⟨body, _⟩
  · exact notPrefix
  · exact absurd body outside

theorem frameHeaderLine_extends (line : List UInt8) (len : Nat) (frame : Frame) :
    entryLines frame.hAttrs <+: entryLines (frameHeaderLine line len frame).hAttrs := by
  rw [frameHeaderLine]
  split
  · simp only [stompSetdata, entryLines_append]
    exact List.prefix_append _ _
  · exact List.prefix_refl _

theorem Spoiled.of_extends {headers : List (List UInt8)} {frame next : Frame}
    (spoiled : ¬ entryLines frame.hAttrs <+: headers)
    (more : entryLines frame.hAttrs <+: entryLines next.hAttrs) : Spoiled headers next :=
  Or.inl fun pre => spoiled (more.trans pre)

/-- `frame_update` does not mend a frame, whatever the line is. -/
theorem frameUpdate_spoiled {headers : List (List UInt8)} {frame : Frame}
    (spoiled : Spoiled headers frame) (finish : Frame → Frame)
    (same : ∀ frame, (finish frame).hAttrs = frame.hAttrs) (line : List UInt8) (len : Nat) :
    ((frameUpdate finish line len frame).1 ≤ 0 →
        Spoiled headers (frameUpdate finish line len frame).2) ∧
      entryLines (frameUpdate finish line len frame).2.hAttrs ≠ headers := by
  have ne := spoiled.headers_ne
  cases status : frame.status with
  | born =>
      have notPrefix := spoiled.notPrefix (by rw [status]; decide)
      simp only [frameUpdate, status, frameSetname]
      cases findFrameName line len finfoArr with
      | none => exact ⟨fun _ => spoiled, ne⟩
      | some name => exact ⟨fun _ => Or.inl notPrefix, ne⟩
  | inputHeader =>
      have notPrefix := spoiled.notPrefix (by rw [status]; decide)
      simp only [frameUpdate, status]
      split
      · exact ⟨fun _ => Or.inl notPrefix, ne⟩
      · split
        · refine ⟨by simp, ?_⟩
          simpa [finishFrame, same] using ne
        · have stored := Spoiled.of_extends notPrefix (frameHeaderLine_extends line len frame)
          exact ⟨fun _ => stored, stored.headers_ne⟩
  | inputBody =>
      have kept : entryLines (frameBodyPiece line len frame).hAttrs = entryLines frame.hAttrs := by
        rw [frameBodyPiece]
        split <;> rfl
      have still : (frameBodyPiece line len frame).status = frame.status := by
        rw [frameBodyPiece]
        split <;> rfl
      simp only [frameUpdate, status]
      split
      · refine ⟨by simp, ?_⟩
        simpa [finishFrame, same, kept] using ne
      · refine ⟨fun _ => ?_, by rwa [kept]⟩
        rw [Spoiled, kept, still]
        exact spoiled
  | clear => simpa [frameUpdate, status] using ⟨spoiled, ne⟩
  | inputName => simpa [frameUpdate, status] using ⟨spoiled, ne⟩
  | inBucket => simpa [frameUpdate, status] using ⟨spoiled, ne⟩
  | inQueue => simpa [frameUpdate, status] using ⟨spoiled, ne⟩

/-- What a pass of `parse_frame` can do: leave with the frame as it is, or hand on a line. -/
theorem parsePass_cases (memory : List UInt8) (inputLen : Nat) (st : ParseState) :
    parsePass rand memory inputLen st = .leave none ∨
    (∃ parsed, parsePass rand memory inputLen st = .leave (some (.error, parsed)) ∧
      parsed.frame = st.frame) ∨
    ∃ line len next, next.frame =
        (frameUpdate (parseFinish rand st.rands) line len st.frame).2 ∧
      parsePass rand memory inputLen st =
        if 0 < (frameUpdate (parseFinish rand st.rands) line len st.frame).1 then
          .leave (some (.success, next))
        else .again next := by
  generalize same : parsePass rand memory inputLen st = pass
  simp only [parsePass] at same
  split at same
  · exact Or.inr (Or.inl ⟨st, same.symm, rfl⟩)
  · split at same
    · exact Or.inl same.symm
    · split at same
      · split at same
        · exact Or.inl same.symm
        · exact Or.inr (Or.inl ⟨_, same.symm, rfl⟩)
      · split at same
        · exact Or.inl same.symm
        · split at same
          · refine Or.inr (Or.inr ?_)
            split at same
            next complete => exact ⟨_, _, _, rfl, by rw [if_pos complete, same]⟩
            next goes => exact ⟨_, _, _, rfl, by rw [if_neg goes, same]⟩
          · exact Or.inl same.symm

/-- A call does not mend a frame. -/
theorem parseFrom_spoiled {headers : List (List UInt8)} {memory : List UInt8} {inputLen : Nat}
    {st : ParseState} (spoiled : Spoiled headers st.frame) {ret : Ret} {parsed : ParseState}
    (h : parseFrom rand memory inputLen st = some (ret, parsed)) :
    (ret = .error → Spoiled headers parsed.frame) ∧
      entryLines parsed.frame.hAttrs ≠ headers := by
  rw [parseFrom, Option.join_eq_some_iff] at h
  refine Loop.run_invariant (fun st : ParseState => Spoiled headers st.frame)
    (fun r => ∀ ret parsed, r = some (ret, parsed) →
      (ret = .error → Spoiled headers parsed.frame) ∧ entryLines parsed.frame.hAttrs ≠ headers)
    ?keeps ?leaves spoiled h ret parsed rfl
  case keeps =>
    intro st next inv again
    rcases parsePass_cases rand memory inputLen st with
      leave | ⟨parsed, leave, _⟩ | ⟨line, len, moved, frame, pass⟩
    · rw [leave] at again
      cases again
    · rw [leave] at again
      cases again
    · rw [pass] at again
      split at again
      · cases again
      next goes =>
        cases again
        rw [frame]
        exact (frameUpdate_spoiled inv (parseFinish rand st.rands) (fun _ => rfl) line len).1
          (by omega)
  case leaves =>
    rintro st result inv leave ret parsed rfl
    rcases parsePass_cases rand memory inputLen st with
      none | ⟨found, some, frame⟩ | ⟨line, len, moved, frame, pass⟩
    · rw [none] at leave
      cases leave
    · rw [some] at leave
      cases leave
      rw [frame]
      exact ⟨fun _ => inv, inv.headers_ne⟩
    · rw [pass] at leave
      split at leave
      · cases leave
        rw [frame]
        exact ⟨fun error => (by cases error),
          (frameUpdate_spoiled inv (parseFinish rand st.rands) (fun _ => rfl) line len).2⟩
      · cases leave

/-! ### The loops -/

/-- Frame `k` of the result is not the frame that was sent, or will not be. -/
def Damaged (k : Nat) (sent : WireFrame) (st : UnpersistState) : Prop :=
  (st.head.length = k ∧ ∃ frame, st.frame = some frame ∧ Spoiled sent.headers frame) ∨
    ∃ frame, st.head[k]? = some frame ∧ ¬ frame.Carries sent

theorem Damaged.not_carried {k : Nat} {sent : WireFrame} {st : UnpersistState}
    (damaged : Damaged k sent st) : ¬ ∃ frame, st.head[k]? = some frame ∧ frame.Carries sent := by
  rintro ⟨frame, found, carries⟩
  rcases damaged with ⟨length, _⟩ | ⟨other, wrong, not⟩
  · rw [List.getElem?_eq_none (by omega)] at found
    cases found
  · rw [wrong] at found
    cases found
    exact not carries

/-- The next state after a call is damaged when the state before it was. -/
theorem Damaged.afterCall {k : Nat} {sent : WireFrame} {st : UnpersistState}
    (damaged : Damaged k sent st) {memory : List UInt8} {inputLen : Nat} {ret : Ret}
    {parsed : ParseState}
    (call : parseFrame rand memory inputLen (st.frame.getD allocFrame) st.prevBuffer st.rands =
      some (ret, parsed)) : Damaged k sent (st.afterCall (ret, parsed)) := by
  rcases damaged with ⟨length, frame, current, spoiled⟩ | ⟨frame, found, wrong⟩
  · rw [current, Option.getD_some] at call
    have first : Spoiled sent.headers
        (⟨0, frame, st.prevBuffer, -1, st.rands⟩ : ParseState).frame := spoiled
    obtain ⟨error, ne⟩ := parseFrom_spoiled rand first call
    cases ret with
    | success =>
        refine Or.inr ⟨parsed.frame, ?_, fun carries => ne carries.headers⟩
        simp [UnpersistState.afterCall, ← length]
    | error => exact Or.inl ⟨length, parsed.frame, rfl, error rfl⟩
  · refine Or.inr ⟨frame, ?_, wrong⟩
    have inside : k < st.head.length := by
      rcases List.getElem?_eq_some_iff.mp found with ⟨inside, _⟩
      exact inside
    cases ret <;> simp [UnpersistState.afterCall, List.getElem?_append_left inside, found]

theorem blockPass_damaged {k : Nat} {sent : WireFrame} {frameBuffer : List UInt8} {len : Nat}
    {st : UnpersistState} (damaged : Damaged k sent st) :
    (∀ next, blockPass rand frameBuffer len st = .again next → Damaged k sent next) ∧
      ∀ last, blockPass rand frameBuffer len st = .leave (some last) → Damaged k sent last := by
  by_cases before : st.index < 0
  · simp [blockPass, before]
  · rw [blockPass_eq rand frameBuffer len (by omega)]
    cases call : parseFrame rand (frameBuffer.drop st.index.toNat) len (st.frame.getD allocFrame)
        st.prevBuffer st.rands with
    | none => simp
    | some returned =>
        have kept := damaged.afterCall rand call
        constructor
        · intro next again
          simp only at again
          split at again <;> cases again
          exact kept
        · intro last leave
          simp only at leave
          split at leave <;> cases leave
          exact kept

theorem block_damaged {k : Nat} {sent : WireFrame} {frameBuffer : List UInt8} {len fuel : Nat}
    {st last : UnpersistState} (damaged : Damaged k sent st)
    (h : Loop.run (blockPass rand frameBuffer len) fuel st = some (some last)) :
    Damaged k sent last := by
  refine Loop.run_invariant (Damaged k sent)
    (fun result => ∀ last, result = some last → Damaged k sent last) ?keeps ?leaves damaged h last rfl
  case keeps =>
    intro st next inv again
    exact (blockPass_damaged rand inv).1 next again
  case leaves =>
    rintro st _ inv leave last rfl
    exact (blockPass_damaged rand inv).2 last leave

/-- The result, when there is one, has another frame at place `k`, or none. -/
def Loses (k : Nat) (sent : WireFrame) (result : Option UnpersistState) : Prop :=
  ∀ st, result = some st → ¬ ∃ frame, st.head[k]? = some frame ∧ frame.Carries sent

theorem loses_none (k : Nat) (sent : WireFrame) : Loses k sent none := by
  intro st h
  cases h

theorem fileFrom_loses {k : Nat} {sent : WireFrame} {file frameBuffer : List UInt8}
    {st : UnpersistState} (damaged : Damaged k sent st) :
    Loses k sent (fileFrom rand file frameBuffer st) := by
  intro last h
  rw [fileFrom, Option.join_eq_some_iff] at h
  apply Damaged.not_carried
  refine Loop.run_invariant
    (fun s : (List UInt8 × List UInt8) × UnpersistState => Damaged k sent s.2)
    (fun result => ∀ last, result = some last → Damaged k sent last) ?keeps ?leaves damaged h last rfl
  case keeps =>
    rintro ⟨⟨file, frameBuffer⟩, st⟩ next inv again
    simp only [filePass] at again
    split at again
    · cases again
    · split at again
      next found =>
        cases again
        have first : Damaged k sent { st with index := 0 } := inv
        exact block_damaged rand first found
      · cases again
  case leaves =>
    rintro ⟨⟨file, frameBuffer⟩, st⟩ _ inv leave last rfl
    simp only [filePass] at leave
    split at leave
    · cases leave
      exact inv
    · split at leave <;> cases leave

theorem blockFrom_loses {k : Nat} {sent : WireFrame} {file frameBuffer : List UInt8} {len : Nat}
    {st : UnpersistState} (damaged : Damaged k sent st) :
    Loses k sent (blockFrom rand file frameBuffer len st) := by
  intro last h
  rw [blockFrom] at h
  obtain ⟨middle, ran, rest⟩ := Option.bind_eq_some_iff.mp h
  have kept := block_damaged rand damaged (Option.join_eq_some_iff.mp ran)
  exact fileFrom_loses rand kept last rest

theorem Call.return_damaged {k : Nat} {sent : WireFrame} {call : Call}
    {returned : Ret × ParseState} (damaged : Damaged k sent (call.next returned)) :
    Loses k sent (call.return rand returned) := by
  rw [Call.return]
  split
  · exact blockFrom_loses rand damaged
  · exact fileFrom_loses rand damaged

/-- A call that returns a frame that does not carry the next one that was sent. -/
theorem Call.return_loses {sent : WireFrame} {call : Call} {parsed : ParseState}
    (wrong : ¬ parsed.frame.Carries sent) :
    Loses call.head.length sent (call.return rand (.success, parsed)) := by
  apply Call.return_damaged
  exact Or.inr ⟨parsed.frame, by simp [Call.next], wrong⟩

/-- A call that goes on with a spoiled frame. -/
theorem Call.from_loses {sent : WireFrame} {call : Call} {st : ParseState}
    (spoiled : Spoiled sent.headers st.frame) :
    Loses call.head.length sent (call.from rand st) := by
  intro last h
  rw [Call.from] at h
  obtain ⟨⟨ret, parsed⟩, parse, rest⟩ := Option.bind_eq_some_iff.mp h
  obtain ⟨error, ne⟩ := parseFrom_spoiled rand spoiled parse
  cases ret with
  | success => exact Call.return_loses rand (fun carries => ne carries.headers) last rest
  | error =>
      refine Call.return_damaged rand (Or.inl ⟨rfl, parsed.frame, rfl, error rfl⟩) last rest

end Newtmq
