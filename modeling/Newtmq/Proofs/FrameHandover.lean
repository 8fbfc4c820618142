/-
Module: Newtmq.Proofs.FrameHandover
Purpose: A frame that `frame_update` finishes is linked before its size is counted up, so that another
  thread may have it by then. Frames are handed over in all interleavings exactly when `frame_update`
  finishes none.
Trusted boundary: none
Main exports: frameUpdate_of_link, recvPass_bucket, Completes, completes_touches, HandoverInv,
  handedOver_iff
-/
import Newtmq.Core.FrameHandover
import Newtmq.Library.Transition
import Newtmq.Proofs.RecvPass

namespace Newtmq

/-! ### The parts make `frame_update` -/

theorem frameUpdate_of_link {finish : Frame → Frame} {line : List UInt8} {len : Nat}
    {frame linked : Frame} (links : linkUpdate finish line len frame = some linked) :
    frameUpdate finish line len frame = (1, grown linked) := by
  unfold linkUpdate at links
  split at links
  · next header =>
      obtain ⟨finishes, same⟩ := Option.ite_none_right_eq_some.mp links
      cases same
      rw [Bool.and_eq_true, decide_eq_true_eq] at finishes
      obtain ⟨newline, empty⟩ := finishes
      simp [frameUpdate, header, newline, empty, finishFrame, grown]
  · next body =>
      obtain ⟨complete, same⟩ := Option.ite_none_right_eq_some.mp links
      cases same
      simp only [frameUpdate, body, complete, if_true]
      rfl
  · cases links

theorem frameUpdate_of_no_link {finish : Frame → Frame} {line : List UInt8} {len : Nat}
    {frame : Frame} (none : linkUpdate finish line len frame = .none) :
    ¬ 0 < (frameUpdate finish line len frame).1 := by
  unfold frameUpdate
  split
  · split <;> simp
  · next header =>
      rw [linkUpdate, header] at none
      split
      · exact Int.lt_irrefl 0
      · split
        · next finishes =>
            rw [if_pos finishes] at none
            cases none
        · exact Int.lt_irrefl 0
  · next body =>
      rw [linkUpdate, body] at none
      dsimp only
      split
      · next complete =>
          rw [if_pos complete] at none
          cases none
      · exact Int.lt_irrefl 0
  · exact Int.lt_irrefl 0

/-- A line puts into the bucket the frame that it links, counted up. -/
theorem recvLine_bucket (env : RecvEnv) (sock : Int) (curr : List UInt8) (n : Nat) (st : RecvState) :
    (recvLine env sock curr n st).2.bucket =
      st.bucket ++ ((linkedLine env sock curr n st).map grown).toList := by
  rcases joined : joinedLine st.cinfo curr n with ⟨line, len⟩
  simp only [recvLine, linkedLine, joined]
  split
  · cases links : linkUpdate (frameFinish env st.rands) line len (prepareFrame sock st.cinfo) with
    | some frame =>
        rw [frameUpdate_of_link links]
        rfl
    | none =>
        have unfinished := frameUpdate_of_no_link links
        simp [afterUpdate, unfinished, RecvState.dropPrev]
  · simp [RecvState.dropPrev]

/-- A pass of `recv_data` that goes on puts into the bucket the frame that it links, counted up. -/
theorem recvPass_bucket {env : RecvEnv} {sock : Int} {curr next : List UInt8} {st st' : RecvState}
    (again : recvPass env sock (curr, st) = .again (next, st')) :
    st'.bucket = st.bucket ++ ((linkedFrame env sock curr st).map grown).toList := by
  cases curr with
  | nil => cases again
  | cons c rest =>
      simp only [recvPass] at again
      split at again
      · cases again
      · next goes =>
          have taken := Loop.Step.again.inj again
          have later := recvLine_bucket env sock (c :: rest) (ssplit (c :: rest) st.isBodyInput).2 st
          rw [taken] at later
          rw [later, linkedFrame]
          simp only [goes, if_false]

/-- A pass that links a frame goes on. -/
theorem recvPass_of_linkedFrame {env : RecvEnv} {sock : Int} {curr : List UInt8} {st : RecvState}
    {frame : Frame} (nonempty : curr ≠ []) (links : linkedFrame env sock curr st = some frame) :
    ∃ next st', recvPass env sock (curr, st) = .again (next, st') := by
  obtain ⟨c, rest, rfl⟩ := List.exists_cons_of_ne_nil nonempty
  obtain ⟨goes, _⟩ := Option.ite_none_left_eq_some.mp links
  exact ⟨_, _, by simp [recvPass, goes]; rfl⟩

/-! ### Runs -/

variable {env : ServerEnv} {sock : Int}

/-- The states of all interleavings. -/
abbrev HandoverReaches (env : ServerEnv) (sock : Int) : Handover → Handover → Prop :=
  Transition.Reaches (handoverStep env sock) Transition.Always

/-- The next pass of the thread hands `frame_update` a line that finishes a frame. -/
def Completes (env : ServerEnv) (sock : Int) (s : Handover) : Prop :=
  s.pending = none ∧ s.curr ≠ [] ∧ (linkedFrame env.toRecvEnv sock s.curr s.recv).isSome

/-- Then the thread can touch the frame after it was linked. -/
theorem completes_touches {s : Handover} (completes : Completes env sock s) :
    ∃ later, HandoverReaches env sock s later ∧ later.touched ≠ [] := by
  obtain ⟨ready, nonempty, links⟩ := completes
  obtain ⟨frame, links⟩ := Option.isSome_iff_exists.mp links
  obtain ⟨next, st', again⟩ := recvPass_of_linkedFrame nonempty links
  have first : handoverStep env sock s .pass =
      some { (s.touch s.current).link frame with
        curr := next
        recv := { st' with bucket := [] }
        pending := some s.current } := by
    simp [handoverStep, Handover.pass, ready, nonempty, again, links]
  refine ⟨_, (Relation.ReflTransGen.single ⟨.pass, trivial, first⟩).tail ⟨.grow, trivial, rfl⟩, ?_⟩
  simp [Handover.touch, Handover.link]

/-- What holds as long as `frame_update` finishes no frame. -/
structure HandoverInv (s : Handover) : Prop where
  ready : s.pending = none
  fresh : ∀ address ∈ s.linked, address < s.current
  listed : ∀ address ∈ s.bucket, address ∈ s.linked
  known : ∀ entry ∈ s.seen, entry.1 ∈ s.linked
  handed : HandedOver s

/-- It is about these parts of the state only. -/
theorem HandoverInv.congr {s s' : Handover} (inv : HandoverInv s) (pending : s'.pending = s.pending)
    (current : s'.current = s.current) (linked : s'.linked = s.linked) (bucket : s'.bucket = s.bucket)
    (seen : s'.seen = s.seen) (frames : s'.frames = s.frames) (touched : s'.touched = s.touched) :
    HandoverInv s' where
  ready := pending.trans inv.ready
  fresh := by
    rw [linked, current]
    exact inv.fresh
  listed := by
    rw [bucket, linked]
    exact inv.listed
  known := by
    rw [seen, linked]
    exact inv.known
  handed := by
    refine ⟨touched.trans inv.handed.untouched, ?_⟩
    rw [seen, frames]
    exact inv.handed.final

theorem handoverInv_start (cinfoId : List UInt8) (rands : Nat) (chunks : List (List UInt8))
    (server : Server) : HandoverInv (Handover.start cinfoId rands chunks server) where
  ready := rfl
  fresh _ mem := absurd mem List.not_mem_nil
  listed _ mem := absurd mem List.not_mem_nil
  known _ mem := absurd mem List.not_mem_nil
  handed := ⟨rfl, fun _ mem => absurd mem List.not_mem_nil⟩

/-- The frame that is being received was not linked. -/
theorem HandoverInv.touch {s : Handover} (inv : HandoverInv s) : s.touch s.current = s := by
  have private_ : s.current ∉ s.linked := fun mem => Nat.lt_irrefl _ (inv.fresh _ mem)
  simp [Handover.touch, private_]

theorem HandoverInv.link {s : Handover} (inv : HandoverInv s) (frame : Frame) :
    HandoverInv (s.link frame) where
  ready := inv.ready
  fresh address mem := by
    rcases List.mem_append.mp mem with old | new
    · exact Nat.lt_succ_of_lt (inv.fresh address old)
    · rw [List.mem_singleton.mp new]
      exact Nat.lt_succ_self _
  listed address mem := by
    rcases List.mem_append.mp mem with old | new
    · exact List.mem_append_left _ (inv.listed address old)
    · exact List.mem_append_right _ new
  known entry mem := List.mem_append_left _ (inv.known entry mem)
  handed := by
    refine ⟨inv.handed.untouched, fun entry mem => ?_⟩
    have other : entry.1 ≠ s.current := Nat.ne_of_lt (inv.fresh _ (inv.known entry mem))
    simp only [Handover.link, Function.update_of_ne other]
    exact inv.handed.final entry mem

/-- Every step keeps it, but for a pass that finishes a frame. -/
theorem HandoverInv.step {s s' : Handover} (inv : HandoverInv s) (open_ : ¬ Completes env sock s)
    {action : HandoverAction} (taken : handoverStep env sock s action = some s') :
    HandoverInv s' := by
  cases action with
  | receive =>
      simp only [handoverStep] at taken
      split at taken
      · cases taken
      · split at taken
        · cases taken
        · cases taken
          exact inv.congr rfl rfl rfl rfl rfl rfl rfl
  | pass =>
      simp only [handoverStep, Handover.pass] at taken
      split at taken
      · cases taken
      · next able =>
          rw [inv.touch] at taken
          split at taken
          · cases taken
            exact inv.congr rfl rfl rfl rfl rfl rfl rfl
          · split at taken
            · next links =>
                refine absurd ⟨inv.ready, ?_, ?_⟩ open_
                · exact fun empty => able (Or.inr empty)
                · rw [links]
                  rfl
            · cases taken
              exact inv.congr rfl rfl rfl rfl rfl rfl rfl
  | grow =>
      simp only [handoverStep, inv.ready] at taken
      cases taken
  | close =>
      simp only [handoverStep, Handover.close] at taken
      split at taken
      · cases taken
      · rw [inv.touch] at taken
        split at taken
        · cases taken
          exact inv.congr rfl rfl rfl rfl rfl rfl rfl
        · next frame _ _ =>
            cases taken
            exact (inv.link frame).congr rfl rfl rfl rfl rfl rfl rfl
  | pop =>
      simp only [handoverStep] at taken
      split at taken
      · cases taken
      · split at taken
        · cases taken
        · next address rest bucket =>
            cases taken
            have first : address ∈ s.linked := inv.listed address (by simp [bucket])
            refine ⟨inv.ready, inv.fresh, fun other mem => ?_, fun entry mem => ?_,
              inv.handed.untouched, fun entry mem => ?_⟩
            · exact inv.listed other (by simp [bucket, mem])
            · rcases List.mem_append.mp mem with old | new
              · exact inv.known entry old
              · rw [List.mem_singleton.mp new]
                exact first
            · rcases List.mem_append.mp mem with old | new
              · exact inv.handed.final entry old
              · rw [List.mem_singleton.mp new]
  | handle =>
      simp only [handoverStep] at taken
      split at taken
      · cases taken
      · obtain ⟨server, _, rfl⟩ := Option.map_eq_some_iff.mp taken
        exact inv.congr rfl rfl rfl rfl rfl rfl rfl

/-- Whatever a connection receives, its frames are handed over in all interleavings exactly when
`frame_update` finishes none of them. -/
theorem handedOver_iff (env : ServerEnv) (sock : Int) (cinfoId : List UInt8) (rands : Nat)
    (chunks : List (List UInt8)) (server : Server) :
    (∀ s, HandoverReaches env sock (Handover.start cinfoId rands chunks server) s → HandedOver s) ↔
      ∀ s, HandoverReaches env sock (Handover.start cinfoId rands chunks server) s →
        ¬ Completes env sock s := by
  constructor
  · intro handed s reached completes
    obtain ⟨later, goes, touched⟩ := completes_touches completes
    exact touched (handed later (reached.trans goes)).untouched
  · intro never s reached
    suffices inv : HandoverInv s from inv.handed
    induction reached with
    | refl => exact handoverInv_start cinfoId rands chunks server
    | tail before last inv =>
        obtain ⟨action, _, taken⟩ := last
        exact inv.step (never _ before) taken

/-- The worker pops, handles and frees a frame `CONNECT` before the thread counts up its size. -/
theorem connect_touched_after_free :
    ∃ s, HandoverReaches quietEnv 3
        (Handover.start [] 0 [cstring "CONNECT\ncontent-length:0\n\n"] (Server.init [] fun _ => none))
        s ∧
      (s.touched, s.server.freed, s.seen, (s.frames 0).size) = ([0], [0], [(0, 25)], 26) ∧
      ¬ HandedOver s := by
  obtain ⟨s, taken, touched⟩ :
      ∃ s, Transition.run (handoverStep quietEnv 3)
          (Handover.start [] 0 [cstring "CONNECT\ncontent-length:0\n\n"]
            (Server.init [] fun _ => none))
          [.receive, .pass, .pass, .pass, .pop, .handle, .grow] = some s ∧
        (s.touched, s.server.freed, s.seen, (s.frames 0).size) = ([0], [0], [(0, 25)], 26) := by
    apply Option.map_eq_some_iff.mp
    decide +kernel
  refine ⟨s, Transition.reaches_of_run taken, touched, fun handed => ?_⟩
  rw [Prod.mk.injEq, handed.untouched] at touched
  cases touched.1

end Newtmq
