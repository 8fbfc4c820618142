/-
Module: Newtmq.Proofs.FrameObjects
Purpose: What every pass of `recv_data` keeps of the frame objects of a connection, and what it follows
  that the bucket holds. The receiving side on frame values is what the one on objects computes.
Trusted boundary: none
Main exports: frameUpdate_cases, ObjectsInv, objectsInv_chunks, published_well_formed
-/
import Mathlib.Data.List.GetD
import Mathlib.Data.List.Nodup
import Newtmq.Proofs.RecvPass
import Newtmq.Spec.PublishedObjects

namespace Newtmq

/-! ### One call of `frame_update` -/

/-- What a call of `frame_update` does to the status and to the name of the frame. -/
inductive UpdateCase (line : List UInt8) (len : Nat) (frame : Frame) : Int × Frame → Prop where
  | unknown (born : frame.status = .born) : UpdateCase line len frame (-1, frame)
  | named {name : List UInt8} {after : Frame} (born : frame.status = .born)
      (found : findFrameName line len finfoArr = some name)
      (set : after.name = name ++ frame.name.drop name.length)
      (header : after.status = .inputHeader) : UpdateCase line len frame (0, after)
  | stored {after : Frame} (begun : frame.status = .inputHeader ∨ frame.status = .inputBody)
      (kept : after.name = frame.name)
      (goesOn : after.status = .inputHeader ∨ after.status = .inputBody) :
      UpdateCase line len frame (0, after)
  | finished {after : Frame} (begun : frame.status = .inputHeader ∨ frame.status = .inputBody)
      (kept : after.name = frame.name) (done : after.status = .inBucket) :
      UpdateCase line len frame (1, after)
  | ignored (other : frame.status ≠ .born ∧ frame.status ≠ .inputHeader ∧
        frame.status ≠ .inputBody) :
      UpdateCase line len frame (0, frame)

@[simp] theorem frameHeaderLine_name (line : List UInt8) (len : Nat) (frame : Frame) :
    (frameHeaderLine line len frame).name = frame.name := by
  unfold frameHeaderLine
  split <;> rfl

@[simp] theorem frameHeaderLine_status (line : List UInt8) (len : Nat) (frame : Frame) :
    (frameHeaderLine line len frame).status = frame.status := by
  unfold frameHeaderLine
  split <;> rfl

@[simp] theorem frameBodyPiece_name (line : List UInt8) (len : Nat) (frame : Frame) :
    (frameBodyPiece line len frame).name = frame.name := by
  unfold frameBodyPiece
  split <;> rfl

theorem frameUpdate_cases (env : RecvEnv) (rands : Nat) (line : List UInt8) (len : Nat)
    (frame : Frame) :
    UpdateCase line len frame (frameUpdate (frameFinish env rands) line len frame) := by
  cases status : frame.status with
  | born =>
      cases found : findFrameName line len finfoArr with
      | none =>
          have result : frameUpdate (frameFinish env rands) line len frame = (-1, frame) := by
            simp [frameUpdate, status, frameSetname, found]
          rw [result]
          exact .unknown status
      | some name =>
          simp only [frameUpdate, status, frameSetname, found]
          exact .named status found rfl rfl
  | inputHeader =>
      simp only [frameUpdate, status]
      split
      · exact .stored (Or.inl status) rfl (Or.inr rfl)
      · split
        · exact .finished (Or.inl status) rfl rfl
        · exact .stored (Or.inl status) (by simp) (Or.inl (by simp [status]))
  | inputBody =>
      simp only [frameUpdate, status]
      split
      · exact .finished (Or.inr status) (by simp [finishFrame, frameFinish]) rfl
      · exact .stored (Or.inr status) (by simp) (Or.inr (by simp [status]))
  | _ =>
      simp only [frameUpdate, status]
      exact .ignored (by simp [status])

/-! ### The objects -/

@[simp] theorem object_set (s : ObjectState) {address : Nat} (inside : address < s.objects.length)
    (frame : Frame) (other : Nat) :
    (s.objects.set address frame).getD other allocFrame =
      if other = address then frame else s.object other := by
  rw [ObjectState.object, List.getD_eq_getElem?_getD, List.getElem?_set, List.getD_eq_getElem?_getD]
  by_cases same : address = other
  · subst same
    simp [inside]
  · simp [same, Ne.symm same]

theorem object_append (s : ObjectState) {address : Nat} (inside : address < s.objects.length)
    (frames : List Frame) : (s.objects ++ frames).getD address allocFrame = s.object address :=
  List.getD_append _ _ _ _ inside

/-- Where the object of `cinfo->frame` is in its making. -/
def Stage (s : ObjectState) (address : Nat) : Prop :=
  ((s.object address).status = .born ∧ (s.object address).name = [] ∧
      s.calls.filter (fun call => call.address = address && call.setsName) = []) ∨
    (((s.object address).status = .inputHeader ∨ (s.object address).status = .inputBody) ∧
      Named s.calls address (s.object address).name)

/-- What every pass of `recv_data` keeps. -/
structure ObjectsInv (s : ObjectState) : Prop where
  called : ∀ call ∈ s.calls, call.address < s.objects.length
  current : ∀ address, s.frame = some address →
    address < s.objects.length ∧ address ∉ s.bucket ∧ Stage s address
  linked : ∀ address ∈ s.bucket, address < s.objects.length ∧
    (s.object address).status = .inBucket ∧ Named s.calls address (s.object address).name
  once : s.bucket.Nodup

theorem objectsInv_start (id : List UInt8) (rands : Nat) : ObjectsInv (ObjectState.start id rands) where
  called := by simp [ObjectState.start]
  current := by simp [ObjectState.start]
  linked := by simp [ObjectState.start]
  once := List.nodup_nil

/-- A call for another object does not change how an object was named. -/
theorem Named.other {calls : List UpdateCall} {address : Nat} {name : List UInt8} {call : UpdateCall}
    (named : Named calls address name) (apart : call.address ≠ address) :
    Named (calls ++ [call]) address name := by
  obtain ⟨known, first, only, starts⟩ := named
  refine ⟨known, first, ?_, starts⟩
  rw [List.filter_append, only]
  simp [apart]

/-- A call that sets no name does not change how the object was named. -/
theorem Named.unset {calls : List UpdateCall} {address : Nat} {name : List UInt8} {call : UpdateCall}
    (named : Named calls address name) (unset : call.setsName = false) :
    Named (calls ++ [call]) address name := by
  obtain ⟨known, first, only, starts⟩ := named
  refine ⟨known, first, ?_, starts⟩
  rw [List.filter_append, only]
  simp [unset]

/-! ### One pass -/

variable {env : RecvEnv} {sock : Int}

theorem Extends.refl (s : ObjectState) : Extends s s :=
  ⟨List.prefix_rfl, ⟨[], by simp, by simp⟩, fun _ _ => rfl⟩

theorem Extends.trans {s middle later : ObjectState} (first : Extends s middle)
    (second : Extends middle later) : Extends s later where
  bucket := first.bucket.trans second.bucket
  calls := by
    obtain ⟨added, calls, apart⟩ := first.calls
    obtain ⟨more, calls', apart'⟩ := second.calls
    refine ⟨added ++ more, by rw [calls', calls, List.append_assoc], ?_⟩
    intro call mem
    rcases List.mem_append.mp mem with old | new
    · exact apart call old
    · exact fun linked => apart' call new (first.bucket.subset linked)
  objects address mem := by
    rw [second.objects address (first.bucket.subset mem), first.objects address mem]

/-- `prepare_frame` keeps the invariant: a new object is born, and has no call yet. -/
theorem ObjectsInv.prepare {s : ObjectState} (inv : ObjectsInv s) (sock : Int) :
    ObjectsInv (s.prepareFrame sock).2 ∧
      (s.prepareFrame sock).2.frame = some (s.prepareFrame sock).1 ∧
      Extends s (s.prepareFrame sock).2 := by
  cases current : s.frame with
  | some address =>
      simp only [ObjectState.prepareFrame, current]
      exact ⟨inv, trivial, Extends.refl _⟩
  | none =>
      simp only [ObjectState.prepareFrame, current]
      have old : ∀ address < s.objects.length,
          (s.objects ++ [{ allocFrame with sock := sock, cinfo := some s.id }]).getD address
            allocFrame = s.object address := fun address inside => object_append s inside _
      refine ⟨?_, trivial, List.prefix_rfl, ⟨[], by simp, by simp⟩,
        fun address mem => old address (inv.linked address mem).1⟩
      constructor
      case called =>
        intro call mem
        simpa using Nat.lt_succ_of_lt (inv.called call mem)
      case current =>
        rintro _ ⟨⟩
        refine ⟨by simp, ?_, Or.inl ?_⟩
        · intro mem
          exact Nat.lt_irrefl _ (inv.linked _ mem).1
        · simp only [ObjectState.object, List.getD_append_right _ _ _ _ (Nat.le_refl _), Nat.sub_self,
            List.getD_cons_zero, allocFrame, List.filter_eq_nil_iff, true_and]
          intro call mem
          have := inv.called call mem
          simp [Nat.ne_of_lt this]
      case linked =>
        intro address mem
        obtain ⟨inside, status, named⟩ := inv.linked address mem
        simp only [ObjectState.object, List.length_append, List.length_singleton]
        rw [old address inside]
        exact ⟨by omega, status, named⟩
      case once => exact inv.once

/-- `s` has become `next` with one call of `frame_update` for the object at `address`. -/
structure Updated (s : ObjectState) (address : Nat) (line : List UInt8) (len : Nat) (ret : Int)
    (frame : Frame) (next : ObjectState) : Prop where
  case : UpdateCase line len (s.object address) (ret, frame)
  objects : next.objects = s.objects.set address frame
  bucket : next.bucket = if 0 < ret then s.bucket ++ [address] else s.bucket
  calls : next.calls = s.calls ++ [⟨address, (s.object address).status, line, len, ret⟩]
  current : next.frame = if 0 < ret then none else some address

/-- A new object is named by the first call that sets a name, and its name is the command. -/
theorem Stage.name {s : ObjectState} {address : Nat} (stage : Stage s address) {line name : List UInt8}
    {len : Nat} {after : Frame} (born : (s.object address).status = .born)
    (found : findFrameName line len finfoArr = some name)
    (set : after.name = name ++ (s.object address).name.drop name.length) :
    Named (s.calls ++ [⟨address, (s.object address).status, line, len, 0⟩]) address after.name := by
  rcases stage with ⟨_, empty, none⟩ | ⟨begun, _⟩
  · obtain ⟨known, short, starts⟩ := findFrameName_eq_some found
    rw [set, empty, List.drop_nil, List.append_nil]
    refine ⟨known, ⟨address, .born, line, len, 0⟩, ?_, List.prefix_take_iff.mpr ⟨starts, short⟩⟩
    rw [List.filter_append, none, born]
    simp [UpdateCall.setsName]
  · rw [born] at begun
    rcases begun with h | h <;> cases h

/-- Past the command line, a call leaves the name as it is. -/
theorem Stage.keep {s : ObjectState} {address : Nat} (stage : Stage s address)
    (begun : (s.object address).status = .inputHeader ∨ (s.object address).status = .inputBody)
    (line : List UInt8) (len : Nat) (ret : Int) :
    Named (s.calls ++ [⟨address, (s.object address).status, line, len, ret⟩]) address
      (s.object address).name := by
  rcases stage with ⟨born, _⟩ | ⟨_, named⟩
  · rw [born] at begun
    rcases begun with h | h <;> cases h
  · apply named.unset
    rcases begun with h | h <;> simp [UpdateCall.setsName, h]

namespace Updated

variable {s next : ObjectState} {address len : Nat} {line : List UInt8} {ret : Int} {frame : Frame}

theorem object (updated : Updated s address line len ret frame next)
    (inside : address < s.objects.length) (other : Nat) :
    next.object other = if other = address then frame else s.object other := by
  rw [ObjectState.object, updated.objects, object_set s inside]

theorem goesOn (updated : Updated s address line len ret frame next) (inv : ObjectsInv s)
    (current : s.frame = some address) : Extends s next := by
  obtain ⟨inside, apart, _⟩ := inv.current address current
  refine ⟨?_, ⟨_, updated.calls, ?_⟩, ?_⟩
  · rw [updated.bucket]
    split
    · exact List.prefix_append _ _
    · exact List.prefix_rfl
  · intro call mem
    obtain rfl := List.mem_singleton.mp mem
    exact apart
  · intro other mem
    rw [updated.object inside, if_neg]
    rintro rfl
    exact apart mem

/-- An object that the bucket holds stays as it was published. -/
theorem linked (updated : Updated s address line len ret frame next) (inv : ObjectsInv s)
    (current : s.frame = some address) {other : Nat} (mem : other ∈ s.bucket) :
    other < next.objects.length ∧ (next.object other).status = .inBucket ∧
      Named next.calls other (next.object other).name := by
  obtain ⟨inside, apart, _⟩ := inv.current address current
  obtain ⟨bound, status, named⟩ := inv.linked other mem
  have different : other ≠ address := fun same => apart (same ▸ mem)
  rw [updated.object inside, if_neg different, updated.calls, updated.objects, List.length_set]
  exact ⟨bound, status, named.other (Ne.symm different)⟩

/-- The object that was updated: it is being made, or complete. -/
theorem stage (updated : Updated s address line len ret frame next) (inv : ObjectsInv s)
    (current : s.frame = some address) :
    (¬ 0 < ret → Stage next address) ∧
      (0 < ret → frame.status = .inBucket ∧ Named next.calls address frame.name) := by
  obtain ⟨inside, _, stage⟩ := inv.current address current
  have same : next.object address = frame := by rw [updated.object inside, if_pos rfl]
  rw [Stage, same, updated.calls]
  cases updated.case with
  | unknown born =>
      refine ⟨fun _ => ?_, fun finished => absurd finished (by decide)⟩
      rcases stage with ⟨_, empty, none⟩ | ⟨begun, _⟩
      · refine Or.inl ⟨born, empty, ?_⟩
        rw [List.filter_append, none]
        simp [UpdateCall.setsName]
      · rw [born] at begun
        rcases begun with h | h <;> cases h
  | named born found set header =>
      refine ⟨fun _ => Or.inr ⟨Or.inl header, stage.name born found set⟩, ?_⟩
      exact fun finished => absurd finished (by decide)
  | stored begun kept goesOn =>
      refine ⟨fun _ => Or.inr ⟨goesOn, ?_⟩, fun finished => absurd finished (by decide)⟩
      rw [kept]
      exact stage.keep begun line len 0
  | finished begun kept done =>
      refine ⟨fun ongoing => absurd (by decide) ongoing, fun _ => ⟨done, ?_⟩⟩
      rw [kept]
      exact stage.keep begun line len 1
  | ignored other =>
      rcases stage with ⟨born, _⟩ | ⟨header | body, _⟩
      · exact absurd born other.1
      · exact absurd header other.2.1
      · exact absurd body other.2.2

theorem keeps (updated : Updated s address line len ret frame next) (inv : ObjectsInv s)
    (current : s.frame = some address) : ObjectsInv next := by
  obtain ⟨inside, apart, _⟩ := inv.current address current
  obtain ⟨ongoing, finished⟩ := updated.stage inv current
  have same : next.object address = frame := by rw [updated.object inside, if_pos rfl]
  have length : next.objects.length = s.objects.length := by
    rw [updated.objects, List.length_set]
  constructor
  case called =>
    intro call mem
    rw [updated.calls] at mem
    rw [length]
    rcases List.mem_append.mp mem with old | new
    · exact inv.called call old
    · obtain rfl := List.mem_singleton.mp new
      exact inside
  case current =>
    intro other held
    rw [updated.current] at held
    obtain ⟨goesOn, same⟩ := Option.ite_none_left_eq_some.mp held
    cases same
    rw [length, updated.bucket, if_neg goesOn]
    exact ⟨inside, apart, ongoing goesOn⟩
  case linked =>
    intro other mem
    rw [updated.bucket] at mem
    split at mem
    next done =>
      rcases List.mem_append.mp mem with old | new
      · exact updated.linked inv current old
      · obtain rfl := List.mem_singleton.mp new
        rw [length, same]
        exact ⟨inside, finished done⟩
    · exact updated.linked inv current mem
  case once =>
    rw [updated.bucket]
    split
    · rw [← List.concat_eq_append]
      exact List.Nodup.concat apart inv.once
    · exact inv.once

end Updated

section AfterUpdate

variable (ret : Int) (s : ObjectState)

@[simp] theorem objectAfterUpdate_objects : (s.afterUpdate env sock ret).objects = s.objects := by
  unfold ObjectState.afterUpdate
  split_ifs <;> rfl

@[simp] theorem objectAfterUpdate_bucket : (s.afterUpdate env sock ret).bucket = s.bucket := by
  unfold ObjectState.afterUpdate
  split_ifs <;> rfl

@[simp] theorem objectAfterUpdate_calls : (s.afterUpdate env sock ret).calls = s.calls := by
  unfold ObjectState.afterUpdate
  split_ifs <;> rfl

@[simp] theorem objectAfterUpdate_frame :
    (s.afterUpdate env sock ret).frame = if 0 < ret then none else s.frame := by
  unfold ObjectState.afterUpdate
  split_ifs <;> rfl

end AfterUpdate

/-- The fields that decide what the bucket holds are left alone by the rest of a pass. -/
theorem ObjectsInv.congr {s next : ObjectState} (inv : ObjectsInv s) (frame : next.frame = s.frame)
    (objects : next.objects = s.objects) (bucket : next.bucket = s.bucket)
    (calls : next.calls = s.calls) : ObjectsInv next ∧ Extends s next := by
  have same : next.object = s.object := by
    funext address
    rw [ObjectState.object, objects, ObjectState.object]
  refine ⟨?_, ?_, ⟨[], by simp [calls], by simp⟩, fun address _ => by rw [same]⟩
  · constructor
    · rw [calls, objects]
      exact inv.called
    · rw [frame, objects, bucket]
      intro address held
      obtain ⟨inside, apart, stage⟩ := inv.current address held
      refine ⟨inside, apart, ?_⟩
      rw [Stage, same, calls]
      exact stage
    · rw [bucket, objects, same, calls]
      exact inv.linked
    · rw [bucket]
      exact inv.once
  · rw [bucket]

/-- The state after `frame_update` has been called for an object. -/
def afterCall (env : RecvEnv) (sock : Int) (line : List UInt8) (len address : Nat)
    (s : ObjectState) : ObjectState :=
  { (s.frameUpdate env line len address).2.afterUpdate env sock
      (s.frameUpdate env line len address).1 with
    prevData := none }

theorem updated_afterCall {s : ObjectState} {address : Nat} (current : s.frame = some address)
    (line : List UInt8) (len : Nat) :
    Updated s address line len
      (frameUpdate (frameFinish env s.rands) line len (s.object address)).1
      (frameUpdate (frameFinish env s.rands) line len (s.object address)).2
      (afterCall env sock line len address s) where
  case := frameUpdate_cases env s.rands line len (s.object address)
  objects := by simp [afterCall, ObjectState.frameUpdate]
  bucket := by simp [afterCall, ObjectState.frameUpdate]
  calls := by simp [afterCall, ObjectState.frameUpdate]
  current := by simp [afterCall, ObjectState.frameUpdate, current]

theorem objectLine_keeps {s : ObjectState} (inv : ObjectsInv s) (curr : List UInt8) (lineLen : Nat) :
    ObjectsInv (objectLine env sock curr lineLen s).2 ∧
      Extends s (objectLine env sock curr lineLen s).2 := by
  obtain ⟨prepared, current, first⟩ := inv.prepare sock
  simp only [objectLine]
  split
  · have updated := @updated_afterCall env sock _ _ current
      (joinedLine s.cinfo curr lineLen).1 (joinedLine s.cinfo curr lineLen).2
    exact ⟨updated.keeps prepared current, first.trans (updated.goesOn prepared current)⟩
  · exact inv.congr rfl rfl rfl rfl

theorem objectPass_keeps {curr : List UInt8} {s : ObjectState} (inv : ObjectsInv s) :
    (∀ result, objectPass env sock (curr, s) = .leave result →
        ObjectsInv result ∧ Extends s result) ∧
      ∀ next, objectPass env sock (curr, s) = .again next → ObjectsInv next.2 ∧ Extends s next.2 := by
  cases curr with
  | nil =>
      constructor
      · rintro result ⟨⟩
        exact ⟨inv, Extends.refl _⟩
      · rintro next ⟨⟩
  | cons c rest =>
      simp only [objectPass]
      split
      · constructor
        · rintro result ⟨⟩
          exact inv.congr rfl rfl rfl rfl
        · rintro next ⟨⟩
      · constructor
        · rintro result ⟨⟩
        · rintro next ⟨⟩
          exact objectLine_keeps inv _ _

theorem objectData_keeps {chunk : List UInt8} {s result : ObjectState} (inv : ObjectsInv s)
    (received : objectData env sock chunk s = some result) : ObjectsInv result ∧ Extends s result := by
  apply Loop.run_invariant (fun state => ObjectsInv state.2 ∧ Extends s state.2)
    (fun result => ObjectsInv result ∧ Extends s result) _ _ ⟨inv, Extends.refl _⟩ received
  · rintro ⟨curr, middle⟩ next ⟨kept, first⟩ again
    obtain ⟨inv, second⟩ := (objectPass_keeps kept).2 next again
    exact ⟨inv, first.trans second⟩
  · rintro ⟨curr, middle⟩ result ⟨kept, first⟩ leaves
    obtain ⟨inv, second⟩ := (objectPass_keeps kept).1 result leaves
    exact ⟨inv, first.trans second⟩

theorem objectsInv_chunks {chunks : List (List UInt8)} {s result : ObjectState} (inv : ObjectsInv s)
    (received : objectChunks env sock chunks s = some result) :
    ObjectsInv result ∧ Extends s result := by
  induction chunks generalizing s with
  | nil =>
      cases received
      exact ⟨inv, Extends.refl _⟩
  | cons chunk chunks ih =>
      obtain ⟨next, first, rest⟩ := Option.bind_eq_some_iff.mp received
      obtain ⟨kept, one⟩ := objectData_keeps inv first
      obtain ⟨kept, two⟩ := ih kept rest
      exact ⟨kept, one.trans two⟩

/-! ### Objects and values -/

/-- `prepare_frame` on objects is `prepare_frame` on values, and leaves the rest alone. -/
theorem prepareFrame_view {s : ObjectState} (inv : ObjectsInv s) (sock : Int) :
    (s.prepareFrame sock).2.object (s.prepareFrame sock).1 = prepareFrame sock s.cinfo ∧
      (s.prepareFrame sock).2.view =
        { s.view with cinfo := { s.cinfo with frame := some (prepareFrame sock s.cinfo) } } := by
  obtain ⟨_, held, extended⟩ := inv.prepare sock
  have made : (s.prepareFrame sock).2.object (s.prepareFrame sock).1 = prepareFrame sock s.cinfo := by
    cases current : s.frame with
    | some address => simp [ObjectState.prepareFrame, prepareFrame, ObjectState.cinfo, current]
    | none =>
        simp [ObjectState.prepareFrame, prepareFrame, ObjectState.cinfo, current, ObjectState.object]
  have rest : (s.prepareFrame sock).2.bucket = s.bucket ∧ (s.prepareFrame sock).2.id = s.id ∧
      (s.prepareFrame sock).2.prevData = s.prevData ∧ (s.prepareFrame sock).2.wire = s.wire ∧
      (s.prepareFrame sock).2.rands = s.rands := by
    cases current : s.frame <;> simp [ObjectState.prepareFrame, current]
  obtain ⟨bucket, id, prevData, wire, rands⟩ := rest
  have same : s.bucket.map (s.prepareFrame sock).2.object = s.bucket.map s.object :=
    List.map_congr_left extended.objects
  refine ⟨made, ?_⟩
  rw [ObjectState.view, ObjectState.cinfo, held, Option.map_some, made, bucket, same, id, prevData, wire,
    rands]
  rfl

/-- What the connection and the bucket hold after a call. -/
theorem Updated.view {s next : ObjectState} {address len : Nat} {line : List UInt8} {ret : Int}
    {frame : Frame} (updated : Updated s address line len ret frame next) (inv : ObjectsInv s)
    (current : s.frame = some address) :
    next.frame.map next.object = (if 0 < ret then none else some frame) ∧
      next.bucket.map next.object =
        if 0 < ret then s.bucket.map s.object ++ [frame] else s.bucket.map s.object := by
  obtain ⟨inside, _, _⟩ := inv.current address current
  have here : next.object address = frame := by rw [updated.object inside, if_pos rfl]
  have old : s.bucket.map next.object = s.bucket.map s.object :=
    List.map_congr_left (updated.goesOn inv current).objects
  rw [updated.current, updated.bucket]
  split
  · exact ⟨rfl, by rw [List.map_append, old, List.map_singleton, here]⟩
  · exact ⟨by rw [Option.map_some, here], old⟩

/-- `frame_update` on an object is `frame_update` on what it holds. -/
theorem afterCall_view {s : ObjectState} {address : Nat} (inv : ObjectsInv s)
    (current : s.frame = some address) (line : List UInt8) (len : Nat) :
    (afterCall env sock line len address s).view =
      (afterUpdate env sock s.view
        (frameUpdate (frameFinish env s.rands) line len (s.object address))).dropPrev := by
  obtain ⟨held, linked⟩ :=
    (@updated_afterCall env sock _ _ current line len).view inv current
  rw [ObjectState.view, ObjectState.cinfo, held, linked]
  rcases result : frameUpdate (frameFinish env s.rands) line len (s.object address) with ⟨ret, frame⟩
  by_cases finished : 0 < ret
  · simp [afterCall, ObjectState.frameUpdate, result, ObjectState.afterUpdate, finished, afterUpdate,
      RecvState.dropPrev, ObjectState.view, ObjectState.cinfo]
  · by_cases failed : ret < 0 <;>
      simp [afterCall, ObjectState.frameUpdate, result, ObjectState.afterUpdate, finished, failed,
        afterUpdate, RecvState.dropPrev, ObjectState.view, ObjectState.cinfo]

/-- A pass on objects is the pass on values. -/
theorem objectLine_view {s : ObjectState} (inv : ObjectsInv s) (curr : List UInt8) (lineLen : Nat) :
    recvLine env sock curr lineLen s.view =
      ((objectLine env sock curr lineLen s).1, (objectLine env sock curr lineLen s).2.view) := by
  obtain ⟨prepared, current, _⟩ := inv.prepare sock
  obtain ⟨made, same⟩ := prepareFrame_view inv sock
  have active : s.cinfo.frame.isSome = s.frame.isSome := by
    cases frame : s.frame <;> simp [ObjectState.cinfo, frame]
  have rands : (s.prepareFrame sock).2.rands = s.rands := congrArg RecvState.rands same
  have cinfo : s.view.cinfo = s.cinfo := rfl
  have viewRands : s.view.rands = s.rands := rfl
  by_cases calls : (s.frame.isSome || decide (0 < (joinedLine s.cinfo curr lineLen).2)) = true
  · have after := @afterCall_view env sock _ _ prepared current
      (joinedLine s.cinfo curr lineLen).1 (joinedLine s.cinfo curr lineLen).2
    rw [made, rands, same] at after
    simp only [recvLine, objectLine, cinfo, viewRands, active, calls, if_true]
    refine Prod.ext ?_ ?_
    · simp only [ObjectState.frameUpdate, made, rands]
    · refine Eq.trans ?_ after.symm
      rcases frameUpdate (frameFinish env s.rands) (joinedLine s.cinfo curr lineLen).1
        (joinedLine s.cinfo curr lineLen).2 (prepareFrame sock s.cinfo) with ⟨ret, frame⟩
      by_cases finished : 0 < ret <;> simp [afterUpdate, finished, RecvState.dropPrev, cinfo]
  · simp only [recvLine, objectLine, cinfo, active, calls]
    rfl

theorem objectPass_view {curr : List UInt8} {s : ObjectState} (inv : ObjectsInv s) :
    (∀ result, objectPass env sock (curr, s) = .leave result →
      recvPass env sock (curr, s.view) = .leave result.view) ∧
      ∀ next, objectPass env sock (curr, s) = .again next →
        recvPass env sock (curr, s.view) = .again (next.1, next.2.view) := by
  cases curr with
  | nil =>
      constructor
      · rintro result ⟨⟩
        rfl
      · rintro next ⟨⟩
  | cons c rest =>
      simp only [objectPass, recvPass]
      split
      · constructor
        · rintro result ⟨⟩
          simp only [ObjectState.view, ObjectState.cinfo, savePrev]
          split <;> rfl
        · rintro next ⟨⟩
      · constructor
        · rintro result ⟨⟩
        · rintro next ⟨⟩
          rw [objectLine_view inv]

/-- `recv_data` on values computes what `recv_data` on objects computes, and returns when it does. -/
theorem recvData_view (chunk : List UInt8) {s : ObjectState} (inv : ObjectsInv s) :
    recvData env sock chunk s.view = (objectData env sock chunk s).map ObjectState.view := by
  apply Loop.run_view (fun state => ObjectsInv state.2) (fun state => (state.1, state.2.view))
    ObjectState.view _ _ _ (chunk.length + 1) (chunk, s) inv
  · rintro ⟨curr, s⟩ next inv again
    exact ((objectPass_keeps inv).2 next again).1
  · rintro ⟨curr, s⟩ next inv again
    exact (objectPass_view inv).2 next again
  · rintro ⟨curr, s⟩ result inv leaves
    exact (objectPass_view inv).1 result leaves

theorem recvChunks_view (chunks : List (List UInt8)) {s : ObjectState} (inv : ObjectsInv s) :
    recvChunks env sock chunks s.view = (objectChunks env sock chunks s).map ObjectState.view := by
  induction chunks generalizing s with
  | nil => rfl
  | cons chunk chunks ih =>
      have first := @recvData_view env sock chunk s inv
      simp only [recvChunks, objectChunks, List.foldlM_cons] at ih ⊢
      rw [first]
      cases received : objectData env sock chunk s with
      | none => rfl
      | some next => exact ih (objectData_keeps inv received).1

/-- `conn_finish` on objects is `conn_finish` on values, but for `cinfo->frame`, which still points to the
object that has been published. -/
theorem connFinish_view {s : ObjectState} (inv : ObjectsInv s) :
    (connFinish env s.view).bucket = (objectFinish env s).view.bucket ∧
      (connFinish env s.view).rands = (objectFinish env s).view.rands ∧
      (connFinish env s.view).wire = (objectFinish env s).view.wire := by
  have cinfo : s.view.cinfo = s.cinfo := rfl
  cases current : s.frame with
  | none => simp [connFinish, objectFinish, cinfo, ObjectState.cinfo, current]
  | some address =>
      obtain ⟨inside, apart, _⟩ := inv.current address current
      have old : s.bucket.map (fun other => (s.objects.set address
          (frameFinish env s.rands (s.object address))).getD other allocFrame) =
          s.bucket.map s.object := by
        apply List.map_congr_left
        intro other mem
        rw [object_set s inside, if_neg]
        rintro rfl
        exact apart mem
      have here : (s.objects.set address (frameFinish env s.rands (s.object address))).getD address
          allocFrame = frameFinish env s.rands (s.object address) := by
        rw [object_set s inside, if_pos rfl]
      simp only [connFinish, objectFinish, cinfo, ObjectState.cinfo, current, Option.map_some]
      split
      · refine ⟨?_, rfl, rfl⟩
        change s.bucket.map s.object ++ [_] = (s.bucket ++ [address]).map fun other => _
        rw [List.map_append, List.map_singleton]
        simp only [ObjectState.object] at old here ⊢
        rw [old, here]
        rfl
      · exact ⟨rfl, rfl, rfl⟩

/-! ### The bucket -/

/-- In a table whose names start no other name, the row of a name is the only one that starts it, in
whatever order the rows stand. -/
theorem filter_isPrefixOf_eq {β : Type} {rows : List (List UInt8 × β)}
    (different : (rows.map Prod.fst).Nodup)
    (prefixFree : ∀ row ∈ rows, ∀ other ∈ rows, row.1 <+: other.1 → row.1 = other.1)
    {row : List UInt8 × β} (mem : row ∈ rows) :
    rows.filter (fun other => other.1.isPrefixOf row.1) = [row] := by
  apply List.perm_singleton.mp
  apply (List.perm_ext_iff_of_nodup (different.of_map.filter _) (List.nodup_singleton row)).mpr
  intro other
  rw [List.mem_filter, List.mem_singleton, List.isPrefixOf_iff_prefix]
  constructor
  · rintro ⟨here, starts⟩
    exact List.inj_on_of_nodup_map different here mem (prefixFree other here row mem starts)
  · rintro rfl
    exact ⟨mem, List.prefix_rfl⟩

theorem stompHandlers_names :
    (stompHandlers.map Prod.fst).Nodup ∧
      ∀ name, name ∈ stompHandlers.map Prod.fst ↔ name ∈ finfoArr := by
  have same : (stompHandlers.map Prod.fst).Perm finfoArr := by decide +kernel
  exact ⟨same.nodup_iff.mpr (by decide +kernel), fun name => same.mem_iff⟩

/-- The two command tables agree: a command has one handler. -/
theorem handledAlone_of_known (object : FrameObject) (known : object.frame.name ∈ finfoArr) :
    HandledAlone object := by
  obtain ⟨different, same⟩ := stompHandlers_names
  obtain ⟨⟨name, handler⟩, mem, here⟩ := List.mem_map.mp ((same _).mpr known)
  have alone : stompHandlers.filter (fun row => row.1.isPrefixOf object.frame.name) =
      [(object.frame.name, handler)] := by
    rw [← here]
    apply filter_isPrefixOf_eq different _ mem
    intro row inTable other inTable' starts
    exact finfoArr_prefix_free _ ((same _).mp (List.mem_map_of_mem inTable)) _
      ((same _).mp (List.mem_map_of_mem inTable')) starts
  refine ⟨handler, alone, fun env server => ?_⟩
  have found : findHandler object.frame.name = some handler := by
    rw [findHandler, ← List.head?_filter, alone]
    rfl
  rw [handleFrame]
  split
  · next other here =>
      cases found.symm.trans here
      rfl
  · next none =>
      cases found.symm.trans none

/-- `conn_finish` publishes a frame whose body is being received, under the name it has. -/
theorem objectFinish_linked {s : ObjectState} (inv : ObjectsInv s) :
    (∀ address ∈ (objectFinish env s).bucket,
      ((objectFinish env s).object address).status = .inBucket ∧
        Named (objectFinish env s).calls address ((objectFinish env s).object address).name) ∧
      (objectFinish env s).bucket.Nodup := by
  have kept : (∀ address ∈ s.bucket, (s.object address).status = .inBucket ∧
      Named s.calls address (s.object address).name) ∧ s.bucket.Nodup :=
    ⟨fun address mem => (inv.linked address mem).2, inv.once⟩
  cases current : s.frame with
  | none => simpa only [objectFinish, current] using kept
  | some address =>
      obtain ⟨inside, apart, stage⟩ := inv.current address current
      simp only [objectFinish, current]
      split
      next ends =>
        have named : Named s.calls address (s.object address).name := by
          rcases stage with ⟨born, _⟩ | ⟨_, named⟩
          · rw [born] at ends
            rcases ends with h | h <;> cases h
          · exact named
        refine ⟨?_, ?_⟩
        · intro other mem
          simp only [ObjectState.object]
          rw [object_set s inside]
          rcases List.mem_append.mp mem with old | new
          · have different : other ≠ address := fun same => apart (same ▸ old)
            rw [if_neg different]
            exact kept.1 other old
          · obtain rfl := List.mem_singleton.mp new
            rw [if_pos rfl]
            exact ⟨rfl, named⟩
        · rw [← List.concat_eq_append]
          exact List.Nodup.concat apart kept.2
      · exact kept

/-- Whatever chunks `recv_data` is given, when its calls return, every frame that the bucket holds once
`conn_finish` has run was published as it should be, and no call of `recv_data` updates a frame that the
bucket held before it. -/
theorem published_well_formed (env : RecvEnv) (sock : Int) (id : List UInt8) (rands : Nat)
    {chunks more : List (List UInt8)} {s later : ObjectState}
    (received : objectChunks env sock chunks (ObjectState.start id rands) = some s)
    (goesOn : objectChunks env sock more s = some later) :
    Extends s later ∧
      ∀ address ∈ (objectFinish env later).bucket, Published (objectFinish env later) address := by
  obtain ⟨inv, _⟩ := objectsInv_chunks (objectsInv_start id rands) received
  obtain ⟨inv, extended⟩ := objectsInv_chunks inv goesOn
  obtain ⟨linked, once⟩ := @objectFinish_linked env _ inv
  refine ⟨extended, fun address mem => ?_⟩
  obtain ⟨status, named⟩ := linked address mem
  exact ⟨status, named, List.count_eq_one_of_mem once mem, handledAlone_of_known _ named.1⟩

/-- A frame without a body, and the start of one with a body that the peer never sends. -/
def publishedChunk : List UInt8 :=
  cstring "SEND\ncontent-length:0\n\n" ++ cstring "SENDER\ncontent-length:5\n\nab"

def publishedState : Option ObjectState :=
  objectChunks quietEnv.toRecvEnv 3 [publishedChunk] (ObjectState.start [] 0)

theorem published_one_chunk : ∃ s later, publishedState = some s ∧
    objectChunks quietEnv.toRecvEnv 3 [] s = some later ∧
    (objectFinish quietEnv.toRecvEnv later).bucket = [0, 1] ∧
    Extends s later ∧ ∀ address ∈ (objectFinish quietEnv.toRecvEnv later).bucket,
      Published (objectFinish quietEnv.toRecvEnv later) address := by
  have bucket : publishedState.map (fun s => (objectFinish quietEnv.toRecvEnv s).bucket) =
      some [0, 1] := by decide +kernel
  obtain ⟨s, received, linked⟩ := Option.map_eq_some_iff.mp bucket
  obtain ⟨extended, published⟩ := published_well_formed quietEnv.toRecvEnv 3 [] 0 received
    (rfl : objectChunks quietEnv.toRecvEnv 3 [] s = some s)
  exact ⟨s, s, received, rfl, linked, extended, published⟩

end Newtmq
