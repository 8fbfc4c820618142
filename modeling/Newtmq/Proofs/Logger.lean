/-
Module: Newtmq.Proofs.Logger
Purpose: The log of any number of threads. The mutex keeps the parts of a line together, so no line has a
  part of another one in it, and a call that is too low prints nothing.
Trusted boundary: none
Main exports: LoggerInv, loggerInv_step, log_lines_whole
-/
import Newtmq.Spec.Logger

namespace Newtmq

open LockedLog (ofThread)

variable {currLevel : LogLevel}

theorem doLogger_flatten (call : LogCall) : (doLogger call).flatten = logLine call := by
  simp [doLogger, logLine]

/-- The mutex keeps the lines whole, and the lines that were begun are those of the calls that are to be
printed. -/
structure LoggerInv (currLevel : LogLevel) (s : Logger) : Prop where
  locked : LockedLog.Inv doLogger s.output
  begun : s.output.begun = s.calls.filter fun entry => currLevel.number ≤ entry.2.level.number

theorem loggerInv_start : LoggerInv currLevel .start :=
  ⟨LockedLog.inv_start doLogger, rfl⟩

/-- A step inside `do_logger` begins no line. -/
theorem LoggerInv.inside {s next : Logger} (inv : LoggerInv currLevel s)
    {action : LockedLog.Action Nat LogCall} (inside : action.begins = [])
    (taken : (LockedLog.step doLogger s.output action).map (fun output => ⟨s.calls, output⟩) =
      some next) : LoggerInv currLevel next := by
  obtain ⟨output, step, same⟩ := Option.map_eq_some_iff.mp taken
  cases same
  refine ⟨inv.locked.step step, ?_⟩
  rw [LockedLog.step_begun doLogger step, inside, List.append_nil]
  exact inv.begun

theorem loggerInv_step {s next : Logger} {action : LogAction} (inv : LoggerInv currLevel s)
    (taken : loggerStep currLevel s action = some next) : LoggerInv currLevel next := by
  cases action with
  | call thread call =>
      rw [loggerStep] at taken
      split at taken
      · next high =>
          obtain ⟨output, step, same⟩ := Option.map_eq_some_iff.mp taken
          cases same
          refine ⟨inv.locked.step step, ?_⟩
          simp [LockedLog.step_begun doLogger step, LockedLog.Action.begins, inv.begun, high]
      · next low =>
          obtain ⟨-, same⟩ := Option.ite_none_right_eq_some.mp taken
          cases same
          exact ⟨inv.locked, by simp [inv.begun, low]⟩
  | lock thread => exact inv.inside rfl taken
  | printf thread => exact inv.inside rfl taken
  | unlock thread => exact inv.inside rfl taken

theorem ofThread_filter (thread : Nat) (calls : List (Nat × LogCall)) (p : LogCall → Bool) :
    ofThread thread (calls.filter fun entry => p entry.2) = (ofThread thread calls).filter p := by
  rw [ofThread, ofThread, List.filter_map, List.filter_filter, List.filter_filter]
  congr 1
  refine List.filter_congr fun entry _ => ?_
  exact Bool.and_comm _ _

theorem LoggerInv.wholeLines {s : Logger} (inv : LoggerInv currLevel s) : WholeLines currLevel s := by
  have lines : ∀ entries : List (Nat × LogCall),
      (entries.flatMap fun entry => doLogger entry.2).flatten =
        entries.flatMap fun entry => logLine entry.2 := by
    intro entries
    induction entries with
    | nil => rfl
    | cons entry entries ih => rw [List.flatMap_cons, List.flatten_append, ih, doLogger_flatten,
        List.flatMap_cons]
  have order : ∀ thread, s.printed currLevel thread =
      ofThread thread s.output.finished ++ s.output.current thread := by
    intro thread
    rw [← inv.locked.order thread, inv.begun]
    exact (ofThread_filter thread s.calls fun call => currLevel.number ≤ call.level.number).symm
  have one : ∀ thread, (s.output.current thread).length ≤ 1 := by
    intro thread
    rw [LockedLog.State.current]
    cases s.output.running thread <;> simp
  cases holder : s.output.holder with
  | none =>
      refine ⟨s.output.finished, [], ?_, ?_, fun _ => rfl⟩
      · rw [inv.locked.free holder, lines, List.append_nil]
      · exact fun thread => ⟨_, order thread, one thread, fun holds => by rw [holder] at holds; cases holds⟩
  | some thread =>
      obtain ⟨call, sent, rest, running, split, log⟩ := inv.locked.held thread holder
      refine ⟨s.output.finished, sent.flatten, ?_, ?_, fun free => by rw [holder] at free; cases free⟩
      · rw [log, List.flatten_append, lines]
      · refine fun other => ⟨_, order other, one other, fun holds => ⟨call, ?_, rest.flatten, ?_⟩⟩
        · rw [holder] at holds
          cases holds
          rw [LockedLog.State.current, running]
          rfl
        · rw [← doLogger_flatten, split, List.flatten_append]

/-- Whatever the level that is set, the calls of the threads and the order of their steps, the log is made
of whole lines. -/
theorem log_lines_whole (level : Option (List UInt8)) (actions : List LogAction) {s : Logger}
    (taken : Transition.run (loggerStep (setLogger level DEFAULT_LOG_LEVEL).2) .start actions = some s) :
    WholeLines (setLogger level DEFAULT_LOG_LEVEL).2 s := by
  refine LoggerInv.wholeLines ?_
  refine (Transition.reaches_of_run taken).invariant ?_ loggerInv_start
  exact fun _ _ _ inv _ step => loggerInv_step inv step

/-- Two threads, one of which waits for the mutex, and a call that is not printed. -/
theorem log_lines_whole_two : ∃ s, WholeLines .info s ∧
    s.output.log.flatten = cstring "[ INFO] now > one\n[ WARN] " := by
  refine ⟨_, log_lines_whole none
    [.call 0 ⟨.info, cstring "now", cstring "one"⟩, .call 2 ⟨.debug, [], []⟩, .lock 0, .printf 0,
      .call 1 ⟨.warn, cstring "now", cstring "two"⟩, .printf 0, .printf 0, .printf 0, .unlock 0, .lock 1,
      .printf 1] rfl, by decide⟩

end Newtmq
