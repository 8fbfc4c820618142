/-
Module: Newtmq.Spec.Lives
Purpose: What the processes that serve one data directory, one after the other, may do to its data files:
  append whole frames that they have accepted, and nothing else.
Trusted boundary: human-reviewed spec
Main exports: LifeAction.accepted, FoundAsLeft, DataGrows, Delivery.AtRest
-/
import Newtmq.Core.Restarts
import Newtmq.Spec.SentIndex

namespace Newtmq

/-- The frame that a step accepts. -/
def LifeAction.accepted : LifeAction → Option Frame
  | .thread (.accept _ object) => some object.frame
  | .thread _ | .restart _ _ _ => none

/-- A process that starts finds the files as the one before has left them. -/
def FoundAsLeft (s : Delivery) : LifeAction → Prop
  | .thread _ => True
  | .restart _ disk _ => disk = s.pm.disk

/-- Each data file has grown by whole frames from the list. -/
def DataGrows (frames : List Frame) (before after : PersistentManager) : Prop :=
  ∀ dirpath, ∃ added : List Frame, (∀ frame ∈ added, frame ∈ frames) ∧
    after.dataFile dirpath = before.dataFile dirpath ++ added.flatMap frameBytes

/-- No frame is on its way to a data file. -/
structure Delivery.AtRest (s : Delivery) : Prop where
  handler : s.handler = .idle
  pending : ∀ qinfo ∈ s.pm.qinfos, qinfo.unpersistent = []

end Newtmq
