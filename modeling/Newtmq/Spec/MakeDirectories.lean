/-
Module: Newtmq.Spec.MakeDirectories
Purpose: What is to be there after `mkdir_recursive`: the directories that a path comes through, and
  otherwise what was there before.
Trusted boundary: human-reviewed spec
Main exports: OnTheWay, MakesDirectories
-/
import Newtmq.Core.MakeDirectories

namespace Newtmq

open DirectoryTree (FileTree)

/-- A path comes through a place, or leads to it. -/
def OnTheWay (cwd : List (List UInt8)) (path : List UInt8) (place : List (List UInt8)) : Prop :=
  ∃ steps, steps <+: pathSteps path ∧ place = PathWalk.resolve (walkStart cwd path) steps

/-- All places on the way are directories after, and the others are as they were. -/
structure MakesDirectories (cwd : List (List UInt8)) (path : List UInt8)
    (before after : FileTree (List UInt8)) : Prop where
  made : ∀ place, OnTheWay cwd path place → after.entry place = some .directory
  others : ∀ place, ¬ OnTheWay cwd path place → after.entry place = before.entry place

end Newtmq
