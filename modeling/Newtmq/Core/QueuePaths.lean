/-
Module: Newtmq.Core.QueuePaths
Purpose: The paths of the two files that `alloc_qinfo` opens for a queue, and what a path names: the
  steps between its slashes, taken from the root or from the working directory.
Trusted boundary: human-reviewed spec
Main exports: pathStep, pathSteps, resolvePath, queuePaths
-/
import Newtmq.Library.PathWalk
import Newtmq.Core.Startup

namespace Newtmq

open PathWalk (Step)

/-- The slash between the parts of a path. -/
def SLASH : UInt8 := 47

/-- What a part of a path stands for. -/
def pathStep (part : List UInt8) : Step (List UInt8) :=
  if part = [] ∨ part = cstring "." then .here
  else if part = cstring ".." then .up
  else .down part

/-- The steps of a path; more than one slash, and one at the end, make no difference. -/
def pathSteps (path : List UInt8) : List (Step (List UInt8)) :=
  (path.splitOn SLASH).map pathStep

/-- The file that a path names, by the names that lead to it from the root. -/
def resolvePath (cwd : List (List UInt8)) (path : List UInt8) : List (List UInt8) :=
  PathWalk.resolve (if path.head? = some SLASH then [] else cwd) (pathSteps path)

/-- The paths that `alloc_qinfo` gives to `fopen`. -/
def queuePaths (qname : List UInt8) (pm : PersistentManager) : List (List UInt8) :=
  let dirpath := (allocQinfo qname pm).1.dirpath
  [dirpath ++ cstring "/" ++ FNAME_DATA, dirpath ++ cstring "/" ++ FNAME_SENT_INDEX]

end Newtmq
