/-
Module: Newtmq.Spec.QueuePaths
Purpose: What it means that the files of two queues are private and stay in the data directory, and the
  names of queues for which they do.
Trusted boundary: human-reviewed spec
Main exports: FilePathsFit, dataDirectory, FilesPrivate, NamesApart
-/
import Newtmq.Core.HeaderValues
import Newtmq.Core.QueuePaths

namespace Newtmq

open PathWalk (Relative relative)

/-- The paths of a queue's files fit into the array `filepath`. -/
def FilePathsFit (qname : List UInt8) (pm : PersistentManager) : Prop :=
  ∀ path ∈ queuePaths qname pm, path.length < MAX_PATH_LENGTH

/-- The directory in which the paths of all queues begin. -/
def dataDirectory (cwd : List (List UInt8)) (pm : PersistentManager) : List (List UInt8) :=
  resolvePath cwd (pm.datadir ++ cstring "/")

/-- The files of two queues: they are four different files, none of one queue is that of the other or a
directory above it, and all of them lie in the data directory. -/
structure FilesPrivate (cwd : List (List UInt8)) (pm : PersistentManager)
    (one other : List UInt8) : Prop where
  different : ((queuePaths one pm ++ queuePaths other pm).map (resolvePath cwd)).Nodup
  apart : ∀ path ∈ queuePaths one pm, ∀ path' ∈ queuePaths other pm,
    ¬ resolvePath cwd path <+: resolvePath cwd path' ∧
      ¬ resolvePath cwd path' <+: resolvePath cwd path
  inside : ∀ path ∈ queuePaths one pm ++ queuePaths other pm,
    dataDirectory cwd pm <+: resolvePath cwd path ∧ dataDirectory cwd pm ≠ resolvePath cwd path

/-- The relative path that the name of a queue is. -/
def queueRelative (qname : List UInt8) : Relative (List UInt8) :=
  relative (pathSteps (cstr qname))

/-- Each name comes back by the names that it has gone up from the data directory, and what is left of
the names differs: neither is the other one, or goes on from it with the name of a file. -/
structure NamesApart (base : List (List UInt8)) (one other : List UInt8) : Prop where
  oneReturns : (queueRelative one).Returns base
  otherReturns : (queueRelative other).Returns base
  differ : (queueRelative one).rest base ≠ (queueRelative other).rest base
  notUnder : ∀ file ∈ [FNAME_DATA, FNAME_SENT_INDEX],
    ¬ (queueRelative one).rest base ++ [file] <+: (queueRelative other).rest base ∧
      ¬ (queueRelative other).rest base ++ [file] <+: (queueRelative one).rest base

end Newtmq
