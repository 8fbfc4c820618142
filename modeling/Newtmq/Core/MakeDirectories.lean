/-
Module: Newtmq.Core.MakeDirectories
Purpose: `mkdir_recursive` of `common.c`, on a tree of directories and files, with the `mkdir` of the
  system.
Trusted boundary: human-reviewed spec
Main exports: mkdir, TMP_LENGTH, mkdirRecursive
-/
import Mathlib.Data.List.DropRight
import Newtmq.Library.DirectoryTree
import Newtmq.Core.QueuePaths

namespace Newtmq

open DirectoryTree (FileTree)

/-- The directory that the steps of a path begin in. -/
def walkStart (cwd : List (List UInt8)) (path : List UInt8) : List (List UInt8) :=
  if path.head? = some SLASH then [] else cwd

/-- `mkdir`, when the system permits it. Slashes at the end make no difference. Without a name, and where
the last part of the path is no name, the call fails. -/
def mkdir (cwd : List (List UInt8)) (path : List UInt8) (tree : FileTree (List UInt8)) : FileTree (List UInt8) :=
  let parts := (path.splitOn SLASH).rdropWhile (· = [])
  match parts.getLast? with
  | none => tree
  | some name =>
      if name = cstring "." ∨ name = cstring ".." then tree
      else
        match tree.walk (walkStart cwd path) (parts.dropLast.map pathStep) with
        | none => tree
        | some place => tree.make (place ++ [name])

/-- The size of the array `tmp`. -/
def TMP_LENGTH : Nat := 512

/-- The array `tmp` after `snprintf`, and after the slash at its end is taken away. `none` means that
`tmp[len - 1]` is outside the array: `snprintf` returns the length of the whole path. -/
def mkdirPath (dir : List UInt8) : Option (List UInt8) :=
  let len := (cstr dir).length
  let written := (cstr dir).take (TMP_LENGTH - 1)
  let tmp := written ++ List.replicate (TMP_LENGTH - written.length) 0
  if len = 0 ∨ TMP_LENGTH < len then none
  else some (if tmp[len - 1]? = some SLASH then tmp.set (len - 1) 0 else tmp)

/-- `mkdir_recursive`. The loop goes from the second character to the NUL, and puts a NUL in the place of
each slash while `mkdir` is called. -/
def mkdirRecursive (cwd : List (List UInt8)) (dir : List UInt8) (tree : FileTree (List UInt8)) :
    Option (FileTree (List UInt8)) :=
  (mkdirPath dir).map fun tmp =>
    let path := cstr tmp
    mkdir cwd path
      ((List.range path.length).tail.foldl
        (fun tree p => if path[p]? = some SLASH then mkdir cwd (path.take p) tree else tree) tree)

end Newtmq
