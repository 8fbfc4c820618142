/-
Module: Newtmq.Spec.Newtctl
Purpose: What a control message is as a message pack, what it means that it comes back from `unpack`, and
  that `unpack` accepts well-typed messages only.
Trusted boundary: human-reviewed spec
Main exports: packedObject, RoundTrips, ContextAgrees, WellTyped, OwnType, AcceptsWellTyped
-/
import Newtmq.Core.Newtctl

namespace Newtmq

/-- The object that the calls of `pack` describe. -/
def packedObject (data : NewtctlT) : MsgpackObject :=
  .array [.integer data.command.toInt, .integer data.status.toInt, .raw data.context.val]

/-- The library decodes what it has encoded for a control message. -/
def Msgpack.Decodes (lib : Msgpack) (data : NewtctlT) : Prop :=
  lib.unpack (lib.write (packCalls data)) = some (packedObject data)

/-- `unpack` accepts what `pack` has made of `data`, and restores it. `old` is what was there. -/
def RoundTrips (lib : Msgpack) (reads : UnionReads) (stale : MsgpackObject) (data old : NewtctlT) :
    Prop :=
  ∃ result, unpack lib reads stale (pack lib data) old = some result ∧
    result.ret = .success ∧ result.data = data

/-- The lower 32 bits of the status are a length `n` of at most 4096, the pointer that an integer leaves
in the union leads to memory with the first `n` bytes of the context, and the old context has its other
bytes. -/
def ContextAgrees (reads : UnionReads) (data old : NewtctlT) : Prop :=
  let n := (data.status.toInt % 4294967296).toNat
  let memory := reads.rawMemory (.integer data.status.toInt)
  n ≤ memory.length ∧ n ≤ DATALEN ∧ memory.take n = data.context.val.take n ∧
    old.context.val.drop n = data.context.val.drop n

/-- An array of an integer, an integer and a raw string that fits into the context. -/
def WellTyped (object : MsgpackObject) : Prop :=
  ∃ command status bytes, object = .array [.integer command, .integer status, .raw bytes] ∧
    bytes.length ≤ DATALEN

/-- The member that was read is the one that the type of the object names. -/
def OwnType (read : UnionRead) : Prop :=
  match read.member, read.object with
  | .array, .array _ => True
  | .i64, .integer _ => True
  | .raw, .raw _ => True
  | _, _ => False

/-- `unpack` succeeds only for a well-typed message, reads members at their own types only, and otherwise
returns `RET_ERROR` with the data unchanged. -/
def AcceptsWellTyped (lib : Msgpack) (reads : UnionReads) (stale : MsgpackObject) (input : List UInt8)
    (data : NewtctlT) : Prop :=
  ∃ result, unpack lib reads stale input data = some result ∧
    (∀ read ∈ result.reads, OwnType read) ∧
    ((∃ object, lib.unpack input = some object ∧ WellTyped object) ∨
      (result.ret = .error ∧ result.data = data))

/-- What `root` holds is an array of three elements. -/
def ThreeElements (object : MsgpackObject) : Prop :=
  ∃ items, object = .array items ∧ items.length = NEWTCTL_MEMBERS

end Newtmq
