/-
Module: Newtmq.Core.Newtctl
Purpose: `pack` and `unpack` of `newtctl.c`, which turn a control message into a message pack and back.
  The message pack library, and what the members of a union hold that its type does not name, are
  parameters.
Trusted boundary: human-reviewed spec
Main exports: NewtctlT, MsgpackObject, Msgpack, UnionReads, packCalls, pack, unpack
-/
import Newtmq.Core.Common

namespace Newtmq

/-- `DATALEN`. -/
def DATALEN : Nat := 4096

/-- `NEWTCTL_MEMBERS`. -/
def NEWTCTL_MEMBERS : Nat := 3

/-- The array `context`. -/
abbrev Context := { bytes : List UInt8 // bytes.length = DATALEN }

/-- `newtctl_t`. -/
structure NewtctlT where
  command : Int32
  status : Int32
  context : Context
deriving DecidableEq

/-! ### The library -/

/-- `msgpack_object`: its type, with the member of the union that the type names. The two types of
integers are one here. -/
inductive MsgpackObject where
  | nil
  | boolean (value : Bool)
  | integer (value : Int)
  | double (bits : UInt64)
  | raw (bytes : List UInt8)
  | array (items : List MsgpackObject)
  | map (entries : List (MsgpackObject × MsgpackObject))

/-- The calls of the packer. -/
inductive PackCall where
  | array (size : Nat)
  | int (value : Int32)
  | raw (size : Nat)
  | rawBody (bytes : List UInt8)

/-- The library: what a packer has written to its buffer after some calls, and the object that
`msgpack_unpack` finds in some bytes, or that it fails. -/
structure Msgpack where
  write : List PackCall → List UInt8
  unpack : List UInt8 → Option MsgpackObject

/-- What is read from the union of an object: the member `i64`, and the size of the member `raw` with the
memory that its pointer leads to. The fields say what is known: a member that the type names holds the
value, and the members share their memory, so that the size is the lower half of an integer. -/
structure UnionReads where
  i64 : MsgpackObject → Int
  rawSize : MsgpackObject → Nat
  rawMemory : MsgpackObject → List UInt8
  i64_integer : ∀ value, i64 (.integer value) = value
  rawSize_raw : ∀ bytes, rawSize (.raw bytes) = bytes.length
  rawMemory_raw : ∀ bytes, rawMemory (.raw bytes) = bytes
  rawSize_integer : ∀ value, rawSize (.integer value) = (value % 4294967296).toNat

/-! ### `newtctl.c` -/

/-- The calls of `pack`. -/
def packCalls (data : NewtctlT) : List PackCall :=
  [.array NEWTCTL_MEMBERS, .int data.command, .int data.status, .raw data.context.val.length,
    .rawBody data.context.val]

/-- `pack`, when `malloc` does not fail. -/
def pack (lib : Msgpack) (data : NewtctlT) : List UInt8 :=
  lib.write (packCalls data)

/-- A member of the union `via`. -/
inductive UnionMember where
  | array
  | i64
  | raw
deriving DecidableEq, Repr

/-- A member that was read, and the object it was read from. -/
structure UnionRead where
  member : UnionMember
  object : MsgpackObject

/-- `UNPACK_INT`. -/
def unpackInt (reads : UnionReads) (object : MsgpackObject) : Int32 :=
  Int32.ofInt (reads.i64 object)

/-- `UNPACK_STR` into the array `context`. `none` means that `memcpy` reads from memory that is not there,
or writes past the end of the array. -/
def unpackStr (reads : UnionReads) (object : MsgpackObject) (context : Context) : Option Context :=
  if fits : reads.rawSize object ≤ (reads.rawMemory object).length ∧ reads.rawSize object ≤ DATALEN then
    some ⟨(reads.rawMemory object).take (reads.rawSize object) ++
        context.val.drop (reads.rawSize object), by
      rw [List.length_append, List.length_take, List.length_drop, context.property]
      omega⟩
  else none

/-- What `unpack` returns, and stores, and has read. -/
structure UnpackResult where
  ret : Ret
  data : NewtctlT
  reads : List UnionRead

/-- `unpack`. `stale` is what `root` holds when `msgpack_unpack` fails and leaves it unset. -/
def unpack (lib : Msgpack) (reads : UnionReads) (stale : MsgpackObject) (input : List UInt8)
    (data : NewtctlT) : Option UnpackResult :=
  match (lib.unpack input).getD stale with
  | .array items =>
      if items.length = NEWTCTL_MEMBERS then
        let first := items.getD 0 .nil
        let second := items.getD 1 .nil
        (unpackStr reads second data.context).map fun context =>
          { ret := .success
            data := ⟨unpackInt reads first, unpackInt reads second, context⟩
            reads := [⟨.array, .array items⟩, ⟨.i64, first⟩, ⟨.i64, second⟩, ⟨.raw, second⟩] }
      else some ⟨.error, data, [⟨.array, .array items⟩]⟩
  | _ => some ⟨.error, data, []⟩

end Newtmq
