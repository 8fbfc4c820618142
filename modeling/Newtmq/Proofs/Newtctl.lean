/-
Module: Newtmq.Proofs.Newtctl
Purpose: `unpack` takes the context from the second element, where `pack` has put the status, so that a
  message comes back only by chance, and no array of three elements is read at its types.
Trusted boundary: none
Main exports: unpack_array, round_trip_iff, accepts_well_typed_iff
-/
import Newtmq.Spec.Newtctl

namespace Newtmq

variable {lib : Msgpack} {reads : UnionReads} {stale : MsgpackObject}

/-- What `unpack` does with an array of three elements. -/
theorem unpack_array {input : List UInt8} {data : NewtctlT} {first second third : MsgpackObject}
    (root : (lib.unpack input).getD stale = .array [first, second, third]) :
    unpack lib reads stale input data = (unpackStr reads second data.context).map fun context =>
      { ret := .success
        data := ⟨unpackInt reads first, unpackInt reads second, context⟩
        reads := [⟨.array, .array [first, second, third]⟩, ⟨.i64, first⟩, ⟨.i64, second⟩,
          ⟨.raw, second⟩] } := by
  rw [unpack, root]
  exact if_pos rfl

theorem root_pack {data : NewtctlT} (decodes : lib.Decodes data) :
    (lib.unpack (pack lib data)).getD stale = packedObject data := by
  rw [pack, decodes]
  rfl

theorem unpackInt_toInt (value : Int32) : unpackInt reads (.integer value.toInt) = value := by
  rw [unpackInt, reads.i64_integer]
  exact Int32.ofInt_toInt value

theorem unpackStr_some {object : MsgpackObject} {context : Context}
    (fits : reads.rawSize object ≤ (reads.rawMemory object).length ∧ reads.rawSize object ≤ DATALEN) :
    ∃ copied, unpackStr reads object context = some copied ∧
      copied.val = (reads.rawMemory object).take (reads.rawSize object) ++
        context.val.drop (reads.rawSize object) := by
  refine ⟨⟨_, ?_⟩, ?_, rfl⟩
  · rw [List.length_append, List.length_take, List.length_drop, context.property]
    omega
  · rw [unpackStr, dif_pos fits]

theorem unpackStr_none {object : MsgpackObject} {context : Context}
    (outside : ¬ (reads.rawSize object ≤ (reads.rawMemory object).length ∧
      reads.rawSize object ≤ DATALEN)) : unpackStr reads object context = none := by
  rw [unpackStr, dif_neg outside]

/-- An array is made of two parts when its beginning and its end are. -/
theorem append_eq_iff {one two whole : List UInt8} {n : Nat} (first : one.length = n) :
    one ++ two = whole ↔ one = whole.take n ∧ two = whole.drop n := by
  constructor
  · rintro rfl
    rw [← first, List.take_left, List.drop_left]
    exact ⟨rfl, rfl⟩
  · rintro ⟨same, rest⟩
    rw [same, rest, List.take_append_drop]

/-- A message comes back exactly when what is copied in place of its context happens to be its context. -/
theorem round_trip_iff (data old : NewtctlT) (decodes : lib.Decodes data) :
    RoundTrips lib reads stale data old ↔ ContextAgrees reads data old := by
  rw [RoundTrips, unpack_array (root_pack decodes), ContextAgrees, ← reads.rawSize_integer]
  by_cases fits : reads.rawSize (.integer data.status.toInt) ≤
      (reads.rawMemory (.integer data.status.toInt)).length ∧
        reads.rawSize (.integer data.status.toInt) ≤ DATALEN
  · obtain ⟨copied, done, bytes⟩ := unpackStr_some fits
    have context : copied = data.context ↔ _ :=
      Subtype.ext_iff.trans (bytes ▸ append_eq_iff (List.length_take_of_le fits.1))
    rw [done]
    constructor
    · rintro ⟨result, ⟨⟩, _, same⟩
      exact ⟨fits.1, fits.2, context.mp (congrArg NewtctlT.context same)⟩
    · rintro ⟨_, _, agrees⟩
      refine ⟨_, rfl, rfl, ?_⟩
      dsimp only
      rw [unpackInt_toInt, unpackInt_toInt, context.mpr agrees]
  · rw [unpackStr_none fits]
    constructor
    · rintro ⟨result, none, _⟩
      cases none
    · rintro ⟨inside, short, _⟩
      exact absurd ⟨inside, short⟩ fits

/-- A library that knows the formats of the message in these examples. -/
def smallMsgpack : Msgpack where
  write calls := calls.flatMap fun
    | .array size => [0x90 + size.toUInt8]
    | .int value => [value.toUInt32.toUInt8]
    | .raw size => [0xda, (size / 256).toUInt8, (size % 256).toUInt8]
    | .rawBody bytes => bytes
  unpack
    | 0x93 :: command :: status :: 0xda :: high :: low :: body =>
        if body.length = 256 * high.toNat + low.toNat then
          some (.array [.integer command.toNat, .integer status.toNat, .raw body])
        else none
    | _ => none

/-- The pointer that an integer leaves leads to no memory. -/
def strayReads : UnionReads where
  i64
    | .integer value => value
    | _ => 0
  rawSize
    | .raw bytes => bytes.length
    | .integer value => (value % 4294967296).toNat
    | _ => 0
  rawMemory
    | .raw bytes => bytes
    | _ => []
  i64_integer _ := rfl
  rawSize_raw _ := rfl
  rawMemory_raw _ := rfl
  rawSize_integer _ := rfl

/-- A context of one character. -/
def filled (c : UInt8) : Context :=
  ⟨List.replicate DATALEN c, List.length_replicate⟩

theorem smallMsgpack_decodes (context : Context) : smallMsgpack.Decodes ⟨1, 0, context⟩ := by
  have bytes : smallMsgpack.write (packCalls ⟨1, 0, context⟩) =
      0x93 :: 1 :: 0 :: 0xda :: 16 :: 0 :: context.val := by
    have size : packCalls ⟨1, 0, context⟩ =
        [.array NEWTCTL_MEMBERS, .int 1, .int 0, .raw DATALEN, .rawBody context.val] := by
      rw [packCalls, context.property]
    rw [size]
    exact congrArg (0x93 :: 1 :: 0 :: 0xda :: 16 :: 0 :: ·) (List.append_nil context.val)
  rw [Msgpack.Decodes, bytes]
  exact if_pos context.property

/-- A message with the status 0 comes back where the same context was before. -/
theorem round_trip_same_context :
    RoundTrips smallMsgpack strayReads .nil ⟨1, 0, filled 97⟩ ⟨0, 0, filled 97⟩ := by
  have agrees : ContextAgrees strayReads ⟨1, 0, filled 97⟩ ⟨0, 0, filled 97⟩ :=
    ⟨Nat.zero_le _, Nat.zero_le _, rfl, rfl⟩
  exact (round_trip_iff _ _ (smallMsgpack_decodes (filled 97))).mpr agrees

/-- With the status 0, the context that was there before stays. -/
theorem context_not_restored :
    ¬ ∀ lib reads stale data old, Msgpack.Decodes lib data → RoundTrips lib reads stale data old := by
  intro always
  have decodes := smallMsgpack_decodes (filled 97)
  obtain ⟨result, returns, -, same⟩ := always smallMsgpack strayReads .nil _ ⟨0, 0, filled 0⟩ decodes
  have fits : strayReads.rawSize (.integer (Int32.toInt 0)) ≤
      (strayReads.rawMemory (.integer (Int32.toInt 0))).length ∧
        strayReads.rawSize (.integer (Int32.toInt 0)) ≤ DATALEN := by
    decide
  obtain ⟨copied, done, bytes⟩ : ∃ copied,
      unpackStr strayReads (.integer (Int32.toInt 0)) (filled 0) = some copied ∧ copied.val = _ :=
    unpackStr_some fits
  rw [unpack_array (root_pack decodes), done] at returns
  cases returns
  have context : copied = filled 97 := congrArg NewtctlT.context same
  rw [context] at bytes
  cases congrArg List.head? bytes

/-- An array of three elements has one of them read as an integer and as a string. -/
theorem not_ownType_both {object : MsgpackObject} : ¬ (OwnType ⟨.i64, object⟩ ∧ OwnType ⟨.raw, object⟩) := by
  rintro ⟨integer, raw⟩
  cases object with
  | integer => exact raw
  | nil | boolean | double | raw | array | map => exact integer

/-- `unpack` treats a message as it should exactly when `root` does not hold an array of three elements,
be it what was decoded or what was there before. -/
theorem accepts_well_typed_iff (lib : Msgpack) (reads : UnionReads) (stale : MsgpackObject)
    (input : List UInt8) (data : NewtctlT) :
    AcceptsWellTyped lib reads stale input data ↔
      ¬ ThreeElements ((lib.unpack input).getD stale) := by
  constructor
  · rintro ⟨result, returns, own, _⟩ ⟨items, root, three⟩
    obtain ⟨first, second, third, rfl⟩ := List.length_eq_three.mp three
    rw [unpack_array root] at returns
    obtain ⟨context, _, rfl⟩ := Option.map_eq_some_iff.mp returns
    exact not_ownType_both ⟨own ⟨.i64, second⟩ (by simp), own ⟨.raw, second⟩ (by simp)⟩
  · intro other
    cases root : (lib.unpack input).getD stale with
    | array items =>
        have apart : items.length ≠ NEWTCTL_MEMBERS := fun three => other ⟨items, root, three⟩
        refine ⟨⟨.error, data, [⟨.array, .array items⟩]⟩, ?_, ?_, Or.inr ⟨rfl, rfl⟩⟩
        · rw [unpack, root]
          exact if_neg apart
        · intro read mem
          rw [List.mem_singleton.mp mem]
          trivial
    | nil | boolean | integer | double | raw | map =>
        refine ⟨⟨.error, data, []⟩, by rw [unpack, root], ?_, Or.inr ⟨rfl, rfl⟩⟩
        intro read mem
        cases mem

/-- A well-typed message is read at wrong types, and a string of 5000 bytes in the place of the status is
copied past the end of the context. -/
theorem unpack_confuses_types :
    (¬ ∀ lib reads stale input data, AcceptsWellTyped lib reads stale input data) ∧
      ∀ lib reads stale input data,
        lib.unpack input = some (.array [.integer 1, .raw (List.replicate 5000 97), .nil]) →
          unpack lib reads stale input data = none := by
  constructor
  · intro always
    have decodes := smallMsgpack_decodes (filled 97)
    obtain ⟨result, returns, own, -⟩ :=
      always smallMsgpack strayReads .nil (pack smallMsgpack ⟨1, 0, filled 97⟩) ⟨0, 0, filled 0⟩
    rw [unpack_array (root_pack decodes)] at returns
    obtain ⟨context, _, rfl⟩ := Option.map_eq_some_iff.mp returns
    exact not_ownType_both ⟨own ⟨.i64, .integer 0⟩ (by simp), own ⟨.raw, .integer 0⟩ (by simp)⟩
  · intro lib reads stale input data decoded
    have root : (lib.unpack input).getD stale =
        .array [.integer 1, .raw (List.replicate 5000 97), .nil] := by
      rw [decoded]
      rfl
    rw [unpack_array root, unpackStr_none]
    · rfl
    · rw [reads.rawSize_raw, List.length_replicate]
      rintro ⟨_, short⟩
      exact absurd short (by decide)

end Newtmq
