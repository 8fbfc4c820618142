/-
Module: Newtmq.Proofs.ReplyTo
Purpose: `handler_reply_to` adds the size of the id's buffer to the length of the entry, one more than the
  characters it has appended, so that every `reply-to` header that it accepts is left invalid.
Trusted boundary: none
Main exports: length_cstr_genRandom, iterateHeader_replyTo, rewrites_reply_to_iff
-/
import Newtmq.Spec.ReplyTo
import Newtmq.Proofs.MessageDecoding
import Newtmq.Proofs.Subscriptions

namespace Newtmq

theorem zero_not_mem_alphanum : (0 : UInt8) ∉ alphanum := by decide +kernel

/-- All but the last byte of a random id belong to it. -/
theorem length_cstr_genRandom (rand : Nat → Nat) (pos len : Nat) :
    (cstr (genRandom rand pos len)).length = len - 1 := by
  obtain ⟨chars, same, length, table⟩ := genRandom_eq rand pos len
  have clean : (0 : UInt8) ∉ chars := fun mem => zero_not_mem_alphanum (table 0 mem)
  have string : cstr (chars ++ [0]) = chars := cstr_append_zeros clean 1
  rw [same, string, length]

/-- A `reply-to` line comes to its own handler only. -/
theorem iterateHeader_replyTo {value : List UInt8} (clean : (0 : UInt8) ∉ value) (info : SendAttrinfo) :
    iterateHeader sendHandlers [replyToLine value] info =
      match handlerReplyTo value info (replyToLine value) with
      | (ret, after, entry) => (ret, [entry], after) := by
  have memory : (replyToLine value).memory = replyToName ++ (value ++
      List.replicate (LD_MAX - (replyToName ++ value).length) 0) := List.append_assoc _ _ _
  have apart : lineValue (cstring "destination:") (replyToLine value) = none ∧
      lineValue (cstring "transaction:") (replyToLine value) = none ∧
      lineValue (cstring "receipt:") (replyToLine value) = none := by
    rw [lineValue, lineValue, lineValue, memory]
    exact ⟨rfl, rfl, rfl⟩
  have context : cstr ((replyToLine value).memory.drop replyToName.length) = value := by
    rw [memory, List.drop_left, cstr_append_zeros clean]
  have named : replyToName.isPrefixOf (replyToLine value).memory = true := by
    rw [memory]
    exact List.isPrefixOf_iff_prefix.mpr (List.prefix_append _ _)
  rw [iterateHeader, sendHandlers, applyHandlers_store, applyHandlers_store, applyHandlers_store,
    apart.1, apart.2.1, apart.2.2, applyHandlers, if_pos named, context]
  simp only [Option.map_none, Option.getD_none]
  rcases handlerReplyTo value info (replyToLine value) with ⟨_ | _, after, entry⟩ <;> rfl

/-- The handler leaves a `reply-to` header valid only by not accepting it, because its value is too
long. -/
theorem rewrites_reply_to_iff {value : List UInt8} (clean : (0 : UInt8) ∉ value) (info : SendAttrinfo)
    (rand : Nat → Nat) (pos : Nat) :
    RewritesReplyTo { info with cinfoId := genRandom rand pos CONN_ID_LEN } value ↔
      LD_MAX ≤ value.length + UNIQUE_STR_LEN := by
  rw [RewritesReplyTo, iterateHeader_replyTo clean, handlerReplyTo]
  constructor
  · intro rewrites
    by_contra short
    rw [if_pos (Nat.lt_of_not_le short)] at rewrites
    obtain ⟨entry, same, valid⟩ := rewrites _ _ rfl
    cases same
    have len := valid.len
    have id := length_cstr_genRandom rand pos CONN_ID_LEN
    simp only [replyToLine, List.length_append, id] at len
    simp only [CONN_ID_LEN] at len
    omega
  · intro long lines after accepted
    rw [if_neg (Nat.not_lt.mpr long)] at accepted
    cases accepted

/-- A value of 1014 bytes is not accepted. -/
theorem rewrites_reply_to_long :
    RewritesReplyTo ⟨genRandom (fun _ => 0) 0 CONN_ID_LEN, none, none, none, none⟩
      (List.replicate 1014 97) := by
  have clean : (0 : UInt8) ∉ List.replicate 1014 97 := by
    intro mem
    cases List.eq_of_mem_replicate mem
  have long : LD_MAX ≤ (List.replicate 1014 (97 : UInt8)).length + UNIQUE_STR_LEN := by
    rw [List.length_replicate]
    decide
  exact (rewrites_reply_to_iff clean ⟨[], none, none, none, none⟩ (fun _ => 0) 0).mpr long

/-- A value of one character is accepted, and the length of its entry takes in the NUL. -/
theorem reply_to_spoiled :
    (¬ ∀ (info : SendAttrinfo) value rand pos, (0 : UInt8) ∉ value → (replyToLine value).len ≤ LD_MAX →
      RewritesReplyTo { info with cinfoId := genRandom rand pos CONN_ID_LEN } value) ∧
      (iterateHeader sendHandlers [replyToLine (cstring "a")]
        ⟨genRandom (fun _ => 0) 0 CONN_ID_LEN, none, none, none, none⟩).2.1.map Linedata.bytes =
          [cstring "reply-to:a000000000" ++ [0]] := by
  constructor
  · intro always
    have rewrites := always ⟨[], none, none, none, none⟩ (cstring "a") (fun _ => 0) 0 (by decide)
      (by decide)
    obtain ⟨entry, same, valid⟩ := rewrites _ _ rfl
    cases same
    exact absurd valid.len (by decide +kernel)
  · decide +kernel

end Newtmq
