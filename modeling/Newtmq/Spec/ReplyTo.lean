/-
Module: Newtmq.Spec.ReplyTo
Purpose: What a stored `reply-to` header is to be after `handler_stomp_send` has rewritten it.
Trusted boundary: human-reviewed spec
Main exports: replyToLine, ValidReplyTo, RewritesReplyTo
-/
import Newtmq.Core.Handlers

namespace Newtmq

/-- The entry with the header line `reply-to:` and this value. -/
def replyToLine (value : List UInt8) : Linedata :=
  ⟨replyToName ++ value, (replyToName ++ value).length⟩

/-- The entry holds the line with the id of the connection behind its value, as many bytes as `len` says,
none of which is a NUL, and there is room for the terminating one. -/
structure ValidReplyTo (value id : List UInt8) (entry : Linedata) : Prop where
  bytes : entry.bytes = replyToName ++ value ++ id
  len : entry.len = (replyToName ++ value ++ id).length
  clean : (0 : UInt8) ∉ entry.bytes
  fits : (replyToName ++ value ++ id).length + 1 ≤ LD_MAX

/-- If the handlers of `SEND` accept the header line, they leave it valid. -/
def RewritesReplyTo (info : SendAttrinfo) (value : List UInt8) : Prop :=
  ∀ lines after, iterateHeader sendHandlers [replyToLine value] info = (.success, lines, after) →
    ∃ entry, lines = [entry] ∧ ValidReplyTo value (cstr info.cinfoId) entry

end Newtmq
