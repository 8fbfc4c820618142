/-
Module: Newtmq.Spec.PublishedObjects
Purpose: What a published frame object is: complete, named after the command it was sent with, linked
  once and out of the reach of `frame_update`, and handled by the handler of its command alone.
Trusted boundary: human-reviewed spec
Main exports: Named, HandledAlone, Published, Extends
-/
import Newtmq.Core.FrameObjects
import Newtmq.Core.Handlers

namespace Newtmq

/-- Among these calls, one set the name of the object, to the command that its line starts with. -/
def Named (calls : List UpdateCall) (address : Nat) (name : List UInt8) : Prop :=
  name ∈ finfoArr ∧ ∃ call,
    calls.filter (fun call => call.address = address && call.setsName) = [call] ∧
      name <+: call.line.take call.len

/-- `handle_frame` runs one handler for a frame with this name, and no other row of the table matches
the name. -/
def HandledAlone (object : FrameObject) : Prop :=
  ∃ handler, stompHandlers.filter (fun row => row.1.isPrefixOf object.frame.name) =
      [(object.frame.name, handler)] ∧
    ∀ env server, handleFrame env object server =
      (handler env object server).map fun (ret, server) =>
        match ret with
        | some _ => server
        | none => freeFrame object server

/-- The object at `address` was published as it should be. -/
structure Published (s : ObjectState) (address : Nat) : Prop where
  status : (s.object address).status = .inBucket
  named : Named s.calls address (s.object address).name
  linkedOnce : s.bucket.count address = 1
  handled : HandledAlone ⟨address, s.object address⟩

/-- `later` comes after `s`, and `frame_update` was not called between them for an object that the
bucket held. -/
structure Extends (s later : ObjectState) : Prop where
  bucket : s.bucket <+: later.bucket
  calls : ∃ added, later.calls = s.calls ++ added ∧ ∀ call ∈ added, call.address ∉ s.bucket
  objects : ∀ address ∈ s.bucket, later.object address = s.object address

end Newtmq
