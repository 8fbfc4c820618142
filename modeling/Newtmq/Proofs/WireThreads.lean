/-
Module: Newtmq.Proofs.WireThreads
Purpose: Frames on the wire of a socket: whole as long as the threads write them one at a time, and mixed
  otherwise, since no thread keeps the others from a socket while it writes.
Trusted boundary: none
Main exports: calls_sock, contiguous_of_oneFrameAtATime, receipt_inside_message
-/
import Newtmq.Core.WireThreads
import Newtmq.Proofs.DeliverySteps

namespace Newtmq

/-- All calls of a frame go to its socket. -/
theorem calls_sock (emission : Emission) : ∀ call ∈ emission.calls, call.sock = emission.sock := by
  cases emission with
  | message sock frame headers => exact stompSendMessage_sock sock frame headers
  | receipt sock id => simp [Emission.calls, Emission.sock]
  | connected sock => simp [Emission.calls, Emission.sock]
  | error sock body => simp [Emission.calls, Emission.sock]

theorem wireBytes_flatMap (emissions : List Emission) :
    wireBytes (emissions.flatMap Emission.calls) =
      emissions.flatMap fun emission => wireBytes emission.calls :=
  List.flatMap_assoc

/-- In every run in which each call is made while no other thread is in the middle of a frame on the
socket, the bytes on every socket are whole frames. -/
theorem contiguous_of_oneFrameAtATime {s : WireState}
    (reaches : Transition.Reaches wireStep OneFrameAtATime BlockLog.State.start s) :
    Contiguous s := by
  intro sock
  obtain ⟨whole, sent, perm, log, amid⟩ :=
    BlockLog.wholeBlocks_of_oneAtATime calls_sock reaches sock
  refine ⟨whole, wireBytes sent, perm, ?_, ?_⟩
  · rw [bytesOn, log, ← wireBytes_flatMap]
    exact List.flatMap_append
  · rcases amid with rfl | ⟨thread, emission, rest, running, same, split⟩
    · exact Or.inl rfl
    · refine Or.inr ⟨thread, emission, rest, running, same, ?_⟩
      rw [split]
      exact List.flatMap_append

/-- The management worker writes a receipt on socket 3 while nobody else writes. -/
theorem receipt_contiguous :
    ∃ s, Contiguous s ∧ bytesOn 3 s.log = cstring "RECEIPT\nreceipt-id:1\n" ++ [0] := by
  have alone : ∀ {s : WireState}, (∀ other, other ≠ .management → s.running other = none) →
      OneFrameAtATime s (.put .management) := by
    rintro s idle _ _ _ other apart ⟨_, _, _, running, _⟩
    rw [idle other apart] at running
    cases running
  have begun : Transition.Reaches wireStep OneFrameAtATime BlockLog.State.start _ :=
    Relation.ReflTransGen.single ⟨.take .management (.receipt 3 (cstring "1")), trivial, rfl⟩
  have first := begun.tail ⟨.put .management, alone ?idle1, rfl⟩
  have second := first.tail ⟨.put .management, alone ?idle2, rfl⟩
  have third := second.tail ⟨.put .management, alone ?idle3, rfl⟩
  · exact ⟨_, contiguous_of_oneFrameAtATime third, by decide⟩
  all_goals
    intro other apart
    simp [Function.update, apart, BlockLog.State.start]

/-- A worker has made the first call of a message when the management worker writes a receipt. -/
theorem receipt_inside_message :
    ∃ s, Transition.run wireStep BlockLog.State.start
        [.take (.worker 0) (.message 3 letterA.frame none),
          .take .management (.receipt 3 (cstring "1")), .put (.worker 0), .put .management,
          .put .management, .put .management] = some s ∧
      bytesOn 3 s.log = cstring "MESSAGE\nRECEIPT\nreceipt-id:1\n" ++ [0] ∧ ¬ Contiguous s := by
  refine ⟨_, rfl, by decide, fun contiguous => ?_⟩
  obtain ⟨whole, sent, perm, bytes, amid⟩ := contiguous 3
  have finished : whole = [.receipt 3 (cstring "1")] := List.perm_singleton.mp perm
  rw [finished] at bytes
  -- the bytes begin with those of the message, not with those of the receipt
  have first : (77 : UInt8) = 82 := (List.cons.inj bytes).1
  revert first
  decide

end Newtmq
