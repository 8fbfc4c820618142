/-
Module: Newtmq.Core.SendMessage
Purpose: `stomp_send_message` of `stomp.c`: the calls of `send_msg` that send one frame to a subscriber.
Trusted boundary: human-reviewed spec
Main exports: sendLines, stompSendMessage, wireBytes, stompSendMessage_sock
-/
import Newtmq.Core.Stomp

namespace Newtmq

/-- The calls of a loop over header entries: the bytes of each and a new line. -/
def sendLines (sock : Int) (lines : List Linedata) : List SendMsg :=
  lines.flatMap fun line => [⟨sock, line.bytes⟩, ⟨sock, [LF]⟩]

/-- The calls that send the body. The new line between the headers and the body is sent only with a
body. -/
def sendBody (sock : Int) (lines : List Linedata) : List SendMsg :=
  if lines = [] then [] else ⟨sock, [LF]⟩ :: lines.map fun line => ⟨sock, line.bytes⟩

/-- `stomp_send_message`. The whole array `id` is sent. `headers` may be `NULL`. -/
def stompSendMessage (sock : Int) (frame : Frame) (headers : Option (List Linedata)) :
    List SendMsg :=
  ⟨sock, cstring "MESSAGE\n"⟩ :: sendLines sock frame.hAttrs ++ sendLines sock (headers.getD []) ++
    [⟨sock, cstring "message-id: "⟩, ⟨sock, frame.id⟩, ⟨sock, [LF]⟩] ++ sendBody sock frame.hData ++
    [⟨sock, [0]⟩]

/-- The bytes of some calls, in order. -/
def wireBytes (calls : List SendMsg) : List UInt8 :=
  calls.flatMap SendMsg.msg

/-- All calls are for the socket. -/
theorem stompSendMessage_sock (sock : Int) (frame : Frame) (headers : Option (List Linedata)) :
    ∀ call ∈ stompSendMessage sock frame headers, call.sock = sock := by
  have lines : ∀ entries, ∀ call ∈ sendLines sock entries, call.sock = sock := by
    intro entries call mem
    obtain ⟨line, _, here⟩ := List.mem_flatMap.mp mem
    rcases List.mem_pair.mp here with rfl | rfl <;> rfl
  have body : ∀ call ∈ sendBody sock frame.hData, call.sock = sock := by
    intro call mem
    unfold sendBody at mem
    split at mem
    · cases mem
    · rcases List.mem_cons.mp mem with rfl | here
      · rfl
      · obtain ⟨line, _, rfl⟩ := List.mem_map.mp here
        rfl
  intro call mem
  simp only [stompSendMessage, List.cons_append, List.mem_cons, List.mem_append, List.not_mem_nil,
    or_false] at mem
  rcases mem with rfl | (((attrs | extra) | rfl | rfl | rfl) | data) | rfl
  · rfl
  · exact lines _ call attrs
  · exact lines _ call extra
  · rfl
  · rfl
  · rfl
  · exact body call data
  · rfl

end Newtmq
