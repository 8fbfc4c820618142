/-
Module: Newtmq.Proofs.MessageDecoding
Purpose: `stomp_send_message` sends the whole array `id` of a frame, whose last byte is a NUL, so that
  the line of the message id ends in a NUL and no published frame can be read back.
Trusted boundary: none
Main exports: wireBytes_stompSendMessage, not_messageDecodes, message_never_decodes
-/
import Newtmq.Spec.MessageGrammar

namespace Newtmq

open WireFrame (encodeLines)

theorem wireBytes_append (first second : List SendMsg) :
    wireBytes (first ++ second) = wireBytes first ++ wireBytes second :=
  List.flatMap_append

theorem wireBytes_sendLines (sock : Int) (lines : List Linedata) :
    wireBytes (sendLines sock lines) = encodeLines (entryLines lines) := by
  induction lines with
  | nil => rfl
  | cons line lines ih =>
      have split : sendLines sock (line :: lines) =
          ⟨sock, line.bytes⟩ :: ⟨sock, [LF]⟩ :: sendLines sock lines := rfl
      rw [split]
      have rest : wireBytes (⟨sock, line.bytes⟩ :: ⟨sock, [LF]⟩ :: sendLines sock lines) =
          line.bytes ++ ([LF] ++ wireBytes (sendLines sock lines)) := rfl
      rw [rest, ih]
      exact (WireFrame.encodeLines_cons _ _).symm

theorem wireBytes_sendBody (sock : Int) (lines : List Linedata) :
    wireBytes (sendBody sock lines) =
      if lines = [] then [] else LF :: (entryLines lines).flatten := by
  unfold sendBody
  split
  · rfl
  · simp [wireBytes, entryLines, List.flatMap_def, Function.comp_def]

theorem encodeLines_append (first second : List (List UInt8)) :
    encodeLines (first ++ second) = encodeLines first ++ encodeLines second :=
  List.flatMap_append

/-- The bytes that are sent for a frame. -/
theorem wireBytes_stompSendMessage (sock : Int) (frame : Frame) (headers : Option (List Linedata)) :
    wireBytes (stompSendMessage sock frame headers) =
      cstring "MESSAGE" ++ LF ::
        (encodeLines (entryLines frame.hAttrs ++ entryLines (headers.getD [])) ++
          (cstring "message-id: " ++ frame.id ++ LF ::
            ((if frame.hData = [] then [] else LF :: (entryLines frame.hData).flatten) ++ [0]))) := by
  have first : ∀ calls, wireBytes (⟨sock, cstring "MESSAGE\n"⟩ :: calls) =
      cstring "MESSAGE" ++ LF :: wireBytes calls := fun _ => rfl
  have id : ∀ calls, wireBytes (⟨sock, cstring "message-id: "⟩ :: ⟨sock, frame.id⟩ ::
      ⟨sock, [LF]⟩ :: calls) = cstring "message-id: " ++ (frame.id ++ LF :: wireBytes calls) :=
    fun _ => rfl
  have last : wireBytes [⟨sock, [0]⟩] = [0] := rfl
  rw [stompSendMessage]
  simp only [List.cons_append, first, wireBytes_append, id, last, wireBytes_sendLines,
    wireBytes_sendBody, encodeLines_append, List.append_assoc, List.nil_append]

/-- The part of a line before its LF is determined by the bytes. -/
theorem line_unique {one two : List UInt8} (cleanOne : LF ∉ one) (cleanTwo : LF ∉ two)
    {restOne restTwo : List UInt8} (same : one ++ LF :: restOne = two ++ LF :: restTwo) :
    one = two := by
  have takes : ∀ line rest : List UInt8, LF ∉ line →
      (line ++ LF :: rest).takeWhile (· ≠ LF) = line := by
    intro line rest clean
    rw [List.takeWhile_append_of_pos]
    · simp
    · intro c mem
      simp only [decide_eq_true_eq]
      rintro rfl
      exact clean mem
  rw [← takes one restOne cleanOne, same, takes two restTwo cleanTwo]

/-- The characters of a random id are no LF. -/
theorem alphanum_ne_LF : ∀ c ∈ alphanum, c ≠ LF := by decide +kernel

/-- A random id is made of characters of the table and the last NUL. -/
theorem genRandom_eq (rand : Nat → Nat) (pos len : Nat) :
    ∃ chars, genRandom rand pos len = chars ++ [0] ∧ chars.length = len - 1 ∧
      ∀ c ∈ chars, c ∈ alphanum := by
  refine ⟨_, rfl, by rw [List.length_map, List.length_range], fun c mem => ?_⟩
  obtain ⟨i, _, rfl⟩ := List.mem_map.mp mem
  have inside : rand (pos + i) % alphanum.length < alphanum.length :=
    Nat.mod_lt _ (by decide)
  rw [List.getD_eq_getElem?_getD, List.getElem?_eq_getElem inside]
  exact List.getElem_mem inside

theorem LF_not_mem_genRandom (rand : Nat → Nat) (pos len : Nat) :
    LF ∉ genRandom rand pos len := by
  obtain ⟨chars, same, _, table⟩ := genRandom_eq rand pos len
  rw [same]
  intro mem
  rcases List.mem_append.mp mem with char | last
  · exact alphanum_ne_LF LF (table LF char) rfl
  · cases List.mem_singleton.mp last

theorem zero_mem_genRandom (rand : Nat → Nat) (pos len : Nat) : 0 ∈ genRandom rand pos len :=
  List.mem_append_right _ List.mem_cons_self

/-- A frame whose id holds a NUL cannot be read back. -/
theorem not_messageDecodes {frame : Frame} (noLF : LF ∉ frame.id) (zero : 0 ∈ frame.id)
    (headers : Option (List Linedata)) : ¬ MessageDecodes frame headers := by
  intro decodes
  obtain ⟨value, grammar⟩ := decodes 0
  have layout := grammar.layout
  rw [wireBytes_stompSendMessage, encodeLines_append _ [_], WireFrame.encodeLines_cons,
    WireFrame.encodeLines_nil, List.append_assoc (encodeLines _)] at layout
  have lines := List.append_cancel_left (List.cons.inj (List.append_cancel_left layout)).2
  rw [List.append_assoc _ (LF :: []), List.cons_append] at lines
  have last := grammar.header_line _ (List.mem_append_right _ List.mem_cons_self)
  have same := line_unique
    (by
      intro mem
      rcases List.mem_append.mp mem with name | id
      · revert name
        decide
      · exact noLF id)
    (fun mem => (last.2 LF mem).1 rfl) lines
  exact (last.2 0 (same ▸ List.mem_append_right _ zero)).2 rfl

/-- No frame that `frame_finish` publishes can be read back, with whatever extra headers. -/
theorem message_never_decodes (env : RecvEnv) (rands : Nat) (frame : Frame)
    (headers : Option (List Linedata)) :
    ¬ MessageDecodes (frameFinish env rands frame) headers :=
  not_messageDecodes (LF_not_mem_genRandom _ _ _) (zero_mem_genRandom _ _ _) headers

/-- A frame `SEND` with the body `a`. -/
def bodyFrame : Frame :=
  { allocFrame with
    name := cstring "SEND"
    contentlen := 1
    hasContentlen := 1
    hAttrs := [⟨cstring "destination:q", 13⟩, ⟨cstring "content-length:1", 16⟩]
    hData := [⟨[97], 1⟩] }

/-- What is sent for it, without extra headers and with the results 0 of `rand()`. -/
theorem bodyFrame_not_decoded :
    (¬ ∀ env rands frame headers, MessageDecodes (frameFinish env rands frame) headers) ∧
      wireBytes (stompSendMessage 3 (frameFinish ⟨fun _ => 0, fun _ _ => true⟩ 0 bodyFrame) none) =
        cstring "MESSAGE\ndestination:q\ncontent-length:1\nmessage-id: " ++
          List.replicate 31 48 ++ [0, LF, LF, 97, 0] := by
  refine ⟨fun always => ?_, by decide +kernel⟩
  exact not_messageDecodes (LF_not_mem_genRandom _ _ _) (zero_mem_genRandom _ _ _) none
    (always ⟨fun _ => 0, fun _ _ => true⟩ 0 bodyFrame none)

end Newtmq
