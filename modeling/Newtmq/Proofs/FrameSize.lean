/-
Module: Newtmq.Proofs.FrameSize
Purpose: What `frame_update` makes of the lines of one frame: the fields of the finished frame, its size
  as it was counted, and the number of bytes that are written for it before and after
  `handler_stomp_send` has rewritten its header.
Trusted boundary: none
Main exports: entryBytes, HeaderGrows, BodyStored, Describe, Make.describe, Describe.bytes,
  handlerStompSend_bytes
-/
import Mathlib.Algebra.Ring.Int.Defs
import Mathlib.Algebra.Ring.Nat
import Newtmq.Proofs.Entries
import Newtmq.Proofs.LineSplit
import Newtmq.Spec.FrameSize
import Newtmq.Core.Persistent

namespace Newtmq

/-! ### Numbers of bytes -/

@[simp] theorem length_linedata_bytes (line : Linedata) : line.bytes.length = line.len := by
  simp [Linedata.bytes]

/-- The sum of the lengths of entries. -/
def entryBytes (entries : List Linedata) : Nat :=
  (entries.map Linedata.len).sum

@[simp] theorem entryBytes_nil : entryBytes [] = 0 := rfl

@[simp] theorem entryBytes_append (first second : List Linedata) :
    entryBytes (first ++ second) = entryBytes first + entryBytes second := by
  simp [entryBytes]

theorem entryBytes_eq (entries : List Linedata) :
    entryBytes entries = (entryLines entries).flatten.length := by
  simp [entryBytes, entryLines, List.length_flatten, Function.comp_def]

@[simp] theorem length_text (line : HandedLine) : line.text.length = line.len := by
  simp [HandedLine.text, line.inside]

/-- A newline is written for each entry and counted for each line that is not empty. -/
theorem HandedLine.entries_length (line : HandedLine) :
    line.entries.length + line.len = line.counted + line.further := by
  rw [HandedLine.counted, HandedLine.further, HandedLine.entries]
  split
  · rw [stompSetdata, setdataEntries]
    simp only [List.nil_append, List.length_cons]
    omega
  · simp only [List.length_nil]
    omega

theorem entryBytes_entries (line : HandedLine) : entryBytes line.entries = line.len := by
  rw [HandedLine.entries]
  split
  · rw [entryBytes_eq, stompSetdata_flatten, List.length_append, length_text]
    simp [entryLines]
  · have : line.len = 0 := by omega
    simp [this]

theorem entryBytes_flatMap (lines : List HandedLine) :
    entryBytes (lines.flatMap HandedLine.entries) = (lines.map HandedLine.len).sum := by
  induction lines with
  | nil => rfl
  | cons line lines ih =>
      rw [List.flatMap_cons, entryBytes_append, entryBytes_entries, ih, List.map_cons, List.sum_cons]

/-- The number of bytes that are written for a frame. -/
theorem length_frameBytes (frame : Frame) :
    (frameBytes frame).length =
      (cstr frame.name).length + (entryBytes frame.hAttrs + frame.hAttrs.length) +
        entryBytes frame.hData + 3 := by
  have header : ∀ entries : List Linedata,
      (entries.flatMap fun entry => entry.bytes ++ [LF]).length =
        entryBytes entries + entries.length := by
    intro entries
    induction entries with
    | nil => rfl
    | cons entry entries ih =>
        simp only [List.flatMap_cons, List.length_append, ih, length_linedata_bytes, entryBytes,
          List.map_cons, List.sum_cons, List.length_cons, List.length_nil]
        omega
  have body : ∀ entries : List Linedata,
      (entries.flatMap Linedata.bytes).length = entryBytes entries := by
    intro entries
    rw [entryBytes_eq, entryLines, List.flatMap_def]
  simp only [frameBytes, List.length_append, header, body, List.length_cons, List.length_nil]
  omega

/-! ### The header -/

/-- `frame_update` stores header lines one after the other. -/
def storeHeaders (frame : Frame) (lines : List HandedLine) : Frame :=
  lines.foldl (fun frame line => frameHeaderLine line.memory line.len frame) frame

/-- `frame` is `start` with header lines stored, which counts `n` in `size`. -/
structure HeaderGrows (start frame : Frame) (lines : List HandedLine) : Prop where
  name : frame.name = start.name
  status : frame.status = start.status
  data : frame.hData = start.hData
  attrs : frame.hAttrs = start.hAttrs ++ lines.flatMap HandedLine.entries
  contentlen : frame.contentlen = lines.foldl announce start.contentlen
  size : ∀ n, start.size = wrap32 n →
    frame.size = wrap32 (n + (lines.map HandedLine.counted).sum)

theorem frameHeaderLine_grows (frame : Frame) (line : HandedLine) :
    HeaderGrows frame (frameHeaderLine line.memory line.len frame) [line] := by
  by_cases empty : 0 < line.len
  · constructor <;> simp [frameHeaderLine, HandedLine.entries, empty, announce, HandedLine.text,
      stompSetdata, HandedLine.counted]
    intro n start
    rw [start, wrap32_wrap32_add]
  · have short : isContentlen line.memory line.len = false := by
      simp only [isContentlen, Bool.and_eq_false_iff, decide_eq_false_iff_not]
      exact Or.inl (by omega)
    constructor <;> simp [frameHeaderLine, HandedLine.entries, empty, announce, short,
      HandedLine.counted]

theorem storeHeaders_grows (frame : Frame) (lines : List HandedLine) :
    HeaderGrows frame (storeHeaders frame lines) lines := by
  induction lines generalizing frame with
  | nil => constructor <;> simp [storeHeaders]
  | cons line lines ih =>
      have first := frameHeaderLine_grows frame line
      have rest := ih (frameHeaderLine line.memory line.len frame)
      change HeaderGrows frame (storeHeaders (frameHeaderLine line.memory line.len frame) lines) _
      constructor
      case name => rw [rest.name, first.name]
      case status => rw [rest.status, first.status]
      case data => rw [rest.data, first.data]
      case attrs =>
        rw [rest.attrs, first.attrs, List.flatMap_cons, List.flatMap_cons, List.flatMap_nil,
          List.append_nil, List.append_assoc]
      case contentlen => rw [rest.contentlen, first.contentlen]; rfl
      case size =>
        intro n start
        rw [rest.size _ (first.size n start)]
        simp [Int.add_assoc]

variable {finish : Frame → Frame}

/-- A header line that does not end the header is stored. -/
theorem frameUpdate_headerLine {frame : Frame} (header : frame.status = .inputHeader)
    (line : HandedLine) (goesOn : isNl line.memory = true → frame.contentlen < 0) :
    frameUpdate finish line.memory line.len frame =
      (0, frameHeaderLine line.memory line.len frame) := by
  by_cases newline : isNl line.memory = true
  · have negative := goesOn newline
    have notBody : ¬ 0 < frame.contentlen := by omega
    have notEmpty : ¬ frame.contentlen = 0 := by omega
    simp [frameUpdate, header, notBody, notEmpty]
  · simp [frameUpdate, header, newline]

theorem completes_headers (rest : List HandedLine) {lines : List HandedLine} {frame : Frame}
    (header : frame.status = .inputHeader) (goesOn : HeaderGoesOn frame.contentlen lines) :
    completes finish frame (lines ++ rest) = completes finish (storeHeaders frame lines) rest := by
  induction lines generalizing frame with
  | nil => rfl
  | cons line lines ih =>
      obtain ⟨now, later⟩ := goesOn
      have grows := frameHeaderLine_grows frame line
      have announced : (frameHeaderLine line.memory line.len frame).contentlen =
          announce frame.contentlen line := grows.contentlen
      rw [List.cons_append, completes, frameUpdate_headerLine header line now]
      simp only [Int.lt_irrefl, if_false]
      rw [ih (grows.status.trans header) (announced ▸ later)]
      rfl

/-! ### The body -/

/-- `frame` is `start` with pieces of a body stored. -/
structure BodyStored (start frame : Frame) (pieces : List HandedLine) : Prop where
  name : frame.name = start.name
  attrs : frame.hAttrs = start.hAttrs
  status : frame.status = start.status
  data : frame.hData = start.hData ++ pieces.flatMap HandedLine.entries
  size : ∀ n, start.size = wrap32 n →
    frame.size = wrap32 (n + (pieces.map HandedLine.len).sum)

theorem frameBodyPiece_stored (frame : Frame) (piece : HandedLine) :
    BodyStored frame (frameBodyPiece piece.memory piece.len frame) [piece] := by
  by_cases empty : 0 < piece.len
  · constructor <;> simp [frameBodyPiece, empty, HandedLine.entries, HandedLine.text, stompSetdata]
    intro n start
    rw [start, wrap32_wrap32_add]
  · have none : piece.len = 0 := by omega
    constructor <;> simp [frameBodyPiece, HandedLine.entries, none]

theorem BodyStored.trans {start middle last : Frame} {first second : List HandedLine}
    (one : BodyStored start middle first) (two : BodyStored middle last second) :
    BodyStored start last (first ++ second) where
  name := two.name.trans one.name
  attrs := two.attrs.trans one.attrs
  status := two.status.trans one.status
  data := by rw [two.data, one.data, List.flatMap_append, List.append_assoc]
  size n start := by
    rw [two.size _ (one.size n start), List.map_append, List.sum_append, Int.natCast_add,
      Int.add_assoc]

/-- The pieces of the body are stored until the frame is finished. -/
theorem completes_body {pieces : List HandedLine} {frame done : Frame}
    (body : frame.status = .inputBody) (complete : completes finish frame pieces = some done) :
    ∃ last, BodyStored frame last pieces ∧ done = finishFrame finish last := by
  induction pieces generalizing frame with
  | nil => cases complete
  | cons piece pieces ih =>
      have stored := frameBodyPiece_stored frame piece
      by_cases reached : (frameBodyPiece piece.memory piece.len frame).contentlen ≤
          (frameBodyPiece piece.memory piece.len frame).hasContentlen
      · have update : frameUpdate finish piece.memory piece.len frame =
            (1, finishFrame finish (frameBodyPiece piece.memory piece.len frame)) := by
          simp only [frameUpdate, body, if_pos reached]
        rw [completes, update] at complete
        obtain ⟨last, found⟩ := Option.ite_none_right_eq_some.mp complete
        obtain rfl := List.isEmpty_iff.mp last
        exact ⟨_, stored, (Option.some.inj found).symm⟩
      · have update : frameUpdate finish piece.memory piece.len frame =
            (0, frameBodyPiece piece.memory piece.len frame) := by
          simp only [frameUpdate, body, if_neg reached]
        rw [completes, update] at complete
        obtain ⟨last, rest, found⟩ := ih (stored.status.trans body) complete
        exact ⟨last, stored.trans rest, found⟩

/-! ### The frame -/

/-- A line that starts with no command leaves a new frame as it is. -/
theorem completes_rejected (rest : List HandedLine) {lines : List HandedLine} {frame : Frame}
    (born : frame.status = .born)
    (unknown : ∀ line ∈ lines, isFrameName line.memory line.len = .error) :
    completes finish frame (lines ++ rest) = completes finish frame rest := by
  induction lines with
  | nil => rfl
  | cons line lines ih =>
      have none := findFrameName_eq_none.mpr
        (isFrameName_eq_error.mp (unknown line List.mem_cons_self))
      have update : frameUpdate finish line.memory line.len frame = (-1, frame) := by
        simp [frameUpdate, born, frameSetname, none]
      rw [List.cons_append, completes, update]
      exact ih fun other mem => unknown other (List.mem_cons_of_mem line mem)

namespace FrameLines

/-- The command is in the table. -/
theorem findFrameName_name (lines : FrameLines) :
    findFrameName lines.command.memory lines.command.len finfoArr = some lines.name := by
  have known := lines.known
  rw [isFrameName] at known
  split at known
  next name found => rw [FrameLines.name, found, Option.getD_some]
  · cases known

theorem zero_not_mem_name (lines : FrameLines) : (0 : UInt8) ∉ lines.name := by
  have clean : ∀ w ∈ finfoArr, (0 : UInt8) ∉ w := by decide
  exact clean _ (findFrameName_eq_some lines.findFrameName_name).1

/-- The fields of a finished frame that the writer uses, and its size. -/
structure Describe (lines : FrameLines) (frame : Frame) : Prop where
  name : frame.name = lines.name
  attrs : frame.hAttrs = lines.headerEntries
  data : frame.hData = lines.body.flatMap HandedLine.entries
  size : frame.size = wrap32 lines.counted

/-- The bytes of the header that `size` counts, without the line that ends it. -/
def headerCounted (lines : FrameLines) : Nat :=
  (lines.command.len + 1) + (lines.headers.map HandedLine.counted).sum

/-- The frame before the line that ends its header. -/
structure HeaderRead (lines : FrameLines) (frame : Frame) : Prop where
  status : frame.status = .inputHeader
  name : frame.name = lines.name
  attrs : frame.hAttrs = lines.headerEntries
  data : frame.hData = []
  contentlen : frame.contentlen = lines.contentlen
  size : frame.size = wrap32 lines.headerCounted

theorem completes_header (lines : FrameLines) (finish : Frame → Frame) (sock : Int)
    (id : List UInt8) :
    ∃ before, lines.HeaderRead before ∧
      completes finish { allocFrame with sock := sock, cinfo := some id } lines.all =
        completes finish before (lines.blank :: lines.body) := by
  let named : Frame :=
    { allocFrame with
      sock := sock, cinfo := some id, name := lines.name, status := .inputHeader
      size := wrap32 (lines.command.len + 1) }
  have command : frameUpdate finish lines.command.memory lines.command.len
      { allocFrame with sock := sock, cinfo := some id } = (0, named) := by
    simp [frameUpdate, allocFrame, frameSetname, lines.findFrameName_name, named]
  have counted : named.size = wrap32 (lines.command.len + 1) := by simp only [named]
  have grows := storeHeaders_grows named lines.headers
  refine ⟨storeHeaders named lines.headers, ?_, ?_⟩
  · constructor
    case status => exact grows.status
    case name => exact grows.name
    case attrs => exact grows.attrs
    case data => exact grows.data
    case contentlen => exact grows.contentlen
    case size =>
      rw [grows.size _ counted, headerCounted]
      push_cast
      rfl
  · rw [all, completes_rejected _ rfl lines.unknown, completes, command]
    exact completes_headers _ rfl lines.goesOn

/-- What `frame_update` makes of the lines. -/
theorem Make.describe {lines : FrameLines} {env : RecvEnv} {sock : Int} {id : List UInt8}
    {frame : Frame} (made : lines.Make env sock id frame) : lines.Describe frame := by
  obtain ⟨rands, made⟩ := made
  obtain ⟨before, read, same⟩ := lines.completes_header (frameFinish env rands) sock id
  rw [same, completes] at made
  obtain ⟨newline, nonneg⟩ := lines.ends
  by_cases empty : lines.contentlen = 0
  · have update : frameUpdate (frameFinish env rands) lines.blank.memory lines.blank.len before =
        (1, finishFrame (frameFinish env rands) before) := by
      simp [frameUpdate, read.status, newline, read.contentlen, empty]
    rw [update] at made
    obtain ⟨last, found⟩ := Option.ite_none_right_eq_some.mp made
    have none := List.isEmpty_iff.mp last
    obtain rfl := Option.some.inj found
    constructor
    case name => exact read.name
    case attrs => exact read.attrs
    case data =>
      rw [none]
      exact read.data
    case size =>
      change wrap32 (before.size + 1) = _
      rw [read.size, wrap32_wrap32_add, counted, if_pos empty, none, headerCounted]
      simp
  · have positive : 0 < lines.contentlen := by
      have : 0 ≤ lines.contentlen := nonneg
      omega
    have update : frameUpdate (frameFinish env rands) lines.blank.memory lines.blank.len before =
        (0, { before with status := .inputBody, size := wrap32 (before.size + 1) }) := by
      simp [frameUpdate, read.status, newline, read.contentlen, positive]
    rw [update] at made
    obtain ⟨last, stored, rfl⟩ := completes_body rfl made
    have start : wrap32 (before.size + 1) = wrap32 (lines.headerCounted + 1) := by
      rw [read.size, wrap32_wrap32_add]
    constructor
    case name => exact stored.name.trans read.name
    case attrs => exact stored.attrs.trans read.attrs
    case data =>
      rw [← List.nil_append (lines.body.flatMap _), ← read.data]
      exact stored.data
    case size =>
      change wrap32 (last.size + 1) = _
      rw [stored.size _ start, wrap32_wrap32_add, counted, if_neg empty, headerCounted]
      push_cast
      rfl

/-- The number of bytes that are written for the frame as it is received. -/
theorem Describe.bytes {lines : FrameLines} {frame : Frame} (made : lines.Describe frame) :
    ((frameBytes frame).length : Int) + CONN_ID_LEN * lines.replies =
      lines.counted - lines.excess := by
  have name : (cstr frame.name).length = lines.name.length := by
    rw [made.name, cstr_of_not_mem lines.zero_not_mem_name]
  have headers : ∀ all : List HandedLine,
      (all.flatMap HandedLine.entries).length + (all.map HandedLine.len).sum =
        (all.map HandedLine.counted).sum + (all.map HandedLine.further).sum := by
    intro all
    induction all with
    | nil => rfl
    | cons line all ih =>
        have one := line.entries_length
        simp only [List.flatMap_cons, List.length_append, List.map_cons, List.sum_cons] at ih ⊢
        omega
  have total := headers lines.headers
  rw [length_frameBytes, name, made.attrs, made.data, headerEntries, entryBytes_flatMap,
    entryBytes_flatMap, counted, excess]
  split <;> omega

end FrameLines

/-! ### The handler -/

/-- A handler that records a value leaves the line as it is. -/
theorem applyHandlers_storeContext {δ : Type} (name : List UInt8) (set : δ → List UInt8 → δ)
    (handlers : List (List UInt8 × HeaderHandler δ)) (line : Linedata) (data : δ) :
    ∃ data', applyHandlers ((name, storeContext set) :: handlers) line data =
      applyHandlers handlers line data' := by
  rw [applyHandlers]
  split
  · exact ⟨_, rfl⟩
  · exact ⟨_, rfl⟩

/-- Of the handlers of `SEND`, only `handler_reply_to` changes a line: it adds the length of an id. -/
theorem applyHandlers_send {line line' : Linedata} {info info' : SendAttrinfo}
    (applied : applyHandlers sendHandlers line info = (.success, line', info')) :
    line'.len = line.len + if replyToName.isPrefixOf line.memory then CONN_ID_LEN else 0 := by
  rw [sendHandlers] at applied
  obtain ⟨first, step⟩ := applyHandlers_storeContext _ _ _ line info
  rw [step] at applied
  obtain ⟨second, step⟩ := applyHandlers_storeContext _ _ _ line first
  rw [step] at applied
  obtain ⟨third, step⟩ := applyHandlers_storeContext _ _ _ line second
  rw [step, applyHandlers] at applied
  split at applied
  next named =>
    rw [if_pos named]
    simp only [handlerReplyTo] at applied
    split at applied
    · cases applied
    next found =>
      split at found
      · cases found
        cases applied
        rfl
      · cases found
  next other =>
    rw [if_neg other]
    cases applied
    rfl

theorem iterateHeader_send {lines lines' : List Linedata} {info info' : SendAttrinfo}
    (applied : iterateHeader sendHandlers lines info = (.success, lines', info')) :
    lines'.length = lines.length ∧
      entryBytes lines' = entryBytes lines +
        CONN_ID_LEN * lines.countP fun entry => replyToName.isPrefixOf entry.memory := by
  induction lines generalizing lines' info with
  | nil =>
      cases applied
      exact ⟨rfl, rfl⟩
  | cons line lines ih =>
      rw [iterateHeader] at applied
      split at applied
      · cases applied
      next changed middle first =>
        cases later : iterateHeader sendHandlers lines middle with
        | mk ret tail =>
            rw [later] at applied
            cases applied
            obtain ⟨length, bytes⟩ := ih later
            have one := applyHandlers_send first
            simp only [entryBytes, List.map_cons, List.sum_cons, List.length_cons, List.countP_cons,
              Nat.mul_add] at bytes ⊢
            refine ⟨by omega, ?_⟩
            by_cases named : replyToName.isPrefixOf line.memory
            · rw [if_pos named] at one ⊢
              omega
            · rw [if_neg named] at one ⊢
              omega

/-- `handler_stomp_send` leaves the size of the frame that it accepts, whose bytes become more. -/
theorem handlerStompSend_bytes {env : ServerEnv} {object accepted : FrameObject}
    {server server' : Server}
    (handled : handlerStompSend env object server = some (some accepted, server')) :
    accepted.frame.size = object.frame.size ∧
      (frameBytes accepted.frame).length = (frameBytes object.frame).length +
        CONN_ID_LEN * object.frame.hAttrs.countP fun entry => replyToName.isPrefixOf entry.memory := by
  simp only [handlerStompSend] at handled
  split at handled
  · cases handled
  next id connection =>
    split at handled
    · cases handled
    next hAttrs info validated =>
      obtain ⟨length, bytes⟩ := iterateHeader_send validated
      split at handled
      · cases handled
      next qname destination =>
        obtain ⟨name, attrs, data, size⟩ : accepted.frame.name = object.frame.name ∧
            accepted.frame.hAttrs = hAttrs ∧ accepted.frame.hData = object.frame.hData ∧
            accepted.frame.size = object.frame.size := by
          cases transaction : info.tid with
          | none =>
              simp only [takeFrame, transaction] at handled
              cases handled
              exact ⟨rfl, rfl, rfl, rfl⟩
          | some tid =>
              simp only [takeFrame, transaction] at handled
              cases handled
              exact ⟨rfl, rfl, rfl, rfl⟩
        refine ⟨size, ?_⟩
        rw [length_frameBytes, length_frameBytes, name, attrs, data, length, bytes]
        omega

end Newtmq
