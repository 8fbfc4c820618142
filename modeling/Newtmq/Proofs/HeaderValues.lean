/-
Module: Newtmq.Proofs.HeaderValues
Purpose: The values that `iterate_header` hands to the handlers of a frame as pointers, the accesses that
  are made with them, and the lengths for which these accesses stay in their arrays.
Trusted boundary: none
Main exports: read_inside_iff, Points, trackedSend_outcome, measured_outcome, values_fit_iff
-/
import Newtmq.Spec.HeaderValues
import Newtmq.Proofs.SendAnswers
import Newtmq.Proofs.Recovery

namespace Newtmq

/-! ### Reading a value -/

/-- A C string ends within some bytes exactly when it is shorter. -/
theorem zero_mem_take_iff {memory : List UInt8} {count : Nat} (inside : count ≤ memory.length) :
    (0 : UInt8) ∈ memory.take count ↔ (cstr memory).length < count := by
  induction memory generalizing count with
  | nil =>
      obtain rfl := Nat.le_zero.mp inside
      simp
  | cons c memory ih =>
      cases count with
      | zero => simp
      | succ count =>
          rw [List.length_cons] at inside
          rw [List.take_succ_cons, List.mem_cons, ih (by omega)]
          by_cases zero : c = 0
          · simp [zero, cstr]
          · have longer : cstr (c :: memory) = c :: cstr memory := by simp [cstr, zero]
            simp [longer, Ne.symm zero]

theorem length_memory (line : Linedata) : LD_MAX ≤ line.memory.length := by
  rw [Linedata.memory, List.length_append, List.length_replicate]
  omega

/-- A value can be read when its NUL has a place in the array. -/
theorem read_inside_iff (value : HeaderValue) :
    (ValueAccess.read value).Inside ↔ value.start + value.bytes.length < LD_MAX := by
  have long := length_memory value.line
  rw [ValueAccess.Inside, List.drop_take, zero_mem_take_iff (by rw [List.length_drop]; omega),
    HeaderValue.bytes]
  omega

/-! ### Pointers -/

/-- The pointer leads to the value of a header with this name. -/
def Points (name : List UInt8) (pointer : Option HeaderValue) (value : Option (List UInt8)) : Prop :=
  pointer.map HeaderValue.bytes = value ∧ ∀ found ∈ pointer, found.start = name.length

theorem Points.none (name : List UInt8) : Points name none none :=
  ⟨rfl, fun _ mem => by cases mem⟩

theorem Points.some {name value : List UInt8} {pointer : Option HeaderValue}
    (points : Points name pointer (some value)) :
    ∃ found, pointer = .some found ∧ found.bytes = value ∧ found.start = name.length := by
  obtain ⟨found, here, same⟩ := Option.map_eq_some_iff.mp points.1
  exact ⟨found, here, same, points.2 found here⟩

theorem Points.eq_none {name : List UInt8} {pointer : Option HeaderValue}
    (points : Points name pointer .none) : pointer = .none :=
  Option.map_eq_none_iff.mp points.1

/-- A pointer of a header with this name can be read when its value ends in the entry. -/
theorem inside_of_points {name : List UInt8} {pointer : HeaderValue}
    (start : pointer.start = name.length) :
    (ValueAccess.read pointer).Inside ↔ EndsInEntry name pointer.bytes := by
  rw [read_inside_iff, start, EndsInEntry]

/-- The pointer to the value of a line. -/
def linePointer (name : List UInt8) (line : Linedata) : Option HeaderValue :=
  if name.isPrefixOf line.memory then some ⟨line, name.length⟩ else none

theorem linePointer_points (name : List UInt8) (line : Linedata) :
    Points name (linePointer name line) (lineValue name line) := by
  rw [linePointer, lineValue]
  split
  · refine ⟨rfl, fun found mem => ?_⟩
    cases mem
    rfl
  · exact .none name

theorem Points.or {name : List UInt8} {first second : Option HeaderValue}
    {value other : Option (List UInt8)} (one : Points name first value)
    (two : Points name second other) : Points name (first.or second) (value.or other) := by
  cases first with
  | none =>
      obtain rfl : value = .none := one.1.symm
      exact two
  | some found =>
      obtain ⟨rfl, start⟩ := one
      exact ⟨rfl, start⟩

/-- A handler that records the pointer records that of its name. -/
theorem applyHandlers_storeValue {δ : Type} (name : List UInt8) (set : δ → HeaderValue → δ)
    (rest : List (List UInt8 × HeaderHandler (δ × List ValueAccess))) (line : Linedata)
    (data : δ × List ValueAccess) :
    applyHandlers ((name, storeValue name set) :: rest) line data =
      applyHandlers rest line (((linePointer name line).map (set data.1)).getD data.1, data.2) := by
  rw [applyHandlers, linePointer]
  split <;> rfl

/-! ### Two headers that are recorded -/

theorem trackedTwo_outcome (first second : List UInt8) (lines : List Linedata)
    (values : Option HeaderValue × Option HeaderValue) (accesses : List ValueAccess)
    {one two : Option (List UInt8)} (pointsOne : Points first values.1 one)
    (pointsTwo : Points second values.2 two) :
    ∃ left, iterateHeader (trackedTwo first second) lines (values, accesses) =
        (.success, lines, left, accesses) ∧
      Points first left.1 ((headerValue first lines).or one) ∧
      Points second left.2 ((headerValue second lines).or two) := by
  induction lines generalizing values one two with
  | nil => exact ⟨values, rfl, pointsOne, pointsTwo⟩
  | cons line lines ih =>
      have applied : applyHandlers (trackedTwo first second) line (values, accesses) =
          (.success, line, ((linePointer first line).or values.1,
            (linePointer second line).or values.2), accesses) := by
        rw [trackedTwo, applyHandlers_storeValue, applyHandlers_storeValue, applyHandlers]
        cases linePointer first line <;> cases linePointer second line <;> rfl
      obtain ⟨left, ran, leftOne, leftTwo⟩ := ih
        ((linePointer first line).or values.1, (linePointer second line).or values.2)
        ((linePointer_points first line).or pointsOne) ((linePointer_points second line).or pointsTwo)
      refine ⟨left, ?_, ?_, ?_⟩
      · rw [iterateHeader, applied]
        simp only [ran]
      · rwa [headerValue_cons, Option.or_assoc]
      · rwa [headerValue_cons, Option.or_assoc]

/-! ### One header that is measured -/

/-- A line without the header, with an empty value, and with another one. -/
theorem applyHandlers_trackedOne (name : List UInt8) (line : Linedata) (value : Option HeaderValue)
    (accesses : List ValueAccess) :
    (lineValue name line = none ∧
        applyHandlers (trackedOne name) line (value, accesses) = (.success, line, value, accesses)) ∨
      (lineValue name line = some [] ∧
        applyHandlers (trackedOne name) line (value, accesses) =
          (.error, line, value, accesses ++ [.read ⟨line, name.length⟩])) ∨
      ∃ text, lineValue name line = some text ∧ text ≠ [] ∧
        Points name (some ⟨line, name.length⟩) (some text) ∧
        applyHandlers (trackedOne name) line (value, accesses) =
          (.success, line, some ⟨line, name.length⟩, accesses ++ [.read ⟨line, name.length⟩]) := by
  rw [trackedOne, applyHandlers, lineValue]
  by_cases named : name.isPrefixOf line.memory = true
  · rw [if_pos named, if_pos named]
    simp only [storeMeasured, applyHandlers]
    by_cases empty : cstr (line.memory.drop name.length) = []
    · exact Or.inr (Or.inl ⟨by rw [empty], by simp [empty]⟩)
    · have positive := List.length_pos_iff.mpr empty
      refine Or.inr (Or.inr ⟨_, rfl, empty, ⟨rfl, ?_⟩, by rw [if_pos positive]⟩)
      intro found mem
      cases mem
      rfl
  · rw [if_neg named, if_neg named]
    exact Or.inl ⟨rfl, rfl⟩

/-- The values are measured up to the first empty one, where the handler fails. -/
theorem measured_outcome {name : List UInt8} (short : name.length < LD_MAX) (lines : List Linedata)
    (value : Option HeaderValue) (accesses : List ValueAccess) {old : Option (List UInt8)}
    (points : Points name value old) :
    ∃ ret left more, iterateHeader (trackedOne name) lines (value, accesses) =
        (ret, lines, left, accesses ++ more) ∧
      (ret = .success ↔ [] ∉ lines.filterMap (lineValue name)) ∧
      ((∀ access ∈ more, access.Inside) ↔
        ∀ value ∈ (lines.filterMap (lineValue name)).takeWhile (· ≠ []), EndsInEntry name value) ∧
      (ret = .success → Points name left ((headerValue name lines).or old)) := by
  induction lines generalizing value accesses old with
  | nil => exact ⟨.success, value, [], by rw [List.append_nil]; rfl, by simp, by simp, fun _ => points⟩
  | cons line lines ih =>
      rw [iterateHeader, List.filterMap_cons, headerValue_cons]
      rcases applyHandlers_trackedOne name line value accesses with
        ⟨none, applied⟩ | ⟨empty, applied⟩ | ⟨text, here, nonempty, pointer, applied⟩
      · obtain ⟨ret, left, more, ran, success, inside, found⟩ := ih value accesses points
        rw [applied, none, Option.or_none]
        exact ⟨ret, left, more, by simp only [ran], success, inside, found⟩
      · rw [applied, empty]
        refine ⟨.error, value, [.read ⟨line, name.length⟩], rfl, by simp, ?_,
          fun success => absurd success (by decide)⟩
        have ends : (ValueAccess.read ⟨line, name.length⟩).Inside := by
          have bytes : HeaderValue.bytes ⟨line, name.length⟩ = [] := by
            rw [lineValue] at empty
            split at empty
            · exact Option.some.inj empty
            · cases empty
          rw [read_inside_iff, bytes]
          exact short
        simpa using ends
      · obtain ⟨ret, left, more, ran, success, inside, found⟩ := ih (some ⟨line, name.length⟩)
          (accesses ++ [.read ⟨line, name.length⟩]) pointer
        rw [applied, here]
        refine ⟨ret, left, .read ⟨line, name.length⟩ :: more, ?_, ?_, ?_, ?_⟩
        · simp only [ran, List.append_assoc, List.singleton_append]
        · rw [success]
          simp [Ne.symm nonempty]
        · obtain ⟨_, found, same, start⟩ := pointer.some
          cases found
          rw [List.forall_mem_cons, inside, inside_of_points start, same]
          simp [nonempty]
        · intro done
          have last := found done
          cases later : headerValue name lines <;> rw [later] at last <;> exact last

/-! ### `SEND` -/

/-- The pointers lead to these values. -/
structure Pointed (values : SendValues) (qname tid receiptId replyTo : Option (List UInt8)) :
    Prop where
  qname : Points destinationName values.qname qname
  tid : Points transactionName values.tid tid
  receiptId : Points receiptName values.receiptId receiptId
  replyTo : Points replyToName values.replyTo replyTo

/-- The entry that `handler_reply_to` leaves. -/
def rewrittenEntry (cinfoId text : List UInt8) (line : Linedata) : Linedata :=
  let written := line.data.take replyToName.length ++ (text ++ cstr cinfoId) ++ [0]
  { data := written ++ line.data.drop written.length, len := line.len + CONN_ID_LEN }

theorem rewrittenEntry_points {cinfoId text : List UInt8} (clean : (0 : UInt8) ∉ text)
    {line : Linedata} (named : replyToName.isPrefixOf line.memory = true) :
    Points replyToName (some ⟨rewrittenEntry cinfoId text line, replyToName.length⟩)
      (some (text ++ cstr cinfoId)) := by
  obtain ⟨rest, data⟩ := name_prefix_data (by decide) named
  refine ⟨congrArg some ?_, fun found mem => by cases mem; rfl⟩
  rw [HeaderValue.bytes, Linedata.memory, rewrittenEntry]
  simp only
  rw [← data, List.take_left]
  simp only [List.append_assoc]
  rw [List.drop_left, ← List.append_assoc text, cstr, List.takeWhile_append_of_pos]
  · simp
  · intro c mem
    simp only [decide_eq_true_eq]
    rintro rfl
    rcases List.mem_append.mp mem with mem | mem
    · exact clean mem
    · exact zero_not_mem_cstr _ mem

/-- A line without a reply-to header, with one that is accepted, and with one that is not. -/
theorem applyHandlers_trackedSend (cinfoId : List UInt8) (line : Linedata) (values : SendValues)
    (accesses : List ValueAccess) {qname tid receiptId replyTo : Option (List UInt8)}
    (pointed : Pointed values qname tid receiptId replyTo) :
    ∃ stored, Pointed stored ((lineValue destinationName line).or qname)
        ((lineValue transactionName line).or tid) ((lineValue receiptName line).or receiptId) replyTo ∧
      ((lineValue replyToName line = none ∧
        applyHandlers (trackedSendHandlers cinfoId) line (values, accesses) =
          (.success, line, stored, accesses)) ∨
      ∃ text, lineValue replyToName line = some text ∧
        (ValueAccess.Inside (.read ⟨line, replyToName.length⟩) ↔ EndsInEntry replyToName text) ∧
        if text.length + UNIQUE_STR_LEN < LD_MAX then
          Points replyToName (some ⟨rewrittenEntry cinfoId text line, replyToName.length⟩)
            (some (text ++ cstr cinfoId)) ∧
          applyHandlers (trackedSendHandlers cinfoId) line (values, accesses) =
            (.success, rewrittenEntry cinfoId text line,
              { stored with
                replyTo := some ⟨rewrittenEntry cinfoId text line, replyToName.length⟩ },
              accesses ++ [.read ⟨line, replyToName.length⟩])
        else
          applyHandlers (trackedSendHandlers cinfoId) line (values, accesses) =
            (.error, line, stored, accesses ++ [.read ⟨line, replyToName.length⟩])) := by
  let stored : SendValues :=
    { qname := (linePointer destinationName line).or values.qname
      tid := (linePointer transactionName line).or values.tid
      receiptId := (linePointer receiptName line).or values.receiptId
      replyTo := values.replyTo }
  have three : applyHandlers (trackedSendHandlers cinfoId) line (values, accesses) =
      applyHandlers [(replyToName, trackedReplyTo cinfoId)] line (stored, accesses) := by
    rw [trackedSendHandlers, applyHandlers_storeValue, applyHandlers_storeValue,
      applyHandlers_storeValue]
    simp only [stored, receiptName]
    cases linePointer destinationName line <;> cases linePointer transactionName line <;>
      cases linePointer (cstring "receipt:") line <;> rfl
  refine ⟨stored, ⟨(linePointer_points _ line).or pointed.qname,
    (linePointer_points _ line).or pointed.tid, (linePointer_points _ line).or pointed.receiptId,
    pointed.replyTo⟩, ?_⟩
  rw [three, applyHandlers, lineValue]
  by_cases named : replyToName.isPrefixOf line.memory = true
  · rw [if_pos named, if_pos named]
    refine Or.inr ⟨_, rfl, inside_of_points rfl, ?_⟩
    simp only [trackedReplyTo, handlerReplyTo, applyHandlers]
    split
    next fits =>
      exact ⟨rewrittenEntry_points (zero_not_mem_cstr _) named, rfl⟩
    next unfit => rfl
  · rw [if_neg named, if_neg named]
    exact Or.inl ⟨rfl, rfl⟩

/-- A reply-to value that is too long to be rewritten. -/
def unfit (value : List UInt8) : Bool := LD_MAX ≤ value.length + UNIQUE_STR_LEN

/-- What `iterate_header` finds in a `SEND`, and the reply-to values that it measures. Those before the
first one that is rejected end in their entries. -/
theorem trackedSend_outcome (cinfoId : List UInt8) (lines : List Linedata) (values : SendValues)
    (accesses : List ValueAccess) {qname tid receiptId replyTo : Option (List UInt8)}
    (pointed : Pointed values qname tid receiptId replyTo) :
    ∃ ret after left more, iterateHeader (trackedSendHandlers cinfoId) lines (values, accesses) =
        (ret, after, left, accesses ++ more) ∧
      (ret = .success ↔ ReplyTosFit lines) ∧
      ((∀ access ∈ more, access.Inside) ↔
        ∀ value ∈ (lines.filterMap (lineValue replyToName)).find? unfit,
          EndsInEntry replyToName value) ∧
      (ret = .success → Pointed left ((headerValue destinationName lines).or qname)
        ((headerValue transactionName lines).or tid) ((headerValue receiptName lines).or receiptId)
        (((headerValue replyToName lines).map fun value => value ++ cstr cinfoId).or replyTo)) := by
  induction lines generalizing values accesses qname tid receiptId replyTo with
  | nil =>
      exact ⟨.success, [], values, [], by rw [List.append_nil]; rfl, by simp [ReplyTosFit], by simp,
        fun _ => pointed⟩
  | cons line lines ih =>
      obtain ⟨stored, points, outcome⟩ :=
        applyHandlers_trackedSend cinfoId line values accesses pointed
      simp only [headerValue_cons, Option.map_or, Option.or_assoc, List.filterMap_cons]
      rcases outcome with ⟨none, applied⟩ | ⟨text, here, readable, outcome⟩
      · obtain ⟨ret, after, left, more, ran, success, inside, found⟩ := ih stored accesses points
        refine ⟨ret, line :: after, left, more, ?_, ?_, ?_, ?_⟩
        · rw [iterateHeader, applied]
          simp only [ran]
        · rw [success, ReplyTosFit, ReplyTosFit, List.forall_mem_cons, none]
          simp
        · rwa [none]
        · rw [none]
          simpa using found
      by_cases fits : text.length + UNIQUE_STR_LEN < LD_MAX
      · rw [if_pos fits] at outcome
        obtain ⟨rewritten, applied⟩ := outcome
        have replied : Pointed { stored with
            replyTo := some ⟨rewrittenEntry cinfoId text line, replyToName.length⟩ }
            ((lineValue destinationName line).or qname) ((lineValue transactionName line).or tid)
            ((lineValue receiptName line).or receiptId) (some (text ++ cstr cinfoId)) :=
          ⟨points.qname, points.tid, points.receiptId, rewritten⟩
        obtain ⟨ret, after, left, more, ran, success, inside, found⟩ := ih _
          (accesses ++ [.read ⟨line, replyToName.length⟩]) replied
        have ends : EndsInEntry replyToName text := by
          have name : replyToName.length = 9 := by decide
          rw [EndsInEntry, name]
          rw [UNIQUE_STR_LEN] at fits
          omega
        have passed : unfit text = false := by
          rw [unfit, decide_eq_false_iff_not]
          omega
        refine ⟨ret, rewrittenEntry cinfoId text line :: after, left,
          .read ⟨line, replyToName.length⟩ :: more, ?_, ?_, ?_, ?_⟩
        · rw [iterateHeader, applied]
          simp only [ran, List.append_assoc, List.singleton_append]
        · rw [success, ReplyTosFit, ReplyTosFit, List.forall_mem_cons, here]
          simp [fits]
        · rw [List.forall_mem_cons, readable, inside, here]
          simp [ends, passed]
        · rw [here]
          simpa using found
      · rw [if_neg fits] at outcome
        have rejected : unfit text = true := by
          rw [unfit, decide_eq_true_eq]
          omega
        refine ⟨.error, line :: lines, stored, [.read ⟨line, replyToName.length⟩], ?_, ?_, ?_,
          fun success => absurd success (by decide)⟩
        · rw [iterateHeader, outcome]
        · rw [ReplyTosFit, List.forall_mem_cons, here]
          simp [fits]
        · rw [List.forall_mem_singleton, readable, here]
          simp [rejected]

/-- The pointers lead to the values that `handler_stomp_send` works on. -/
theorem trackedSend_follows {cinfoId : List UInt8} {frame : Frame} {hAttrs : List Linedata}
    {info : SendAttrinfo} (accepted : sendAttrinfo cinfoId frame = (.success, hAttrs, info)) :
    ∃ after left accesses, iterateHeader (trackedSendHandlers cinfoId) frame.hAttrs
        (⟨none, none, none, none⟩, []) = (.success, after, left, accesses) ∧
      Pointed left info.qname info.tid info.receiptId info.replyTo := by
  obtain ⟨ret, after, left, more, ran, success, -, found⟩ :=
    trackedSend_outcome cinfoId frame.hAttrs ⟨none, none, none, none⟩ []
      ⟨.none _, .none _, .none _, .none _⟩
  rw [sendAttrinfo] at accepted
  have fits := (iterateHeader_send_success_iff frame.hAttrs _).mp (congrArg Prod.fst accepted)
  obtain rfl := success.mpr fits
  obtain ⟨qname, replyTo, -, tid⟩ := iterateHeader_sendValues accepted
  rw [qname, tid, replyTo, iterateHeader_sendReceipt accepted]
  exact ⟨after, left, _, ran, found rfl⟩

/-! ### The buffers -/

theorem receiptAccesses_inside (sock : Int) {pointer : Option HeaderValue}
    {value : Option (List UInt8)} (points : Points receiptName pointer value) :
    (∀ access ∈ receiptAccesses sock pointer, access.Inside) ↔ ReceiptFits sock value := by
  cases value with
  | none =>
      rw [points.eq_none, receiptAccesses, ReceiptFits]
      simp
  | some text =>
      obtain ⟨found, rfl, bytes, start⟩ := points.some
      have name : receiptName.length = 8 := by decide
      have label : (cstring "receipt-id:").length = 11 := by decide
      rw [receiptAccesses, ReceiptFits]
      by_cases valid : 0 < sock
      · rw [if_pos valid, List.forall_mem_cons, List.forall_mem_singleton, inside_of_points start,
          EndsInEntry, bytes, name, ValueAccess.Inside]
        simp only [List.length_append, label, List.length_singleton, Option.mem_def,
          Option.some.injEq, forall_eq', valid, forall_const]
        omega
      · simp [valid]

theorem allocAccesses_inside (system : SystemAnswers) (datadir qname : List UInt8) :
    (∀ access ∈ allocAccesses system datadir qname, access.Inside) ↔
      PathsFit system datadir qname := by
  have sizes : (cstring "/" ++ FNAME_DATA).length = 5 ∧
      (cstring "/" ++ FNAME_SENT_INDEX).length = 11 ∧ (cstring "/").length = 1 ∧
      FNAME_DATA.length = 4 ∧ FNAME_SENT_INDEX.length = 10 := by decide
  have opened : ∀ dirpath : List UInt8,
      (∀ access ∈ openAccesses system dirpath, access.Inside) ↔
        (dirpath ++ if system.opens (dirpath ++ cstring "/" ++ FNAME_DATA) then
          cstring "/" ++ FNAME_SENT_INDEX else cstring "/" ++ FNAME_DATA).length <
            MAX_PATH_LENGTH := by
    intro dirpath
    rw [openAccesses]
    split
    · split <;> simp [ValueAccess.Inside, sizes] <;> omega
    · rw [List.forall_mem_singleton, ValueAccess.Inside]
      simp only [List.length_append, sizes]
      omega
  rw [allocAccesses, PathsFit]
  cases directory : system.isDirectory (datadir ++ cstring "/" ++ qname) with
  | none =>
      rw [if_neg (by simp), List.forall_mem_cons, List.forall_mem_append, opened]
      refine ⟨fun inside => inside.2.2, fun fits => ?_⟩
      have shorter := fits
      rw [List.length_append] at shorter
      refine ⟨?_, ?_, fits⟩
      · rw [ValueAccess.Inside]
        omega
      · rw [mkdirAccesses, List.forall_mem_cons, List.forall_mem_singleton, ValueAccess.Inside,
          ValueAccess.Inside]
        omega
  | some found =>
      cases found with
      | true =>
          rw [if_neg (by simp), List.forall_mem_cons, opened]
          refine ⟨fun inside => inside.2, fun fits => ⟨?_, fits⟩⟩
          rw [List.length_append] at fits
          rw [ValueAccess.Inside]
          omega
      | false =>
          rw [if_pos rfl, List.forall_mem_singleton, ValueAccess.Inside, List.append_nil]
          omega

/-! ### Handlers -/

/-- The table has the names of `stomp_handlers`, in the same order. -/
theorem frameHandlers_names : frameHandlers.map Prod.fst = stompHandlers.map Prod.fst := rfl

section Handlers

variable (system : SystemAnswers) (object : FrameObject) (server : Server)

theorem read_toList_inside {name : List UInt8} {pointer : Option HeaderValue}
    {value : Option (List UInt8)} (points : Points name pointer value) :
    (∀ access ∈ (pointer.map ValueAccess.read).toList, access.Inside) ↔
      ∀ text ∈ value, EndsInEntry name text := by
  cases value with
  | none =>
      rw [points.eq_none]
      simp
  | some text =>
      obtain ⟨found, rfl, bytes, start⟩ := points.some
      have readable := inside_of_points start
      rw [bytes] at readable
      simpa using readable

theorem lookupAccesses_inside {name : List UInt8} {pointer : HeaderValue}
    (start : pointer.start = name.length) :
    (∀ access ∈ lookupAccesses server pointer, access.Inside) ↔
      (server.transactions.list ≠ [] → EndsInEntry name pointer.bytes) := by
  rw [lookupAccesses]
  by_cases none : server.transactions.list = []
  · simp [none]
  · rw [if_neg none, List.forall_mem_singleton, inside_of_points start]
    simp [none]

theorem takeAccesses_inside {sock : Int} {pointer : HeaderValue} {values : SendValues}
    {qname : List UInt8} {tid receiptId replyTo : Option (List UInt8)}
    (bytes : pointer.bytes = qname) (start : pointer.start = destinationName.length)
    {destination : Option (List UInt8)}
    (pointed : Pointed values destination tid receiptId replyTo) :
    (∀ access ∈ takeAccesses system server sock pointer values, access.Inside) ↔
      TakeFits system server sock qname tid receiptId := by
  have receipt := receiptAccesses_inside sock pointed.receiptId
  cases tid with
  | none =>
      rw [takeAccesses, TakeFits, pointed.tid.eq_none]
      simp only [bytes]
      rw [List.forall_mem_append, List.forall_mem_cons, inside_of_points start, bytes, and_assoc]
      apply and_congr_right
      intro readable
      by_cases known : (getQinfo (getHash qname) server.persistent).isSome = true
      · simp [known, receipt, inside_of_points start, bytes, readable]
      · rw [if_neg known, if_neg known, allocAccesses_inside]
        apply and_congr_right
        intro _
        by_cases allocated : system.allocates server.persistent.datadir qname = true
        · simp [allocated, receipt, inside_of_points start, bytes, readable]
        · simp [known, allocated]
  | some id =>
      obtain ⟨found, same, idBytes, idStart⟩ := pointed.tid.some
      rw [takeAccesses, TakeFits, same]
      simp only
      rw [List.forall_mem_append, receipt, lookupAccesses_inside server idStart, idBytes]

theorem sendAccesses_inside :
    (∀ access ∈ sendAccesses system object server, access.Inside) ↔
      SendValuesFit system object server := by
  rw [sendAccesses, SendValuesFit]
  cases object.frame.cinfo with
  | none => simp
  | some cinfoId =>
      obtain ⟨ret, after, left, more, ran, success, inside, found⟩ :=
        trackedSend_outcome cinfoId object.frame.hAttrs ⟨none, none, none, none⟩ []
          ⟨.none _, .none _, .none _, .none _⟩
      simp only [ran, List.nil_append, Option.mem_def, Option.some.injEq, forall_eq']
      cases ret with
      | error =>
          have rejected : ¬ ReplyTosFit object.frame.hAttrs := by
            rw [← success]
            simp
          rw [if_neg rejected]
          exact inside
      | success =>
          have accepted := success.mp rfl
          have pointed := found rfl
          simp only [Option.or_none] at pointed
          have measured : ∀ access ∈ more, access.Inside := by
            have none : (object.frame.hAttrs.filterMap (lineValue replyToName)).find? unfit = none := by
              rw [List.find?_eq_none]
              intro value mem
              obtain ⟨line, there, here⟩ := List.mem_filterMap.mp mem
              have fits := accepted line there value here
              rw [unfit, decide_eq_true_eq]
              omega
            rw [inside, none]
            simp
          have replied := read_toList_inside pointed.replyTo
          simp only [Option.mem_def, Option.map_eq_some_iff, forall_exists_index, and_imp,
            forall_apply_eq_imp_iff₂] at replied
          rw [if_pos accepted, List.forall_mem_append, List.forall_mem_append, replied, and_assoc,
            and_iff_right measured]
          apply and_congr_right
          intro _
          cases destination : headerValue destinationName object.frame.hAttrs with
          | none =>
              have absent := pointed.qname
              rw [destination] at absent
              rw [absent.eq_none]
              simp
          | some qname =>
              have present := pointed.qname
              rw [destination] at present
              obtain ⟨pointer, here, bytes, start⟩ := present.some
              rw [here]
              simpa using takeAccesses_inside system server bytes start pointed

theorem measuredAccesses_inside {name : List UInt8} (short : name.length < LD_MAX)
    {act : HeaderValue → List ValueAccess} {Act : List UInt8 → Prop}
    (acts : ∀ pointer : HeaderValue, pointer.start = name.length → EndsInEntry name pointer.bytes →
      ((∀ access ∈ act pointer, access.Inside) ↔ Act pointer.bytes)) :
    (∀ access ∈ measuredAccesses name act object, access.Inside) ↔ MeasuredFit name Act object := by
  obtain ⟨ret, left, more, ran, success, inside, found⟩ :=
    measured_outcome short object.frame.hAttrs none [] (.none name)
  rw [List.nil_append] at ran
  rw [measuredAccesses, ran, MeasuredFit, ← inside]
  cases ret with
  | error =>
      have empty : ¬ [] ∉ object.frame.hAttrs.filterMap (lineValue name) := by
        rw [← success]
        simp
      simp [not_not.mp empty]
  | success =>
      have points := found rfl
      have nonempty := success.mp rfl
      rw [Option.or_none] at points
      cases value : headerValue name object.frame.hAttrs with
      | none =>
          rw [value] at points
          rw [points.eq_none]
          simp
      | some text =>
          rw [value] at points
          obtain ⟨pointer, rfl, bytes, start⟩ := points.some
          simp only
          rw [List.forall_mem_append]
          apply and_congr_right
          intro readable
          have last : text ∈ (object.frame.hAttrs.filterMap (lineValue name)).takeWhile (· ≠ []) := by
            rw [List.takeWhile_eq_self_iff.mpr]
            · exact List.mem_of_getLast? value
            · intro other mem
              simp only [decide_eq_true_eq]
              rintro rfl
              exact nonempty mem
          rw [acts pointer start (by rw [bytes]; exact inside.mp readable text last), bytes]
          simp [nonempty]

theorem recordedAccesses_inside {first second : List UInt8}
    {act : Option HeaderValue → Option HeaderValue → List ValueAccess} {Act : Prop}
    (acts : ∀ one two, Points first one (headerValue first object.frame.hAttrs) →
      Points second two (headerValue second object.frame.hAttrs) →
        ((∀ access ∈ act one two, access.Inside) ↔ Act)) :
    (∀ access ∈ recordedAccesses first second act object, access.Inside) ↔
      (object.frame.cinfo ≠ none → Act) := by
  rw [recordedAccesses]
  cases object.frame.cinfo with
  | none => simp
  | some cinfoId =>
      obtain ⟨left, ran, one, two⟩ := trackedTwo_outcome first second object.frame.hAttrs
        (none, none) [] (.none first) (.none second)
      rw [Option.or_none] at one two
      simp only [ran, List.nil_append]
      rw [acts left.1 left.2 one two]
      simp

theorem connectAccesses_inside :
    (∀ access ∈ connectAccesses system object, access.Inside) ↔
      FrameHandler.ValuesFit system object server .connect := by
  rw [connectAccesses, FrameHandler.ValuesFit]
  apply recordedAccesses_inside
  intro userid passwd first second
  by_cases printed : system.debugPrinted = true
  · rw [if_pos printed, List.forall_mem_append, read_toList_inside first, read_toList_inside second]
    simp [printed]
  · simp [printed]

theorem beginAccesses_inside :
    (∀ access ∈ beginAccesses object server, access.Inside) ↔
      FrameHandler.ValuesFit system object server .begin := by
  rw [beginAccesses, FrameHandler.ValuesFit]
  apply measuredAccesses_inside object (by decide)
  intro pointer start ends
  have read := (inside_of_points start).mpr ends
  have looked := (lookupAccesses_inside server start).mpr fun _ => ends
  rw [List.forall_mem_append, and_iff_right looked]
  split
  next new =>
    rw [List.forall_mem_cons, and_iff_right read, List.forall_mem_singleton, ValueAccess.Inside]
    simp [new]
  next known => simp [known]

theorem endAccesses_inside :
    (∀ access ∈ endAccesses object server, access.Inside) ↔
      MeasuredFit transactionName (fun _ => True) object := by
  rw [endAccesses]
  apply measuredAccesses_inside object (by decide)
  intro pointer start ends
  exact iff_true_intro ((lookupAccesses_inside server start).mpr fun _ => ends)

theorem disconnectAccesses_inside :
    (∀ access ∈ disconnectAccesses object, access.Inside) ↔
      FrameHandler.ValuesFit system object server .disconnect := by
  rw [disconnectAccesses, FrameHandler.ValuesFit]
  apply measuredAccesses_inside object (by decide)
  intro pointer start _
  apply receiptAccesses_inside
  refine ⟨rfl, fun found mem => ?_⟩
  cases mem
  exact start

theorem subscribeAccesses_inside :
    (∀ access ∈ subscribeAccesses object, access.Inside) ↔
      FrameHandler.ValuesFit system object server .subscribe := by
  rw [subscribeAccesses, FrameHandler.ValuesFit]
  apply recordedAccesses_inside
  exact fun _ _ destination _ => read_toList_inside destination

end Handlers

theorem FrameHandler.accesses_inside (system : SystemAnswers) (object : FrameObject) (server : Server)
    (handler : FrameHandler) :
    (∀ access ∈ handler.accesses system object server, access.Inside) ↔
      handler.ValuesFit system object server := by
  cases handler with
  | send => exact sendAccesses_inside system object server
  | subscribe => exact subscribeAccesses_inside system object server
  | connect => exact connectAccesses_inside system object server
  | disconnect => exact disconnectAccesses_inside system object server
  | begin => exact beginAccesses_inside system object server
  | commit => exact endAccesses_inside object server
  | abort => exact endAccesses_inside object server
  | unsubscribe => simp [FrameHandler.accesses, FrameHandler.ValuesFit]
  | ack => simp [FrameHandler.accesses, FrameHandler.ValuesFit]

/-- A `BEGIN` whose transaction id has one byte more than the array `tid`. -/
def longIdFrame : WireFrame where
  command := cstring "BEGIN"
  headers := [transactionName ++ List.replicate 513 97, cstring "content-length:0"]
  body := []
  command_known := by decide
  header_line := by decide +kernel
  one_length := by decide +kernel
  length_value := by decide +kernel
  body_clean := disconnectFrame.body_clean
  body_bound := disconnectFrame.body_bound

end Newtmq
