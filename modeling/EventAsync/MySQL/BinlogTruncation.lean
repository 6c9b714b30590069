import EventAsync.MySQL.RowForms

/-!
# Rows events that end early

An event that ends inside a null bitmap, or inside a part of a cell that
may be missing, is accepted if whatever the code reads after that needs no
bytes either, so that the last row comes back with a cell that is too short or
with null flags that were never sent.  If more than the last byte of a bitmap is
missing, its bits are taken from memory behind the event.

The file describes the events of which `parse_rows_event` returns something else
than the rows of their bytes, or that it reads beyond.
-/

namespace EventAsync.MySQL

open ByteCodec StringReader

namespace BinlogProcessor

/-- The rows of an event. -/
inductive RowsOf (form : Form RowChange) : Bytes → List RowChange → Prop
  | nil : RowsOf form [] []
  | cons {used left : Bytes} {rc : RowChange} {rows : List RowChange} :
      form.Whole used rc → RowsOf form left rows → RowsOf form (used ++ left) (rc :: rows)

theorem RowsOf.uncons {form : Form RowChange} {bytes : Bytes} {rc : RowChange}
    {rows : List RowChange} (whole : RowsOf form bytes (rc :: rows)) :
    ∃ used left, bytes = used ++ left ∧ form.Whole used rc ∧ RowsOf form left rows := by
  cases whole with
  | cons first rest => exact ⟨_, _, rfl, first, rest⟩

/-- Rows of which the last one is cut, or read beyond its end. -/
inductive RowsCut (form : Form RowChange) : Bytes → Prop
  | last {bytes : Bytes} : bytes ≠ [] → form.Cut bytes ∨ form.Beyond bytes → RowsCut form bytes
  | later {used left : Bytes} : used ++ left ≠ [] → form.Passes used left → RowsCut form left →
      RowsCut form (used ++ left)

/-- The rows that are returned are not those of the bytes, or something behind the bytes is looked
for. -/
def GoesWrong (form : Form RowChange) (bytes : Bytes) :
    EStateM.Result Stop StringReader (List RowChange) → Prop
  | .ok rows _ => ¬RowsOf form bytes rows
  | .error stop _ => ∃ operation, stop = .undefined operation

theorem RowsCut.ne_nil {form : Form RowChange} {bytes : Bytes} (isCut : RowsCut form bytes) :
    bytes ≠ [] := by
  cases isCut with
  | last more _ => exact more
  | later more _ _ => exact more

section Rows

variable {ti : BinlogTableInfo} {writeType : WriteType} {preimage : Bool}

theorem readRowChanges_of_ended {reader : StringReader} (ended : reader.rest = []) (fuel : ℕ) :
    readRowChanges ti writeType preimage (fuel + 1) reader = .ok [] reader := by
  have atEnd : eof reader = .ok true reader := by
    rw [eof, ended]
    rfl
  rw [readRowChanges, Stateful.bind_of_ok atEnd]
  rfl

theorem readRowChanges_of_more {reader : StringReader} (more : reader.rest ≠ []) (fuel : ℕ) :
    readRowChanges ti writeType preimage (fuel + 1) reader = (do
      let rc ← readRowChange ti writeType preimage
      return rc :: (← readRowChanges ti writeType preimage fuel)) reader := by
  have notAtEnd : eof reader = .ok false reader := by
    rw [eof, List.isEmpty_eq_false_iff.mpr more]
  rw [readRowChanges, Stateful.bind_of_ok notAtEnd]
  rfl

/-- The loop goes wrong only over rows that are cut. -/
theorem rowsCut_of_goesWrong {fuel : ℕ} {reader : StringReader}
    (short : reader.rest.length ≤ stringMaxSize)
    (wrong : GoesWrong (changeForm ti.columns writeType preimage) reader.rest
      (readRowChanges ti writeType preimage fuel reader)) :
    RowsCut (changeForm ti.columns writeType preimage) reader.rest := by
  have readBy := readBy_readRowChange ti writeType preimage
  induction fuel generalizing reader with
  | zero =>
      rcases wrong with ⟨operation, other⟩
      cases other
  | succ fuel ih =>
      by_cases ended : reader.rest = []
      · rw [readRowChanges_of_ended ended, ended] at wrong
        exact absurd RowsOf.nil wrong
      · rw [readRowChanges_of_more ended] at wrong
        cases read : readRowChange ti writeType preimage reader with
        | error stop last =>
            rw [Stateful.bind_of_error read] at wrong
            rcases wrong with ⟨operation, rfl⟩
            exact .last ended (Or.inr ((readBy.strays_iff short).mp ⟨operation, last, read⟩))
        | ok rc middle =>
            rw [Stateful.bind_of_ok read] at wrong
            rcases readBy.returns short read with isCut | ⟨used, split, passed, whole⟩
            · exact .last ended (Or.inl isCut)
            · rw [split] at ended short wrong ⊢
              have shorter : middle.rest.length ≤ stringMaxSize := by
                rw [List.length_append] at short
                omega
              refine .later ended passed (ih shorter ?_)
              cases loop : readRowChanges ti writeType preimage fuel middle with
              | error stop last =>
                  rw [Stateful.bind_of_error loop] at wrong
                  exact wrong
              | ok rows last =>
                  rw [Stateful.bind_of_ok loop] at wrong
                  exact fun others => wrong (RowsOf.cons whole others)

/-- The loop goes wrong over rows that are cut. -/
theorem goesWrong_of_rowsCut {bytes : Bytes}
    (isCut : RowsCut (changeForm ti.columns writeType preimage) bytes) {reader : StringReader}
    (same : reader.rest = bytes) (short : bytes.length ≤ stringMaxSize) :
    ∃ fuel, GoesWrong (changeForm ti.columns writeType preimage) bytes
      (readRowChanges ti writeType preimage fuel reader) := by
  have readBy := readBy_readRowChange ti writeType preimage
  induction isCut generalizing reader with
  | @last bytes more isCut =>
      subst same
      rcases isCut with isCut | beyond
      · rcases readBy.cut short isCut with ⟨rc, middle, read, ended, notWhole⟩
        refine ⟨2, ?_⟩
        rw [readRowChanges_of_more more, Stateful.bind_of_ok read,
          Stateful.bind_of_ok (readRowChanges_of_ended ended 0)]
        intro whole
        rcases whole.uncons with ⟨used, left, split, first, _⟩
        exact notWhole used left split first
      · rcases (readBy.strays_iff short).mpr beyond with ⟨operation, last, strays⟩
        refine ⟨1, ?_⟩
        rw [readRowChanges_of_more more, Stateful.bind_of_error strays]
        exact ⟨operation, rfl⟩
  | @later used left more passed _ ih =>
      rcases readBy.passes (same ▸ short) same passed with ⟨rc, middle, read, rest, whole⟩
      have shorter : left.length ≤ stringMaxSize := by
        rw [List.length_append] at short
        omega
      rcases ih rest shorter with ⟨fuel, wrong⟩
      refine ⟨fuel + 1, ?_⟩
      rw [readRowChanges_of_more (same ▸ more), Stateful.bind_of_ok read]
      cases loop : readRowChanges ti writeType preimage fuel middle with
      | error stop last =>
          rw [loop] at wrong
          rw [Stateful.bind_of_error loop]
          exact wrong
      | ok rows last =>
          rw [loop] at wrong
          rw [Stateful.bind_of_ok loop]
          intro allWhole
          rcases allWhole.uncons with ⟨used', left', split, first, rest⟩
          cases unique_changeForm _ _ _ whole first split
          cases List.append_cancel_left split
          exact wrong rest

/-- One row that passes is not cut. -/
theorem not_rowsCut_of_passes {bytes : Bytes} (short : bytes.length ≤ stringMaxSize)
    (passed : (changeForm ti.columns writeType preimage).Passes bytes []) :
    ¬RowsCut (changeForm ti.columns writeType preimage) bytes := by
  intro isCut
  have readBy := readBy_readRowChange ti writeType preimage
  have all : bytes = bytes ++ [] := (List.append_nil bytes).symm
  rcases @Form.ReadBy.passes _ _ _ readBy (.ofString bytes) bytes [] short all passed with
    ⟨rc, after, read, _, whole⟩
  cases isCut with
  | last _ isCut =>
      rcases isCut with isCut | beyond
      · rcases @Form.ReadBy.cut _ _ _ readBy (.ofString bytes) short isCut with
          ⟨rc', after', read', _, notWhole⟩
        rw [read] at read'
        cases read'
        exact notWhole bytes [] all whole
      · exact not_strays_of_ok read
          ((@Form.ReadBy.strays_iff _ _ _ readBy (.ofString bytes) short).mpr beyond)
  | @later used left _ passed' isCut =>
      rcases @Form.ReadBy.passes _ _ _ readBy (.ofString (used ++ left)) used left short rfl
        passed' with ⟨rc', after', _, _, whole'⟩
      have same := unique_changeForm _ _ _ whole' whole all
      exact isCut.ne_nil (List.append_right_eq_self.mp same.symm)

end Rows

/-- The bytes behind the number of columns end early in one of the bitmaps of the columns that are
present, so that bits of it are looked for behind them. -/
def PresentCut (numColumns : ℕ) : ℕ → Bytes → Prop
  | 0, _ => False
  | bitmaps + 1, bytes =>
      bytes.length < (numColumns - 1) / 8 ∨
        ∃ bitmap left, bytes = bitmap ++ left ∧ bitmap.length = (numColumns + 7) / 8 ∧
          false ∉ unpack numColumns bitmap ∧ PresentCut numColumns bitmaps left

theorem presentCut_append {numColumns bitmaps : ℕ} {bitmap left : Bytes}
    (length : bitmap.length = (numColumns + 7) / 8) :
    PresentCut numColumns (bitmaps + 1) (bitmap ++ left) ↔
      false ∉ unpack numColumns bitmap ∧ PresentCut numColumns bitmaps left := by
  constructor
  · rintro (beyond | ⟨bitmap', left', split, length', present, isCut⟩)
    · rw [List.length_append] at beyond
      omega
    · rcases List.append_inj split (length.trans length'.symm) with ⟨rfl, rfl⟩
      exact ⟨present, isCut⟩
  · rintro ⟨present, isCut⟩
    exact Or.inr ⟨bitmap, left, rfl, length, present, isCut⟩

theorem unpack_missing {numBits : ℕ} {bytes : Bytes} (missing : bytes.length < (numBits + 7) / 8) :
    false ∈ unpack numBits bytes := by
  refine List.mem_map.mpr ⟨numBits - 1, List.mem_range.mpr (by omega), ?_⟩
  have outside : bytes.length ≤ (numBits - 1) / 8 := by omega
  rw [bitAt, List.getD_eq_default _ _ outside]
  exact Nat.zero_testBit _

theorem checkColumnsPresent_of_ok {numColumns : ℕ} {bits : List Bool}
    {reader middle : StringReader} (read : getBitmask numColumns reader = .ok bits middle) :
    checkColumnsPresent numColumns reader = if false ∈ bits then
        .error (.runtimeError "one or more columns not present in row event") middle
      else .ok () middle := by
  rw [checkColumnsPresent, Stateful.bind_of_ok read]
  by_cases absent : false ∈ bits
  · simp only [List.contains_iff_mem, absent, if_true]
    rfl
  · simp only [List.contains_iff_mem, absent, if_false]
    rfl

theorem strays_checkColumnsPresent_iff {numColumns : ℕ} (bitmaps : List ℕ)
    {reader : StringReader} :
    Strays (bitmaps.forM fun _ => checkColumnsPresent numColumns) reader ↔
      PresentCut numColumns bitmaps.length reader.rest := by
  induction bitmaps generalizing reader with
  | nil => exact iff_of_false (not_strays_of_ok rfl) not_false
  | cons index bitmaps ih =>
      change Strays (checkColumnsPresent numColumns >>= fun _ =>
        bitmaps.forM fun _ => checkColumnsPresent numColumns) reader ↔ _
      rw [List.length_cons]
      rcases getBitmask_cases numColumns reader with ⟨last, strays⟩ | ⟨inRange, missing⟩ |
        ⟨bitmap, left, length, split⟩
      · have check : checkColumnsPresent numColumns reader =
            .error (.undefined "string index out of range") last := Stateful.bind_of_error strays
        exact iff_of_true ⟨_, last, Stateful.bind_of_error check⟩
          (Or.inl (strays_getBitmask_iff.mp ⟨_, last, strays⟩))
      · rcases getBitmask_missing inRange missing with ⟨middle, read, _⟩
        have raised := checkColumnsPresent_of_ok read
        rw [if_pos (unpack_missing missing)] at raised
        refine iff_of_false (not_strays_of_raised (Stateful.bind_of_error raised)) ?_
        rintro (beyond | ⟨bitmap, left, split, length, _⟩)
        · omega
        · rw [split, List.length_append] at missing
          omega
      · rcases getBitmask_bitmap length split with ⟨middle, read, rfl⟩
        have checked := checkColumnsPresent_of_ok read
        rw [split, presentCut_append length]
        by_cases absent : false ∈ unpack numColumns bitmap
        · rw [if_pos absent] at checked
          exact iff_of_false (not_strays_of_raised (Stateful.bind_of_error checked))
            fun isCut => isCut.1 absent
        · rw [if_neg absent] at checked
          rw [strays_bind_of_ok checked, ih, and_iff_right absent]

/-- A computation that never does anything without meaning. -/
def Safe {Result : Type} (action : ReaderM Result) : Prop :=
  ∀ reader, ¬Strays action reader

namespace Safe

variable {First Second : Type}

theorem pure (value : First) : Safe (Pure.pure value : ReaderM First) :=
  fun _ => not_strays_of_ok rfl

theorem raise (exception : Exception) : Safe (throw (.raised exception) : ReaderM First) :=
  fun _ => not_strays_of_raised rfl

theorem bind {action : ReaderM First} {next : First → ReaderM Second} (first : Safe action)
    (second : ∀ value, Safe (next value)) : Safe (action >>= next) := by
  intro reader strays
  rcases strays_bind_iff.mp strays with here | ⟨value, middle, _, later⟩
  · exact first reader here
  · exact second value middle later

theorem check {condition : Prop} [Decidable condition] {exception : Exception}
    {next : PUnit → ReaderM Second} (passed : Safe (next ⟨⟩)) :
    Safe (if condition then (MonadExcept.throw (.raised exception) : ReaderM PUnit) >>= next
      else next ⟨⟩) := by
  split
  · exact fun _ => not_strays_of_raised rfl
  · exact passed

theorem read (size : ℕ) : Safe (StringReader.read size) :=
  fun _ => not_strays_of_ok rfl

theorem getBytes (size : ℕ) : Safe (StringReader.getBytes size) :=
  bind (fun _ => not_strays_of_ok rfl) fun _ => check (read size)

theorem getU8 : Safe StringReader.getU8 :=
  bind (getBytes 1) fun _ => pure _

theorem getLe (width : ℕ) : Safe (StringReader.getLe width) :=
  bind (getBytes width) fun _ => pure _

theorem getVarint : Safe StringReader.getVarint := by
  apply bind getU8
  intro v
  split
  · exact pure _
  · split
    · exact raise _
    · split
      · exact getLe 2
      · split
        · exact getLe 3
        · split
          · exact getLe 8
          · exact raise _

theorem readExtraData (type : UInt8) : Safe (BinlogProcessor.readExtraData type) := by
  unfold BinlogProcessor.readExtraData
  split
  · exact bind (getLe 2) fun size => read _
  · exact pure _

theorem readRowsEventHead (tableMap : ℕ → Option BinlogTableInfo) :
    Safe (BinlogProcessor.readRowsEventHead tableMap) := by
  apply bind (bind (getBytes 19) fun _ => pure _)
  intro header
  split
  · exact raise _
  · apply bind (getLe 6)
    intro tableId
    apply check
    dsimp only
    split
    · exact raise _
    · refine bind (getLe 2) fun _ => bind (readExtraData _) fun _ => bind getVarint fun _ => ?_
      exact check (pure _)

end Safe

/-- Before the rows, only the bitmaps of the columns that are present are read beyond their end. -/
theorem strays_readRowsEventStart_iff {tableMap : ℕ → Option BinlogTableInfo}
    {reader : StringReader} : Strays (readRowsEventStart tableMap) reader ↔
      ∃ head middle, readRowsEventHead tableMap reader = .ok head middle ∧
        PresentCut head.ti.columns.length (1 + (hasPreimage head.header.type).toNat)
          middle.rest := by
  have bitmaps (head : BinlogRowsEvent) (middle : StringReader) :
      Strays (do
        (List.range (1 + (hasPreimage head.header.type).toNat)).forM fun _ =>
          checkColumnsPresent head.ti.columns.length
        return head) middle ↔
        PresentCut head.ti.columns.length (1 + (hasPreimage head.header.type).toNat)
          middle.rest := by
    have counted := @strays_checkColumnsPresent_iff head.ti.columns.length
      (List.range (1 + (hasPreimage head.header.type).toNat)) middle
    rw [List.length_range] at counted
    rw [strays_bind_iff, counted]
    apply or_iff_left
    rintro ⟨_, after, _, strays⟩
    exact Safe.pure head after strays
  rw [readRowsEventStart, strays_bind_iff]
  simp only [bitmaps]
  exact or_iff_right (Safe.readRowsEventHead tableMap reader)

/-- The rows of a rows event that is returned are those of whole rows, and nothing is looked for
behind the event. -/
structure ReturnsWholeRows (processor : BinlogProcessor) (data : Bytes) : Prop where
  rows : ∀ fuel ev after, parseRowsEvent fuel data processor = .ok ev after →
    ∃ start middle, readRowsEventStart processor.tableMap (.ofString data) = .ok start middle ∧
      RowsOf (changeForm ev.ti.columns ev.writeType (hasPreimage ev.header.type)) middle.rest
        ev.rows
  inBounds : ∀ fuel operation after,
    parseRowsEvent fuel data processor ≠ .error (.undefined operation) after

/-- The event ends early in a place where this is not noticed. -/
def EventCut (processor : BinlogProcessor) (data : Bytes) : Prop :=
  (∃ head middle, readRowsEventHead processor.tableMap (.ofString data) = .ok head middle ∧
    PresentCut head.ti.columns.length (1 + (hasPreimage head.header.type).toNat) middle.rest) ∨
  ∃ start middle, readRowsEventStart processor.tableMap (.ofString data) = .ok start middle ∧
    RowsCut (changeForm start.ti.columns start.writeType (hasPreimage start.header.type))
      middle.rest

section Events

variable {processor : BinlogProcessor} {data : Bytes} {fuel : ℕ} {start : BinlogRowsEvent}
  {middle last : StringReader}

theorem parseRowsEvent_of_strays (strays : Strays (readRowsEvent processor.tableMap fuel)
    (.ofString data)) :
    ∃ operation after, parseRowsEvent fuel data processor =
      .error (.undefined operation) after := by
  rcases strays with ⟨operation, last, read⟩
  refine ⟨operation, processor, ?_⟩
  rw [parseRowsEvent_eq, read]

theorem strays_of_parseRowsEvent {operation : String} {after : BinlogProcessor}
    (ends : parseRowsEvent fuel data processor = .error (.undefined operation) after) :
    Strays (readRowsEvent processor.tableMap fuel) (.ofString data) := by
  rw [parseRowsEvent_eq] at ends
  cases read : readRowsEvent processor.tableMap fuel (.ofString data) with
  | ok ev last =>
      rw [read] at ends
      cases ends
  | error stop last =>
      rw [read] at ends
      cases ends
      exact ⟨operation, last, read⟩

theorem strays_readRowsEvent_iff {reader : StringReader}
    {tableMap : ℕ → Option BinlogTableInfo} : Strays (readRowsEvent tableMap fuel) reader ↔
      Strays (readRowsEventStart tableMap) reader ∨
        ∃ start middle, readRowsEventStart tableMap reader = .ok start middle ∧
          Strays (readRowChanges start.ti start.writeType (hasPreimage start.header.type) fuel)
            middle := by
  rw [readRowsEvent, strays_bind_iff]
  apply or_congr_right
  apply exists_congr
  intro start
  apply exists_congr
  intro middle
  apply and_congr_right
  intro started
  rw [strays_bind_iff]
  apply or_iff_left
  rintro ⟨rows, after, _, strays⟩
  exact Safe.pure _ after strays

/-- The rows that are read are the rows that are returned. -/
theorem parseRowsEvent_ok {rows : List RowChange}
    (started : readRowsEventStart processor.tableMap (.ofString data) = .ok start middle)
    (read : readRowChanges start.ti start.writeType (hasPreimage start.header.type) fuel middle =
      .ok rows last) :
    parseRowsEvent fuel data processor = .ok { start with rows := rows }
      { processor with position := start.header.endPosition } := by
  have readAll : readRowsEvent processor.tableMap fuel (.ofString data) =
      .ok { start with rows := rows } last := by
    rw [readRowsEvent, Stateful.bind_of_ok started, Stateful.bind_of_ok read]
    rfl
  rw [parseRowsEvent_eq, readAll]

theorem rest_length_le (fits : data.length ≤ stringMaxSize)
    (started : readRowsEventStart processor.tableMap (.ofString data) = .ok start middle) :
    middle.rest.length ≤ stringMaxSize :=
  ((Shrinks.readRowsEventStart processor.tableMap).of_ok started).trans fits

end Events

theorem not_returnsWholeRows_of_eventCut {processor : BinlogProcessor} {data : Bytes}
    (fits : data.length ≤ stringMaxSize) (isCut : EventCut processor data) :
    ¬ReturnsWholeRows processor data := by
  intro wholeRows
  rcases isCut with present | ⟨start, middle, started, isCut⟩
  · have strays := strays_readRowsEventStart_iff.mpr present
    rcases parseRowsEvent_of_strays (strays_readRowsEvent_iff.mpr (Or.inl strays)) with
      ⟨operation, after, ends⟩
    exact wholeRows.inBounds 0 operation after ends
  · rcases goesWrong_of_rowsCut isCut rfl (rest_length_le fits started) with ⟨fuel, wrong⟩
    cases read : readRowChanges start.ti start.writeType (hasPreimage start.header.type) fuel
      middle with
    | ok rows last =>
        rw [read] at wrong
        rcases wholeRows.rows fuel _ _ (parseRowsEvent_ok started read) with
          ⟨start', middle', started', whole⟩
        rw [started] at started'
        cases started'
        exact wrong whole
    | error stop last =>
        rw [read] at wrong
        rcases wrong with ⟨operation, rfl⟩
        have strays := strays_readRowsEvent_iff.mpr
          (Or.inr ⟨start, middle, started, operation, last, read⟩)
        rcases parseRowsEvent_of_strays strays with ⟨operation, after, ends⟩
        exact wholeRows.inBounds fuel operation after ends

/-- Every rows event is rejected or returned with the rows of its bytes, and read only up to its
end, if and only if it does not end early where this is not noticed. -/
theorem returnsWholeRows_iff (processor : BinlogProcessor) {data : Bytes}
    (fits : data.length ≤ stringMaxSize) :
    ReturnsWholeRows processor data ↔ ¬EventCut processor data := by
  constructor
  · intro wholeRows isCut
    exact not_returnsWholeRows_of_eventCut fits isCut wholeRows
  · intro notCut
    constructor
    · intro fuel ev after returned
      rcases parseRowsEvent_returned returned with ⟨start, middle, last, started, read, same⟩
      refine ⟨start, middle, started, ?_⟩
      rw [same]
      by_contra notWhole
      apply notCut
      refine Or.inr ⟨start, middle, started, ?_⟩
      apply rowsCut_of_goesWrong (rest_length_le fits started)
      rw [read]
      exact notWhole
    · intro fuel operation after ends
      rcases strays_readRowsEvent_iff.mp (strays_of_parseRowsEvent ends) with
        present | ⟨start, middle, started, operation', last, read⟩
      · exact notCut (Or.inl (strays_readRowsEventStart_iff.mp present))
      · apply notCut
        refine Or.inr ⟨start, middle, started, ?_⟩
        apply rowsCut_of_goesWrong (rest_length_le fits started)
        rw [read]
        exact ⟨operation', rfl⟩

theorem one_flag_fits : 1 < 2 ^ 16 := by
  decide

theorem no_extraData_fits : ([] : Bytes).length + 2 < 2 ^ 16 := by
  decide

/-- A row with a null and a string of two bytes. -/
def insertedRows : RowsEventDef sampleTable.columns where
  header := sampleHeader 30
  writeType := .insert
  v2 := true
  flags := 1
  extraData := []
  presentBitmaps := [[3]]
  changes := [.insert
    { cells := [none, some (.string [0x61, 0x62])]
      nullBitmap := [1]
      fits := .cons rfl (.cons (by decide : 2 < 256 ^ 2) .nil)
      packs := by decide }]
  headerFits := sampleHeader_fits 30
  headerType := rfl
  flagsFit := one_flag_fits
  extraDataFits := no_extraData_fits
  presentCount := rfl
  presentPacks := by decide

theorem started_insertedRows (left : Bytes) :
    readRowsEventStart (create.mapped sampleMap).tableMap
        (.ofString (insertedRows.encodeStart 66 ++ left)) =
      .ok { insertedRows.event 66 sampleTable.info with rows := [] }
        ⟨(insertedRows.encodeStart 66).length, left⟩ := by
  have known : (create.mapped sampleMap).tableMap 66 = some sampleTable.info := rfl
  have started := decodes_readRowsEventStart insertedRows (by decide) (by decide)
    (by decide : 66 ≠ 0xFFFFFF) known rfl 0 left
  rwa [Nat.zero_add] at started

theorem passes_insertedRows :
    (changeForm sampleTable.info.columns .insert false).Passes [1, 2, 0, 0x61, 0x62] [] := by
  refine ⟨[1], [2, 0, 0x61, 0x62], rfl, rfl, [], [2, 0, 0x61, 0x62], rfl, rfl,
    [2, 0, 0x61, 0x62], [], rfl, ⟨?_, [2, 0], [0x61, 0x62], rfl, rfl, rfl⟩, rfl⟩
  rintro ⟨_, _, differs⟩
  exact differs rfl

theorem returnsWholeRows_insertedRows :
    (insertedRows.encode 66).length ≤ stringMaxSize ∧
      ReturnsWholeRows (create.mapped sampleMap) (insertedRows.encode 66) := by
  refine ⟨by decide, (returnsWholeRows_iff _ (by decide)).mpr ?_⟩
  have begun := started_insertedRows [1, 2, 0, 0x61, 0x62]
  rintro (present | ⟨start, middle, started, isCut⟩)
  · exact not_strays_of_ok begun (strays_readRowsEventStart_iff.mpr present)
  · cases begun.symm.trans started
    exact @not_rowsCut_of_passes sampleTable.info _ _ _ (by decide) passes_insertedRows isCut

/-- Without its last byte the event ends inside the string, and is parsed all the same. -/
theorem not_returnsWholeRows_insertedRows :
    Transition.run parseStep create [.tableMap sampleMap.encode] = some (create.mapped sampleMap) ∧
      ¬ReturnsWholeRows (create.mapped sampleMap) (insertedRows.encode 66).dropLast := by
  refine ⟨run_sampleMap, not_returnsWholeRows_of_eventCut (by decide) ?_⟩
  refine Or.inr ⟨_, _, started_insertedRows [1, 2, 0, 0x61], ?_⟩
  refine RowsCut.last (List.cons_ne_nil _ _) (Or.inl ?_)
  refine Or.inr ⟨[1], [2, 0, 0x61], rfl, rfl, Or.inr ⟨[], _, rfl, rfl, Or.inl ⟨?_, Or.inr rfl⟩⟩⟩
  exact ⟨by decide, by decide, by decide⟩

end BinlogProcessor

end EventAsync.MySQL
