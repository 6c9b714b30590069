import EventAsync.Lib.Transition
import EventAsync.MySQL.BinlogReads

/-!
# Termination of the loop over rows

The loop of `parse_rows_event` runs until the end of the event.  Reading never
goes backwards, and a row of a table with a column starts with a null bitmap of
at least one byte, so the loop ends.  A row of a table without columns has no
bytes at all: if a table map event without columns has been accepted, the loop
repeats for ever on any rows event of that table with a byte behind its header.
-/

namespace EventAsync.MySQL

open ByteCodec Decoding StringReader

/-- Reading never goes backwards, and never stops for lack of fuel. -/
def Shrinks {Result : Type} (action : ReaderM Result) : Prop :=
  Stateful.Respects (fun before after => after.rest.length ≤ before.rest.length)
    (fun stop => stop ≠ .outOfFuel) action

theorem Reads.shrinks {Result : Type} {typed : Prop} {action : ReaderM Result}
    (reads : Reads typed action) : Shrinks action :=
  reads.mono (fun _ _ shorter => shorter) fun _ permitted => permitted.1

namespace Shrinks

variable {First Second : Type}

theorem pure (value : First) : Shrinks (Pure.pure value : ReaderM First) := by
  intro reader
  exact le_rfl

theorem bind {action : ReaderM First} {next : First → ReaderM Second} (first : Shrinks action)
    (second : ∀ value, Shrinks (next value)) : Shrinks (action >>= next) := by
  refine Stateful.Respects.bind ?_ first second
  intro before middle after earlier later
  exact later.trans earlier

theorem readCells (ti : BinlogTableInfo) (columnsNull : List Bool) :
    Shrinks ((ti.columns.zip columnsNull).mapM fun (ci, isNull) =>
      BinlogProcessor.readCell ci isNull) :=
  (Reads.readCells False.elim columnsNull).shrinks

theorem readRowData (ti : BinlogTableInfo) : Shrinks (BinlogProcessor.readRowData ti) :=
  (Reads.readRowData False.elim).shrinks

theorem readRowChange (ti : BinlogTableInfo) (writeType : WriteType) (preimage : Bool) :
    Shrinks (BinlogProcessor.readRowChange ti writeType preimage) :=
  (Reads.readRowChange False.elim writeType preimage).shrinks

theorem readRowsEventStart (tableMap : ℕ → Option BinlogTableInfo) :
    Shrinks (BinlogProcessor.readRowsEventStart tableMap) :=
  (Reads.readRowsEventStart tableMap : Reads False _).shrinks

end Shrinks

namespace BinlogProcessor

variable {ti : BinlogTableInfo} {writeType : WriteType} {preimage : Bool}
  {reader after : StringReader}

theorem getBitmask_lt {numBits : ℕ} {bits : List Bool} (positive : 0 < numBits)
    (more : reader.rest ≠ []) (read : getBitmask numBits reader = .ok bits after) :
    after.rest.length < reader.rest.length := by
  rcases Stateful.bind_eq_ok_iff.mp read with ⟨data, middle, taken, ends⟩
  have available : 0 < reader.rest.length := List.length_pos_of_ne_nil more
  simp only [StringReader.read, EStateM.Result.ok.injEq] at taken
  rcases taken with ⟨_, rfl⟩
  split at ends
  · cases ends
  · cases ends
    simp only [List.length_drop]
    omega

theorem readRowData_lt {row : List Value} (nonempty : ti.columns ≠ []) (more : reader.rest ≠ [])
    (read : readRowData ti reader = .ok row after) :
    after.rest.length < reader.rest.length := by
  rcases Stateful.bind_eq_ok_iff.mp read with ⟨nulls, middle, bitmap, cells⟩
  have positive : 0 < ti.columns.length := List.length_pos_of_ne_nil nonempty
  have shrinks := (Shrinks.readCells ti nulls).of_ok cells
  exact shrinks.trans_lt (getBitmask_lt positive more bitmap)

/-- A computation that reads a row first takes a byte. -/
theorem readRowData_bind_lt {Result : Type} {result : Result} {next : List Value → ReaderM Result}
    (nonempty : ti.columns ≠ []) (more : reader.rest ≠ [])
    (shrinks : ∀ row, Shrinks (next row))
    (ends : (readRowData ti >>= next) reader = .ok result after) :
    after.rest.length < reader.rest.length := by
  rcases Stateful.bind_eq_ok_iff.mp ends with ⟨row, middle, read, nextEnds⟩
  exact ((shrinks row).of_ok nextEnds).trans_lt (readRowData_lt nonempty more read)

theorem readRowChange_lt {rc : RowChange} (nonempty : ti.columns ≠ []) (more : reader.rest ≠ [])
    (read : readRowChange ti writeType preimage reader = .ok rc after) :
    after.rest.length < reader.rest.length := by
  have located : Shrinks StringReader.location := fun _ => le_rfl
  have start : location reader = .ok reader.offset reader := rfl
  rw [readRowChange, Stateful.bind_of_ok start] at read
  cases writeType with
  | insert =>
      exact readRowData_bind_lt nonempty more
        (fun _ => Shrinks.bind located fun _ => Shrinks.pure _) read
  | update =>
      cases preimage with
      | true =>
          exact readRowData_bind_lt nonempty more
            (fun _ => Shrinks.bind located fun _ => Shrinks.bind (Shrinks.readRowData ti) fun _ =>
              Shrinks.bind located fun _ => Shrinks.pure _) read
      | false =>
          exact readRowData_bind_lt nonempty more
            (fun _ => Shrinks.bind located fun _ => Shrinks.pure _) read
  | delete =>
      exact readRowData_bind_lt nonempty more
        (fun _ => Shrinks.bind located fun _ => Shrinks.pure _) read

/-- With more fuel than bytes the loop ends by itself. -/
theorem readRowChanges_ne_outOfFuel (nonempty : ti.columns ≠ []) (fuel : ℕ)
    (reader : StringReader) (enough : reader.rest.length < fuel) (after : StringReader) :
    readRowChanges ti writeType preimage fuel reader ≠ .error .outOfFuel after := by
  induction fuel generalizing reader with
  | zero => omega
  | succ fuel ih =>
      intro stuck
      cases atEnd : reader.rest.isEmpty with
      | true =>
          have ended : eof reader = .ok true reader := by rw [eof, atEnd]
          rw [readRowChanges, Stateful.bind_of_ok ended] at stuck
          cases stuck
      | false =>
          have ended : eof reader = .ok false reader := by rw [eof, atEnd]
          have more : reader.rest ≠ [] := by simpa using atEnd
          rw [readRowChanges, Stateful.bind_of_ok ended] at stuck
          simp only [Bool.false_eq_true, if_false] at stuck
          cases one : readRowChange ti writeType preimage reader with
          | error stop middle =>
              rw [Stateful.bind_of_error one] at stuck
              cases stuck
              exact ((Shrinks.readRowChange ti writeType preimage).of_error one).2 rfl
          | ok rc middle =>
              rw [Stateful.bind_of_ok one] at stuck
              have consumed := readRowChange_lt nonempty more one
              cases others : readRowChanges ti writeType preimage fuel middle with
              | error stop last =>
                  rw [Stateful.bind_of_error others] at stuck
                  cases stuck
                  exact ih middle (by omega) others
              | ok changes last =>
                  rw [Stateful.bind_of_ok others] at stuck
                  cases stuck

theorem readRowData_of_no_columns (empty : ti.columns = []) (reader : StringReader) :
    readRowData ti reader = .ok [] reader := by
  have noBits : getBitmask ti.columns.length reader = .ok [] reader := by
    rw [empty]
    rfl
  rw [readRowData, Stateful.bind_of_ok noBits, empty]
  rfl

/-- Without columns an iteration of the loop takes no byte. -/
theorem readRowChanges_of_no_columns (empty : ti.columns = []) (more : reader.rest ≠ [])
    (fuel : ℕ) :
    readRowChanges ti .insert preimage fuel reader = .error .outOfFuel reader := by
  induction fuel with
  | zero => rfl
  | succ fuel ih =>
      have ended : eof reader = .ok false reader := by
        rw [eof, List.isEmpty_eq_false_iff.mpr more]
      have start : location reader = .ok reader.offset reader := rfl
      have one : readRowChange ti .insert preimage reader = .ok {} reader := by
        rw [readRowChange, Stateful.bind_of_ok start]
        simp only
        rw [Stateful.bind_of_ok (readRowData_of_no_columns empty reader),
          Stateful.bind_of_ok start, Nat.sub_self]
        rfl
      rw [readRowChanges, Stateful.bind_of_ok ended]
      simp only [Bool.false_eq_true, if_false]
      rw [Stateful.bind_of_ok one, Stateful.bind_of_error ih]

theorem readRowsEventHead_known (tableMap : ℕ → Option BinlogTableInfo) :
    Stateful.Returns
      (fun ev : BinlogRowsEvent => ev.tableId ≠ 0xFFFFFF ∧ tableMap ev.tableId = some ev.ti)
      (readRowsEventHead tableMap) := by
  apply Stateful.Returns.bind_any
  intro header
  split
  · exact Stateful.Returns.throw _
  · apply Stateful.Returns.bind_any
    intro tableId
    dsimp only
    split
    · exact Stateful.Returns.throw_bind _ _
    · rename_i usable
      split
      · exact Stateful.Returns.throw _
      · rename_i ti known
        refine Stateful.Returns.bind_any fun _ => Stateful.Returns.bind_any fun _ =>
          Stateful.Returns.bind_any fun _ => ?_
        split
        · exact Stateful.Returns.throw_bind _ _
        · exact Stateful.Returns.pure ⟨usable, known⟩

/-- A table that rows events can refer to is in the table map of the processor. -/
theorem readRowsEventStart_known (tableMap : ℕ → Option BinlogTableInfo) :
    Stateful.Returns
      (fun ev : BinlogRowsEvent => ev.tableId ≠ 0xFFFFFF ∧ tableMap ev.tableId = some ev.ti)
      (readRowsEventStart tableMap) := by
  refine Stateful.Returns.bind (readRowsEventHead_known tableMap) ?_
  intro ev known
  exact Stateful.Returns.bind_any fun _ => Stateful.Returns.pure known

theorem getBytes_length (size : ℕ) :
    Stateful.Returns (fun bytes : Bytes => bytes.length = size) (getBytes size) := by
  intro reader bytes after taken
  rcases Stateful.bind_eq_ok_iff.mp taken with ⟨left, middle, counted, ends⟩
  cases counted
  split at ends
  · cases ends
  · cases ends
    rw [List.length_take]
    omega

theorem getLe_lt (width : ℕ) :
    Stateful.Returns (fun number : ℕ => number < 256 ^ width) (getLe width) := by
  refine Stateful.Returns.bind (getBytes_length width) ?_
  intro bytes length
  apply Stateful.Returns.pure
  rw [← length]
  exact leNat_lt bytes

/-- The table id of an event has 48 bits, and the pointer to its table is never set. -/
theorem readTableMapEvent_event :
    Stateful.Returns (fun result : BinlogTableMapEvent × BinlogTableInfo =>
      result.1.tableId < 2 ^ 48 ∧ result.1.ti = none) readTableMapEvent := by
  apply Stateful.Returns.bind_any
  intro header
  dsimp only
  split
  · exact Stateful.Returns.throw_bind _ _
  · refine Stateful.Returns.bind (getLe_lt 6) ?_
    intro tableId fits
    refine Stateful.Returns.bind_any fun _ => Stateful.Returns.bind_any fun _ =>
      Stateful.Returns.bind_any fun _ => Stateful.Returns.bind_any fun _ =>
      Stateful.Returns.bind_any fun _ => Stateful.Returns.bind_any fun _ =>
      Stateful.Returns.bind_any fun _ => Stateful.Returns.bind_any fun _ =>
      Stateful.Returns.bind_any fun _ => Stateful.Returns.bind_any fun _ =>
      Stateful.Returns.bind_any fun _ => ?_
    split
    · exact Stateful.Returns.throw _
    · exact Stateful.Returns.pure ⟨fits, rfl⟩

/-- The calls that can be made of a processor; a rows event comes with a bound on its rows. -/
inductive ParseCall where
  | tableMap (data : Bytes)
  | rows (fuel : ℕ) (data : Bytes)
  | query (data : Bytes)
  | rotate (data : Bytes)
  | xid (data : Bytes)
  | formatDescription (data : Bytes)
  | unknown (data : Bytes)

def ParseCall.perform : ParseCall → ProcessorM Unit
  | tableMap data => do
      let _ ← parseTableMapEvent data
  | rows fuel data => do
      let _ ← parseRowsEvent fuel data
  | query data => do
      let _ ← parseQueryEvent data
  | rotate data => do
      let _ ← parseRotateEvent data
  | xid data => do
      let _ ← parseXidEvent data
  | formatDescription data => do
      let _ ← parseFormatDescriptionEvent data
  | unknown data => do
      let _ ← parseUnknownEvent data

/-- A call that returns or raises leads to a state; one that exceeds its bound does not. -/
def parseStep (processor : BinlogProcessor) (call : ParseCall) : Option BinlogProcessor :=
  match call.perform processor with
  | .ok _ after => some after
  | .error .outOfFuel _ => none
  | .error _ after => some after

/-- The ids of the tables are 48-bit numbers. -/
def IdsFit (processor : BinlogProcessor) : Prop :=
  ∀ tableId ti, processor.tableMap tableId = some ti → tableId < 2 ^ 48

/-- A computation that does not break `IdsFit`. -/
def KeepsIds {Result : Type} (action : ProcessorM Result) : Prop :=
  Stateful.Respects (fun before after => IdsFit before → IdsFit after) (fun _ => True) action

namespace KeepsIds

variable {First Second : Type}

theorem pure (value : First) : KeepsIds (Pure.pure value : ProcessorM First) :=
  fun _ => id

theorem bind {action : ProcessorM First} {next : First → ProcessorM Second}
    (first : KeepsIds action) (second : ∀ value, KeepsIds (next value)) :
    KeepsIds (action >>= next) := by
  refine Stateful.Respects.bind ?_ first second
  intro before middle after earlier later fits
  exact later (earlier fits)

theorem reading (data : Bytes) (action : ReaderM First) :
    KeepsIds (BinlogProcessor.reading data action) := by
  intro processor
  simp only [BinlogProcessor.reading]
  cases action (.ofString data) with
  | ok result after => exact id
  | error stop after => exact ⟨id, trivial⟩

theorem setPosition (position : ℕ) : KeepsIds (BinlogProcessor.setPosition position) :=
  fun _ => id

theorem parseTableMapEvent (data : Bytes) : KeepsIds (BinlogProcessor.parseTableMapEvent data) := by
  intro processor
  cases ends : readTableMapEvent (.ofString data) with
  | ok result after =>
      have read : BinlogProcessor.reading data readTableMapEvent processor =
          .ok result processor := by
        simp only [BinlogProcessor.reading, ends]
      have newIdFits := (readTableMapEvent_event _ _ _ ends).1
      rw [BinlogProcessor.parseTableMapEvent, Stateful.bind_of_ok read]
      intro fits tableId ti known
      by_cases new : tableId = result.1.tableId
      · rw [new]
        exact newIdFits
      · refine fits tableId ti ?_
        rw [← known]
        exact (Function.update_of_ne new _ _).symm
  | error stop after =>
      have read : BinlogProcessor.reading data readTableMapEvent processor =
          .error stop processor := by
        simp only [BinlogProcessor.reading, ends]
      rw [BinlogProcessor.parseTableMapEvent, Stateful.bind_of_error read]
      exact ⟨id, trivial⟩

/-- A parsing function that reads an event and then only sets the position. -/
theorem readingThenPosition (data : Bytes) (action : ReaderM First) (position : First → ℕ) :
    KeepsIds (do
      let ev ← BinlogProcessor.reading data action
      BinlogProcessor.setPosition (position ev)
      return ev) :=
  bind (reading data action) fun _ => bind (setPosition _) fun _ => pure _

theorem perform (call : ParseCall) : KeepsIds call.perform := by
  cases call with
  | tableMap data => exact bind (parseTableMapEvent data) fun _ => pure ()
  | rows fuel data =>
      have state : KeepsIds (get : ProcessorM BinlogProcessor) := fun _ => id
      exact bind (bind state fun _ => readingThenPosition data _ _) fun _ => pure ()
  | query data => exact bind (readingThenPosition data _ _) fun _ => pure ()
  | rotate data =>
      refine bind (bind (reading data readRotateEvent) fun ev => ?_) fun _ => pure ()
      have renamed : KeepsIds (modify fun processor : BinlogProcessor =>
          { processor with filename := ev.nextFilename } : ProcessorM Unit) := fun _ => id
      exact bind renamed fun _ => bind (setPosition _) fun _ => pure _
  | xid data => exact bind (readingThenPosition data _ _) fun _ => pure ()
  | formatDescription data => exact bind (readingThenPosition data _ _) fun _ => pure ()
  | unknown data =>
      refine bind ?_ fun _ => pure ()
      unfold parseUnknownEvent
      dsimp only
      split
      · intro processor
        exact ⟨id, trivial⟩
      · exact readingThenPosition data _ _

end KeepsIds

theorem idsFit_of_parseStep {processor next : BinlogProcessor} {call : ParseCall}
    (fits : IdsFit processor) (stepped : parseStep processor call = some next) : IdsFit next := by
  have keeps := KeepsIds.perform call processor
  simp only [parseStep] at stepped
  cases ends : call.perform processor with
  | ok _ after =>
      rw [ends] at keeps stepped
      cases stepped
      exact keeps fits
  | error stop after =>
      rw [ends] at keeps stepped
      cases stop with
      | outOfFuel => cases stepped
      | raised exception =>
          cases stepped
          exact keeps.1 fits
      | undefined operation =>
          cases stepped
          exact keeps.1 fits

theorem idsFit_of_run {calls : List ParseCall} {processor : BinlogProcessor}
    (reached : Transition.run parseStep create calls = some processor) : IdsFit processor := by
  have initial : IdsFit create := by
    intro tableId ti known
    cases known
  have throughout : Transition.Throughout parseStep IdsFit create calls := by
    apply Transition.throughout_of_preserved _ initial
    intro before call next fits stepped
    exact idsFit_of_parseStep fits stepped
  exact throughout calls [] processor (List.append_nil calls).symm reached

/-- The loop over the rows ends on every event, and each of its iterations that does not raise
takes at least one byte. -/
structure RowsTerminate (processor : BinlogProcessor) : Prop where
  ends : ∀ data, ∃ fuel, ∀ after, parseRowsEvent fuel data processor ≠ .error .outOfFuel after
  consumes : ∀ data ev started, readRowsEventStart processor.tableMap (.ofString data) =
    .ok ev started → ∀ writeType preimage reader rc after, reader.rest ≠ [] →
    readRowChange ev.ti writeType preimage reader = .ok rc after →
    after.rest.length < reader.rest.length

/-- Every table that rows events can refer to has a column. -/
def TablesHaveColumns (processor : BinlogProcessor) : Prop :=
  ∀ tableId ti, tableId ≠ 0xFFFFFF → processor.tableMap tableId = some ti → ti.columns ≠ []

variable {processor : BinlogProcessor}

theorem TablesHaveColumns.of_started (haveColumns : TablesHaveColumns processor)
    {ev : BinlogRowsEvent}
    (started : readRowsEventStart processor.tableMap reader = .ok ev after) :
    ev.ti.columns ≠ [] := by
  rcases readRowsEventStart_known processor.tableMap reader ev after started with
    ⟨usable, known⟩
  exact haveColumns ev.tableId ev.ti usable known

/-- The bytes of the event are a bound for its rows. -/
theorem parseRowsEvent_ne_outOfFuel (haveColumns : TablesHaveColumns processor) (data : Bytes)
    (stopped : BinlogProcessor) :
    parseRowsEvent (data.length + 1) data processor ≠ .error .outOfFuel stopped := by
  intro stuck
  rw [parseRowsEvent_eq] at stuck
  cases ends : readRowsEvent processor.tableMap (data.length + 1) (.ofString data) with
  | ok ev last =>
      rw [ends] at stuck
      cases stuck
  | error stop last =>
      rw [ends] at stuck
      cases stuck
      cases started : readRowsEventStart processor.tableMap (.ofString data) with
      | error stop middle =>
          rw [readRowsEvent, Stateful.bind_of_error started] at ends
          cases ends
          exact ((Shrinks.readRowsEventStart processor.tableMap).of_error started).2 rfl
      | ok ev middle =>
          have shrinks := (Shrinks.readRowsEventStart processor.tableMap).of_ok started
          have enough : middle.rest.length < data.length + 1 := Nat.lt_succ_of_le shrinks
          rw [readRowsEvent, Stateful.bind_of_ok started] at ends
          cases loop : readRowChanges ev.ti ev.writeType (hasPreimage ev.header.type)
              (data.length + 1) middle with
          | ok changes after =>
              rw [Stateful.bind_of_ok loop] at ends
              cases ends
          | error stop after =>
              rw [Stateful.bind_of_error loop] at ends
              cases ends
              exact readRowChanges_ne_outOfFuel (haveColumns.of_started started) _ middle enough
                _ loop

/-- An event with the rows of a table without columns. -/
def emptyRows : RowsEventDef [] where
  header := sampleHeader 23
  writeType := .insert
  v2 := false
  flags := 1
  extraData := []
  presentBitmaps := [[]]
  changes := []
  headerFits := sampleHeader_fits 23
  headerType := rfl
  flagsFit := sampleRows.flagsFit
  extraDataFits := sampleRows.extraDataFits
  presentCount := rfl
  presentPacks := by decide

/-- One byte behind the header of a rows event of a table without columns is never taken. -/
theorem parseRowsEvent_of_no_columns {tableId : ℕ} (fits : tableId < 2 ^ 48)
    (usable : tableId ≠ 0xFFFFFF) (known : processor.tableMap tableId = some ti)
    (empty : ti.columns = []) (fuel : ℕ) :
    parseRowsEvent fuel (emptyRows.encodeStart tableId ++ [0]) processor =
      .error .outOfFuel processor := by
  have columnCount : ti.columns.length = ([] : List ColumnDef).length := by rw [empty]; rfl
  have started := decodes_readRowsEventStart emptyRows (by decide) fits usable known columnCount
    0 [0]
  have loop : readRowChanges ti .insert false fuel
      ⟨0 + (emptyRows.encodeStart tableId).length, [0]⟩ =
      .error .outOfFuel ⟨0 + (emptyRows.encodeStart tableId).length, [0]⟩ :=
    readRowChanges_of_no_columns empty (by simp) fuel
  have read : readRowsEvent processor.tableMap fuel
      (.ofString (emptyRows.encodeStart tableId ++ [0])) =
      .error .outOfFuel ⟨0 + (emptyRows.encodeStart tableId).length, [0]⟩ := by
    rw [readRowsEvent, StringReader.ofString, Stateful.bind_of_ok started]
    exact Stateful.bind_of_error loop
  rw [parseRowsEvent_eq, read]

/-- In every state that parsing can reach, the loop over the rows ends on every event if and only
if every table that rows events can refer to has a column. -/
theorem rowsTerminate_iff {calls : List ParseCall}
    (reached : Transition.run parseStep create calls = some processor) :
    RowsTerminate processor ↔ TablesHaveColumns processor := by
  constructor
  · intro terminate tableId ti usable known empty
    have fits := idsFit_of_run reached tableId ti known
    rcases terminate.ends (emptyRows.encodeStart tableId ++ [0]) with ⟨fuel, ends⟩
    exact ends processor (parseRowsEvent_of_no_columns fits usable known empty fuel)
  · intro haveColumns
    constructor
    · intro data
      exact ⟨data.length + 1, parseRowsEvent_ne_outOfFuel haveColumns data⟩
    · intro data ev started begun writeType preimage reader rc after more read
      exact readRowChange_lt (haveColumns.of_started begun) more read

theorem run_sampleMap : Transition.run parseStep create [.tableMap sampleMap.encode] =
    some (create.mapped sampleMap) := by
  have performed : (ParseCall.tableMap sampleMap.encode).perform create =
      .ok () (create.mapped sampleMap) :=
    Stateful.bind_of_ok (parseTableMapEvent_encode sampleMap create)
  refine Transition.run_cons_eq_some.mpr ⟨create.mapped sampleMap, ?_, rfl⟩
  rw [parseStep, performed]

theorem rowsTerminate_sampleTable :
    Transition.run parseStep create [.tableMap sampleMap.encode] = some (create.mapped sampleMap) ∧
      RowsTerminate (create.mapped sampleMap) := by
  refine ⟨run_sampleMap, (rowsTerminate_iff run_sampleMap).mpr ?_⟩
  intro tableId ti usable known
  by_cases isSample : tableId = 66
  · subst isSample
    cases known
    exact List.cons_ne_nil _ _
  · have unknown : (create.mapped sampleMap).tableMap tableId = none :=
      Function.update_of_ne isSample _ _
    rw [unknown] at known
    cases known

/-- A table map event for the id 66 that describes no columns. -/
def emptyTableMap : Bytes :=
  (sampleHeader 19).encode ++ leBytes 6 66 ++ leBytes 2 1 ++ [1, 0x64, 0, 1, 0x74, 0, 0, 0]

theorem not_rowsTerminate_emptyTableMap :
    ∃ processor, Transition.run parseStep create [.tableMap emptyTableMap] = some processor ∧
      ¬RowsTerminate processor := by
  refine ⟨{ create with
    position := 200
    tableMap := Function.update create.tableMap 66 (some ⟨[0x64], [0x74], []⟩) }, by rfl, ?_⟩
  intro terminate
  rcases terminate.ends (emptyRows.encodeStart 66 ++ [0]) with ⟨fuel, ends⟩
  exact ends _ (parseRowsEvent_of_no_columns (by decide) (by decide) rfl rfl fuel)

end BinlogProcessor

end EventAsync.MySQL
