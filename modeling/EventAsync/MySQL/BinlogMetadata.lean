import EventAsync.MySQL.BinlogState

/-!
# The metadata of columns

A table map event holds the metadata of all its columns in one block, which is
cut into the part of each column by the column's type.  The block is read with
a function that returns fewer bytes if fewer are left, and only bytes that are
left over at the end are rejected, so a block that is too short is accepted and
the columns at its end are kept with less metadata than their types have.  Rows
events for such a table raise `invalid type options`; they do not if every
block is as long as the types call for.
-/

namespace EventAsync.MySQL

open ByteCodec StringReader

namespace BinlogProcessor

/-- The number of bytes of metadata that the types of some columns call for. -/
def metadataNeeded (columnTypes : Bytes) : ℕ :=
  (columnTypes.map fun type =>
    match metadataBytesForColumnType type (.ofString []) with
    | .ok size _ => size
    | .error _ _ => 0).sum

/-- The column types of a table map event and its block of metadata. -/
def readColumnMetadata : ReaderM (Bytes × Bytes) := do
  let header ← getBinlogEventHeader
  if header.type ≠ BinlogEventType.tableMapEvent.code then
    throw (.raised (.logicError "event is not a table map event"))
  let _ ← getU48l
  let _ ← getU16l
  let _ ← read (← getU8).toNat
  skip 1
  let _ ← read (← getU8).toNat
  skip 1
  let numColumns ← getVarint
  let columnTypes ← (List.range numColumns).mapM fun _ => getU8
  let columnTypeMetas ← getVarString
  return (columnTypes, columnTypeMetas)

/-- The block of metadata of a table map event is not shorter than its column types call for. -/
def ParseCall.MetadataSuffices : ParseCall → Prop
  | tableMap data =>
      ∀ columnTypes columnTypeMetas last,
        readColumnMetadata (.ofString data) = .ok (columnTypes, columnTypeMetas) last →
          metadataNeeded columnTypes ≤ columnTypeMetas.length
  | _ => True

/-- Every column that is kept has as much metadata as its type calls for. -/
def ColumnsFit (processor : BinlogProcessor) : Prop :=
  ∀ tableId ti, processor.tableMap tableId = some ti → ∀ ci ∈ ti.columns, ColumnFits ci

/-- Every column that is kept has as much metadata as its type calls for, and no rows event is
rejected for the metadata of a column. -/
structure MetadataFits (processor : BinlogProcessor) : Prop where
  columns : ColumnsFit processor
  rows : ∀ fuel data stop after, parseRowsEvent fuel data processor = .error stop after →
    ¬InvalidTypeOptions stop

/-- The size of the metadata of a type does not depend on what is read. -/
theorem metadataBytes_cases (type : UInt8) :
    (∃ size, ∀ reader, metadataBytesForColumnType type reader = .ok size reader) ∨
      ∃ stop, ∀ reader, metadataBytesForColumnType type reader = .error stop reader := by
  simp only [metadataBytesForColumnType]
  cases ColumnType.ofCode type with
  | none => exact Or.inr ⟨_, fun _ => rfl⟩
  | some columnType =>
      cases columnType with
      | tNull => exact Or.inr ⟨_, fun _ => rfl⟩
      | _ => exact Or.inl ⟨_, fun _ => rfl⟩

theorem metadataNeeded_cons {type : UInt8} {size : ℕ} {reader : StringReader}
    (sized : metadataBytesForColumnType type reader = .ok size reader) (columnTypes : Bytes) :
    metadataNeeded (type :: columnTypes) = size + metadataNeeded columnTypes := by
  rcases metadataBytes_cases type with ⟨other, always⟩ | ⟨stop, always⟩
  · rw [always reader] at sized
    cases sized
    simp [metadataNeeded, always]
  · rw [always reader] at sized
    cases sized

/-- One iteration of the loop over the columns. -/
theorem readColumnInfo_ok {type : UInt8} {nullable : Bool} {reader after : StringReader}
    {ci : ColumnInfo}
    (read : (do
      return {
        type := type
        typeMeta := ← StringReader.read (← metadataBytesForColumnType type)
        nullable := nullable } : ReaderM ColumnInfo) reader = .ok ci after) :
    ∃ size, metadataBytesForColumnType type reader = .ok size reader ∧ ci.type = type ∧
      ci.typeMeta = reader.rest.take size ∧ after.rest = reader.rest.drop size := by
  rcases Stateful.bind_eq_ok_iff.mp read with ⟨size, middle, sized, rest⟩
  rcases Stateful.bind_eq_ok_iff.mp rest with ⟨typeMeta, last, taken, same⟩
  rcases metadataBytes_cases type with ⟨other, always⟩ | ⟨stop, always⟩
  · rw [always reader] at sized
    cases sized
    cases taken
    cases same
    exact ⟨size, always reader, rfl, rfl, rfl⟩
  · rw [always reader] at sized
    cases sized

/-- A block that is long enough gives every column what its type calls for. -/
theorem columnFits_of_suffices (types : List (UInt8 × Bool)) {reader after : StringReader}
    {columns : List ColumnInfo}
    (enough : metadataNeeded (types.map Prod.fst) ≤ reader.rest.length)
    (read : readColumnInfos types reader = .ok columns after) : ∀ ci ∈ columns, ColumnFits ci := by
  induction types generalizing reader columns with
  | nil =>
      cases read
      simp
  | cons entry types ih =>
      rw [readColumnInfos, List.mapM_cons] at read
      rcases Stateful.bind_eq_ok_iff.mp read with ⟨ci, middle, first, rest⟩
      rcases Stateful.bind_eq_ok_iff.mp rest with ⟨others, last, later, same⟩
      cases same
      rcases readColumnInfo_ok first with ⟨size, sized, type, typeMeta, left⟩
      rw [List.map_cons, metadataNeeded_cons sized] at enough
      have tail : metadataNeeded (types.map Prod.fst) ≤ middle.rest.length := by
        rw [left, List.length_drop]
        omega
      intro column mem
      rcases List.mem_cons.mp mem with rfl | memLater
      · intro other
        have length : column.typeMeta.length = size := by
          rw [typeMeta, List.length_take]
          omega
        rw [type, length]
        rcases metadataBytes_cases entry.1 with ⟨fixed, always⟩ | ⟨stop, always⟩
        · rw [always reader] at sized
          cases sized
          exact always other
        · rw [always reader] at sized
          cases sized
      · exact ih tail later column memLater

theorem metadataNeeded_zip_le (columnTypes : Bytes) (columnsNullable : List Bool) :
    metadataNeeded ((columnTypes.zip columnsNullable).map Prod.fst) ≤
      metadataNeeded columnTypes := by
  induction columnTypes generalizing columnsNullable with
  | nil => simp
  | cons type columnTypes ih =>
      cases columnsNullable with
      | nil => simp [metadataNeeded]
      | cons nullable columnsNullable =>
          have tail := ih columnsNullable
          simp only [metadataNeeded, List.zip_cons_cons, List.map_cons, List.sum_cons] at tail ⊢
          omega

/-- What `parse_table_map_event` makes of the column types and the metadata of an event, with the
bitmap behind them. -/
theorem readTableMapEvent_columns {reader last : StringReader} {ev : BinlogTableMapEvent}
    {ti : BinlogTableInfo} (read : readTableMapEvent reader = .ok (ev, ti) last) :
    ∃ columnTypes columnTypeMetas columnsNullable middle,
      readColumnMetadata reader = .ok (columnTypes, columnTypeMetas) middle ∧
        getBitmask columnTypes.length middle = .ok columnsNullable last ∧
        columnInfos columnTypes columnTypeMetas columnsNullable = .ok ti.columns := by
  rw [readTableMapEvent] at read
  rcases Stateful.bind_eq_ok_iff.mp read with ⟨header, afterHeader, gotHeader, read⟩
  dsimp only at read
  split at read
  · cases read
  · rename_i isTableMap
    rcases Stateful.bind_eq_ok_iff.mp read with ⟨tableId, afterId, gotId, read⟩
    rcases Stateful.bind_eq_ok_iff.mp read with ⟨flags, afterFlags, gotFlags, read⟩
    rcases Stateful.bind_eq_ok_iff.mp read with ⟨databaseLength, afterLength, gotLength, read⟩
    rcases Stateful.bind_eq_ok_iff.mp read with ⟨databaseName, afterName, gotName, read⟩
    rcases Stateful.bind_eq_ok_iff.mp read with ⟨_, afterSkip, skipped, read⟩
    rcases Stateful.bind_eq_ok_iff.mp read with
      ⟨tableLength, afterTableLength, gotTableLength, read⟩
    rcases Stateful.bind_eq_ok_iff.mp read with ⟨tableName, afterTable, gotTable, read⟩
    rcases Stateful.bind_eq_ok_iff.mp read with ⟨_, afterSecondSkip, skippedAgain, read⟩
    rcases Stateful.bind_eq_ok_iff.mp read with ⟨numColumns, afterCount, gotCount, read⟩
    rcases Stateful.bind_eq_ok_iff.mp read with ⟨columnTypes, afterTypes, gotTypes, read⟩
    rcases Stateful.bind_eq_ok_iff.mp read with ⟨columnTypeMetas, afterMetas, gotMetas, read⟩
    rcases Stateful.bind_eq_ok_iff.mp read with ⟨columnsNullable, afterBits, gotBits, read⟩
    cases described : columnInfos columnTypes columnTypeMetas columnsNullable with
    | error stop =>
        rw [described] at read
        cases read
    | ok columns =>
        rw [described] at read
        cases read
        have length := Stateful.Returns.mapM_length _ _ _ _ gotTypes
        rw [List.length_range] at length
        rw [← length] at gotBits
        refine ⟨columnTypes, columnTypeMetas, columnsNullable, afterMetas, ?_, gotBits, described⟩
        rw [readColumnMetadata, Stateful.bind_of_ok gotHeader, if_neg isTableMap]
        dsimp only
        rw [Stateful.bind_of_ok gotId, Stateful.bind_of_ok gotFlags, Stateful.bind_of_ok gotLength,
          Stateful.bind_of_ok gotName, Stateful.bind_of_ok skipped,
          Stateful.bind_of_ok gotTableLength, Stateful.bind_of_ok gotTable,
          Stateful.bind_of_ok skippedAgain, Stateful.bind_of_ok gotCount,
          Stateful.bind_of_ok gotTypes, Stateful.bind_of_ok gotMetas]
        rfl

theorem columnInfos_length {columnTypes columnTypeMetas : Bytes} {columnsNullable : List Bool}
    {columns : List ColumnInfo}
    (described : columnInfos columnTypes columnTypeMetas columnsNullable = .ok columns) :
    columns.length ≤ columnTypes.length := by
  rw [columnInfos] at described
  split at described
  · rename_i infos typeMetaReader decoded
    split at described
    · cases described
      have length := Stateful.Returns.mapM_length _ _ _ _ decoded
      rw [length, List.length_zip]
      exact Nat.min_le_left _ _
    · cases described
  · cases described

/-- What the computation returns weighs no more than the bytes that it takes. -/
def Weighs {Result : Type} (weight : Result → ℕ) (action : ReaderM Result) : Prop :=
  ∀ ⦃reader value after⦄, action reader = .ok value after →
    weight value + after.rest.length ≤ reader.rest.length

namespace Weighs

variable {First Second : Type} {weight : Second → ℕ}

theorem behind {action : ReaderM First} {next : First → ReaderM Second} (reads : Reads False action)
    (later : ∀ value, Weighs weight (next value)) : Weighs weight (action >>= next) := by
  intro reader result after returned
  rcases Stateful.bind_eq_ok_iff.mp returned with ⟨value, middle, read, rest⟩
  exact (later value rest).trans (reads.shrinks.of_ok read)

theorem before {action : ReaderM First} {next : First → ReaderM Second} {earlier : First → ℕ}
    (weighs : Weighs earlier action) (reads : ∀ value, Reads False (next value))
    (same : ∀ value, Stateful.Returns (fun result => weight result = earlier value) (next value)) :
    Weighs weight (action >>= next) := by
  intro reader result after returned
  rcases Stateful.bind_eq_ok_iff.mp returned with ⟨value, middle, read, rest⟩
  have first := weighs read
  have second := (reads value).shrinks.of_ok rest
  have weight_eq := same value middle result after rest
  omega

theorem getU8 : Weighs (fun _ => 1) getU8 := by
  intro reader byte after returned
  rcases Nat.lt_or_ge reader.rest.length 1 with short | enough
  · rw [StringReader.getU8, Stateful.bind_of_error (getBytes_of_lt short)] at returned
    cases returned
  · rw [StringReader.getU8, Stateful.bind_of_ok (getBytes_of_le enough)] at returned
    cases returned
    simp only [List.length_drop]
    omega

theorem getU8s (indices : List ℕ) :
    Weighs List.length (indices.mapM fun _ => StringReader.getU8) := by
  intro reader bytes after returned
  induction indices generalizing reader bytes with
  | nil =>
      cases returned
      simp
  | cons index indices ih =>
      rw [List.mapM_cons] at returned
      rcases Stateful.bind_eq_ok_iff.mp returned with ⟨byte, middle, first, rest⟩
      rcases Stateful.bind_eq_ok_iff.mp rest with ⟨others, last, later, same⟩
      cases same
      have tail := ih later
      have taken := getU8 first
      simp only [List.length_cons] at taken ⊢
      omega

end Weighs

theorem weighs_readColumnMetadata :
    Weighs (fun metadata : Bytes × Bytes => metadata.1.length) readColumnMetadata := by
  apply Weighs.behind (.bind (.getBytes 19) fun _ => .pure _)
  intro header
  dsimp only
  split
  · intro reader value after returned
    cases returned
  · refine .behind (.getLe 6) fun _ => .behind (.getLe 2) fun _ => .behind .getU8 fun _ =>
      .behind (.read _) fun _ => .behind (.bind (.getBytes 1) fun _ => .pure _) fun _ =>
      .behind .getU8 fun _ => .behind (.read _) fun _ =>
      .behind (.bind (.getBytes 1) fun _ => .pure _) fun _ => .behind .getVarint fun _ => ?_
    refine .before (.getU8s _) (fun _ => .bind (.bind .getVarint fun _ => .read _) fun _ =>
      .pure _) fun columnTypes => ?_
    exact Stateful.Returns.bind_any fun _ => Stateful.Returns.pure rfl

/-- The bitmaps of rows events have a bit for each column of a table, so that the number of bits
plus 7 is below the limit of a `size_t`. -/
theorem columns_length_le_of_run {calls : List ParseCall} {processor : BinlogProcessor}
    (fit : ∀ data, .tableMap data ∈ calls → data.length ≤ stringMaxSize)
    (reached : Transition.run parseStep create calls = some processor) {tableId : ℕ}
    {ti : BinlogTableInfo} (known : processor.tableMap tableId = some ti) :
    ti.columns.length ≤ stringMaxSize := by
  rw [tableMap_of_run reached, latest] at known
  rcases described_of_latest known with ⟨call, mem, described⟩
  rcases read_of_described described with ⟨data, ev, last, rfl, read, _⟩
  rcases readTableMapEvent_columns read with ⟨columnTypes, _, _, _, metadata, _, columns⟩
  have short := fit data (by simpa using mem)
  have weighs := weighs_readColumnMetadata metadata
  have few := columnInfos_length columns
  simp only [StringReader.ofString] at weighs
  omega

theorem columnFits_of_described {call : ParseCall} (sufficient : call.MetadataSuffices) {named : ℕ}
    {ti : BinlogTableInfo} (described : call.described = some (named, ti)) :
    ∀ ci ∈ ti.columns, ColumnFits ci := by
  rcases read_of_described described with ⟨data, ev, last, rfl, read, _⟩
  rcases readTableMapEvent_columns read with
    ⟨columnTypes, columnTypeMetas, columnsNullable, middle, metadata, _, columns⟩
  have enough := sufficient columnTypes columnTypeMetas middle metadata
  simp only [columnInfos] at columns
  split at columns
  · rename_i infos typeMetaReader decoded
    split at columns
    · cases columns
      refine columnFits_of_suffices _ ?_ decoded
      exact (metadataNeeded_zip_le columnTypes columnsNullable).trans enough
    · cases columns
  · cases columns

/-- A computation that never rejects the metadata of a column. -/
def Accepts {Result : Type} (action : ReaderM Result) : Prop :=
  Stateful.Respects (fun _ _ => True) (fun stop => ¬InvalidTypeOptions stop) action

theorem accepts_of_reads {Result : Type} {typed : Prop} {action : ReaderM Result}
    (reads : Reads typed action) (holds : typed) : Accepts action :=
  reads.mono (fun _ _ _ => trivial) fun _ permitted => permitted.2 holds

namespace Accepts

variable {First Second : Type}

theorem pure (value : First) : Accepts (Pure.pure value : ReaderM First) :=
  Stateful.Respects.pure (fun _ => trivial) value

theorem throw {stop : Stop} (permitted : ¬InvalidTypeOptions stop) :
    Accepts (MonadExcept.throw stop : ReaderM First) :=
  Stateful.Respects.throw (fun _ => trivial) permitted

theorem bind {action : ReaderM First} {next : First → ReaderM Second} (first : Accepts action)
    (second : ∀ value, Accepts (next value)) : Accepts (action >>= next) :=
  Stateful.Respects.bind (fun _ _ _ _ _ => trivial) first second

variable {ti : BinlogTableInfo}

theorem readRowChange (fits : ∀ ci ∈ ti.columns, ColumnFits ci) (writeType : WriteType)
    (preimage : Bool) : Accepts (BinlogProcessor.readRowChange ti writeType preimage) :=
  accepts_of_reads (Reads.readRowChange (fun _ : True => fits) writeType preimage) trivial

theorem readRowChanges (fits : ∀ ci ∈ ti.columns, ColumnFits ci) (writeType : WriteType)
    (preimage : Bool) (fuel : ℕ) :
    Accepts (BinlogProcessor.readRowChanges ti writeType preimage fuel) := by
  induction fuel with
  | zero => exact throw (by decide)
  | succ fuel ih =>
      apply bind (fun _ => trivial)
      intro atEnd
      split
      · exact pure _
      · apply bind (readRowChange fits writeType preimage)
        intro _
        exact bind ih fun _ => pure _

theorem readRowsEventStart (tableMap : ℕ → Option BinlogTableInfo) :
    Accepts (BinlogProcessor.readRowsEventStart tableMap) :=
  accepts_of_reads (Reads.readRowsEventStart tableMap) trivial

end Accepts

/-- A rows event is not rejected for the metadata of columns that fit. -/
theorem rows_of_columnFits {processor : BinlogProcessor}
    (columns : ColumnsFit processor) {fuel : ℕ} {data : Bytes} {stop : Stop}
    {after : BinlogProcessor} (raised : parseRowsEvent fuel data processor = .error stop after) :
    ¬InvalidTypeOptions stop := by
  rw [parseRowsEvent_eq] at raised
  cases ends : readRowsEvent processor.tableMap fuel (.ofString data) with
  | ok ev last =>
      rw [ends] at raised
      cases raised
  | error stop' last =>
      rw [ends] at raised
      cases raised
      rw [readRowsEvent] at ends
      cases started : readRowsEventStart processor.tableMap (.ofString data) with
      | error stop' middle =>
          rw [Stateful.bind_of_error started] at ends
          cases ends
          exact ((Accepts.readRowsEventStart processor.tableMap).of_error started).2
      | ok ev middle =>
          rw [Stateful.bind_of_ok started] at ends
          have known := (readRowsEventStart_known processor.tableMap _ _ _ started).2
          have accepts := (Accepts.readRowChanges (columns ev.tableId ev.ti known) ev.writeType
            (hasPreimage ev.header.type) fuel).bind fun rows =>
              Accepts.pure { ev with rows := rows }
          exact (accepts.of_error ends).2

/-- A call whose block of metadata is long enough keeps the columns as they should be. -/
theorem columnFits_of_parseStep {processor next : BinlogProcessor} {call : ParseCall}
    (columns : ColumnsFit processor) (sufficient : call.MetadataSuffices)
    (stepped : parseStep processor call = some next) : ColumnsFit next := by
  intro tableId ti known
  rw [tableMap_of_parseStep stepped] at known
  cases described : call.described with
  | none =>
      rw [keeps_of_not_described described] at known
      exact columns tableId ti known
  | some entry =>
      rw [keeps_of_described described] at known
      by_cases same : tableId = entry.1
      · rw [same, Function.update_self] at known
        cases known
        exact columnFits_of_described sufficient described
      · rw [Function.update_of_ne same] at known
        exact columns tableId ti known

/-- In a run in which the block of metadata of every table map event is at least as long as its
column types call for, all columns that are kept have the metadata of their types in every state,
and no rows event is rejected for them. -/
theorem metadataFits_throughout {calls : List ParseCall}
    (sufficient : ∀ call ∈ calls, call.MetadataSuffices) :
    Transition.Throughout parseStep MetadataFits create calls := by
  have along : Transition.Along parseStep (fun _ call => call.MetadataSuffices) create calls :=
    Transition.along_of_mem sufficient
  have initial : ColumnsFit create := by
    intro tableId ti known
    cases known
  have columns : Transition.Throughout parseStep ColumnsFit create calls := by
    apply Transition.throughout_of_along _ initial along
    intro processor call next fits enough stepped
    exact columnFits_of_parseStep fits enough stepped
  exact columns.mono fun processor fits =>
    ⟨fits, fun _ _ _ _ raised => rows_of_columnFits fits raised⟩

theorem metadataFits_sampleMap :
    Transition.Throughout parseStep MetadataFits create [.tableMap sampleMap.encode] := by
  apply metadataFits_throughout
  intro call mem
  cases List.mem_singleton.mp mem
  intro columnTypes columnTypeMetas last read
  have enough : (match readColumnMetadata (.ofString sampleMap.encode) with
      | .ok (types, metas) _ => decide (metadataNeeded types ≤ metas.length)
      | .error _ _ => false) = true := by
    decide +kernel
  rw [read] at enough
  exact of_decide_eq_true enough

/-- A table map event for the id 66 with a column of type VARCHAR and an empty block of
metadata. -/
def unsizedTableMap : Bytes :=
  (sampleHeader 19).encode ++ leBytes 6 66 ++ leBytes 2 1 ++
    [1, 0x64, 0, 1, 0x74, 0, 1, 0x0F, 0, 0]

/-- The table that is kept for it, whose column lacks its two bytes of metadata. -/
def unsizedTable : BinlogTableInfo where
  databaseName := [0x64]
  tableName := [0x74]
  columns := [⟨0x0F, [], false⟩]

theorem not_metadataFits_unsizedTableMap :
    ¬Transition.Throughout parseStep MetadataFits create [.tableMap unsizedTableMap] := by
  intro throughout
  have described : (ParseCall.tableMap unsizedTableMap).described = some (66, unsizedTable) := by
    decide +kernel
  rcases perform_tableMap_cases unsizedTableMap create with ⟨_, _, undescribed⟩ |
    ⟨named, ti, after, returned, same, kept⟩
  · rw [described] at undescribed
    cases undescribed
  · rw [described] at same
    cases same
    have stepped : parseStep create (.tableMap unsizedTableMap) = some after := by
      rw [parseStep, returned]
    have fits := throughout [.tableMap unsizedTableMap] [] after rfl
      (Transition.run_cons_eq_some.mpr ⟨after, stepped, rfl⟩)
    have known : after.tableMap 66 = some unsizedTable := by rw [kept, Function.update_self]
    have column := fits.columns 66 unsizedTable known ⟨0x0F, [], false⟩
      (List.mem_singleton_self _) (.ofString [])
    cases column

end BinlogProcessor

end EventAsync.MySQL
