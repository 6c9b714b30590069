import EventAsync.MySQL.BinlogRows

/-!
# The events of a binlog

Besides the table maps and the rows there are events for statements that are
logged as text, for the ends of transactions and of files and for the format of
the log.  All other events are left alone behind their headers.  An event is
admissible if it refers to a table that the table map events before it have
described; such an event is parsed to what it was made of, and the processor
keeps the tables and the position that the events so far stand for.
-/

namespace EventAsync.MySQL

open ByteCodec Decoding StringReader BinlogProcessor

/-- Event types that no parsing function tests for. -/
def stopEvent : UInt8 := 3

def formatDescriptionEvent : UInt8 := 15

def anonymousGtidEvent : UInt8 := 34

def previousGtidsEvent : UInt8 := 35

/-- A query event: what the encoding leaves open, within its range. -/
structure QueryEventDef where
  header : BinlogEventHeader
  connId : ℕ
  execTimeSecs : ℕ
  errorCode : ℕ
  statusVars : Bytes
  databaseName : Bytes
  databaseNameEnd : UInt8
  query : Bytes
  headerFits : header.Fits
  headerType : header.type = BinlogEventType.queryEvent.code
  connIdFits : connId < 2 ^ 32
  execTimeSecsFits : execTimeSecs < 2 ^ 32
  errorCodeFits : errorCode < 2 ^ 16
  statusVarsFit : statusVars.length < 2 ^ 16
  databaseNameFits : databaseName.length < 256

namespace QueryEventDef

def body (query : QueryEventDef) : Bytes :=
  leBytes 4 query.connId ++ (leBytes 4 query.execTimeSecs ++
    ([UInt8.ofNat query.databaseName.length] ++ (leBytes 2 query.errorCode ++
    ((leBytes 2 query.statusVars.length ++ query.statusVars) ++ (query.databaseName ++
    ([query.databaseNameEnd] ++ query.query))))))

/-- The event as the processor returns it. -/
def event (query : QueryEventDef) : BinlogQueryEvent where
  header := query.header
  connId := query.connId
  execTimeSecs := query.execTimeSecs
  databaseName := query.databaseName
  errorCode := query.errorCode
  statusVars := query.statusVars
  query := query.query

end QueryEventDef

structure RotateEventDef where
  header : BinlogEventHeader
  nextPosition : ℕ
  nextFilename : Bytes
  headerFits : header.Fits
  headerType : header.type = BinlogEventType.rotateEvent.code
  nextPositionFits : nextPosition < 2 ^ 64

namespace RotateEventDef

def body (rotate : RotateEventDef) : Bytes :=
  leBytes 8 rotate.nextPosition ++ rotate.nextFilename

def event (rotate : RotateEventDef) : BinlogRotateEvent where
  header := rotate.header
  nextFilename := rotate.nextFilename
  nextPosition := rotate.nextPosition

end RotateEventDef

structure XidEventDef where
  header : BinlogEventHeader
  xid : ℕ
  ignored : Bytes
  headerFits : header.Fits
  headerType : header.type = BinlogEventType.xidEvent.code
  xidFits : xid < 2 ^ 64

namespace XidEventDef

def body (xid : XidEventDef) : Bytes :=
  leBytes 8 xid.xid ++ xid.ignored

def event (xid : XidEventDef) : BinlogXidEvent where
  header := xid.header
  xid := xid.xid

end XidEventDef

/-- A format description event of version 4 whose list of header lengths begins as expected. -/
structure FormatDescriptionDef where
  header : BinlogEventHeader
  serverVersion : Bytes
  timestamp : ℕ
  eventHeaderLengths : Bytes
  headerFits : header.Fits
  headerType : header.type = formatDescriptionEvent
  serverVersionFits : serverVersion.length = 50
  timestampFits : timestamp < 2 ^ 32
  expected : expectedHeaderLengths.take (min eventHeaderLengths.length 40) =
    eventHeaderLengths.take (min eventHeaderLengths.length 40)

namespace FormatDescriptionDef

def body (format : FormatDescriptionDef) : Bytes :=
  leBytes 2 4 ++ (format.serverVersion ++ (leBytes 4 format.timestamp ++ ([0x13] ++
    format.eventHeaderLengths)))

def event (format : FormatDescriptionDef) : BinlogFormatDescriptionEvent where
  header := format.header
  version := 4
  serverVersion := format.serverVersion.takeWhile (· ≠ 0)
  timestamp := format.timestamp
  headerLength := 0x13
  eventHeaderLengths := format.eventHeaderLengths

end FormatDescriptionDef

/-- The types of the events that are parsed beyond their headers. -/
def parsedTypes : List UInt8 :=
  [BinlogEventType.queryEvent.code, BinlogEventType.rotateEvent.code, formatDescriptionEvent,
    BinlogEventType.xidEvent.code, BinlogEventType.tableMapEvent.code,
    BinlogEventType.writeRowsEventV0.code, BinlogEventType.updateRowsEventV0.code,
    BinlogEventType.deleteRowsEventV0.code, BinlogEventType.writeRowsEventV1.code,
    BinlogEventType.updateRowsEventV1.code, BinlogEventType.deleteRowsEventV1.code,
    BinlogEventType.writeRowsEventV2.code, BinlogEventType.updateRowsEventV2.code,
    BinlogEventType.deleteRowsEventV2.code]

structure OtherEventDef where
  header : BinlogEventHeader
  body : Bytes
  headerFits : header.Fits
  headerType : header.type ∉ parsedTypes

inductive LogEvent where
  | tableMap (table : TableDef) (map : TableMapDef table)
  | rows (table : TableDef) (tableId : ℕ) (event : RowsEventDef table.columns)
  | query (event : QueryEventDef)
  | rotate (event : RotateEventDef)
  | xid (event : XidEventDef)
  | formatDescription (event : FormatDescriptionDef)
  | other (event : OtherEventDef)

namespace LogEvent

def header : LogEvent → BinlogEventHeader
  | tableMap _ map => map.header
  | rows _ _ event => event.header
  | query event => event.header
  | rotate event => event.header
  | xid event => event.header
  | formatDescription event => event.header
  | other event => event.header

def encode : LogEvent → Bytes
  | tableMap _ map => map.encode
  | rows _ tableId event => event.encode tableId
  | query event => event.header.encode ++ event.body
  | rotate event => event.header.encode ++ event.body
  | xid event => event.header.encode ++ event.body
  | formatDescription event => event.header.encode ++ event.body
  | other event => event.header.encode ++ event.body

/-- The tables that are described when a number of events have been logged. -/
abbrev Tables := ℕ → Option TableDef

def describe (tables : Tables) : LogEvent → Tables
  | tableMap table map => Function.update tables map.tableId (some table)
  | _ => tables

/-- The rows of an event belong to the table that its id stands for. -/
def Admissible (tables : Tables) : LogEvent → Prop
  | rows table tableId _ => tables tableId = some table
  | _ => True

theorem headerFits (event : LogEvent) : event.header.Fits := by
  cases event with
  | tableMap table map => exact map.headerFits
  | rows table tableId event => exact event.headerFits
  | query event => exact event.headerFits
  | rotate event => exact event.headerFits
  | xid event => exact event.headerFits
  | formatDescription event => exact event.headerFits
  | other event => exact event.headerFits

/-- Every event starts with its header. -/
theorem exists_encode_eq (event : LogEvent) :
    ∃ body, event.encode = event.header.encode ++ body := by
  cases event with
  | tableMap table map =>
      simp only [encode, TableMapDef.encode, TableMapDef.encodeUsed, List.append_assoc]
      exact ⟨_, rfl⟩
  | rows table tableId event =>
      simp only [encode, RowsEventDef.encode, RowsEventDef.encodeStart, List.append_assoc]
      exact ⟨_, rfl⟩
  | query event => exact ⟨_, rfl⟩
  | rotate event => exact ⟨_, rfl⟩
  | xid event => exact ⟨_, rfl⟩
  | formatDescription event => exact ⟨_, rfl⟩
  | other event => exact ⟨_, rfl⟩

end LogEvent

/-- The processor after an event has been parsed. -/
def BinlogProcessor.logged (processor : BinlogProcessor) (event : LogEvent) : BinlogProcessor where
  filename :=
    match event with
    | .rotate rotate => rotate.nextFilename
    | _ => processor.filename
  position :=
    match event with
    | .rotate rotate => rotate.nextPosition
    | _ => event.header.endPosition
  tableMap :=
    match event with
    | .tableMap table map =>
        Function.update processor.tableMap map.tableId (some table.info)
    | _ => processor.tableMap

/-- The processor keeps the tables that have been described. -/
structure LogEvent.Tracks (tables : LogEvent.Tables) (processor : BinlogProcessor) : Prop where
  tableMap_eq : processor.tableMap = fun tableId => (tables tableId).map TableDef.info
  fits : ∀ tableId table, tables tableId = some table → tableId < 2 ^ 48 ∧ tableId ≠ 0xFFFFFF

namespace LogEvent

theorem tracks_create : Tracks (fun _ => none) BinlogProcessor.create where
  tableMap_eq := rfl
  fits := nofun

/-- A processor that keeps the tables does so after the next event. -/
theorem Tracks.logged {tables : Tables} {processor : BinlogProcessor}
    (tracks : Tracks tables processor) (event : LogEvent) :
    Tracks (event.describe tables) (processor.logged event) := by
  cases event with
  | tableMap table map =>
      constructor
      · funext tableId
        simp only [BinlogProcessor.logged, describe, tracks.tableMap_eq]
        by_cases same : tableId = map.tableId
        · simp [same]
        · simp [same]
      · intro tableId other described
        by_cases same : tableId = map.tableId
        · rw [same]
          exact ⟨map.tableIdFits, map.tableIdUsable⟩
        · rw [describe, Function.update_of_ne same] at described
          exact tracks.fits tableId other described
  | _ => exact ⟨tracks.tableMap_eq, tracks.fits⟩

theorem exhausts_getStringEof (rest : Bytes) : Exhausts StringReader.mk getStringEof rest rest := by
  intro offset
  have counted : remaining ⟨offset, rest⟩ = .ok rest.length ⟨offset, rest⟩ := rfl
  rw [getStringEof, Stateful.bind_of_ok counted]
  simp [StringReader.read]

theorem exhausts_readQueryEvent (event : QueryEventDef) :
    Exhausts StringReader.mk readQueryEvent (query event).encode event.event := by
  have rightType : ¬event.header.type ≠ BinlogEventType.queryEvent.code :=
    not_not.mpr event.headerType
  apply (BinlogEventHeader.decodes_getBinlogEventHeader event.headerFits).bind_exhausts
  rw [if_neg rightType]
  apply (decodes_getLe event.connIdFits).bind_exhausts
  apply (decodes_getLe event.execTimeSecsFits).bind_exhausts
  apply (decodes_getU8 _).bind_exhausts
  apply (decodes_getLe event.errorCodeFits).bind_exhausts
  rw [List.append_assoc]
  apply (decodes_getLe event.statusVarsFit).bind_exhausts
  apply (decodes_read rfl).bind_exhausts
  apply (decodes_read (toNat_ofNat_length event.databaseNameFits).symm).bind_exhausts
  apply (decodes_skip_one _).bind_exhausts
  exact (exhausts_getStringEof event.query).bind_ok fun _ => rfl

theorem exhausts_readRotateEvent (event : RotateEventDef) :
    Exhausts StringReader.mk readRotateEvent (rotate event).encode event.event := by
  have rightType : ¬event.header.type ≠ BinlogEventType.rotateEvent.code :=
    not_not.mpr event.headerType
  apply (BinlogEventHeader.decodes_getBinlogEventHeader event.headerFits).bind_exhausts
  rw [if_neg rightType]
  apply (decodes_getLe event.nextPositionFits).bind_exhausts
  exact (exhausts_getStringEof event.nextFilename).bind_ok fun _ => rfl

/-- What follows the number of the transaction is not read. -/
theorem decodes_readXidEvent (event : XidEventDef) :
    Decodes StringReader.mk readXidEvent (event.header.encode ++ leBytes 8 event.xid)
      event.event := by
  have rightType : ¬event.header.type ≠ BinlogEventType.xidEvent.code :=
    not_not.mpr event.headerType
  apply (BinlogEventHeader.decodes_getBinlogEventHeader event.headerFits).bind
  rw [if_neg rightType]
  exact (decodes_getLe event.xidFits).bind_pure

theorem exhausts_readFormatDescriptionEvent (event : FormatDescriptionDef) :
    Exhausts StringReader.mk readFormatDescriptionEvent (formatDescription event).encode
      event.event := by
  apply (BinlogEventHeader.decodes_getBinlogEventHeader event.headerFits).bind_exhausts
  apply (decodes_getLe (by decide)).bind_exhausts
  apply (decodes_read event.serverVersionFits).bind_exhausts
  apply (decodes_getLe event.timestampFits).bind_exhausts
  apply (decodes_getU8 0x13).bind_exhausts
  rw [if_neg (not_not.mpr rfl)]
  apply (exhausts_getStringEof event.eventHeaderLengths).bind_ok
  intro reader
  dsimp only
  rw [if_neg (not_not.mpr event.expected)]
  rfl

section Parsing

variable {processor : BinlogProcessor}

theorem reading_of_exhausts {Event : Type} {action : ReaderM Event} {data : Bytes} {ev : Event}
    (exhausts : Exhausts StringReader.mk action data ev) :
    reading data action processor = .ok ev processor := by
  simp only [reading, StringReader.ofString, exhausts 0]

theorem reading_of_decodes {Event : Type} {action : ReaderM Event} {data rest : Bytes} {ev : Event}
    (decodes : Decodes StringReader.mk action data ev) :
    reading (data ++ rest) action processor = .ok ev processor := by
  simp only [reading, StringReader.ofString, decodes 0 rest]

theorem parseTableMapEvent_logged (table : TableDef) (map : TableMapDef table) :
    parseTableMapEvent (tableMap table map).encode processor =
      .ok map.event (processor.logged (tableMap table map)) :=
  parseTableMapEvent_encode map processor

/-- The rows of an admissible event are read with the columns of its table. -/
theorem parseRowsEvent_logged {tables : Tables} (tracks : Tracks tables processor)
    {table : TableDef} {tableId : ℕ} (described : tables tableId = some table)
    (event : RowsEventDef table.columns) {fuel : ℕ} (enough : event.changes.length < fuel) :
    parseRowsEvent fuel (rows table tableId event).encode processor =
      .ok (event.event tableId table.info) (processor.logged (rows table tableId event)) := by
  have known : processor.tableMap tableId = some table.info := by
    simp [tracks.tableMap_eq, described]
  rcases tracks.fits tableId table described with ⟨fits, usable⟩
  have columnsFit : table.columns.length < 2 ^ 64 := table.columnsFit.trans (by norm_num)
  rcases readRowsEvent_ok event table.nonempty columnsFit fits usable known rfl enough with
    ⟨after, read⟩
  rw [encode, parseRowsEvent_eq, read]
  rfl

theorem parseQueryEvent_logged (event : QueryEventDef) :
    parseQueryEvent (query event).encode processor =
      .ok event.event (processor.logged (query event)) :=
  Stateful.bind_of_ok (reading_of_exhausts (exhausts_readQueryEvent event))

theorem parseRotateEvent_logged (event : RotateEventDef) :
    parseRotateEvent (rotate event).encode processor =
      .ok event.event (processor.logged (rotate event)) :=
  Stateful.bind_of_ok (reading_of_exhausts (exhausts_readRotateEvent event))

theorem parseXidEvent_logged (event : XidEventDef) :
    parseXidEvent (xid event).encode processor =
      .ok event.event (processor.logged (xid event)) := by
  have read : reading (xid event).encode readXidEvent processor = .ok event.event processor := by
    rw [encode, XidEventDef.body, ← List.append_assoc]
    exact reading_of_decodes (decodes_readXidEvent event)
  exact Stateful.bind_of_ok read

theorem parseFormatDescriptionEvent_logged (event : FormatDescriptionDef) :
    parseFormatDescriptionEvent (formatDescription event).encode processor =
      .ok event.event (processor.logged (formatDescription event)) :=
  Stateful.bind_of_ok (reading_of_exhausts (exhausts_readFormatDescriptionEvent event))

theorem length_encode_ge (event : LogEvent) : 19 ≤ event.encode.length := by
  rcases event.exists_encode_eq with ⟨body, encoded⟩
  simp [encoded, BinlogEventHeader.encode]
  omega

/-- The header of an event can be read alone. -/
theorem reading_header (event : LogEvent) :
    reading event.encode getBinlogEventHeader processor = .ok event.header processor := by
  rcases event.exists_encode_eq with ⟨body, encoded⟩
  rw [encoded]
  exact reading_of_decodes (BinlogEventHeader.decodes_getBinlogEventHeader event.headerFits)

theorem parseUnknownEvent_logged (event : OtherEventDef) :
    parseUnknownEvent (other event).encode processor =
      .ok event.header (processor.logged (other event)) := by
  have long : ¬(other event).encode.length < 19 := Nat.not_lt.mpr (length_encode_ge _)
  rw [parseUnknownEvent, if_neg long]
  exact Stateful.bind_of_ok (reading_header (other event))

end Parsing

end LogEvent

end EventAsync.MySQL
