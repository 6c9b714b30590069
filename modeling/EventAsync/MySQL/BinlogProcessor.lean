import EventAsync.MySQL.StringReader
import EventAsync.Buffer

/-!
# The binlog processor

`BinlogProcessor` parses the events of a MySQL binlog, one string per event.  A
table map event tells the columns of a table, which are kept under the table's
id; the rows events that follow refer to the id, and the width of every cell
depends on the kept columns.

Each parsing function reads its string with a `StringReader` of its own and
changes the state of the processor only after everything has been read.
-/

namespace EventAsync.MySQL

open ByteCodec StringReader

inductive BinlogEventType where
  | queryEvent
  | rotateEvent
  | xidEvent
  | tableMapEvent
  | writeRowsEventV0
  | updateRowsEventV0
  | deleteRowsEventV0
  | writeRowsEventV1
  | updateRowsEventV1
  | deleteRowsEventV1
  | writeRowsEventV2
  | updateRowsEventV2
  | deleteRowsEventV2
  deriving DecidableEq

/-- The event types that the parsing functions test for. -/
def BinlogEventType.code : BinlogEventType → UInt8
  | queryEvent => 2
  | rotateEvent => 4
  | xidEvent => 16
  | tableMapEvent => 19
  | writeRowsEventV0 => 20
  | updateRowsEventV0 => 21
  | deleteRowsEventV0 => 22
  | writeRowsEventV1 => 23
  | updateRowsEventV1 => 24
  | deleteRowsEventV1 => 25
  | writeRowsEventV2 => 30
  | updateRowsEventV2 => 31
  | deleteRowsEventV2 => 32

structure ColumnInfo where
  type : UInt8
  typeMeta : Bytes
  nullable : Bool
  deriving DecidableEq

structure BinlogTableInfo where
  databaseName : Bytes
  tableName : Bytes
  columns : List ColumnInfo
  deriving DecidableEq

structure BinlogEventHeader where
  timestamp : ℕ
  type : UInt8
  serverId : ℕ
  length : ℕ
  endPosition : ℕ
  flags : ℕ
  deriving DecidableEq

structure BinlogTableMapEvent where
  header : BinlogEventHeader
  tableId : ℕ
  flags : ℕ
  ti : Option BinlogTableInfo
  deriving DecidableEq

inductive WriteType where
  | insert
  | update
  | delete
  deriving DecidableEq

structure RowChange where
  preBytes : ℕ := 0
  postBytes : ℕ := 0
  pre : List Value := []
  post : List Value := []
  deriving DecidableEq

structure BinlogRowsEvent where
  header : BinlogEventHeader
  writeType : WriteType
  tableId : ℕ
  ti : BinlogTableInfo
  flags : ℕ
  extraData : Bytes
  rows : List RowChange
  deriving DecidableEq

structure BinlogQueryEvent where
  header : BinlogEventHeader
  connId : ℕ
  execTimeSecs : ℕ
  databaseName : Bytes
  errorCode : ℕ
  statusVars : Bytes
  query : Bytes
  deriving DecidableEq

structure BinlogRotateEvent where
  header : BinlogEventHeader
  nextFilename : Bytes
  nextPosition : ℕ
  deriving DecidableEq

structure BinlogXidEvent where
  header : BinlogEventHeader
  xid : ℕ
  deriving DecidableEq

structure BinlogFormatDescriptionEvent where
  header : BinlogEventHeader
  version : ℕ
  serverVersion : Bytes
  timestamp : ℕ
  headerLength : UInt8
  eventHeaderLengths : Bytes
  deriving DecidableEq

structure BinlogProcessor where
  filename : Bytes
  position : ℕ
  tableMap : ℕ → Option BinlogTableInfo

/-- Conversion of a `char` to an `int`; `char` is signed. -/
def charToInt (byte : UInt8) : ℤ :=
  if byte < 0x80 then byte.toNat else (byte.toNat : ℤ) - 256

/-- Conversion of an `int` to a `size_t`. -/
def intToSize (number : ℤ) : ℕ :=
  (number % 2 ^ 64).toNat

namespace BinlogProcessor

/-- The constructor; the initial filename is `<missing-filename>`. -/
def create : BinlogProcessor where
  filename := "<missing-filename>".toUTF8.toList
  position := 4
  tableMap := fun _ => none

/-- `get<BinlogEventHeader>()`: the packed header of 19 bytes. -/
def getBinlogEventHeader : ReaderM BinlogEventHeader := do
  let bytes ← getBytes 19
  return {
    timestamp := leNat (bytes.take 4)
    type := (bytes.drop 4).headD 0
    serverId := leNat ((bytes.drop 5).take 4)
    length := leNat ((bytes.drop 9).take 4)
    endPosition := leNat ((bytes.drop 13).take 4)
    flags := leNat (bytes.drop 17) }

def readDatetimeFractionalPart (precision : UInt8) : ReaderM ℕ := do
  match precision with
  | 0 => return 0
  | 1 => return (← getU8).toNat * 10000
  | 2 => return (← getU8).toNat * 10000
  | 3 => return (← getU16b) * 100
  | 4 => return (← getU16b) * 100
  | 5 => getU24b
  | 6 => getU24b
  | _ => throw (.runtimeError "invalid time-like precision specifier")

/-- The length prefix of a blob, whose width is the only byte of metadata. -/
def readBlobSize (metaLength : UInt8) : ReaderM ℕ := do
  match metaLength with
  | 1 => return (← getU8).toNat
  | 2 => getU16l
  | 3 => getU24l
  | 4 => getU32l
  | _ => throw (.runtimeError "invalid blob-type meta-length")

/-- A string after a length prefix of two bytes if it may be longer than 255, else of one. -/
def readPrefixed (maxLength : ℕ) : ReaderM Bytes := do
  if 255 < maxLength then read (← getU16l) else read (← getU8).toNat

/-- The blob-like cells of `read_cell_data`. -/
def readBlobData (ci : ColumnInfo) : ReaderM Value := do
  if ci.typeMeta.length ≠ 1 then throw (.runtimeError "invalid type options")
  let size ← readBlobSize (ci.typeMeta.getD 0 0)
  return .string (← read size)

/-- The cells of `T_ENUM`, `T_SET` and `T_STRING` columns, which share a metadata format. -/
def readStringData (ci : ColumnInfo) : ReaderM Value := do
  if ci.typeMeta.length ≠ 2 then throw (.runtimeError "invalid type options")
  let subtype := ci.typeMeta.getD 0 0
  if subtype = ColumnType.tSet.code ∨ subtype = ColumnType.tEnum.code then
    return .string (← read (intToSize (charToInt (ci.typeMeta.getD 1 0))))
  else
    let maxDisplayWidth :=
      (((subtype.toNat <<< 4) &&& 0x300) ^^^ 0x300) + (ci.typeMeta.getD 1 0).toNat
    return .string (← readPrefixed maxDisplayWidth)

def readVarcharData (ci : ColumnInfo) : ReaderM Value := do
  if ci.typeMeta.length ≠ 2 then throw (.runtimeError "invalid type options")
  return .string (← readPrefixed (leNat ci.typeMeta))

/-- The fractional part is skipped. -/
def readTimestamp2Data (ci : ColumnInfo) : ReaderM Value := do
  let ret ← getU32l
  if ci.typeMeta.length ≠ 1 then throw (.raised (.logicError "invalid type options"))
  if ci.typeMeta.getD 0 0 ≠ 0 then
    let _ ← read (intToSize ((charToInt (ci.typeMeta.getD 0 0) + 1).tdiv 2))
  return .uint64 ret

def readDatetime2Data (ci : ColumnInfo) : ReaderM Value := do
  if ci.typeMeta.length ≠ 1 then throw (.raised (.logicError "invalid type options"))
  let high ← getU32b
  let low ← getU8
  let z := high * 256 + low.toNat
  let usecs ← readDatetimeFractionalPart (ci.typeMeta.getD 0 0)
  return .dateTime {
    years := sizeSub (z >>> 22) 131073 / 13 % 2 ^ 16
    months := ((z >>> 22) + 7) % 13
    days := (z >>> 17) &&& 0x1F
    hours := (z >>> 12) &&& 0x1F
    minutes := (z >>> 6) &&& 0x3F
    seconds := z &&& 0x3F
    usecs := usecs }

def readTime2Data (ci : ColumnInfo) : ReaderM Value := do
  if ci.typeMeta.length ≠ 1 then throw (.raised (.logicError "invalid type options"))
  let bits ← getU24b
  let isNegative := bits &&& 0x800000 = 0
  let z := if isNegative then (2 ^ 32 - bits) % 2 ^ 32 else bits
  let usecs ← readDatetimeFractionalPart (ci.typeMeta.getD 0 0)
  return .time {
    isNegative := isNegative
    hours := (z >>> 12) &&& 0x3FF
    minutes := (z >>> 6) &&& 0x3F
    seconds := z &&& 0x3F
    usecs := usecs }

def readCellData (ci : ColumnInfo) : ReaderM Value :=
  match ColumnType.ofCode ci.type with
  | some .tNull => return .null
  | some .tTinyint => return .uint64 (← getU8).toNat
  | some .tSmallint => return .uint64 (← getU16l)
  | some .tMediumint => return .uint64 (← getU24l)
  | some .tInt => return .uint64 (← getU32l)
  | some .tBigint => return .uint64 (← getU64l)
  | some .tFloat => return .float (← getF32l)
  | some .tDouble => return .double (← getF64l)
  | some .tTinyblob | some .tMediumblob | some .tLongblob | some .tBlob | some .tGeometry
  | some .tJson => readBlobData ci
  | some .tYear => return .uint64 (← getU8).toNat
  | some .tEnum | some .tSet | some .tString => readStringData ci
  | some .tVarchar => readVarcharData ci
  | some .tTimestamp => return .uint64 ((← getU32l) * 1000000)
  | some .tTimestamp2 => readTimestamp2Data ci
  | some .tDatetime2 => readDatetime2Data ci
  | some .tTime2 => readTime2Data ci
  | _ => throw (.runtimeError "unimplemented or invalid column type")

def metadataBytesForColumnType (type : UInt8) : ReaderM ℕ := do
  match ColumnType.ofCode type with
  | some .tNull =>
      throw (.raised (.logicError
        "T_NULL cannot be specified in a place where metadata is needed"))
  | some .tDate | some .tDatetime | some .tTime | some .tTimestamp | some .tTinyint
  | some .tSmallint | some .tMediumint | some .tInt | some .tBigint | some .tYear | some .tBool
  | some .tVarString | some .tNewdate => return 0
  | some .tTinyblob | some .tBlob | some .tMediumblob | some .tLongblob | some .tFloat
  | some .tDouble | some .tGeometry | some .tJson | some .tTimestamp2 | some .tTime2
  | some .tDatetime2 => return 1
  | some .tString | some .tVarchar | some .tDecimal | some .tNewdecimal | some .tEnum | some .tSet
  | some .tBit => return 2
  | none => throw (.runtimeError "unimplemented or invalid column type")

/-- One iteration of the loop of `read_row_data`. -/
def readCell (ci : ColumnInfo) (isNull : Bool) : ReaderM Value := do
  if isNull then
    if !ci.nullable then throw (.runtimeError "found null value in non-nullable column")
    return .null
  else readCellData ci

/-- The row has a cell for every column, so the check of its length at the end never fails. -/
def readRowData (ti : BinlogTableInfo) : ReaderM (List Value) := do
  let columnsNull ← getBitmask ti.columns.length
  (ti.columns.zip columnsNull).mapM fun (ci, isNull) => readCell ci isNull

/-- One iteration of the loop over the rows of an event. -/
def readRowChange (ti : BinlogTableInfo) (writeType : WriteType) (hasPreimage : Bool) :
    ReaderM RowChange := do
  let startOffset ← location
  match writeType with
  | .insert =>
      let post ← readRowData ti
      return { post := post, postBytes := (← location) - startOffset }
  | .update =>
      if hasPreimage then
        let pre ← readRowData ti
        let middleOffset ← location
        let post ← readRowData ti
        return {
          pre := pre
          preBytes := middleOffset - startOffset
          post := post
          postBytes := (← location) - middleOffset }
      else
        let post ← readRowData ti
        return { post := post, postBytes := (← location) - startOffset }
  | .delete =>
      let pre ← readRowData ti
      return { pre := pre, preBytes := (← location) - startOffset }

/-- The loop over the rows of an event, with a bound on its iterations. -/
def readRowChanges (ti : BinlogTableInfo) (writeType : WriteType) (hasPreimage : Bool) :
    ℕ → ReaderM (List RowChange)
  | 0 => throw .outOfFuel
  | fuel + 1 => do
      if ← eof then return []
      let rc ← readRowChange ti writeType hasPreimage
      return rc :: (← readRowChanges ti writeType hasPreimage fuel)

/-- Computations on the state of a processor. -/
abbrev ProcessorM := EStateM Stop BinlogProcessor

/-- Reads a string from its start with a reader that is local to the calling function. -/
def reading {Result : Type} (data : Bytes) (action : ReaderM Result) : ProcessorM Result :=
  fun processor =>
    match action (.ofString data) with
    | .ok result _ => .ok result processor
    | .error stop _ => .error stop processor

def setPosition (position : ℕ) : ProcessorM Unit := fun processor =>
  .ok () { processor with position := position }

/-- The loop of `parse_table_map_event` over the columns, reading from their metadata. -/
def readColumnInfos (types : List (UInt8 × Bool)) : ReaderM (List ColumnInfo) :=
  types.mapM fun (type, nullable) => do
    return {
      type := type
      typeMeta := ← read (← metadataBytesForColumnType type)
      nullable := nullable }

/-- The columns that a table map event describes, from their types, metadata and nullability. -/
def columnInfos (columnTypes columnTypeMetas : Bytes) (columnsNullable : List Bool) :
    Except Stop (List ColumnInfo) :=
  match readColumnInfos (columnTypes.zip columnsNullable) (.ofString columnTypeMetas) with
  | .ok columns typeMetaReader =>
      if typeMetaReader.rest = [] then .ok columns
      else .error (.runtimeError "not all column type_meta was parsed")
  | .error stop _ => .error stop

/-- What `parse_table_map_event` reads: the event and the table it describes.  There is memory for
any number of columns. -/
def readTableMapEvent : ReaderM (BinlogTableMapEvent × BinlogTableInfo) := do
  let header ← getBinlogEventHeader
  if header.type ≠ BinlogEventType.tableMapEvent.code then
    throw (.raised (.logicError "event is not a table map event"))
  let tableId ← getU48l
  let flags ← getU16l
  let databaseName ← read (← getU8).toNat
  skip 1
  let tableName ← read (← getU8).toNat
  skip 1
  let numColumns ← getVarint
  let columnTypes ← (List.range numColumns).mapM fun _ => getU8
  let columnTypeMetas ← getVarString
  let columnsNullable ← getBitmask numColumns
  match columnInfos columnTypes columnTypeMetas columnsNullable with
  | .error stop => throw stop
  | .ok columns =>
      return ({ header := header, tableId := tableId, flags := flags, ti := none },
        { databaseName := databaseName, tableName := tableName, columns := columns })

/-- The event is returned without its table, which is only stored. -/
def parseTableMapEvent (data : Bytes) : ProcessorM BinlogTableMapEvent := do
  let (ev, ti) ← reading data readTableMapEvent
  modify fun processor =>
    { processor with tableMap := Function.update processor.tableMap ev.tableId (some ti) }
  setPosition ev.header.endPosition
  return ev

/-- The kind of change that the type of a rows event stands for. -/
def writeTypeOf (type : UInt8) : Option WriteType :=
  if type = BinlogEventType.writeRowsEventV0.code ∨ type = BinlogEventType.writeRowsEventV1.code ∨
      type = BinlogEventType.writeRowsEventV2.code then some .insert
  else if type = BinlogEventType.updateRowsEventV0.code ∨
      type = BinlogEventType.updateRowsEventV1.code ∨
      type = BinlogEventType.updateRowsEventV2.code then some .update
  else if type = BinlogEventType.deleteRowsEventV0.code ∨
      type = BinlogEventType.deleteRowsEventV1.code ∨
      type = BinlogEventType.deleteRowsEventV2.code then some .delete
  else none

def isV2 (type : UInt8) : Bool :=
  type = BinlogEventType.writeRowsEventV2.code ∨ type = BinlogEventType.updateRowsEventV2.code ∨
    type = BinlogEventType.deleteRowsEventV2.code

def hasPreimage (type : UInt8) : Bool :=
  type = BinlogEventType.updateRowsEventV1.code ∨ type = BinlogEventType.updateRowsEventV2.code

/-- The extra data of a rows event, whose length counts its own two bytes. -/
def readExtraData (type : UInt8) : ReaderM Bytes := do
  if isV2 type then read (sizeSub (← getU16l) 2) else return []

/-- The bitmap of the columns that are present in a row image, which must be all. -/
def checkColumnsPresent (numColumns : ℕ) : ReaderM Unit := do
  if (← getBitmask numColumns).contains false then
    throw (.runtimeError "one or more columns not present in row event")

/-- What `parse_rows_event` reads up to the number of columns. -/
def readRowsEventHead (tableMap : ℕ → Option BinlogTableInfo) : ReaderM BinlogRowsEvent := do
  let header ← getBinlogEventHeader
  match writeTypeOf header.type with
  | none => throw (.raised (.logicError "event is not a rows event"))
  | some writeType =>
      let tableId ← getU48l
      if tableId = 0xFFFFFF then
        throw (.raised (.logicError "table map free during row events not supported"))
      match tableMap tableId with
      | none => throw (.raised (.outOfRange "unordered_map::at"))
      | some ti =>
          let flags ← getU16l
          let extraData ← readExtraData header.type
          let numColumns ← getVarint
          if numColumns ≠ ti.columns.length then
            throw (.runtimeError
              "row event column count does not match table info from table map")
          return {
            header := header
            writeType := writeType
            tableId := tableId
            ti := ti
            flags := flags
            extraData := extraData
            rows := [] }

/-- What `parse_rows_event` reads before the rows; the number of columns is that of the table. -/
def readRowsEventStart (tableMap : ℕ → Option BinlogTableInfo) : ReaderM BinlogRowsEvent := do
  let ev ← readRowsEventHead tableMap
  (List.range (1 + (hasPreimage ev.header.type).toNat)).forM fun _ =>
    checkColumnsPresent ev.ti.columns.length
  return ev

/-- What `parse_rows_event` reads, with a bound on the number of rows. -/
def readRowsEvent (tableMap : ℕ → Option BinlogTableInfo) (fuel : ℕ) :
    ReaderM BinlogRowsEvent := do
  let ev ← readRowsEventStart tableMap
  let rows ← readRowChanges ev.ti ev.writeType (hasPreimage ev.header.type) fuel
  return { ev with rows := rows }

def parseRowsEvent (fuel : ℕ) (data : Bytes) : ProcessorM BinlogRowsEvent := do
  let processor ← get
  let ev ← reading data (readRowsEvent processor.tableMap fuel)
  setPosition ev.header.endPosition
  return ev

theorem parseRowsEvent_eq (fuel : ℕ) (data : Bytes) (processor : BinlogProcessor) :
    parseRowsEvent fuel data processor =
      match readRowsEvent processor.tableMap fuel (.ofString data) with
      | .ok ev _ => .ok ev { processor with position := ev.header.endPosition }
      | .error stop _ => .error stop processor := by
  have state : (get : ProcessorM BinlogProcessor) processor = .ok processor processor := rfl
  rw [parseRowsEvent, Stateful.bind_of_ok state]
  cases ends : readRowsEvent processor.tableMap fuel (.ofString data) with
  | ok ev after =>
      have read : reading data (readRowsEvent processor.tableMap fuel) processor =
          .ok ev processor := by
        simp only [reading, ends]
      rw [Stateful.bind_of_ok read]
      rfl
  | error stop after =>
      have read : reading data (readRowsEvent processor.tableMap fuel) processor =
          .error stop processor := by
        simp only [reading, ends]
      rw [Stateful.bind_of_error read]

def readQueryEvent : ReaderM BinlogQueryEvent := do
  let header ← getBinlogEventHeader
  if header.type ≠ BinlogEventType.queryEvent.code then
    throw (.raised (.logicError "event is not a query event"))
  let connId ← getU32l
  let execTimeSecs ← getU32l
  let databaseNameLength ← getU8
  let errorCode ← getU16l
  let statusVars ← read (← getU16l)
  let databaseName ← read databaseNameLength.toNat
  skip 1
  let query ← getStringEof
  return {
    header := header
    connId := connId
    execTimeSecs := execTimeSecs
    databaseName := databaseName
    errorCode := errorCode
    statusVars := statusVars
    query := query }

def parseQueryEvent (data : Bytes) : ProcessorM BinlogQueryEvent := do
  let ev ← reading data readQueryEvent
  setPosition ev.header.endPosition
  return ev

def readRotateEvent : ReaderM BinlogRotateEvent := do
  let header ← getBinlogEventHeader
  if header.type ≠ BinlogEventType.rotateEvent.code then
    throw (.raised (.logicError "event is not a rotate event"))
  let nextPosition ← getU64l
  let nextFilename ← getStringEof
  return { header := header, nextFilename := nextFilename, nextPosition := nextPosition }

def parseRotateEvent (data : Bytes) : ProcessorM BinlogRotateEvent := do
  let ev ← reading data readRotateEvent
  modify fun processor => { processor with filename := ev.nextFilename }
  setPosition ev.nextPosition
  return ev

def readXidEvent : ReaderM BinlogXidEvent := do
  let header ← getBinlogEventHeader
  if header.type ≠ BinlogEventType.xidEvent.code then
    throw (.raised (.logicError "event is not an xid event"))
  let xid ← getU64l
  return { header := header, xid := xid }

def parseXidEvent (data : Bytes) : ProcessorM BinlogXidEvent := do
  let ev ← reading data readXidEvent
  setPosition ev.header.endPosition
  return ev

def expectedHeaderLengths : Bytes :=
  [0x00, 0x0D, 0x00, 0x08, 0x00, 0x00, 0x00, 0x00, 0x04, 0x00, 0x04, 0x00, 0x00, 0x00, 0x61,
    0x00, 0x04, 0x1A, 0x08, 0x00, 0x00, 0x00, 0x08, 0x08, 0x08, 0x02, 0x00, 0x00, 0x00, 0x0A,
    0x0A, 0x0A, 0x2A, 0x2A, 0x00, 0x12, 0x34, 0x00, 0x0A, 0x28]

/-- The type in the header is not tested. -/
def readFormatDescriptionEvent : ReaderM BinlogFormatDescriptionEvent := do
  let header ← getBinlogEventHeader
  let version ← getU16l
  if version ≠ 4 then throw (.runtimeError "binlog version is not 4")
  let serverVersion ← read 50
  let timestamp ← getU32l
  let headerLength ← getU8
  if headerLength ≠ 0x13 then
    throw (.runtimeError "incorrect header length for FORMAT_DESCRIPTION_EVENT")
  let eventHeaderLengths ← getStringEof
  let compared := min eventHeaderLengths.length 40
  if expectedHeaderLengths.take compared ≠ eventHeaderLengths.take compared then
    throw (.runtimeError
      "header lengths in FORMAT_DESCRIPTION_EVENT do not match expectations")
  return {
    header := header
    version := version
    serverVersion := serverVersion.takeWhile (· ≠ 0)
    timestamp := timestamp
    headerLength := headerLength
    eventHeaderLengths := eventHeaderLengths }

def parseFormatDescriptionEvent (data : Bytes) : ProcessorM BinlogFormatDescriptionEvent := do
  let ev ← reading data readFormatDescriptionEvent
  setPosition ev.header.endPosition
  return ev

def parseUnknownEvent (data : Bytes) : ProcessorM BinlogEventHeader := do
  if data.length < 19 then throw (.runtimeError "binlog event too small for header")
  let header ← reading data getBinlogEventHeader
  setPosition header.endPosition
  return header

end BinlogProcessor

end EventAsync.MySQL
