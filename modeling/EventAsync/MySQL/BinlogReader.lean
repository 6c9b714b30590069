import EventAsync.MySQL.EventLoops
import EventAsync.MySQL.TemporalTexts

/-!
# The binlog reader

A program that reads the binlog of a server and prints the changes as
statements.  It takes one event after the other from a client, lets a processor
parse each according to its type, and keeps the name of the file that the events
come from for the comments in front of the statements.

From the packets of any history the program prints exactly the text of the
history, and it ends when the server ends the stream.
-/

namespace EventAsync.MySQL

open ByteCodec

/-- Functions of other libraries that make texts: `format_time`, `%g` and `%lg` on floating point
values given by their bits, `escape_quotes` and `print_data`. -/
structure Printer where
  formatTime : ℕ → Bytes
  formatFloat : ℕ → Bytes
  formatDouble : ℕ → Bytes
  escapeQuotes : Bytes → Bytes
  printData : Bytes → Bytes

/-- A number as `%d` prints it. -/
def signedDecimal (number : ℤ) : Bytes :=
  (if number < 0 then ascii "-" else []) ++ decimal number.natAbs

def formatCellValue (printer : Printer) : Value → Bytes
  | .uint64 number => ascii "(uint64) " ++ decimal number
  | .int64 number => ascii "(int64) " ++ signedDecimal number
  | .float bits => ascii "(float) " ++ printer.formatFloat bits
  | .double bits => ascii "(double) " ++ printer.formatDouble bits
  | .null => ascii "(null)"
  | .dateTime value => ascii "(datetime) " ++ cStr value.str
  | .time value => ascii "(time) " ++ cStr value.str
  | .string bytes => ascii "(string) \"" ++ cStr (printer.escapeQuotes bytes) ++ ascii "\""

/-- The names of the event types in the order of their codes. -/
def binlogEventTypeNames : List String :=
  ["UNKNOWN_EVENT", "START_EVENT_V3", "QUERY_EVENT", "STOP_EVENT", "ROTATE_EVENT", "INTVAR_EVENT",
    "LOAD_EVENT", "SLAVE_EVENT", "CREATE_FILE_EVENT", "APPEND_BLOCK_EVENT", "EXEC_LOAD_EVENT",
    "DELETE_FILE_EVENT", "NEW_LOAD_EVENT", "RAND_EVENT", "USER_VAR_EVENT",
    "FORMAT_DESCRIPTION_EVENT", "XID_EVENT", "BEGIN_LOAD_QUERY_EVENT", "EXECUTE_LOAD_QUERY_EVENT",
    "TABLE_MAP_EVENT", "WRITE_ROWS_EVENTv0", "UPDATE_ROWS_EVENTv0", "DELETE_ROWS_EVENTv0",
    "WRITE_ROWS_EVENTv1", "UPDATE_ROWS_EVENTv1", "DELETE_ROWS_EVENTv1", "INCIDENT_EVENT",
    "HEARTBEAT_EVENT", "IGNORABLE_EVENT", "ROWS_QUERY_EVENT", "WRITE_ROWS_EVENTv2",
    "UPDATE_ROWS_EVENTv2", "DELETE_ROWS_EVENTv2", "GTID_EVENT", "ANONYMOUS_GTID_EVENT",
    "PREVIOUS_GTIDS_EVENT", "TRANSACTION_CONTEXT_EVENT", "VIEW_CHANGE_EVENT",
    "XA_PREPARE_LOG_EVENT", "PARTIAL_UPDATE_ROWS_EVENT", "TRANSACTION_PAYLOAD_EVENT"]

def nameForBinlogEventType (type : UInt8) : Bytes :=
  ascii ((binlogEventTypeNames[type.toNat]?).getD "<INVALID_EVENT_TYPE>")

/-- The variables of the program and what it has printed. -/
structure BinlogReader where
  client : Client
  proc : BinlogProcessor
  filename : Bytes
  stdout : Bytes

abbrev BinlogReaderM := EStateM Stop BinlogReader

instance : MonadLift ClientM BinlogReaderM where
  monadLift action :=
    Stateful.zoom BinlogReader.client (fun client reader => { reader with client := client }) action

instance : MonadLift BinlogProcessor.ProcessorM BinlogReaderM where
  monadLift action :=
    Stateful.zoom BinlogReader.proc (fun proc reader => { reader with proc := proc }) action

namespace BinlogReader

open BinlogProcessor

variable (printer : Printer)

def print (text : Bytes) : BinlogReaderM Unit :=
  modify fun reader => { reader with stdout := reader.stdout ++ text }

def getEventHeader (data : Bytes) : ProcessorM BinlogEventHeader := do
  if data.length < 19 then throw (.runtimeError "binlog event too small for header")
  reading data getBinlogEventHeader

/-- `print_pos_comment_start`; the offset is computed with 32 bits. -/
def posCommentStart (header : BinlogEventHeader) (filename : Bytes) : Bytes :=
  if header.timestamp = 0 ∧ header.endPosition = 0 then
    ascii "/* (artificial event) server " ++ decimal header.serverId ++ ascii " "
  else
    ascii "/* " ++ cStr filename ++ ascii ":" ++
      decimal ((header.endPosition + 2 ^ 32 - header.length) % 2 ^ 32) ++ ascii " @ " ++
      cStr (printer.formatTime (header.timestamp * 1000000)) ++ ascii " server " ++
      decimal header.serverId ++ ascii " "

/-- The loops over the cells of a row, from the cell with index `x` on. -/
def cellTexts (separator : Bytes) (cell : ℕ → Value → Bytes) : ℕ → List Value → Bytes
  | _, [] => []
  | x, value :: values =>
      (if 0 < x then separator else []) ++ cell x value ++
        cellTexts separator cell (x + 1) values

/-- A cell of an insert. -/
def bareCell (_ : ℕ) (value : Value) : Bytes :=
  cStr (formatCellValue printer value)

/-- A cell with the index of its column. -/
def indexedCell (x : ℕ) (value : Value) : Bytes :=
  ascii "#" ++ decimal x ++ ascii " = " ++ cStr (formatCellValue printer value)

/-- A table as it is named in statements. -/
def quotedTable (databaseName tableName : Bytes) : Bytes :=
  ascii "\x60" ++ cStr databaseName ++ ascii "\x60.\x60" ++ cStr tableName ++ ascii "\x60"

/-- What is printed for one row of a rows event. -/
def rowText (filename : Bytes) (ev : BinlogRowsEvent) (row : RowChange) : Bytes :=
  let table := quotedTable ev.ti.databaseName ev.ti.tableName
  posCommentStart printer ev.header filename ++ ascii "*/ " ++
    (match ev.writeType with
    | .insert =>
        ascii "INSERT INTO " ++ table ++ ascii " VALUES (" ++
          cellTexts (ascii ", ") (bareCell printer) 0 row.post ++ ascii ")"
    | .update =>
        ascii "UPDATE " ++ table ++ ascii " SET " ++
          cellTexts (ascii ", ") (indexedCell printer) 0 row.post ++
          (if row.pre = [] then ascii " /* MISSING PRE-IMAGE */"
          else ascii " WHERE " ++ cellTexts (ascii " AND ") (indexedCell printer) 0 row.pre)
    | .delete =>
        ascii "DELETE FROM " ++ table ++ ascii " WHERE " ++
          cellTexts (ascii " AND ") (indexedCell printer) 0 row.pre) ++
    ascii ";\n"

def handleRowsEvent (data : Bytes) : BinlogReaderM Unit := do
  let ev ← parseRowsEvent (data.length + 1) data
  let filename := (← get).filename
  ev.rows.forM fun row => print (rowText printer filename ev row)

def queryText (filename : Bytes) (ev : BinlogQueryEvent) : Bytes :=
  if ev.query ≠ ascii "BEGIN" ∧ ev.query ≠ ascii "COMMIT" then
    posCommentStart printer ev.header filename ++ ascii "conn " ++ decimal ev.connId ++
      (if ev.databaseName = [] then [] else ascii " db " ++ cStr ev.databaseName) ++
      ascii " (" ++ decimal ev.execTimeSecs ++ ascii "s) */ " ++ cStr ev.query ++ ascii ";\n"
  else []

def handleQueryEvent (data : Bytes) : BinlogReaderM Unit := do
  let ev ← parseQueryEvent data
  print (queryText printer (← get).filename ev)

def handleRotateEvent (data : Bytes) : BinlogReaderM Unit := do
  let ev ← parseRotateEvent data
  print (posCommentStart printer ev.header (← get).filename ++ ascii "next log pos " ++
    cStr ev.nextFilename ++ ascii ":" ++ decimal ev.nextPosition ++ ascii " */\n")
  modify fun reader => { reader with filename := ev.nextFilename }

def handleStopEvent (data : Bytes) : BinlogReaderM Unit := do
  let header ← parseUnknownEvent data
  print (posCommentStart printer header (← get).filename ++ ascii "*/ SHUTDOWN;\n")

def handleUnknownEvent (data : Bytes) : BinlogReaderM Unit := do
  let header ← parseUnknownEvent data
  print (posCommentStart printer header (← get).filename ++ ascii "unknown event " ++
    nameForBinlogEventType header.type ++ ascii " */\n")
  print (printer.printData data)

/-- The cases of the `switch` over the type of an event. -/
inductive EventCase where
  | silent
  | tableMap
  | rows
  | query
  | stop
  | xid
  | rotate
  | formatDescription
  | unknown

def eventCase (type : UInt8) : EventCase :=
  if type = previousGtidsEvent ∨ type = anonymousGtidEvent then .silent
  else if type = BinlogEventType.tableMapEvent.code then .tableMap
  else if (writeTypeOf type).isSome then .rows
  else if type = BinlogEventType.queryEvent.code then .query
  else if type = stopEvent then .stop
  else if type = BinlogEventType.xidEvent.code then .xid
  else if type = BinlogEventType.rotateEvent.code then .rotate
  else if type = formatDescriptionEvent then .formatDescription
  else .unknown

def handleCase (data : Bytes) : EventCase → BinlogReaderM Unit
  | .silent => do
      let _ ← parseUnknownEvent data
  | .tableMap => do
      let _ ← parseTableMapEvent data
  | .rows => handleRowsEvent printer data
  | .query => handleQueryEvent printer data
  | .stop => handleStopEvent printer data
  | .xid => do
      let _ ← parseXidEvent data
  | .rotate => handleRotateEvent printer data
  | .formatDescription => do
      let _ ← parseFormatDescriptionEvent data
  | .unknown => handleUnknownEvent printer data

def handleEvent (data : Bytes) : BinlogReaderM Unit := do
  let header ← getEventHeader data
  handleCase printer data (eventCase header.type)

/-- The loop of the program, with a bound on its iterations. -/
def readEvents : ℕ → BinlogReaderM Unit
  | 0 => throw .outOfFuel
  | fuel + 1 => do
      let data ← Client.getBinlogEvent
      handleEvent printer data
      readEvents fuel

end BinlogReader

section Texts

open BinlogReader

variable (printer : Printer)

/-- Cells with their separators between them. -/
def joined (separator : Bytes) (cell : ℕ → Value → Bytes) (values : List Value) : Bytes :=
  separator.intercalate (values.zipIdx.map fun (value, x) => cell x value)

/-- A change of a row of the table as a statement. -/
def Change.statement (table : TableDef) {writeType : WriteType} :
    Change table.columns writeType → Bytes
  | .insert post =>
      ascii "INSERT INTO " ++ quotedTable table.databaseName table.tableName ++
        ascii " VALUES (" ++ joined (ascii ", ") (bareCell printer) post.values ++ ascii ")"
  | .update pre post =>
      ascii "UPDATE " ++ quotedTable table.databaseName table.tableName ++ ascii " SET " ++
        joined (ascii ", ") (indexedCell printer) post.values ++ ascii " WHERE " ++
        joined (ascii " AND ") (indexedCell printer) pre.values
  | .delete pre =>
      ascii "DELETE FROM " ++ quotedTable table.databaseName table.tableName ++
        ascii " WHERE " ++ joined (ascii " AND ") (indexedCell printer) pre.values

namespace LogEvent

/-- What should be printed for an event of a file. -/
def text (filename : Bytes) : LogEvent → Bytes
  | tableMap _ _ => []
  | rows table _ event =>
      event.changes.flatMap fun change =>
        posCommentStart printer event.header filename ++ ascii "*/ " ++
          change.statement printer table ++ ascii ";\n"
  | query event => queryText printer filename event.event
  | rotate event =>
      posCommentStart printer event.header filename ++ ascii "next log pos " ++
        cStr event.nextFilename ++ ascii ":" ++ decimal event.nextPosition ++ ascii " */\n"
  | xid _ => []
  | formatDescription _ => []
  | other event =>
      if event.header.type = previousGtidsEvent ∨ event.header.type = anonymousGtidEvent then []
      else if event.header.type = stopEvent then
        posCommentStart printer event.header filename ++ ascii "*/ SHUTDOWN;\n"
      else
        posCommentStart printer event.header filename ++ ascii "unknown event " ++
          nameForBinlogEventType event.header.type ++ ascii " */\n" ++
          printer.printData (other event).encode

/-- The file that the next event comes from. -/
def filenameAfter (filename : Bytes) : LogEvent → Bytes
  | rotate event => event.nextFilename
  | _ => filename

def texts : Bytes → List LogEvent → Bytes
  | _, [] => []
  | filename, event :: events =>
      event.text printer filename ++ texts (event.filenameAfter filename) events

end LogEvent

end Texts

namespace BinlogReader

open BinlogProcessor

variable {printer : Printer} {reader : BinlogReader}

theorem cellTexts_succ {values : List Value} (nonempty : values ≠ []) (separator : Bytes)
    (cell : ℕ → Value → Bytes) (x : ℕ) :
    cellTexts separator cell (x + 1) values =
      separator ++ separator.intercalate
        ((values.zipIdx (x + 1)).map fun (value, x) => cell x value) := by
  induction values generalizing x with
  | nil => exact absurd rfl nonempty
  | cons value values ih =>
      cases values with
      | nil => simp [cellTexts]
      | cons next values =>
          have later := ih (List.cons_ne_nil next values) (x + 1)
          rw [cellTexts, later]
          simp [List.zipIdx_cons, List.intercalate_cons_cons]

/-- The loops put the separator between the cells. -/
theorem cellTexts_eq (separator : Bytes) (cell : ℕ → Value → Bytes) (values : List Value) :
    cellTexts separator cell 0 values = joined separator cell values := by
  cases values with
  | nil => simp [cellTexts, joined]
  | cons value values =>
      cases values with
      | nil => simp [cellTexts, joined]
      | cons next values =>
          have later := cellTexts_succ (List.cons_ne_nil next values) separator cell 0
          rw [cellTexts, later]
          simp [joined, List.zipIdx_cons, List.intercalate_cons_cons]

theorem values_ne_nil {columns : List ColumnDef} (nonempty : columns ≠ [])
    (row : RowImage columns) : row.values ≠ [] := by
  have length := row.fits.length_eq
  intro empty
  rw [RowImage.values, List.map_eq_nil_iff] at empty
  rw [empty, List.length_nil, List.length_eq_zero_iff] at length
  exact nonempty length

/-- What is printed for a row is the statement of its change. -/
theorem rowText_rowChange (table : TableDef) (tableId : ℕ) (event : RowsEventDef table.columns)
    (filename : Bytes) (change : Change table.columns event.writeType) :
    rowText printer filename (event.event tableId table.info) change.rowChange =
      posCommentStart printer event.header filename ++ ascii "*/ " ++
        change.statement printer table ++ ascii ";\n" := by
  rcases event with ⟨header, writeType, _⟩
  cases change with
  | insert post =>
      simp [rowText, RowsEventDef.event, TableDef.info, Change.rowChange, Change.statement,
        cellTexts_eq]
  | update pre post =>
      have present := values_ne_nil table.nonempty pre
      simp [rowText, RowsEventDef.event, TableDef.info, Change.rowChange, Change.statement,
        cellTexts_eq, present]
  | delete pre =>
      simp [rowText, RowsEventDef.event, TableDef.info, Change.rowChange, Change.statement,
        cellTexts_eq]

theorem forM_print {Item : Type} (items : List Item) (text : Item → Bytes) :
    (items.forM fun item => print (text item)) reader =
      .ok () { reader with stdout := reader.stdout ++ items.flatMap text } := by
  induction items generalizing reader with
  | nil => simp [pure, EStateM.pure]
  | cons item items ih =>
      have first : print (text item) reader =
          .ok () { reader with stdout := reader.stdout ++ text item } := rfl
      refine (Stateful.bind_of_ok first).trans (ih.trans ?_)
      simp

/-- The program after an event of the log. -/
def logged (printer : Printer) (reader : BinlogReader) (event : LogEvent) : BinlogReader :=
  { reader with
    proc := reader.proc.logged event
    filename := event.filenameAfter reader.filename
    stdout := reader.stdout ++ event.text printer reader.filename }

/-- A parsing function that returns continues with the processor that it leaves. -/
theorem bind_parsed {Event : Type} {parse : ProcessorM Event} {ev : Event}
    {after : BinlogProcessor} {next : Event → BinlogReaderM Unit}
    (parsed : parse reader.proc = .ok ev after) :
    ((liftM parse : BinlogReaderM Event) >>= next) reader = next ev { reader with proc := after } :=
  Stateful.bind_of_ok (Stateful.zoom_of_ok parsed)

theorem bind_print {text : Bytes} {next : Unit → BinlogReaderM Unit} :
    (print text >>= next) reader = next () { reader with stdout := reader.stdout ++ text } :=
  Stateful.bind_of_ok rfl

theorem bind_get {next : BinlogReader → BinlogReaderM Unit} :
    ((get : BinlogReaderM BinlogReader) >>= next) reader = next reader reader := rfl

theorem length_changes_lt {columns : List ColumnDef} (nonempty : columns ≠ [])
    (event : RowsEventDef columns) (tableId : ℕ) :
    event.changes.length < (event.encode tableId).length + 1 := by
  have bytes : ∀ changes : List (Change columns event.writeType),
      changes.length ≤ (changes.flatMap Change.encode).length := by
    intro changes
    induction changes with
    | nil => simp
    | cons change changes ih =>
        have some := List.length_pos_of_ne_nil (change.encode_ne_nil nonempty)
        simp only [List.flatMap_cons, List.length_append, List.length_cons]
        omega
  have rows := bytes event.changes
  rw [RowsEventDef.encode, List.length_append]
  omega

theorem handleRowsEvent_logged {tables : LogEvent.Tables}
    (tracks : LogEvent.Tracks tables reader.proc) {table : TableDef} {tableId : ℕ}
    (described : tables tableId = some table) (event : RowsEventDef table.columns) :
    handleRowsEvent printer (LogEvent.rows table tableId event).encode reader =
      .ok () (reader.logged printer (.rows table tableId event)) := by
  have parsed := LogEvent.parseRowsEvent_logged tracks described event
    (length_changes_lt table.nonempty event tableId)
  refine (bind_parsed parsed).trans (bind_get.trans ((forM_print _ _).trans ?_))
  have texts : (event.changes.map Change.rowChange).flatMap
      (rowText printer reader.filename (event.event tableId table.info)) =
      (LogEvent.rows table tableId event).text printer reader.filename := by
    simp only [List.flatMap_map, rowText_rowChange, LogEvent.text]
  rw [logged, ← texts]
  rfl

theorem handleQueryEvent_logged (event : QueryEventDef) :
    handleQueryEvent printer (LogEvent.query event).encode reader =
      .ok () (reader.logged printer (.query event)) :=
  (bind_parsed (LogEvent.parseQueryEvent_logged event)).trans bind_get

theorem handleRotateEvent_logged (event : RotateEventDef) :
    handleRotateEvent printer (LogEvent.rotate event).encode reader =
      .ok () (reader.logged printer (.rotate event)) :=
  (bind_parsed (LogEvent.parseRotateEvent_logged event)).trans (bind_get.trans bind_print)

theorem handleStopEvent_logged (event : OtherEventDef) (isStop : event.header.type = stopEvent) :
    handleStopEvent printer (LogEvent.other event).encode reader =
      .ok () (reader.logged printer (.other event)) := by
  refine (bind_parsed (LogEvent.parseUnknownEvent_logged event)).trans (bind_get.trans ?_)
  simp [logged, LogEvent.text, LogEvent.filenameAfter, isStop, stopEvent, previousGtidsEvent,
    anonymousGtidEvent]
  rfl

theorem handleUnknownEvent_logged (event : OtherEventDef)
    (notSilent : ¬(event.header.type = previousGtidsEvent ∨ event.header.type = anonymousGtidEvent))
    (notStop : event.header.type ≠ stopEvent) :
    handleUnknownEvent printer (LogEvent.other event).encode reader =
      .ok () (reader.logged printer (.other event)) := by
  refine (bind_parsed (LogEvent.parseUnknownEvent_logged event)).trans (bind_get.trans ?_)
  refine bind_print.trans ?_
  change EStateM.Result.ok () _ = _
  simp only [logged, LogEvent.text, LogEvent.filenameAfter, if_neg notSilent, if_neg notStop,
    List.append_assoc]

theorem getEventHeader_encode (event : LogEvent) (processor : BinlogProcessor) :
    getEventHeader event.encode processor = .ok event.header processor := by
  have long : ¬event.encode.length < 19 := Nat.not_lt.mpr event.length_encode_ge
  rw [getEventHeader, if_neg long]
  exact event.reading_header

theorem handleEvent_eq (event : LogEvent) :
    handleEvent printer event.encode reader =
      handleCase printer event.encode (eventCase event.header.type) reader :=
  bind_parsed (getEventHeader_encode event reader.proc)

theorem eventCase_rows (writeType : WriteType) (v2 : Bool) :
    eventCase (rowsEventType writeType v2).code = .rows := by
  cases writeType <;> cases v2 <;> rfl

/-- The events that are not parsed beyond their headers belong to one of three cases. -/
theorem eventCase_other {type : UInt8} (unparsed : type ∉ parsedTypes) :
    eventCase type =
      if type = previousGtidsEvent ∨ type = anonymousGtidEvent then .silent
      else if type = stopEvent then .stop
      else .unknown := by
  simp only [parsedTypes, List.mem_cons, List.not_mem_nil, or_false, not_or] at unparsed
  simp [eventCase, writeTypeOf, unparsed]

/-- An event whose case only parses it. -/
theorem handled_of_parsed {Event : Type} {parse : ProcessorM Event} {ev : Event} {event : LogEvent}
    (parsed : parse reader.proc = .ok ev (reader.proc.logged event))
    (noText : event.text printer reader.filename = [])
    (sameFile : event.filenameAfter reader.filename = reader.filename) :
    (do let _ ← (liftM parse : BinlogReaderM Event) : BinlogReaderM Unit) reader =
      .ok () (reader.logged printer event) := by
  refine (bind_parsed parsed).trans ?_
  rw [logged, noText, sameFile, List.append_nil]
  rfl

theorem handleEvent_other (event : OtherEventDef) :
    handleEvent printer (LogEvent.other event).encode reader =
      .ok () (reader.logged printer (.other event)) := by
  rw [handleEvent_eq, LogEvent.header, eventCase_other event.headerType]
  split
  · rename_i silent
    apply handled_of_parsed (LogEvent.parseUnknownEvent_logged event) _ rfl
    rw [LogEvent.text, if_pos silent]
  · rename_i notSilent
    split
    · rename_i isStop
      exact handleStopEvent_logged event isStop
    · rename_i notStop
      exact handleUnknownEvent_logged event notSilent notStop

/-- An admissible event is handled as the log says. -/
theorem handleEvent_logged {tables : LogEvent.Tables} (tracks : LogEvent.Tracks tables reader.proc)
    (event : LogEvent) (admissible : event.Admissible tables) :
    handleEvent printer event.encode reader = .ok () (reader.logged printer event) := by
  cases event with
  | tableMap table map =>
      rw [handleEvent_eq, LogEvent.header, map.headerType]
      exact handled_of_parsed (LogEvent.parseTableMapEvent_logged table map) rfl rfl
  | rows table tableId event =>
      rw [handleEvent_eq, LogEvent.header, event.headerType, eventCase_rows]
      exact handleRowsEvent_logged tracks admissible event
  | query event =>
      rw [handleEvent_eq, LogEvent.header, event.headerType]
      exact handleQueryEvent_logged event
  | rotate event =>
      rw [handleEvent_eq, LogEvent.header, event.headerType]
      exact handleRotateEvent_logged event
  | xid event =>
      rw [handleEvent_eq, LogEvent.header, event.headerType]
      exact handled_of_parsed (LogEvent.parseXidEvent_logged event) rfl rfl
  | formatDescription event =>
      rw [handleEvent_eq, LogEvent.header, event.headerType]
      exact handled_of_parsed (LogEvent.parseFormatDescriptionEvent_logged event) rfl rfl
  | other event => exact handleEvent_other event

/-- The loop of the program as one over the events of a log. -/
def eventLoop (printer : Printer) : EventLoop BinlogReader where
  client := BinlogReader.client
  setClient := fun client reader => { reader with client := client }
  handle := handleEvent printer

theorem readEvents_eq_run (fuel : ℕ) : readEvents printer fuel = (eventLoop printer).run fuel := by
  induction fuel with
  | zero => rfl
  | succ fuel ih =>
      rw [readEvents, EventLoop.run, ih]
      rfl

theorem handles_eventLoop (printer : Printer) :
    (eventLoop printer).Handles (fun tables reader => LogEvent.Tracks tables reader.proc)
      fun reader event after => after = reader.logged printer event where
  client_set := fun _ _ => rfl
  knows_set := fun _ _ _ tracks => tracks
  handled := fun _ _ event tracks admissible =>
    ⟨_, handleEvent_logged tracks event admissible, rfl, tracks.logged event, rfl⟩

/-- What a program has done that has handled some events. -/
structure Replays (printer : Printer) (events : List LogEvent) (reader after : BinlogReader) :
    Prop where
  stdout_eq : after.stdout = reader.stdout ++ LogEvent.texts printer reader.filename events
  filename_eq : after.filename = events.foldl LogEvent.filenameAfter reader.filename
  proc_eq : after.proc = events.foldl BinlogProcessor.logged reader.proc

theorem replays_of_eventLoop {events : List LogEvent} {after : BinlogReader}
    (replays : (eventLoop printer).Replays (fun reader event after =>
      after = reader.logged printer event) reader events after) :
    Replays printer events reader after := by
  induction replays with
  | ended reader client => exact ⟨(List.append_nil _).symm, rfl, rfl⟩
  | logged client handled _ ih =>
      subst handled
      exact ⟨ih.stdout_eq.trans (List.append_assoc ..), ih.filename_eq, ih.proc_eq⟩

/-- From the packets of a history the loop prints the text of the history, and the end of the
stream ends it. -/
theorem readEvents_history (printer : Printer) (reader : BinlogReader) (history : History)
    {following : Bytes} {fuel : ℕ} (created : reader.proc = .create)
    (nextSeq : reader.client.nextSeq = 1)
    (state : reader.client.binlogReadState = .readingFirstEvent)
    (receives : reader.client.Receives (history.stream.encode ++ following))
    (enough : history.later.length + 1 < fuel) :
    ∃ after, readEvents printer fuel reader = .error endOfStream after ∧
      after.client.Receives following ∧ Replays printer history.events reader after := by
  have tracks : LogEvent.Tracks (fun _ => none) reader.proc := by
    rw [created]
    exact LogEvent.tracks_create
  rcases (handles_eventLoop printer).run_history history tracks nextSeq state receives enough with
    ⟨after, ends, receivesAfter, replays⟩
  rw [readEvents_eq_run]
  exact ⟨after, ends, receivesAfter, replays_of_eventLoop replays⟩

end BinlogReader

end EventAsync.MySQL
