import EventAsync.MySQL.BinlogSessions

/-!
# The binlog statistics

A program that reads the binlog of a server and sends metrics to a StatsD server
or to the standard output, one line each: the size and the position of every
event, the rows and bytes of every change, and the size of every transaction.
-/

namespace EventAsync.MySQL

open ByteCodec

/-- Tags by their names, none of which occurs twice. -/
abbrev Tags := List (Bytes × Bytes)

namespace Tags

/-- `unordered_map::emplace`. -/
def emplace (tags : Tags) (name value : Bytes) : Tags :=
  if tags.any (·.1 = name) then tags else tags ++ [(name, value)]

/-- `unordered_map::erase`. -/
def erase (tags : Tags) (name : Bytes) : Tags :=
  tags.filter (·.1 ≠ name)

end Tags

/-- What `StatsDClient::send` is called with; the value is not yet converted to `double`. -/
structure Metric where
  name : Bytes
  value : ℕ
  type : UInt8
  tags : Tags

/-- Types of metrics. -/
def countType : UInt8 := 0x63

def distributionType : UInt8 := 0x64

def gaugeType : UInt8 := 0x67

def timeType : UInt8 := 0x6D

/-- What the program leaves to its libraries: the text of a number that is printed by `%lg`, and
the order in which a map of tags is iterated. -/
structure StatsFormat where
  formatValue : ℕ → Bytes
  order : Tags → List (Bytes × Bytes)

/-- `fd` is the socket or the standard output. -/
structure StatsDClient where
  writingStdout : Bool
  stream : Stream

namespace StatsDClient

def tagText (tag : Bytes × Bytes) : Bytes :=
  if tag.2 = [] then cStr tag.1 else cStr tag.1 ++ ascii ":" ++ cStr tag.2

/-- The loop over the tags. -/
def tagTexts : (isFirst : Bool) → List (Bytes × Bytes) → Bytes
  | _, [] => []
  | isFirst, tag :: tags =>
      (if isFirst then ascii "|#" else ascii ",") ++ tagText tag ++ tagTexts false tags

/-- The line that `send` puts into its buffer; the sample rate is 1. -/
def line (format : StatsFormat) (writingStdout : Bool) (metric : Metric) : Bytes :=
  metric.name ++ ascii ":" ++ format.formatValue metric.value ++ ascii "|" ++ [metric.type] ++
    (if metric.type = timeType then ascii "s" else []) ++
    tagTexts true (format.order metric.tags) ++ (if writingStdout then ascii "\n" else [])

def send (format : StatsFormat) (metric : Metric) : EStateM Stop StatsDClient Unit :=
  fun statsd =>
    if statsd.stream.buf ≠ [] then
      .error (.raised (.logicError "Buffer was not empty before statsd line generation")) statsd
    else
      Stateful.zoom StatsDClient.stream (fun stream statsd => { statsd with stream := stream })
        (Buffer.write (-1))
        { statsd with
          stream := { statsd.stream with buf := line format statsd.writingStdout metric } }

end StatsDClient

/-- The options that are used after the start. -/
structure StatsOptions where
  format : StatsFormat
  constantTags : Tags

/-- The variables of the program. -/
structure BinlogStats where
  client : Client
  proc : BinlogProcessor
  statsd : StatsDClient
  currentFilename : Bytes
  currentPosition : ℕ
  transactionEventBytes : ℕ

abbrev BinlogStatsM := EStateM Stop BinlogStats

instance : MonadLift ClientM BinlogStatsM where
  monadLift action :=
    Stateful.zoom BinlogStats.client (fun client stats => { stats with client := client }) action

instance : MonadLift BinlogProcessor.ProcessorM BinlogStatsM where
  monadLift action :=
    Stateful.zoom BinlogStats.proc (fun proc stats => { stats with proc := proc }) action

namespace BinlogStats

open BinlogProcessor
open BinlogReader (EventCase eventCase getEventHeader)

variable (opts : StatsOptions)

def send (metric : Metric) : BinlogStatsM Unit :=
  Stateful.zoom BinlogStats.statsd (fun statsd stats => { stats with statsd := statsd })
    (StatsDClient.send opts.format metric)

/-- The sums over the rows of an event. -/
def totalPreBytes (rows : List RowChange) : ℕ :=
  rows.foldl (fun bytes row => (bytes + row.preBytes) % 2 ^ 64) 0

def totalPostBytes (rows : List RowChange) : ℕ :=
  rows.foldl (fun bytes row => (bytes + row.postBytes) % 2 ^ 64) 0

/-- What is sent for a rows event. -/
def rowsMetrics (tags : Tags) (ev : BinlogRowsEvent) : List Metric :=
  let tags := (tags.emplace (ascii "db_name") ev.ti.databaseName).emplace (ascii "table_name")
    ev.ti.tableName
  let preBytes := totalPreBytes ev.rows
  let postBytes := totalPostBytes ev.rows
  match ev.writeType with
  | .insert =>
      [⟨ascii "mysql.binlog.insert_events", 1, countType, tags⟩,
        ⟨ascii "mysql.binlog.insert_rows", ev.rows.length, distributionType, tags⟩,
        ⟨ascii "mysql.binlog.insert_bytes", postBytes, distributionType, tags⟩]
  | .update =>
      [⟨ascii "mysql.binlog.update_events", 1, countType, tags⟩,
        ⟨ascii "mysql.binlog.update_rows", ev.rows.length, distributionType, tags⟩,
        ⟨ascii "mysql.binlog.update_pre_bytes", preBytes, distributionType, tags⟩,
        ⟨ascii "mysql.binlog.update_post_bytes", postBytes, distributionType, tags⟩,
        ⟨ascii "mysql.binlog.update_delta_bytes", sizeSub postBytes preBytes, distributionType,
          tags⟩]
  | .delete =>
      [⟨ascii "mysql.binlog.delete_events", 1, countType, tags⟩,
        ⟨ascii "mysql.binlog.delete_rows", ev.rows.length, distributionType, tags⟩,
        ⟨ascii "mysql.binlog.delete_bytes", preBytes, distributionType, tags⟩]

def handleRowsEvent (tags : Tags) (data : Bytes) : BinlogStatsM Unit := do
  let ev ← parseRowsEvent (data.length + 1) data
  (rowsMetrics tags ev).forM (send opts)

/-- The metrics at the end of a transaction. -/
def sendCommit (name : Bytes) (tags : Tags) : BinlogStatsM Unit := do
  send opts ⟨name, 1, countType, tags⟩
  let bytes := (← get).transactionEventBytes
  send opts ⟨ascii "mysql.binlog.transaction_event_bytes", bytes, distributionType, tags⟩
  modify fun stats => { stats with transactionEventBytes := 0 }

def handleQueryEvent (tags : Tags) (data : Bytes) : BinlogStatsM Unit := do
  let ev ← parseQueryEvent data
  let tags := if ev.databaseName ≠ [] then tags.emplace (ascii "db_name") ev.databaseName else tags
  if ev.query = ascii "BEGIN" then
    modify fun stats => { stats with transactionEventBytes := data.length }
    send opts ⟨ascii "mysql.binlog.transaction_begin", 1, countType, tags⟩
  else if ev.query = ascii "COMMIT" then
    sendCommit opts (ascii "mysql.binlog.transaction_commit") tags
  else send opts ⟨ascii "mysql.binlog.query", 1, countType, tags⟩

def handleXidEvent (tags : Tags) (data : Bytes) : BinlogStatsM Unit := do
  let _ ← parseXidEvent data
  sendCommit opts (ascii "mysql.binlog.transaction_commit_xid") tags

/-- The digits of the filename as one number, computed with 64 bits. -/
def filenameNumber (filename : Bytes) : ℕ :=
  filename.foldl (fun number ch =>
    if isDigit ch then (number * 10 + (ch.toNat - 0x30)) % 2 ^ 64 else number) 0

def handleRotateEvent (tags : Tags) (data : Bytes) : BinlogStatsM Unit := do
  let ev ← parseRotateEvent data
  modify fun stats => { stats with currentFilename := ev.nextFilename }
  send opts ⟨ascii "mysql.binlog.rotate_binlog_file", 1, countType, tags⟩
  send opts ⟨ascii "mysql.binlog.parser_file_index", filenameNumber ev.nextFilename, gaugeType,
    tags⟩

def handleUnknownEvent (tags : Tags) (data : Bytes) : BinlogStatsM Unit := do
  let _ ← parseUnknownEvent data
  send opts ⟨ascii "mysql.binlog.unknown_event", 1, countType, tags⟩

/-- The cases of the `switch` are those of the reader. -/
def handleCase (tags : Tags) (data : Bytes) : EventCase → BinlogStatsM Unit
  | .silent => do
      let _ ← parseUnknownEvent data
  | .tableMap => do
      let _ ← parseTableMapEvent data
  | .rows => handleRowsEvent opts tags data
  | .query => handleQueryEvent opts tags data
  | .stop => do
      let _ ← parseUnknownEvent data
  | .xid => handleXidEvent opts tags data
  | .rotate => handleRotateEvent opts tags data
  | .formatDescription => do
      let _ ← parseFormatDescriptionEvent data
  | .unknown => handleUnknownEvent opts tags data

/-- The tags with the type of an event. -/
def typeTags (type : UInt8) : Tags :=
  opts.constantTags.emplace (ascii "binlog_event_type") (nameForBinlogEventType type)

/-- Artificial events have no position.  The 4 bytes are those of the checksum. -/
def locate (header : BinlogEventHeader) (data : Bytes) : BinlogStatsM Unit :=
  if header.endPosition ≠ 0 then
    modify fun stats =>
      { stats with currentPosition := sizeSub (sizeSub header.endPosition data.length) 4 }
  else return ()

def sendPosition (tags : Tags) : BinlogStatsM Unit := do
  let currentPosition := (← get).currentPosition
  if currentPosition ≠ 0 then
    send opts ⟨ascii "mysql.binlog.parser_position", currentPosition, gaugeType, tags⟩

def handleEvent (data : Bytes) : BinlogStatsM Unit := do
  modify fun stats =>
    { stats with transactionEventBytes := (stats.transactionEventBytes + data.length) % 2 ^ 64 }
  let header ← getEventHeader data
  locate header data
  let tags := typeTags opts header.type
  send opts ⟨ascii "mysql.binlog.event_bytes", data.length, distributionType, tags⟩
  let tags := tags.erase (ascii "binlog_event_type")
  sendPosition opts tags
  handleCase opts tags data (eventCase header.type)

/-- The loop of the program, with a bound on its iterations. -/
def readEvents : ℕ → BinlogStatsM Unit
  | 0 => throw .outOfFuel
  | fuel + 1 => do
      let data ← Client.getBinlogEvent
      handleEvent opts data
      readEvents fuel

def start (username password : Bytes) (statsd : StatsDClient) : BinlogStats where
  client := .create username password
  proc := .create
  statsd := statsd
  currentFilename := []
  currentPosition := 0
  transactionEventBytes := 0

/-- The program.  A missing filename is a null pointer; `constructed` is how the constructor of the
StatsD client ends. -/
def generateBinlogStats (lib : Library) (host : Except Exception Socket) (fuel randomObject : ℕ)
    (startFilename : Option Bytes) (startPosition : ℕ) (constructed : Except Exception Unit) :
    BinlogStatsM Unit := do
  Client.connect lib host fuel
  match startFilename with
  | none => throw (.undefined "string from a null pointer")
  | some startFilename =>
      let (filename, position) ← findStart lib fuel startFilename startPosition
      match constructed with
      | .error exception => throw (.raised exception)
      | .ok () =>
          modify fun stats =>
            { stats with currentFilename := filename, currentPosition := position }
          Client.readBinlogs lib fuel randomObject filename position 0 true
          readEvents opts fuel

end BinlogStats

section Metrics

open BinlogReader BinlogStats

variable {columns : List ColumnDef} {writeType : WriteType}

/-- The sizes of the images of a row before and after its change. -/
def Change.preBytes : Change columns writeType → ℕ
  | .insert _ => 0
  | .update pre _ => pre.encode.length
  | .delete pre => pre.encode.length

def Change.postBytes : Change columns writeType → ℕ
  | .insert post => post.encode.length
  | .update _ post => post.encode.length
  | .delete _ => 0

namespace RowsEventDef

def preBytes (event : RowsEventDef columns) : ℕ :=
  (event.changes.map Change.preBytes).sum % 2 ^ 64

def postBytes (event : RowsEventDef columns) : ℕ :=
  (event.changes.map Change.postBytes).sum % 2 ^ 64

/-- The metrics of the changes of a table.  An update that makes its rows smaller has a difference
close to 2⁶⁴. -/
def metrics (tags : Tags) (table : TableDef) (event : RowsEventDef columns) : List Metric :=
  let tags := (tags.emplace (ascii "db_name") table.databaseName).emplace (ascii "table_name")
    table.tableName
  match event.writeType with
  | .insert =>
      [⟨ascii "mysql.binlog.insert_events", 1, countType, tags⟩,
        ⟨ascii "mysql.binlog.insert_rows", event.changes.length, distributionType, tags⟩,
        ⟨ascii "mysql.binlog.insert_bytes", event.postBytes, distributionType, tags⟩]
  | .update =>
      [⟨ascii "mysql.binlog.update_events", 1, countType, tags⟩,
        ⟨ascii "mysql.binlog.update_rows", event.changes.length, distributionType, tags⟩,
        ⟨ascii "mysql.binlog.update_pre_bytes", event.preBytes, distributionType, tags⟩,
        ⟨ascii "mysql.binlog.update_post_bytes", event.postBytes, distributionType, tags⟩,
        ⟨ascii "mysql.binlog.update_delta_bytes", sizeSub event.postBytes event.preBytes,
          distributionType, tags⟩]
  | .delete =>
      [⟨ascii "mysql.binlog.delete_events", 1, countType, tags⟩,
        ⟨ascii "mysql.binlog.delete_rows", event.changes.length, distributionType, tags⟩,
        ⟨ascii "mysql.binlog.delete_bytes", event.preBytes, distributionType, tags⟩]

end RowsEventDef

/-- What the metrics of an event depend on besides the event. -/
structure Meter where
  position : ℕ
  bytes : ℕ

namespace LogEvent

/-- The event begins a transaction. -/
def begins : LogEvent → Bool
  | query event => event.query = ascii "BEGIN"
  | _ => false

/-- The event ends a transaction. -/
def commits : LogEvent → Bool
  | query event => event.query = ascii "COMMIT"
  | xid _ => true
  | _ => false

/-- The position of the event, or the last one if the event is artificial. -/
def positionOf (position : ℕ) (event : LogEvent) : ℕ :=
  if event.header.endPosition ≠ 0 then
    sizeSub (sizeSub event.header.endPosition event.encode.length) 4
  else position

/-- The bytes since the beginning of the transaction, this event included. -/
def bytesWith (bytes : ℕ) (event : LogEvent) : ℕ :=
  if event.begins then event.encode.length else (bytes + event.encode.length) % 2 ^ 64

def meterAfter (meter : Meter) (event : LogEvent) : Meter where
  position := event.positionOf meter.position
  bytes := if event.commits then 0 else event.bytesWith meter.bytes

def commitMetrics (tags : Tags) (name : Bytes) (bytes : ℕ) : List Metric :=
  [⟨name, 1, countType, tags⟩,
    ⟨ascii "mysql.binlog.transaction_event_bytes", bytes, distributionType, tags⟩]

/-- What is sent for an event besides its size and its position. -/
def ownMetrics (tags : Tags) (bytes : ℕ) : LogEvent → List Metric
  | tableMap _ _ => []
  | rows table _ event => event.metrics tags table
  | query event =>
      let tags := if event.databaseName ≠ [] then
        tags.emplace (ascii "db_name") event.databaseName else tags
      if event.query = ascii "BEGIN" then
        [⟨ascii "mysql.binlog.transaction_begin", 1, countType, tags⟩]
      else if event.query = ascii "COMMIT" then
        commitMetrics tags (ascii "mysql.binlog.transaction_commit") bytes
      else [⟨ascii "mysql.binlog.query", 1, countType, tags⟩]
  | rotate event =>
      [⟨ascii "mysql.binlog.rotate_binlog_file", 1, countType, tags⟩,
        ⟨ascii "mysql.binlog.parser_file_index",
          digitsValue (event.nextFilename.filter isDigit) % 2 ^ 64, gaugeType, tags⟩]
  | xid _ => commitMetrics tags (ascii "mysql.binlog.transaction_commit_xid") bytes
  | formatDescription _ => []
  | other event =>
      if event.header.type = previousGtidsEvent ∨ event.header.type = anonymousGtidEvent ∨
          event.header.type = stopEvent then []
      else [⟨ascii "mysql.binlog.unknown_event", 1, countType, tags⟩]

def metrics (opts : StatsOptions) (meter : Meter) (event : LogEvent) : List Metric :=
  let tags := (typeTags opts event.header.type).erase (ascii "binlog_event_type")
  let position := event.positionOf meter.position
  [⟨ascii "mysql.binlog.event_bytes", event.encode.length, distributionType,
      typeTags opts event.header.type⟩] ++
    (if position ≠ 0 then
      [⟨ascii "mysql.binlog.parser_position", position, gaugeType, tags⟩] else []) ++
    event.ownMetrics tags (event.bytesWith meter.bytes)

/-- The metrics of a log. -/
def allMetrics (opts : StatsOptions) : Meter → List LogEvent → List Metric
  | _, [] => []
  | meter, event :: events =>
      event.metrics opts meter ++ allMetrics opts (event.meterAfter meter) events

end LogEvent

end Metrics

namespace StatsDClient

/-- Nothing is buffered and the connection works. -/
structure Ready (statsd : StatsDClient) (stdout : Bool) (incoming sent : Bytes) : Prop where
  stdout_eq : statsd.writingStdout = stdout
  holds : statsd.stream.Holds [] incoming sent

variable {statsd : StatsDClient} {stdout : Bool} {incoming sent : Bytes}

theorem line_ne_nil (format : StatsFormat) (stdout : Bool) (metric : Metric) :
    line format stdout metric ≠ [] := by
  simp [line, ascii]

theorem send_ok (ready : statsd.Ready stdout incoming sent) (format : StatsFormat)
    (metric : Metric) :
    ∃ after, send format metric statsd = .ok () after ∧
      after.Ready stdout incoming (sent ++ line format stdout metric) := by
  have held : Stream.Holds
      { statsd.stream with buf := line format statsd.writingStdout metric }
      (line format stdout metric) incoming sent := by
    rw [ready.stdout_eq]
    exact ⟨rfl, ready.holds.incoming_eq, ready.holds.sent_eq, ready.holds.healthy⟩
  rcases Buffer.write_whole held (line_ne_nil format stdout metric) with ⟨stream, wrote, after⟩
  refine ⟨{ statsd with stream := stream }, ?_, ready.stdout_eq, after⟩
  rw [send, if_neg (not_not.mpr ready.holds.buf_eq)]
  exact Stateful.zoom_of_ok wrote

end StatsDClient

namespace BinlogStats

open BinlogProcessor
open BinlogReader (EventCase eventCase getEventHeader eventCase_rows eventCase_other
  length_changes_lt getEventHeader_encode)

variable {opts : StatsOptions} {stats after : BinlogStats}

/-- The computation sends the metrics and leaves the given variables. -/
def Sends (opts : StatsOptions) (action : BinlogStatsM Unit) (stats : BinlogStats)
    (metrics : List Metric) (after : BinlogStats) : Prop :=
  ∀ stdout incoming sent, stats.statsd.Ready stdout incoming sent →
    ∃ statsd, action stats = .ok () { after with statsd := statsd } ∧
      statsd.Ready stdout incoming
        (sent ++ metrics.flatMap (StatsDClient.line opts.format stdout))

theorem sends_pure (opts : StatsOptions) (stats : BinlogStats) :
    Sends opts (pure ()) stats [] stats := by
  intro stdout incoming sent ready
  refine ⟨stats.statsd, rfl, ?_⟩
  rwa [List.flatMap_nil, List.append_nil]

theorem sends_send (opts : StatsOptions) (metric : Metric) (stats : BinlogStats) :
    Sends opts (send opts metric) stats [metric] stats := by
  intro stdout incoming sent ready
  rcases StatsDClient.send_ok ready opts.format metric with ⟨statsd, returned, readyAfter⟩
  refine ⟨statsd, Stateful.zoom_of_ok returned, ?_⟩
  rwa [List.flatMap_singleton]

/-- Metrics are sent one after another. -/
theorem Sends.bind {first : BinlogStatsM Unit} {next : Unit → BinlogStatsM Unit}
    {middle : BinlogStats} {sooner later : List Metric}
    (sends : Sends opts first stats sooner middle)
    (sendsNext : ∀ statsd, Sends opts (next ()) { middle with statsd := statsd } later after) :
    Sends opts (first >>= next) stats (sooner ++ later) after := by
  intro stdout incoming sent ready
  rcases sends stdout incoming sent ready with ⟨statsd, returned, readyMiddle⟩
  rcases sendsNext statsd stdout incoming _ readyMiddle with ⟨last, returnedLast, readyLast⟩
  refine ⟨last, (Stateful.bind_of_ok returned).trans returnedLast, ?_⟩
  rwa [List.flatMap_append, ← List.append_assoc]

/-- What does not touch the StatsD client sends nothing. -/
theorem Sends.after_ok {Value : Type} {action : BinlogStatsM Value} {value : Value}
    {next : Value → BinlogStatsM Unit} {middle : BinlogStats} {metrics : List Metric}
    (returned : action stats = .ok value middle) (untouched : middle.statsd = stats.statsd)
    (sends : Sends opts (next value) middle metrics after) :
    Sends opts (action >>= next) stats metrics after := by
  intro stdout incoming sent ready
  rw [← untouched] at ready
  rcases sends stdout incoming sent ready with ⟨statsd, ends, readyAfter⟩
  exact ⟨statsd, (Stateful.bind_of_ok returned).trans ends, readyAfter⟩

/-- A metric is sent before the others. -/
theorem sends_cons {metric : Metric} {metrics : List Metric} {next : Unit → BinlogStatsM Unit}
    (sends : ∀ statsd, Sends opts (next ()) { stats with statsd := statsd } metrics after) :
    Sends opts (send opts metric >>= next) stats (metric :: metrics) after :=
  (sends_send opts metric stats).bind sends

theorem sends_forM (opts : StatsOptions) (metrics : List Metric) (stats : BinlogStats) :
    Sends opts (metrics.forM (send opts)) stats metrics stats := by
  induction metrics generalizing stats with
  | nil => exact sends_pure opts stats
  | cons metric metrics ih => exact sends_cons fun statsd => ih { stats with statsd := statsd }

section Handling

variable {tags : Tags} {tables : LogEvent.Tables}

theorem after_parsed {Event : Type} {parse : ProcessorM Event} {ev : Event}
    {proc : BinlogProcessor} {next : Event → BinlogStatsM Unit} {metrics : List Metric}
    (parsed : parse stats.proc = .ok ev proc)
    (sends : Sends opts (next ev) { stats with proc := proc } metrics after) :
    Sends opts ((liftM parse : BinlogStatsM Event) >>= next) stats metrics after :=
  .after_ok (Stateful.zoom_of_ok parsed) rfl sends

/-- The program after the case of an event. -/
def handled (stats : BinlogStats) (event : LogEvent) : BinlogStats :=
  { stats with
    proc := stats.proc.logged event
    currentFilename := event.filenameAfter stats.currentFilename
    transactionEventBytes :=
      if event.commits then 0
      else if event.begins then event.encode.length
      else stats.transactionEventBytes }

theorem foldl_bytes {Item : Type} (size : Item → ℕ) (items : List Item) (start : ℕ) :
    items.foldl (fun bytes item => (bytes + size item) % 2 ^ 64) (start % 2 ^ 64) =
      (start + (items.map size).sum) % 2 ^ 64 := by
  induction items generalizing start with
  | nil => simp
  | cons item items ih =>
      simp only [List.foldl_cons, List.map_cons, List.sum_cons, Nat.mod_add_mod]
      rw [ih, Nat.add_assoc]

theorem totalPreBytes_changes {columns : List ColumnDef} {writeType : WriteType}
    (changes : List (Change columns writeType)) :
    totalPreBytes (changes.map Change.rowChange) = (changes.map Change.preBytes).sum % 2 ^ 64 := by
  have same : (changes.map Change.rowChange).map RowChange.preBytes =
      changes.map Change.preBytes := by
    rw [List.map_map]
    exact List.map_congr_left fun change _ => by cases change <;> rfl
  rw [← same, ← Nat.zero_add (List.sum _), ← foldl_bytes, Nat.zero_mod]
  rfl

theorem totalPostBytes_changes {columns : List ColumnDef} {writeType : WriteType}
    (changes : List (Change columns writeType)) :
    totalPostBytes (changes.map Change.rowChange) =
      (changes.map Change.postBytes).sum % 2 ^ 64 := by
  have same : (changes.map Change.rowChange).map RowChange.postBytes =
      changes.map Change.postBytes := by
    rw [List.map_map]
    exact List.map_congr_left fun change _ => by cases change <;> rfl
  rw [← same, ← Nat.zero_add (List.sum _), ← foldl_bytes, Nat.zero_mod]
  rfl

/-- The metrics of an event are those of its changes. -/
theorem rowsMetrics_event (tags : Tags) (table : TableDef) (tableId : ℕ)
    (event : RowsEventDef table.columns) :
    rowsMetrics tags (event.event tableId table.info) = event.metrics tags table := by
  simp only [rowsMetrics, RowsEventDef.event, totalPreBytes_changes, totalPostBytes_changes,
    List.length_map, RowsEventDef.metrics, TableDef.info, RowsEventDef.preBytes,
    RowsEventDef.postBytes]

theorem sends_rows (tracks : LogEvent.Tracks tables stats.proc) {table : TableDef} {tableId : ℕ}
    (described : tables tableId = some table) (event : RowsEventDef table.columns) :
    Sends opts (handleRowsEvent opts tags (LogEvent.rows table tableId event).encode) stats
      (event.metrics tags table) (stats.handled (.rows table tableId event)) := by
  apply after_parsed (LogEvent.parseRowsEvent_logged tracks described event
    (length_changes_lt table.nonempty event tableId))
  rw [← rowsMetrics_event tags table tableId]
  exact sends_forM opts _ _

theorem sends_commit (name : Bytes) (tags : Tags) (stats : BinlogStats) :
    Sends opts (sendCommit opts name tags) stats
      (LogEvent.commitMetrics tags name stats.transactionEventBytes)
      { stats with transactionEventBytes := 0 } := by
  apply sends_cons
  intro statsd
  have got : (get : BinlogStatsM BinlogStats) { stats with statsd := statsd } =
    .ok { stats with statsd := statsd } { stats with statsd := statsd } := rfl
  apply Sends.after_ok got rfl
  apply sends_cons
  intro last
  exact sends_pure opts { stats with statsd := last, transactionEventBytes := 0 }

/-- Variables are changed. -/
theorem after_modify {update : BinlogStats → BinlogStats} {next : Unit → BinlogStatsM Unit}
    {metrics : List Metric} (untouched : (update stats).statsd = stats.statsd)
    (sends : Sends opts (next ()) (update stats) metrics after) :
    Sends opts ((modify update : BinlogStatsM Unit) >>= next) stats metrics after :=
  .after_ok rfl untouched sends

theorem sends_query (event : QueryEventDef) :
    Sends opts (handleQueryEvent opts tags (LogEvent.query event).encode) stats
      ((LogEvent.query event).ownMetrics tags stats.transactionEventBytes)
      (stats.handled (.query event)) := by
  have notCommit : ascii "BEGIN" ≠ ascii "COMMIT" := by decide
  have sameName : event.event.databaseName = event.databaseName := rfl
  have sameQuery : event.event.query = event.query := rfl
  apply after_parsed (LogEvent.parseQueryEvent_logged event)
  simp only [sameName, sameQuery, LogEvent.ownMetrics, handled, LogEvent.begins, LogEvent.commits,
    LogEvent.filenameAfter, decide_eq_true_eq]
  split
  case isTrue isBegin =>
    rw [isBegin, if_neg notCommit]
    apply after_modify rfl
    exact sends_send opts _ _
  case isFalse notBegin =>
    split
    · exact sends_commit _ _ _
    · exact sends_send opts _ _

theorem sends_xid (event : XidEventDef) :
    Sends opts (handleXidEvent opts tags (LogEvent.xid event).encode) stats
      ((LogEvent.xid event).ownMetrics tags stats.transactionEventBytes)
      (stats.handled (.xid event)) := by
  apply after_parsed (LogEvent.parseXidEvent_logged event)
  exact sends_commit _ tags { stats with proc := stats.proc.logged (.xid event) }

theorem foldl_filename (filename : Bytes) (start : ℕ) :
    filename.foldl (fun number ch =>
        if isDigit ch then (number * 10 + (ch.toNat - 0x30)) % 2 ^ 64 else number)
        (start % 2 ^ 64) =
      (filename.filter isDigit).foldl (fun number digit => 10 * number + (digit.toNat - 0x30))
        start % 2 ^ 64 := by
  induction filename generalizing start with
  | nil => rfl
  | cons ch filename ih =>
      cases digit : isDigit ch with
      | false =>
          rw [List.foldl_cons, List.filter_cons_of_neg (by simp [digit]), ← ih]
          simp [digit]
      | true =>
          rw [List.foldl_cons, List.filter_cons_of_pos digit, List.foldl_cons, ← ih]
          simp only [digit, if_true]
          congr 1
          omega

theorem filenameNumber_eq (filename : Bytes) :
    filenameNumber filename = digitsValue (filename.filter isDigit) % 2 ^ 64 := by
  rw [digitsValue, ← foldl_filename, Nat.zero_mod]
  rfl

theorem sends_rotate (event : RotateEventDef) :
    Sends opts (handleRotateEvent opts tags (LogEvent.rotate event).encode) stats
      ((LogEvent.rotate event).ownMetrics tags stats.transactionEventBytes)
      (stats.handled (.rotate event)) := by
  apply after_parsed (LogEvent.parseRotateEvent_logged event)
  apply after_modify rfl
  apply sends_cons
  intro statsd
  rw [← filenameNumber_eq]
  exact sends_send opts _ _

/-- A case that only parses the event. -/
theorem sends_parsed {Event : Type} {parse : ProcessorM Event} {ev : Event} {event : LogEvent}
    (parsed : parse stats.proc = .ok ev (stats.proc.logged event))
    (nothing : event.ownMetrics tags stats.transactionEventBytes = [])
    (same : stats.handled event = { stats with proc := stats.proc.logged event }) :
    Sends opts (do let _ ← (liftM parse : BinlogStatsM Event)) stats
      (event.ownMetrics tags stats.transactionEventBytes) (stats.handled event) := by
  apply after_parsed parsed
  rw [nothing, same]
  exact sends_pure opts _

theorem sends_other (event : OtherEventDef) :
    Sends opts (handleCase opts tags (LogEvent.other event).encode (eventCase event.header.type))
      stats ((LogEvent.other event).ownMetrics tags stats.transactionEventBytes)
      (stats.handled (.other event)) := by
  rw [eventCase_other event.headerType]
  split
  case isTrue silent =>
    refine sends_parsed (LogEvent.parseUnknownEvent_logged event) ?_ rfl
    rw [LogEvent.ownMetrics, if_pos (silent.imp_right Or.inl)]
  case isFalse notSilent =>
    split
    case isTrue isStop =>
      refine sends_parsed (LogEvent.parseUnknownEvent_logged event) ?_ rfl
      rw [LogEvent.ownMetrics, if_pos (Or.inr (Or.inr isStop))]
    case isFalse notStop =>
      apply after_parsed (LogEvent.parseUnknownEvent_logged event)
      rw [LogEvent.ownMetrics, if_neg (by tauto)]
      exact sends_send opts _ _

/-- The case of an admissible event sends the metrics that the event has of its own. -/
theorem sends_case (tracks : LogEvent.Tracks tables stats.proc) (event : LogEvent)
    (admissible : event.Admissible tables) :
    Sends opts (handleCase opts tags event.encode (eventCase event.header.type)) stats
      (event.ownMetrics tags stats.transactionEventBytes) (stats.handled event) := by
  cases event with
  | tableMap table map =>
      rw [LogEvent.header, map.headerType]
      exact sends_parsed (LogEvent.parseTableMapEvent_logged table map) rfl rfl
  | rows table tableId event =>
      rw [LogEvent.header, event.headerType, eventCase_rows]
      exact sends_rows tracks admissible event
  | query event =>
      rw [LogEvent.header, event.headerType]
      exact sends_query event
  | rotate event =>
      rw [LogEvent.header, event.headerType]
      exact sends_rotate event
  | xid event =>
      rw [LogEvent.header, event.headerType]
      exact sends_xid event
  | formatDescription event =>
      rw [LogEvent.header, event.headerType]
      exact sends_parsed (LogEvent.parseFormatDescriptionEvent_logged event) rfl rfl
  | other event => exact sends_other event

/-- What the metrics of the next event depend on. -/
def meter (stats : BinlogStats) : Meter where
  position := stats.currentPosition
  bytes := stats.transactionEventBytes

/-- The program after an event of the log. -/
def logged (stats : BinlogStats) (event : LogEvent) : BinlogStats :=
  { stats with
    proc := stats.proc.logged event
    currentFilename := event.filenameAfter stats.currentFilename
    currentPosition := (event.meterAfter stats.meter).position
    transactionEventBytes := (event.meterAfter stats.meter).bytes }

theorem locate_ok (event : LogEvent) (stats : BinlogStats) :
    locate event.header event.encode stats =
      .ok () { stats with currentPosition := event.positionOf stats.currentPosition } := by
  rw [locate, LogEvent.positionOf]
  split <;> rfl

theorem sends_position (tags : Tags) (stats : BinlogStats) :
    Sends opts (sendPosition opts tags) stats
      (if stats.currentPosition ≠ 0 then
        [⟨ascii "mysql.binlog.parser_position", stats.currentPosition, gaugeType, tags⟩] else [])
      stats := by
  have got : (get : BinlogStatsM BinlogStats) stats = .ok stats stats := rfl
  apply Sends.after_ok got rfl
  dsimp only
  split
  · exact sends_send opts _ _
  · exact sends_pure opts _

/-- The program before the case of an event. -/
def counted (stats : BinlogStats) (event : LogEvent) (statsd : StatsDClient) : BinlogStats :=
  { stats with
    statsd := statsd
    currentPosition := event.positionOf stats.currentPosition
    transactionEventBytes := (stats.transactionEventBytes + event.encode.length) % 2 ^ 64 }

theorem handled_counted (stats : BinlogStats) (event : LogEvent) (statsd : StatsDClient) :
    (stats.counted event statsd).handled event = { stats.logged event with statsd := statsd } := by
  simp only [handled, counted, logged, meter, LogEvent.meterAfter, LogEvent.bytesWith]

theorem ownMetrics_bytesWith (tags : Tags) (bytes : ℕ) (event : LogEvent) :
    event.ownMetrics tags (event.bytesWith bytes) =
      event.ownMetrics tags ((bytes + event.encode.length) % 2 ^ 64) := by
  cases begins : event.begins with
  | false => simp [LogEvent.bytesWith, begins]
  | true =>
      cases event with
      | query event =>
          have isBegin : event.query = ascii "BEGIN" := of_decide_eq_true begins
          simp [LogEvent.ownMetrics, isBegin]
      | _ => cases begins

theorem sends_counted (tracks : LogEvent.Tracks tables stats.proc) (event : LogEvent)
    (admissible : event.Admissible tables) (statsd : StatsDClient) :
    Sends opts (handleCase opts tags event.encode (eventCase event.header.type))
      (stats.counted event statsd)
      (event.ownMetrics tags ((stats.transactionEventBytes + event.encode.length) % 2 ^ 64))
      (stats.logged event) := by
  have tracksCounted : LogEvent.Tracks tables (stats.counted event statsd).proc := tracks
  intro stdout incoming sent ready
  rcases sends_case tracksCounted event admissible stdout incoming sent ready with
    ⟨last, returned, readyAfter⟩
  rw [handled_counted] at returned
  exact ⟨last, returned, readyAfter⟩

/-- An admissible event is handled as the log says. -/
theorem sends_event (tracks : LogEvent.Tracks tables stats.proc) (event : LogEvent)
    (admissible : event.Admissible tables) :
    Sends opts (handleEvent opts event.encode) stats (event.metrics opts stats.meter)
      (stats.logged event) := by
  apply after_modify rfl
  refine after_parsed (BinlogReader.getEventHeader_encode event _) ?_
  apply Sends.after_ok (locate_ok event _) rfl
  rw [LogEvent.metrics, List.append_assoc, List.singleton_append]
  apply sends_cons
  intro statsd
  apply (sends_position _ _).bind
  intro last
  rw [ownMetrics_bytesWith]
  exact sends_counted tracks event admissible last

/-- The loop of the program as one over the events of a log. -/
def eventLoop (opts : StatsOptions) : EventLoop BinlogStats where
  client := BinlogStats.client
  setClient := fun client stats => { stats with client := client }
  handle := handleEvent opts

theorem readEvents_eq_run (fuel : ℕ) : readEvents opts fuel = (eventLoop opts).run fuel := by
  induction fuel with
  | zero => rfl
  | succ fuel ih =>
      rw [readEvents, EventLoop.run, ih]
      rfl

/-- The program knows the tables and can send. -/
def Knows (stdout : Bool) (incoming : Bytes) (tables : LogEvent.Tables) (stats : BinlogStats) :
    Prop :=
  LogEvent.Tracks tables stats.proc ∧ ∃ sent, stats.statsd.Ready stdout incoming sent

/-- The program has sent the metrics of an event. -/
def Logs (opts : StatsOptions) (stdout : Bool) (incoming : Bytes) (stats : BinlogStats)
    (event : LogEvent) (after : BinlogStats) : Prop :=
  after = { stats.logged event with statsd := after.statsd } ∧
    ∀ sent, stats.statsd.Ready stdout incoming sent → after.statsd.Ready stdout incoming
      (sent ++ (event.metrics opts stats.meter).flatMap (StatsDClient.line opts.format stdout))

theorem handles_eventLoop (opts : StatsOptions) (stdout : Bool) (incoming : Bytes) :
    (eventLoop opts).Handles (Knows stdout incoming) (Logs opts stdout incoming) where
  client_set := fun _ _ => rfl
  knows_set := fun _ _ _ knows => knows
  handled := by
    rintro tables stats event ⟨tracks, sent, ready⟩ admissible
    rcases sends_event tracks event admissible stdout incoming sent ready with
      ⟨statsd, handled, readyAfter⟩
    refine ⟨{ stats.logged event with statsd := statsd }, handled, ⟨rfl, ?_⟩,
      ⟨tracks.logged event, _, readyAfter⟩, rfl⟩
    intro other readyOther
    rw [← ready.holds.sent_eq, readyOther.holds.sent_eq] at readyAfter
    exact readyAfter

/-- What a program has done that has handled some events. -/
structure Replays (opts : StatsOptions) (stdout : Bool) (incoming sent : Bytes)
    (events : List LogEvent) (stats after : BinlogStats) : Prop where
  ready : after.statsd.Ready stdout incoming
    (sent ++ (LogEvent.allMetrics opts stats.meter events).flatMap
      (StatsDClient.line opts.format stdout))
  filename_eq : after.currentFilename = events.foldl LogEvent.filenameAfter stats.currentFilename
  meter_eq : after.meter = events.foldl LogEvent.meterAfter stats.meter
  proc_eq : after.proc = events.foldl BinlogProcessor.logged stats.proc

theorem replays_of_eventLoop {stdout : Bool} {incoming sent : Bytes} {events : List LogEvent}
    (replays : (eventLoop opts).Replays (Logs opts stdout incoming) stats events after)
    (ready : stats.statsd.Ready stdout incoming sent) :
    Replays opts stdout incoming sent events stats after := by
  induction replays generalizing sent with
  | ended stats client =>
      refine ⟨?_, rfl, rfl, rfl⟩
      rw [LogEvent.allMetrics, List.flatMap_nil, List.append_nil]
      exact ready
  | logged client handled _ ih =>
      rcases handled with ⟨same, sends⟩
      have later := ih (sends sent ready)
      have sameMeter := congrArg meter same
      have sameName := congrArg currentFilename same
      have sameProc := congrArg proc same
      refine ⟨?_, ?_, ?_, ?_⟩
      · have readyLater := later.ready
        rw [sameMeter, List.append_assoc, ← List.flatMap_append] at readyLater
        exact readyLater
      · exact later.filename_eq.trans (by rw [sameName]; rfl)
      · exact later.meter_eq.trans (by rw [sameMeter]; rfl)
      · exact later.proc_eq.trans (by rw [sameProc]; rfl)

end Handling

end BinlogStats

end EventAsync.MySQL
