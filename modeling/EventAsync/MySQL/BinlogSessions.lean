import EventAsync.MySQL.BinlogReader
import EventAsync.MySQL.Logins

/-!
# A session of the binlog reader

The program connects to a server and logs in, asks the server for the current
position of its binlog unless it has been told where to start, requests the
stream, and then prints what it receives.  All of this goes over one connection;
each part of the session starts where the part before it has stopped reading.
-/

namespace EventAsync.MySQL

open ByteCodec ProtocolBuffer

/-- `std::bad_variant_access`. -/
def badVariantAccess : Stop :=
  .runtimeError "std::bad_variant_access"

/-- `get<string>(row.at(name))`. -/
def DictRow.getString (row : DictRow) (name : Bytes) : Except Stop Bytes :=
  match row name with
  | none => .error (.raised (.outOfRange "unordered_map::at"))
  | some (.string str) => .ok str
  | some _ => .error badVariantAccess

/-- `get<uint64_t>(row.at(name))`. -/
def DictRow.getUint64 (row : DictRow) (name : Bytes) : Except Stop ℕ :=
  match row name with
  | none => .error (.raised (.outOfRange "unordered_map::at"))
  | some (.uint64 number) => .ok number
  | some _ => .error badVariantAccess

/-- The place to start at, with what is missing taken from the status of the server. -/
def startFrom (filename : Bytes) (position : ℕ) (res : ResultSet) : Except Stop (Bytes × ℕ) :=
  match res.rows with
  | .vecs _ => .error badVariantAccess
  | .dicts [row] => do
      let filename ← if filename = [] then row.getString (ascii "File") else .ok filename
      let position ← if position = 0 then row.getUint64 (ascii "Position") else .ok position
      return (filename, position)
  | .dicts _ => .error (.runtimeError "SHOW MASTER STATUS did not return one row")

def findStart (lib : Library) (fuel : ℕ) (filename : Bytes) (position : ℕ) :
    ClientM (Bytes × ℕ) := do
  if filename = [] ∨ position = 0 then
    let result ← Client.query lib fuel (ascii "SHOW MASTER STATUS") true
    match startFrom filename position result with
    | .error stop => throw stop
    | .ok start => return start
  else return (filename, position)

namespace BinlogReader

def start (username password : Bytes) : BinlogReader where
  client := .create username password
  proc := .create
  filename := []
  stdout := []

def startComment (filename : Bytes) (position : ℕ) : Bytes :=
  ascii "-- starting at " ++ cStr filename ++ ascii ":" ++ decimal position ++ ascii "\n\n"

/-- The program. -/
def readBinlogs (printer : Printer) (lib : Library) (host : Except Exception Socket)
    (fuel randomObject : ℕ) (startFilename : Bytes) (startPosition : ℕ) : BinlogReaderM Unit := do
  Client.connect lib host fuel
  let (filename, position) ← findStart lib fuel startFilename startPosition
  Client.readBinlogs lib fuel randomObject filename position 0 true
  print (startComment filename position)
  modify fun reader => { reader with filename := filename }
  readEvents printer fuel

end BinlogReader

/-- The answer to `SHOW MASTER STATUS`: one row with the name of a file and a position. -/
structure MasterStatus (lib : Library) where
  columns : List ColumnPacket
  row : TextRow lib columns
  status : ResultStatus
  file : Bytes
  position : ℕ
  nonempty : columns ≠ []
  columnsFit : columns.length < 2 ^ 64
  file_eq : row.dict (ascii "File") = some (.string file)
  position_eq : row.dict (ascii "Position") = some (.uint64 position)
  noMore : ¬moreResultsExist status.flags = true
  fits : ∀ payload ∈ (QueryResult.resultSet columns nonempty columnsFit [row] status).payloads,
    payload.length < 2 ^ 24 - 1

/-- Before the only result of a response there is none. -/
theorem QueryResult.more_of_mem_nil {lib : Library} :
    ∀ result ∈ ([] : List (QueryResult lib)), result.More := by
  intro result mem
  cases mem

namespace MasterStatus

variable {lib : Library}

def result (status : MasterStatus lib) : QueryResult lib :=
  .resultSet status.columns status.nonempty status.columnsFit [status.row] status.status

def response (status : MasterStatus lib) : QueryResponse lib where
  before := []
  last := status.result
  more := QueryResult.more_of_mem_nil
  noMore := status.noMore
  fits := by
    intro result mem
    cases List.mem_singleton.mp mem
    exact status.fits

/-- Where the program starts that has been told a part of it. -/
def startAt (status : MasterStatus lib) (filename : Bytes) (position : ℕ) : Bytes × ℕ :=
  (if filename = [] then status.file else filename,
    if position = 0 then status.position else position)

theorem startFrom_matches (status : MasterStatus lib) (filename : Bytes) (position : ℕ)
    {res : ResultSet} (isMatch : status.result.Matches true res) :
    startFrom filename position res = .ok (status.startAt filename position) := by
  have rows : res.rows = .dicts [status.row.dict] := isMatch.rows
  simp only [startFrom, rows, startAt, DictRow.getString, DictRow.getUint64, status.file_eq,
    status.position_eq]
  split_ifs <;> rfl

end MasterStatus

/-- What a server sends to the program. -/
structure BinlogServer (lib : Library) where
  login : LoginServer
  status : MasterStatus lib
  checksums : QueryResponse lib
  history : History
  single : checksums.before = []

namespace BinlogServer

variable {lib : Library} {client : Client} {following : Bytes} {fuel : ℕ}

/-- The answer to `SHOW MASTER STATUS`, if the program asks for it. -/
def statusBytes (server : BinlogServer lib) (filename : Bytes) (position : ℕ) : Bytes :=
  if filename = [] ∨ position = 0 then server.status.response.encode else []

/-- Everything that the server sends to a client with the right password. -/
def encode (server : BinlogServer lib) (client : Client) (filename : Bytes) (position : ℕ) :
    Bytes :=
  packet 0 server.login.handshake.payload ++
    (packets 2 (server.login.replies lib
      (client.loginRequest lib server.login.handshake).payload) ++
    (server.statusBytes filename position ++
      (server.checksums.encode ++ server.history.stream.encode)))

theorem findStart_ok (server : BinlogServer lib) (filename : Bytes) (position : ℕ)
    (receives : client.Receives (server.statusBytes filename position ++ following))
    (enough : server.status.response.payloads.length < fuel) :
    ∃ after, findStart lib fuel filename position client =
        .ok (server.status.startAt filename position) after ∧ after.Receives following := by
  by_cases asks : filename = [] ∨ position = 0
  · rw [statusBytes, if_pos asks] at receives
    have noInfo : server.status.response.NoInfoBeforeLast := nofun
    rcases QueryResponse.decoded_of_noInfoBeforeLast receives enough noInfo
      (ascii "SHOW MASTER STATUS") true with ⟨sets, queried, results, allMatch, receivesQueried⟩
    rcases allMatch with _ | ⟨isMatch, _ | _⟩
    rename_i res
    have answered : Client.query lib fuel (ascii "SHOW MASTER STATUS") true client =
        .ok res queried := by
      rw [Client.query, Stateful.bind_of_ok results]
      rfl
    refine ⟨queried, ?_, receivesQueried⟩
    rw [findStart, if_pos asks, Stateful.bind_of_ok answered]
    simp only [server.status.startFrom_matches filename position isMatch]
    rfl
  · rw [statusBytes, if_neg asks] at receives
    refine ⟨client, ?_, receives⟩
    rw [findStart, if_neg asks]
    rw [not_or] at asks
    simp only [MasterStatus.startAt, if_neg asks.1, if_neg asks.2]
    rfl

/-- A client with the right password logs in, learns where to start and requests the stream. -/
theorem exists_started (digest : ∀ data, (lib.sha256 data).length = 0x20)
    (server : BinlogServer lib) {username password following : Bytes} {socket : Socket}
    (startFilename : Bytes) (startPosition randomObject fuel : ℕ) (name : 0 ∉ username)
    (account : server.login.stored username = some (lib.sha256 (lib.sha256 password)))
    (announced : 8 ≤ server.login.handshake.authPluginDataLength.toNat)
    (healthy : socket.Healthy)
    (incoming : socket.incoming =
      server.encode (.create username password) startFilename startPosition ++ following)
    (statusFuel : server.status.response.payloads.length < fuel + 2)
    (checksumsFuel : server.checksums.payloads.length < fuel + 2) :
    ∃ connected asked started,
      Client.connect lib (.ok socket) (fuel + 2) (.create username password) = .ok () connected ∧
      findStart lib (fuel + 2) startFilename startPosition connected =
        .ok (server.status.startAt startFilename startPosition) asked ∧
      Client.readBinlogs lib (fuel + 2) randomObject
          (server.status.startAt startFilename startPosition).1
          (server.status.startAt startFilename startPosition).2 0 true asked =
        .ok () started ∧
      started.nextSeq = 1 ∧ started.binlogReadState = .readingFirstEvent ∧
      started.Receives (server.history.stream.encode ++ following) := by
  have dialogue := incoming
  simp only [BinlogServer.encode, List.append_assoc] at dialogue
  have login := Client.connect_replied digest server.login fuel
    (rfl : (Client.create username password).fd = none) name announced healthy dialogue
  rw [if_pos (Client.grants_loginRequest digest account)] at login
  rcases login with ⟨connection, last, connected, _, carries⟩
  have receives : (((Client.create username password).store
      server.login.handshake.toHandshakeFields).attached connection last).Receives _ :=
    ⟨connection, rfl, carries.incoming_eq, carries.healthy⟩
  rcases server.findStart_ok startFilename startPosition receives statusFuel with
    ⟨asked, found, receivesAsked⟩
  rcases Client.readBinlogs_ok server.checksums server.single receivesAsked checksumsFuel
    randomObject (server.status.startAt startFilename startPosition).2 0
    (server.status.startAt startFilename startPosition).1 true with
    ⟨started, requested, receivesStarted⟩
  rcases Client.readBinlogs_returned requested with ⟨nextSeq, state⟩
  exact ⟨_, asked, started, connected, found, requested, nextSeq, state, receivesStarted⟩

end BinlogServer

namespace BinlogReader

variable {lib : Library} {reader : BinlogReader}

theorem bind_client {Result : Type} {action : ClientM Result} {result : Result} {after : Client}
    {next : Result → BinlogReaderM Unit} (returned : action reader.client = .ok result after) :
    ((liftM action : BinlogReaderM Result) >>= next) reader =
      next result { reader with client := after } :=
  Stateful.bind_of_ok (Stateful.zoom_of_ok returned)

section Sample

open Client

def fileColumn : ColumnPacket where
  definition :=
    { QueryResponse.sampleColumn.definition with columnName := ascii "File", type := 0xFD }
  unused := 0
  charsetFits := QueryResponse.sampleColumn.charsetFits
  maxValueLengthFits := QueryResponse.sampleColumn.maxValueLengthFits
  flagsFit := QueryResponse.sampleColumn.flagsFit
  unusedFits := QueryResponse.sampleColumn.unusedFits

def positionColumn : ColumnPacket where
  definition :=
    { QueryResponse.sampleColumn.definition with columnName := ascii "Position", type := 0x08 }
  unused := 0
  charsetFits := QueryResponse.sampleColumn.charsetFits
  maxValueLengthFits := QueryResponse.sampleColumn.maxValueLengthFits
  flagsFit := QueryResponse.sampleColumn.flagsFit
  unusedFits := QueryResponse.sampleColumn.unusedFits

def sampleMasterStatus : MasterStatus sampleLibrary where
  columns := [fileColumn, positionColumn]
  row :=
    { cells := [⟨some (ascii "bin.7"), .string (ascii "bin.7")⟩, ⟨some (ascii "156"), .uint64 156⟩]
      parses := .cons rfl (.cons rfl .nil) }
  status := QueryResponse.sampleStatus false []
  file := ascii "bin.7"
  position := 156
  nonempty := List.cons_ne_nil _ _
  columnsFit := (by norm_num : 2 < 2 ^ 64)
  file_eq := rfl
  position_eq := rfl
  noMore := (by decide : ¬moreResultsExist 0x02 = true)
  fits := by decide

theorem no_rows_fit : 0 < 2 ^ 64 ∧ 0 < 2 ^ 64 := by
  norm_num

def sampleChecksums : QueryResponse sampleLibrary where
  before := []
  last := .ok 0 0 no_rows_fit (QueryResponse.sampleStatus false [])
  more := QueryResult.more_of_mem_nil
  noMore := sampleMasterStatus.noMore
  fits := by decide

/-- A header without a time and a position. -/
def artificialHeader (type : UInt8) : BinlogEventHeader :=
  { sampleHeader type with timestamp := 0, endPosition := 0 }

theorem artificialHeader_fits (type : UInt8) : (artificialHeader type).Fits :=
  { sampleHeader_fits type with
    timestamp := Nat.two_pow_pos 32
    endPosition := Nat.two_pow_pos 32 }

def sampleRotate : RotateEventDef where
  header := artificialHeader 4
  nextPosition := 156
  nextFilename := ascii "bin.7"
  headerFits := artificialHeader_fits 4
  headerType := rfl
  nextPositionFits := (by norm_num : 156 < 2 ^ 64)

/-- The event with an artificial header of its type. -/
def artificialRows {columns : List ColumnDef} (event : RowsEventDef columns) :
    RowsEventDef columns :=
  { event with
    header := artificialHeader event.header.type
    headerFits := artificialHeader_fits event.header.type
    headerType := event.headerType }

/-- The name of the file, the description of a table, and an update of a row of it. -/
def sampleHistory : History where
  first := .rotate sampleRotate
  later :=
    [⟨.tableMap sampleTable sampleMap, [1, 2, 3, 4], rfl⟩,
      ⟨.rows sampleTable 66 (artificialRows sampleRows), [5, 6, 7, 8], rfl⟩]
  ending := []
  admissible := ⟨trivial, trivial, rfl, trivial⟩
  fits := by decide

def sampleBinlogServer : BinlogServer sampleLibrary where
  login := sampleServer
  status := sampleMasterStatus
  checksums := sampleChecksums
  history := sampleHistory
  single := rfl

/-- Strings without quotes are printed as they are; the other functions are not called. -/
def samplePrinter : Printer where
  formatTime := fun _ => []
  formatFloat := fun _ => []
  formatDouble := fun _ => []
  escapeQuotes := id
  printData := fun _ => []

/-- The server sends one more byte after the end of the stream. -/
def sessionSocket : Socket :=
  .bytewise (sampleBinlogServer.encode loginClient [] 0 ++ [9])

end Sample

end BinlogReader

end EventAsync.MySQL
