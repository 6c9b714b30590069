import EventAsync.MySQL.ProtocolBuffer

/-!
# The MySQL client

A client holds at most one connection.  Commands and responses are numbered
packets: `reset_seq` starts the numbers again for every command, `write_command`
and `read_command` count them, and `read_command` refuses a packet that does not
have the expected number.

A coroutine of the client with a local `ProtocolBuffer` is a computation on a
`Session`.  The loops that read packet after packet take a bound on their
iterations.  `sha256`, `stof` and `stod` are functions of other libraries.
-/

namespace EventAsync.MySQL

open ByteCodec

/-- Library functions; the results of `stof` and `stod` are given by their bits. -/
structure Library where
  sha256 : Bytes → Bytes
  stof : Bytes → Except Exception ℕ
  stod : Bytes → Except Exception ℕ

/-- An open connection, with two records that the code does not keep: how many bytes of the
server were unread before each packet that `read_command` accepted, and whether the OK packet of
the handshake has been read. -/
structure Connection where
  socket : Socket
  accepted : List ℕ
  authenticated : Bool

def Connection.opened (socket : Socket) : Connection where
  socket := socket
  accepted := []
  authenticated := false

inductive BinlogReadState where
  | notReading
  | readingFirstEvent
  | readingEvent
  deriving DecidableEq

structure Client where
  username : Bytes
  password : Bytes
  fd : Option Connection
  nextSeq : UInt8
  serverVersion : Bytes
  connectionId : ℕ
  serverCapFlags : ℕ
  charset : UInt8
  statusFlags : ℕ
  binlogReadState : BinlogReadState
  expectedBinlogSeq : UInt8

/-- The constructor; the fields it leaves without a value are read nowhere before they are set. -/
def Client.create (username password : Bytes) : Client where
  username := username
  password := password
  fd := none
  nextSeq := 0
  serverVersion := []
  connectionId := 0
  serverCapFlags := 0
  charset := 0
  statusFlags := 0
  binlogReadState := .notReading
  expectedBinlogSeq := 0

abbrev ClientM := EStateM Stop Client

/-- A client together with a local buffer of the coroutine that is executed. -/
structure Session where
  client : Client
  buf : Bytes

abbrev SessionM := EStateM Stop Session

instance : MonadLift BufferM SessionM where
  monadLift action :=
    Stateful.zoom Session.buf (fun buf session => { session with buf := buf }) action

instance : MonadLift ClientM SessionM where
  monadLift action :=
    Stateful.zoom Session.client (fun client session => { session with client := client }) action

structure ColumnDefinition where
  catalogName : Bytes
  databaseName : Bytes
  tableName : Bytes
  originalTableName : Bytes
  columnName : Bytes
  originalColumnName : Bytes
  charset : ℕ
  maxValueLength : ℕ
  type : UInt8
  flags : ℕ
  decimals : UInt8

/-- A row as an `unordered_map` from column names to cells. -/
abbrev DictRow := Bytes → Option Value

/-- `emplace` keeps the entry that is already there. -/
def DictRow.emplace (row : DictRow) (name : Bytes) (value : Value) : DictRow :=
  if (row name).isSome then row else Function.update row name (some value)

inductive Rows where
  | vecs (rows : List (List Value))
  | dicts (rows : List DictRow)

structure ResultSet where
  columns : List ColumnDefinition
  rows : Rows
  affectedRows : ℕ
  insertId : ℕ
  statusFlags : ℕ
  warningCount : ℕ

/-- `StatusFlag::MORE_RESULTS_EXIST` is set. -/
def moreResultsExist (statusFlags : ℕ) : Bool :=
  statusFlags &&& 0x0008 ≠ 0

/-- The characters of a message as bytes. -/
def ascii (text : String) : Bytes :=
  text.toList.map fun char => UInt8.ofNat char.toNat

/-- A number as `%hu` prints it. -/
def decimal (number : ℕ) : Bytes :=
  (Nat.toDigits 10 number).map fun char => UInt8.ofNat char.toNat

namespace Client

open Buffer ProtocolBuffer

section Session

variable {Result : Type}

/-- Runs a coroutine with a new buffer, which is destroyed at its end. -/
def withBuffer (action : SessionM Result) : ClientM Result :=
  Stateful.zoom (fun client => ⟨client, []⟩) (fun session _ => session.client) action

/-- The connection after a transfer. -/
def setSocket (client : Client) (connection : Connection) (socket : Socket) : Client :=
  { client with fd := some { connection with socket := socket } }

/-- Runs a transfer between the local buffer and the connection. -/
def transfer (action : StreamM Result) : SessionM Result := fun session =>
  match session.client.fd with
  | none => .error (.undefined "transfer on a closed file descriptor") session
  | some connection =>
      match action ⟨session.buf, connection.socket⟩ with
      | .ok result after =>
          .ok result ⟨session.client.setSocket connection after.socket, after.buf⟩
      | .error stop after =>
          .error stop ⟨session.client.setSocket connection after.socket, after.buf⟩

end Session

/-- The number of bytes of the server that have not been read. -/
def unread (client : Client) : ℕ :=
  match client.fd with
  | none => 0
  | some connection => connection.socket.incoming.length

/-- The packet that starts at a given number of unread bytes is accepted. -/
def accept (unread : ℕ) (client : Client) : Client :=
  { client with
    fd := client.fd.map fun connection =>
      { connection with accepted := connection.accepted ++ [unread] }
    nextSeq := client.nextSeq + 1 }

def setAuthenticated (client : Client) : Client :=
  { client with
    fd := client.fd.map fun connection => { connection with authenticated := true } }

def readCommand : SessionM Unit := do
  let before ← (get : ClientM Client)
  let seq ← transfer ProtocolBuffer.readCommand
  if seq ≠ before.nextSeq then throw (.runtimeError "server sent out-of-sequence commands")
  (modify (accept before.unread) : ClientM Unit)

def writeCommand : SessionM Unit := do
  let client ← (get : ClientM Client)
  (set { client with nextSeq := client.nextSeq + 1 } : ClientM Unit)
  transfer (ProtocolBuffer.writeCommand client.nextSeq)

def resetSeq : ClientM Unit :=
  modify fun client => { client with nextSeq := 0 }

def assertConnOpen : ClientM Unit := do
  if (← get).fd.isNone then
    throw (.runtimeError "cannot execute command on non-open connection")

def parseErrorBody {Result : Type} : BufferM Result := do
  let errorCode ← removeU16l
  let sqlstate ← removeString 6
  let message ← removeStringEof
  throw (.raised (.runtimeError ""
    (ascii "(" ++ decimal errorCode ++ ascii "; " ++ cStr sqlstate ++ ascii ") " ++ cStr message)))

def cachingSha2Password : Bytes := ascii "caching_sha2_password"

/-- `sha256` returns 32 bytes. -/
def computeAuthResponse (lib : Library) (authPluginName authPluginData password : Bytes) :
    Except Exception Bytes :=
  if authPluginName = cachingSha2Password then
    let passwordSha256 := lib.sha256 password
    let passwordSha256Sha256 := lib.sha256 passwordSha256
    let hashWithNonce := lib.sha256 (passwordSha256Sha256 ++ authPluginData)
    .ok ((List.range 0x20).map fun x => passwordSha256.getD x 0 ^^^ hashWithNonce.getD x 0)
  else .error (.runtimeError "unsupported auth plugin: " authPluginName)

/-- `std::string::resize`. -/
def resize (str : Bytes) (size : ℕ) : Bytes :=
  str.take size ++ List.replicate (size - str.length) 0

/-- `remaining_auth_data_length`, a `size_t`, is at least 13 and very large below 8. -/
def remainingAuthDataLength (authPluginDataLength : UInt8) : ℕ :=
  max 13 (sizeSub authPluginDataLength.toNat 8)

/-- The contents of the initial handshake up to the capability flags; returns the first part of
the challenge. -/
def removeServerInfo : SessionM Bytes := do
  if (← removeU8) ≠ 10 then throw (.runtimeError "unrecognized protocol version")
  let serverVersion ← removeString0
  (modify fun client => { client with serverVersion := serverVersion } : ClientM Unit)
  let connectionId ← removeU32l
  (modify fun client => { client with connectionId := connectionId } : ClientM Unit)
  let authChallengeData ← removeString 8
  let _ ← removeU8
  let capFlagsLow ← removeU16l
  (modify fun client => { client with serverCapFlags := capFlagsLow } : ClientM Unit)
  let charset ← removeU8
  (modify fun client => { client with charset := charset } : ClientM Unit)
  let statusFlags ← removeU16l
  (modify fun client => { client with statusFlags := statusFlags } : ClientM Unit)
  let capFlagsHigh ← removeU16l
  (modify fun client =>
    { client with serverCapFlags := client.serverCapFlags ||| capFlagsHigh <<< 16 } : ClientM Unit)
  return authChallengeData

/-- The rest of the initial handshake: the name of the auth plugin and the whole challenge. -/
def removeAuthData (challengeStart : Bytes) : BufferM (Bytes × Bytes) := do
  let authPluginDataLength ← removeU8
  drain 10
  let challengeEnd ← removeString (remainingAuthDataLength authPluginDataLength)
  let authPluginName ← removeString0
  if (← getLength) ≠ 0 then
    throw (.raised (.logicError "not all data in initial handshake was consumed"))
  return (authPluginName, resize (challengeStart ++ challengeEnd) authPluginDataLength.toNat)

/-- The NUL at the end of the challenge is not passed to the auth plugin. -/
def stripNul (authChallengeData : Bytes) : Except Stop Bytes :=
  match authChallengeData.getLast? with
  | none => .error (.undefined "back of an empty string")
  | some last => .ok (if last = 0 then authChallengeData.dropLast else authChallengeData)

def clientCapFlags : ℕ := 0x012BA201

def addHandshakeResponse (username authResponseData authPluginName : Bytes) : BufferM Unit := do
  addU32l clientCapFlags
  addU32l 0xFFFFFFFF
  addU8 0xFF
  addZeroes 23
  addString0 username
  addVarString authResponseData
  addString0 authPluginName

/-- The loop that waits for an OK or ERR packet. -/
def awaitAuthentication (authPluginName : Bytes) : ℕ → SessionM Unit
  | 0 => throw .outOfFuel
  | fuel + 1 => do
      readCommand
      let responseCommand ← removeU8
      if responseCommand = 0x00 then (modify setAuthenticated : ClientM Unit)
      else if responseCommand = 0x01 then
        if authPluginName = cachingSha2Password then
          let command ← removeU8
          if command = 3 then awaitAuthentication authPluginName fuel
          else if command = 4 then
            if (← getLength) ≠ 0 then
              throw (.runtimeError "auth extra data not fully consumed")
            throw (.runtimeError
              "server requested plaintext password, but connection is not encrypted")
          else
            throw (.runtimeError
              "unrecognized extra auth data command (caching_sha2_password)")
        else
          throw (.raised (.runtimeError "extra auth data command unimplemented for plugin "
            authPluginName))
      else if responseCommand = 0xFF then
        let errorCode ← removeU16l
        drain 1
        let _ ← removeString 5
        let message ← removeStringEof
        throw (.raised (.runtimeError "authentication failed: "
          (ascii "(" ++ decimal errorCode ++ ascii ") " ++ cStr message)))
      else throw (.runtimeError "unrecognized command during authentication phase")

def initialHandshake (lib : Library) (fuel : ℕ) : SessionM Unit := do
  resetSeq
  readCommand
  let (authPluginName, authChallengeData) ← removeAuthData (← removeServerInfo)
  match stripNul authChallengeData with
  | .error stop => throw stop
  | .ok challenge =>
      let client ← (get : ClientM Client)
      match computeAuthResponse lib authPluginName challenge client.password with
      | .error exception => throw (.raised exception)
      | .ok authResponseData =>
          addHandshakeResponse client.username authResponseData authPluginName
          writeCommand
          awaitAuthentication authPluginName fuel

/-- `base.connect` returns a connected socket or raises. -/
def connect (lib : Library) (host : Except Exception Socket) (fuel : ℕ) : ClientM Unit := do
  if (← get).fd.isSome then return
  match host with
  | .error exception => throw (.raised exception)
  | .ok socket =>
      modify fun client => { client with fd := some (.opened socket) }
      withBuffer (initialHandshake lib fuel)

/-- `Command::QUIT`, `INIT_DB` and `QUERY`. -/
def quitCommand : UInt8 := 0x01

def initDbCommand : UInt8 := 0x02

def queryCommand : UInt8 := 0x03

/-- Sends a command and its argument. -/
def sendCommand (command : UInt8) (argument : Bytes) : SessionM Unit := do
  resetSeq
  addU8 command
  add argument
  writeCommand

def quit : ClientM Unit := do
  assertConnOpen
  withBuffer (sendCommand quitCommand [])
  modify fun client => { client with fd := none }

def expectOk : SessionM Unit := do
  readCommand
  let responseCommand ← removeU8
  if responseCommand = 0x00 then return
  else if responseCommand = 0xFF then parseErrorBody
  else throw (.runtimeError "unrecognized response when OK or ERR expected")

def changeDb (dbName : Bytes) : ClientM Unit := do
  assertConnOpen
  withBuffer (sendCommand initDbCommand dbName)
  withBuffer expectOk

/-- `std::stoll` with base 10. -/
def stoll (str : Bytes) : Except Exception Value :=
  let (negative, digits, _) := scanDigits (cStr str)
  let number : ℤ := if negative then -digitsValue digits else digitsValue digits
  if digits = [] then .error (.invalidArgument "stoll")
  else if number < -2 ^ 63 ∨ 2 ^ 63 ≤ number then .error (.outOfRange "stoll")
  else .ok (.int64 number)

/-- `std::stoull` with base 10. -/
def stoull (str : Bytes) : Except Exception Value :=
  let (negative, digits, _) := scanDigits (cStr str)
  if digits = [] then .error (.invalidArgument "stoull")
  else if 2 ^ 64 ≤ digitsValue digits then .error (.outOfRange "stoull")
  else .ok (.uint64 (unsignedValue negative digits))

def parseInteger (value : Bytes) : Except Exception Value :=
  match value.head? with
  | none => .error (.outOfRange "basic_string::at")
  | some first => if first = 0x2D then stoll value else stoull value

def parseValue (lib : Library) (type : UInt8) (value : Bytes) : Except Exception Value :=
  match ColumnType.ofCode type with
  | some .tTinyint | some .tSmallint | some .tMediumint | some .tInt | some .tBigint
  | some .tYear => parseInteger value
  | some .tFloat => (lib.stof value).map .float
  | some .tDouble => (lib.stod value).map .double
  | some .tNull => .ok .null
  | some .tDate | some .tDatetime | some .tTimestamp =>
      .ok (.dateTime (DateTimeValue.ofString value))
  | some .tTime => .ok (.time (TimeValue.ofString value))
  | some .tBit | some .tString | some .tVarString | some .tVarchar | some .tTinyblob
  | some .tBlob | some .tMediumblob | some .tLongblob | some .tDecimal | some .tNewdecimal
  | some .tEnum | some .tSet | some .tGeometry => .ok (.string value)
  | _ => .error (.runtimeError "invalid value type" [])

/-- The OK packet of a statement without rows. -/
def removeOk : BufferM ResultSet := do
  let _ ← removeU8
  let affectedRows ← removeVarint
  let insertId ← removeVarint
  let statusFlags ← removeU16l
  let warningCount ← removeU16l
  return {
    columns := []
    rows := .vecs []
    affectedRows := affectedRows
    insertId := insertId
    statusFlags := statusFlags
    warningCount := warningCount }

def removeColumnDefinition : BufferM ColumnDefinition := do
  let catalogName ← removeVarString
  let databaseName ← removeVarString
  let tableName ← removeVarString
  let originalTableName ← removeVarString
  let columnName ← removeVarString
  let originalColumnName ← removeVarString
  if (← removeVarint) ≠ 0x0C then
    throw (.runtimeError "column metadata has incorrect fixed-length header")
  let charset ← removeU16l
  let maxValueLength ← removeU32l
  let type ← removeU8
  let flags ← removeU16l
  let decimals ← removeU8
  let _ ← removeU16l
  return {
    catalogName := catalogName
    databaseName := databaseName
    tableName := tableName
    originalTableName := originalTableName
    columnName := columnName
    originalColumnName := originalColumnName
    charset := charset
    maxValueLength := maxValueLength
    type := type
    flags := flags
    decimals := decimals }

/-- The loop `while (res.columns.size() < column_count)`. -/
def readColumns (columnCount : ℕ) : ℕ → List ColumnDefinition → SessionM (List ColumnDefinition)
  | 0, _ => throw .outOfFuel
  | fuel + 1, columns => do
      if columnCount ≤ columns.length then return columns
      readCommand
      let definition ← removeColumnDefinition
      readColumns columnCount fuel (columns ++ [definition])

def removeCell (lib : Library) (definition : ColumnDefinition) : BufferM Value := do
  if (← copyoutU8) = 0xFB then
    let _ ← removeU8
    return .null
  else
    match parseValue lib definition.type (← removeVarString) with
    | .error exception => throw (.raised exception)
    | .ok value => return value

def removeDictRow (lib : Library) (columns : List ColumnDefinition) : BufferM DictRow :=
  columns.foldlM (fun row definition => do
    return row.emplace definition.columnName (← removeCell lib definition)) fun _ => none

def removeVecRow (lib : Library) (columns : List ColumnDefinition) : BufferM (List Value) :=
  columns.mapM (removeCell lib)

def removeRow (lib : Library) (columns : List ColumnDefinition) : Rows → BufferM Rows
  | .dicts rows => do return .dicts (rows ++ [← removeDictRow lib columns])
  | .vecs rows => do return .vecs (rows ++ [← removeVecRow lib columns])

/-- The packet behind the rows. -/
def removeTerminator (columns : List ColumnDefinition) (rows : Rows) : BufferM ResultSet := do
  let _ ← removeU8
  let warningCount ← removeU16l
  let statusFlags ← removeU16l
  return {
    columns := columns
    rows := rows
    affectedRows := 0
    insertId := 0
    statusFlags := statusFlags
    warningCount := warningCount }

/-- The loop over the rows of a result set. -/
def readRows (lib : Library) (columns : List ColumnDefinition) : ℕ → Rows → SessionM ResultSet
  | 0, _ => throw .outOfFuel
  | fuel + 1, rows => do
      readCommand
      if (← copyoutU8) = 0xFE then removeTerminator columns rows
      else
        let more ← removeRow lib columns rows
        readRows lib columns fuel more

def noRows (rowsAsDicts : Bool) : Rows :=
  if rowsAsDicts then .dicts [] else .vecs []

/-- The loop over the results of a query. The bytes behind an OK packet are not drained. -/
def readResults (lib : Library) (rowsAsDicts : Bool) :
    ℕ → List ResultSet → SessionM (List ResultSet)
  | 0, _ => throw .outOfFuel
  | fuel + 1, ret => do
      readCommand
      let responseCommand ← copyoutU8
      if responseCommand = 0x00 then
        let res ← removeOk
        if moreResultsExist res.statusFlags then readResults lib rowsAsDicts fuel (ret ++ [res])
        else return ret ++ [res]
      else if responseCommand = 0xFF then parseErrorBody
      else if responseCommand = 0xFB then
        throw (.runtimeError "LOCAL INFILE requests are not implemented")
      else
        let columnCount ← removeVarint
        let columns ← readColumns columnCount fuel []
        let res ← readRows lib columns fuel (noRows rowsAsDicts)
        if moreResultsExist res.statusFlags then
          drainAll
          readResults lib rowsAsDicts fuel (ret ++ [res])
        else return ret ++ [res]

def queryMulti (lib : Library) (fuel : ℕ) (sql : Bytes) (rowsAsDicts : Bool) :
    ClientM (List ResultSet) := do
  assertConnOpen
  withBuffer do
    sendCommand queryCommand sql
    readResults lib rowsAsDicts fuel []

def query (lib : Library) (fuel : ℕ) (sql : Bytes) (rowsAsDicts : Bool) : ClientM ResultSet := do
  match ← queryMulti lib fuel sql rowsAsDicts with
  | [res] => return res
  | _ =>
      throw (.raised (.logicError
        "query returned multiple result sets; use query_multi instead"))

def binlogDumpCommand : UInt8 := 0x12

/-- `random_object<uint32_t>()` takes the place of a server id of zero. -/
def readBinlogs (lib : Library) (fuel : ℕ) (randomObject : ℕ) (filename : Bytes)
    (position serverId : ℕ) (block : Bool) : ClientM Unit := do
  assertConnOpen
  let _ ← query lib fuel
    (ascii "SET @master_binlog_checksum = 'ALL', @source_binlog_checksum = 'ALL'") true
  withBuffer do
    resetSeq
    addU8 binlogDumpCommand
    addU32l position
    addU16l (if block then 0x0000 else 0x0001)
    addU32l (if serverId = 0 then randomObject else serverId)
    add filename
    writeCommand
  modify fun client =>
    { client with binlogReadState := .readingFirstEvent, expectedBinlogSeq := 1 }

/-- The checksum at the end of an event; a shorter string is made longer than strings can be. -/
def withoutChecksum (event : Bytes) : Except Stop Bytes :=
  if event.length < 4 then .error (.raised (.lengthError "basic_string::_M_replace_aux"))
  else .ok (event.take (event.length - 4))

def getBinlogEvent : ClientM Bytes := do
  assertConnOpen
  let client ← get
  if client.binlogReadState = .notReading then
    throw (.raised (.logicError
      "get_binlog_event called before read_binlogs or after out_of_range"))
  withBuffer do
    readCommand
    let command ← removeU8
    if command = 0xFE then
      (modify fun client => { client with binlogReadState := .notReading } : ClientM Unit)
      throw (.raised (.outOfRange "end of binlog stream"))
    else if command = 0x00 then
      let event ← removeStringEof
      match if client.binlogReadState = .readingFirstEvent then .ok event
          else withoutChecksum event with
      | .error stop => throw stop
      | .ok ret =>
          (modify fun client => { client with binlogReadState := .readingEvent } : ClientM Unit)
          return ret
    else throw (.runtimeError "binlog event does not begin with OK byte")

end Client

end EventAsync.MySQL
