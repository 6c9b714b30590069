import EventAsync.Buffer
import EventAsync.Memcache.Types

/-!
# The memcache client

Every command builds a request in a buffer of its own, writes the buffer to the
connection and reads the response back into the same buffer.  `get`, `set` and
most others read one response; `stats` reads responses until one has an empty
body.

The client has no checks on sizes: the lengths of keys and values are converted
to the 16 and 32 bits that the header has for them.
-/

namespace EventAsync.Memcache

open ByteCodec

/-- `fd` is the connection, if it is open. -/
structure Client where
  fd : Option Socket

abbrev ClientM := EStateM Stop Client

/-- `Client::GetResult`. -/
structure GetResult where
  value : Bytes
  cas : UInt64
  flags : UInt32
  keyFound : Bool
  deriving DecidableEq

namespace Client

open Buffer

def assertConnOpen : ClientM Unit := fun client =>
  match client.fd with
  | some _ => .ok () client
  | none => .error (.runtimeError "cannot execute command on non-open connection") client

/-- The end of a command, where its buffer is destroyed. -/
def leave {Result : Type} (client : Client) :
    EStateM.Result Stop Stream Result → EStateM.Result Stop Client Result
  | .ok result after => .ok result { client with fd := some after.socket }
  | .error stop after => .error stop { client with fd := some after.socket }

/-- What a command does with its buffer and the open connection. -/
def withBuffer {Result : Type} (action : StreamM Result) : ClientM Result := fun client =>
  match client.fd with
  | some socket => client.leave (action { buf := [], socket := socket })
  | none => .error (.undefined "transfer on a closed fd") client

/-- The end of `read_response_header`: an error that is not expected is raised with its message,
one that is expected has its message skipped. -/
def checkStatus (header : CommandHeader) (expectedErrorCode1 expectedErrorCode2 : UInt16) :
    BufferM Unit :=
  if header.status = ResponseStatus.ok.code then return ()
  else if header.status ≠ expectedErrorCode1 ∧ header.status ≠ expectedErrorCode2 then do
    let errorStr ← removeString header.bodySize.toNat
    throw (.raised (.runtimeError ("server sent error " ++ toString header.status.toNat ++ ": ")
      (errorStr.takeWhile (· ≠ 0))))
  else drain header.bodySize.toNat

def removeHeader : BufferM CommandHeader := do
  return .ofMemory (← remove 24)

def readResponseHeader (expectedErrorCode1 expectedErrorCode2 : UInt16) :
    StreamM CommandHeader := do
  readTo 24
  let received ← removeHeader
  if received.magic ≠ 0x81 then
    throw (.runtimeError "server responded to binary command with non-binary response")
  readTo received.byteswap.bodySize.toNat
  checkStatus received.byteswap expectedErrorCode1 expectedErrorCode2
  return received.byteswap

/-- A command: a request from a new buffer, and then its response. -/
def command {Result : Type} (request : BufferM Unit) (response : StreamM Result) :
    ClientM Result := do
  assertConnOpen
  withBuffer do
    request
    write (-1)
    response

/-- A response of which the header decides what is taken from the body. -/
def oneResponse {Result : Type} (expectedErrorCode1 expectedErrorCode2 : UInt16)
    (result : CommandHeader → BufferM Result) : StreamM Result := do
  let header ← readResponseHeader expectedErrorCode1 expectedErrorCode2
  result header

/-- The header of a request as it is added to the buffer. -/
def addHeader (header : CommandHeader) : BufferM Unit :=
  addReference header.byteswap.memory

def addU32 (value : UInt32) : BufferM Unit :=
  addReference (leBytes 4 (bswap32 value).toNat)

def addU64 (value : UInt64) : BufferM Unit :=
  addReference (leBytes 8 (bswap64 value).toNat)

def getRequest (key : Bytes) (expirationSecs : UInt32) : BufferM Unit := do
  let extrasSize : UInt8 := if expirationSecs ≠ 0 then 4 else 0
  addHeader
    { CommandHeader.create (if expirationSecs ≠ 0 then .getAndTouch else .get) (.ofNat key.length)
        (.ofNat (key.length + extrasSize.toNat)) with
      extrasSize := extrasSize }
  if expirationSecs ≠ 0 then
    addU32 expirationSecs
  addReference key

def getResult (header : CommandHeader) : BufferM GetResult :=
  if header.status ≠ 0 then return { value := [], cas := 0, flags := 0, keyFound := false }
  else if header.extrasSize ≠ 4 then
    throw (.runtimeError "server responded to GET without flags")
  else do
    let flags ← removeU32b
    let data ← removeString (header.bodySize - header.extrasSize.toUInt32).toNat
    return { value := data, cas := header.cas, flags := .ofNat flags, keyFound := true }

def get (key : Bytes) (expirationSecs : UInt32) : ClientM GetResult :=
  command (getRequest key expirationSecs)
    (oneResponse ResponseStatus.keyNotFound.code 0 getResult)

def writeKeyRequest (opcode : Command) (key value : Bytes) (flags expirationSecs : UInt32)
    (cas : UInt64) : BufferM Unit := do
  addHeader
    { CommandHeader.create opcode (.ofNat key.length) (.ofNat (8 + key.length + value.length)) with
      extrasSize := 8
      cas := cas }
  addU32 flags
  addU32 expirationSecs
  addReference key
  addReference value

/-- The result of a command whose successful response has no body. -/
def emptyBodyResult (message : String) (header : CommandHeader) : BufferM Bool :=
  if header.status ≠ 0 then return false
  else if header.bodySize ≠ 0 then throw (.runtimeError message)
  else return true

def writeKey (opcode : Command) (expectedErrorCode1 expectedErrorCode2 : UInt16)
    (key value : Bytes) (flags expirationSecs : UInt32) (cas : UInt64) : ClientM Bool :=
  command (writeKeyRequest opcode key value flags expirationSecs cas)
    (oneResponse expectedErrorCode1 expectedErrorCode2
      (emptyBodyResult "write command returned response data after header"))

def set (key value : Bytes) (flags expirationSecs : UInt32) (cas : UInt64) : ClientM Bool :=
  writeKey .set ResponseStatus.keyExists.code 0 key value flags expirationSecs cas

def add (key value : Bytes) (flags expirationSecs : UInt32) : ClientM Bool :=
  writeKey .add ResponseStatus.keyExists.code 0 key value flags expirationSecs 0

def replace (key value : Bytes) (flags expirationSecs : UInt32) (cas : UInt64) : ClientM Bool :=
  writeKey .replace ResponseStatus.keyNotFound.code ResponseStatus.keyExists.code key value flags
    expirationSecs cas

def deleteKeyRequest (key : Bytes) (cas : UInt64) : BufferM Unit := do
  addHeader
    { CommandHeader.create .delete (.ofNat key.length) (.ofNat key.length) with cas := cas }
  addReference key

def deleteKey (key : Bytes) (cas : UInt64) : ClientM Bool :=
  command (deleteKeyRequest key cas)
    (oneResponse ResponseStatus.keyExists.code 0
      (emptyBodyResult "delete command returned response data after header"))

/-- The initial value that stands for the delta. -/
def initialOrDelta (delta initialValue : UInt64) : UInt64 :=
  if initialValue = 0xFFFFFFFFFFFFFFFF then delta else initialValue

def incrementRequest (key : Bytes) (delta initialValue : UInt64) (expirationSecs : UInt32)
    (decrement : Bool) : BufferM Unit := do
  addHeader
    { CommandHeader.create (if decrement then .decrement else .increment) (.ofNat key.length)
        (.ofNat (0x14 + key.length)) with
      extrasSize := 0x14 }
  addU64 delta
  addU64 (initialOrDelta delta initialValue)
  addU32 expirationSecs
  addReference key

def incrementResult (header : CommandHeader) : BufferM UInt64 :=
  if header.status ≠ 0 then throw (.raised (.outOfRange "key not found"))
  else if header.bodySize ≠ 8 then
    throw (.runtimeError "incr/decr command returned response data after header")
  else do
    return .ofNat (← removeU64b)

def increment (key : Bytes) (delta initialValue : UInt64) (expirationSecs : UInt32)
    (decrement : Bool) : ClientM UInt64 :=
  command (incrementRequest key delta initialValue expirationSecs decrement)
    (oneResponse ResponseStatus.keyNotFound.code 0 incrementResult)

def appendRequest (key value : Bytes) (prepend : Bool) : BufferM Unit := do
  addHeader
    (.create (if prepend then .prepend else .append) (.ofNat key.length)
      (.ofNat (key.length + value.length)))
  addReference key
  addReference value

def append (key value : Bytes) (prepend : Bool) : ClientM Unit :=
  command (appendRequest key value prepend) (oneResponse 0 0 fun _ => return ())

def flushRequest (expirationSecs : UInt32) : BufferM Unit := do
  addHeader { CommandHeader.create .flush 0 4 with extrasSize := 4 }
  addU32 expirationSecs

def flush (expirationSecs : UInt32) : ClientM Unit :=
  command (flushRequest expirationSecs) (oneResponse 0 0 fun _ => return ())

/-- The times are what the two calls of `now()` return. -/
def noop (startUsecs endUsecs : UInt64) : ClientM UInt64 :=
  command (addHeader (.create .noOp 0 0)) (oneResponse 0 0 fun _ => return endUsecs - startUsecs)

def version : ClientM Bytes :=
  command (addHeader (.create .version 0 0))
    (oneResponse 0 0 fun header => removeString header.bodySize.toNat)

/-- `unordered_map::emplace`. -/
def emplace (map : List (Bytes × Bytes)) (key value : Bytes) : List (Bytes × Bytes) :=
  if map.any (·.1 = key) then map else map ++ [(key, value)]

def statsRequest : Option Bytes → BufferM Unit
  | none => addHeader (.create .stat 0 0)
  | some key => do
      addHeader (.create .stat (.ofNat key.length) (.ofNat key.length))
      addReference key

/-- One entry of the statistics. -/
def removeStat (header : CommandHeader) : BufferM (Bytes × Bytes) := do
  let key ← removeString header.keySize.toNat
  let value ← removeString (header.bodySize - header.keySize.toUInt32).toNat
  return (key, value)

def readStats : ℕ → List (Bytes × Bytes) → StreamM (List (Bytes × Bytes))
  | 0, _ => throw .outOfFuel
  | fuel + 1, ret => do
      let header ← readResponseHeader 0 0
      if header.extrasSize ≠ 0 then
        throw (.runtimeError "stats response contained unhandled extra data")
      else if header.bodySize = 0 then return ret
      else
        let stat ← removeStat header
        readStats fuel (emplace ret stat.1 stat.2)

/-- Every response takes its header from the connection, which bounds their number.  Without a key
the caller passes a null pointer and no size. -/
def stats (key : Option Bytes) : ClientM (List (Bytes × Bytes)) :=
  command (statsRequest key) fun stream =>
    readStats (stream.socket.incoming.length + 1) [] stream

def touchRequest (key : Bytes) (expirationSecs : UInt32) : BufferM Unit := do
  addHeader
    { CommandHeader.create .touch (.ofNat key.length) (.ofNat (key.length + 4)) with
      extrasSize := 4 }
  addU32 expirationSecs
  addReference key

def touch (key : Bytes) (expirationSecs : UInt32) : ClientM Unit :=
  command (touchRequest key expirationSecs) (oneResponse 0 0 fun _ => return ())

end Client

/-- A call of one of the client's commands. -/
inductive Call where
  | get (key : Bytes) (expirationSecs : UInt32)
  | set (key value : Bytes) (flags expirationSecs : UInt32) (cas : UInt64)
  | add (key value : Bytes) (flags expirationSecs : UInt32)
  | replace (key value : Bytes) (flags expirationSecs : UInt32) (cas : UInt64)
  | deleteKey (key : Bytes) (cas : UInt64)
  | increment (key : Bytes) (delta initialValue : UInt64) (expirationSecs : UInt32)
      (decrement : Bool)
  | append (key value : Bytes) (prepend : Bool)
  | flush (expirationSecs : UInt32)
  | noop (startUsecs endUsecs : UInt64)
  | version
  | stats (key : Option Bytes)
  | touch (key : Bytes) (expirationSecs : UInt32)

/-- The call, whatever it returns. -/
def Call.run : Call → ClientM Unit
  | .get key expirationSecs => discard (Client.get key expirationSecs)
  | .set key value flags expirationSecs cas =>
      discard (Client.set key value flags expirationSecs cas)
  | .add key value flags expirationSecs => discard (Client.add key value flags expirationSecs)
  | .replace key value flags expirationSecs cas =>
      discard (Client.replace key value flags expirationSecs cas)
  | .deleteKey key cas => discard (Client.deleteKey key cas)
  | .increment key delta initialValue expirationSecs decrement =>
      discard (Client.increment key delta initialValue expirationSecs decrement)
  | .append key value prepend => Client.append key value prepend
  | .flush expirationSecs => Client.flush expirationSecs
  | .noop startUsecs endUsecs => discard (Client.noop startUsecs endUsecs)
  | .version => discard Client.version
  | .stats key => discard (Client.stats key)
  | .touch key expirationSecs => Client.touch key expirationSecs

end EventAsync.Memcache
