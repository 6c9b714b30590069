import EventAsync.BufferDecoding

/-!
# Websocket clients

`WebsocketClient::read` receives frames until a message is complete.  A frame
starts with a byte that holds the FIN bit and the opcode and a byte that holds
the mask bit and the length in seven bits, or a marker for a length in two or
eight further bytes; then follow the masking key, if there is one, and the
payload.  A message may be split over several data frames, and control frames
may come between them; they are answered without returning to the caller.
-/

namespace EventAsync.HTTP

open ByteCodec

structure WebsocketMessage where
  opcode : UInt8
  data : Bytes
  deriving DecidableEq

def WebsocketMessage.create : WebsocketMessage where
  opcode := 0
  data := []

namespace WebsocketClient

open Buffer

/-- The payload with byte `x` combined with byte `x & 3` of the key. -/
def unmask (maskKey payload : Bytes) : Bytes :=
  payload.mapIdx fun x byte => byte ^^^ maskKey.getD (x &&& 3) 0

/-- What `write` puts into `send_buf`. -/
def fillSendBuf (data : Bytes) (opcode : UInt8) : BufferM Unit := do
  addU8 (0x80 ||| (opcode &&& 0x0F))
  if 0xFFFF < data.length then
    addU8 0x7F
    addU64b data.length
  else if 0x7D < data.length then
    addU8 0x7E
    addU16b data.length
  else
    addU8 (UInt8.ofNat data.length)
  add data

/-- `write(const void*, size_t, uint8_t)`; the state's buffer is the client's `input_buf`. -/
def write (data : Bytes) (opcode : UInt8) : StreamM Unit :=
  writeSeparately (fillSendBuf data opcode)

/-- The part of the loop of `read` that figures out the payload size. -/
def readPayloadSize (frameSize : UInt8) : StreamM ℕ :=
  if frameSize &&& 0x7F = 0x7F then do
    readTo 8
    removeU64b
  else if frameSize &&& 0x7F = 0x7E then do
    readTo 2
    removeU16b
  else return (frameSize &&& 0x7F).toNat

/-- The part of the loop of `read` that reads the masking key if needed. -/
def readMaskKey (frameSize : UInt8) : StreamM (Option Bytes) :=
  if frameSize &&& 0x80 ≠ 0 then do
    readTo 4
    return some (← remove 4)
  else return none

/-- The part of the loop of `read` that receives a frame: its first byte and its payload. -/
def readFrame : StreamM (UInt8 × Bytes) := do
  readTo 2
  let frameOpcode ← removeU8
  let frameSize ← removeU8
  let payloadSize ← readPayloadSize frameSize
  let maskKey ← readMaskKey frameSize
  readTo payloadSize
  let framePayload ← removeString payloadSize
  match maskKey with
  | some key => return (frameOpcode, unmask key framePayload)
  | none => return (frameOpcode, framePayload)

/-- The part of the loop of `read` that answers a control frame. -/
def handleControl (opcode : UInt8) (framePayload : Bytes) : StreamM Unit :=
  if opcode = 0x0A then return ()
  else if opcode = 0x08 then do
    write framePayload 0x08
    throw (.runtimeError "client has disconnected")
  else if opcode = 0x09 then write framePayload 0x0A
  else throw (.runtimeError "unrecognized control message")

/-- The part of the loop of `read` that appends a data frame to the message. -/
def appendFrame (msg : WebsocketMessage) (opcode : UInt8) (framePayload : Bytes) :
    StreamM WebsocketMessage :=
  if (msg.opcode = 0 ↔ opcode = 0) then throw (.runtimeError "invalid opcode")
  else return {
    opcode := if opcode ≠ 0 then opcode else msg.opcode
    data := msg.data ++ framePayload }

/-- The loop of `read`, with a bound on its iterations. -/
def readFrames : ℕ → WebsocketMessage → StreamM WebsocketMessage
  | 0, _ => throw .outOfFuel
  | fuel + 1, msg => do
      let (frameOpcode, framePayload) ← readFrame
      let opcode := frameOpcode &&& 0x0F
      if opcode &&& 0x08 ≠ 0 then
        handleControl opcode framePayload
        readFrames fuel msg
      else
        let appended ← appendFrame msg opcode framePayload
        if frameOpcode &&& 0x80 ≠ 0 then return appended
        else readFrames fuel appended

/-- Every iteration takes two bytes or more, which bounds their number. -/
def read : StreamM WebsocketMessage := fun stream =>
  readFrames (stream.buf.length + stream.socket.incoming.length + 1) .create stream

end WebsocketClient

end EventAsync.HTTP
