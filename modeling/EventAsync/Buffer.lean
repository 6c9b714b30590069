import EventAsync.Awaiter
import EventAsync.Lib.Stateful

/-!
# Buffers and sockets

`Buffer` wraps an evbuffer, a queue of bytes.  Its awaiters transfer bytes
between the queue and a nonblocking socket: `evbuffer_read` appends what the
socket has, up to a limit that is a 32-bit signed integer with negative values
meaning no limit other than that the number of bytes is returned as such an
integer too; `evbuffer_write_atmost` drains what the socket accepts, up to a
limit, and fails when there is nothing to write.  How much the kernel lets each
call transfer is a schedule that the socket carries along.

`Buffer::read`, `read_to` and `write` suspend the calling coroutine; as
computations they run the awaiter's callback until it resumes the coroutine.
The operations that add bytes to a buffer and take bytes from it do not involve
a socket.
-/

namespace EventAsync

open ByteCodec

/-- How far the kernel lets one system call go. -/
inductive Readiness where
  | ready (atMost : ℕ+)
  | failed

/-- A connected socket: the bytes the peer has sent and closed with, and the bytes sent to it. -/
structure Socket where
  incoming : Bytes
  readCalls : ℕ
  reads : ℕ → Readiness
  sent : Bytes
  writeCalls : ℕ
  writes : ℕ → Readiness

/-- A buffer together with the socket it is read from or written to. -/
structure Stream where
  buf : Bytes
  socket : Socket

/-- Conversion of a `size_t` to a 32-bit `int`. -/
def toInt32 (size : ℕ) : ℤ :=
  if size % 2 ^ 32 < 2 ^ 31 then (size % 2 ^ 32 : ℕ) else (size % 2 ^ 32 : ℕ) - 2 ^ 32

/-- Subtraction of `size_t` values. -/
def sizeSub (left right : ℕ) : ℕ :=
  (left + 2 ^ 64 - right % 2 ^ 64) % 2 ^ 64

/-- `INT_MAX`, the largest number of bytes that one call of `evbuffer_read` can return. -/
def intMax : ℕ := 2 ^ 31 - 1

namespace Stream

/-- `evbuffer_read`: the number of bytes appended, zero at the end of the stream. -/
def evbufferRead (stream : Stream) (howmuch : ℤ) : Option ℕ × Stream :=
  let called := { stream.socket with readCalls := stream.socket.readCalls + 1 }
  match stream.socket.reads stream.socket.readCalls with
  | .failed => (none, { stream with socket := called })
  | .ready atMost =>
      let available := stream.socket.incoming.length
      let limit := min (if howmuch < 0 then intMax else howmuch.toNat) available
      let count := min (atMost : ℕ) limit
      (some count,
        { buf := stream.buf ++ stream.socket.incoming.take count
          socket := { called with incoming := stream.socket.incoming.drop count } })

/-- `evbuffer_write_atmost`: the number of bytes drained from the front of the buffer. -/
def evbufferWriteAtmost (stream : Stream) (howmuch : ℤ) : Option ℕ × Stream :=
  let length := stream.buf.length
  let limit := if howmuch < 0 ∨ length < howmuch then length else howmuch.toNat
  if limit = 0 then (none, stream)
  else
    let called := { stream.socket with writeCalls := stream.socket.writeCalls + 1 }
    match stream.socket.writes stream.socket.writeCalls with
    | .failed => (none, { stream with socket := called })
    | .ready atMost =>
        let count := min (atMost : ℕ) limit
        (some count,
          { buf := stream.buf.drop count
            socket := { called with sent := stream.socket.sent ++ stream.buf.take count } })

end Stream

/-- `Buffer::ReadExactlyAwaiter`. -/
structure ReadExactlyAwaiter where
  limit : ℕ
  bytesRead : ℕ
  err : Bool
  eof : Bool

namespace ReadExactlyAwaiter

def create (limit : ℕ) : ReadExactlyAwaiter where
  limit := limit
  bytesRead := 0
  err := false
  eof := false

def awaitReady (awaiter : ReadExactlyAwaiter) : Bool :=
  awaiter.limit ≤ awaiter.bytesRead

def onReadReady (state : ReadExactlyAwaiter × Stream) :
    List Action × ReadExactlyAwaiter × Stream :=
  let awaiter := state.1
  match state.2.evbufferRead (toInt32 (sizeSub awaiter.limit awaiter.bytesRead)) with
  | (none, after) => ([.resume], { awaiter with err := true }, after)
  | (some count, after) =>
      let counted := { awaiter with bytesRead := awaiter.bytesRead + count }
      if count = 0 then ([.resume], { counted with eof := true }, after)
      else if counted.bytesRead ≠ counted.limit then ([.eventAdd], counted, after)
      else ([.resume], counted, after)

def awaitResume (awaiter : ReadExactlyAwaiter) : Except Stop Unit :=
  if awaiter.err then .error (.runtimeError "failed to read from fd")
  else if awaiter.eof then .error (.runtimeError "end of stream")
  else .ok ()

end ReadExactlyAwaiter

/-- `Buffer::WriteAwaiter`. -/
structure WriteAwaiter where
  limit : ℤ
  bytesWritten : ℕ
  err : Bool

namespace WriteAwaiter

def create (limit : ℤ) : WriteAwaiter where
  limit := limit
  bytesWritten := 0
  err := false

def onWriteReady (state : WriteAwaiter × Stream) : List Action × WriteAwaiter × Stream :=
  let awaiter :=
    if state.1.limit < 0 then { state.1 with limit := state.2.buf.length } else state.1
  match state.2.evbufferWriteAtmost awaiter.limit with
  | (none, after) => ([.resume], { awaiter with err := true }, after)
  | (some count, after) =>
      let counted := { awaiter with bytesWritten := awaiter.bytesWritten + count }
      if (counted.bytesWritten : ℤ) ≠ counted.limit then ([.eventAdd], counted, after)
      else ([.resume], counted, after)

def awaitResume (awaiter : WriteAwaiter) : Except Stop Unit :=
  if awaiter.err then .error (.runtimeError "failed to write to fd") else .ok ()

end WriteAwaiter

/-- Computations on a buffer and a socket. -/
abbrev StreamM := EStateM Stop Stream

/-- The end of a `co_await`: the awaiter's `await_resume`, if the coroutine was resumed. -/
def resumeWith {Awaiter : Type} (awaitResume : Awaiter → Except Stop Unit)
    (suspension : Suspension (Awaiter × Stream)) : EStateM.Result Stop Stream Unit :=
  if suspension.resumptions = 0 then .error .outOfFuel suspension.state.2
  else
    match awaitResume suspension.state.1 with
    | .ok _ => .ok () suspension.state.2
    | .error stop => .error stop suspension.state.2

namespace Buffer

/-- `co_await buf.read(fd, size)`. Every callback that does not resume the coroutine takes a
byte from the socket, which bounds their number. -/
def read (size : ℕ) : StreamM Unit := fun stream =>
  if (ReadExactlyAwaiter.create size).awaitReady then .ok () stream
  else
    resumeWith ReadExactlyAwaiter.awaitResume
      (Suspension.fired ReadExactlyAwaiter.onReadReady (stream.socket.incoming.length + 1)
        (Suspension.start (ReadExactlyAwaiter.create size, stream)))

/-- `co_await buf.read_to(fd, size)`. -/
def readTo (size : ℕ) : StreamM Unit := fun stream =>
  if size ≤ stream.buf.length then read 0 stream
  else read (size - stream.buf.length) stream

/-- `co_await buf.write(fd, size)`. Every callback that does not resume the coroutine drains a
byte from the buffer, which bounds their number. -/
def write (size : ℤ) : StreamM Unit := fun stream =>
  resumeWith WriteAwaiter.awaitResume
    (Suspension.fired WriteAwaiter.onWriteReady (stream.buf.length + 1)
      (Suspension.start (WriteAwaiter.create size, stream)))

end Buffer

/-- Computations on a buffer alone. -/
abbrev BufferM := EStateM Stop Bytes

instance : MonadLift BufferM StreamM where
  monadLift action := Stateful.zoom Stream.buf (fun buf stream => { stream with buf := buf }) action

/-- The content of a new buffer after some additions to it. -/
def Buffer.filled (fill : BufferM Unit) : Bytes :=
  Stateful.endState (fill [])

/-- `co_await send_buf.write(fd)` for a local buffer. -/
def Buffer.writeSeparately (fill : BufferM Unit) : StreamM Unit := fun stream =>
  match write (-1) { stream with buf := filled fill } with
  | .ok _ after => .ok () { after with buf := stream.buf }
  | .error stop after => .error stop { after with buf := stream.buf }

/-- `std::string::max_size`; constructing a longer string raises `length_error`. -/
def stringMaxSize : ℕ := 2 ^ 63 - 1

namespace Buffer

def getLength : BufferM ℕ := fun buf => .ok buf.length buf

def add (data : Bytes) : BufferM Unit := fun buf => .ok () (buf ++ data)

def addReference (data : Bytes) : BufferM Unit := add data

def drain (size : ℕ) : BufferM Unit := fun buf => .ok () (buf.drop size)

def drainAll : BufferM Unit := do
  drain (← getLength)

/-- The source of `add_buffer`: its whole content is moved out. -/
def moveOut : BufferM Bytes := fun buf => .ok buf []

/-- `remove(void*, size_t)`. The count returned by `evbuffer_remove` passes through an `int`. -/
def remove (size : ℕ) : BufferM Bytes := fun buf =>
  let count := min size buf.length
  if toInt32 count < 0 then .error (.runtimeError "evbuffer_remove") (buf.drop count)
  else if (toInt32 count).toNat < size then
    .error (.runtimeError "not enough data in buffer") (buf.drop count)
  else .ok (buf.take count) (buf.drop count)

/-- `remove(size_t)`, which makes room in a string first. -/
def removeString (size : ℕ) : BufferM Bytes := do
  if stringMaxSize < size then throw (.raised (.lengthError "basic_string::_M_create"))
  remove size

def copyout (size : ℕ) : BufferM Bytes := fun buf =>
  let count := min size buf.length
  if toInt32 count < 0 then .error (.runtimeError "evbuffer_copyout") buf
  else if (toInt32 count).toNat < size then
    .error (.runtimeError "not enough data in buffer") buf
  else .ok (buf.take count) buf

/-- `readln(EVBUFFER_EOL_NUL)`. -/
def readln : BufferM Bytes := fun buf =>
  if buf.contains 0 then
    .ok (buf.takeWhile (· ≠ 0)) ((buf.dropWhile (· ≠ 0)).drop 1)
  else .error (.runtimeError "end of stream") buf

def removeU8 : BufferM UInt8 := do
  return (← remove 1).headD 0

def copyoutU8 : BufferM UInt8 := do
  return (← copyout 1).headD 0

/-- `remove<T>()` for a little-endian unsigned type of the given number of bytes. -/
def removeLe (width : ℕ) : BufferM ℕ := do
  return leNat (← remove width)

/-- `remove<T>()` for a big-endian unsigned type of the given number of bytes. -/
def removeBe (width : ℕ) : BufferM ℕ := do
  return beNat (← remove width)

def removeU16l : BufferM ℕ := removeLe 2

def removeU32l : BufferM ℕ := removeLe 4

def removeU64l : BufferM ℕ := removeLe 8

def removeU16b : BufferM ℕ := removeBe 2

def removeU32b : BufferM ℕ := removeBe 4

def removeU64b : BufferM ℕ := removeBe 8

def addU8 (value : UInt8) : BufferM Unit := add [value]

def addU16l (value : ℕ) : BufferM Unit := add (leBytes 2 value)

def addU32l (value : ℕ) : BufferM Unit := add (leBytes 4 value)

def addU64l (value : ℕ) : BufferM Unit := add (leBytes 8 value)

def addU16b (value : ℕ) : BufferM Unit := add (beBytes 2 value)

def addU64b (value : ℕ) : BufferM Unit := add (beBytes 8 value)

end Buffer

end EventAsync
