import EventAsync.HTTP.Websocket
import EventAsync.Lib.SerialLog
import EventAsync.Lib.Transition

/-!
# Concurrent writes to a websocket client

Every `WebsocketClient::write` puts its frame into a buffer of its own and
suspends on a write event of its own, but all of them write to the same file
descriptor.  `read` does the same for the replies to control frames.  When the
descriptor becomes ready, the event loop runs the callbacks of the suspended
writes in any order, and each takes as many bytes as the kernel accepts.

Nothing keeps a callback from writing while another frame has been written in
part.  The frames stay whole exactly in the runs in which this does not happen.
-/

namespace EventAsync.HTTP

open ByteCodec SerialLog Transition

/-- A call of `write` that has suspended.  `frame` is what was put into `send_buf`. -/
structure PendingWrite where
  frame : Bytes
  awaiter : WriteAwaiter
  sendBuf : Bytes
  armed : Bool

/-- A client with the calls of `write` made so far.  `log` has every byte sent together with the
number of the call that sent it. -/
structure WebsocketWrites where
  socket : Socket
  calls : List PendingWrite
  log : List (ℕ × UInt8)

inductive WriteEvent where
  /-- A coroutine calls `write`. -/
  | write (data : Bytes) (opcode : UInt8)
  /-- A coroutine in `read` has received a control frame. -/
  | control (opcode : UInt8) (framePayload : Bytes)
  /-- The event loop runs the callback of a suspended call. -/
  | ready (call : ℕ)

namespace WebsocketClient

open Buffer

theorem filled_fillSendBuf_ne_nil (data : Bytes) (opcode : UInt8) :
    filled (fillSendBuf data opcode) ≠ [] := by
  simp only [fillSendBuf]
  split
  · simp [filled, addU8, addU64b, add, bind, EStateM.bind, Stateful.endState]
  · split
    · simp [filled, addU8, addU16b, add, bind, EStateM.bind, Stateful.endState]
    · simp [filled, addU8, add, bind, EStateM.bind, Stateful.endState]

end WebsocketClient

/-- The awaiter writes a whole buffer, of which some bytes have been written. -/
def Writing (awaiter : WriteAwaiter) (written : ℕ) (buf : Bytes) : Prop :=
  awaiter.bytesWritten = written ∧
    (awaiter.limit = written + buf.length ∨ awaiter.limit < 0 ∧ written = 0)

section Callback

variable {awaiter : WriteAwaiter} {written : ℕ} {buf : Bytes} {socket : Socket}

/-- The limit after the first callback has replaced a negative one. -/
theorem Writing.limit_eq (writing : Writing awaiter written buf) :
    (if awaiter.limit < 0 then { awaiter with limit := buf.length } else awaiter) =
      { awaiter with limit := (written + buf.length : ℕ) } := by
  rcases awaiter with ⟨limit, bytesWritten, err⟩
  rcases writing with ⟨_, known | ⟨negative, rfl⟩⟩
  · have nonnegative : ¬limit < 0 := by
      simp only at known
      omega
    simp only [nonnegative, if_false, WriteAwaiter.mk.injEq, and_self, and_true]
    simp only at known
    omega
  · simp only at negative
    simp [negative]

theorem Writing.writeAtmost (nonempty : buf ≠ []) (written : ℕ) :
    Stream.evbufferWriteAtmost ⟨buf, socket⟩ (written + buf.length : ℕ) =
      match socket.writes socket.writeCalls with
      | .failed => (none, ⟨buf, { socket with writeCalls := socket.writeCalls + 1 }⟩)
      | .ready atMost =>
          (some (min (atMost : ℕ) buf.length),
            ⟨buf.drop (min (atMost : ℕ) buf.length),
              { socket with
                writeCalls := socket.writeCalls + 1
                sent := socket.sent ++ buf.take (min (atMost : ℕ) buf.length) }⟩) := by
  have positive : 0 < buf.length := List.length_pos_of_ne_nil nonempty
  have whole : (if ((written + buf.length : ℕ) : ℤ) < 0 ∨
      (buf.length : ℤ) < ((written + buf.length : ℕ) : ℤ) then buf.length
      else ((written + buf.length : ℕ) : ℤ).toNat) = buf.length := by
    split <;> omega
  have nonzero : buf.length ≠ 0 := by omega
  cases call : socket.writes socket.writeCalls with
  | failed => simp only [Stream.evbufferWriteAtmost, whole, nonzero, if_false, call]
  | ready atMost => simp only [Stream.evbufferWriteAtmost, whole, nonzero, if_false, call]

/-- A callback that fails ends the write with the buffer as it is. -/
theorem Writing.failed (writing : Writing awaiter written buf) (nonempty : buf ≠ [])
    (failed : socket.writes socket.writeCalls = .failed) :
    ∃ ended, WriteAwaiter.onWriteReady (awaiter, ⟨buf, socket⟩) =
      ([.resume], ended, ⟨buf, { socket with writeCalls := socket.writeCalls + 1 }⟩) := by
  refine ⟨{ awaiter with limit := (written + buf.length : ℕ), err := true }, ?_⟩
  simp only [WriteAwaiter.onWriteReady, writing.limit_eq, Writing.writeAtmost nonempty, failed]

/-- A callback that does not fail takes bytes from the buffer and suspends again if some are
left. -/
theorem Writing.wrote (writing : Writing awaiter written buf) (nonempty : buf ≠ [])
    {atMost : ℕ+} (ready : socket.writes socket.writeCalls = .ready atMost) :
    ∃ counted, Writing counted (written + min (atMost : ℕ) buf.length)
        (buf.drop (min (atMost : ℕ) buf.length)) ∧
      WriteAwaiter.onWriteReady (awaiter, ⟨buf, socket⟩) =
        (if buf.drop (min (atMost : ℕ) buf.length) ≠ [] then [.eventAdd] else [.resume], counted,
          ⟨buf.drop (min (atMost : ℕ) buf.length),
            { socket with
              writeCalls := socket.writeCalls + 1
              sent := socket.sent ++ buf.take (min (atMost : ℕ) buf.length) }⟩) := by
  have counts := writing.1
  refine ⟨{ awaiter with
    limit := (written + buf.length : ℕ)
    bytesWritten := awaiter.bytesWritten + min (atMost : ℕ) buf.length }, ?_, ?_⟩
  · refine ⟨by simp only [counts], Or.inl ?_⟩
    simp only [List.length_drop]
    omega
  · have unfinished : ((awaiter.bytesWritten + min (atMost : ℕ) buf.length : ℕ) : ℤ) ≠
        ((written + buf.length : ℕ) : ℤ) ↔ buf.drop (min (atMost : ℕ) buf.length) ≠ [] := by
      rw [Ne, Ne, List.drop_eq_nil_iff]
      omega
    simp only [WriteAwaiter.onWriteReady, writing.limit_eq, Writing.writeAtmost nonempty, ready,
      unfinished]
    split
    · rfl
    · rfl

end Callback

namespace WebsocketWrites

def init (socket : Socket) : WebsocketWrites where
  socket := { socket with sent := [] }
  calls := []
  log := []

/-- `write` up to its suspension. -/
def begin (state : WebsocketWrites) (data : Bytes) (opcode : UInt8) : WebsocketWrites :=
  { state with
    calls := state.calls ++
      [{ frame := Buffer.filled (WebsocketClient.fillSendBuf data opcode)
         awaiter := .create (-1)
         sendBuf := Buffer.filled (WebsocketClient.fillSendBuf data opcode)
         armed := true }] }

/-- The reply of `read` to a control frame. -/
def reply (state : WebsocketWrites) (opcode : UInt8) (framePayload : Bytes) : WebsocketWrites :=
  if opcode = 0x08 then state.begin framePayload 0x08
  else if opcode = 0x09 then state.begin framePayload 0x0A
  else state

/-- `on_write_ready` of one call, on the socket that all calls share. -/
def onWriteReady (state : WebsocketWrites) (call : ℕ) (pending : PendingWrite) : WebsocketWrites :=
  let (actions, awaiter, after) :=
    WriteAwaiter.onWriteReady (pending.awaiter, { buf := pending.sendBuf, socket := state.socket })
  { socket := after.socket
    calls := state.calls.set call
      { pending with
        awaiter := awaiter
        sendBuf := after.buf
        armed := actions.contains .eventAdd }
    log := state.log ++
      tagged call (pending.sendBuf.take (pending.sendBuf.length - after.buf.length)) }

def step (state : WebsocketWrites) : WriteEvent → Option WebsocketWrites
  | .write data opcode => some (state.begin data opcode)
  | .control opcode framePayload => some (state.reply opcode framePayload)
  | .ready call =>
      match state.calls[call]? with
      | some pending => if pending.armed then some (state.onWriteReady call pending) else none
      | none => none

/-- The frame of a call that has been made. -/
def frame (state : WebsocketWrites) (call : ℕ) : Bytes :=
  match state.calls[call]? with
  | some pending => pending.frame
  | none => []

/-- The bytes sent are a prefix of whole frames one after another, at most one for each call. -/
def Untorn (state : WebsocketWrites) : Prop :=
  Serial state.frame state.log ∧ state.log.map Prod.snd = state.socket.sent

/-- What is known of a call from its number and the log. -/
structure Progress (log : List (ℕ × UInt8)) (call : ℕ) (pending : PendingWrite) : Prop where
  nonempty : pending.frame ≠ []
  joined : part log call ++ pending.sendBuf = pending.frame
  unfinished : pending.armed = true → pending.sendBuf ≠ []
  writing : pending.armed = true →
    Writing pending.awaiter (part log call).length pending.sendBuf

/-- The log agrees with the calls and with the socket. -/
structure Consistent (state : WebsocketWrites) : Prop where
  progress : ∀ call pending, state.calls[call]? = some pending → Progress state.log call pending
  unmade : ∀ call, state.calls.length ≤ call → part state.log call = []
  sent_eq : state.log.map Prod.snd = state.socket.sent

theorem consistent_init (socket : Socket) : Consistent (init socket) := by
  refine ⟨?_, fun _ _ => rfl, rfl⟩
  intro call pending made
  simp [init] at made

/-- A call is one of the earlier ones or the one that has just begun. -/
theorem getElem?_begin {state : WebsocketWrites} {data : Bytes} {opcode : UInt8} {call : ℕ}
    {pending : PendingWrite} (made : (state.begin data opcode).calls[call]? = some pending) :
    state.calls[call]? = some pending ∨ call = state.calls.length ∧ pending.armed = true ∧
      pending.frame = Buffer.filled (WebsocketClient.fillSendBuf data opcode) ∧
      pending.sendBuf = pending.frame ∧ pending.awaiter = .create (-1) := by
  simp only [begin] at made
  by_cases earlier : call < state.calls.length
  · left
    rwa [List.getElem?_append_left earlier] at made
  · right
    have last : call = state.calls.length := by
      have inRange := (List.getElem?_eq_some_iff.mp made).1
      simp only [List.length_append, List.length_singleton] at inRange
      omega
    subst last
    rw [List.getElem?_concat_length, Option.some.injEq] at made
    subst made
    exact ⟨rfl, rfl, rfl, rfl, rfl⟩

theorem consistent_begin {state : WebsocketWrites} (consistent : Consistent state) (data : Bytes)
    (opcode : UInt8) : Consistent (state.begin data opcode) := by
  refine ⟨?_, ?_, consistent.sent_eq⟩
  · intro call pending made
    rcases getElem?_begin made with earlier | ⟨rfl, _, frame, whole, created⟩
    · exact consistent.progress call pending earlier
    · have nonempty : pending.frame ≠ [] := by
        rw [frame]
        exact WebsocketClient.filled_fillSendBuf_ne_nil data opcode
      have unsent : part (state.begin data opcode).log state.calls.length = [] :=
        consistent.unmade _ le_rfl
      refine ⟨nonempty, ?_, fun _ => ?_, fun _ => ?_⟩
      · rw [unsent, whole, List.nil_append]
      · rwa [whole]
      · rw [unsent, created]
        exact ⟨rfl, Or.inr ⟨by norm_num [WriteAwaiter.create], rfl⟩⟩
  · intro call beyond
    apply consistent.unmade
    simp only [begin, List.length_append] at beyond
    omega

theorem consistent_reply {state : WebsocketWrites} (consistent : Consistent state)
    (opcode : UInt8) (framePayload : Bytes) : Consistent (state.reply opcode framePayload) := by
  simp only [reply]
  split
  · exact consistent_begin consistent framePayload 0x08
  · split
    · exact consistent_begin consistent framePayload 0x0A
    · exact consistent

/-- The callback of a call has sent some bytes of its frame, none if the socket failed. -/
structure Turn (state : WebsocketWrites) (call : ℕ) (pending : PendingWrite)
    (next : WebsocketWrites) (after : PendingWrite) (bytes : Bytes) : Prop where
  sendBuf : pending.sendBuf = bytes ++ after.sendBuf
  frame : after.frame = pending.frame
  calls : next.calls = state.calls.set call after
  log : next.log = state.log ++ tagged call bytes
  sent : next.socket.sent = state.socket.sent ++ bytes
  unfinished : after.armed = true → after.sendBuf ≠ []
  writing : after.armed = true →
    Writing after.awaiter ((part state.log call).length + bytes.length) after.sendBuf
  wrote : bytes ≠ [] ↔ state.socket.writes state.socket.writeCalls ≠ .failed

theorem exists_turn {state : WebsocketWrites} {call : ℕ} {pending : PendingWrite}
    (progress : Progress state.log call pending) (armed : pending.armed = true) :
    ∃ after bytes, Turn state call pending (state.onWriteReady call pending) after bytes := by
  have nonempty := progress.unfinished armed
  have writing := progress.writing armed
  cases result : state.socket.writes state.socket.writeCalls with
  | failed =>
      rcases writing.failed nonempty result with ⟨ended, called⟩
      refine ⟨{ pending with awaiter := ended, armed := false },
        [], rfl, rfl, ?_, ?_, ?_, ?_, ?_, ?_⟩
      · simp [onWriteReady, called]
      · simp [onWriteReady, called]
      · simp [onWriteReady, called]
      · simp
      · simp
      · simp [result]
  | ready atMost =>
      rcases writing.wrote nonempty result with ⟨counted, writingAfter, called⟩
      have positive : 0 < pending.sendBuf.length := List.length_pos_of_ne_nil nonempty
      have accepted := atMost.pos
      generalize counts : min (atMost : ℕ) pending.sendBuf.length = count at writingAfter called
      have le : count ≤ pending.sendBuf.length := by omega
      have taken : pending.sendBuf.length - (pending.sendBuf.length - count) = count := by omega
      refine ⟨{ pending with
        awaiter := counted
        sendBuf := pending.sendBuf.drop count
        armed := pending.sendBuf.drop count ≠ [] }, pending.sendBuf.take count, ?_, rfl, ?_, ?_, ?_,
          ?_, ?_, ?_⟩
      · exact (List.take_append_drop count pending.sendBuf).symm
      · by_cases left : pending.sendBuf.drop count = []
        · simp [onWriteReady, called, left]
        · simp [onWriteReady, called, left]
      · simp [onWriteReady, called, taken]
      · simp [onWriteReady, called]
      · intro again
        simpa using again
      · intro _
        rwa [List.length_take, Nat.min_eq_left le]
      · have some : pending.sendBuf.take count ≠ [] := by
          apply List.ne_nil_of_length_pos
          rw [List.length_take]
          omega
        simp [result, some]

/-- Calls other than the one whose callback ran are as before. -/
theorem Turn.getElem? {state next : WebsocketWrites} {call other : ℕ}
    {pending after found : PendingWrite} {bytes : Bytes}
    (turn : Turn state call pending next after bytes) (made : state.calls[call]? = some pending)
    (foundAfter : next.calls[other]? = some found) :
    other = call ∧ found = after ∨ other ≠ call ∧ state.calls[other]? = some found := by
  rw [turn.calls] at foundAfter
  by_cases same : other = call
  · subst same
    have inRange := (List.getElem?_eq_some_iff.mp made).1
    rw [List.getElem?_set_self inRange, Option.some.injEq] at foundAfter
    exact Or.inl ⟨rfl, foundAfter.symm⟩
  · rw [List.getElem?_set_ne (Ne.symm same)] at foundAfter
    exact Or.inr ⟨same, foundAfter⟩

theorem Turn.frame_eq {state next : WebsocketWrites} {call : ℕ} {pending after : PendingWrite}
    {bytes : Bytes} (turn : Turn state call pending next after bytes)
    (made : state.calls[call]? = some pending) : next.frame = state.frame := by
  funext other
  simp only [WebsocketWrites.frame, turn.calls]
  by_cases same : other = call
  · subst same
    have inRange := (List.getElem?_eq_some_iff.mp made).1
    rw [List.getElem?_set_self inRange, made]
    exact turn.frame
  · rw [List.getElem?_set_ne (Ne.symm same)]

theorem Turn.consistent {state next : WebsocketWrites} {call : ℕ} {pending after : PendingWrite}
    {bytes : Bytes} (turn : Turn state call pending next after bytes)
    (consistent : Consistent state) (made : state.calls[call]? = some pending) :
    Consistent next := by
  have inRange := (List.getElem?_eq_some_iff.mp made).1
  have progress := consistent.progress call pending made
  refine ⟨?_, ?_, ?_⟩
  · intro other found foundAfter
    rcases turn.getElem? made foundAfter with ⟨rfl, rfl⟩ | ⟨different, earlier⟩
    · have parts : part next.log other = part state.log other ++ bytes := by
        rw [turn.log, part_append, part_tagged]
      refine ⟨?_, ?_, turn.unfinished, ?_⟩
      · rw [turn.frame]
        exact progress.nonempty
      · rw [parts, List.append_assoc, ← turn.sendBuf, progress.joined, turn.frame]
      · rw [parts, List.length_append]
        exact turn.writing
    · have parts : part next.log other = part state.log other := by
        rw [turn.log, part_append, part_tagged_of_ne different, List.append_nil]
      have before := consistent.progress other found earlier
      exact ⟨before.nonempty, by rw [parts, before.joined], before.unfinished,
        by rw [parts]; exact before.writing⟩
  · intro other beyond
    rw [turn.calls, List.length_set] at beyond
    have different : other ≠ call := by omega
    rw [turn.log, part_append, part_tagged_of_ne different, List.append_nil]
    exact consistent.unmade other beyond
  · rw [turn.log, turn.sent, List.map_append, consistent.sent_eq, tagged, List.map_map]
    simp [Function.comp_def]

/-- What an accepted event is. -/
theorem step_cases {state next : WebsocketWrites} {event : WriteEvent}
    (stepped : state.step event = some next) :
    (∃ data opcode, event = .write data opcode ∧ next = state.begin data opcode) ∨
    (∃ opcode framePayload, event = .control opcode framePayload ∧
      next = state.reply opcode framePayload) ∨
    ∃ call pending, event = .ready call ∧ state.calls[call]? = some pending ∧
      pending.armed = true ∧ next = state.onWriteReady call pending := by
  cases event with
  | write data opcode =>
      exact Or.inl ⟨data, opcode, rfl, (Option.some.inj stepped).symm⟩
  | control opcode framePayload =>
      exact Or.inr (Or.inl ⟨opcode, framePayload, rfl, (Option.some.inj stepped).symm⟩)
  | ready call =>
      simp only [step] at stepped
      split at stepped
      case h_1 pending made =>
        split at stepped
        case isTrue armed =>
          exact Or.inr (Or.inr ⟨call, pending, rfl, made, armed, (Option.some.inj stepped).symm⟩)
        case isFalse => cases stepped
      case h_2 => cases stepped

theorem consistent_step (state : WebsocketWrites) (event : WriteEvent) (next : WebsocketWrites)
    (consistent : Consistent state) (stepped : state.step event = some next) :
    Consistent next := by
  rcases step_cases stepped with ⟨data, opcode, rfl, rfl⟩ | ⟨opcode, framePayload, rfl, rfl⟩ |
    ⟨call, pending, rfl, made, armed, rfl⟩
  · exact consistent_begin consistent data opcode
  · exact consistent_reply consistent opcode framePayload
  · rcases exists_turn (consistent.progress call pending made) armed with ⟨after, bytes, turn⟩
    exact turn.consistent consistent made

/-- A frame that is neither unsent nor wholly sent. -/
def PartlySent (state : WebsocketWrites) (call : ℕ) : Prop :=
  ∃ pending, state.calls[call]? = some pending ∧ pending.sendBuf ≠ [] ∧
    pending.sendBuf ≠ pending.frame

/-- If the event is a callback that sends bytes, no other frame is partly sent. -/
def SendsAlone (state : WebsocketWrites) (event : WriteEvent) : Prop :=
  ∀ call, event = .ready call → (state.step event).isSome →
    state.socket.writes state.socket.writeCalls ≠ .failed →
      ∀ other, other ≠ call → ¬state.PartlySent other

/-- The frames that are not partly sent, in terms of the log. -/
theorem idle_iff {state : WebsocketWrites} (consistent : Consistent state) (call : ℕ) :
    Idle state.frame state.log call ↔ ∀ other, other ≠ call → ¬state.PartlySent other := by
  have each : ∀ other, (part state.log other = [] ∨ part state.log other = state.frame other) ↔
      ¬state.PartlySent other := by
    intro other
    cases made : state.calls[other]? with
    | none =>
        have unsent := consistent.unmade other (List.getElem?_eq_none_iff.mp made)
        simp [PartlySent, made, unsent]
    | some pending =>
        have joined := (consistent.progress other pending made).joined
        have unsent : part state.log other = [] ↔ pending.sendBuf = pending.frame := by
          rw [← joined]
          simp
        have whole : part state.log other = state.frame other ↔ pending.sendBuf = [] := by
          have frame_eq : state.frame other = pending.frame := by rw [frame, made]
          rw [frame_eq, ← joined]
          simp
        rw [unsent, whole]
        simp only [PartlySent, made, Option.some.injEq, exists_eq_left', not_and, not_not]
        tauto
  exact forall₂_congr fun other _ => each other

theorem serial_begin {state : WebsocketWrites} (serial : Serial state.frame state.log)
    (data : Bytes) (opcode : UInt8) :
    Serial (state.begin data opcode).frame (state.begin data opcode).log := by
  apply serial.of_blocks
  intro call made
  have earlier : call < state.calls.length := by
    by_contra beyond
    apply made
    simp only [frame]
    rw [List.getElem?_eq_none_iff.mpr (by omega)]
  simp only [frame, begin]
  rw [List.getElem?_append_left earlier]

theorem serial_reply {state : WebsocketWrites} (serial : Serial state.frame state.log)
    (opcode : UInt8) (framePayload : Bytes) :
    Serial (state.reply opcode framePayload).frame (state.reply opcode framePayload).log := by
  simp only [reply]
  split
  · exact serial_begin serial framePayload 0x08
  · split
    · exact serial_begin serial framePayload 0x0A
    · exact serial

/-- A step that meets the condition keeps the frames whole. -/
theorem serial_step {state next : WebsocketWrites} {event : WriteEvent}
    (consistent : Consistent state) (serial : Serial state.frame state.log)
    (alone : SendsAlone state event) (stepped : state.step event = some next) :
    Serial next.frame next.log := by
  rcases step_cases stepped with ⟨data, opcode, rfl, rfl⟩ | ⟨opcode, framePayload, rfl, rfl⟩ |
    ⟨call, pending, rfl, made, armed, rfl⟩
  · exact serial_begin serial data opcode
  · exact serial_reply serial opcode framePayload
  · have progress := consistent.progress call pending made
    rcases exists_turn progress armed with ⟨after, bytes, turn⟩
    rw [turn.frame_eq made, turn.log]
    by_cases nothing : bytes = []
    · rw [nothing, tagged, List.map_nil, List.append_nil]
      exact serial
    · have idle : Idle state.frame state.log call :=
        (idle_iff consistent call).mpr (alone call rfl (by rw [stepped]; rfl)
          (turn.wrote.mp nothing))
      refine serial.append idle ?_
      have whole : state.frame call = part state.log call ++ bytes ++ after.sendBuf := by
        rw [frame, made, List.append_assoc, ← turn.sendBuf, progress.joined]
      rw [whole]
      exact List.prefix_append _ _

/-- If the frames are whole after a step, the step met the condition. -/
theorem sendsAlone_of_serial {state next : WebsocketWrites} {event : WriteEvent}
    (consistent : Consistent state) (stepped : state.step event = some next)
    (serial : Serial next.frame next.log) : SendsAlone state event := by
  rintro call rfl _ accepted
  rcases step_cases stepped with ⟨data, opcode, isWrite, _⟩ | ⟨opcode, framePayload, isControl, _⟩ |
    ⟨ready, pending, isReady, made, armed, rfl⟩
  · cases isWrite
  · cases isControl
  · cases isReady
    rcases exists_turn (consistent.progress call pending made) armed with ⟨after, bytes, turn⟩
    rw [turn.frame_eq made, turn.log] at serial
    exact (idle_iff consistent call).mp (serial.idle (turn.wrote.mpr accepted))

/-- The frames stay whole exactly in the runs in which no callback sends bytes while another frame
is partly sent. -/
theorem untorn_iff (socket : Socket) (events : List WriteEvent) :
    Throughout step Untorn (init socket) events ↔ Along step SendsAlone (init socket) events := by
  have consistent : Throughout step Consistent (init socket) events :=
    throughout_of_preserved consistent_step (consistent_init socket) events
  constructor
  · intro untorn before event after state split reached call isReady accepted
    have consistentBefore := consistent before (event :: after) state split reached
    rcases Option.isSome_iff_exists.mp accepted with ⟨next, stepped⟩
    have serial := (untorn.along_next before event after state split reached next stepped).1
    exact sendsAlone_of_serial consistentBefore stepped serial call isReady accepted
  · intro alone
    have preserved : ∀ state event next,
        (Consistent state ∧ Serial state.frame state.log) → SendsAlone state event →
          state.step event = some next → Consistent next ∧ Serial next.frame next.log := by
      rintro state event next ⟨consistentBefore, serial⟩ allowed stepped
      exact ⟨consistent_step state event next consistentBefore stepped,
        serial_step consistentBefore serial allowed stepped⟩
    have holds := throughout_of_along preserved ⟨consistent_init socket, serial_nil _⟩ alone
    exact holds.mono fun state held => ⟨held.2, held.1.sent_eq⟩

/-- Two calls of `write` on a socket that accepts one byte at a time. -/
def twoWrites : List WriteEvent :=
  [.write [5] 0x01, .write [6] 0x02, .ready 0, .ready 1]

theorem run_twoWrites :
    ∃ state, run step (init (.bytewise [])) twoWrites = some state ∧
      state.log = [(0, 0x81)] ++ tagged 1 [0x82] ∧ state.socket.sent = [0x81, 0x82] ∧
      state.frame 0 = [0x81, 1, 5] ∧ state.frame 1 = [0x82, 1, 6] ∧
      ∀ call, state.frame (call + 2) = [] := by
  refine ⟨_, rfl, by decide, by decide, by decide, by decide, ?_⟩
  intro call
  rfl

theorem not_untorn_twoWrites :
    ¬Throughout step Untorn (init (.bytewise [])) twoWrites ∧
      ∃ state, run step (init (.bytewise [])) twoWrites = some state ∧
        ∀ order : List ℕ, ¬state.socket.sent <+: order.flatMap state.frame := by
  rcases run_twoWrites with ⟨state, reached, log, sent, first, second, unmade⟩
  constructor
  · intro untorn
    have serial := (untorn twoWrites [] state (List.append_nil _).symm reached).1
    rw [log] at serial
    rcases serial.idle (by simp) 0 (by decide) with unsent | whole
    · exact absurd unsent (by decide)
    · rw [first] at whole
      exact absurd whole (by decide)
  · refine ⟨state, reached, ?_⟩
    intro order
    rw [sent]
    induction order with
    | nil => simp
    | cons call order ih =>
        rw [List.flatMap_cons]
        rcases call with _ | _ | call
        · rw [first]
          simp
        · rw [second]
          simp
        · rw [unmade call]
          exact ih

end WebsocketWrites

end EventAsync.HTTP
