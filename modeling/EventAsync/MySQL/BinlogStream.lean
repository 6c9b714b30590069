import EventAsync.MySQL.QueryResults

/-!
# Binlog streams

After `read_binlogs` the server sends one packet for each event, numbered on
from 1 modulo 256, and possibly an EOF packet at the end.  The event of the
first packet comes without a checksum and those of the others with one of four
bytes.  `get_binlog_event` keeps track of the first event and of the end of the
stream in `binlog_read_state`, which no other call but `read_binlogs` changes.
-/

namespace EventAsync.MySQL

open ByteCodec Decoding ProtocolBuffer

/-- An event as the server sends it behind the first one. -/
structure ChecksummedEvent where
  body : Bytes
  checksum : Bytes
  checksumFits : checksum.length = 4

/-- The payloads of a whole stream: the first event, the events behind it, and what follows the
first byte of the EOF packet. -/
def streamPayloads (first : Bytes) (later : List ChecksummedEvent) (ending : Bytes) : List Bytes :=
  (0x00 :: first) ::
    (later.map fun event => 0x00 :: (event.body ++ event.checksum)) ++ [0xFE :: ending]

structure BinlogStream where
  first : Bytes
  later : List ChecksummedEvent
  ending : Bytes
  fits : ∀ payload ∈ streamPayloads first later ending, payload.length < 2 ^ 24 - 1

def BinlogStream.encode (stream : BinlogStream) : Bytes :=
  packets 1 (streamPayloads stream.first stream.later stream.ending)

def endOfStream : Stop := .raised (.outOfRange "end of binlog stream")

def notReadingError : Stop :=
  .raised (.logicError "get_binlog_event called before read_binlogs or after out_of_range")

/-- What the calls up to the end of the stream should end with. -/
def BinlogStream.delivered (stream : BinlogStream) : List (Except Stop Bytes) :=
  .ok stream.first :: (stream.later.map fun event => .ok event.body) ++ [.error endOfStream]

namespace Client

open Buffer

/-- What a number of successive calls to `get_binlog_event` end with, and the client after them. -/
def getBinlogEvents : ℕ → Client → List (Except Stop Bytes) × Client
  | 0, client => ([], client)
  | count + 1, client =>
      match getBinlogEvent client with
      | .ok event after =>
          (.ok event :: (getBinlogEvents count after).1, (getBinlogEvents count after).2)
      | .error stop after =>
          (.error stop :: (getBinlogEvents count after).1, (getBinlogEvents count after).2)

/-- The client after some other calls, whatever they end with. -/
def performed (lib : Library) (requests : List Request) (client : Client) : Client :=
  requests.foldl (fun client request => Stateful.endState (request.perform lib client)) client

/-- Reading and writing commands leave the state of the binlog reader. -/
theorem traffic_binlogReadState :
    Traffic fun before after => after.binlogReadState = before.binlogReadState where
  refl := fun _ => rfl
  trans := fun _ _ _ earlier later => later.trans earlier
  resetting := fun _ => rfl
  reading := by
    apply Stateful.Respects.of_endState
    intro session
    cases isOpen : session.client.fd with
    | none =>
        rw [readCommand_of_closed isOpen]
        rfl
    | some connection =>
        rcases readCommand_cases isOpen with ⟨stop, after, _, ends⟩ | ⟨seq, after, _, _, ends⟩ |
          ⟨after, _, ends⟩
        · rw [ends]
          rfl
        · rw [ends]
          rfl
        · rw [ends]
          rfl
  writing := by
    apply Stateful.Respects.of_endState
    intro session
    cases isOpen : session.client.fd with
    | none =>
        rw [writeCommand, Stateful.bind_of_ok (get_eq session),
          Stateful.bind_of_ok (set_eq session _)]
        simp only [transfer, isOpen]
        rfl
    | some connection => rw [endState_writeCommand isOpen]

theorem binlogReadState_performed (lib : Library) (requests : List Request) (client : Client) :
    (performed lib requests client).binlogReadState = client.binlogReadState := by
  induction requests generalizing client with
  | nil => rfl
  | cons request requests ih =>
      have kept := (traffic_binlogReadState.perform lib request).endState client
      exact (ih _).trans kept

theorem isSome_fd_performed (lib : Library) (requests : List Request) (client : Client) :
    (performed lib requests client).fd.isSome = client.fd.isSome := by
  induction requests generalizing client with
  | nil => rfl
  | cons request requests ih =>
      have continues := (continues_persistent.traffic.perform lib request).endState client
      exact (ih _).trans continues.isSome_eq

variable {client : Client} {connection : Connection} {seq : UInt8} {payload rest : Bytes}

/-- While no stream is read, the call raises before it does anything. -/
theorem getBinlogEvent_notReading (isOpen : client.fd = some connection)
    (idle : client.binlogReadState = .notReading) :
    getBinlogEvent client = .error notReadingError client := by
  have state : (get : ClientM Client) client = .ok client client := rfl
  rw [getBinlogEvent, Stateful.bind_of_ok (assertConnOpen_ok isOpen), Stateful.bind_of_ok state,
    if_pos idle]
  rfl

/-- A client in the middle of a stream. -/
structure Reading (client : Client) (state : BinlogReadState) (seq : UInt8) (incoming : Bytes) :
    Prop where
  receives : client.Receives incoming
  nextSeq_eq : client.nextSeq = seq
  state_eq : client.binlogReadState = state

variable {state : BinlogReadState}

/-- What `get_binlog_event` does once its packet has been read. -/
def handlePacket (state : BinlogReadState) : SessionM Bytes := do
  let command ← removeU8
  if command = 0xFE then
    (modify fun client => { client with binlogReadState := .notReading } : ClientM Unit)
    throw (.raised (.outOfRange "end of binlog stream"))
  else if command = 0x00 then
    let event ← removeStringEof
    match if state = .readingFirstEvent then .ok event else withoutChecksum event with
    | .error stop => throw stop
    | .ok ret =>
        (modify fun client => { client with binlogReadState := .readingEvent } : ClientM Unit)
        return ret
  else throw (.runtimeError "binlog event does not begin with OK byte")

/-- A call in the middle of a stream reads its packet and handles it. -/
theorem getBinlogEvent_eq (isOpen : client.fd = some connection)
    (active : client.binlogReadState ≠ .notReading) :
    getBinlogEvent client =
      withBuffer (readCommand >>= fun _ => handlePacket client.binlogReadState) client := by
  have current : (get : ClientM Client) client = .ok client client := rfl
  rw [getBinlogEvent, Stateful.bind_of_ok (assertConnOpen_ok isOpen),
    Stateful.bind_of_ok current, if_neg active]
  rfl

theorem exists_handled (reading : client.Reading state seq (packet seq payload ++ rest))
    (active : state ≠ .notReading) (fits : payload.length < 2 ^ 24) :
    ∃ session, session.Holds (seq + 1) payload rest ∧ session.client.binlogReadState = state ∧
      (∀ event after, handlePacket state session = .ok event after →
        getBinlogEvent client = .ok event after.client) ∧
      ∀ stop after, handlePacket state session = .error stop after →
        getBinlogEvent client = .error stop after.client := by
  rcases reading with ⟨⟨connection, isOpen, unread, healthy⟩, nextSeq, rfl⟩
  have holds : Session.Holds ⟨client, []⟩ seq [] (packet seq payload ++ rest) :=
    ⟨⟨connection, isOpen, rfl, unread, rfl, healthy⟩, nextSeq⟩
  rcases readCommand_ok holds fits with ⟨session, read, held⟩
  have kept := traffic_binlogReadState.reading.of_ok read
  refine ⟨session, held, kept, ?_, ?_⟩
  · intro event after handled
    rw [getBinlogEvent_eq isOpen active]
    exact Stateful.zoom_of_ok ((Stateful.bind_of_ok read).trans handled)
  · intro stop after handled
    rw [getBinlogEvent_eq isOpen active]
    exact Stateful.zoom_of_error ((Stateful.bind_of_ok read).trans handled)

/-- What is left of the payload of an event. -/
def eventOf (state : BinlogReadState) (payload : Bytes) : Except Stop Bytes :=
  if state = .readingFirstEvent then .ok payload else withoutChecksum payload

theorem getBinlogEvent_event {event : Bytes}
    (reading : client.Reading state seq (packet seq (0x00 :: payload) ++ rest))
    (active : state ≠ .notReading) (fits : (0x00 :: payload : Bytes).length < 2 ^ 24)
    (stripped : eventOf state payload = .ok event) :
    ∃ after, getBinlogEvent client = .ok event after ∧
      after.Reading .readingEvent (seq + 1) rest := by
  rcases exists_handled reading active fits with ⟨session, holds, _, returns, _⟩
  rcases holds.decode (decodes_removeU8 0x00) with ⟨taken, removed, held⟩
  have content : (liftM removeStringEof : SessionM Bytes) taken =
      .ok payload { taken with buf := [] } := by
    apply Stateful.zoom_of_ok
    rw [held.buf_eq]
    apply removeStringEof_ok
    simp only [List.length_cons] at fits
    omega
  have handled : handlePacket state session = .ok event
      ⟨{ taken.client with binlogReadState := .readingEvent }, []⟩ := by
    rw [handlePacket, Stateful.bind_of_ok removed, if_neg (by decide), if_pos rfl,
      Stateful.bind_of_ok content]
    simp only [eventOf] at stripped
    rw [stripped]
    rfl
  refine ⟨_, returns _ _ handled, ?_⟩
  exact ⟨held.receives, held.nextSeq_eq, rfl⟩

theorem getBinlogEvent_end
    (reading : client.Reading state seq (packet seq (0xFE :: payload) ++ rest))
    (active : state ≠ .notReading) (fits : (0xFE :: payload : Bytes).length < 2 ^ 24) :
    ∃ after, getBinlogEvent client = .error endOfStream after ∧
      after.Reading .notReading (seq + 1) rest := by
  rcases exists_handled reading active fits with ⟨session, holds, _, _, raises⟩
  rcases holds.decode (decodes_removeU8 0xFE) with ⟨taken, removed, held⟩
  have handled : handlePacket state session = .error endOfStream
      { taken with client := { taken.client with binlogReadState := .notReading } } := by
    rw [handlePacket, Stateful.bind_of_ok removed, if_pos rfl]
    rfl
  refine ⟨_, raises _ _ handled, ?_⟩
  exact ⟨held.receives, held.nextSeq_eq, rfl⟩

theorem withoutChecksum_event (event : ChecksummedEvent) :
    withoutChecksum (event.body ++ event.checksum) = .ok event.body := by
  have length := event.checksumFits
  rw [withoutChecksum, if_neg (by rw [List.length_append]; omega), List.length_append, length,
    Nat.add_sub_cancel, List.take_left]

/-- The calls for the events behind the first one and for the end of the stream. -/
theorem getBinlogEvents_later (later : List ChecksummedEvent) {ending following : Bytes}
    (fits : ∀ payload ∈ (later.map fun event => 0x00 :: (event.body ++ event.checksum)) ++
      [0xFE :: ending], payload.length < 2 ^ 24)
    (reading : client.Reading .readingEvent seq
      (packets seq ((later.map fun event => 0x00 :: (event.body ++ event.checksum)) ++
        [0xFE :: ending]) ++ following)) :
    ∃ ended last, getBinlogEvents (later.length + 1) client =
        ((later.map fun event => .ok event.body) ++ [.error endOfStream], ended) ∧
      ended.Reading .notReading last following := by
  induction later generalizing client seq with
  | nil =>
      simp only [List.map_nil, List.nil_append, packets, List.append_nil] at reading
      rcases getBinlogEvent_end reading (by decide) (fits _ (by simp)) with
        ⟨ended, raised, readingEnded⟩
      refine ⟨ended, seq + 1, ?_, readingEnded⟩
      simp [getBinlogEvents, raised]
  | cons event later ih =>
      simp only [List.map_cons, List.cons_append, packets, List.append_assoc] at reading
      rcases getBinlogEvent_event reading (by decide) (fits _ (by simp))
        (withoutChecksum_event event) with ⟨after, returned, readingAfter⟩
      rcases ih (fun payload mem => fits payload (by simp [mem])) readingAfter with
        ⟨ended, last, calls, readingEnded⟩
      refine ⟨ended, last, ?_, readingEnded⟩
      rw [List.length_cons, getBinlogEvents, returned]
      simp [calls]

theorem writeCommand_nextSeq {session after : Session}
    (wrote : writeCommand session = .ok () after) :
    after.client.nextSeq = session.client.nextSeq + 1 := by
  cases isOpen : session.client.fd with
  | none =>
      rw [writeCommand, Stateful.bind_of_ok (get_eq session),
        Stateful.bind_of_ok (set_eq session _)] at wrote
      simp only [transfer, isOpen] at wrote
      cases wrote
  | some connection =>
      have ends := endState_writeCommand isOpen
      rw [wrote] at ends
      simp only [Stateful.endState] at ends
      rw [ends]

/-- The argument of the command that starts a stream. -/
def dumpArgument (randomObject position serverId : ℕ) (filename : Bytes) (block : Bool) : Bytes :=
  leBytes 4 position ++ leBytes 2 (if block then 0x0000 else 0x0001) ++
    leBytes 4 (if serverId = 0 then randomObject else serverId) ++ filename

/-- `read_binlogs` as a query and a command. -/
theorem readBinlogs_eq (lib : Library) (fuel randomObject position serverId : ℕ) (filename : Bytes)
    (block : Bool) :
    readBinlogs lib fuel randomObject filename position serverId block = (do
      assertConnOpen
      let _ ← query lib fuel
        (ascii "SET @master_binlog_checksum = 'ALL', @source_binlog_checksum = 'ALL'") true
      withBuffer (sendCommand binlogDumpCommand
        (dumpArgument randomObject position serverId filename block))
      modify fun client =>
        { client with binlogReadState := .readingFirstEvent, expectedBinlogSeq := 1 }) :=
  rfl

theorem withBuffer_ok {Result : Type} {action : SessionM Result} {result : Result} {after : Client}
    (returned : withBuffer action client = .ok result after) :
    ∃ session, action ⟨client, []⟩ = .ok result session ∧ after = session.client := by
  simp only [withBuffer, Stateful.zoom] at returned
  split at returned
  · rename_i session ends
    cases returned
    exact ⟨session, ends, rfl⟩
  · cases returned

/-- A call to `read_binlogs` that returns has sent its command as number 0. -/
theorem readBinlogs_returned {lib : Library} {fuel randomObject position serverId : ℕ}
    {filename : Bytes} {block : Bool} {started : Client}
    (returned : readBinlogs lib fuel randomObject filename position serverId block client =
      .ok () started) :
    started.nextSeq = 1 ∧ started.binlogReadState = .readingFirstEvent := by
  rw [readBinlogs_eq] at returned
  rcases Stateful.bind_eq_ok_iff.mp returned with ⟨_, checked, _, returned⟩
  rcases Stateful.bind_eq_ok_iff.mp returned with ⟨_, queried, _, returned⟩
  rcases Stateful.bind_eq_ok_iff.mp returned with ⟨_, sent, sending, modified⟩
  rcases withBuffer_ok sending with ⟨session, wrote, rfl⟩
  cases modified
  rw [sendCommand_eq] at wrote
  exact ⟨writeCommand_nextSeq wrote, rfl⟩

/-- `read_binlogs` returns once the server has answered its query. -/
theorem readBinlogs_ok {lib : Library} {fuel : ℕ} (response : QueryResponse lib)
    (single : response.before = []) (receives : client.Receives (response.encode ++ rest))
    (enough : response.payloads.length < fuel) (randomObject position serverId : ℕ)
    (filename : Bytes) (block : Bool) :
    ∃ started, readBinlogs lib fuel randomObject filename position serverId block client =
        .ok () started ∧ started.Receives rest := by
  have noInfo : response.NoInfoBeforeLast := by
    intro affectedRows insertId fits status mem
    simp [single] at mem
  rcases response.decoded_of_noInfoBeforeLast receives enough noInfo
    (ascii "SET @master_binlog_checksum = 'ALL', @source_binlog_checksum = 'ALL'") true with
    ⟨sets, queried, results, allMatch, receivesQueried⟩
  rw [QueryResponse.results, single, List.nil_append] at allMatch
  rcases allMatch with _ | ⟨_, _ | _⟩
  rename_i res _
  have answered : query lib fuel
      (ascii "SET @master_binlog_checksum = 'ALL', @source_binlog_checksum = 'ALL'") true client =
      .ok res queried := by
    rw [query, Stateful.bind_of_ok results]
    rfl
  rcases sendCommand_ok receivesQueried binlogDumpCommand
    (dumpArgument randomObject position serverId filename block) with ⟨sent, sending, held⟩
  rcases receives with ⟨connection, isOpen, _⟩
  rcases held.receives with ⟨later, laterOpen, unread, healthy⟩
  have wrote : withBuffer (sendCommand binlogDumpCommand
      (dumpArgument randomObject position serverId filename block)) queried =
      .ok () sent.client := Stateful.zoom_of_ok sending
  refine ⟨{ sent.client with binlogReadState := .readingFirstEvent, expectedBinlogSeq := 1 }, ?_,
    ⟨later, laterOpen, unread, healthy⟩⟩
  rw [readBinlogs_eq, Stateful.bind_of_ok (assertConnOpen_ok isOpen),
    Stateful.bind_of_ok answered, Stateful.bind_of_ok wrote]
  rfl

/-- After a call to `read_binlogs`, successive calls to `get_binlog_event` return the events of the
stream in order and without checksums, then raise `out_of_range` once.  From then on the call
raises `logic_error` and leaves the client as it is, also after other calls. -/
theorem getBinlogEvents_stream (lib : Library) {fuel randomObject position serverId : ℕ}
    {filename following : Bytes} {block : Bool} {started : Client} (stream : BinlogStream)
    (returned : readBinlogs lib fuel randomObject filename position serverId block client =
      .ok () started)
    (receives : started.Receives (stream.encode ++ following)) :
    ∃ ended, getBinlogEvents (stream.later.length + 2) started = (stream.delivered, ended) ∧
      ended.Receives following ∧
      ∀ requests : List Request, getBinlogEvent (performed lib requests ended) =
        .error notReadingError (performed lib requests ended) := by
  rcases readBinlogs_returned returned with ⟨nextSeq, state⟩
  have fits : ∀ payload ∈ streamPayloads stream.first stream.later stream.ending,
      payload.length < 2 ^ 24 := by
    intro payload mem
    have small := stream.fits payload mem
    omega
  have reading : started.Reading .readingFirstEvent 1 (packet 1 (0x00 :: stream.first) ++
      (packets 2 ((stream.later.map fun event => 0x00 :: (event.body ++ event.checksum)) ++
        [0xFE :: stream.ending]) ++ following)) := by
    refine ⟨?_, nextSeq, state⟩
    rw [← List.append_assoc]
    exact receives
  rcases getBinlogEvent_event reading (by decide) (fits _ (by simp [streamPayloads])) rfl with
    ⟨after, first, readingAfter⟩
  rcases getBinlogEvents_later stream.later
    (fun payload mem => fits payload (List.mem_cons_of_mem _ mem)) readingAfter with
    ⟨ended, last, others, readingEnded⟩
  refine ⟨ended, ?_, readingEnded.receives, ?_⟩
  · rw [getBinlogEvents, first]
    simp [others, BinlogStream.delivered]
  · intro requests
    rcases readingEnded.receives with ⟨connection, isOpen, _⟩
    have stillOpen := isSome_fd_performed lib requests ended
    rw [isOpen] at stillOpen
    rcases Option.isSome_iff_exists.mp stillOpen with ⟨later, laterOpen⟩
    exact getBinlogEvent_notReading laterOpen
      ((binlogReadState_performed lib requests ended).trans readingEnded.state_eq)

/-- The answer to the query of `read_binlogs`. -/
def checksumResponse : QueryResponse unusedLibrary where
  before := []
  last := .ok 0 0 (by decide) (QueryResponse.sampleStatus false [])
  more := by simp
  noMore := by decide
  fits := by decide

/-- A stream of two events. -/
def sampleStream : BinlogStream where
  first := [1, 2]
  later := [⟨[3], [0xAA, 0xBB, 0xCC, 0xDD], rfl⟩]
  ending := [0, 0, 2, 0]
  fits := by decide

theorem getBinlogEvents_sampleStream :
    ∃ started ended, readBinlogs unusedLibrary 2 7 (ascii "binlog.000001") 4 0 false
        (QueryResponse.receivingClient (checksumResponse.encode ++ (sampleStream.encode ++ [9]))) =
          .ok () started ∧
      getBinlogEvents 3 started = ([.ok [1, 2], .ok [3], .error endOfStream], ended) ∧
      ended.Receives [9] ∧ getBinlogEvent ended = .error notReadingError ended := by
  rcases readBinlogs_ok checksumResponse rfl (QueryResponse.receives_receivingClient _)
    (by decide : checksumResponse.payloads.length < 2) 7 4 0 (ascii "binlog.000001") false with
    ⟨started, returned, receives⟩
  rcases getBinlogEvents_stream unusedLibrary sampleStream returned receives with
    ⟨ended, calls, receivesEnded, further⟩
  exact ⟨started, ended, returned, calls, receivesEnded, further []⟩

end Client

end EventAsync.MySQL
