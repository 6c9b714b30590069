import EventAsync.Lib.Transition
import EventAsync.MySQL.ClientTransfers

/-!
# Responses and the commands they belong to

The server answers every command with packets that are numbered from 1 on.  A
call that raises before it has read its whole response leaves packets behind,
and the next call starts its numbers again, so that the numbers alone decide
whether it takes a packet of an earlier response for its own.  It does so
exactly if the first packet left behind has the number 1: the first packet of a
response that was not read at all, or one that is 256 packets further on.
-/

namespace EventAsync.MySQL

open ByteCodec

/-- A call together with the payloads that the server sends in response to its command. -/
structure Exchange where
  request : Client.Request
  response : List Bytes
  fits : ∀ payload ∈ response, payload.length < 2 ^ 24

def Exchange.bytes (exchange : Exchange) : Bytes :=
  ProtocolBuffer.packets 1 exchange.response

/-- The server sends some bytes. -/
def Connection.receive (connection : Connection) (bytes : Bytes) : Connection :=
  { connection with
    socket := { connection.socket with incoming := connection.socket.incoming ++ bytes } }

namespace Client

open Buffer ProtocolBuffer

/-- What the server has sent and the client has not read. -/
def pending (client : Client) : Bytes :=
  match client.fd with
  | none => []
  | some connection => connection.socket.incoming

/-- The record of accepted packets. -/
def accepted (client : Client) : List ℕ :=
  match client.fd with
  | none => []
  | some connection => connection.accepted

def receive (client : Client) (bytes : Bytes) : Client :=
  { client with fd := client.fd.map fun connection => connection.receive bytes }

/-- The call, once its response is there. -/
def exchanged (lib : Library) (client : Client) (exchange : Exchange) :
    EStateM.Result Stop Client Unit :=
  exchange.request.perform lib (client.receive exchange.bytes)

/-- A call that returns or raises leads to a state; one that exceeds its bound does not. -/
def exchangeStep (lib : Library) (client : Client) (exchange : Exchange) : Option Client :=
  match client.exchanged lib exchange with
  | .ok _ after => some after
  | .error .outOfFuel _ => none
  | .error _ after => some after

/-- Every packet that the call accepts starts within the bytes of its own response, also when the
call does not return. -/
def AcceptsOwn (lib : Library) (client : Client) (exchange : Exchange) : Prop :=
  ∀ unread ∈ (Stateful.endState (client.exchanged lib exchange)).accepted.drop
    client.accepted.length, unread ≤ exchange.bytes.length

/-- Nothing is left of earlier responses, or the packet that is next does not have the number 1. -/
def Unmistakable (client : Client) (exchange : Exchange) : Prop :=
  client.pending = [] ∨ (client.pending ++ exchange.bytes)[3]? ≠ some 1

variable {lib : Library} {client : Client} {connection : Connection} {session : Session}

/-- A packet with another number than the expected one is not accepted. -/
theorem readCommand_refused (isOpen : session.client.fd = some connection)
    (refused : connection.socket.incoming[3]? ≠ some session.client.nextSeq) :
    ∃ stop after socket, readCommand session = .error stop after ∧
      after.client.fd = some { connection with socket := socket } := by
  rcases readCommand_cases isOpen with ⟨stop, after, _, ends⟩ | ⟨seq, after, _, _, ends⟩ |
    ⟨after, read, _⟩
  · exact ⟨_, _, after.socket, ends, rfl⟩
  · exact ⟨_, _, after.socket, ends, rfl⟩
  · exact absurd (ProtocolBuffer.readCommand_returned read).2 refused

/-- Sending a command leaves what the server has sent and the number 1 to be expected. -/
theorem endState_sendCommand (isOpen : client.fd = some connection) (command : UInt8)
    (argument : Bytes) :
    ∃ socket, (Stateful.endState (sendCommand command argument ⟨client, []⟩)).client =
        { client with nextSeq := 1, fd := some { connection with socket := socket } } ∧
      socket.incoming = connection.socket.incoming := by
  have reset : (Session.mk { client with nextSeq := 0 } (command :: argument)).client.fd =
      some connection := isOpen
  have unread := (ProtocolBuffer.writeCommand_incoming 0).endState
    ⟨command :: argument, connection.socket⟩
  rw [sendCommand_eq, endState_writeCommand reset]
  exact ⟨_, rfl, unread⟩

theorem endState_withBuffer {Result : Type} (action : SessionM Result) (client : Client) :
    Stateful.endState (withBuffer action client) =
      (Stateful.endState (action ⟨client, []⟩)).client := by
  simp only [withBuffer, Stateful.zoom]
  cases action ⟨client, []⟩ with
  | ok result after => rfl
  | error stop after => rfl

/-- Where a request on an open connection ends: where its command could not be sent, or where a
coroutine ends that starts by reading a packet. -/
def EndsAfter (sent : EStateM.Result Stop Session Unit) (final : Client) : Prop :=
  match sent with
  | .error _ after => final = after.client
  | .ok _ after => ∃ (Result : Type) (reading : SessionM Result) (session : Session),
      StartsReading Continues reading ∧ session.client = after.client ∧
      (after.buf = [] → session.buf = []) ∧ final = (Stateful.endState (reading session)).client

theorem queryMulti_endsAfter (isOpen : client.fd = some connection) (fuel : ℕ) (sql : Bytes)
    (rowsAsDicts : Bool) :
    EndsAfter (sendCommand queryCommand sql ⟨client, []⟩)
      (Stateful.endState (queryMulti lib (fuel + 1) sql rowsAsDicts client)) := by
  have traffic := continues_persistent.traffic
  rw [queryMulti, Stateful.bind_of_ok (assertConnOpen_ok isOpen), endState_withBuffer]
  cases sent : sendCommand queryCommand sql ⟨client, []⟩ with
  | error stop after =>
      rw [Stateful.bind_of_error sent]
      rfl
  | ok _ after =>
      rw [Stateful.bind_of_ok sent]
      refine ⟨_, readResults lib rowsAsDicts (fuel + 1) [], after, ?_, rfl, id, rfl⟩
      exact traffic.startsReading_readResults_succ lib rowsAsDicts fuel []
        (traffic.readResults lib rowsAsDicts fuel)

theorem changeDb_endsAfter (isOpen : client.fd = some connection) (dbName : Bytes) :
    EndsAfter (sendCommand initDbCommand dbName ⟨client, []⟩)
      (Stateful.endState (changeDb dbName client)) := by
  have traffic := continues_persistent.traffic
  rw [changeDb, Stateful.bind_of_ok (assertConnOpen_ok isOpen)]
  cases sent : sendCommand initDbCommand dbName ⟨client, []⟩ with
  | error stop after =>
      have raised : withBuffer (sendCommand initDbCommand dbName) client =
          .error stop after.client := Stateful.zoom_of_error sent
      rw [Stateful.bind_of_error raised]
      rfl
  | ok _ after =>
      have returned : withBuffer (sendCommand initDbCommand dbName) client =
          .ok () after.client := Stateful.zoom_of_ok sent
      rw [Stateful.bind_of_ok returned, endState_withBuffer]
      exact ⟨Unit, expectOk, ⟨after.client, []⟩, traffic.startsReading_expectOk, rfl,
        fun _ => rfl, rfl⟩

theorem perform_endsAfter (lib : Library) (request : Request)
    (isOpen : client.fd = some connection) :
    ∃ command argument, EndsAfter (sendCommand command argument ⟨client, []⟩)
      (Stateful.endState (request.perform lib client)) := by
  cases request with
  | query fuel sql rowsAsDicts =>
      refine ⟨queryCommand, sql, ?_⟩
      have ends : Stateful.endState ((Request.query fuel sql rowsAsDicts).perform lib client) =
          Stateful.endState (queryMulti lib (fuel + 1) sql rowsAsDicts client) := by
        rw [Request.perform, Stateful.endState_bind_of_unchanged fun _ _ => rfl, query]
        refine Stateful.endState_bind_of_unchanged ?_ client
        intro ret state
        split
        · rfl
        · rfl
      rw [ends]
      exact queryMulti_endsAfter isOpen fuel sql rowsAsDicts
  | queryMulti fuel sql rowsAsDicts =>
      refine ⟨queryCommand, sql, ?_⟩
      rw [Request.perform, Stateful.endState_bind_of_unchanged fun _ _ => rfl]
      exact queryMulti_endsAfter isOpen fuel sql rowsAsDicts
  | changeDb dbName => exact ⟨initDbCommand, dbName, changeDb_endsAfter isOpen dbName⟩

/-- A request whose first packet would have another number than 1 accepts nothing. -/
theorem perform_refused (lib : Library) (request : Request) (isOpen : client.fd = some connection)
    (refused : connection.socket.incoming[3]? ≠ some 1) :
    ∃ socket, (Stateful.endState (request.perform lib client)).fd =
      some { connection with socket := socket } := by
  rcases perform_endsAfter lib request isOpen with ⟨command, argument, ends⟩
  rcases endState_sendCommand isOpen command argument with ⟨socket, sentClient, unread⟩
  cases sent : sendCommand command argument ⟨client, []⟩ with
  | error stop after =>
      rw [sent] at ends sentClient
      rw [ends]
      exact ⟨socket, congrArg Client.fd sentClient⟩
  | ok _ after =>
      rw [sent] at ends sentClient
      rcases ends with ⟨Result, reading, session, ⟨next, starts, _⟩, sameClient, _, final⟩
      have clientEq := sameClient.trans sentClient
      have sessionOpen : session.client.fd = some { connection with socket := socket } :=
        congrArg Client.fd clientEq
      have sessionRefused : socket.incoming[3]? ≠ some session.client.nextSeq := by
        rw [unread, clientEq]
        exact refused
      rcases readCommand_refused sessionOpen sessionRefused with ⟨stop, last, socket', read, lastFd⟩
      rw [final, starts, Stateful.bind_of_error read]
      exact ⟨socket', lastFd⟩

theorem receive_of_open (isOpen : client.fd = some connection) (bytes : Bytes) :
    (client.receive bytes).fd = some (connection.receive bytes) := by
  rw [receive, isOpen]
  rfl

/-- What a call has accepted beyond the record before it. -/
theorem accepted_drop {final : Client} {later : Connection} {new : List ℕ}
    (isOpen : client.fd = some connection) (finalOpen : final.fd = some later)
    (record : later.accepted = connection.accepted ++ new) :
    final.accepted.drop client.accepted.length = new := by
  rw [accepted, accepted, isOpen, finalOpen]
  simp only [record, List.drop_left]

theorem acceptsOwn_of_closed (lib : Library) (exchange : Exchange) (closed : client.fd = none) :
    client.AcceptsOwn lib exchange := by
  have continues := (continues_persistent.traffic.perform lib exchange.request).endState
    (client.receive exchange.bytes)
  have receivedClosed : (client.receive exchange.bytes).fd = none := by
    rw [receive, closed]
    rfl
  have stillClosed : (Stateful.endState (client.exchanged lib exchange)).fd = none := by
    have same := continues.isSome_eq
    rw [receivedClosed, Option.isSome_none, Option.isSome_eq_false_iff, Option.isNone_iff_eq_none]
      at same
    exact same
  have nothing : (Stateful.endState (client.exchanged lib exchange)).accepted = [] := by
    rw [accepted, stillClosed]
  intro unread mem
  rw [nothing, List.drop_nil] at mem
  cases mem

theorem acceptsOwn_of_unmistakable (lib : Library) {exchange : Exchange}
    (unmistakable : client.Unmistakable exchange) : client.AcceptsOwn lib exchange := by
  cases isOpen : client.fd with
  | none => exact acceptsOwn_of_closed lib exchange isOpen
  | some connection =>
      have received := receive_of_open isOpen exchange.bytes
      have pendingEq : client.pending = connection.socket.incoming := by rw [pending, isOpen]
      intro unread mem
      rcases unmistakable with nothing | refused
      · have continues := (continues_persistent.traffic.perform lib exchange.request).endState
          (client.receive exchange.bytes)
        rcases continues.of_open received with ⟨later, laterOpen, connectionContinues⟩
        rcases connectionContinues.accepted with ⟨new, record, bound⟩
        rw [exchanged, accepted_drop isOpen laterOpen record] at mem
        have within := bound unread mem
        rw [pendingEq] at nothing
        simpa [Connection.receive, nothing] using within
      · rw [pendingEq] at refused
        rcases perform_refused lib exchange.request received refused with ⟨socket, finalOpen⟩
        rw [exchanged, accepted_drop isOpen finalOpen (List.append_nil _).symm] at mem
        cases mem

/-- Bytes that consist of whole packets. -/
def Framed (bytes : Bytes) : Prop :=
  ∃ sent : List (UInt8 × Bytes), (∀ command ∈ sent, command.2.length < 2 ^ 24) ∧
    bytes = sent.flatMap fun command => packet command.1 command.2

theorem framed_packets (seq : UInt8) {payloads : List Bytes}
    (fits : ∀ payload ∈ payloads, payload.length < 2 ^ 24) : Framed (packets seq payloads) := by
  induction payloads generalizing seq with
  | nil => exact ⟨[], by simp, rfl⟩
  | cons payload payloads ih =>
      rcases ih (seq + 1) fun later mem => fits later (List.mem_cons_of_mem payload mem) with
        ⟨sent, sentFits, sentEq⟩
      refine ⟨(seq, payload) :: sent, ?_, ?_⟩
      · intro command mem
        rcases List.mem_cons.mp mem with rfl | memSent
        · exact fits payload (List.mem_cons_self ..)
        · exact sentFits command memSent
      · rw [packets, sentEq, List.flatMap_cons]

theorem Framed.append {first second : Bytes} (framedFirst : Framed first)
    (framedSecond : Framed second) : Framed (first ++ second) := by
  rcases framedFirst with ⟨sentFirst, fitsFirst, rfl⟩
  rcases framedSecond with ⟨sentSecond, fitsSecond, rfl⟩
  refine ⟨sentFirst ++ sentSecond, ?_, List.flatMap_append.symm⟩
  intro command mem
  rcases List.mem_append.mp mem with memFirst | memSecond
  · exact fitsFirst command memFirst
  · exact fitsSecond command memSecond

/-- The socket does not fail, and what has not been read of it consists of whole packets. -/
def InStep (socket : Socket) : Prop :=
  socket.Healthy ∧ Framed socket.incoming

def Aligned (client : Client) : Prop :=
  ∀ connection, client.fd = some connection → InStep connection.socket

theorem aligned_of_open (isOpen : client.fd = some connection) (inStep : InStep connection.socket) :
    client.Aligned := by
  intro other otherOpen
  rw [isOpen] at otherOpen
  cases otherOpen
  exact inStep

/-- Reading takes a whole packet or nothing. -/
theorem inStep_readCommand {stream : Stream} (inStep : InStep stream.socket) :
    InStep (Stateful.endState (ProtocolBuffer.readCommand stream)).socket := by
  rcases inStep with ⟨healthy, sent, fits, incoming⟩
  have held : stream.Holds stream.buf (sent.flatMap fun command => packet command.1 command.2)
      stream.socket.sent := ⟨rfl, incoming, rfl, healthy⟩
  cases content : stream.buf with
  | cons byte buf =>
      have nonempty : stream.buf ≠ [] := by simp [content]
      rw [ProtocolBuffer.readCommand_of_nonempty nonempty]
      exact ⟨healthy, sent, fits, incoming⟩
  | nil =>
      rw [content] at held
      cases sent with
      | nil =>
          rcases ProtocolBuffer.readCommand_eof held with ⟨after, ends, heldAfter⟩
          rw [ends]
          exact ⟨heldAfter.healthy, [], by simp, heldAfter.incoming_eq⟩
      | cons command sent =>
          have commandFits := fits command (List.mem_cons_self ..)
          rcases ProtocolBuffer.readCommand_packet held with ⟨after, ends, heldAfter⟩
          rw [Nat.mod_eq_of_lt commandFits, List.drop_length, List.nil_append] at heldAfter
          rw [ends]
          exact ⟨heldAfter.healthy, sent, fun later mem => fits later (List.mem_cons_of_mem _ mem),
            heldAfter.incoming_eq⟩

theorem inStep_writeCommand {stream : Stream} (inStep : InStep stream.socket) (seq : UInt8) :
    InStep (Stateful.endState (ProtocolBuffer.writeCommand seq stream)).socket := by
  have held : stream.Holds stream.buf stream.socket.incoming stream.socket.sent :=
    ⟨rfl, rfl, rfl, inStep.1⟩
  rcases ProtocolBuffer.writeCommand_ok held seq with ⟨after, ends, heldAfter⟩
  rw [ends]
  have framed : Framed after.socket.incoming := by
    rw [heldAfter.incoming_eq]
    exact inStep.2
  exact ⟨heldAfter.healthy, framed⟩

theorem aligned_persistent : Persistent fun before after => before.Aligned → after.Aligned where
  sameFd := by
    intro before after same aligned connection isOpen
    exact aligned connection (same.trans isOpen)
  trans := by
    intro first second third earlier later aligned
    exact later (earlier aligned)
  reading := by
    apply Stateful.Respects.of_endState
    intro session aligned
    cases isOpen : session.client.fd with
    | none =>
        rw [readCommand_of_closed isOpen]
        exact aligned
    | some connection =>
        have inStep : InStep (Stateful.endState
            (ProtocolBuffer.readCommand ⟨session.buf, connection.socket⟩)).socket :=
          inStep_readCommand (aligned connection isOpen)
        rcases readCommand_cases isOpen with ⟨stop, after, read, ends⟩ |
          ⟨seq, after, read, _, ends⟩ | ⟨after, read, ends⟩
        · rw [read] at inStep
          rw [ends]
          exact aligned_of_open rfl inStep
        · rw [read] at inStep
          rw [ends]
          exact aligned_of_open rfl inStep
        · rw [read] at inStep
          rw [ends]
          exact aligned_of_open rfl inStep
  writing := by
    apply Stateful.Respects.of_endState
    intro session aligned
    cases isOpen : session.client.fd with
    | none =>
        intro connection stillOpen
        rw [writeCommand_of_closed isOpen] at stillOpen
        cases stillOpen
    | some connection =>
        have inStep : InStep (Stateful.endState (ProtocolBuffer.writeCommand session.client.nextSeq
            ⟨session.buf, connection.socket⟩)).socket :=
          inStep_writeCommand (aligned connection isOpen) _
        rw [endState_writeCommand isOpen]
        exact aligned_of_open rfl inStep

theorem readCommand_accepts {after : Session} (isOpen : session.client.fd = some connection)
    (read : readCommand session = .ok () after) :
    ∃ later, after.client.fd = some later ∧
      later.accepted = connection.accepted ++ [connection.socket.incoming.length] := by
  rcases readCommand_cases isOpen with ⟨stop, stream, _, ends⟩ | ⟨seq, stream, _, _, ends⟩ |
    ⟨stream, _, ends⟩
  · rw [read] at ends
    cases ends
  · rw [read] at ends
    cases ends
  · rw [read] at ends
    cases ends
    refine ⟨_, rfl, ?_⟩
    rw [unread_of_open isOpen]

/-- The first packet is accepted if it has the number 1. -/
theorem perform_accepts (lib : Library) (request : Request) {payload rest : Bytes}
    (isOpen : client.fd = some connection) (healthy : connection.socket.Healthy)
    (incoming : connection.socket.incoming = packet 1 payload ++ rest)
    (fits : payload.length < 2 ^ 24) :
    ∃ later new, (Stateful.endState (request.perform lib client)).fd = some later ∧
      later.accepted =
        connection.accepted ++ (connection.socket.incoming.length :: new) := by
  rcases perform_endsAfter lib request isOpen with ⟨command, argument, ends⟩
  have receives : client.Receives (packet 1 payload ++ rest) :=
    ⟨connection, isOpen, incoming, healthy⟩
  rcases endState_sendCommand isOpen command argument with ⟨socket, sentClient, unread⟩
  rcases sendCommand_ok receives command argument with ⟨sent, sending, heldSent⟩
  rw [sending] at ends sentClient
  rcases ends with ⟨Result, reading, session, ⟨next, starts, keeps⟩, sameClient, buffer, final⟩
  have held : session.Holds 1 [] (packet 1 payload ++ rest) := by
    rcases heldSent with ⟨⟨sentConnection, sentOpen, sentHeld⟩, number⟩
    refine ⟨⟨sentConnection, by rw [sameClient, sentOpen], ?_⟩, by rw [sameClient, number]⟩
    rw [buffer sentHeld.buf_eq]
    exact ⟨rfl, sentHeld.incoming_eq, rfl, sentHeld.healthy⟩
  have sessionOpen : session.client.fd = some { connection with socket := socket } :=
    congrArg Client.fd (sameClient.trans sentClient)
  rcases readCommand_ok held fits with ⟨after, read, _⟩
  rcases readCommand_accepts sessionOpen read with ⟨later, laterOpen, accepted⟩
  have continues := (keeps ()).endState after
  rcases continues.of_open laterOpen with ⟨last, lastOpen, connectionContinues⟩
  rcases connectionContinues.accepted with ⟨new, record, _⟩
  refine ⟨last, new, ?_, ?_⟩
  · rw [final, starts, Stateful.bind_of_ok read]
    exact lastOpen
  · rw [record, accepted, unread, List.append_assoc]
    rfl

theorem getElem_packet (seq : UInt8) (payload rest : Bytes) :
    (packet seq payload ++ rest)[3]? = some seq := by
  simp [packet, leBytes]

theorem unmistakable_of_acceptsOwn {exchange : Exchange} (aligned : client.Aligned)
    (acceptsOwn : client.AcceptsOwn lib exchange) : client.Unmistakable exchange := by
  cases isOpen : client.fd with
  | none => exact .inl (by rw [pending, isOpen])
  | some connection =>
      have pendingEq : client.pending = connection.socket.incoming := by rw [pending, isOpen]
      rcases aligned connection isOpen with ⟨healthy, sent, fits, incoming⟩
      cases sent with
      | nil => exact .inl (pendingEq.trans incoming)
      | cons command others =>
          refine .inr ?_
          intro expected
          rw [pendingEq, incoming, List.flatMap_cons, List.append_assoc, getElem_packet] at expected
          have number : command.1 = 1 := Option.some.inj expected
          have first : (connection.receive exchange.bytes).socket.incoming = packet 1 command.2 ++
              ((others.flatMap fun command => packet command.1 command.2) ++ exchange.bytes) := by
            simp only [Connection.receive, incoming, List.flatMap_cons, number, List.append_assoc]
          rcases perform_accepts lib exchange.request (receive_of_open isOpen exchange.bytes)
            healthy
            first (fits command (List.mem_cons_self ..)) with ⟨later, new, finalOpen, record⟩
          have own := acceptsOwn (connection.receive exchange.bytes).socket.incoming.length (by
            rw [exchanged, accepted_drop isOpen finalOpen record]
            exact List.mem_cons_self ..)
          rw [first] at own
          simp only [packet, List.length_append, List.length_cons] at own
          omega

theorem aligned_receive (aligned : client.Aligned) {bytes : Bytes} (framed : Framed bytes) :
    (client.receive bytes).Aligned := by
  intro connection isOpen
  simp only [receive, Option.map_eq_some_iff] at isOpen
  rcases isOpen with ⟨before, beforeOpen, rfl⟩
  rcases aligned before beforeOpen with ⟨healthy, framedBefore⟩
  exact ⟨healthy, framedBefore.append framed⟩

theorem aligned_of_exchangeStep {exchange : Exchange} {after : Client} (aligned : client.Aligned)
    (stepped : exchangeStep lib client exchange = some after) : after.Aligned := by
  have received := aligned_receive aligned (framed_packets 1 exchange.fits)
  have kept := (aligned_persistent.traffic.perform lib exchange.request).endState _ received
  have final : Stateful.endState (client.exchanged lib exchange) = after := by
    simp only [exchangeStep] at stepped
    cases ends : client.exchanged lib exchange with
    | ok _ last =>
        rw [ends] at stepped
        exact Option.some.inj stepped
    | error stop last =>
        rw [ends] at stepped
        cases stop with
        | outOfFuel => cases stepped
        | raised exception => exact Option.some.inj stepped
        | undefined operation => exact Option.some.inj stepped
  rw [← final]
  exact kept

/-- Along every run of requests on a client, no call accepts a packet of an earlier response if at
the start of each call nothing is left of earlier responses or the packet that is next does not
have the number 1.  Where the socket does not fail and whole packets are left at the start of the
run, this condition is also necessary. -/
theorem acceptsOwn_along (lib : Library) (client : Client) (exchanges : List Exchange) :
    (Transition.Along (exchangeStep lib) Unmistakable client exchanges →
      Transition.Along (exchangeStep lib) (AcceptsOwn lib) client exchanges) ∧
    (client.Aligned → Transition.Along (exchangeStep lib) (AcceptsOwn lib) client exchanges →
      Transition.Along (exchangeStep lib) Unmistakable client exchanges) := by
  constructor
  · intro along before exchange after state split reached
    exact acceptsOwn_of_unmistakable lib (along before exchange after state split reached)
  · intro aligned along
    have throughout : Transition.Throughout (exchangeStep lib) Aligned client exchanges := by
      apply Transition.throughout_of_preserved _ aligned
      intro state exchange next stateAligned stepped
      exact aligned_of_exchangeStep stateAligned stepped
    intro before exchange after state split reached
    exact unmistakable_of_acceptsOwn (throughout before (exchange :: after) state split reached)
      (along before exchange after state split reached)

section Samples

/-- A client with a connection on which nothing is left to be read. -/
def connectedClient : Client :=
  { Client.create [] [] with fd := some (.opened (.bytewise [])) }

theorem aligned_connectedClient : connectedClient.Aligned :=
  aligned_of_open rfl ⟨Socket.healthy_bytewise [], [], by simp, rfl⟩

/-- A call to `change_db` that the server answers with OK. -/
def useDb : Exchange where
  request := .changeDb [0x64]
  response := [[0, 0, 0, 2, 0, 0, 0]]
  fits := by decide

theorem acceptsOwn_useDb_twice :
    Transition.Along (exchangeStep unusedLibrary) (AcceptsOwn unusedLibrary) connectedClient
      [useDb, useDb] := by
  refine (acceptsOwn_along unusedLibrary connectedClient [useDb, useDb]).1 ?_
  refine Transition.along_cons (.inl rfl) ?_
  intro next stepped
  cases stepped
  refine Transition.along_cons (.inl rfl) ?_
  intro last _
  exact Transition.along_nil Unmistakable last

/-- A query for a value of type JSON, which raises at the row. -/
def selectJson : Exchange where
  request := .query 3 (ascii "SELECT j FROM t") false
  response :=
    [[1],
      [0, 0, 0, 0, 1, 0x6A, 0, 0x0C, 0x3F, 0, 0xFF, 0xFF, 0xFF, 0xFF, 0xF5, 0, 0, 0, 0, 0],
      [2, 0x7B, 0x7D],
      [0xFE, 0, 0, 2, 0, 0, 0]]
  fits := by decide

/-- The terminator of the query makes the next call raise, whose own response is then taken for
the response of the call after it. -/
theorem not_acceptsOwn_selectJson :
    ¬Transition.Along (exchangeStep unusedLibrary) (AcceptsOwn unusedLibrary) connectedClient
      [selectJson, useDb, useDb] := by
  intro along
  have evaluated : (Transition.run (exchangeStep unusedLibrary) connectedClient
      [selectJson, useDb]).map pending = some useDb.bytes := by decide +kernel
  rcases Option.map_eq_some_iff.mp evaluated with ⟨state, reached, leftBehind⟩
  have aligned : Transition.Throughout (exchangeStep unusedLibrary) Aligned connectedClient
      [selectJson, useDb, useDb] := by
    apply Transition.throughout_of_preserved _ aligned_connectedClient
    intro state exchange next stateAligned stepped
    exact aligned_of_exchangeStep stateAligned stepped
  have unmistakable := unmistakable_of_acceptsOwn
    (aligned [selectJson, useDb] [useDb] state rfl reached)
    (along [selectJson, useDb] useDb [] state rfl reached)
  rw [Unmistakable, leftBehind] at unmistakable
  rcases unmistakable with nothing | other
  · cases nothing
  · exact other rfl

end Samples

end Client

end EventAsync.MySQL
