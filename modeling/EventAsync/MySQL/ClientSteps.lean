import EventAsync.BufferProgress
import EventAsync.MySQL.Client

/-!
# What the calls of a client can do to its connection

All traffic of a client goes through `read_command` and `write_command`.  A
relation between clients that depends only on the connection and that these two
respect is respected by every call, whatever the server sends and wherever the
call raises.
-/

namespace EventAsync.MySQL

open ByteCodec

namespace ProtocolBuffer

open Buffer

variable {stream after : Stream} {seq : UInt8}

theorem readCommand_advances :
    Stateful.Respects Stream.Advances (fun _ => True) readCommand := by
  have reflexive : ∀ stream : Stream, stream.Advances stream := fun _ => List.suffix_rfl
  have transitive : ∀ first second third : Stream, first.Advances second →
      second.Advances third → first.Advances third :=
    fun _ _ _ earlier later => later.trans earlier
  have onBuffer : ∀ {Result : Type} (action : BufferM Result),
      Stateful.Respects Stream.Advances (fun _ => True) (liftM action : StreamM Result) :=
    fun action => lift_respects (fun _ _ => List.suffix_rfl) action
  apply Stateful.Respects.bind transitive (onBuffer getLength)
  intro length
  apply Stateful.Respects.check reflexive trivial
  apply Stateful.Respects.bind transitive (readTo_advances 4)
  intro _
  apply Stateful.Respects.bind transitive (onBuffer removeU24l)
  intro commandLength
  apply Stateful.Respects.bind transitive (onBuffer removeU8)
  intro commandSeq
  exact .bind transitive (readTo_advances commandLength) fun _ => .pure reflexive commandSeq

/-- A command is read into an empty buffer; its number is in the fourth byte of the packet. -/
theorem readCommand_returned (returned : readCommand stream = .ok seq after) :
    stream.buf = [] ∧ stream.socket.incoming[3]? = some seq := by
  rcases Stateful.bind_eq_ok_iff.mp returned with ⟨length, middle, counted, rest⟩
  cases counted
  split at rest
  · cases rest
  · rename_i empty
    have noBytes : stream.buf = [] := List.length_eq_zero_iff.mp (not_not.mp empty)
    refine ⟨noBytes, ?_⟩
    rcases Stateful.bind_eq_ok_iff.mp rest with ⟨_, header, readHeader, rest⟩
    have notYet : ¬4 ≤ stream.buf.length := by simp [noBytes]
    simp only [readTo] at readHeader
    rw [if_neg notYet, noBytes] at readHeader
    rcases read_returned readHeader with ⟨available, buf, _⟩
    simp only [List.length_nil, Nat.sub_zero, List.nil_append] at available buf
    generalize stream.socket.incoming = incoming at available buf
    rcases incoming with _ | ⟨first, _ | ⟨second, _ | ⟨third, _ | ⟨number, others⟩⟩⟩⟩
    · simp at available
    · simp at available
    · simp at available
    · simp at available
    · have length : (liftM removeU24l : StreamM ℕ) header =
          .ok (leNat [first, second, third]) { header with buf := [number] } := by
        apply Stateful.zoom_of_ok
        rw [buf]
        rfl
      have sequence : (liftM removeU8 : StreamM UInt8) { header with buf := [number] } =
          .ok number { header with buf := [] } := by
        apply Stateful.zoom_of_ok
        rfl
      rw [Stateful.bind_of_ok length, Stateful.bind_of_ok sequence] at rest
      rcases Stateful.bind_eq_ok_iff.mp rest with ⟨_, last, _, ends⟩
      cases ends
      rfl

theorem writeCommand_incoming (seq : UInt8) :
    Stateful.Respects (fun before after : Stream =>
      after.socket.incoming = before.socket.incoming) (fun _ => True) (writeCommand seq) := by
  have transitive : ∀ first second third : Stream,
      second.socket.incoming = first.socket.incoming →
      third.socket.incoming = second.socket.incoming →
      third.socket.incoming = first.socket.incoming :=
      fun _ _ _ earlier later => later.trans earlier
  exact .bind transitive (lift_respects (fun _ _ => rfl) moveOut) fun payload =>
    writeSeparately_incoming _

end ProtocolBuffer

namespace Client

open Buffer ProtocolBuffer

variable {related : Client → Client → Prop} {Result Other : Type}

/-- Every execution of a coroutine relates the client before it to the client after it. -/
def Keeps (related : Client → Client → Prop) (action : SessionM Result) : Prop :=
  Stateful.Respects (fun before after => related before.client after.client) (fun _ => True)
    action

/-- A relation that depends on the connection only and that all traffic respects. -/
structure Persistent (related : Client → Client → Prop) : Prop where
  sameFd : ∀ before after : Client, before.fd = after.fd → related before after
  trans : ∀ first second third, related first second → related second third → related first third
  reading : Keeps related readCommand
  writing : Keeps related writeCommand

/-- A relation that all traffic of the calls respects. -/
structure Traffic (related : Client → Client → Prop) : Prop where
  refl : ∀ client, related client client
  trans : ∀ first second third, related first second → related second third → related first third
  resetting : Keeps related (liftM resetSeq)
  reading : Keeps related readCommand
  writing : Keeps related writeCommand

/-- A coroutine that starts by reading a packet. -/
def StartsReading (related : Client → Client → Prop) (action : SessionM Result) : Prop :=
  ∃ next : Unit → SessionM Result, action = readCommand >>= next ∧
    ∀ read, Keeps related (next read)

namespace Persistent

theorem onFields (persistent : Persistent related) {update : Client → Client}
    (keeps : ∀ client, (update client).fd = client.fd) :
    Keeps related (liftM (modify update : ClientM Unit) : SessionM Unit) := by
  intro session
  exact persistent.sameFd _ _ (keeps session.client).symm

theorem traffic (persistent : Persistent related) : Traffic related where
  refl := fun client => persistent.sameFd client client rfl
  trans := persistent.trans
  resetting := persistent.onFields fun _ => rfl
  reading := persistent.reading
  writing := persistent.writing

end Persistent

namespace Traffic

theorem pure (traffic : Traffic related) (result : Result) :
    Keeps related (Pure.pure result) :=
  Stateful.Respects.pure (fun session => traffic.refl session.client) result

theorem throw (traffic : Traffic related) (stop : Stop) :
    Keeps related (MonadExcept.throw stop : SessionM Result) :=
  Stateful.Respects.throw (fun session => traffic.refl session.client) trivial

theorem bind (traffic : Traffic related) {action : SessionM Result}
    {next : Result → SessionM Other} (first : Keeps related action)
    (second : ∀ result, Keeps related (next result)) : Keeps related (action >>= next) := by
  refine Stateful.Respects.bind ?_ first second
  intro before middle after earlier later
  exact traffic.trans _ _ _ earlier later

theorem check (traffic : Traffic related) {condition : Prop} [Decidable condition]
    {stop : Stop} {next : PUnit → SessionM Result} (passed : Keeps related (next ⟨⟩)) :
    Keeps related
      (if condition then (MonadExcept.throw stop : SessionM PUnit) >>= next else next ⟨⟩) := by
  apply Stateful.Respects.check
  · exact fun session => traffic.refl session.client
  · trivial
  · exact passed

theorem onBuffer (traffic : Traffic related) (action : BufferM Result) :
    Keeps related (liftM action : SessionM Result) := by
  apply Stateful.Respects.zoom
  intro buf session
  exact traffic.refl session.client

theorem sendCommand (traffic : Traffic related) (command : UInt8) (argument : Bytes) :
    Keeps related (Client.sendCommand command argument) := by
  refine traffic.bind traffic.resetting ?_
  intro _
  apply traffic.bind (traffic.onBuffer _)
  intro _
  exact traffic.bind (traffic.onBuffer _) fun _ => traffic.writing

theorem of_startsReading (traffic : Traffic related) {action : SessionM Result}
    (starts : StartsReading related action) : Keeps related action := by
  rcases starts with ⟨next, rfl, keeps⟩
  exact traffic.bind traffic.reading keeps

theorem startsReading_expectOk (traffic : Traffic related) :
    StartsReading related Client.expectOk := by
  refine ⟨_, rfl, fun _ => ?_⟩
  apply traffic.bind (traffic.onBuffer _)
  intro responseCommand
  split
  · exact traffic.pure ()
  · split
    · exact traffic.onBuffer _
    · exact traffic.throw _

theorem readColumns (traffic : Traffic related) (columnCount fuel : ℕ)
    (columns : List ColumnDefinition) :
    Keeps related (Client.readColumns columnCount fuel columns) := by
  induction fuel generalizing columns with
  | zero => exact traffic.throw _
  | succ fuel ih =>
      unfold Client.readColumns
      split
      · exact traffic.pure columns
      · apply traffic.bind traffic.reading
        intro _
        exact traffic.bind (traffic.onBuffer _) fun definition => ih _

theorem readRows (traffic : Traffic related) (lib : Library)
    (columns : List ColumnDefinition) (fuel : ℕ) (rows : Rows) :
    Keeps related (Client.readRows lib columns fuel rows) := by
  induction fuel generalizing rows with
  | zero => exact traffic.throw _
  | succ fuel ih =>
      apply traffic.bind traffic.reading
      intro _
      apply traffic.bind (traffic.onBuffer _)
      intro first
      split
      · exact traffic.onBuffer _
      · exact traffic.bind (traffic.onBuffer _) fun more => ih more

/-- An iteration of the loop over the results, given what the rest of the loop keeps. -/
theorem startsReading_readResults_succ (traffic : Traffic related) (lib : Library)
    (rowsAsDicts : Bool) (fuel : ℕ) (ret : List ResultSet)
    (again : ∀ ret, Keeps related (Client.readResults lib rowsAsDicts fuel ret)) :
    StartsReading related (Client.readResults lib rowsAsDicts (fuel + 1) ret) := by
  refine ⟨_, rfl, fun _ => ?_⟩
  apply traffic.bind (traffic.onBuffer _)
  intro responseCommand
  split
  · apply traffic.bind (traffic.onBuffer _)
    intro res
    split
    · exact again _
    · exact traffic.pure _
  · split
    · exact traffic.onBuffer _
    · split
      · exact traffic.throw _
      · apply traffic.bind (traffic.onBuffer _)
        intro columnCount
        apply traffic.bind (traffic.readColumns _ _ _)
        intro columns
        apply traffic.bind (traffic.readRows _ _ _ _)
        intro res
        split
        · exact traffic.bind (traffic.onBuffer _) fun _ => again _
        · exact traffic.pure _

theorem readResults (traffic : Traffic related) (lib : Library) (rowsAsDicts : Bool)
    (fuel : ℕ) (ret : List ResultSet) :
    Keeps related (Client.readResults lib rowsAsDicts fuel ret) := by
  induction fuel generalizing ret with
  | zero => exact traffic.throw _
  | succ fuel ih =>
      exact traffic.of_startsReading
        (traffic.startsReading_readResults_succ lib rowsAsDicts fuel ret ih)

theorem withBuffer {action : SessionM Result} (keeps : Keeps related action) :
    Stateful.Respects related (fun _ => True) (Client.withBuffer action) := by
  intro client
  have holds := keeps ⟨client, []⟩
  simp only [Client.withBuffer, Stateful.zoom]
  cases ends : action ⟨client, []⟩ with
  | ok result after =>
      rw [ends] at holds
      exact holds
  | error stop after =>
      rw [ends] at holds
      exact holds

theorem assertConnOpen (traffic : Traffic related) :
    Stateful.Respects related (fun _ => True) Client.assertConnOpen := by
  apply Stateful.Respects.bind traffic.trans (fun client => traffic.refl client)
  intro client
  split
  · exact .throw traffic.refl trivial
  · exact .pure traffic.refl _

theorem changeDb (traffic : Traffic related) (dbName : Bytes) :
    Stateful.Respects related (fun _ => True) (Client.changeDb dbName) := by
  apply Stateful.Respects.bind traffic.trans traffic.assertConnOpen
  intro _
  exact .bind traffic.trans (withBuffer (traffic.sendCommand _ _)) fun _ =>
    withBuffer (traffic.of_startsReading traffic.startsReading_expectOk)

theorem queryMulti (traffic : Traffic related) (lib : Library) (fuel : ℕ) (sql : Bytes)
    (rowsAsDicts : Bool) :
    Stateful.Respects related (fun _ => True) (Client.queryMulti lib fuel sql rowsAsDicts) := by
  apply Stateful.Respects.bind traffic.trans traffic.assertConnOpen
  intro _
  apply withBuffer
  exact traffic.bind (traffic.sendCommand _ _) fun _ => traffic.readResults _ _ _ _

theorem query (traffic : Traffic related) (lib : Library) (fuel : ℕ) (sql : Bytes)
    (rowsAsDicts : Bool) :
    Stateful.Respects related (fun _ => True) (Client.query lib fuel sql rowsAsDicts) := by
  apply Stateful.Respects.bind traffic.trans (traffic.queryMulti lib fuel sql rowsAsDicts)
  intro ret
  split
  · exact .pure traffic.refl _
  · exact .throw traffic.refl trivial

end Traffic

/-- The calls that send a command and read the response; a query comes with a bound on the
packets of each loop over them. -/
inductive Request where
  | query (fuel : ℕ) (sql : Bytes) (rowsAsDicts : Bool)
  | queryMulti (fuel : ℕ) (sql : Bytes) (rowsAsDicts : Bool)
  | changeDb (dbName : Bytes)

def Request.perform (lib : Library) : Request → ClientM Unit
  | query fuel sql rowsAsDicts => do
      let _ ← Client.query lib (fuel + 1) sql rowsAsDicts
  | queryMulti fuel sql rowsAsDicts => do
      let _ ← Client.queryMulti lib (fuel + 1) sql rowsAsDicts
  | changeDb dbName => Client.changeDb dbName

/-- A library for runs in which no library function is called. -/
def unusedLibrary : Library where
  sha256 := fun _ => List.replicate 32 0
  stof := fun _ => .error (.invalidArgument "stof")
  stod := fun _ => .error (.invalidArgument "stod")

theorem Traffic.perform (traffic : Traffic related) (lib : Library) (request : Request) :
    Stateful.Respects related (fun _ => True) (request.perform lib) := by
  cases request with
  | query fuel sql rowsAsDicts =>
      exact .bind traffic.trans (traffic.query lib (fuel + 1) sql rowsAsDicts) fun _ =>
        .pure traffic.refl ()
  | queryMulti fuel sql rowsAsDicts =>
      exact .bind traffic.trans (traffic.queryMulti lib (fuel + 1) sql rowsAsDicts) fun _ =>
        .pure traffic.refl ()
  | changeDb dbName => exact traffic.changeDb dbName

end Client

/-- What holds of a connection throughout a call: the bytes that are read are at the front of
those that the server has sent, and the packets that are accepted start within them. -/
structure Connection.Continues (before after : Connection) : Prop where
  authenticated : after.authenticated = before.authenticated
  unread : after.socket.incoming <:+ before.socket.incoming
  accepted : ∃ new, after.accepted = before.accepted ++ new ∧
    ∀ unread ∈ new, unread ≤ before.socket.incoming.length

namespace Connection.Continues

variable {first second third : Connection}

theorem refl (connection : Connection) : connection.Continues connection :=
  ⟨rfl, List.suffix_rfl, [], (List.append_nil _).symm, by simp⟩

theorem trans (earlier : first.Continues second) (later : second.Continues third) :
    first.Continues third := by
  rcases earlier.accepted with ⟨acceptedFirst, firstEq, firstBound⟩
  rcases later.accepted with ⟨acceptedThen, thenEq, thenBound⟩
  refine ⟨later.authenticated.trans earlier.authenticated, later.unread.trans earlier.unread,
    acceptedFirst ++ acceptedThen, ?_, ?_⟩
  · rw [thenEq, firstEq, List.append_assoc]
  · intro unread mem
    rcases List.mem_append.mp mem with memFirst | memThen
    · exact firstBound unread memFirst
    · exact (thenBound unread memThen).trans earlier.unread.length_le

end Connection.Continues

namespace Client

variable {session : Session} {connection : Connection}

/-- The connection continues, or there is none. -/
def Continues (before after : Client) : Prop :=
  Option.Rel Connection.Continues before.fd after.fd

theorem Continues.isSome_eq {before after : Client} (continues : before.Continues after) :
    after.fd.isSome = before.fd.isSome := by
  simp only [Continues] at continues
  generalize before.fd = beforeFd, after.fd = afterFd at continues ⊢
  cases continues with
  | none => rfl
  | some _ => rfl

/-- The connection of a client that continues one with a connection. -/
theorem Continues.of_open {before after : Client} (continues : before.Continues after)
    (isOpen : before.fd = some connection) :
    ∃ later, after.fd = some later ∧ connection.Continues later := by
  simp only [Continues, isOpen] at continues
  generalize after.fd = afterFd at continues ⊢
  cases continues with
  | some later => exact ⟨_, rfl, later⟩

theorem get_eq (session : Session) :
    (liftM (get : ClientM Client) : SessionM Client) session = .ok session.client session := rfl

theorem set_eq (session : Session) (client : Client) :
    (liftM (set client : ClientM PUnit) : SessionM PUnit) session =
      .ok ⟨⟩ { session with client := client } := rfl

theorem assertConnOpen_ok {client : Client} (isOpen : client.fd = some connection) :
    assertConnOpen client = .ok () client := by
  have state : (get : ClientM Client) client = .ok client client := rfl
  rw [assertConnOpen, Stateful.bind_of_ok state, if_neg (by simp [isOpen])]
  rfl

theorem readCommand_of_closed (closed : session.client.fd = none) :
    readCommand session =
      .error (.undefined "transfer on a closed file descriptor") session := by
  have read : transfer ProtocolBuffer.readCommand session =
      .error (.undefined "transfer on a closed file descriptor") session := by
    simp only [transfer, closed]
  rw [readCommand, Stateful.bind_of_ok (get_eq session), Stateful.bind_of_error read]

/-- A command that cannot be read, one with a wrong number, and one that is accepted. -/
theorem readCommand_cases (isOpen : session.client.fd = some connection) :
    (∃ stop after, ProtocolBuffer.readCommand ⟨session.buf, connection.socket⟩ =
        .error stop after ∧
      readCommand session =
        .error stop ⟨session.client.setSocket connection after.socket, after.buf⟩) ∨
    (∃ seq after, ProtocolBuffer.readCommand ⟨session.buf, connection.socket⟩ = .ok seq after ∧
      seq ≠ session.client.nextSeq ∧
      readCommand session = .error (.runtimeError "server sent out-of-sequence commands")
        ⟨session.client.setSocket connection after.socket, after.buf⟩) ∨
    ∃ after, ProtocolBuffer.readCommand ⟨session.buf, connection.socket⟩ =
        .ok session.client.nextSeq after ∧
      readCommand session = .ok ()
        ⟨(session.client.setSocket connection after.socket).accept session.client.unread,
          after.buf⟩ := by
  cases ends : ProtocolBuffer.readCommand ⟨session.buf, connection.socket⟩ with
  | error stop after =>
      have read : transfer ProtocolBuffer.readCommand session =
          .error stop ⟨session.client.setSocket connection after.socket, after.buf⟩ := by
        simp only [transfer, isOpen, ends]
      refine .inl ⟨stop, after, rfl, ?_⟩
      rw [readCommand, Stateful.bind_of_ok (get_eq session), Stateful.bind_of_error read]
  | ok seq after =>
      have read : transfer ProtocolBuffer.readCommand session =
          .ok seq ⟨session.client.setSocket connection after.socket, after.buf⟩ := by
        simp only [transfer, isOpen, ends]
      by_cases expected : seq = session.client.nextSeq
      · refine .inr (.inr ⟨after, by rw [expected], ?_⟩)
        rw [readCommand, Stateful.bind_of_ok (get_eq session), Stateful.bind_of_ok read]
        rw [if_neg (not_not.mpr expected)]
        rfl
      · refine .inr (.inl ⟨seq, after, rfl, expected, ?_⟩)
        rw [readCommand, Stateful.bind_of_ok (get_eq session), Stateful.bind_of_ok read,
          if_pos expected]
        rfl

theorem unread_of_open {client : Client} (isOpen : client.fd = some connection) :
    client.unread = connection.socket.incoming.length := by
  rw [unread, isOpen]

/-- Writing a command uses up a number and changes the socket. -/
theorem endState_writeCommand (isOpen : session.client.fd = some connection) :
    (Stateful.endState (writeCommand session)).client =
      { session.client with
        nextSeq := session.client.nextSeq + 1
        fd := some { connection with
          socket := (Stateful.endState (ProtocolBuffer.writeCommand session.client.nextSeq
            ⟨session.buf, connection.socket⟩)).socket } } := by
  rw [writeCommand, Stateful.bind_of_ok (get_eq session), Stateful.bind_of_ok (set_eq session _)]
  simp only [transfer, isOpen]
  cases ProtocolBuffer.writeCommand session.client.nextSeq ⟨session.buf, connection.socket⟩ with
  | ok _ after => rfl
  | error stop after => rfl

theorem writeCommand_of_closed (closed : session.client.fd = none) :
    (Stateful.endState (writeCommand session)).client.fd = none := by
  rw [writeCommand, Stateful.bind_of_ok (get_eq session), Stateful.bind_of_ok (set_eq session _)]
  simp only [transfer, closed]
  rfl

theorem continues_persistent : Persistent Continues where
  sameFd := by
    intro before after same
    rw [Continues, same]
    cases after.fd with
    | none => exact .none
    | some connection => exact .some (.refl connection)
  trans := by
    intro first second third earlier later
    simp only [Continues] at earlier later ⊢
    generalize first.fd = firstFd, second.fd = secondFd, third.fd = thirdFd at earlier later ⊢
    cases earlier with
    | none => exact later
    | some firstContinues =>
        cases later with
        | some thenContinues => exact .some (firstContinues.trans thenContinues)
  reading := by
    apply Stateful.Respects.of_endState
    intro session
    cases isOpen : session.client.fd with
    | none =>
        rw [readCommand_of_closed isOpen]
        simp only [Continues, Stateful.endState, isOpen]
        exact .none
    | some connection =>
        have advances := ProtocolBuffer.readCommand_advances.endState
          ⟨session.buf, connection.socket⟩
        simp only [Continues, isOpen]
        rcases readCommand_cases isOpen with ⟨stop, after, read, ends⟩ |
          ⟨seq, after, read, _, ends⟩ | ⟨after, read, ends⟩
        · rw [read] at advances
          rw [ends]
          exact .some ⟨rfl, advances, [], (List.append_nil _).symm, by simp⟩
        · rw [read] at advances
          rw [ends]
          exact .some ⟨rfl, advances, [], (List.append_nil _).symm, by simp⟩
        · rw [read] at advances
          rw [ends]
          refine .some ⟨rfl, advances, [session.client.unread], rfl, ?_⟩
          simp [unread_of_open isOpen]
  writing := by
    apply Stateful.Respects.of_endState
    intro session
    cases isOpen : session.client.fd with
    | none =>
        have closed := writeCommand_of_closed isOpen
        simp only [Continues, isOpen, closed]
        exact .none
    | some connection =>
        have unread := (ProtocolBuffer.writeCommand_incoming session.client.nextSeq).endState
          ⟨session.buf, connection.socket⟩
        simp only [Continues, isOpen, endState_writeCommand isOpen]
        refine .some ⟨rfl, ?_, [], (List.append_nil _).symm, by simp⟩
        rw [unread]

end Client

end EventAsync.MySQL
