import EventAsync.BufferTransfers
import EventAsync.FdAwaiters
import EventAsync.Lib.Transition

/-!
# The echo server

The server accepts connections and handles each of them by a coroutine of its
own, which reads what has arrived, writes it back and starts again, until the
end of the stream.  All coroutines share one event loop, so the callbacks of
their events come in any order.  Whatever the order and however far each system
call goes, every connection gets back a beginning of what it has sent, and all
of it when it is closed.

A coroutine that ends with an exception terminates the process with all its
connections.
-/

namespace EventAsync

open ByteCodec

/-- Where the coroutine of a connection is suspended. -/
inductive EchoPhase where
  | reading
  | writing (awaiter : WriteAwaiter)
  | closed

/-- A connection with the buffer of its coroutine; `accepted` is the socket as it was accepted. -/
structure EchoConnection where
  accepted : Socket
  stream : Stream
  phase : EchoPhase

/-- `listening` if the coroutine that accepts connections has an event pending. -/
structure EchoServer where
  connections : List EchoConnection
  listening : Bool
  terminated : Bool

/-- A callback of the event loop. -/
inductive EchoEvent where
  | accept (result : SystemCall Socket)
  | ready (connection : ℕ)

def ReadAtMostAwaiter.create (limit : ℕ) : ReadAtMostAwaiter where
  limit := limit
  bytesRead := 0
  err := false

def ReadAtMostAwaiter.awaitResume (awaiter : ReadAtMostAwaiter) : Except Stop ℕ :=
  if awaiter.err then .error (.runtimeError "failed to read from fd") else .ok awaiter.bytesRead

namespace EchoConnection

/-- The connection when its coroutine has started. -/
def create (socket : Socket) : EchoConnection where
  accepted := socket
  stream := { buf := [], socket := socket }
  phase := .reading

/-- `handle_server_connection` from the callback of `read_atmost` on. -/
def onReadReady (connection : EchoConnection) : Except Stop EchoConnection := do
  let (result, stream) := connection.stream.evbufferRead (toInt32 0x400)
  let _ ← ((ReadAtMostAwaiter.create 0x400).onReadReady result).2.awaitResume
  if stream.buf.length = 0 then
    return { connection with stream := stream, phase := .closed }
  else
    return { connection with stream := stream, phase := .writing (.create (-1)) }

/-- `handle_server_connection` from the callback of `write` on. -/
def onWriteReady (connection : EchoConnection) (awaiter : WriteAwaiter) :
    Except Stop EchoConnection := do
  let (actions, awaiter, stream) := WriteAwaiter.onWriteReady (awaiter, connection.stream)
  if .resume ∈ actions then
    awaiter.awaitResume
    return { connection with stream := { stream with buf := [] }, phase := .reading }
  else
    return { connection with stream := stream, phase := .writing awaiter }

/-- What the callback of a connection does, if its event is pending. -/
def onReady (connection : EchoConnection) : Option (Except Stop EchoConnection) :=
  match connection.phase with
  | .reading => some connection.onReadReady
  | .writing awaiter => some (connection.onWriteReady awaiter)
  | .closed => none

end EchoConnection

namespace EchoServer

def start : EchoServer where
  connections := []
  listening := true
  terminated := false

/-- `run_server` from the callback of `accept` on. -/
def onAcceptReady (server : EchoServer) : SystemCall Socket → EchoServer
  | .wouldBlock => server
  | .failed => { server with listening := false }
  | .returned socket =>
      { server with connections := server.connections ++ [.create socket] }

/-- A step of the event loop. -/
def step (server : EchoServer) (event : EchoEvent) : Option EchoServer :=
  if server.terminated then none
  else
    match event with
    | .accept result => if server.listening then some (server.onAcceptReady result) else none
    | .ready index =>
        server.connections[index]?.bind fun connection =>
          connection.onReady.map fun
            | .ok next => { server with connections := server.connections.set index next }
            | .error _ => { server with terminated := true }

end EchoServer

namespace EchoConnection

/-- What is in the buffer while the coroutine is suspended. -/
def Suspended (buf incoming : Bytes) : EchoPhase → Prop
  | .reading => buf = []
  | .writing awaiter => buf ≠ [] ∧ awaiter.err = false ∧
      (awaiter.limit < 0 ∧ awaiter.bytesWritten = 0 ∨
        awaiter.limit = awaiter.bytesWritten + buf.length)
  | .closed => buf = [] ∧ incoming = []

/-- No byte of the client has been lost, duplicated or moved. -/
structure Echoes (connection : EchoConnection) : Prop where
  conserved : connection.stream.socket.sent ++
      (connection.stream.buf ++ connection.stream.socket.incoming) =
    connection.accepted.sent ++ connection.accepted.incoming
  grows : connection.accepted.sent <+: connection.stream.socket.sent
  bounded : connection.stream.buf.length ≤ 0x400
  reads_eq : connection.stream.socket.reads = connection.accepted.reads
  writes_eq : connection.stream.socket.writes = connection.accepted.writes
  suspended : Suspended connection.stream.buf connection.stream.socket.incoming connection.phase

/-- A bound on the callbacks that the connection still has. -/
def work (connection : EchoConnection) : ℕ :=
  2 * connection.stream.socket.incoming.length + connection.stream.buf.length +
    match connection.phase with
    | .closed => 0
    | _ => 1

/-- What a callback of the connection makes of it. -/
structure Advances (before after : EchoConnection) : Prop where
  accepted_eq : after.accepted = before.accepted
  echoes : after.Echoes
  less : after.work < before.work

theorem echoes_create (socket : Socket) : (create socket).Echoes where
  conserved := rfl
  grows := List.prefix_refl _
  bounded := Nat.zero_le _
  reads_eq := rfl
  writes_eq := rfl
  suspended := rfl

theorem onReadReady_failed {connection : EchoConnection}
    (failed : connection.stream.socket.reads connection.stream.socket.readCalls = .failed) :
    connection.onReadReady = .error (.runtimeError "failed to read from fd") := by
  simp only [onReadReady, Stream.evbufferRead, failed]
  rfl

/-- The connection after its coroutine has read some bytes. -/
def afterRead (connection : EchoConnection) (count : ℕ) : EchoConnection :=
  { connection with
    stream :=
      { buf := connection.stream.buf ++ connection.stream.socket.incoming.take count
        socket :=
          { connection.stream.socket with
            readCalls := connection.stream.socket.readCalls + 1
            incoming := connection.stream.socket.incoming.drop count } }
    phase := if (connection.stream.buf ++ connection.stream.socket.incoming.take count).length = 0
      then .closed else .writing (.create (-1)) }

theorem onReadReady_ready {connection : EchoConnection} {atMost : ℕ+}
    (isReady : connection.stream.socket.reads connection.stream.socket.readCalls = .ready atMost) :
    connection.onReadReady = .ok (connection.afterRead
      (min atMost (min 0x400 connection.stream.socket.incoming.length))) := by
  have limit : toInt32 0x400 = 0x400 := by decide
  have nonnegative : ¬(0x400 : ℤ) < 0 := by decide
  simp only [onReadReady, Stream.evbufferRead, isReady, limit, nonnegative, if_false, afterRead,
    Int.reduceToNat, bind, Except.bind, ReadAtMostAwaiter.onReadReady,
    ReadAtMostAwaiter.awaitResume, Bool.false_eq_true]
  split
  · rfl
  · rfl

theorem onReadReady_advances {connection : EchoConnection} (echoes : connection.Echoes)
    (reading : connection.phase = .reading) {atMost : ℕ+}
    (isReady : connection.stream.socket.reads connection.stream.socket.readCalls = .ready atMost) :
    ∃ next, connection.onReadReady = .ok next ∧ connection.Advances next := by
  have empty : connection.stream.buf = [] := by
    have suspended := echoes.suspended
    rwa [reading] at suspended
  have conserved := echoes.conserved
  rw [empty, List.nil_append] at conserved
  refine ⟨_, onReadReady_ready isReady, ?_⟩
  have positive := atMost.pos
  generalize counted : min (atMost : ℕ) (min 0x400 connection.stream.socket.incoming.length) = count
  have fits : count ≤ connection.stream.socket.incoming.length := by omega
  have taken : (connection.stream.socket.incoming.take count).length = count :=
    List.length_take_of_le fits
  refine ⟨rfl, ⟨?_, echoes.grows, ?_, echoes.reads_eq, echoes.writes_eq, ?_⟩, ?_⟩
  · simpa [afterRead, empty] using conserved
  · simp only [afterRead, empty, List.nil_append, taken]
    omega
  · simp only [afterRead, empty, List.nil_append, taken]
    by_cases ended : count = 0
    · have exhausted : connection.stream.socket.incoming = [] := by
        apply List.length_eq_zero_iff.mp
        omega
      simp [ended, exhausted, Suspended]
    · have nonempty : connection.stream.socket.incoming.take count ≠ [] := by
        intro nothing
        rw [nothing] at taken
        exact ended taken.symm
      simp [ended, nonempty, Suspended, WriteAwaiter.create]
  · simp only [work, afterRead, empty, List.nil_append, taken, reading, List.length_drop,
      List.length_nil]
    by_cases ended : count = 0
    · simp [ended]
    · simp only [ended, if_false]
      omega

/-- The connection after its coroutine has written some bytes. -/
def written (connection : EchoConnection) (count : ℕ) : Stream where
  buf := connection.stream.buf.drop count
  socket :=
    { connection.stream.socket with
      writeCalls := connection.stream.socket.writeCalls + 1
      sent := connection.stream.socket.sent ++ connection.stream.buf.take count }

/-- The write goes on with all that is left in the buffer. -/
theorem onWriteReady_eq {connection : EchoConnection} {awaiter : WriteAwaiter}
    (echoes : connection.Echoes) (writing : connection.phase = .writing awaiter) :
    connection.onWriteReady awaiter =
      match connection.stream.socket.writes connection.stream.socket.writeCalls with
      | .failed => .error (.runtimeError "failed to write to fd")
      | .ready atMost =>
          if connection.stream.buf.length ≤ atMost then
            .ok { connection with
              stream := { connection.written connection.stream.buf.length with buf := [] }
              phase := .reading }
          else
            .ok { connection with
              stream := connection.written atMost
              phase := .writing
                { limit := awaiter.bytesWritten + connection.stream.buf.length
                  bytesWritten := awaiter.bytesWritten + atMost
                  err := false } } := by
  have suspended := echoes.suspended
  rw [writing] at suspended
  rcases suspended with ⟨nonempty, noError, limit⟩
  have positive := List.length_pos_iff.mpr nonempty
  have limited : awaiter.limited connection.stream.buf.length =
      { limit := awaiter.bytesWritten + connection.stream.buf.length
        bytesWritten := awaiter.bytesWritten, err := false } := by
    rw [WriteAwaiter.limited]
    rcases limit with ⟨negative, nothing⟩ | whole
    · rw [if_pos negative, nothing, noError]
      simp
    · have nonnegative : ¬awaiter.limit < 0 := by omega
      rw [if_neg nonnegative, ← whole, ← noError]
  have bound : (if ((awaiter.bytesWritten : ℤ) + connection.stream.buf.length) < 0 ∨
      (connection.stream.buf.length : ℤ) < awaiter.bytesWritten + connection.stream.buf.length
      then connection.stream.buf.length
      else ((awaiter.bytesWritten : ℤ) + connection.stream.buf.length).toNat) =
        connection.stream.buf.length := by
    split <;> omega
  have someBytes : connection.stream.buf.length ≠ 0 := by omega
  simp only [onWriteReady, WriteAwaiter.onWriteReady_eq, WriteAwaiter.onWriteResult, limited,
    Stream.evbufferWriteAtmost, bound, someBytes, if_false]
  cases isReady : connection.stream.socket.writes connection.stream.socket.writeCalls with
  | failed => rfl
  | ready atMost =>
      by_cases all : connection.stream.buf.length ≤ atMost
      · simp [all, written, WriteAwaiter.awaitResume]
      · have counted : min (atMost : ℕ) connection.stream.buf.length = atMost := by omega
        have unfinished : ((awaiter.bytesWritten + atMost : ℕ) : ℤ) ≠
            awaiter.bytesWritten + connection.stream.buf.length := by omega
        simp only [counted, unfinished, all, if_false, ne_eq, not_false_eq_true, if_true, written]
        rfl

theorem onWriteReady_advances {connection : EchoConnection} {awaiter : WriteAwaiter}
    (echoes : connection.Echoes) (writing : connection.phase = .writing awaiter) {atMost : ℕ+}
    (isReady : connection.stream.socket.writes connection.stream.socket.writeCalls =
      .ready atMost) :
    ∃ next, connection.onWriteReady awaiter = .ok next ∧ connection.Advances next := by
  have suspended := echoes.suspended
  rw [writing] at suspended
  have someBytes := List.length_pos_iff.mpr suspended.1
  have positive := atMost.pos
  have conserved := echoes.conserved
  have bounded := echoes.bounded
  rw [onWriteReady_eq echoes writing, isReady]
  by_cases all : connection.stream.buf.length ≤ atMost
  · simp only [all, if_true]
    refine ⟨_, rfl, rfl, ⟨?_, ?_, Nat.zero_le _, echoes.reads_eq, echoes.writes_eq, rfl⟩, ?_⟩
    · simpa [written] using conserved
    · exact echoes.grows.trans (List.prefix_append _ _)
    · simp only [work, written, writing, List.length_nil]
      omega
  · simp only [all, if_false]
    refine ⟨_, rfl, rfl, ⟨?_, ?_, ?_, echoes.reads_eq, echoes.writes_eq, ?_⟩, ?_⟩
    · rw [← conserved]
      simp only [written]
      rw [List.append_assoc, ← List.append_assoc (List.take _ _), List.take_append_drop]
    · exact echoes.grows.trans (List.prefix_append _ _)
    · simp only [written, List.length_drop]
      omega
    · refine ⟨?_, rfl, .inr ?_⟩
      · intro nothing
        have length := congrArg List.length nothing
        simp only [written, List.length_drop, List.length_nil] at length
        omega
      · simp only [written, List.length_drop]
        omega
    · simp only [work, written, writing, List.length_drop]
      omega

/-- A callback that does not raise advances its connection, and it raises only if its system call
fails. -/
theorem onReady_cases {connection : EchoConnection} (echoes : connection.Echoes) :
    (connection.phase = .closed ∧ connection.onReady = none) ∨
      (∃ next, connection.onReady = some (.ok next) ∧ connection.Advances next) ∨
      (¬connection.accepted.Healthy ∧ ∃ stop, connection.onReady = some (.error stop)) := by
  cases phase : connection.phase with
  | closed => exact .inl ⟨rfl, by simp only [onReady, phase]⟩
  | reading =>
      right
      simp only [onReady, phase, Option.some.injEq]
      cases isReady : connection.stream.socket.reads connection.stream.socket.readCalls with
      | ready atMost => exact .inl (onReadReady_advances echoes phase isReady)
      | failed =>
          refine .inr ⟨?_, _, onReadReady_failed isReady⟩
          intro healthy
          rw [echoes.reads_eq] at isReady
          exact (healthy _).1 isReady
  | writing awaiter =>
      right
      simp only [onReady, phase, Option.some.injEq]
      cases isReady : connection.stream.socket.writes connection.stream.socket.writeCalls with
      | ready atMost => exact .inl (onWriteReady_advances echoes phase isReady)
      | failed =>
          refine .inr ⟨?_, .runtimeError "failed to write to fd", ?_⟩
          · intro healthy
            rw [echoes.writes_eq] at isReady
            exact (healthy _).2 isReady
          · rw [onWriteReady_eq echoes phase, isReady]

theorem Echoes.echoed {connection : EchoConnection} (echoes : connection.Echoes) :
    ∃ echoed, connection.stream.socket.sent = connection.accepted.sent ++ echoed ∧
      echoed <+: connection.accepted.incoming ∧
      (connection.phase = .closed → echoed = connection.accepted.incoming) := by
  rcases echoes.grows with ⟨echoed, sent⟩
  have conserved := echoes.conserved
  rw [← sent, List.append_assoc, List.append_cancel_left_eq] at conserved
  refine ⟨echoed, sent.symm, ⟨_, conserved⟩, ?_⟩
  intro closed
  have suspended := echoes.suspended
  rw [closed] at suspended
  rw [suspended.1, suspended.2, List.append_nil, List.append_nil] at conserved
  exact conserved

end EchoConnection

namespace EchoServer

open EchoConnection

/-- The callback is one of the connection. -/
def IsReady (index : ℕ) : EchoEvent → Bool
  | .ready other => other = index
  | .accept _ => false

/-- The callbacks that a connection can have. -/
def limit (connection : EchoConnection) : ℕ :=
  2 * connection.accepted.incoming.length + 1

/-- What holds of the server after the given callbacks. -/
structure Serves (events : List EchoEvent) (server : EchoServer) : Prop where
  echoes : ∀ connection ∈ server.connections, connection.Echoes
  counted : ∀ index connection, server.connections[index]? = some connection →
    events.countP (IsReady index) ≤ limit connection
  working : server.terminated = false → ∀ index connection,
    server.connections[index]? = some connection →
    events.countP (IsReady index) + connection.work ≤ limit connection
  unused : ∀ index, server.connections.length ≤ index → events.countP (IsReady index) = 0
  failed : server.terminated = true → ∃ connection ∈ server.connections,
    ¬connection.accepted.Healthy

theorem serves_start : Serves [] start where
  echoes := by simp [start]
  counted := by simp [start]
  working := by simp [start]
  unused := by simp
  failed := by simp [start]

variable {events : List EchoEvent} {server next : EchoServer}

theorem countP_accept (events : List EchoEvent) (result : SystemCall Socket) (index : ℕ) :
    (events ++ [EchoEvent.accept result]).countP (IsReady index) =
      events.countP (IsReady index) := by
  simp [List.countP_append, IsReady]

theorem countP_ready (events : List EchoEvent) (ready index : ℕ) :
    (events ++ [EchoEvent.ready ready]).countP (IsReady index) =
      events.countP (IsReady index) + if ready = index then 1 else 0 := by
  simp [List.countP_append, IsReady]

theorem Serves.accept_again (serves : Serves events server) (result : SystemCall Socket)
    {listening : Bool} :
    Serves (events ++ [.accept result]) { server with listening := listening } where
  echoes := serves.echoes
  counted := by
    intro index connection isThere
    rw [countP_accept]
    exact serves.counted index connection isThere
  working := by
    intro running index connection isThere
    rw [countP_accept]
    exact serves.working running index connection isThere
  unused := by
    intro index outside
    rw [countP_accept]
    exact serves.unused index outside
  failed := serves.failed

theorem Serves.accept_returned (serves : Serves events server)
    (running : server.terminated = false) (socket : Socket) :
    Serves (events ++ [.accept (.returned socket)])
      { server with connections := server.connections ++ [.create socket] } := by
  have working : ∀ index connection,
      (server.connections ++ [create socket])[index]? = some connection →
      (events ++ [EchoEvent.accept (.returned socket)]).countP (IsReady index) + connection.work ≤
        limit connection := by
    intro index connection isThere
    rw [countP_accept]
    by_cases inside : index < server.connections.length
    · rw [List.getElem?_append_left inside] at isThere
      exact serves.working running index connection isThere
    · rw [not_lt] at inside
      rw [List.getElem?_append_right inside] at isThere
      have isNew := List.mem_of_getElem? isThere
      rw [List.mem_singleton] at isNew
      rw [serves.unused index inside, isNew]
      simp [work, limit, create]
  refine ⟨?_, ?_, fun _ => working, ?_, ?_⟩
  · intro connection mem
    rcases List.mem_append.mp mem with earlier | isNew
    · exact serves.echoes connection earlier
    · rw [List.mem_singleton.mp isNew]
      exact echoes_create socket
  · intro index connection isThere
    exact le_of_add_le_left (working index connection isThere)
  · intro index outside
    rw [List.length_append] at outside
    rw [countP_accept]
    exact serves.unused index (le_of_add_le_left outside)
  · intro terminated
    rw [running] at terminated
    cases terminated

theorem Serves.advance (serves : Serves events server) (running : server.terminated = false)
    {index : ℕ} {before after : EchoConnection} (found : server.connections[index]? = some before)
    (advances : before.Advances after) :
    Serves (events ++ [.ready index])
      { server with connections := server.connections.set index after } := by
  have inside := (List.getElem?_eq_some_iff.mp found).1
  have working : ∀ other connection,
      (server.connections.set index after)[other]? = some connection →
      (events ++ [EchoEvent.ready index]).countP (IsReady other) + connection.work ≤
        limit connection := by
    intro other connection isThere
    rw [countP_ready]
    by_cases same : index = other
    · subst same
      rw [List.getElem?_set_self inside, Option.some.injEq] at isThere
      subst isThere
      have bound := serves.working running index before found
      have less := advances.less
      rw [if_pos rfl, limit, advances.accepted_eq]
      rw [limit] at bound
      omega
    · rw [List.getElem?_set_ne same] at isThere
      rw [if_neg same, add_zero]
      exact serves.working running other connection isThere
  refine ⟨?_, ?_, fun _ => working, ?_, ?_⟩
  · intro connection mem
    rcases List.mem_or_eq_of_mem_set mem with earlier | isNew
    · exact serves.echoes connection earlier
    · rw [isNew]
      exact advances.echoes
  · intro other connection isThere
    exact le_of_add_le_left (working other connection isThere)
  · intro other outside
    rw [List.length_set] at outside
    have different : index ≠ other := by omega
    rw [countP_ready, if_neg different, add_zero]
    exact serves.unused other outside
  · intro terminated
    rw [running] at terminated
    cases terminated

theorem Serves.terminate (serves : Serves events server) (running : server.terminated = false)
    {index : ℕ} {connection : EchoConnection}
    (found : server.connections[index]? = some connection)
    (notClosed : connection.phase ≠ .closed) (unhealthy : ¬connection.accepted.Healthy) :
    Serves (events ++ [.ready index]) { server with terminated := true } := by
  refine ⟨serves.echoes, ?_, nofun, ?_, ?_⟩
  · intro other there isThere
    rw [countP_ready]
    by_cases same : index = other
    · subst same
      rw [found, Option.some.injEq] at isThere
      subst isThere
      have bound := serves.working running index connection found
      have positive : 0 < connection.work := by
        rw [work]
        split
        · exact absurd ‹_› notClosed
        · omega
      rw [if_pos rfl]
      omega
    · rw [if_neg same, add_zero]
      exact serves.counted other there isThere
  · intro other outside
    have different : index ≠ other :=
      ((List.getElem?_eq_some_iff.mp found).1.trans_le outside).ne
    rw [countP_ready, if_neg different, add_zero]
    exact serves.unused other outside
  · intro _
    exact ⟨connection, List.mem_of_getElem? found, unhealthy⟩

theorem Serves.step (serves : Serves events server) {event : EchoEvent}
    (stepped : server.step event = some next) : Serves (events ++ [event]) next := by
  cases running : server.terminated with
  | true => simp [EchoServer.step, running] at stepped
  | false =>
      simp only [EchoServer.step, running, Bool.false_eq_true, if_false] at stepped
      cases event with
      | accept result =>
          rcases Option.ite_none_right_eq_some.mp stepped with ⟨_, accepted⟩
          cases accepted
          cases result with
          | wouldBlock => exact serves.accept_again _
          | failed => exact serves.accept_again _
          | returned socket => exact serves.accept_returned running socket
      | ready index =>
          rcases Option.bind_eq_some_iff.mp stepped with ⟨connection, found, fired⟩
          rcases Option.map_eq_some_iff.mp fired with ⟨outcome, isReady, same⟩
          have echoes := serves.echoes connection (List.mem_of_getElem? found)
          rcases onReady_cases echoes with
            ⟨_, closed⟩ | ⟨after, advanced, advances⟩ | ⟨unhealthy, stop, raised⟩
          · rw [closed] at isReady
            cases isReady
          · rw [advanced] at isReady
            cases isReady
            cases same
            simpa only [running] using serves.advance running found advances
          · have notClosed : connection.phase ≠ .closed := by
              intro closed
              rw [onReady, closed] at raised
              cases raised
            rw [raised] at isReady
            cases isReady
            cases same
            exact serves.terminate running found notClosed unhealthy

theorem serves_of_run (ran : Transition.run EchoServer.step start events = some server) :
    Serves events server := by
  induction events using List.reverseRecOn generalizing server with
  | nil =>
      cases ran
      exact serves_start
  | append_singleton events event ih =>
      rcases Transition.run_append_eq_some.mp ran with ⟨middle, earlier, last⟩
      rcases Transition.run_cons_eq_some.mp last with ⟨next, stepped, ended⟩
      cases ended
      exact (ih earlier).step stepped

/-- In every order of the callbacks and with any number of connections, each connection has got
back a beginning of what it sends, and all of it when it is closed; it has at most so many
callbacks, and one more as long as it is not closed and the process runs.  The process is
terminated only by a system call that fails. -/
theorem run_echoes (ran : Transition.run EchoServer.step start events = some server) :
    (∀ index connection, server.connections[index]? = some connection →
      (∃ echoed, connection.stream.socket.sent = connection.accepted.sent ++ echoed ∧
        echoed <+: connection.accepted.incoming ∧
        (connection.phase = .closed → echoed = connection.accepted.incoming)) ∧
      events.countP (IsReady index) ≤ 2 * connection.accepted.incoming.length + 1 ∧
      (connection.phase ≠ .closed → server.terminated = false →
        ∃ next, server.step (.ready index) = some next)) ∧
    (server.terminated = true →
      ∃ connection ∈ server.connections, ¬connection.accepted.Healthy) := by
  have serves := serves_of_run ran
  refine ⟨?_, serves.failed⟩
  intro index connection found
  have echoes := serves.echoes connection (List.mem_of_getElem? found)
  refine ⟨echoes.echoed, serves.counted index connection found, ?_⟩
  intro notClosed running
  have isReady : ∃ outcome, connection.onReady = some outcome := by
    rcases onReady_cases echoes with ⟨closed, _⟩ | ⟨after, advanced, _⟩ | ⟨_, stop, raised⟩
    · exact absurd closed notClosed
    · exact ⟨_, advanced⟩
    · exact ⟨_, raised⟩
  rcases isReady with ⟨outcome, fires⟩
  simp [EchoServer.step, running, found, fires]

/-- Two clients that send one byte each, of which the second one is served between the callbacks of
the first one. -/
def twoClients : List EchoEvent :=
  [.accept (.returned (.bytewise [1])), .accept .wouldBlock, .ready 0,
    .accept (.returned (.bytewise [2])), .ready 1, .ready 0, .ready 1, .ready 0]

theorem run_echoes_twoClients : ∃ server, Transition.run EchoServer.step start twoClients =
      some server ∧
    ∀ connection, server.connections[0]? = some connection →
      ∃ echoed, connection.stream.socket.sent = connection.accepted.sent ++ echoed ∧
        echoed <+: connection.accepted.incoming ∧
        (connection.phase = .closed → echoed = connection.accepted.incoming) := by
  have accepted : ∃ server, Transition.run EchoServer.step start twoClients = some server :=
    ⟨_, rfl⟩
  rcases accepted with ⟨server, ran⟩
  exact ⟨server, ran, fun connection found => ((run_echoes ran).1 0 connection found).1⟩

end EchoServer

end EventAsync
