import EventAsync.MySQL.ClientSteps

/-!
# Commands over a socket that does not fail

Sending a command starts the numbers again and leaves the response to be read
from number 1 on.  A packet with the expected number is read as a whole into
the empty buffer of the session.
-/

namespace EventAsync.MySQL

open ByteCodec Decoding

/-- The state of a session whose socket does not fail: the number of the next packet, the content
of the buffer and what the server has sent. -/
structure Session.Holds (session : Session) (seq : UInt8) (buf incoming : Bytes) : Prop where
  isOpen : ∃ connection, session.client.fd = some connection ∧
    Stream.Holds ⟨session.buf, connection.socket⟩ buf incoming connection.socket.sent
  nextSeq_eq : session.client.nextSeq = seq

/-- The client holds a connection over which the given bytes can be read without failure. -/
def Client.Receives (client : Client) (incoming : Bytes) : Prop :=
  ∃ connection, client.fd = some connection ∧ connection.socket.incoming = incoming ∧
    connection.socket.Healthy

variable {session : Session} {client : Client} {seq : UInt8} {buf payload incoming rest : Bytes}

namespace Session.Holds

theorem buf_eq (holds : session.Holds seq buf incoming) : session.buf = buf := by
  rcases holds.isOpen with ⟨connection, _, held⟩
  exact held.buf_eq

theorem receives (holds : session.Holds seq buf incoming) : session.client.Receives incoming := by
  rcases holds.isOpen with ⟨connection, isOpen, held⟩
  exact ⟨connection, isOpen, held.incoming_eq, held.healthy⟩

theorem decode {Result : Type} {action : BufferM Result} {bytes : Bytes} {result : Result}
    (holds : session.Holds seq (bytes ++ rest) incoming)
    (decodes : Decodes front action bytes result) :
    ∃ after, (liftM action : SessionM Result) session = .ok result after ∧
      after.Holds seq rest incoming := by
  rcases holds with ⟨⟨connection, isOpen, held⟩, rfl⟩
  have ends := decodes 0 rest
  simp only [front, ← held.buf_eq] at ends
  refine ⟨{ session with buf := rest }, Stateful.zoom_of_ok ends, ⟨connection, isOpen, ?_⟩, rfl⟩
  exact ⟨rfl, held.incoming_eq, rfl, held.healthy⟩

end Session.Holds

namespace Client

open Buffer ProtocolBuffer

/-- A packet with the expected number is accepted, and its payload is in the buffer. -/
theorem readCommand_ok (holds : session.Holds seq [] (packet seq payload ++ rest))
    (fits : payload.length < 2 ^ 24) :
    ∃ after, readCommand session = .ok () after ∧ after.Holds (seq + 1) payload rest := by
  rcases holds with ⟨⟨connection, isOpen, held⟩, rfl⟩
  rcases ProtocolBuffer.readCommand_packet held with ⟨stream, read, heldAfter⟩
  rw [Nat.mod_eq_of_lt fits, List.take_length, List.drop_length, List.nil_append] at heldAfter
  rcases readCommand_cases isOpen with ⟨stop, after, failed, _⟩ | ⟨number, after, other, wrong, _⟩ |
    ⟨after, accepted, ends⟩
  · rw [read] at failed
    cases failed
  · rw [read] at other
    cases other
    exact absurd rfl wrong
  · rw [read] at accepted
    cases accepted
    refine ⟨_, ends, ⟨_, rfl, ?_⟩, rfl⟩
    exact ⟨heldAfter.buf_eq, heldAfter.incoming_eq, rfl, heldAfter.healthy⟩

/-- A command is sent from a buffer that holds it and its argument, as number 0. -/
theorem sendCommand_eq (command : UInt8) (argument : Bytes) (client : Client) :
    sendCommand command argument ⟨client, []⟩ =
      writeCommand ⟨{ client with nextSeq := 0 }, command :: argument⟩ := by
  have reset : (liftM resetSeq : SessionM Unit) ⟨client, []⟩ =
      .ok () ⟨{ client with nextSeq := 0 }, []⟩ := rfl
  have added : (liftM (addU8 command) : SessionM Unit) ⟨{ client with nextSeq := 0 }, []⟩ =
      .ok () ⟨{ client with nextSeq := 0 }, [command]⟩ := rfl
  have addedArgument : (liftM (add argument) : SessionM Unit)
      ⟨{ client with nextSeq := 0 }, [command]⟩ =
      .ok () ⟨{ client with nextSeq := 0 }, command :: argument⟩ := rfl
  rw [sendCommand, Stateful.bind_of_ok reset, Stateful.bind_of_ok added,
    Stateful.bind_of_ok addedArgument]

theorem sendCommand_ok (receives : client.Receives incoming) (command : UInt8) (argument : Bytes) :
    ∃ after, sendCommand command argument ⟨client, []⟩ = .ok () after ∧
      after.Holds 1 [] incoming := by
  rcases receives with ⟨connection, isOpen, unread, healthy⟩
  have held : Stream.Holds ⟨command :: argument, connection.socket⟩ (command :: argument) incoming
      connection.socket.sent := ⟨rfl, unread, rfl, healthy⟩
  rcases ProtocolBuffer.writeCommand_ok held 0 with ⟨stream, wrote, heldAfter⟩
  refine ⟨⟨{ client with nextSeq := 1, fd := some { connection with socket := stream.socket } },
    stream.buf⟩, ?_, ?_⟩
  · rw [sendCommand_eq, writeCommand, Stateful.bind_of_ok (get_eq _),
      Stateful.bind_of_ok (set_eq _ _)]
    simp only [transfer, isOpen, wrote]
    rfl
  · exact ⟨⟨_, rfl, heldAfter.buf_eq, heldAfter.incoming_eq, rfl, heldAfter.healthy⟩, rfl⟩

/-- A query ends as the loop over its results does. -/
theorem exists_sent_query (receives : client.Receives incoming) (lib : Library) (fuel : ℕ)
    (sql : Bytes) (rowsAsDicts : Bool) :
    ∃ sent, sent.Holds 1 [] incoming ∧
      (∀ res after, readResults lib rowsAsDicts fuel [] sent = .ok res after →
        queryMulti lib fuel sql rowsAsDicts client = .ok res after.client) ∧
      ∀ stop after, readResults lib rowsAsDicts fuel [] sent = .error stop after →
        queryMulti lib fuel sql rowsAsDicts client = .error stop after.client := by
  rcases sendCommand_ok receives queryCommand sql with ⟨sent, sending, held⟩
  rcases receives with ⟨connection, isOpen, _⟩
  refine ⟨sent, held, ?_, ?_⟩
  · intro res after ends
    rw [queryMulti, Stateful.bind_of_ok (assertConnOpen_ok isOpen)]
    exact Stateful.zoom_of_ok ((Stateful.bind_of_ok sending).trans ends)
  · intro stop after ends
    rw [queryMulti, Stateful.bind_of_ok (assertConnOpen_ok isOpen)]
    exact Stateful.zoom_of_error ((Stateful.bind_of_ok sending).trans ends)

end Client

end EventAsync.MySQL
