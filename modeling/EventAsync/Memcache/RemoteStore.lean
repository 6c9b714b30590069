import EventAsync.Lib.Machine
import EventAsync.Memcache.ConditionalWrites

/-!
# A store behind a connection

A store is a machine that answers operations: it looks up and writes entries,
counts, appends, deletes.  A server takes the operations of a store from the
requests that it receives and sends the replies as responses.  A client that is
connected to such a server is a way to use the store: every call of the client
has the result that its operation has on the store itself, whatever the store
is, and over any sequence of calls.
-/

namespace EventAsync.Memcache

open ByteCodec Decoding

/-- When a write applies: always, to an absent key, or to a present one. -/
inductive Condition where
  | always
  | absent
  | present

/-- What can be asked of a store. -/
inductive Operation where
  | get (key : Bytes) (touch : Option UInt32)
  | write (condition : Condition) (key value : Bytes) (flags expirationSecs : UInt32) (cas : UInt64)
  | delete (key : Bytes) (cas : UInt64)
  | count (down : Bool) (key : Bytes) (delta initial : UInt64) (expirationSecs : UInt32)
  | append (before : Bool) (key value : Bytes)
  | flush (expirationSecs : UInt32)
  | noOp
  | version
  | stats (key : Bytes)
  | touch (key : Bytes) (expirationSecs : UInt32)

/-- What a store replies; an error has a status and a message. -/
inductive Reply where
  | value (flags : UInt32) (value : Bytes) (cas : UInt64)
  | done (cas : UInt64)
  | number (number cas : UInt64)
  | text (text : Bytes)
  | stats (entries : List (Bytes × Bytes))
  | error (status : UInt16) (message : Bytes)

/-- A reply of the kind that the protocol has for the operation, of a size that it can transport. -/
def Reply.Answers : Reply → Operation → Prop
  | .error status message, _ => status ≠ ResponseStatus.ok.code ∧ message.length < 2 ^ 31
  | .value _ data _, .get _ _ => 4 + data.length < 2 ^ 31
  | .done _, .write _ _ _ _ _ _ => True
  | .done _, .delete _ _ => True
  | .done _, .append _ _ _ => True
  | .done _, .flush _ => True
  | .done _, .noOp => True
  | .done _, .touch _ _ => True
  | .number _ _, .count _ _ _ _ _ => True
  | .text data, .version => data.length < 2 ^ 31
  | .stats entries, .stats _ => ∀ entry ∈ entries, entry.1.length < 2 ^ 16 ∧
      entry.1 ++ entry.2 ≠ [] ∧ entry.1.length + entry.2.length < 2 ^ 31
  | _, _ => False

/-- A store that gives every operation an answer. -/
structure Store (State : Type) where
  apply : State → Operation → Reply × State
  answers : ∀ state operation, (apply state operation).1.Answers operation

section Protocol

def Command.all : List Command :=
  [.get, .set, .add, .replace, .delete, .increment, .decrement, .flush, .noOp, .version, .append,
    .prepend, .stat, .touch, .getAndTouch]

def Command.ofCode (code : UInt8) : Option Command :=
  Command.all.find? fun command => command.code = code

theorem Command.ofCode_code (command : Command) : Command.ofCode command.code = some command := by
  cases command <;> rfl

/-- The size that the extras of a request have. -/
def Command.extrasSize : Command → ℕ
  | .set | .add | .replace => 8
  | .increment | .decrement => 20
  | .flush | .touch | .getAndTouch => 4
  | _ => 0

/-- A number in the extras. -/
def Request.extra (request : Request) (offset width : ℕ) : ℕ :=
  beNat ((request.extras.drop offset).take width)

/-- The operation that a request asks for. -/
def Operation.decode (request : Request) : Option Operation :=
  (Command.ofCode request.opcode).bind fun command =>
    if request.extras.length ≠ command.extrasSize then none
    else
      match command with
      | .get => some (.get request.key none)
      | .getAndTouch => some (.get request.key (some (.ofNat (request.extra 0 4))))
      | .set =>
          some (.write .always request.key request.value (.ofNat (request.extra 0 4))
            (.ofNat (request.extra 4 4)) request.cas)
      | .add =>
          some (.write .absent request.key request.value (.ofNat (request.extra 0 4))
            (.ofNat (request.extra 4 4)) request.cas)
      | .replace =>
          some (.write .present request.key request.value (.ofNat (request.extra 0 4))
            (.ofNat (request.extra 4 4)) request.cas)
      | .delete => some (.delete request.key request.cas)
      | .increment =>
          some (.count false request.key (.ofNat (request.extra 0 8)) (.ofNat (request.extra 8 8))
            (.ofNat (request.extra 16 4)))
      | .decrement =>
          some (.count true request.key (.ofNat (request.extra 0 8)) (.ofNat (request.extra 8 8))
            (.ofNat (request.extra 16 4)))
      | .append => some (.append false request.key request.value)
      | .prepend => some (.append true request.key request.value)
      | .flush => some (.flush (.ofNat (request.extra 0 4)))
      | .noOp => some .noOp
      | .version => some .version
      | .stat => some (.stats request.key)
      | .touch => some (.touch request.key (.ofNat (request.extra 0 4)))

/-- A response with its parts. -/
def Response.make (opcode : UInt8) (status : UInt16) (extras key value : Bytes) (cas : UInt64) :
    Response where
  header :=
    { magic := 0x81
      opcode := opcode
      keySize := .ofNat key.length
      extrasSize := .ofNat extras.length
      dataType := 0
      status := status
      bodySize := .ofNat (extras.length + key.length + value.length)
      opaqueValue := 0
      cas := cas }
  body := extras ++ (key ++ value)

/-- The responses that transport a reply. -/
def Reply.responses (opcode : UInt8) : Reply → List Response
  | .value flags data cas => [.make opcode 0 (beBytes 4 flags.toNat) [] data cas]
  | .done cas => [.make opcode 0 [] [] [] cas]
  | .number count cas => [.make opcode 0 [] [] (beBytes 8 count.toNat) cas]
  | .text data => [.make opcode 0 [] [] data 0]
  | .stats entries =>
      (entries.map fun entry => .make opcode 0 [] entry.1 entry.2 0) ++ [.make opcode 0 [] [] [] 0]
  | .error status message => [.make opcode status [] [] message 0]

end Protocol

/-- What a call returns. -/
inductive Outcome where
  | got (result : GetResult)
  | written (changed : Bool)
  | number (value : UInt64)
  | nothing
  | text (text : Bytes)
  | stats (entries : List (Bytes × Bytes))
  deriving DecidableEq

namespace Call

/-- The operation that a call stands for. -/
def operation : Call → Operation
  | .get key expirationSecs => .get key (if expirationSecs = 0 then none else some expirationSecs)
  | .set key value flags expirationSecs cas => .write .always key value flags expirationSecs cas
  | .add key value flags expirationSecs => .write .absent key value flags expirationSecs 0
  | .replace key value flags expirationSecs cas =>
      .write .present key value flags expirationSecs cas
  | .deleteKey key cas => .delete key cas
  | .increment key delta initialValue expirationSecs decrement =>
      .count decrement key delta (Client.initialOrDelta delta initialValue) expirationSecs
  | .append key value prepend => .append prepend key value
  | .flush expirationSecs => .flush expirationSecs
  | .noop _ _ => .noOp
  | .version => .version
  | .stats key => .stats (key.getD [])
  | .touch key expirationSecs => .touch key expirationSecs

/-- The errors that the call takes for an answer. -/
def expectedErrors : Call → UInt16 × UInt16
  | .get _ _ => (ResponseStatus.keyNotFound.code, 0)
  | .set _ _ _ _ _ => (ResponseStatus.keyExists.code, 0)
  | .add _ _ _ _ => (ResponseStatus.keyExists.code, 0)
  | .replace _ _ _ _ _ => (ResponseStatus.keyNotFound.code, ResponseStatus.keyExists.code)
  | .deleteKey _ _ => (ResponseStatus.keyExists.code, 0)
  | .increment _ _ _ _ _ => (ResponseStatus.keyNotFound.code, 0)
  | _ => (0, 0)

/-- How the call ends with an error that it takes for an answer. -/
def denied : Call → Except Exception Outcome
  | .get _ _ => .ok (.got { value := [], cas := 0, flags := 0, keyFound := false })
  | .increment _ _ _ _ _ => .error (.outOfRange "key not found")
  | _ => .ok (.written false)

/-- What the call makes of a reply that is not an error. -/
def granted : Call → Reply → Option Outcome
  | .get _ _, .value flags data cas =>
      some (.got { value := data, cas := cas, flags := flags, keyFound := true })
  | .set _ _ _ _ _, .done _ => some (.written true)
  | .add _ _ _ _, .done _ => some (.written true)
  | .replace _ _ _ _ _, .done _ => some (.written true)
  | .deleteKey _ _, .done _ => some (.written true)
  | .increment _ _ _ _ _, .number count _ => some (.number count)
  | .append _ _ _, .done _ => some .nothing
  | .flush _, .done _ => some .nothing
  | .touch _ _, .done _ => some .nothing
  | .noop startUsecs endUsecs, .done _ => some (.number (endUsecs - startUsecs))
  | .version, .text data => some (.text data)
  | .stats _, .stats entries =>
      some (.stats (entries.foldl (fun map entry => Client.emplace map entry.1 entry.2) []))
  | _, _ => none

def serverError (status : UInt16) (message : Bytes) : Exception :=
  .runtimeError ("server sent error " ++ toString status.toNat ++ ": ") (message.takeWhile (· ≠ 0))

/-- How the call ends with a reply. -/
def concluded (call : Call) : Reply → Option (Except Exception Outcome)
  | .error status message =>
      some (if status = call.expectedErrors.1 ∨ status = call.expectedErrors.2 then call.denied
        else .error (serverError status message))
  | reply => (call.granted reply).map .ok

/-- The call with what it returns. -/
def perform : Call → ClientM Outcome
  | .get key expirationSecs => Outcome.got <$> Client.get key expirationSecs
  | .set key value flags expirationSecs cas =>
      Outcome.written <$> Client.set key value flags expirationSecs cas
  | .add key value flags expirationSecs =>
      Outcome.written <$> Client.add key value flags expirationSecs
  | .replace key value flags expirationSecs cas =>
      Outcome.written <$> Client.replace key value flags expirationSecs cas
  | .deleteKey key cas => Outcome.written <$> Client.deleteKey key cas
  | .increment key delta initialValue expirationSecs decrement =>
      Outcome.number <$> Client.increment key delta initialValue expirationSecs decrement
  | .append key value prepend => (fun _ => Outcome.nothing) <$> Client.append key value prepend
  | .flush expirationSecs => (fun _ => Outcome.nothing) <$> Client.flush expirationSecs
  | .noop startUsecs endUsecs => Outcome.number <$> Client.noop startUsecs endUsecs
  | .version => Outcome.text <$> Client.version
  | .stats key => Outcome.stats <$> Client.stats key
  | .touch key expirationSecs => (fun _ => Outcome.nothing) <$> Client.touch key expirationSecs

/-- What the call sends. -/
def written (call : Call) (client : Client) : Bytes :=
  (Stateful.endState (call.run client)).sent.drop client.sent.length

end Call

namespace Store

variable {State : Type}

/-- A call that is made on the store itself. -/
def direct (store : Store State) (state : State) (call : Call) :
    Option (Except Exception Outcome × State) :=
  (call.concluded (store.apply state call.operation).1).map fun outcome =>
    (outcome, (store.apply state call.operation).2)

/-- A client that is connected to a server with the store. -/
structure Remote (State : Type) where
  state : State
  client : Client

/-- The store behind the connection is in the state, and nothing is left to be read. -/
def Remote.Serves (link : Remote State) (state : State) : Prop :=
  link.state = state ∧ link.client.Receives []

/-- A call that is made over the connection; the responses to its request have arrived when it
begins to read. -/
def remote (store : Store State) (link : Remote State) (call : Call) :
    Option (Except Exception Outcome × Remote State) :=
  match Request.parse (call.written link.client) with
  | some (request, []) =>
      (Operation.decode request).bind fun operation =>
        let (reply, state) := store.apply link.state operation
        let responses := (reply.responses request.opcode).flatMap Response.wire
        match call.perform (link.client.deliver responses) with
        | .ok outcome client => some (.ok outcome, ⟨state, client⟩)
        | .error (.raised exception) client => some (.error exception, ⟨state, client⟩)
        | .error _ _ => none
  | _ => none

end Store

section Decoding

theorem drop_beBytes_append {width count : ℕ} (number : ℕ) (rest : Bytes) (le : width ≤ count) :
    (beBytes width number ++ rest).drop count = rest.drop (count - width) := by
  rw [List.drop_append, List.drop_eq_nil_of_le (by rwa [length_beBytes]), length_beBytes,
    List.nil_append]

theorem take_beBytes (width number : ℕ) :
    (beBytes width number).take width = beBytes width number :=
  List.take_of_length_le (length_beBytes width number).le

/-- The server takes the operation of a call from the request of the call. -/
theorem Operation.decode_request (call : Call) :
    Operation.decode call.request = some call.operation := by
  have four : ∀ number : UInt32, beNat (beBytes 4 number.toNat) = number.toNat :=
    fun number => beNat_beBytes_of_lt number.toNat_lt
  have eight : ∀ number : UInt64, beNat (beBytes 8 number.toNat) = number.toNat :=
    fun number => beNat_beBytes_of_lt number.toNat_lt
  cases call with
  | get key expirationSecs =>
      by_cases never : expirationSecs = 0
      · simp [Call.request, Call.operation, never, decode, Command.ofCode_code, Command.extrasSize]
      · simp [Call.request, Call.operation, never, decode, Command.ofCode_code, Command.extrasSize,
          Request.extra, take_beBytes, four]
  | increment key delta initialValue expirationSecs decrement =>
      cases decrement with
      | _ =>
          simp [Call.request, Call.operation, decode, Command.ofCode_code, Command.extrasSize,
            Request.extra, drop_beBytes_append, take_beBytes, four, eight]
  | append key value prepend =>
      cases prepend with
      | _ => rfl
  | _ =>
      simp [Call.request, Call.operation, decode, Command.ofCode_code, Command.extrasSize,
        Request.extra, drop_beBytes_append, take_beBytes, four]

end Decoding

namespace Response

theorem wellFormed_make (opcode : UInt8) (status : UInt16) {extras key value : Bytes}
    (cas : UInt64) (keyFits : key.length < 2 ^ 16) (extrasFit : extras.length < 2 ^ 8)
    (small : extras.length + key.length + value.length < 2 ^ 31) :
    (make opcode status extras key value cas).WellFormed := by
  have keySize : (UInt16.ofNat key.length).toNat = key.length :=
    UInt16.toNat_ofNat_of_lt' keyFits
  have extrasSize : (UInt8.ofNat extras.length).toNat = extras.length :=
    UInt8.toNat_ofNat_of_lt' extrasFit
  have bodySize : (UInt32.ofNat (extras.length + key.length + value.length)).toNat =
      extras.length + key.length + value.length :=
    UInt32.toNat_ofNat_of_lt' (small.trans (by norm_num))
  constructor
  · rfl
  · simp only [make, bodySize, List.length_append]
    omega
  · simp only [make, List.length_append]
    omega
  · simp only [make, keySize, extrasSize, List.length_append]
    omega

end Response

namespace Client

open Buffer

variable {Result Other : Type}

theorem map_withBuffer (convert : Result → Other) (action : StreamM Result) :
    convert <$> withBuffer action = withBuffer (convert <$> action) := by
  funext client
  cases isOpen : client.fd with
  | none => simp [Functor.map, EStateM.map, withBuffer, isOpen]
  | some socket =>
      simp only [Functor.map, EStateM.map, withBuffer, isOpen]
      cases action { buf := [], socket := socket } with
      | ok result after => rfl
      | error stop after => rfl

theorem map_command (convert : Result → Other) (request : BufferM Unit)
    (response : StreamM Result) :
    convert <$> command request response = command request (convert <$> response) := by
  simp only [command, map_bind, map_withBuffer]

theorem map_oneResponse (convert : Result → Other) (code1 code2 : UInt16)
    (result : CommandHeader → BufferM Result) :
    convert <$> oneResponse code1 code2 result =
      oneResponse code1 code2 fun header => convert <$> result header := by
  have lifted : ∀ action : BufferM Result,
      convert <$> (liftM action : StreamM Result) = liftM (convert <$> action) :=
    fun action => Stateful.map_zoom _ _ convert action
  simp only [oneResponse, map_bind, lifted]

/-- The end of a computation that returns or raises. -/
def ended {State : Type} : Except Exception Result → State → EStateM.Result Stop State Result
  | .ok result, state => .ok result state
  | .error exception, state => .error (.raised exception) state

/-- The computation takes exactly the given bytes from the connection, and ends as given. -/
def Concludes (action : StreamM Result) (bytes : Bytes) (ending : Except Exception Result) :
    Prop :=
  ∀ stream rest sent, Stream.Holds stream [] (bytes ++ rest) sent →
    ∃ after : Stream, after.Holds [] rest sent ∧ action stream = ended ending after

variable {response : Response} {code1 code2 : UInt16} {result : CommandHeader → BufferM Result}
  {ending : Except Exception Result}

/-- What is made of the buffer alone leaves the connection as it is. -/
theorem lift_ended {action : BufferM Result} {stream : Stream} {buf rest sent : Bytes}
    (held : stream.Holds buf rest sent) (ends : action buf = ended ending []) :
    ∃ after : Stream, after.Holds [] rest sent ∧
      (liftM action : StreamM Result) stream = ended ending after := by
  rw [← held.buf_eq] at ends
  refine ⟨{ stream with buf := [] }, ⟨rfl, held.incoming_eq, held.sent_eq, held.healthy⟩, ?_⟩
  cases ending with
  | ok value => exact Stateful.zoom_of_ok ends
  | error exception => exact Stateful.zoom_of_error ends

/-- A successful response is concluded by what is made of its body. -/
theorem concludes_ok (wellFormed : response.WellFormed)
    (status : response.header.status = ResponseStatus.ok.code)
    (ends : result response.header response.body = ended ending []) :
    Concludes (oneResponse code1 code2 result) response.wire ending := by
  intro stream rest sent holds
  rcases readResponseHeader_ok wellFormed holds status with ⟨received, held, reads⟩
  rcases lift_ended held ends with ⟨after, heldAfter, concluded⟩
  exact ⟨after, heldAfter, (Stateful.bind_of_ok reads).trans concluded⟩

/-- An error that is expected is concluded by what is made of the empty buffer. -/
theorem concludes_expected (wellFormed : response.WellFormed)
    (status : response.header.status ≠ ResponseStatus.ok.code)
    (expected : response.header.status = code1 ∨ response.header.status = code2)
    (ends : result response.header [] = ended ending []) :
    Concludes (oneResponse code1 code2 result) response.wire ending := by
  intro stream rest sent holds
  have named : ¬(response.header.status ≠ code1 ∧ response.header.status ≠ code2) := by tauto
  rcases readResponseHeader_expected wellFormed holds status named with ⟨skipped, held, reads⟩
  rcases lift_ended held ends with ⟨after, heldAfter, concluded⟩
  exact ⟨after, heldAfter, (Stateful.bind_of_ok reads).trans concluded⟩

/-- Any other error is raised. -/
theorem concludes_raised (wellFormed : response.WellFormed)
    (status : response.header.status ≠ ResponseStatus.ok.code)
    (unexpected : ¬(response.header.status = code1 ∨ response.header.status = code2)) :
    Concludes (oneResponse code1 code2 result) response.wire (.error response.serverError) := by
  intro stream rest sent holds
  rcases readResponseHeader_raises wellFormed holds status (not_or.mp unexpected) with
    ⟨after, held, raises⟩
  exact ⟨after, held, Stateful.bind_of_error raises⟩

/-- What a command concludes is what the call returns. -/
theorem command_concludes {client : Client} {incoming : Bytes} {request : BufferM Unit}
    {sending : Bytes} {action : StreamM Result} (appends : Appends request sending)
    (nonempty : sending ≠ []) (concludes : Concludes action incoming ending)
    (receives : client.Receives (incoming ++ [])) :
    ∃ after : Client, after.Receives [] ∧ command request action client = ended ending after := by
  rcases exists_written receives appends nonempty action with ⟨sent, wrote, held, ends⟩
  rcases concludes wrote [] sent held with ⟨after, heldAfter, concluded⟩
  refine ⟨{ client with fd := some after.socket },
    ⟨after.socket, rfl, heldAfter.incoming_eq, heldAfter.healthy⟩, ?_⟩
  rw [ends, concluded]
  cases ending with
  | ok value => rfl
  | error exception => rfl

end Client

namespace Call

open Client

/-- How the call receives its response and what it makes of it. -/
def conclude : Call → StreamM Outcome
  | .get _ _ =>
      oneResponse ResponseStatus.keyNotFound.code 0 fun header => Outcome.got <$> getResult header
  | .set _ _ _ _ _ | .add _ _ _ _ =>
      oneResponse ResponseStatus.keyExists.code 0 fun header => Outcome.written <$>
        emptyBodyResult "write command returned response data after header" header
  | .replace _ _ _ _ _ =>
      oneResponse ResponseStatus.keyNotFound.code ResponseStatus.keyExists.code fun header =>
        Outcome.written <$>
          emptyBodyResult "write command returned response data after header" header
  | .deleteKey _ _ =>
      oneResponse ResponseStatus.keyExists.code 0 fun header => Outcome.written <$>
        emptyBodyResult "delete command returned response data after header" header
  | .increment _ _ _ _ _ =>
      oneResponse ResponseStatus.keyNotFound.code 0 fun header =>
        Outcome.number <$> incrementResult header
  | .append _ _ _ | .flush _ | .touch _ _ => oneResponse 0 0 fun _ => return .nothing
  | .noop startUsecs endUsecs => oneResponse 0 0 fun _ => return .number (endUsecs - startUsecs)
  | .version =>
      oneResponse 0 0 fun header => Outcome.text <$> Buffer.removeString header.bodySize.toNat
  | .stats _ =>
      Outcome.stats <$> fun stream => readStats (stream.socket.incoming.length + 1) [] stream

theorem perform_eq (call : Call) : call.perform = command call.fill call.conclude := by
  cases call with
  | stats key => exact map_command _ _ _
  | _ =>
      apply (map_command _ _ _).trans
      rw [map_oneResponse]
      rfl

/-- A call with one response makes its negative answer of every error that it expects. -/
theorem conclude_denied {call : Call} (notStats : ∀ key, call ≠ .stats key) :
    ∃ result, call.conclude = oneResponse call.expectedErrors.1 call.expectedErrors.2 result ∧
      ∀ header : CommandHeader, header.status ≠ ResponseStatus.ok.code →
        (header.status = call.expectedErrors.1 ∨ header.status = call.expectedErrors.2) →
        result header [] = ended call.denied [] := by
  cases call with
  | stats key => exact absurd rfl (notStats key)
  | get key expirationSecs =>
      refine ⟨_, rfl, fun header status _ => ?_⟩
      have negative : getResult header = pure ⟨[], 0, 0, false⟩ := if_pos status
      simp only [negative]
      rfl
  | increment key delta initialValue expirationSecs decrement =>
      refine ⟨_, rfl, fun header status _ => ?_⟩
      have negative : incrementResult header = throw (.raised (.outOfRange "key not found")) :=
        if_pos status
      simp only [negative]
      rfl
  | append | flush | touch | noop | version =>
      refine ⟨_, rfl, fun header status expected => ?_⟩
      exact absurd (or_self_iff.mp expected) status
  | _ =>
      refine ⟨_, rfl, fun header status _ => ?_⟩
      have negative : ∀ message, emptyBodyResult message header = pure false :=
        fun message => if_pos status
      simp only [negative]
      rfl

theorem concludes_error {call : Call} (notStats : ∀ key, call ≠ .stats key) (opcode : UInt8)
    {status : UInt16} {message : Bytes} (isError : status ≠ ResponseStatus.ok.code)
    (short : message.length < 2 ^ 31) :
    Concludes call.conclude (Response.make opcode status [] [] message 0).wire
      (if status = call.expectedErrors.1 ∨ status = call.expectedErrors.2 then call.denied
        else .error (serverError status message)) := by
  have wellFormed : (Response.make opcode status [] [] message 0).WellFormed :=
    Response.wellFormed_make opcode status 0 (by simp) (by simp) (by simpa using short)
  rcases conclude_denied notStats with ⟨result, concludes, denies⟩
  rw [concludes]
  split
  case isTrue expected =>
    exact concludes_expected wellFormed isError expected (denies _ isError expected)
  case isFalse unexpected => exact concludes_raised wellFormed isError unexpected

/-- A response without a body grants the calls that want to know nothing else. -/
theorem concludes_done {call : Call} (opcode : UInt8) (cas : UInt64) {outcome : Outcome}
    (granted : call.granted (.done cas) = some outcome) :
    Concludes call.conclude (Response.make opcode 0 [] [] [] cas).wire (.ok outcome) := by
  have wellFormed : (Response.make opcode 0 [] [] [] cas).WellFormed :=
    Response.wellFormed_make opcode 0 cas (by simp) (by simp) (by simp)
  cases call with
  | get | increment | version | stats => cases granted
  | _ =>
      cases granted
      exact concludes_ok wellFormed rfl rfl

theorem concludes_value (key : Bytes) (expirationSecs : UInt32) (opcode : UInt8)
    (flags : UInt32) {data : Bytes} (cas : UInt64) (short : 4 + data.length < 2 ^ 31) :
    Concludes (Call.get key expirationSecs).conclude
      (Response.make opcode 0 (beBytes 4 flags.toNat) [] data cas).wire
      (.ok (.got { value := data, cas := cas, flags := flags, keyFound := true })) := by
  have wellFormed : (Response.make opcode 0 (beBytes 4 flags.toNat) [] data cas).WellFormed :=
    Response.wellFormed_make opcode 0 cas (by simp) (by simp) (by simpa using short)
  have extrasSize : (Response.make opcode 0 (beBytes 4 flags.toNat) [] data cas).header.extrasSize =
      4 := by
    simp [Response.make]
  have taken := getResult_ok wellFormed rfl extrasSize
  have fits : flags.toNat < 256 ^ 4 := flags.toNat_lt
  have returned : (Response.make opcode 0 (beBytes 4 flags.toNat) [] data cas).got =
      { value := data, cas := cas, flags := flags, keyFound := true } := by
    simp [Response.got, Response.make, beNat_beBytes_of_lt fits]
  rw [returned] at taken
  exact concludes_ok wellFormed rfl (Stateful.map_of_ok taken)

theorem concludes_number (key : Bytes) (delta initialValue : UInt64) (expirationSecs : UInt32)
    (decrement : Bool) (opcode : UInt8) (count cas : UInt64) :
    Concludes (Call.increment key delta initialValue expirationSecs decrement).conclude
      (Response.make opcode 0 [] [] (beBytes 8 count.toNat) cas).wire (.ok (.number count)) := by
  have wellFormed : (Response.make opcode 0 [] [] (beBytes 8 count.toNat) cas).WellFormed :=
    Response.wellFormed_make opcode 0 cas (by simp) (by simp) (by simp)
  have isOk : (Response.make opcode 0 [] [] (beBytes 8 count.toNat) cas).header.status = 0 := rfl
  have bodySize : (Response.make opcode 0 [] [] (beBytes 8 count.toNat) cas).header.bodySize = 8 :=
    by simp [Response.make]
  have decodes : Decodes front
      (incrementResult (Response.make opcode 0 [] [] (beBytes 8 count.toNat) cas).header)
      (beBytes 8 count.toNat) (.ofNat count.toNat) := by
    simp only [incrementResult, isOk, bodySize, ne_eq, not_true_eq_false, if_false]
    exact (Buffer.decodes_removeBe (by norm_num) count.toNat_lt).bind_pure
  have taken := decodes 0 []
  rw [front, List.append_nil, UInt64.ofNat_toNat] at taken
  exact concludes_ok wellFormed rfl (Stateful.map_of_ok taken)

theorem concludes_text (opcode : UInt8) {data : Bytes} (short : data.length < 2 ^ 31) :
    Concludes Call.version.conclude (Response.make opcode 0 [] [] data 0).wire
      (.ok (.text data)) := by
  have wellFormed : (Response.make opcode 0 [] [] data 0).WellFormed :=
    Response.wellFormed_make opcode 0 0 (by simp) (by simp) (by simpa using short)
  have taken := decodes_body wellFormed 0 []
  rw [front, List.append_nil] at taken
  exact concludes_ok wellFormed rfl (Stateful.map_of_ok taken)

theorem readStats_entry (opcode : UInt8) {entry : Bytes × Bytes}
    (keyFits : entry.1.length < 2 ^ 16) (nonempty : entry.1 ++ entry.2 ≠ [])
    (small : entry.1.length + entry.2.length < 2 ^ 31) {stream : Stream} {rest sent : Bytes}
    (holds : stream.Holds []
      ((Response.make opcode 0 [] entry.1 entry.2 0).wire ++ rest) sent)
    (fuel : ℕ) (ret : List (Bytes × Bytes)) :
    ∃ after : Stream, after.Holds [] rest sent ∧
      readStats (fuel + 1) ret stream = readStats fuel (emplace ret entry.1 entry.2) after := by
  have stat : (Response.make opcode 0 [] entry.1 entry.2 0).IsStat :=
    { Response.wellFormed_make opcode 0 0 keyFits (by simp) (by simpa using small) with
      status := rfl
      noExtras := rfl
      nonempty := nonempty }
  have keySize : (Response.make opcode 0 [] entry.1 entry.2 0).header.keySize.toNat =
      entry.1.length :=
    UInt16.toNat_ofNat_of_lt' keyFits
  have valueSize := stat.valueSize
  rw [keySize, Response.make, List.nil_append, List.length_append, Nat.add_sub_cancel_left]
    at valueSize
  rcases readResponseHeader_ok stat.toWellFormed holds stat.status with ⟨received, held, ends⟩
  rw [Response.make, List.nil_append, ← List.append_nil (entry.1 ++ entry.2)] at held
  rcases held.decode (decodes_removeStat keySize valueSize small) with ⟨after, removes, heldAfter⟩
  refine ⟨after, heldAfter, ?_⟩
  rw [readStats, Stateful.bind_of_ok ends]
  simp only [stat.noExtras, ne_eq, not_true_eq_false, if_false, stat.bodySize_ne_zero]
  exact Stateful.bind_of_ok removes

/-- The loop of `stats` collects the entries up to the empty response. -/
theorem readStats_entries (opcode : UInt8) {entries : List (Bytes × Bytes)}
    (fit : (Reply.stats entries).Answers (.stats [])) {stream : Stream} {rest sent : Bytes}
    (holds : stream.Holds []
      (((Reply.stats entries).responses opcode).flatMap Response.wire ++ rest) sent)
    (fuel : ℕ) (enough : entries.length < fuel) (ret : List (Bytes × Bytes)) :
    ∃ after : Stream, after.Holds [] rest sent ∧ readStats fuel ret stream =
      .ok (entries.foldl (fun map entry => emplace map entry.1 entry.2) ret) after := by
  rcases Nat.exists_eq_add_of_lt (Nat.zero_lt_of_lt enough) with ⟨left, rfl⟩
  induction entries generalizing left ret stream with
  | nil =>
      have wellFormed : (Response.make opcode 0 [] [] [] 0).WellFormed :=
        Response.wellFormed_make opcode 0 0 (by simp) (by simp) (by simp)
      rw [Reply.responses, List.map_nil, List.nil_append, List.flatMap_singleton] at holds
      rcases readResponseHeader_ok wellFormed holds rfl with ⟨received, held, ends⟩
      exact ⟨received, held, (Stateful.bind_of_ok ends).trans rfl⟩
  | cons entry entries ih =>
      rcases fit entry List.mem_cons_self with ⟨keyFits, nonempty, small⟩
      rw [Reply.responses, List.map_cons, List.cons_append, List.flatMap_cons, List.append_assoc]
        at holds
      rcases readStats_entry opcode keyFits nonempty small holds (0 + left) ret with
        ⟨after, held, turn⟩
      rw [List.length_cons] at enough
      rcases Nat.exists_eq_add_of_lt (Nat.zero_lt_of_lt (Nat.lt_of_succ_lt_succ enough)) with
        ⟨fewer, same⟩
      rw [turn, same]
      exact ih (fun later mem => fit later (List.mem_cons_of_mem entry mem)) held _ fewer
        (by omega)

theorem concludes_stats (key : Option Bytes) (opcode : UInt8) {entries : List (Bytes × Bytes)}
    (fit : (Reply.stats entries).Answers (.stats [])) :
    Concludes (Call.stats key).conclude (((Reply.stats entries).responses opcode).flatMap
      Response.wire) (.ok (.stats (entries.foldl (fun map entry => emplace map entry.1 entry.2)
        []))) := by
  intro stream rest sent holds
  have length := Response.length_le_flatMap_wire ((Reply.stats entries).responses opcode)
  rw [Reply.responses, List.length_append, List.length_map, List.length_singleton] at length
  have enough : entries.length < stream.socket.incoming.length + 1 := by
    rw [holds.incoming_eq, List.length_append, Reply.responses]
    omega
  rcases readStats_entries opcode fit holds _ enough [] with ⟨after, held, reads⟩
  refine ⟨after, held, ?_⟩
  have returned : (fun stream : Stream => readStats (stream.socket.incoming.length + 1) [] stream)
      stream = _ := reads
  exact Stateful.map_of_ok returned

theorem concludes_stats_error (key : Option Bytes) (opcode : UInt8) {status : UInt16}
    {message : Bytes} (isError : status ≠ ResponseStatus.ok.code)
    (short : message.length < 2 ^ 31) :
    Concludes (Call.stats key).conclude (Response.make opcode status [] [] message 0).wire
      (.error (serverError status message)) := by
  have wellFormed : (Response.make opcode status [] [] message 0).WellFormed :=
    Response.wellFormed_make opcode status 0 (by simp) (by simp) (by simpa using short)
  intro stream rest sent holds
  rcases readResponseHeader_raises wellFormed holds isError ⟨isError, isError⟩ with
    ⟨after, held, raises⟩
  have failed : (fun stream : Stream => readStats (stream.socket.incoming.length + 1) [] stream)
      stream = .error (.raised (serverError status message)) after :=
    Stateful.bind_of_error raises
  exact ⟨after, held, Stateful.map_of_error failed⟩

/-- A call ends with the reply of the store when it receives the responses that transport it. -/
theorem concludes_reply {call : Call} {reply : Reply} (answers : reply.Answers call.operation)
    {ending : Except Exception Outcome} (concluded : call.concluded reply = some ending)
    (opcode : UInt8) :
    Concludes call.conclude ((reply.responses opcode).flatMap Response.wire) ending := by
  cases reply with
  | error status message =>
      cases concluded
      rw [Reply.responses, List.flatMap_singleton]
      by_cases isStats : ∃ key, call = .stats key
      · rcases isStats with ⟨key, rfl⟩
        have unexpected : ¬(status = (Call.stats key).expectedErrors.1 ∨
            status = (Call.stats key).expectedErrors.2) :=
          not_or.mpr ⟨answers.1, answers.1⟩
        rw [if_neg unexpected]
        exact concludes_stats_error key opcode answers.1 answers.2
      · have notStats := fun key same => isStats ⟨key, same⟩
        exact concludes_error notStats opcode answers.1 answers.2
  | done cas =>
      rcases Option.map_eq_some_iff.mp concluded with ⟨outcome, granted, rfl⟩
      rw [Reply.responses, List.flatMap_singleton]
      exact concludes_done opcode cas granted
  | value flags data cas =>
      rcases Option.map_eq_some_iff.mp concluded with ⟨outcome, granted, rfl⟩
      rw [Reply.responses, List.flatMap_singleton]
      cases call with
      | get key expirationSecs =>
          cases granted
          exact concludes_value key expirationSecs opcode flags cas answers
      | _ => cases granted
  | number count cas =>
      rcases Option.map_eq_some_iff.mp concluded with ⟨outcome, granted, rfl⟩
      rw [Reply.responses, List.flatMap_singleton]
      cases call with
      | increment key delta initialValue expirationSecs decrement =>
          cases granted
          exact concludes_number key delta initialValue expirationSecs decrement opcode count cas
      | _ => cases granted
  | text data =>
      rcases Option.map_eq_some_iff.mp concluded with ⟨outcome, granted, rfl⟩
      rw [Reply.responses, List.flatMap_singleton]
      cases call with
      | version =>
          cases granted
          exact concludes_text opcode answers
      | _ => cases granted
  | stats entries =>
      rcases Option.map_eq_some_iff.mp concluded with ⟨outcome, granted, rfl⟩
      cases call with
      | stats key =>
          cases granted
          exact concludes_stats key opcode answers
      | _ => cases granted

/-- Every answer to the operation of a call concludes the call. -/
theorem exists_concluded {call : Call} {reply : Reply} (answers : reply.Answers call.operation) :
    ∃ ending, call.concluded reply = some ending := by
  cases reply with
  | error status message => exact ⟨_, rfl⟩
  | _ =>
      cases call with
      | _ =>
          first
          | exact ⟨_, rfl⟩
          | exact answers.elim

end Call

namespace Store

open Call Client

variable {State : Type}

theorem written_eq (call : Call) {client : Client} (receives : client.Receives []) :
    call.written client = call.request.wire := by
  rcases receives with ⟨socket, isOpen, _, healthy⟩
  rw [written, Call.sent_run call isOpen fun number => (healthy number).2]
  exact List.drop_left

theorem remote_simulates (store : Store State) :
    Machine.Simulates store.remote store.direct Remote.Serves
      (fun call => call.request.Representable) := by
  rintro ⟨state, client⟩ _ call outcome next ⟨rfl, receives⟩ representable answered
  rcases Option.map_eq_some_iff.mp answered with ⟨ending, concluded, same⟩
  cases same
  have concludes := concludes_reply (store.answers state call.operation) concluded
    call.request.opcode
  have arrived := receives_deliver receives
    (((store.apply state call.operation).1.responses call.request.opcode).flatMap Response.wire)
  rcases command_concludes call.appends_fill call.request.wire_ne_nil concludes arrived with
    ⟨after, unread, ends⟩
  rw [← perform_eq] at ends
  refine ⟨⟨_, after⟩, ?_, rfl, unread⟩
  simp only [remote, written_eq call receives, Request.parse_wire call.extras_length representable,
    Operation.decode_request, Option.bind_some, ends]
  cases outcome with
  | ok value => rfl
  | error exception => rfl

theorem exists_direct (store : Store State) (state : State) (call : Call) :
    ∃ outcome next, store.direct state call = some (outcome, next) := by
  rcases exists_concluded (store.answers state call.operation) with ⟨ending, concluded⟩
  refine ⟨ending, (store.apply state call.operation).2, ?_⟩
  rw [direct, concluded, Option.map_some]

/-- Any sequence of calls has the same results on the store itself and over a connection to it,
and nothing is left unread. -/
theorem remote_run (store : Store State) (state : State) {client : Client}
    (receives : client.Receives []) {calls : List Call}
    (representable : ∀ call ∈ calls, call.request.Representable) :
    ∃ outcomes final after, Machine.run store.direct state calls = some (outcomes, final) ∧
      Machine.run store.remote ⟨state, client⟩ calls = some (outcomes, ⟨final, after⟩) ∧
      after.Receives [] := by
  rcases Machine.exists_run store.exists_direct state calls with ⟨outcomes, final, onStore⟩
  have start : Remote.Serves ⟨state, client⟩ state := ⟨rfl, receives⟩
  rcases (remote_simulates store).run start representable onStore with
    ⟨⟨last, after⟩, remotely, rfl, unread⟩
  exact ⟨outcomes, last, after, onStore, remotely, unread⟩

end Store

end EventAsync.Memcache
