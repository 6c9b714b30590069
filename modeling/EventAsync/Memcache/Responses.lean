import EventAsync.Memcache.Requests

/-!
# The responses to the memcache client

A response is a header and a body of the size that the header announces.  All
commands read the whole body before they look at its parts, so whatever they
make of it, exactly the response has been taken from the connection when they
end.  `stats` reads entries in this way until the server ends them.
-/

namespace EventAsync.Memcache

open ByteCodec Decoding

/-- A response as the server sends it. -/
structure Response where
  header : CommandHeader
  body : Bytes

namespace Response

def wire (response : Response) : Bytes :=
  response.header.wire ++ response.body

theorem length_le_flatMap_wire (responses : List Response) :
    responses.length ≤ (responses.flatMap wire).length := by
  induction responses with
  | nil => simp
  | cons response responses ih =>
      rw [List.flatMap_cons, List.length_cons, List.length_append, wire, List.length_append,
        CommandHeader.length_wire]
      omega

structure WellFormed (response : Response) : Prop where
  magic : response.header.magic = 0x81
  bodySize : response.header.bodySize.toNat = response.body.length
  small : response.body.length < 2 ^ 31
  parts : response.header.extrasSize.toNat + response.header.keySize.toNat ≤ response.body.length

/-- The exception by which an error that a command does not expect is raised. -/
def serverError (response : Response) : Exception :=
  .runtimeError ("server sent error " ++ toString response.header.status.toNat ++ ": ")
    (response.body.takeWhile (· ≠ 0))

/-- What a response to `get` encodes: flags in the extras, and the value after them. -/
def got (response : Response) : GetResult where
  value := response.body.drop 4
  cas := response.header.cas
  flags := .ofNat (beNat (response.body.take 4))
  keyFound := true

end Response

/-- The computation did not end by running out of fuel or by an undefined operation. -/
def Settled {State Result : Type} : EStateM.Result Stop State Result → Prop
  | .ok _ _ => True
  | .error stop _ => ∃ exception, stop = .raised exception

/-- Whatever the state, the computation returns or raises. -/
def AlwaysSettles {State Result : Type} (action : EStateM Stop State Result) : Prop :=
  ∀ state, Settled (action state)

namespace AlwaysSettles

variable {State Result Next : Type}

theorem pure (result : Result) : AlwaysSettles (Pure.pure result : EStateM Stop State Result) :=
  fun _ => trivial

theorem throw (exception : Exception) :
    AlwaysSettles (throw (.raised exception) : EStateM Stop State Result) :=
  fun _ => ⟨exception, rfl⟩

theorem bind {action : EStateM Stop State Result} {next : Result → EStateM Stop State Next}
    (first : AlwaysSettles action) (second : ∀ result, AlwaysSettles (next result)) :
    AlwaysSettles (action >>= next) := by
  intro state
  have settled := first state
  cases ends : action state with
  | ok result after =>
      rw [Stateful.bind_of_ok ends]
      exact second result after
  | error stop after =>
      rw [ends] at settled
      rw [Stateful.bind_of_error ends]
      exact settled

end AlwaysSettles

namespace Client

open Buffer

theorem alwaysSettles_remove (size : ℕ) : AlwaysSettles (remove size) := by
  intro buf
  simp only [remove]
  split
  · exact ⟨_, rfl⟩
  · split
    · exact ⟨_, rfl⟩
    · trivial

theorem alwaysSettles_removeString (size : ℕ) : AlwaysSettles (removeString size) := by
  simp only [removeString]
  split
  · exact (AlwaysSettles.throw _).bind fun _ => alwaysSettles_remove size
  · exact alwaysSettles_remove size

theorem alwaysSettles_getResult (header : CommandHeader) : AlwaysSettles (getResult header) := by
  simp only [getResult]
  split
  · exact AlwaysSettles.pure _
  · split
    · exact AlwaysSettles.throw _
    · refine ((alwaysSettles_remove 4).bind fun _ => AlwaysSettles.pure _).bind fun flags => ?_
      refine (alwaysSettles_removeString _).bind fun data => ?_
      exact AlwaysSettles.pure _

theorem alwaysSettles_emptyBodyResult (message : String) (header : CommandHeader) :
    AlwaysSettles (emptyBodyResult message header) := by
  simp only [emptyBodyResult]
  split
  · exact AlwaysSettles.pure _
  · split
    · exact AlwaysSettles.throw _
    · exact AlwaysSettles.pure _

theorem alwaysSettles_incrementResult (header : CommandHeader) :
    AlwaysSettles (incrementResult header) := by
  simp only [incrementResult]
  split
  · exact AlwaysSettles.throw _
  · split
    · exact AlwaysSettles.throw _
    · refine ((alwaysSettles_remove 8).bind fun _ => AlwaysSettles.pure _).bind fun value => ?_
      exact AlwaysSettles.pure _

variable {stream : Stream} {response : Response} {rest sent : Bytes} {code1 code2 : UInt16}

theorem decodes_removeHeader (header : CommandHeader) :
    Decodes front removeHeader header.wire (.ofMemory header.wire) :=
  (decodes_remove header.length_wire (by norm_num)).bind_pure

/-- The header and the whole body are read before the status is looked at. -/
theorem readResponseHeader_eq (wellFormed : response.WellFormed)
    (holds : stream.Holds [] (response.wire ++ rest) sent) :
    ∃ received : Stream, received.Holds response.body rest sent ∧
      readResponseHeader code1 code2 stream =
        (do checkStatus response.header code1 code2; return response.header : StreamM CommandHeader)
          received := by
  rw [Response.wire, List.append_assoc] at holds
  rcases readTo_chunk holds response.header.length_wire (by norm_num) with
    ⟨headerRead, readHeader, heldHeader⟩
  rw [← List.append_nil response.header.wire] at heldHeader
  rcases heldHeader.decode (decodes_removeHeader response.header) with
    ⟨removed, removes, heldRemoved⟩
  rcases readTo_chunk heldRemoved wellFormed.bodySize.symm (by
    rw [wellFormed.bodySize]
    exact wellFormed.small) with ⟨received, readBody, heldBody⟩
  refine ⟨received, heldBody, ?_⟩
  have isResponse : (CommandHeader.ofMemory response.header.wire).magic = 0x81 :=
    (congrArg CommandHeader.magic
      (CommandHeader.byteswap_ofMemory_wire response.header)).trans wellFormed.magic
  rw [readResponseHeader, Stateful.bind_of_ok readHeader, Stateful.bind_of_ok removes]
  simp only [isResponse, ne_eq, not_true_eq_false, if_false,
    CommandHeader.byteswap_ofMemory_wire]
  rw [Stateful.bind_of_ok readBody]

theorem decodes_body (wellFormed : response.WellFormed) :
    Decodes front (removeString response.header.bodySize.toNat) response.body response.body := by
  rw [wellFormed.bodySize]
  exact decodes_removeString wellFormed.small

/-- A successful response is in the buffer when its header is returned. -/
theorem readResponseHeader_ok (wellFormed : response.WellFormed)
    (holds : stream.Holds [] (response.wire ++ rest) sent)
    (status : response.header.status = ResponseStatus.ok.code) :
    ∃ received : Stream, received.Holds response.body rest sent ∧
      readResponseHeader code1 code2 stream = .ok response.header received := by
  rcases readResponseHeader_eq wellFormed holds with ⟨received, held, ends⟩
  refine ⟨received, held, ends.trans ?_⟩
  have checked : checkStatus response.header code1 code2 = Pure.pure () := by
    simp only [checkStatus, status, if_true]
  rw [checked]
  rfl

/-- An error that is not expected is raised after its message has been taken. -/
theorem readResponseHeader_raises (wellFormed : response.WellFormed)
    (holds : stream.Holds [] (response.wire ++ rest) sent)
    (status : response.header.status ≠ ResponseStatus.ok.code)
    (unexpected : response.header.status ≠ code1 ∧ response.header.status ≠ code2) :
    ∃ after : Stream, after.Holds [] rest sent ∧
      readResponseHeader code1 code2 stream = .error (.raised response.serverError) after := by
  rcases readResponseHeader_eq wellFormed holds with ⟨received, held, ends⟩
  have drained : removeString response.header.bodySize.toNat response.body =
      .ok response.body [] := by
    have decoded := decodes_body wellFormed 0 []
    rwa [front, List.append_nil] at decoded
  have raised : checkStatus response.header code1 code2 response.body =
      .error (.raised response.serverError) [] := by
    simp only [checkStatus, status, if_false, unexpected, ne_eq, not_false_eq_true, and_self,
      if_true]
    rw [Stateful.bind_of_ok drained]
    rfl
  refine ⟨{ received with buf := [] }, ?_, ends.trans ?_⟩
  · exact ⟨rfl, held.incoming_eq, held.sent_eq, held.healthy⟩
  · apply Stateful.bind_of_error
    apply Stateful.zoom_of_error
    rw [held.buf_eq]
    exact raised

/-- The message of an expected error is skipped. -/
theorem readResponseHeader_expected (wellFormed : response.WellFormed)
    (holds : stream.Holds [] (response.wire ++ rest) sent)
    (status : response.header.status ≠ ResponseStatus.ok.code)
    (expected : ¬(response.header.status ≠ code1 ∧ response.header.status ≠ code2)) :
    ∃ after : Stream, after.Holds [] rest sent ∧
      readResponseHeader code1 code2 stream = .ok response.header after := by
  rcases readResponseHeader_eq wellFormed holds with ⟨received, held, ends⟩
  have skipped : checkStatus response.header code1 code2 response.body = .ok () [] := by
    simp only [checkStatus, status, if_false, expected, drain, wellFormed.bodySize,
      List.drop_length]
  refine ⟨{ received with buf := [] }, ?_, ends.trans ?_⟩
  · exact ⟨rfl, held.incoming_eq, held.sent_eq, held.healthy⟩
  · have lifted : (liftM (checkStatus response.header code1 code2) : StreamM Unit) received =
        .ok () { received with buf := [] } := by
      apply Stateful.zoom_of_ok
      rw [held.buf_eq]
      exact skipped
    rw [Stateful.bind_of_ok lifted]
    rfl

variable {Result : Type}

/-- The computation returns or raises, and takes exactly the given bytes from the connection. -/
def Consumes (action : StreamM Result) (bytes : Bytes) : Prop :=
  ∀ stream rest sent, Stream.Holds stream [] (bytes ++ rest) sent →
    Settled (action stream) ∧
      ∃ buf, (Stateful.endState (action stream)).Holds buf rest sent

theorem consumes_discard {action : StreamM Result} {bytes : Bytes}
    (consumes : Consumes action bytes) : Consumes (discard action) bytes := by
  intro stream rest sent holds
  have consumed := consumes stream rest sent holds
  rw [Stateful.discard_eq_bind]
  cases ends : action stream with
  | ok result after =>
      rw [ends] at consumed
      rw [Stateful.bind_of_ok ends]
      exact consumed
  | error stop after =>
      rw [ends] at consumed
      rw [Stateful.bind_of_error ends]
      exact consumed

/-- What is done with the buffer alone takes nothing from the connection. -/
theorem settled_lift {action : BufferM Result} (settles : AlwaysSettles action) {buf : Bytes}
    (holds : stream.Holds buf rest sent) :
    Settled ((liftM action : StreamM Result) stream) ∧
      ∃ left,
        (Stateful.endState ((liftM action : StreamM Result) stream)).Holds left rest sent := by
  have settled := settles stream.buf
  cases ends : action stream.buf with
  | ok result left =>
      have lifted : (liftM action : StreamM Result) stream =
          .ok result { stream with buf := left } :=
        Stateful.zoom_of_ok ends
      rw [lifted]
      exact ⟨trivial, left, rfl, holds.incoming_eq, holds.sent_eq, holds.healthy⟩
  | error stop left =>
      have lifted : (liftM action : StreamM Result) stream =
          .error stop { stream with buf := left } :=
        Stateful.zoom_of_error ends
      rw [lifted]
      rw [ends] at settled
      exact ⟨settled, left, rfl, holds.incoming_eq, holds.sent_eq, holds.healthy⟩

theorem consumes_oneResponse (wellFormed : response.WellFormed)
    {result : CommandHeader → BufferM Result} (settles : ∀ header, AlwaysSettles (result header)) :
    Consumes (oneResponse code1 code2 result) response.wire := by
  intro stream rest sent holds
  rw [oneResponse]
  by_cases status : response.header.status = ResponseStatus.ok.code
  · rcases readResponseHeader_ok wellFormed holds status with ⟨received, held, ends⟩
    rw [Stateful.bind_of_ok ends]
    exact settled_lift (settles response.header) held
  · by_cases unexpected : response.header.status ≠ code1 ∧ response.header.status ≠ code2
    · rcases readResponseHeader_raises wellFormed holds status unexpected with
        ⟨after, held, ends⟩
      rw [Stateful.bind_of_error ends]
      exact ⟨⟨_, rfl⟩, [], held⟩
    · rcases readResponseHeader_expected wellFormed holds status unexpected with
        ⟨received, held, ends⟩
      rw [Stateful.bind_of_ok ends]
      exact settled_lift (settles response.header) held

end Client

namespace Response

/-- An entry of the statistics. -/
structure IsStat (response : Response) : Prop extends response.WellFormed where
  status : response.header.status = ResponseStatus.ok.code
  noExtras : response.header.extrasSize = 0
  nonempty : response.body ≠ []

/-- A response that ends the statistics. -/
structure EndsStats (response : Response) : Prop extends response.WellFormed where
  ends : response.body = [] ∨ response.header.status ≠ ResponseStatus.ok.code

theorem IsStat.bodySize_ne_zero {response : Response} (stat : response.IsStat) :
    response.header.bodySize ≠ 0 := by
  intro zero
  have length := stat.bodySize
  rw [zero] at length
  exact stat.nonempty (List.length_eq_zero_iff.mp length.symm)

/-- The sizes of an entry cover its body. -/
theorem IsStat.valueSize {response : Response} (stat : response.IsStat) :
    (response.header.bodySize - response.header.keySize.toUInt32).toNat =
      response.body.length - response.header.keySize.toNat := by
  have within := stat.parts
  rw [stat.noExtras, ← stat.bodySize] at within
  have le : response.header.keySize.toUInt32 ≤ response.header.bodySize := by
    rw [UInt32.le_iff_toNat_le, UInt16.toNat_toUInt32]
    exact le_of_add_le_right within
  rw [UInt32.toNat_sub_of_le _ _ le, UInt16.toNat_toUInt32, stat.bodySize]

end Response

namespace Client

open Buffer

variable {stream : Stream} {response : Response} {rest sent : Bytes}

theorem decodes_removeStat {header : CommandHeader} {key value : Bytes}
    (keySize : header.keySize.toNat = key.length)
    (valueSize : (header.bodySize - header.keySize.toUInt32).toNat = value.length)
    (small : key.length + value.length < 2 ^ 31) :
    Decodes front (removeStat header) (key ++ value) (key, value) := by
  rw [removeStat, keySize, valueSize]
  refine Decodes.bind (decodes_removeString (by omega)) ?_
  exact Decodes.bind_pure (decodes_removeString (by omega))

/-- An entry is taken from the buffer as a whole. -/
theorem removeStat_of_isStat (stat : response.IsStat) :
    ∃ entry, removeStat response.header response.body = .ok entry [] := by
  have within := stat.parts
  have small := stat.small
  have keySize : response.header.keySize.toNat =
      (response.body.take response.header.keySize.toNat).length := by
    rw [List.length_take]
    omega
  have valueSize : (response.header.bodySize - response.header.keySize.toUInt32).toNat =
      (response.body.drop response.header.keySize.toNat).length := by
    rw [List.length_drop, stat.valueSize]
  have total : (response.body.take response.header.keySize.toNat).length +
      (response.body.drop response.header.keySize.toNat).length < 2 ^ 31 := by
    rwa [← List.length_append, List.take_append_drop]
  have decoded := decodes_removeStat keySize valueSize total 0 []
  rw [List.take_append_drop, front, List.append_nil] at decoded
  exact ⟨_, decoded⟩

/-- One turn of the loop of `stats` on an entry. -/
theorem readStats_stat (stat : response.IsStat) (fuel : ℕ) (ret : List (Bytes × Bytes))
    (holds : stream.Holds [] (response.wire ++ rest) sent) :
    ∃ next, ∃ after : Stream, after.Holds [] rest sent ∧
      readStats (fuel + 1) ret stream = readStats fuel next after := by
  rcases readResponseHeader_ok stat.toWellFormed holds stat.status with ⟨received, held, ends⟩
  rcases removeStat_of_isStat stat with ⟨entry, removes⟩
  refine ⟨emplace ret entry.1 entry.2, { received with buf := [] }, ?_, ?_⟩
  · exact ⟨rfl, held.incoming_eq, held.sent_eq, held.healthy⟩
  · have lifted : (liftM (removeStat response.header) : StreamM (Bytes × Bytes)) received =
        .ok entry { received with buf := [] } := by
      apply Stateful.zoom_of_ok
      rw [held.buf_eq]
      exact removes
    rw [readStats, Stateful.bind_of_ok ends]
    simp only [stat.noExtras, ne_eq, not_true_eq_false, if_false, stat.bodySize_ne_zero]
    rw [Stateful.bind_of_ok lifted]

/-- The loop of `stats` ends with the response that ends the statistics. -/
theorem readStats_end (last : response.EndsStats) (fuel : ℕ) (ret : List (Bytes × Bytes))
    (holds : stream.Holds [] (response.wire ++ rest) sent) :
    Settled (readStats (fuel + 1) ret stream) ∧
      ∃ buf, (Stateful.endState (readStats (fuel + 1) ret stream)).Holds buf rest sent := by
  rw [readStats]
  by_cases status : response.header.status = ResponseStatus.ok.code
  · rcases readResponseHeader_ok last.toWellFormed holds status with ⟨received, held, ends⟩
    rw [Stateful.bind_of_ok ends]
    split
    · exact ⟨⟨_, rfl⟩, _, held⟩
    · have empty : response.body = [] := last.ends.resolve_right (not_not.mpr status)
      have zero : response.header.bodySize = 0 := by
        rw [← UInt32.toNat_inj, last.bodySize, empty]
        rfl
      rw [if_pos zero]
      exact ⟨trivial, _, held⟩
  · have unexpected : response.header.status ≠ 0 ∧ response.header.status ≠ 0 := ⟨status, status⟩
    rcases readResponseHeader_raises last.toWellFormed holds status unexpected with
      ⟨after, held, ends⟩
    rw [Stateful.bind_of_error ends]
    exact ⟨⟨_, rfl⟩, [], held⟩

/-- The loop of `stats` takes any number of entries and the response that ends them. -/
theorem readStats_consumes {entries : List Response} {last : Response}
    (stats : ∀ entry ∈ entries, entry.IsStat) (ends : last.EndsStats) (fuel : ℕ)
    (enough : entries.length < fuel) (ret : List (Bytes × Bytes))
    (holds : stream.Holds [] (entries.flatMap Response.wire ++ (last.wire ++ rest)) sent) :
    Settled (readStats fuel ret stream) ∧
      ∃ buf, (Stateful.endState (readStats fuel ret stream)).Holds buf rest sent := by
  induction entries generalizing fuel ret stream with
  | nil =>
      rcases Nat.exists_eq_add_of_lt enough with ⟨left, rfl⟩
      exact readStats_end ends _ ret holds
  | cons entry entries ih =>
      rcases Nat.exists_eq_add_of_lt (Nat.zero_lt_of_lt enough) with ⟨left, rfl⟩
      rw [List.flatMap_cons, List.append_assoc] at holds
      rcases readStats_stat (stats entry (List.mem_cons_self ..)) (0 + left) ret holds with
        ⟨next, after, held, turn⟩
      rw [turn]
      rw [List.length_cons] at enough
      exact ih (fun later mem => stats later (List.mem_cons_of_mem entry mem)) _ (by omega) next
        held

end Client

/-- A call and the responses of the server to it. -/
structure Exchange where
  call : Call
  responses : List Response

namespace Exchange

def wire (exchange : Exchange) : Bytes :=
  exchange.responses.flatMap Response.wire

/-- `stats` is answered by entries and a response that ends them, other calls by one response. -/
def WellFormed (exchange : Exchange) : Prop :=
  match exchange.call with
  | .stats _ => ∃ entries last, exchange.responses = entries ++ [last] ∧
      (∀ entry ∈ entries, entry.IsStat) ∧ last.EndsStats
  | _ => ∃ response, exchange.responses = [response] ∧ response.WellFormed

open Client

theorem consumes_stats {entries : List Response} {last : Response}
    (stats : ∀ entry ∈ entries, entry.IsStat) (ends : last.EndsStats) (key : Option Bytes) :
    Consumes (Call.stats key).receive ((entries ++ [last]).flatMap Response.wire) := by
  apply consumes_discard
  intro stream rest sent holds
  have length := Response.length_le_flatMap_wire (entries ++ [last])
  rw [List.length_append, List.length_singleton] at length
  have enough : entries.length < stream.socket.incoming.length + 1 := by
    rw [holds.incoming_eq, List.length_append]
    omega
  rw [List.flatMap_append, List.flatMap_singleton, List.append_assoc] at holds
  exact readStats_consumes stats ends _ enough [] holds

/-- A call other than `stats` takes its response from the connection, however it ends. -/
theorem consumes_response {call : Call} (notStats : ∀ key, call ≠ .stats key)
    {response : Response} (wellFormed : response.WellFormed) :
    Consumes call.receive response.wire := by
  cases call with
  | stats key => exact absurd rfl (notStats key)
  | get key expirationSecs =>
      exact consumes_discard (consumes_oneResponse wellFormed alwaysSettles_getResult)
  | increment key delta initialValue expirationSecs decrement =>
      exact consumes_discard (consumes_oneResponse wellFormed alwaysSettles_incrementResult)
  | version =>
      exact consumes_discard (consumes_oneResponse wellFormed fun header =>
        alwaysSettles_removeString header.bodySize.toNat)
  | noop startUsecs endUsecs =>
      exact consumes_discard (consumes_oneResponse wellFormed fun _ => AlwaysSettles.pure _)
  | append key value prepend =>
      exact consumes_oneResponse wellFormed fun _ => AlwaysSettles.pure ()
  | flush expirationSecs => exact consumes_oneResponse wellFormed fun _ => AlwaysSettles.pure ()
  | touch key expirationSecs =>
      exact consumes_oneResponse wellFormed fun _ => AlwaysSettles.pure ()
  | _ =>
      exact consumes_discard (consumes_oneResponse wellFormed (alwaysSettles_emptyBodyResult _))

/-- Every call takes its own responses from the connection, however it ends. -/
theorem consumes_receive {exchange : Exchange} (wellFormed : exchange.WellFormed) :
    Consumes exchange.call.receive exchange.wire := by
  simp only [WellFormed] at wellFormed
  rw [wire]
  split at wellFormed
  case h_1 key isStats =>
    rcases wellFormed with ⟨entries, last, responses, stats, ends⟩
    rw [isStats, responses]
    exact consumes_stats stats ends key
  case h_2 notStats =>
    rcases wellFormed with ⟨response, responses, wellFormed⟩
    rw [responses, List.flatMap_singleton]
    exact consumes_response notStats wellFormed

end Exchange

/-- The client has a connection over which the given bytes can be read without failure. -/
def Client.Receives (client : Client) (incoming : Bytes) : Prop :=
  ∃ socket, client.fd = some socket ∧ socket.incoming = incoming ∧ socket.Healthy

namespace Client

open Buffer

variable {client : Client} {incoming : Bytes}

/-- Once the request of a command has been written, its response is read into an empty buffer. -/
theorem exists_written {Result : Type} (receives : client.Receives incoming)
    {request : BufferM Unit} {bytes : Bytes} (appends : Appends request bytes)
    (nonempty : bytes ≠ []) (response : StreamM Result) :
    ∃ sent, ∃ after : Stream, after.Holds [] incoming sent ∧
      command request response client = client.leave (response after) := by
  rcases receives with ⟨socket, isOpen, unread, healthy⟩
  have holds : Stream.Holds ⟨bytes, socket⟩ bytes incoming socket.sent :=
    ⟨rfl, unread, rfl, healthy⟩
  rcases write_whole holds nonempty with ⟨after, wrote, held⟩
  exact ⟨_, after, held, command_of_written isOpen appends wrote⟩

theorem settled_leave {Result : Type} (client : Client)
    {ending : EStateM.Result Stop Stream Result} (settled : Settled ending) :
    Settled (client.leave ending) := by
  cases ending with
  | ok result after => trivial
  | error stop after => exact settled

theorem receives_leave {Result : Type} (client : Client)
    {ending : EStateM.Result Stop Stream Result} {buf sent : Bytes}
    (holds : (Stateful.endState ending).Holds buf incoming sent) :
    (Stateful.endState (client.leave ending)).Receives incoming := by
  cases ending with
  | ok result after => exact ⟨after.socket, rfl, holds.incoming_eq, holds.healthy⟩
  | error stop after => exact ⟨after.socket, rfl, holds.incoming_eq, holds.healthy⟩

/-- A call ends with its own responses taken from the connection. -/
theorem run_aligned {exchange : Exchange} (wellFormed : exchange.WellFormed) {following : Bytes}
    (receives : client.Receives (exchange.wire ++ following)) :
    Settled (exchange.call.run client) ∧
      (Stateful.endState (exchange.call.run client)).Receives following := by
  rcases exists_written receives exchange.call.appends_fill exchange.call.request.wire_ne_nil
    exchange.call.receive with ⟨sent, after, held, ends⟩
  rcases Exchange.consumes_receive wellFormed after following sent held with
    ⟨settled, buf, heldAfter⟩
  rw [Call.run_eq, ends]
  exact ⟨settled_leave client settled, receives_leave client heldAfter⟩

/-- The client after a sequence of calls. -/
def performed (client : Client) (exchanges : List Exchange) : Client :=
  exchanges.foldl (fun client exchange => Stateful.endState (exchange.call.run client)) client

theorem performed_receives {exchanges : List Exchange} {following : Bytes}
    (wellFormed : ∀ exchange ∈ exchanges, exchange.WellFormed)
    (receives : client.Receives (exchanges.flatMap Exchange.wire ++ following)) :
    (client.performed exchanges).Receives following := by
  induction exchanges generalizing client with
  | nil => exact receives
  | cons exchange exchanges ih =>
      rw [List.flatMap_cons, List.append_assoc] at receives
      apply ih
      · intro later mem
        exact wellFormed later (List.mem_cons_of_mem exchange mem)
      · exact (run_aligned (wellFormed exchange (List.mem_cons_self ..)) receives).2

theorem decodes_getResult {header : CommandHeader} {flags value : Bytes}
    (status : header.status = 0) (extrasSize : header.extrasSize = 4)
    (valueSize : (header.bodySize - header.extrasSize.toUInt32).toNat = value.length)
    (flagsSize : flags.length = 4) (small : value.length < 2 ^ 31) :
    Decodes front (getResult header) (flags ++ value)
      { value := value, cas := header.cas, flags := .ofNat (beNat flags), keyFound := true } := by
  have found : ¬header.status ≠ 0 := not_not.mpr status
  have hasFlags : ¬header.extrasSize ≠ 4 := not_not.mpr extrasSize
  simp only [getResult, found, hasFlags, if_false, valueSize]
  refine Decodes.bind ?_ (Decodes.bind_pure (decodes_removeString small))
  exact (decodes_remove flagsSize (by norm_num)).bind_pure

theorem getResult_ok {response : Response} (wellFormed : response.WellFormed)
    (status : response.header.status = ResponseStatus.ok.code)
    (extrasSize : response.header.extrasSize = 4) :
    getResult response.header response.body = .ok response.got [] := by
  have within := wellFormed.parts
  have small := wellFormed.small
  have four : response.header.extrasSize.toNat = 4 := congrArg UInt8.toNat extrasSize
  have le : response.header.extrasSize.toUInt32 ≤ response.header.bodySize := by
    rw [UInt32.le_iff_toNat_le, UInt8.toNat_toUInt32, wellFormed.bodySize]
    omega
  have valueSize : (response.header.bodySize - response.header.extrasSize.toUInt32).toNat =
      (response.body.drop 4).length := by
    rw [UInt32.toNat_sub_of_le _ _ le, UInt8.toNat_toUInt32, wellFormed.bodySize, four,
      List.length_drop]
  have flagsSize : (response.body.take 4).length = 4 := by
    rw [List.length_take]
    omega
  have smallValue : (response.body.drop 4).length < 2 ^ 31 := by
    rw [List.length_drop]
    omega
  have decoded := decodes_getResult status extrasSize valueSize flagsSize smallValue 0 []
  rwa [List.take_append_drop, front, List.append_nil] at decoded

/-- A successful response to `get` is returned as what it encodes. -/
theorem get_returns {response : Response} (wellFormed : response.WellFormed)
    (status : response.header.status = ResponseStatus.ok.code)
    (extrasSize : response.header.extrasSize = 4) {following : Bytes}
    (receives : client.Receives (response.wire ++ following)) (key : Bytes)
    (expirationSecs : UInt32) :
    ∃ after, Client.get key expirationSecs client = .ok response.got after := by
  rcases exists_written receives (Call.get key expirationSecs).appends_fill
    (Call.get key expirationSecs).request.wire_ne_nil
    (oneResponse ResponseStatus.keyNotFound.code 0 getResult) with ⟨sent, after, held, ends⟩
  rcases readResponseHeader_ok wellFormed held status with ⟨received, heldBody, reads⟩
  have taken : (liftM (getResult response.header) : StreamM GetResult) received =
      .ok response.got { received with buf := [] } := by
    apply Stateful.zoom_of_ok
    rw [heldBody.buf_eq]
    exact getResult_ok wellFormed status extrasSize
  refine ⟨{ client with fd := some received.socket }, ends.trans ?_⟩
  rw [oneResponse, Stateful.bind_of_ok reads, taken]
  rfl

/-- At every point of a sequence of calls on one connection, what is unread are the responses to
the calls that follow; and `get` returns what its response encodes. -/
theorem responses_aligned {exchanges : List Exchange} {following : Bytes}
    (receives : client.Receives (exchanges.flatMap Exchange.wire ++ following))
    (wellFormed : ∀ exchange ∈ exchanges, exchange.WellFormed)
    {earlier later : List Exchange} {exchange : Exchange}
    (split : exchanges = earlier ++ exchange :: later) :
    (client.performed earlier).Receives
        (exchange.wire ++ (later.flatMap Exchange.wire ++ following)) ∧
      Settled (exchange.call.run (client.performed earlier)) ∧
      (Stateful.endState (exchange.call.run (client.performed earlier))).Receives
        (later.flatMap Exchange.wire ++ following) ∧
      ∀ key expirationSecs response,
        exchange = ⟨.get key expirationSecs, [response]⟩ →
        response.header.status = ResponseStatus.ok.code → response.header.extrasSize = 4 →
        response.header.keySize = 0 →
        ∃ after, Client.get key expirationSecs (client.performed earlier) =
          .ok response.got after := by
  subst split
  rw [List.flatMap_append, List.flatMap_cons, List.append_assoc, List.append_assoc] at receives
  have unread := performed_receives
    (fun exchange mem => wellFormed exchange (List.mem_append_left _ mem)) receives
  have expected : exchange.WellFormed := wellFormed exchange (by simp)
  have aligned := run_aligned expected unread
  refine ⟨unread, aligned.1, aligned.2, ?_⟩
  rintro key expirationSecs response rfl status extrasSize _
  rcases expected with ⟨_, single, wellFormedResponse⟩
  cases single
  rw [Exchange.wire, List.flatMap_singleton] at unread
  exact get_returns wellFormedResponse status extrasSize unread key expirationSecs

/-- One statistic, the end of the statistics, and the response to a `get`. -/
def statThenGet : List Exchange :=
  [⟨.stats none,
    [⟨⟨0x81, 0x10, 3, 0, 0, 0, 4, 0, 0⟩, [112, 105, 100, 49]⟩,
      ⟨⟨0x81, 0x10, 0, 0, 0, 0, 0, 0, 0⟩, []⟩]⟩,
    ⟨.get [107] 0, [⟨⟨0x81, 0x00, 0, 4, 0, 0, 6, 0, 9⟩, [0, 0, 0, 7, 5, 6]⟩]⟩]

theorem wellFormed_statThenGet : ∀ exchange ∈ statThenGet, exchange.WellFormed := by
  intro exchange mem
  simp only [statThenGet, List.mem_cons, List.not_mem_nil, or_false] at mem
  rcases mem with rfl | rfl
  · refine ⟨[⟨⟨0x81, 0x10, 3, 0, 0, 0, 4, 0, 0⟩, [112, 105, 100, 49]⟩], _, rfl, ?_, ?_⟩
    · intro entry mem
      rw [List.mem_singleton] at mem
      subst mem
      exact ⟨⟨rfl, rfl, by decide, by decide⟩, rfl, rfl, by decide⟩
    · exact ⟨⟨rfl, rfl, by decide, by decide⟩, .inl rfl⟩
  · exact ⟨_, rfl, rfl, rfl, by decide, by decide⟩

theorem get_after_stats :
    ∃ after, Client.get [107] 0 ((Call.bytewiseClient
      (statThenGet.flatMap Exchange.wire ++ [])).performed (statThenGet.take 1)) =
        .ok ⟨[5, 6], 9, 7, true⟩ after :=
  (responses_aligned ⟨_, rfl, rfl, Socket.healthy_bytewise _⟩ wellFormed_statThenGet
    (List.take_append_drop 1 statThenGet).symm).2.2.2 [107] 0
      ⟨⟨0x81, 0x00, 0, 4, 0, 0, 6, 0, 9⟩, [0, 0, 0, 7, 5, 6]⟩ rfl rfl rfl rfl

end Client

end EventAsync.Memcache
