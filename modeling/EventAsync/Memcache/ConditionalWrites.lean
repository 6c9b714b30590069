import EventAsync.Lib.Transition
import EventAsync.Memcache.Responses

/-!
# Conditional writes

`set`, `add`, `replace` and `delete_key` return whether the server has changed
its map.  Each of them names the errors that it takes for a negative answer;
every other error is raised.  `replace` names both KEY_NOT_FOUND and KEY_EXISTS,
while `set` and `delete_key` name KEY_EXISTS alone, although the server answers
with KEY_NOT_FOUND if they refer to an absent key.
-/

namespace EventAsync.Memcache

open ByteCodec

/-- What the server keeps under a key. -/
structure Entry where
  value : Bytes
  /-- The flags and the expiration time. -/
  extras : Bytes
  cas : UInt64
  deriving DecidableEq

/-- The map of the server. -/
abbrev Server := Bytes → Option Entry

namespace Server

/-- A nonzero cas of the request is not that of the entry. -/
def Stale (request : Request) (entry : Entry) : Prop :=
  request.cas ≠ 0 ∧ request.cas ≠ entry.cas

instance (request : Request) (entry : Entry) : Decidable (Stale request entry) :=
  inferInstanceAs (Decidable (_ ∧ _))

/-- The status with which a request is answered. -/
def status (server : Server) (request : Request) : Option ResponseStatus :=
  match server request.key with
  | none =>
      if request.opcode = Command.add.code then some .ok
      else if request.opcode = Command.set.code then
        some (if request.cas = 0 then .ok else .keyNotFound)
      else if request.opcode = Command.replace.code ∨ request.opcode = Command.delete.code then
        some .keyNotFound
      else none
  | some entry =>
      if request.opcode = Command.add.code then some .keyExists
      else if request.opcode = Command.set.code ∨ request.opcode = Command.replace.code ∨
          request.opcode = Command.delete.code then
        some (if Stale request entry then .keyExists else .ok)
      else none

/-- The map after a request that was answered with the status. -/
def applied (server : Server) (request : Request) (fresh : UInt64) : ResponseStatus → Server
  | .ok =>
      Function.update server request.key
        (if request.opcode = Command.delete.code then none
          else some ⟨request.value, request.extras, fresh⟩)
  | _ => server

/-- The response with a status; errors have a message. -/
def respond (opcode : UInt8) (fresh : UInt64) (message : Bytes) : ResponseStatus → Response
  | .ok => ⟨⟨0x81, opcode, 0, 0, 0, ResponseStatus.ok.code, 0, 0, fresh⟩, []⟩
  | status => ⟨⟨0x81, opcode, 0, 0, 0, status.code, .ofNat message.length, 0, 0⟩, message⟩

end Server

/-- The calls that write. -/
inductive WriteCall where
  | set (key value : Bytes) (flags expirationSecs : UInt32) (cas : UInt64)
  | add (key value : Bytes) (flags expirationSecs : UInt32)
  | replace (key value : Bytes) (flags expirationSecs : UInt32) (cas : UInt64)
  | deleteKey (key : Bytes) (cas : UInt64)

namespace WriteCall

def call : WriteCall → Call
  | set key value flags expirationSecs cas => .set key value flags expirationSecs cas
  | add key value flags expirationSecs => .add key value flags expirationSecs
  | replace key value flags expirationSecs cas => .replace key value flags expirationSecs cas
  | deleteKey key cas => .deleteKey key cas

def perform : WriteCall → ClientM Bool
  | set key value flags expirationSecs cas => Client.set key value flags expirationSecs cas
  | add key value flags expirationSecs => Client.add key value flags expirationSecs
  | replace key value flags expirationSecs cas => Client.replace key value flags expirationSecs cas
  | deleteKey key cas => Client.deleteKey key cas

/-- The errors that the call takes for a negative answer. -/
def expectedErrors : WriteCall → UInt16 × UInt16
  | set _ _ _ _ _ => (ResponseStatus.keyExists.code, 0)
  | add _ _ _ _ => (ResponseStatus.keyExists.code, 0)
  | replace _ _ _ _ _ => (ResponseStatus.keyNotFound.code, ResponseStatus.keyExists.code)
  | deleteKey _ _ => (ResponseStatus.keyExists.code, 0)

def complaint : WriteCall → String
  | deleteKey _ _ => "delete command returned response data after header"
  | _ => "write command returned response data after header"

/-- A `set` with a cas and a `delete_key` find the key that they announce. -/
def Finds (write : WriteCall) (server : Server) : Prop :=
  match write with
  | set key _ _ _ cas => cas = 0 ∨ server (Request.announcedKey key) ≠ none
  | deleteKey key _ => server (Request.announcedKey key) ≠ none
  | _ => True

/-- What the call sends. -/
def written (write : WriteCall) (client : Client) : Bytes :=
  (Stateful.endState (write.call.run client)).sent.drop client.sent.length

end WriteCall

/-- The server sends some bytes. -/
def Client.deliver (client : Client) (bytes : Bytes) : Client :=
  { client with
    fd := client.fd.map fun socket => { socket with incoming := socket.incoming ++ bytes } }

/-- A call, with what the server chooses when it answers: the cas of an entry that it writes, and
the message of an error. -/
structure Write where
  call : WriteCall
  fresh : UInt64
  message : Bytes

/-- A client and the server that it is connected to. -/
structure Link where
  server : Server
  client : Client

namespace Link

/-- The answer to what a call sends. An entry that is written gets a cas that is not zero and is
not that of the entry before. -/
def serve (link : Link) (write : Write) : Option (Response × Server) :=
  match Request.parse (write.call.written link.client) with
  | some (request, []) =>
      if write.fresh = 0 ∨ (link.server request.key).map Entry.cas = some write.fresh ∨
          2 ^ 31 ≤ write.message.length then none
      else (link.server.status request).map fun status =>
        (Server.respond request.opcode write.fresh write.message status,
          link.server.applied request write.fresh status)
  | _ => none

/-- A call whose answer has arrived when it begins to read. -/
def step (link : Link) (write : Write) : Option Link :=
  (link.serve write).map fun (response, server) =>
    { server := server
      client := Stateful.endState (write.call.perform (link.client.deliver response.wire)) }

/-- The call returns whether the server has changed its map. -/
def Truthful (link : Link) (write : Write) : Prop :=
  ∀ response server, link.serve write = some (response, server) →
    ∃ changed after, write.call.perform (link.client.deliver response.wire) = .ok changed after ∧
      (changed = true ↔ server ≠ link.server)

/-- The call refers to an absent key only if it expects the answer. -/
def Finds (link : Link) (write : Write) : Prop :=
  write.call.Finds link.server

end Link

namespace Server

variable {server : Server} {request : Request} {fresh : UInt64} {status : ResponseStatus}

/-- A delete command that is answered with OK finds its key. -/
theorem present_of_delete (isDelete : request.opcode = Command.delete.code)
    (answered : server.status request = some .ok) : server request.key ≠ none := by
  intro absent
  simp [Server.status, absent, isDelete, Command.code] at answered

/-- The map is changed exactly by the requests that are answered with OK. -/
theorem applied_ne_iff (unused : (server request.key).map Entry.cas ≠ some fresh)
    (answered : server.status request = some status) :
    server.applied request fresh status ≠ server ↔ status = .ok := by
  cases status with
  | ok =>
      refine iff_of_true ?_ rfl
      intro same
      have written := congrFun same request.key
      rw [applied, Function.update_self] at written
      split at written
      case isTrue isDelete => exact present_of_delete isDelete answered written.symm
      case isFalse _ =>
        rw [← written] at unused
        exact unused rfl
  | keyNotFound => exact iff_of_false (fun changed => changed rfl) nofun
  | keyExists => exact iff_of_false (fun changed => changed rfl) nofun

/-- A key that is present is not reported as not found. -/
theorem ok_or_keyExists_of_present (present : server request.key ≠ none)
    (answered : server.status request = some status) : status = .ok ∨ status = .keyExists := by
  rcases Option.ne_none_iff_exists'.mp present with ⟨entry, found⟩
  simp only [Server.status, found] at answered
  split at answered
  · cases answered
    exact .inr rfl
  · split at answered
    · split at answered
      · cases answered
        exact .inr rfl
      · cases answered
        exact .inl rfl
    · cases answered

end Server

namespace WriteCall

variable {write : WriteCall} {server : Server} {status : ResponseStatus}

theorem finds_of_present (present : server write.call.request.announced.key ≠ none) :
    write.Finds server := by
  cases write with
  | set key value flags expirationSecs cas => exact .inr present
  | deleteKey key cas => exact present
  | _ => trivial

theorem expects_keyExists (write : WriteCall) :
    ResponseStatus.keyExists.code = write.expectedErrors.1 ∨
      ResponseStatus.keyExists.code = write.expectedErrors.2 := by
  cases write with
  | replace key value flags expirationSecs cas => exact .inr rfl
  | _ => exact .inl rfl

/-- The call is prepared for the answer exactly if it finds its key. -/
theorem finds_iff (answered : server.status write.call.request.announced = some status) :
    write.Finds server ↔
      status = .ok ∨ status.code = write.expectedErrors.1 ∨
        status.code = write.expectedErrors.2 := by
  by_cases present : server write.call.request.announced.key ≠ none
  · refine iff_of_true (finds_of_present present) ?_
    rcases Server.ok_or_keyExists_of_present present answered with rfl | rfl
    · exact .inl rfl
    · exact .inr write.expects_keyExists
  · rw [not_not] at present
    simp only [Server.status, present] at answered
    cases write with
    | set key value flags expirationSecs cas =>
        change server (Request.announcedKey key) = none at present
        change some (if cas = 0 then ResponseStatus.ok else .keyNotFound) = some status at answered
        rw [Option.some.injEq] at answered
        by_cases zero : cas = 0
        · simp [Finds, ← answered, zero]
        · simp [Finds, ← answered, zero, present, expectedErrors, ResponseStatus.code]
    | add key value flags expirationSecs =>
        cases answered
        exact iff_of_true trivial (.inl rfl)
    | replace key value flags expirationSecs cas =>
        cases answered
        exact iff_of_true trivial (.inr (.inl rfl))
    | deleteKey key cas =>
        change server (Request.announcedKey key) = none at present
        cases answered
        simp [Finds, present, expectedErrors, ResponseStatus.code]

theorem perform_eq (write : WriteCall) :
    write.perform = Client.command write.call.fill
      (Client.oneResponse write.expectedErrors.1 write.expectedErrors.2
        (Client.emptyBodyResult write.complaint)) := by
  cases write with
  | _ => rfl

end WriteCall

namespace WriteCall

open Client

variable {write : WriteCall} {client : Client} {response : Response}

/-- The call has sent its request when it reads the response. -/
theorem perform_eq_leave {incoming : Bytes} (receives : client.Receives incoming) :
    ∃ sent, ∃ wrote : Stream, wrote.Holds [] incoming sent ∧
      write.perform client = client.leave (oneResponse write.expectedErrors.1
        write.expectedErrors.2 (emptyBodyResult write.complaint) wrote) := by
  rw [perform_eq]
  exact exists_written receives write.call.appends_fill write.call.request.wire_ne_nil _

/-- An empty response with OK is a positive answer. -/
theorem perform_ok (wellFormed : response.WellFormed)
    (isOk : response.header.status = ResponseStatus.ok.code) (empty : response.body = [])
    (receives : client.Receives (response.wire ++ [])) :
    ∃ after, write.perform client = .ok true after ∧ after.Receives [] := by
  rcases perform_eq_leave receives with ⟨sent, wrote, held, ends⟩
  rcases readResponseHeader_ok wellFormed held isOk with ⟨received, heldBody, reads⟩
  have noBody : response.header.bodySize = 0 := by
    rw [← UInt32.toNat_inj, wellFormed.bodySize, empty]
    rfl
  have positive : emptyBodyResult write.complaint response.header = Pure.pure true := by
    rw [emptyBodyResult, isOk, noBody]
    rfl
  refine ⟨{ client with fd := some received.socket }, ?_, ?_⟩
  · rw [ends, oneResponse, Stateful.bind_of_ok reads, positive]
    rfl
  · exact ⟨received.socket, rfl, heldBody.incoming_eq, heldBody.healthy⟩

/-- An error that the call expects is a negative answer. -/
theorem perform_expected (wellFormed : response.WellFormed)
    (isError : response.header.status ≠ ResponseStatus.ok.code)
    (expected : ¬(response.header.status ≠ write.expectedErrors.1 ∧
      response.header.status ≠ write.expectedErrors.2))
    (receives : client.Receives (response.wire ++ [])) :
    ∃ after, write.perform client = .ok false after ∧ after.Receives [] := by
  rcases perform_eq_leave receives with ⟨sent, wrote, held, ends⟩
  rcases readResponseHeader_expected wellFormed held isError expected with
    ⟨skipped, heldAfter, reads⟩
  have negative : emptyBodyResult write.complaint response.header = Pure.pure false :=
    if_pos isError
  refine ⟨{ client with fd := some skipped.socket }, ?_, ?_⟩
  · rw [ends, oneResponse, Stateful.bind_of_ok reads, negative]
    rfl
  · exact ⟨skipped.socket, rfl, heldAfter.incoming_eq, heldAfter.healthy⟩

/-- Any other error is raised. -/
theorem perform_raises (wellFormed : response.WellFormed)
    (isError : response.header.status ≠ ResponseStatus.ok.code)
    (unexpected : response.header.status ≠ write.expectedErrors.1 ∧
      response.header.status ≠ write.expectedErrors.2)
    (receives : client.Receives (response.wire ++ [])) :
    ∃ after, write.perform client = .error (.raised response.serverError) after ∧
      after.Receives [] := by
  rcases perform_eq_leave receives with ⟨sent, wrote, held, ends⟩
  rcases readResponseHeader_raises wellFormed held isError unexpected with
    ⟨raised, heldAfter, raises⟩
  refine ⟨{ client with fd := some raised.socket }, ?_, ?_⟩
  · rw [ends, oneResponse, Stateful.bind_of_error raises]
    rfl
  · exact ⟨raised.socket, rfl, heldAfter.incoming_eq, heldAfter.healthy⟩

end WriteCall

theorem ResponseStatus.code_ne_ok {status : ResponseStatus} (isError : status ≠ .ok) :
    status.code ≠ ResponseStatus.ok.code := by
  cases status with
  | ok => exact absurd rfl isError
  | keyNotFound => decide
  | keyExists => decide

namespace Server

theorem status_respond (opcode : UInt8) (fresh : UInt64) (message : Bytes)
    (status : ResponseStatus) :
    (respond opcode fresh message status).header.status = status.code := by
  cases status with
  | _ => rfl

theorem wellFormed_respond (opcode : UInt8) (fresh : UInt64) {message : Bytes}
    (short : message.length < 2 ^ 31) (status : ResponseStatus) :
    (respond opcode fresh message status).WellFormed := by
  have size : (UInt32.ofNat message.length).toNat = message.length :=
    UInt32.toNat_ofNat_of_lt' (lt_trans short (by norm_num))
  cases status with
  | ok => exact ⟨rfl, rfl, Nat.two_pow_pos 31, Nat.zero_le _⟩
  | _ => exact ⟨rfl, size, short, Nat.zero_le _⟩

end Server

theorem Client.receives_deliver {client : Client} (receives : client.Receives [])
    (bytes : Bytes) : (client.deliver bytes).Receives (bytes ++ []) := by
  rcases receives with ⟨socket, isOpen, unread, healthy⟩
  refine ⟨{ socket with incoming := socket.incoming ++ bytes }, ?_, ?_, healthy⟩
  · rw [deliver, isOpen]
    rfl
  · simp only [unread, List.nil_append, List.append_nil]

theorem WriteCall.written_eq (write : WriteCall) {client : Client}
    (receives : client.Receives []) : write.written client = write.call.request.wire := by
  rcases receives with ⟨socket, isOpen, _, healthy⟩
  rw [written, Call.sent_run write.call isOpen fun number => (healthy number).2]
  exact List.drop_left

namespace Link

variable {link : Link} {write : Write} {response : Response} {server : Server}

/-- The server answers the request that the header announces. -/
theorem exists_status_of_serve (receives : link.client.Receives [])
    (served : link.serve write = some (response, server)) :
    ∃ status, link.server.status write.call.call.request.announced = some status ∧
      response = Server.respond write.call.call.request.opcode write.fresh write.message status ∧
      response.WellFormed ∧ (server ≠ link.server ↔ status = .ok) := by
  rw [serve, write.call.written_eq receives] at served
  split at served
  case h_1 request parses =>
    cases Request.eq_announced_of_parse write.call.call.extras_length parses
    split at served
    case isTrue => cases served
    case isFalse chosen =>
      rw [not_or, not_or, not_le] at chosen
      rcases Option.map_eq_some_iff.mp served with ⟨status, answered, outcome⟩
      cases outcome
      refine ⟨status, answered, rfl, ?_, ?_⟩
      · exact Server.wellFormed_respond _ _ chosen.2.2 status
      · exact Server.applied_ne_iff chosen.2.1 answered
  case h_2 => cases served

/-- A call that finds its key returns whether the map was changed. -/
theorem perform_of_finds (receives : link.client.Receives [])
    (served : link.serve write = some (response, server)) (finds : link.Finds write) :
    ∃ changed after, write.call.perform (link.client.deliver response.wire) = .ok changed after ∧
      (changed = true ↔ server ≠ link.server) ∧ after.Receives [] := by
  rcases exists_status_of_serve receives served with
    ⟨status, answered, rfl, wellFormed, changes⟩
  have delivered := Client.receives_deliver receives
    (Server.respond write.call.call.request.opcode write.fresh write.message status).wire
  have isStatus := Server.status_respond write.call.call.request.opcode write.fresh
    write.message status
  by_cases isOk : status = .ok
  · subst isOk
    rcases WriteCall.perform_ok wellFormed rfl rfl delivered with ⟨after, returns, unread⟩
    exact ⟨true, after, returns, iff_of_true rfl (changes.mpr rfl), unread⟩
  · have expected := ((WriteCall.finds_iff answered).mp finds).resolve_left isOk
    have isError := ResponseStatus.code_ne_ok isOk
    rw [← isStatus] at expected isError
    rcases WriteCall.perform_expected wellFormed isError (by tauto) delivered with
      ⟨after, returns, unread⟩
    exact ⟨false, after, returns, iff_of_false Bool.false_ne_true (mt changes.mp isOk), unread⟩

/-- A call that refers to an absent key without expecting the answer raises. -/
theorem perform_of_not_finds (receives : link.client.Receives [])
    (served : link.serve write = some (response, server)) (misses : ¬link.Finds write) :
    ∃ after, write.call.perform (link.client.deliver response.wire) =
      .error (.raised response.serverError) after ∧ after.Receives [] := by
  rcases exists_status_of_serve receives served with ⟨status, answered, rfl, wellFormed, _⟩
  have delivered := Client.receives_deliver receives
    (Server.respond write.call.call.request.opcode write.fresh write.message status).wire
  have isStatus := Server.status_respond write.call.call.request.opcode write.fresh
    write.message status
  have unexpected := mt (WriteCall.finds_iff answered).mpr misses
  rw [not_or, not_or] at unexpected
  have isError := ResponseStatus.code_ne_ok unexpected.1
  rw [← isStatus] at unexpected isError
  exact WriteCall.perform_raises wellFormed isError unexpected.2 delivered

/-- A call is truthful exactly if it finds its key. -/
theorem truthful_iff_of_serve (receives : link.client.Receives [])
    (served : link.serve write = some (response, server)) :
    link.Truthful write ↔ link.Finds write := by
  constructor
  · intro truthful
    by_contra misses
    rcases truthful response server served with ⟨changed, after, returns, _⟩
    rcases perform_of_not_finds receives served misses with ⟨raised, raises, _⟩
    rw [returns] at raises
    cases raises
  · intro finds response server served
    rcases perform_of_finds receives served finds with ⟨changed, after, returns, truthful, _⟩
    exact ⟨changed, after, returns, truthful⟩

/-- However a call ends, nothing that was sent to it is left unread. -/
theorem step_receives {next : Link} (receives : link.client.Receives [])
    (stepped : link.step write = some next) : next.client.Receives [] := by
  rcases Option.map_eq_some_iff.mp stepped with ⟨⟨response, server⟩, served, rfl⟩
  change (Stateful.endState (write.call.perform (link.client.deliver response.wire))).Receives []
  by_cases finds : link.Finds write
  · rcases perform_of_finds receives served finds with ⟨changed, after, returns, _, unread⟩
    rw [returns]
    exact unread
  · rcases perform_of_not_finds receives served finds with ⟨after, raises, unread⟩
    rw [raises]
    exact unread

/-- All calls of a sequence return whether they have changed the map exactly if each finds its
key. -/
theorem truthful_iff_finds {start final : Link} {writes : List Write}
    (receives : start.client.Receives [])
    (accepted : Transition.run step start writes = some final) :
    Transition.Along step Truthful start writes ↔ Transition.Along step Finds start writes := by
  refine Transition.along_iff_of_accepted (fun link => link.client.Receives []) ?_ ?_ receives
    accepted
  · intro link write next receives stepped
    exact step_receives receives stepped
  · intro link write next receives stepped
    rcases Option.map_eq_some_iff.mp stepped with ⟨⟨response, server⟩, served, _⟩
    exact truthful_iff_of_serve receives served

/-- A server with one key. -/
def oneKey : Link where
  server := Function.update (fun _ => none) [107] (some ⟨[118], [0, 0, 0, 0, 0, 0, 0, 0], 5⟩)
  client := Call.bytewiseClient []

/-- The key is deleted, is then not replaced, and is added again. -/
def deleteReplaceAdd : List Write :=
  [⟨.deleteKey [107] 5, 6, []⟩, ⟨.replace [107] [119] 0 0 0, 7, [78, 111]⟩,
    ⟨.add [107] [120] 0 0, 8, []⟩]

theorem truthful_deleteReplaceAdd :
    Transition.Along step Truthful oneKey deleteReplaceAdd ∧
      (Transition.run step oneKey deleteReplaceAdd).isSome := by
  have accepted : (Transition.run step oneKey deleteReplaceAdd).isSome := by decide +kernel
  rcases Option.isSome_iff_exists.mp accepted with ⟨final, reached⟩
  refine ⟨(truthful_iff_finds ⟨_, rfl, rfl, Socket.healthy_bytewise []⟩ reached).mpr ?_, accepted⟩
  have present : oneKey.Finds ⟨.deleteKey [107] 5, 6, []⟩ := by
    simp [Finds, WriteCall.Finds, oneKey, Request.announcedKey]
  refine Transition.along_cons present fun deleted _ => ?_
  refine Transition.along_cons trivial fun kept _ => ?_
  exact Transition.along_cons trivial fun added _ => Transition.along_nil _ added

/-- A `delete_key` of another key is answered with KEY_NOT_FOUND, which is raised. -/
theorem not_truthful_deleteAbsent :
    (Transition.run step oneKey [⟨.deleteKey [106] 0, 6, [78, 111]⟩]).isSome ∧
      ¬Transition.Along step Truthful oneKey [⟨.deleteKey [106] 0, 6, [78, 111]⟩] := by
  have accepted : (Transition.run step oneKey [⟨.deleteKey [106] 0, 6, [78, 111]⟩]).isSome := by
    decide +kernel
  refine ⟨accepted, ?_⟩
  intro truthful
  rcases Option.isSome_iff_exists.mp accepted with ⟨final, reached⟩
  rcases Transition.run_cons_eq_some.mp reached with ⟨next, stepped, _⟩
  rcases Option.map_eq_some_iff.mp stepped with ⟨⟨response, server⟩, served, _⟩
  have here := truthful [] _ [] oneKey rfl rfl
  have receives : oneKey.client.Receives [] := ⟨_, rfl, rfl, Socket.healthy_bytewise []⟩
  have finds := (truthful_iff_of_serve receives served).mp here
  simp [Finds, WriteCall.Finds, oneKey, Request.announcedKey] at finds

end Link

end EventAsync.Memcache
