import EventAsync.MySQL.FieldCodec
import EventAsync.MySQL.Handshake

/-!
# Logging in

A server keeps for each account the hash of the hash of the password.  It sends
a handshake with a challenge; the client answers with its name and with the hash
of its password, masked by a hash of the challenge and of what the server keeps.
The server removes the mask and compares the hash of the result with what it
keeps.  It then either accepts the client, possibly after it has said that it
had the account in its cache, or sends an ERR packet.

The answer of the client does what the server expects of it: if the server keeps
the hash of the hash of the client's password, `connect` returns on an
authenticated connection on which the next packet of the server can be read.
-/

namespace EventAsync.MySQL

open ByteCodec Decoding ProtocolBuffer

/-- What is in transit over a connection whose socket does not fail: what the server has sent and
the client has not read, and what the client has sent. -/
structure Connection.Carries (connection : Connection) (incoming sent : Bytes) : Prop where
  incoming_eq : connection.socket.incoming = incoming
  sent_eq : connection.socket.sent = sent
  healthy : connection.socket.Healthy

/-- A client with a connection and the number of the next packet. -/
def Client.attached (client : Client) (connection : Connection) (seq : UInt8) : Client :=
  { client with fd := some connection, nextSeq := seq }

/-- What the client tells the server. -/
structure LoginRequest where
  username : Bytes
  authResponse : Bytes
  authPluginName : Bytes

/-- The payload of the answer to a handshake. -/
def LoginRequest.payload (request : LoginRequest) : Bytes :=
  leBytes 4 Client.clientCapFlags ++ (leBytes 4 0xFFFFFFFF ++ ([0xFF] ++
    (List.replicate 23 0 ++ (request.username ++ [0] ++
      (varStringBytes request.authResponse ++ (request.authPluginName ++ [0]))))))

/-- What a server reads of the answer. -/
def removeLoginRequest : BufferM LoginRequest := do
  let _ ← Buffer.removeU32l
  let _ ← Buffer.removeU32l
  let _ ← Buffer.removeU8
  Buffer.drain 23
  let username ← removeString0
  let authResponse ← removeVarString
  let authPluginName ← removeString0
  return { username := username, authResponse := authResponse, authPluginName := authPluginName }

/-- A server with its accounts, the handshake that it sends, and its replies. -/
structure LoginServer where
  handshake : Handshake
  stored : Bytes → Option Bytes
  cached : Bool
  okFields : Bytes
  errorCode : ℕ
  sqlstate : Bytes
  message : Bytes
  pluginName : handshake.authPluginName = Client.cachingSha2Password
  errorCodeFits : errorCode < 2 ^ 16
  sqlstateLength : sqlstate.length = 5
  okFits : okFields.length < 2 ^ 24 - 1
  messageFits : message.length < 2 ^ 24 - 9

namespace LoginServer

/-- The bytes of two strings, combined. -/
def xorBytes (first second : Bytes) : Bytes :=
  List.zipWith (· ^^^ ·) first second

/-- The hash of the response without its mask is what the server keeps. -/
def grants (server : LoginServer) (lib : Library) (request : LoginRequest) : Bool :=
  match server.stored request.username with
  | none => false
  | some stored =>
      request.authPluginName = server.handshake.authPluginName ∧
        lib.sha256 (xorBytes request.authResponse
          (lib.sha256 (stored ++ server.handshake.challenge))) = stored

/-- The payloads with which the server accepts a client. -/
def acceptance (server : LoginServer) : List Bytes :=
  (if server.cached then [[0x01, 0x03]] else []) ++ [0x00 :: server.okFields]

def errPayload (server : LoginServer) : Bytes :=
  [0xFF] ++ (leBytes 2 server.errorCode ++ (ascii "#" ++ (server.sqlstate ++ server.message)))

/-- The replies to the payload of the client's packet. -/
def replies (server : LoginServer) (lib : Library) (payload : Bytes) : List Bytes :=
  match removeLoginRequest payload with
  | .error _ _ => [server.errPayload]
  | .ok request rest =>
      if rest = [] ∧ server.grants lib request then server.acceptance else [server.errPayload]

/-- What is raised for the ERR packet of the server. -/
def denial (server : LoginServer) : Stop :=
  .raised (.runtimeError "authentication failed: "
    (ascii "(" ++ decimal server.errorCode ++ ascii ") " ++ cStr server.message))

end LoginServer

namespace Client

open Buffer LoginServer

variable {client : Client} {connection : Connection} {seq : UInt8}
  {payload incoming sent rest : Bytes}

theorem readCommand_attached (client : Client)
    (carries : connection.Carries (packet seq payload ++ rest) sent)
    (fits : payload.length < 2 ^ 24) :
    ∃ later : Connection, readCommand ⟨client.attached connection seq, []⟩ =
        .ok () ⟨client.attached later (seq + 1), payload⟩ ∧
      later.Carries rest sent ∧ later.authenticated = connection.authenticated := by
  have held : Stream.Holds ⟨[], connection.socket⟩ [] (packet seq payload ++ rest) sent :=
    ⟨rfl, carries.incoming_eq, carries.sent_eq, carries.healthy⟩
  rcases ProtocolBuffer.readCommand_packet held with ⟨stream, read, heldAfter⟩
  rw [Nat.mod_eq_of_lt fits, List.take_length, List.drop_length, List.nil_append] at heldAfter
  have taken : transfer ProtocolBuffer.readCommand ⟨client.attached connection seq, []⟩ =
      .ok seq ⟨(client.attached connection seq).setSocket connection stream.socket, payload⟩ := by
    simp only [transfer, attached, read, heldAfter.buf_eq]
  refine ⟨{ connection with
    socket := stream.socket
    accepted := connection.accepted ++ [connection.socket.incoming.length] }, ?_, ?_, rfl⟩
  · have expected : ¬seq ≠ (client.attached connection seq).nextSeq := not_not.mpr rfl
    rw [readCommand, Stateful.bind_of_ok (get_eq _), Stateful.bind_of_ok taken, if_neg expected]
    rfl
  · exact ⟨heldAfter.incoming_eq, heldAfter.sent_eq, heldAfter.healthy⟩

theorem writeCommand_attached (client : Client) (seq : UInt8) (payload : Bytes)
    (carries : connection.Carries incoming sent) :
    ∃ later : Connection, writeCommand ⟨client.attached connection seq, payload⟩ =
        .ok () ⟨client.attached later (seq + 1), []⟩ ∧
      later.Carries incoming (sent ++ packet seq payload) ∧
      later.authenticated = connection.authenticated := by
  have held : Stream.Holds ⟨payload, connection.socket⟩ payload incoming sent :=
    ⟨rfl, carries.incoming_eq, carries.sent_eq, carries.healthy⟩
  rcases ProtocolBuffer.writeCommand_ok held seq with ⟨stream, wrote, heldAfter⟩
  refine ⟨{ connection with socket := stream.socket }, ?_,
    ⟨heldAfter.incoming_eq, heldAfter.sent_eq, heldAfter.healthy⟩, rfl⟩
  rw [writeCommand, Stateful.bind_of_ok (get_eq _), Stateful.bind_of_ok (set_eq _ _)]
  simp only [transfer, attached, wrote, heldAfter.buf_eq]
  rfl

/-- An action on the buffer that takes bytes from its front. -/
theorem decode_attached {Result Output : Type} {action : BufferM Result} {bytes : Bytes}
    {result : Result} {next : Result → SessionM Output}
    (decodes : Decodes front action bytes result) (client : Client) (rest : Bytes) :
    ((liftM action : SessionM Result) >>= next) ⟨client, bytes ++ rest⟩ =
      next result ⟨client, rest⟩ :=
  Stateful.bind_of_ok (Stateful.zoom_of_ok (decodes 0 rest))

theorem addHandshakeResponse_eq (request : LoginRequest) :
    addHandshakeResponse request.username request.authResponse request.authPluginName [] =
      .ok () request.payload := by
  have flags : addU32l clientCapFlags [] = .ok () (leBytes 4 clientCapFlags) := rfl
  have size : addU32l 0xFFFFFFFF (leBytes 4 clientCapFlags) =
      .ok () (leBytes 4 clientCapFlags ++ leBytes 4 0xFFFFFFFF) := rfl
  have charset : addU8 0xFF (leBytes 4 clientCapFlags ++ leBytes 4 0xFFFFFFFF) =
      .ok () (leBytes 4 clientCapFlags ++ leBytes 4 0xFFFFFFFF ++ [0xFF]) := rfl
  have name : ∀ buf : Bytes, addString0 request.username buf =
      .ok () (buf ++ (request.username ++ [0])) := fun _ => rfl
  have plugin : ∀ buf : Bytes, addString0 request.authPluginName buf =
      .ok () (buf ++ (request.authPluginName ++ [0])) := fun _ => rfl
  rw [addHandshakeResponse, Stateful.bind_of_ok flags, Stateful.bind_of_ok size,
    Stateful.bind_of_ok charset, Stateful.bind_of_ok (addZeroes_eq 23 _),
    Stateful.bind_of_ok (name _), Stateful.bind_of_ok (addVarString_eq _ _), plugin]
  simp [LoginRequest.payload]

/-- The server reads what the client has written. -/
theorem decodes_removeLoginRequest {request : LoginRequest} (name : 0 ∉ request.username)
    (plugin : 0 ∉ request.authPluginName) (small : request.authResponse.length < 2 ^ 31) :
    Decodes front removeLoginRequest request.payload request := by
  apply (decodes_removeLe (by norm_num) (by decide : clientCapFlags < 256 ^ 4)).bind
  apply (decodes_removeLe (by norm_num) (by norm_num : 0xFFFFFFFF < 256 ^ 4)).bind
  apply (decodes_removeU8 0xFF).bind
  apply (decodes_drain (List.replicate 23 0)).bind
  apply (decodes_readln name).bind
  apply (decodes_removeVarString small).bind
  exact (decodes_readln plugin).bind_pure

/-- What the client answers to a handshake. -/
def loginRequest (lib : Library) (client : Client) (handshake : Handshake) : LoginRequest where
  username := client.username
  authResponse := xorBytes (lib.sha256 client.password)
    (lib.sha256 (lib.sha256 (lib.sha256 client.password) ++ handshake.challenge))
  authPluginName := handshake.authPluginName

theorem map_range_xor {first second : Bytes} (firstLength : first.length = 0x20)
    (secondLength : second.length = 0x20) :
    ((List.range 0x20).map fun x => first.getD x 0 ^^^ second.getD x 0) =
      xorBytes first second := by
  apply List.ext_getElem
  · simp [xorBytes, firstLength, secondLength]
  · intro x inRange inBoth
    simp only [List.length_map, List.length_range] at inRange
    simp [xorBytes, firstLength, secondLength, inRange]

/-- A mask that is applied twice is removed. -/
theorem xorBytes_xorBytes {bytes mask : Bytes} (length : bytes.length = mask.length) :
    xorBytes (xorBytes bytes mask) mask = bytes := by
  apply List.ext_getElem
  · simp [xorBytes, length]
  · intro x _ _
    simp only [xorBytes, List.getElem_zipWith]
    rw [UInt8.xor_assoc, UInt8.xor_self, UInt8.xor_zero]

section Digest

variable {lib : Library} (digest : ∀ data, (lib.sha256 data).length = 0x20)

include digest

theorem computeAuthResponse_eq (challenge password : Bytes) :
    computeAuthResponse lib cachingSha2Password challenge password =
      .ok (xorBytes (lib.sha256 password)
        (lib.sha256 (lib.sha256 (lib.sha256 password) ++ challenge))) := by
  rw [computeAuthResponse, if_pos rfl, ← map_range_xor (digest _) (digest _)]

theorem length_authResponse (client : Client) (handshake : Handshake) :
    (client.loginRequest lib handshake).authResponse.length = 0x20 := by
  simp [loginRequest, xorBytes, digest]

/-- A server that keeps the hash of the hash of the password accepts the answer. -/
theorem grants_loginRequest {server : LoginServer}
    (account : server.stored client.username = some (lib.sha256 (lib.sha256 client.password))) :
    server.grants lib (client.loginRequest lib server.handshake) = true := by
  have lengths : (lib.sha256 client.password).length = (lib.sha256
      (lib.sha256 (lib.sha256 client.password) ++ server.handshake.challenge)).length := by
    rw [digest, digest]
  have unmasked := xorBytes_xorBytes lengths
  simp [grants, loginRequest, account, unmasked]

theorem replies_loginRequest {server : LoginServer} (name : 0 ∉ client.username) :
    server.replies lib (client.loginRequest lib server.handshake).payload =
      if server.grants lib (client.loginRequest lib server.handshake) then server.acceptance
      else [server.errPayload] := by
  have small : (client.loginRequest lib server.handshake).authResponse.length < 2 ^ 31 := by
    rw [length_authResponse digest]
    norm_num
  have nameSent : 0 ∉ (client.loginRequest lib server.handshake).username := name
  have read := decodes_removeLoginRequest nameSent server.handshake.pluginName_text small 0 []
  simp only [front, List.append_nil] at read
  simp [replies, read]

end Digest

theorem challengeData_ne_nil (handshake : Handshake)
    (announced : 8 ≤ handshake.authPluginDataLength.toNat) : handshake.challengeData ≠ [] := by
  intro empty
  have length := congrArg List.length empty
  rw [HandshakeFields.challengeData, List.length_take, List.length_append,
    handshake.challengeStart_length, List.length_nil] at length
  omega

/-- The client reads the handshake and keeps what it says. -/
theorem readHandshake_attached (client : Client) {handshake : Handshake}
    (announced : 8 ≤ handshake.authPluginDataLength.toNat)
    (carries : connection.Carries (packet 0 handshake.payload ++ rest) sent) :
    ∃ later : Connection, readHandshake ⟨{ client with fd := some connection }, []⟩ =
        .ok (handshake.authPluginName, handshake.challenge)
          ⟨(client.store handshake.toHandshakeFields).attached later 1, []⟩ ∧
      later.Carries rest sent ∧ later.authenticated = connection.authenticated := by
  have reset : (liftM resetSeq : SessionM Unit) ⟨{ client with fd := some connection }, []⟩ =
      .ok () ⟨client.attached connection 0, []⟩ := rfl
  rcases readCommand_attached client carries handshake.fits with
    ⟨later, read, carriesLater, flag⟩
  have info := takes_removeServerInfo handshake (client.attached later (0 + 1)) handshake.authData
  rw [← HandshakeFields.payload] at info
  have data : (liftM (removeAuthData handshake.challengeStart) : SessionM (Bytes × Bytes))
      ⟨(client.attached later (0 + 1)).store handshake.toHandshakeFields, handshake.authData⟩ =
      .ok (handshake.authPluginName, handshake.challengeData)
        ⟨(client.attached later (0 + 1)).store handshake.toHandshakeFields, []⟩ :=
    Stateful.zoom_of_ok (removeAuthData_of_le handshake announced)
  have stripped : stripNul handshake.challengeData = .ok handshake.challenge :=
    stripNul_of_nonempty (challengeData_ne_nil handshake announced)
  refine ⟨later, ?_, carriesLater, flag⟩
  rw [readHandshake, Stateful.bind_of_ok reset, Stateful.bind_of_ok read,
    Stateful.bind_of_ok info, Stateful.bind_of_ok data]
  simp only [stripped]
  rfl

/-- An OK packet ends the loop. -/
theorem awaitAuthentication_ok (client : Client) (authPluginName : Bytes) (fuel : ℕ)
    (carries : connection.Carries (packet seq (0x00 :: payload) ++ rest) sent)
    (fits : (0x00 :: payload : Bytes).length < 2 ^ 24) :
    ∃ later : Connection, awaitAuthentication authPluginName (fuel + 1)
        ⟨client.attached connection seq, []⟩ =
          .ok () ⟨client.attached later (seq + 1), payload⟩ ∧
      later.Carries rest sent ∧ later.authenticated = true := by
  rcases readCommand_attached client carries fits with ⟨later, read, carriesLater, _⟩
  refine ⟨{ later with authenticated := true }, ?_,
    ⟨carriesLater.incoming_eq, carriesLater.sent_eq, carriesLater.healthy⟩, rfl⟩
  rw [awaitAuthentication, Stateful.bind_of_ok read]
  exact decode_attached (decodes_removeU8 0x00) _ payload

/-- The server had the account in its cache. -/
theorem awaitAuthentication_cached (client : Client) (fuel : ℕ)
    (carries : connection.Carries (packet seq [0x01, 0x03] ++ rest) sent) :
    ∃ later : Connection, awaitAuthentication cachingSha2Password (fuel + 1)
        ⟨client.attached connection seq, []⟩ =
          awaitAuthentication cachingSha2Password fuel ⟨client.attached later (seq + 1), []⟩ ∧
      later.Carries rest sent := by
  rcases readCommand_attached client carries (by decide) with
    ⟨later, read, carriesLater, _⟩
  refine ⟨later, ?_, carriesLater⟩
  rw [awaitAuthentication, Stateful.bind_of_ok read]
  refine (decode_attached (decodes_removeU8 0x01) _ [0x03]).trans ?_
  exact decode_attached (decodes_removeU8 0x03) _ []

theorem awaitAuthentication_acceptance (client : Client) (server : LoginServer) (fuel : ℕ)
    (carries : connection.Carries (packets seq server.acceptance ++ rest) sent) :
    ∃ (later : Connection) (last : UInt8), awaitAuthentication cachingSha2Password (fuel + 2)
        ⟨client.attached connection seq, []⟩ =
          .ok () ⟨client.attached later last, server.okFields⟩ ∧
      later.Carries rest sent ∧ later.authenticated = true := by
  have okFits : (0x00 :: server.okFields : Bytes).length < 2 ^ 24 := by
    have fits := server.okFits
    rw [List.length_cons]
    omega
  cases known : server.cached with
  | false =>
      simp only [acceptance, known, Bool.false_eq_true, if_false, List.nil_append, packets,
        List.append_nil] at carries
      rcases awaitAuthentication_ok client cachingSha2Password (fuel + 1) carries okFits with
        ⟨later, ends, carriesLater, flag⟩
      exact ⟨later, seq + 1, ends, carriesLater, flag⟩
  | true =>
      simp only [acceptance, known, if_true, List.cons_append, List.nil_append, packets,
        List.append_nil, List.append_assoc] at carries
      rcases awaitAuthentication_cached client (fuel + 1) carries with
        ⟨middle, continues, carriesMiddle⟩
      rcases awaitAuthentication_ok client cachingSha2Password fuel carriesMiddle okFits with
        ⟨later, ends, carriesLater, flag⟩
      exact ⟨later, seq + 1 + 1, continues.trans ends, carriesLater, flag⟩

/-- The ERR packet of the server is reported with its code and its message. -/
theorem awaitAuthentication_denial (client : Client) (server : LoginServer)
    (authPluginName : Bytes) (fuel : ℕ)
    (carries : connection.Carries (packet seq server.errPayload ++ rest) sent) :
    ∃ (later : Connection) (buf : Bytes), awaitAuthentication authPluginName (fuel + 1)
        ⟨client.attached connection seq, []⟩ =
          .error server.denial ⟨client.attached later (seq + 1), buf⟩ ∧
      later.authenticated = connection.authenticated := by
  have messageFits := server.messageFits
  have small : server.message.length < 2 ^ 31 := by omega
  have marker : Decodes front (drain 1) (ascii "#") () := decodes_drain (ascii "#")
  have state : Decodes front (removeString 5) server.sqlstate server.sqlstate := by
    rw [← server.sqlstateLength]
    exact decodes_removeString (by rw [server.sqlstateLength]; norm_num)
  have fits : server.errPayload.length < 2 ^ 24 := by
    simp only [errPayload, List.length_append, length_leBytes, server.sqlstateLength,
      List.length_singleton]
    have one : (ascii "#").length = 1 := rfl
    omega
  rcases readCommand_attached client carries fits with ⟨later, read, _, flag⟩
  have message : (liftM removeStringEof : SessionM Bytes)
      ⟨client.attached later (seq + 1), server.message⟩ =
        .ok server.message ⟨client.attached later (seq + 1), []⟩ :=
    Stateful.zoom_of_ok (removeStringEof_ok small)
  refine ⟨later, [], ?_, flag⟩
  rw [awaitAuthentication, Stateful.bind_of_ok read]
  apply (decode_attached (decodes_removeU8 0xFF) _ _).trans
  apply (decode_attached (decodes_removeLe (by norm_num) server.errorCodeFits) _ _).trans
  apply (decode_attached marker _ _).trans
  apply (decode_attached state _ _).trans
  exact Stateful.bind_of_ok message

section Login

variable {lib : Library} (digest : ∀ data, (lib.sha256 data).length = 0x20)

include digest

/-- The client sends its answer and waits for the replies. -/
theorem initialHandshake_attached (client : Client) (server : LoginServer) (fuel : ℕ)
    (announced : 8 ≤ server.handshake.authPluginDataLength.toNat)
    (carries : connection.Carries (packet 0 server.handshake.payload ++ rest) sent) :
    ∃ later : Connection, initialHandshake lib fuel ⟨{ client with fd := some connection }, []⟩ =
        awaitAuthentication cachingSha2Password fuel
          ⟨(client.store server.handshake.toHandshakeFields).attached later 2, []⟩ ∧
      later.Carries rest
        (sent ++ packet 1 (client.loginRequest lib server.handshake).payload) ∧
      later.authenticated = connection.authenticated := by
  rcases readHandshake_attached client announced carries with
    ⟨middle, read, carriesMiddle, flag⟩
  rcases writeCommand_attached (client.store server.handshake.toHandshakeFields) 1
    (client.loginRequest lib server.handshake).payload carriesMiddle with
    ⟨later, wrote, carriesLater, flagLater⟩
  have computed : computeAuthResponse lib server.handshake.authPluginName
      server.handshake.challenge client.password =
      .ok (client.loginRequest lib server.handshake).authResponse := by
    rw [server.pluginName]
    exact computeAuthResponse_eq digest _ _
  have added : (liftM (addHandshakeResponse client.username
      (client.loginRequest lib server.handshake).authResponse server.handshake.authPluginName) :
        SessionM Unit)
      ⟨(client.store server.handshake.toHandshakeFields).attached middle 1, []⟩ =
      .ok () ⟨(client.store server.handshake.toHandshakeFields).attached middle 1,
        (client.loginRequest lib server.handshake).payload⟩ :=
    Stateful.zoom_of_ok (addHandshakeResponse_eq (client.loginRequest lib server.handshake))
  refine ⟨later, ?_, carriesLater, flagLater.trans flag⟩
  rw [initialHandshake_eq, Stateful.bind_of_ok read, answerHandshake,
    Stateful.bind_of_ok (get_eq _)]
  simp only [attached, store, computed]
  apply (Stateful.bind_of_ok added).trans
  apply (Stateful.bind_of_ok wrote).trans
  rw [server.pluginName]
  rfl

omit digest in
theorem connect_eq (lib : Library) (socket : Socket) (fuel : ℕ) (closed : client.fd = none) :
    connect lib (.ok socket) fuel client =
      withBuffer (initialHandshake lib fuel) { client with fd := some (.opened socket) } := by
  have state : (get : ClientM Client) client = .ok client client := rfl
  unfold connect
  rw [Stateful.bind_of_ok state, if_neg (by simp [closed])]
  rfl

/-- The replies of the server decide how the call ends. -/
theorem connect_replied (server : LoginServer) {socket : Socket} (fuel : ℕ)
    (closed : client.fd = none) (name : 0 ∉ client.username)
    (announced : 8 ≤ server.handshake.authPluginDataLength.toNat) (healthy : socket.Healthy)
    (dialogue : socket.incoming = packet 0 server.handshake.payload ++
      (packets 2 (server.replies lib (client.loginRequest lib server.handshake).payload) ++ rest)) :
    if server.grants lib (client.loginRequest lib server.handshake) then
      ∃ (later : Connection) (last : UInt8),
        connect lib (.ok socket) (fuel + 2) client =
          .ok () ((client.store server.handshake.toHandshakeFields).attached later last) ∧
        later.authenticated = true ∧
        later.Carries rest
          (socket.sent ++ packet 1 (client.loginRequest lib server.handshake).payload)
    else
      ∃ later : Connection, connect lib (.ok socket) (fuel + 2) client =
          .error server.denial
            ((client.store server.handshake.toHandshakeFields).attached later 3) ∧
        later.authenticated = false := by
  rw [connect_eq lib socket _ closed]
  rw [replies_loginRequest digest name] at dialogue
  have carries : (Connection.opened socket).Carries (packet 0 server.handshake.payload ++
      (packets 2 (if server.grants lib (client.loginRequest lib server.handshake) then
        server.acceptance else [server.errPayload]) ++ rest)) socket.sent :=
    ⟨dialogue, rfl, healthy⟩
  rcases initialHandshake_attached digest client server (fuel + 2) announced carries with
    ⟨middle, shaken, carriesMiddle, unauthenticated⟩
  split
  · rename_i granted
    rw [if_pos granted] at carriesMiddle
    rcases awaitAuthentication_acceptance (client.store server.handshake.toHandshakeFields) server
      fuel carriesMiddle with
      ⟨later, last, ends, carriesLater, flag⟩
    refine ⟨later, last, ?_, flag, carriesLater⟩
    simp only [withBuffer, Stateful.zoom, shaken.trans ends]
  · rename_i denied
    rw [if_neg denied, packets, packets, List.append_nil] at carriesMiddle
    rcases awaitAuthentication_denial (client.store server.handshake.toHandshakeFields) server
      cachingSha2Password (fuel + 1) carriesMiddle with ⟨later, buf, raised, flag⟩
    refine ⟨later, ?_, flag.trans unauthenticated⟩
    simp only [withBuffer, Stateful.zoom, shaken.trans raised]
    rfl

end Login

section Samples

/-- SHA-256 of `p`. -/
def sampleHash : Bytes :=
  beBytes 32 0x148DE9C5A7A44D19E56CD9AE1A554BF67847AFB0C58F6E12FA29AC7DDFCA9940

/-- SHA-256 of that. -/
def sampleHashHash : Bytes :=
  beBytes 32 0x990FDC3DB6BA7E8BF6633957B11B9AD759D7EAA5CC7848C422F0EEA551ECDBA9

/-- A handshake for the auth plugin that the client implements. -/
def shaHandshake : Handshake where
  toHandshakeFields := { announcing 21 with authPluginName := cachingSha2Password }
  version_text := (announced 21 le_rfl).version_text
  connectionId_lt := (announced 21 le_rfl).connectionId_lt
  challengeStart_length := (announced 21 le_rfl).challengeStart_length
  capFlagsLow_lt := (announced 21 le_rfl).capFlagsLow_lt
  statusFlags_lt := (announced 21 le_rfl).statusFlags_lt
  capFlagsHigh_lt := (announced 21 le_rfl).capFlagsHigh_lt
  reserved_length := (announced 21 le_rfl).reserved_length
  challengeEnd_length := (announced 21 le_rfl).challengeEnd_length
  pluginName_text := (by decide : (0 : UInt8) ∉ cachingSha2Password)
  fits := (by norm_num : 71 < 2 ^ 24)

/-- The hash function on what is hashed when the client logs in with the password `p`. -/
def sampleLibrary : Library :=
  { unusedLibrary with
    sha256 := fun data =>
      if data = ascii "p" then sampleHash
      else if data = sampleHash then sampleHashHash
      else beBytes 32 (if data = sampleHashHash ++ shaHandshake.challenge then
        0x484D177C4FD935CE4F3E50A331E5F530C62C7BEC49CF9BF9AB1E69C5FCE934F1 else 0) }

theorem length_sampleDigest (data : Bytes) : (sampleLibrary.sha256 data).length = 0x20 := by
  simp only [sampleLibrary]
  split
  · rfl
  · split
    · rfl
    · exact length_beBytes 32 _

/-- A server with an account for `r` that it has in its cache. -/
def sampleServer : LoginServer where
  handshake := shaHandshake
  stored := fun username => if username = ascii "r" then some sampleHashHash else none
  cached := true
  okFields := [0, 0, 2, 0, 0, 0]
  errorCode := 1045
  sqlstate := ascii "28000"
  message := ascii "Access denied"
  pluginName := rfl
  errorCodeFits := by norm_num
  sqlstateLength := rfl
  okFits := (by norm_num : 6 < 2 ^ 24 - 1)
  messageFits := (by norm_num : 13 < 2 ^ 24 - 9)

def loginClient : Client :=
  create (ascii "r") (ascii "p")

/-- The server sends one more byte after it has accepted the client. -/
def loginSocket : Socket :=
  .bytewise (packet 0 shaHandshake.payload ++ (packets 2 (sampleServer.replies sampleLibrary
    (loginClient.loginRequest sampleLibrary shaHandshake).payload) ++ [9]))

end Samples

end Client

end EventAsync.MySQL
