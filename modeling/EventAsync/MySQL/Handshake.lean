import EventAsync.MySQL.ClientTransfers

/-!
# Reading the initial handshake

The server opens a connection with one packet, in which the length of the second
part of the challenge follows from a byte that the server chooses.  The client
computes that length from `auth_plugin_data_length - 8`, an `int` that it stores
in a `size_t` before it compares it with 13.  For a byte below 8 the length is
greater than any string can be, and the handshake fails although the packet
holds the 13 bytes that the protocol prescribes.
-/

namespace EventAsync.MySQL

open ByteCodec Decoding

/-- The contents of an initial handshake of protocol version 10. -/
structure HandshakeFields where
  serverVersion : Bytes
  connectionId : ℕ
  challengeStart : Bytes
  filler : UInt8
  capFlagsLow : ℕ
  charset : UInt8
  statusFlags : ℕ
  capFlagsHigh : ℕ
  authPluginDataLength : UInt8
  reserved : Bytes
  challengeEnd : Bytes
  authPluginName : Bytes

namespace HandshakeFields

/-- What `Client.removeServerInfo` takes. -/
def serverInfo (fields : HandshakeFields) : Bytes :=
  [10] ++ (fields.serverVersion ++ [0] ++ (leBytes 4 fields.connectionId ++
    (fields.challengeStart ++ ([fields.filler] ++ (leBytes 2 fields.capFlagsLow ++
      ([fields.charset] ++ (leBytes 2 fields.statusFlags ++ leBytes 2 fields.capFlagsHigh)))))))

/-- What `Client.removeAuthData` takes. -/
def authData (fields : HandshakeFields) : Bytes :=
  [fields.authPluginDataLength] ++ (fields.reserved ++ (fields.challengeEnd ++
    (fields.authPluginName ++ [0])))

def payload (fields : HandshakeFields) : Bytes :=
  fields.serverInfo ++ fields.authData

def capFlags (fields : HandshakeFields) : ℕ :=
  fields.capFlagsLow + 2 ^ 16 * fields.capFlagsHigh

/-- The announced number of bytes of the concatenated challenge. -/
def challengeData (fields : HandshakeFields) : Bytes :=
  (fields.challengeStart ++ fields.challengeEnd).take fields.authPluginDataLength.toNat

/-- The challenge without one NUL at its end. -/
def challenge (fields : HandshakeFields) : Bytes :=
  if fields.challengeData.getLast? = some 0 then fields.challengeData.dropLast
  else fields.challengeData

end HandshakeFields

/-- An initial handshake as the protocol prescribes it. -/
structure Handshake extends HandshakeFields where
  version_text : 0 ∉ serverVersion
  connectionId_lt : connectionId < 2 ^ 32
  challengeStart_length : challengeStart.length = 8
  capFlagsLow_lt : capFlagsLow < 2 ^ 16
  statusFlags_lt : statusFlags < 2 ^ 16
  capFlagsHigh_lt : capFlagsHigh < 2 ^ 16
  reserved_length : reserved.length = 10
  challengeEnd_length : (challengeEnd.length : ℤ) = max 13 ((authPluginDataLength.toNat : ℤ) - 8)
  pluginName_text : 0 ∉ authPluginName
  fits : toHandshakeFields.payload.length < 2 ^ 24

namespace Client

open Buffer ProtocolBuffer

/-- `initial_handshake` up to the call of `compute_auth_response`: the name of the auth plugin and
the challenge that are passed on. -/
def readHandshake : SessionM (Bytes × Bytes) := do
  resetSeq
  readCommand
  let (authPluginName, authChallengeData) ← removeAuthData (← removeServerInfo)
  match stripNul authChallengeData with
  | .error stop => throw stop
  | .ok challenge => return (authPluginName, challenge)

/-- `initial_handshake` from the call of `compute_auth_response` on. -/
def answerHandshake (lib : Library) (fuel : ℕ) (authPluginName authChallengeData : Bytes) :
    SessionM Unit := do
  let client ← (get : ClientM Client)
  match computeAuthResponse lib authPluginName authChallengeData client.password with
  | .error exception => throw (.raised exception)
  | .ok authResponseData =>
      addHandshakeResponse client.username authResponseData authPluginName
      writeCommand
      awaitAuthentication authPluginName fuel

theorem initialHandshake_eq (lib : Library) (fuel : ℕ) :
    initialHandshake lib fuel =
      readHandshake >>= fun read => answerHandshake lib fuel read.1 read.2 := by
  simp only [initialHandshake, readHandshake, bind_assoc]
  congr 1
  funext _
  congr 1
  funext _
  congr 1
  funext challengeStart
  congr 1
  funext read
  cases stripNul read.2 with
  | error stop => rfl
  | ok challenge => rfl

/-- The action takes the given bytes from the front of the buffer, whatever follows, and leaves the
client as described. -/
def Takes {Result : Type} (action : SessionM Result) (client : Client) (bytes : Bytes)
    (result : Result) (after : Client) : Prop :=
  ∀ rest, action ⟨client, bytes ++ rest⟩ = .ok result ⟨after, rest⟩

namespace Takes

variable {Value Result : Type} {client after : Client} {first second bytes : Bytes} {value : Value}
  {result : Result}

theorem pure (result : Result) (client : Client) :
    Takes (Pure.pure result) client [] result client := by
  intro rest
  rfl

theorem decode_bind {action : BufferM Value} {next : Value → SessionM Result}
    (decodes : Decodes front action first value)
    (taken : Takes (next value) client second result after) :
    Takes (liftM action >>= next) client (first ++ second) result after := by
  intro rest
  have lifted : (liftM action : SessionM Value) ⟨client, first ++ (second ++ rest)⟩ =
      .ok value ⟨client, second ++ rest⟩ := Stateful.zoom_of_ok (decodes 0 (second ++ rest))
  rw [List.append_assoc, Stateful.bind_of_ok lifted]
  exact taken rest

theorem modify_bind {update : Client → Client} {next : Unit → SessionM Result}
    (taken : Takes (next ()) (update client) bytes result after) :
    Takes (liftM (modify update : ClientM Unit) >>= next) client bytes result after := by
  intro rest
  have modified : (liftM (modify update : ClientM Unit) : SessionM Unit) ⟨client, bytes ++ rest⟩ =
      .ok () ⟨update client, bytes ++ rest⟩ := rfl
  rw [Stateful.bind_of_ok modified]
  exact taken rest

/-- A check that does not fail. -/
theorem check {condition : Prop} [Decidable condition] {stop : Stop}
    {next : Unit → SessionM Result} (passes : ¬condition)
    (taken : Takes (next ()) client bytes result after) :
    Takes (if condition then (throw stop : SessionM Unit) >>= next else next ()) client bytes result
      after := by
  rwa [if_neg passes]

end Takes

/-- The client after the server info of a handshake. -/
def store (client : Client) (fields : HandshakeFields) : Client :=
  { client with
    serverVersion := fields.serverVersion
    connectionId := fields.connectionId
    serverCapFlags := fields.capFlags
    charset := fields.charset
    statusFlags := fields.statusFlags }

/-- The client has stored the server info of a handshake. -/
structure Stores (client : Client) (fields : HandshakeFields) : Prop where
  serverVersion_eq : client.serverVersion = fields.serverVersion
  connectionId_eq : client.connectionId = fields.connectionId
  serverCapFlags_eq : client.serverCapFlags = fields.capFlags

variable {client : Client} {rest : Bytes}

theorem takes_removeServerInfo (handshake : Handshake) (client : Client) :
    Takes removeServerInfo client handshake.serverInfo handshake.challengeStart
      (client.store handshake.toHandshakeFields) := by
  have flags : handshake.capFlagsLow ||| handshake.capFlagsHigh <<< 16 = handshake.capFlags := by
    rw [Nat.or_comm, ← Nat.shiftLeft_add_eq_or_of_lt handshake.capFlagsLow_lt,
      Nat.shiftLeft_eq, HandshakeFields.capFlags]
    omega
  apply Takes.decode_bind (decodes_removeU8 10)
  apply Takes.check (by decide)
  apply Takes.decode_bind (decodes_readln handshake.version_text)
  apply Takes.modify_bind
  apply Takes.decode_bind (decodes_removeLe (by norm_num) handshake.connectionId_lt)
  apply Takes.modify_bind
  apply Takes.decode_bind
  · rw [← handshake.challengeStart_length]
    exact decodes_removeString (by rw [handshake.challengeStart_length]; norm_num)
  apply Takes.decode_bind (decodes_removeU8 handshake.filler)
  apply Takes.decode_bind (decodes_removeLe (by norm_num) handshake.capFlagsLow_lt)
  apply Takes.modify_bind
  apply Takes.decode_bind (decodes_removeU8 handshake.charset)
  apply Takes.modify_bind
  apply Takes.decode_bind (decodes_removeLe (by norm_num) handshake.statusFlags_lt)
  apply Takes.modify_bind
  rw [← List.append_nil (leBytes 2 handshake.capFlagsHigh)]
  apply Takes.decode_bind (decodes_removeLe (by norm_num) handshake.capFlagsHigh_lt)
  apply Takes.modify_bind
  rw [flags]
  apply Takes.pure

theorem remainingAuthDataLength_of_le {length : UInt8} (le : 8 ≤ length.toNat) :
    (remainingAuthDataLength length : ℤ) = max 13 ((length.toNat : ℤ) - 8) := by
  have bound := length.toNat_lt
  have difference : sizeSub length.toNat 8 = length.toNat - 8 := by
    simp only [sizeSub]
    omega
  rw [remainingAuthDataLength, difference]
  omega

/-- The `int` is negative, and the `size_t` is not. -/
theorem stringMaxSize_lt_of_lt {length : UInt8} (lt : length.toNat < 8) :
    stringMaxSize < remainingAuthDataLength length := by
  have difference : sizeSub length.toNat 8 = 2 ^ 64 + length.toNat - 8 := by
    simp only [sizeSub]
    omega
  rw [remainingAuthDataLength, difference, stringMaxSize]
  omega

theorem stripNul_of_nonempty {data : Bytes} (nonempty : data ≠ []) :
    stripNul data = .ok (if data.getLast? = some 0 then data.dropLast else data) := by
  rw [stripNul, List.getLast?_eq_some_getLast nonempty]
  simp

theorem resize_of_le {str : Bytes} {size : ℕ} (le : size ≤ str.length) :
    resize str size = str.take size := by
  rw [resize, Nat.sub_eq_zero_of_le le, List.replicate_zero, List.append_nil]

theorem removeAuthData_of_le (handshake : Handshake)
    (le : 8 ≤ handshake.authPluginDataLength.toNat) :
    removeAuthData handshake.challengeStart handshake.authData =
      .ok (handshake.authPluginName, handshake.challengeData) [] := by
  have bound := handshake.authPluginDataLength.toNat_lt
  have length := handshake.challengeEnd_length
  have announced : remainingAuthDataLength handshake.authPluginDataLength =
      handshake.challengeEnd.length := by
    have remaining := remainingAuthDataLength_of_le le
    omega
  have small : handshake.challengeEnd.length < 2 ^ 31 := by omega
  have complete : handshake.authPluginDataLength.toNat ≤
      (handshake.challengeStart ++ handshake.challengeEnd).length := by
    rw [List.length_append, handshake.challengeStart_length]
    omega
  have lengthRemoved := decodes_removeU8 handshake.authPluginDataLength 0
    (handshake.reserved ++ (handshake.challengeEnd ++ (handshake.authPluginName ++ [0])))
  have drained := decodes_drain handshake.reserved 0
    (handshake.challengeEnd ++ (handshake.authPluginName ++ [0]))
  have endRemoved := decodes_removeString small 0 (handshake.authPluginName ++ [0])
  have nameRemoved := decodes_readln handshake.pluginName_text 0 []
  have consumed : getLength [] = .ok 0 [] := rfl
  rw [List.append_nil] at nameRemoved
  rw [handshake.reserved_length] at drained
  simp only [front] at lengthRemoved drained endRemoved nameRemoved
  rw [removeAuthData, HandshakeFields.authData, Stateful.bind_of_ok lengthRemoved,
    Stateful.bind_of_ok drained, announced, Stateful.bind_of_ok endRemoved, removeString0,
    Stateful.bind_of_ok nameRemoved, Stateful.bind_of_ok consumed, resize_of_le complete]
  rfl

/-- The string for the second part of the challenge cannot be made. -/
theorem removeAuthData_of_lt {length : UInt8} (lt : length.toNat < 8)
    (challengeStart rest : Bytes) :
    removeAuthData challengeStart (length :: rest) =
      .error (.raised (.lengthError "basic_string::_M_create")) (rest.drop 10) := by
  have lengthRemoved := decodes_removeU8 length 0 rest
  have drained : drain 10 rest = .ok () (rest.drop 10) := rfl
  simp only [front, List.singleton_append] at lengthRemoved
  rw [removeAuthData, Stateful.bind_of_ok lengthRemoved, Stateful.bind_of_ok drained]
  apply Stateful.bind_of_error
  rw [removeString, if_pos (stringMaxSize_lt_of_lt lt)]
  rfl

/-- The packet of the handshake is read, and the server info in it is stored. -/
theorem exists_taken (handshake : Handshake)
    (receives : client.Receives (packet 0 handshake.payload ++ rest)) :
    ∃ taken : Session,
      (do resetSeq; readCommand; removeServerInfo : SessionM Bytes) ⟨client, []⟩ =
        .ok handshake.challengeStart taken ∧
      taken.Holds 1 handshake.authData rest ∧ taken.client.Stores handshake.toHandshakeFields := by
  rcases receives with ⟨connection, isOpen, unread, healthy⟩
  have reset : (liftM resetSeq : SessionM Unit) ⟨client, []⟩ =
      .ok () ⟨{ client with nextSeq := 0 }, []⟩ := rfl
  have held : Session.Holds ⟨{ client with nextSeq := 0 }, []⟩ 0 []
      (packet 0 handshake.payload ++ rest) :=
    ⟨⟨connection, isOpen, rfl, unread, rfl, healthy⟩, rfl⟩
  rcases readCommand_ok held handshake.fits with ⟨read, accepted, heldRead⟩
  have taken := takes_removeServerInfo handshake read.client handshake.authData
  rw [← HandshakeFields.payload, ← heldRead.buf_eq] at taken
  refine ⟨⟨read.client.store handshake.toHandshakeFields, handshake.authData⟩,
    ?_, ?_, rfl, rfl, rfl⟩
  · rw [Stateful.bind_of_ok reset, Stateful.bind_of_ok accepted]
    exact taken
  · rcases heldRead with ⟨⟨openConnection, isOpenRead, heldStream⟩, counted⟩
    exact ⟨⟨openConnection, isOpenRead, rfl, heldStream.incoming_eq, rfl, heldStream.healthy⟩,
      counted⟩

/-- The client reads the handshake whole and goes on with what it holds. -/
def ReadsHandshake (client : Client) (handshake : Handshake) (rest : Bytes) : Prop :=
  ∃ after : Session,
    readHandshake ⟨client, []⟩ = .ok (handshake.authPluginName, handshake.challenge) after ∧
    after.Holds 1 [] rest ∧ after.client.Stores handshake.toHandshakeFields ∧
    ∀ lib fuel, initialHandshake lib fuel ⟨client, []⟩ =
      answerHandshake lib fuel handshake.authPluginName handshake.challenge after

theorem readHandshake_eq :
    readHandshake =
      (do resetSeq; readCommand; removeServerInfo : SessionM Bytes) >>= fun challengeStart => do
        let (authPluginName, authChallengeData) ← removeAuthData challengeStart
        match stripNul authChallengeData with
        | .error stop => throw stop
        | .ok challenge => return (authPluginName, challenge) := by
  simp only [readHandshake, bind_assoc]

theorem readHandshake_of_le (handshake : Handshake)
    (receives : client.Receives (packet 0 handshake.payload ++ rest))
    (le : 8 ≤ handshake.authPluginDataLength.toNat) :
    ∃ after : Session,
      readHandshake ⟨client, []⟩ = .ok (handshake.authPluginName, handshake.challenge) after ∧
      after.Holds 1 [] rest ∧ after.client.Stores handshake.toHandshakeFields := by
  rcases exists_taken handshake receives with ⟨taken, ends, held, stores⟩
  have nonempty : handshake.challengeData ≠ [] := by
    intro empty
    have length := congrArg List.length empty
    rw [HandshakeFields.challengeData, List.length_take, List.length_append,
      handshake.challengeStart_length, List.length_nil] at length
    omega
  have stripped : stripNul handshake.challengeData = .ok handshake.challenge :=
    stripNul_of_nonempty nonempty
  have removed : (liftM (removeAuthData handshake.challengeStart) : SessionM (Bytes × Bytes))
      taken =
      .ok (handshake.authPluginName, handshake.challengeData) { taken with buf := [] } := by
    apply Stateful.zoom_of_ok
    rw [held.buf_eq]
    exact removeAuthData_of_le handshake le
  refine ⟨{ taken with buf := [] }, ?_, ?_, stores⟩
  · rw [readHandshake_eq, Stateful.bind_of_ok ends, Stateful.bind_of_ok removed]
    simp only [stripped]
    rfl
  · rcases held with ⟨⟨connection, isOpen, heldStream⟩, counted⟩
    exact ⟨⟨connection, isOpen, rfl, heldStream.incoming_eq, rfl, heldStream.healthy⟩, counted⟩

theorem readHandshake_of_lt (handshake : Handshake)
    (receives : client.Receives (packet 0 handshake.payload ++ rest))
    (lt : handshake.authPluginDataLength.toNat < 8) :
    ∃ after, readHandshake ⟨client, []⟩ =
      .error (.raised (.lengthError "basic_string::_M_create")) after := by
  rcases exists_taken handshake receives with ⟨taken, ends, held, _⟩
  have raised : (liftM (removeAuthData handshake.challengeStart) : SessionM (Bytes × Bytes)) taken =
      .error (.raised (.lengthError "basic_string::_M_create"))
        { taken with buf := (handshake.authData.drop 1).drop 10 } := by
    apply Stateful.zoom_of_error
    rw [held.buf_eq]
    exact removeAuthData_of_lt lt _ _
  refine ⟨{ taken with buf := (handshake.authData.drop 1).drop 10 }, ?_⟩
  rw [readHandshake_eq, Stateful.bind_of_ok ends, Stateful.bind_of_error raised]

theorem not_readsHandshake_of_lt (handshake : Handshake)
    (receives : client.Receives (packet 0 handshake.payload ++ rest))
    (lt : handshake.authPluginDataLength.toNat < 8) : ¬client.ReadsHandshake handshake rest := by
  rintro ⟨after, ends, _⟩
  rcases readHandshake_of_lt handshake receives lt with ⟨failed, raised⟩
  rw [raised] at ends
  cases ends

/-- The handshake is read exactly if the length byte is at least 8. -/
theorem readsHandshake_iff (handshake : Handshake)
    (receives : client.Receives (packet 0 handshake.payload ++ rest)) :
    client.ReadsHandshake handshake rest ↔ 8 ≤ handshake.authPluginDataLength.toNat := by
  constructor
  · intro reads
    by_contra lt
    exact not_readsHandshake_of_lt handshake receives (by omega) reads
  · intro le
    rcases readHandshake_of_le handshake receives le with ⟨after, ends, held, stores⟩
    refine ⟨after, ends, held, stores, ?_⟩
    intro lib fuel
    rw [initialHandshake_eq, Stateful.bind_of_ok ends]

/-- A handshake with 13 more challenge bytes, which are right for a length of 21 or less. -/
def announcing (length : UInt8) : HandshakeFields where
  serverVersion := [0x38, 0x2E, 0x30]
  connectionId := 9
  challengeStart := List.replicate 8 0x61
  filler := 0
  capFlagsLow := 0xA201
  charset := 0xFF
  statusFlags := 0x4002
  capFlagsHigh := 0x012B
  authPluginDataLength := length
  reserved := List.replicate 10 0
  challengeEnd := List.replicate 12 0x62 ++ [0]
  authPluginName := [0x78]

theorem announcing_length (length : UInt8) (le : length.toNat ≤ 21) :
    ((announcing length).challengeEnd.length : ℤ) =
      max 13 (((announcing length).authPluginDataLength.toNat : ℤ) - 8) := by
  simp only [announcing, List.length_append, List.length_replicate, List.length_singleton]
  omega

def announced (length : UInt8) (le : length.toNat ≤ 21) : Handshake where
  toHandshakeFields := announcing length
  version_text := (by decide : (0 : UInt8) ∉ [0x38, 0x2E, 0x30])
  connectionId_lt := (by decide : 9 < 2 ^ 32)
  challengeStart_length := rfl
  capFlagsLow_lt := (by decide : 0xA201 < 2 ^ 16)
  statusFlags_lt := (by decide : 0x4002 < 2 ^ 16)
  capFlagsHigh_lt := (by decide : 0x012B < 2 ^ 16)
  reserved_length := rfl
  challengeEnd_length := announcing_length length le
  pluginName_text := (by decide : (0 : UInt8) ∉ [0x78])
  fits := (by norm_num : 51 < 2 ^ 24)

/-- A client that the server has sent its handshake to. -/
def greeted (handshake : Handshake) : Client :=
  { create [0x72] [] with
    fd := some (.opened (.bytewise (packet 0 handshake.payload))) }

theorem receives_greeted (handshake : Handshake) :
    (greeted handshake).Receives (packet 0 handshake.payload ++ []) :=
  ⟨_, rfl, (List.append_nil _).symm, Socket.healthy_bytewise _⟩

theorem readsHandshake_twentyOne :
    (greeted (announced 21 le_rfl)).ReadsHandshake (announced 21 le_rfl) [] :=
  (readsHandshake_iff _ (receives_greeted _)).mpr (by decide)

/-- A server that announces no challenge sends a handshake that is not read. -/
theorem not_readsHandshake_unannounced :
    (greeted (announced 0 (by decide))).Receives
      (packet 0 (announced 0 (by decide)).payload ++ []) ∧
    ¬(greeted (announced 0 (by decide))).ReadsHandshake (announced 0 (by decide)) [] :=
  ⟨receives_greeted _, not_readsHandshake_of_lt _ (receives_greeted _) (by decide)⟩

end Client

end EventAsync.MySQL
