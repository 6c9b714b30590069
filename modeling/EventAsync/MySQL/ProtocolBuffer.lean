import EventAsync.BufferDecoding
import EventAsync.MySQL.Types

/-!
# The MySQL protocol buffer

`ProtocolBuffer` adds to `Buffer` the integer and string fields of the MySQL
protocol and the framing of commands.  A command is sent as a packet: its
length in three bytes, a sequence number in one byte, and the payload.

`write_command` puts the low 24 bits of the length into the header.  A payload
of 2^24 bytes or more is announced as shorter than it is, and the bytes beyond
the announced length are read as the next packet.
-/

namespace EventAsync.MySQL

open ByteCodec Decoding

namespace ProtocolBuffer

open Buffer

def removeU24l : BufferM ℕ := removeLe 3

def removeU48l : BufferM ℕ := removeLe 6

def removeVarint : BufferM ℕ := varint removeU8 removeU16l removeU24l removeU64l

def addU24l (value : ℕ) : BufferM Unit := add (leBytes 3 value)

def addU48l (value : ℕ) : BufferM Unit := add (leBytes 6 value)

def addVarint (value : ℕ) : BufferM Unit := do
  if value ≤ 0xFA then addU8 (UInt8.ofNat value)
  else if value ≤ 0xFFFF then
    addU8 0xFC
    addU16l value
  else if value ≤ 0xFFFFFF then
    addU8 0xFD
    addU24l value
  else
    addU8 0xFE
    addU64l value

def removeString0 : BufferM Bytes := readln

def removeVarString : BufferM Bytes := do
  removeString (← removeVarint)

def removeStringEof : BufferM Bytes := do
  removeString (← getLength)

def addString0 (str : Bytes) : BufferM Unit := add (str ++ [0])

def addVarString (str : Bytes) : BufferM Unit := do
  addVarint str.length
  add str

def addZeroes (count : ℕ) : BufferM Unit := do
  (List.range (count / 8)).forM fun _ => addU64l 0
  if count &&& 4 ≠ 0 then addU32l 0
  if count &&& 2 ≠ 0 then addU16l 0
  if count &&& 1 ≠ 0 then addU8 0

/-- Returns the sequence number. -/
def readCommand : StreamM UInt8 := do
  if (← getLength) ≠ 0 then
    throw (.raised (.logicError "attempted to read command into non-empty buffer"))
  readTo 4
  let commandLength ← removeU24l
  let commandSeq ← removeU8
  readTo commandLength
  return commandSeq

def writeCommand (seq : UInt8) : StreamM Unit := do
  let payload ← moveOut
  writeSeparately do
    addU24l payload.length
    addU8 seq
    add payload

/-- The packet of a command. -/
def packet (seq : UInt8) (payload : Bytes) : Bytes :=
  leBytes 3 payload.length ++ seq :: payload

/-- The packets of a sequence of commands, numbered modulo 256. -/
def packets : UInt8 → List Bytes → Bytes
  | _, [] => []
  | seq, payload :: payloads => packet seq payload ++ packets (seq + 1) payloads

theorem decodes_removeVarint {value : ℕ} (fits : value < 2 ^ 64) :
    Decodes front removeVarint (varintBytes value) value := by
  apply decodes_varint fits
  · exact decodes_removeU8
  · exact fun number small => decodes_removeLe (by norm_num) small
  · exact fun number small => decodes_removeLe (by norm_num) small
  · exact fun number small => decodes_removeLe (by norm_num) small

theorem decodes_removeVarString {str : Bytes} (small : str.length < 2 ^ 31) :
    Decodes front removeVarString (varStringBytes str) str :=
  (decodes_removeVarint (small.trans (by norm_num))).bind (decodes_removeString small)

variable {stream : Stream} {sent : Bytes} {seq : UInt8} {payload : Bytes}

theorem removeStringEof_ok (small : payload.length < 2 ^ 31) :
    removeStringEof payload = .ok payload [] := by
  have length : getLength payload = .ok payload.length payload := rfl
  have removed := decodes_removeString small 0 []
  rw [removeStringEof, Stateful.bind_of_ok length]
  simpa [front] using removed

theorem writeCommand_ok {incoming : Bytes} (holds : stream.Holds payload incoming sent)
    (seq : UInt8) :
    ∃ after, writeCommand seq stream = .ok () after ∧
      after.Holds [] incoming (sent ++ packet seq payload) := by
  have moved : Stream.Holds { stream with buf := [] } [] incoming sent :=
    ⟨rfl, holds.incoming_eq, holds.sent_eq, holds.healthy⟩
  have content : filled (do addU24l payload.length; addU8 seq; add payload) =
      packet seq payload := by
    simp [filled, addU24l, addU8, add, packet, bind, EStateM.bind, Stateful.endState]
  have nonempty : filled (do addU24l payload.length; addU8 seq; add payload) ≠ [] := by
    simp [content, packet]
  rcases writeSeparately_ok moved nonempty with ⟨after, wrote, holdsAfter⟩
  rw [content] at holdsAfter
  refine ⟨after, ?_, holdsAfter⟩
  have out : (liftM moveOut : StreamM Bytes) stream = .ok payload { stream with buf := [] } := by
    rw [← holds.buf_eq]
    exact Stateful.zoom_of_ok rfl
  simp only [writeCommand]
  rw [Stateful.bind_of_ok out, wrote]

theorem readCommand_eq_of_header {rest : Bytes} {length : ℕ}
    (holds : stream.Holds [] (leBytes 3 length ++ seq :: rest) sent) (fits : length < 2 ^ 24) :
    ∃ after : Stream, after.Holds [] rest sent ∧
      readCommand stream = (do readTo length; return seq) after := by
  have empty : (liftM getLength : StreamM ℕ) stream = .ok 0 stream := by
    cases stream with
    | mk buf socket =>
        rw [show buf = [] from holds.buf_eq]
        exact Stateful.zoom_of_ok rfl
  have split : leBytes 3 length ++ seq :: rest = (leBytes 3 length ++ [seq]) ++ rest := by simp
  rw [split] at holds
  rcases readTo_chunk holds (by simp) (by norm_num : 4 < 2 ^ 31) with
    ⟨header, readHeader, holdsHeader⟩
  have lengthFits : length < 256 ^ 3 := by omega
  rcases holdsHeader.decode (decodes_removeLe (by norm_num) lengthFits) with
    ⟨lengthTaken, removedLength, holdsSeq⟩
  rcases holdsSeq.decode (decodes_removeU8 seq) with ⟨headerTaken, removedSeq, holdsRest⟩
  refine ⟨headerTaken, holdsRest, ?_⟩
  rw [readCommand, Stateful.bind_of_ok empty]
  simp only [ne_eq, not_true_eq_false, if_false]
  rw [Stateful.bind_of_ok readHeader, removeU24l, Stateful.bind_of_ok removedLength]
  exact Stateful.bind_of_ok removedSeq

theorem readCommand_of_nonempty (nonempty : stream.buf ≠ []) :
    readCommand stream = .error
      (.raised (.logicError "attempted to read command into non-empty buffer")) stream := by
  have length : (liftM getLength : StreamM ℕ) stream = .ok stream.buf.length stream := rfl
  have positive : stream.buf.length ≠ 0 := List.length_eq_zero_iff.not.mpr nonempty
  rw [readCommand, Stateful.bind_of_ok length, if_pos positive]
  rfl

theorem readCommand_eof (holds : stream.Holds [] [] sent) :
    ∃ after, readCommand stream = .error (.runtimeError "end of stream") after ∧
      after.Holds [] [] sent := by
  have length : (liftM getLength : StreamM ℕ) stream = .ok stream.buf.length stream := rfl
  have empty : ¬stream.buf.length ≠ 0 := by simp [holds.buf_eq]
  rcases readTo_eof holds (by norm_num : 4 < 2 ^ 31) (by simp) with ⟨after, ends, heldAfter⟩
  refine ⟨after, ?_, heldAfter⟩
  rw [readCommand, Stateful.bind_of_ok length, if_neg empty]
  exact Stateful.bind_of_error ends

/-- Reading back a packet takes as much of the payload as the header announces. -/
theorem readCommand_packet {rest : Bytes}
    (holds : stream.Holds [] (packet seq payload ++ rest) sent) :
    ∃ after, readCommand stream = .ok seq after ∧
      after.Holds (payload.take (payload.length % 2 ^ 24))
        (payload.drop (payload.length % 2 ^ 24) ++ rest) sent := by
  have announced : packet seq payload ++ rest =
      leBytes 3 (payload.length % 2 ^ 24) ++ seq :: (payload ++ rest) := by
    have low := leBytes_mod 3 payload.length
    norm_num at low
    simp [packet, low]
  have bound : payload.length % 2 ^ 24 < 2 ^ 24 := Nat.mod_lt _ (by norm_num)
  have within : payload.length % 2 ^ 24 ≤ payload.length := Nat.mod_le _ _
  rw [announced] at holds
  rcases readCommand_eq_of_header holds bound with ⟨header, holdsHeader, reads⟩
  rw [← List.take_append_drop (payload.length % 2 ^ 24) payload, List.append_assoc] at holdsHeader
  rcases readTo_chunk holdsHeader (List.length_take_of_le within) (bound.trans (by norm_num)) with
    ⟨after, readRest, holdsAfter⟩
  refine ⟨after, ?_, holdsAfter⟩
  rw [reads, Stateful.bind_of_ok readRest]
  rfl

/-- What one side writes as a command to a socket is what the other side reads from it. -/
def RoundTrips (payload : Bytes) (seq : UInt8) (outgoing incoming : Socket) (following : Bytes) :
    Prop :=
  ∃ written, writeCommand seq { buf := payload, socket := outgoing } = .ok () written ∧
    ∃ bytes, written.socket.sent = outgoing.sent ++ bytes ∧
      ∃ after, readCommand
          { buf := [], socket := { incoming with incoming := bytes ++ following } } =
            .ok seq after ∧
        after.buf = payload ∧ after.socket.incoming = following

theorem roundTrips_iff_take {outgoing incoming : Socket} (outgoingHealthy : outgoing.Healthy)
    (incomingHealthy : incoming.Healthy) (payload : Bytes) (seq : UInt8) (following : Bytes) :
    RoundTrips payload seq outgoing incoming following ↔
      payload.take (payload.length % 2 ^ 24) = payload := by
  have holdsPayload : Stream.Holds { buf := payload, socket := outgoing } payload
      outgoing.incoming outgoing.sent := ⟨rfl, rfl, rfl, outgoingHealthy⟩
  have holdsPacket : Stream.Holds
      { buf := [], socket := { incoming with incoming := packet seq payload ++ following } }
      [] (packet seq payload ++ following) incoming.sent := ⟨rfl, rfl, rfl, incomingHealthy⟩
  rcases writeCommand_ok holdsPayload seq with ⟨written, wrote, holdsWritten⟩
  rcases readCommand_packet holdsPacket with ⟨after, read, holdsAfter⟩
  constructor
  · rintro ⟨written', wrote', bytes, sent, after', read', whole, _⟩
    rw [wrote] at wrote'
    cases wrote'
    rw [holdsWritten.sent_eq, List.append_cancel_left_eq] at sent
    rw [← sent, read] at read'
    cases read'
    rw [← holdsAfter.buf_eq, whole]
  · intro whole
    have complete : payload.drop (payload.length % 2 ^ 24) = [] := by
      have length := congrArg List.length whole
      simp only [List.length_take] at length
      exact List.drop_eq_nil_of_le (by omega)
    refine ⟨written, wrote, packet seq payload, holdsWritten.sent_eq, after, read, ?_, ?_⟩
    · rw [holdsAfter.buf_eq, whole]
    · rw [holdsAfter.incoming_eq, complete, List.nil_append]

theorem take_mod_eq_iff (payload : Bytes) :
    payload.take (payload.length % 2 ^ 24) = payload ↔ payload.length < 2 ^ 24 := by
  rw [List.take_eq_self_iff]
  omega

/-- A command survives the way over a stream exactly if its length fits the packet header. -/
theorem roundTrips_iff {outgoing incoming : Socket} (outgoingHealthy : outgoing.Healthy)
    (incomingHealthy : incoming.Healthy) (payload : Bytes) (seq : UInt8) (following : Bytes) :
    RoundTrips payload seq outgoing incoming following ↔ payload.length < 2 ^ 24 := by
  rw [roundTrips_iff_take outgoingHealthy incomingHealthy, take_mod_eq_iff]

theorem roundTrips_query :
    RoundTrips [3, 0x44, 0x4F] 0 (.bytewise []) (.bytewise []) (packet 1 [0]) ↔
      [3, 0x44, 0x4F].length < 2 ^ 24 :=
  roundTrips_iff (Socket.healthy_bytewise []) (Socket.healthy_bytewise []) [3, 0x44, 0x4F] 0
    (packet 1 [0])

/-- The length of a payload of 2^24 bytes is announced as zero. -/
theorem not_roundTrips_two_pow_24 :
    ¬RoundTrips (List.replicate (2 ^ 24) 0) 0 (.bytewise []) (.bytewise []) [] := by
  rw [roundTrips_iff_take (Socket.healthy_bytewise []) (Socket.healthy_bytewise []),
    take_mod_eq_iff,
    List.length_replicate]
  exact lt_irrefl _

end ProtocolBuffer

end EventAsync.MySQL
