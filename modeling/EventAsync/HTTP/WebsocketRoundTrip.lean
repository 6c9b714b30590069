import EventAsync.HTTP.WebsocketReassembly

/-!
# What one client writes, another one reads

`WebsocketClient::write` sends a message as one unmasked FIN frame, with its
length in the shortest of the three forms.  The receiver's thresholds are those
of the frame format, so that a receiver that is fed these bytes returns the
same messages, one for each call, and stops after the last byte of each.
-/

namespace EventAsync.HTTP

open ByteCodec

/-- A message that one call to `write` sends and one call to `read` returns. -/
structure DataMessage where
  opcode : UInt8
  data : Bytes
  isData : 1 ≤ opcode.toNat ∧ opcode.toNat ≤ 7
  dataSmall : data.length < 2 ^ 31

namespace DataMessage

def toMessage (message : DataMessage) : WebsocketMessage where
  opcode := message.opcode
  data := message.data

theorem no_key_fits : ∀ key ∈ (none : Option Bytes), key.length = 4 := by
  simp

/-- The frame that `write` sends for the message. -/
def frame (message : DataMessage) : Frame where
  head := 0x80 ||| message.opcode
  form := .shortest message.data.length
  maskKey := none
  payload := message.data
  lengthFits := Frame.shortest_fits message.dataSmall
  keyFits := no_key_fits
  payloadSmall := message.dataSmall

theorem opcode_masks (code : Fin 8) :
    UInt8.ofNat code &&& 0x0F = UInt8.ofNat code ∧
      (0x80 ||| UInt8.ofNat code) &&& 0x0F = UInt8.ofNat code ∧
      UInt8.ofNat code &&& 0x08 = 0 ∧ (0x80 ||| UInt8.ofNat code) &&& 0x80 ≠ 0 := by
  revert code
  decide

theorem opcode_bits (message : DataMessage) :
    message.opcode &&& 0x0F = message.opcode ∧
      (0x80 ||| message.opcode) &&& 0x0F = message.opcode ∧
      message.opcode &&& 0x08 = 0 ∧ (0x80 ||| message.opcode) &&& 0x80 ≠ 0 := by
  have bits := opcode_masks ⟨message.opcode.toNat, by have := message.isData; omega⟩
  simpa using bits

theorem opcode_ne_zero (message : DataMessage) : message.opcode ≠ 0 := by
  intro zero
  have positive := message.isData.1
  simp [zero] at positive

@[simp]
theorem opcode_frame (message : DataMessage) : message.frame.opcode = message.opcode :=
  message.opcode_bits.2.1

theorem isControl_frame (message : DataMessage) : message.frame.isControl = false := by
  simp [Frame.isControl, message.opcode_bits.2.2.1]

theorem fin_frame (message : DataMessage) : message.frame.fin = true := by
  exact decide_eq_true message.opcode_bits.2.2.2

theorem dataFrames_frame (message : DataMessage) :
    dataFrames [message.frame] = [message.frame] := by
  simp [dataFrames, message.isControl_frame]

theorem isMessage_frame (message : DataMessage) : IsMessage [message.frame] where
  controls := by simp [message.isControl_frame]
  fragments := by
    rw [dataFrames_frame]
    exact ⟨by simpa using message.opcode_ne_zero, by simp⟩
  final := ⟨[], message.frame, rfl, by simp [message.isControl_frame], message.fin_frame,
    by simp [dataFrames]⟩

theorem assembled_frame (message : DataMessage) :
    assembled [message.frame] = message.toMessage := by
  rw [assembled, dataFrames_frame]
  simp [toMessage, frame, Frame.opcode, message.opcode_bits.2.1]

/-- No reply is due to a data frame. -/
theorem pongs_frame (message : DataMessage) : pongs [message.frame] = [] := by
  have notPing := (opcode_ne_of_data message.isControl_frame).2
  rw [opcode_frame] at notPing
  simp [pongs, Frame.isPing, notPing]

end DataMessage

namespace WebsocketClient

/-- One call to `write` for each message. -/
def writeAll : List DataMessage → StreamM Unit
  | [] => return ()
  | message :: messages => do
      write message.data message.opcode
      writeAll messages

/-- A number of successive calls to `read`. -/
def readAll : ℕ → StreamM (List WebsocketMessage)
  | 0 => return []
  | count + 1 => do
      let message ← read
      let messages ← readAll count
      return message :: messages

variable {writer reader : Stream} {buf incoming sent rest : Bytes}

theorem write_frame (message : DataMessage) (holds : writer.Holds buf incoming sent) :
    ∃ after, write message.data message.opcode writer = .ok () after ∧
      after.Holds buf incoming (sent ++ message.frame.encode) :=
  write_ok message.frame holds message.opcode_bits.1

theorem read_frame (message : DataMessage)
    (holds : reader.Holds [] (message.frame.encode ++ rest) sent) :
    ∃ after, read reader = .ok message.toMessage after ∧ after.Holds [] rest sent := by
  have single : reader.Holds [] ([message.frame].flatMap Frame.encode ++ rest) sent := by
    simpa using holds
  rcases read_message message.isMessage_frame single with ⟨after, returned, holdsAfter⟩
  rw [message.assembled_frame] at returned
  rw [message.pongs_frame, List.append_nil] at holdsAfter
  exact ⟨after, returned, holdsAfter⟩

/-- What a sequence of calls to `write` sends. -/
def wire (messages : List DataMessage) : Bytes :=
  messages.flatMap fun message => message.frame.encode

theorem writeAll_ok (messages : List DataMessage) (holds : writer.Holds buf incoming sent) :
    ∃ after, writeAll messages writer = .ok () after ∧
      after.Holds buf incoming (sent ++ wire messages) := by
  induction messages generalizing writer sent with
  | nil => exact ⟨writer, rfl, by simpa [wire] using holds⟩
  | cons message messages ih =>
      rcases write_frame message holds with ⟨middle, first, holdsMiddle⟩
      rcases ih holdsMiddle with ⟨after, others, holdsAfter⟩
      refine ⟨after, ?_, by simpa [wire] using holdsAfter⟩
      rw [writeAll, Stateful.bind_of_ok first]
      exact others

theorem readAll_ok (messages : List DataMessage)
    (holds : reader.Holds [] (wire messages ++ rest) sent) :
    ∃ after, readAll messages.length reader = .ok (messages.map DataMessage.toMessage) after ∧
      after.Holds [] rest sent := by
  induction messages generalizing reader with
  | nil => exact ⟨reader, rfl, by simpa [wire] using holds⟩
  | cons message messages ih =>
      have first : reader.Holds [] (message.frame.encode ++ (wire messages ++ rest)) sent := by
        simpa [wire] using holds
      rcases read_frame message first with ⟨middle, returned, holdsMiddle⟩
      rcases ih holdsMiddle with ⟨after, others, holdsAfter⟩
      refine ⟨after, ?_, holdsAfter⟩
      rw [List.length_cons, readAll, Stateful.bind_of_ok returned, Stateful.bind_of_ok others]
      rfl

/-- The bytes that a sequence of calls to `write` sends, fed to a receiver, come back as the same
sequence of messages, and the receiver takes none of the bytes behind them. -/
theorem readAll_writeAll (messages : List DataMessage) (holds : writer.Holds buf incoming sent) :
    ∃ written bytes, writeAll messages writer = .ok () written ∧
      written.Holds buf incoming (sent ++ bytes) ∧
      ∀ (reader : Stream) (rest replies : Bytes), reader.Holds [] (bytes ++ rest) replies →
        ∃ after, readAll messages.length reader = .ok (messages.map DataMessage.toMessage) after ∧
          after.Holds [] rest replies := by
  rcases writeAll_ok messages holds with ⟨written, wrote, holdsWritten⟩
  refine ⟨written, wire messages, wrote, holdsWritten, ?_⟩
  intro reader rest replies holdsReader
  exact readAll_ok messages holdsReader

theorem two_bytes_small : ([0x61, 0x62] : Bytes).length < 2 ^ 31 := by
  decide

/-- A text message and an empty binary one. -/
def textThenBinary : List DataMessage :=
  [{ opcode := 0x01, data := [0x61, 0x62], isData := by decide, dataSmall := two_bytes_small },
    { opcode := 0x02, data := [], isData := by decide, dataSmall := by decide }]

theorem readAll_writeAll_textThenBinary :
    ∃ written bytes,
      writeAll textThenBinary { buf := [], socket := .bytewise [] } = .ok () written ∧
      written.Holds [] [] bytes ∧
      ∃ after, readAll 2 { buf := [], socket := .bytewise bytes } =
          .ok [{ opcode := 0x01, data := [0x61, 0x62] }, { opcode := 0x02, data := [] }] after ∧
        after.Holds [] [] [] := by
  rcases readAll_writeAll textThenBinary
    (⟨rfl, rfl, rfl, Socket.healthy_bytewise _⟩ :
      Stream.Holds { buf := [], socket := .bytewise [] } [] [] []) with
    ⟨written, bytes, wrote, holdsWritten, reads⟩
  refine ⟨written, bytes, wrote, holdsWritten, ?_⟩
  exact reads _ [] [] ⟨rfl, (List.append_nil bytes).symm, rfl, Socket.healthy_bytewise _⟩

end WebsocketClient

end EventAsync.HTTP
