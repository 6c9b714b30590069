import EventAsync.HTTP.Websocket

/-!
# Reassembly of websocket messages

Frames are encoded with any of the three length forms and with or without a
masking key.  Reading is followed frame by frame: as long as the frames are a
message that is not finished, `read` keeps the message received so far and has
answered the pings; it returns with the first data frame that has the FIN bit
and raises at the first frame that cannot belong to a message.
-/

namespace EventAsync.HTTP

open ByteCodec Decoding

/-- The forms in which the length of a payload is written. -/
inductive LengthForm where
  | short
  | medium
  | long
  deriving DecidableEq

namespace LengthForm

/-- The lengths below this bound can be written in the form. -/
def bound : LengthForm → ℕ
  | .short => 126
  | .medium => 2 ^ 16
  | .long => 2 ^ 64

/-- The low seven bits of the second byte of a frame. -/
def code (form : LengthForm) (length : ℕ) : ℕ :=
  match form with
  | .short => length
  | .medium => 126
  | .long => 127

/-- The length bytes that follow the first two bytes of a frame. -/
def extension (form : LengthForm) (length : ℕ) : Bytes :=
  match form with
  | .short => []
  | .medium => beBytes 2 length
  | .long => beBytes 8 length

/-- The form that `WebsocketClient::write` chooses. -/
def shortest (length : ℕ) : LengthForm :=
  if 0xFFFF < length then .long else if 0x7D < length then .medium else .short

end LengthForm

/-- A frame; `payload` is the payload without the mask. -/
structure Frame where
  head : UInt8
  form : LengthForm
  maskKey : Option Bytes
  payload : Bytes
  lengthFits : payload.length < form.bound
  keyFits : ∀ key ∈ maskKey, key.length = 4
  payloadSmall : payload.length < 2 ^ 31

namespace Frame

def opcode (frame : Frame) : UInt8 := frame.head &&& 0x0F

def fin (frame : Frame) : Bool := frame.head &&& 0x80 ≠ 0

def isControl (frame : Frame) : Bool := frame.opcode &&& 0x08 ≠ 0

def isPing (frame : Frame) : Bool := frame.opcode = 0x09

def isClose (frame : Frame) : Bool := frame.opcode = 0x08

theorem isControl_iff (frame : Frame) : frame.isControl = true ↔ frame.opcode &&& 0x08 ≠ 0 := by
  simp [isControl]

/-- The second byte. -/
def sizeByte (frame : Frame) : UInt8 :=
  UInt8.ofNat (frame.form.code frame.payload.length + if frame.maskKey.isSome then 128 else 0)

/-- The payload as it is sent. -/
def body (frame : Frame) : Bytes :=
  match frame.maskKey with
  | some key => WebsocketClient.unmask key frame.payload
  | none => frame.payload

def encode (frame : Frame) : Bytes :=
  frame.head :: frame.sizeByte ::
    (frame.form.extension frame.payload.length ++ (frame.maskKey.getD [] ++ frame.body))

theorem shortest_fits {length : ℕ} (small : length < 2 ^ 31) :
    length < (LengthForm.shortest length).bound := by
  simp only [LengthForm.shortest]
  split
  · simp only [LengthForm.bound]
    omega
  · split
    · simp only [LengthForm.bound]
      omega
    · simp only [LengthForm.bound]
      omega

/-- The unmasked FIN frame with a given opcode that carries the payload of another frame. -/
def reply (frame : Frame) (opcode : UInt8) : Frame where
  head := 0x80 ||| opcode
  form := .shortest frame.payload.length
  maskKey := none
  payload := frame.payload
  lengthFits := shortest_fits frame.payloadSmall
  keyFits := by simp
  payloadSmall := frame.payloadSmall

end Frame

def dataFrames (frames : List Frame) : List Frame :=
  frames.filter fun frame => !frame.isControl

/-- The first of the data frames has a nonzero opcode and all later ones have opcode zero. -/
def Fragments : List Frame → Prop
  | [] => True
  | first :: later => first.opcode ≠ 0 ∧ ∀ frame ∈ later, frame.opcode = 0

/-- Pings and pongs interleaved with data frames, of which none is final. -/
structure Pending (frames : List Frame) : Prop where
  controls : ∀ frame ∈ frames, frame.isControl → frame.opcode = 0x09 ∨ frame.opcode = 0x0A
  fragments : Fragments (dataFrames frames)
  unfinished : ∀ frame ∈ dataFrames frames, ¬frame.fin

/-- Pings and pongs interleaved with data frames, of which the last frame is the first final one. -/
structure IsMessage (frames : List Frame) : Prop where
  controls : ∀ frame ∈ frames, frame.isControl → frame.opcode = 0x09 ∨ frame.opcode = 0x0A
  fragments : Fragments (dataFrames frames)
  final : ∃ before last, frames = before ++ [last] ∧ ¬last.isControl ∧ last.fin ∧
    ∀ frame ∈ dataFrames before, ¬frame.fin

/-- A frame that cannot follow the given ones in a message. -/
def Offends (before : List Frame) (frame : Frame) : Prop :=
  if frame.isControl then frame.opcode ≠ 0x09 ∧ frame.opcode ≠ 0x0A
  else ¬Fragments (dataFrames before ++ [frame])

/-- The opcode of the first data frame with the payloads of all data frames. -/
def assembled (frames : List Frame) : WebsocketMessage where
  opcode := ((dataFrames frames).head?.map Frame.opcode).getD 0
  data := (dataFrames frames).flatMap Frame.payload

/-- The answers to the pings. -/
def pongs (frames : List Frame) : Bytes :=
  (frames.filter Frame.isPing).flatMap fun frame => (frame.reply 0x0A).encode

/-- The answer to an offending frame. -/
def closeEcho (frame : Frame) : Bytes :=
  if frame.isClose then (frame.reply 0x08).encode else []

/-- What is raised at an offending frame. -/
def offence (frame : Frame) : Stop :=
  if frame.isClose then .runtimeError "client has disconnected"
  else if frame.isControl then .runtimeError "unrecognized control message"
  else .runtimeError "invalid opcode"

section Frames

variable {frames before : List Frame} {frame : Frame}

theorem dataFrames_append_data (data : frame.isControl = false) :
    dataFrames (frames ++ [frame]) = dataFrames frames ++ [frame] := by
  simp [dataFrames, data]

theorem dataFrames_append_control (control : frame.isControl = true) :
    dataFrames (frames ++ [frame]) = dataFrames frames := by
  simp [dataFrames, control]

theorem fragments_append_iff (fragments : Fragments frames) :
    Fragments (frames ++ [frame]) ↔
      ¬((frames.head?.map Frame.opcode).getD 0 = 0 ↔ frame.opcode = 0) := by
  cases frames with
  | nil => simp [Fragments]
  | cons first later =>
      rcases fragments with ⟨firstNonzero, laterZero⟩
      have all : (∀ fragment, fragment ∈ later ∨ fragment = frame → fragment.opcode = 0) ↔
          frame.opcode = 0 := by
        constructor
        · intro zero
          exact zero frame (Or.inr rfl)
        · rintro zero fragment (mem | rfl)
          · exact laterZero fragment mem
          · exact zero
      simp [Fragments, firstNonzero, all]

theorem Pending.nil : Pending [] where
  controls := by simp
  fragments := by simp [dataFrames, Fragments]
  unfinished := by simp [dataFrames]

theorem Pending.of_append {more : List Frame} (pending : Pending (frames ++ [frame] ++ more)) :
    Pending (frames ++ [frame]) where
  controls := by
    intro control mem
    exact pending.controls control (List.mem_append_left more mem)
  fragments := by
    have fragments := pending.fragments
    simp only [dataFrames, List.filter_append _ more] at fragments ⊢
    cases data : (frames ++ [frame]).filter fun frame => !frame.isControl with
    | nil => trivial
    | cons first later =>
        rw [data] at fragments
        refine ⟨fragments.1, ?_⟩
        intro fragment mem
        exact fragments.2 fragment (List.mem_append_left _ mem)
  unfinished := by
    intro fragment mem
    apply pending.unfinished fragment
    simp only [dataFrames, List.filter_append _ more]
    exact List.mem_append_left _ mem

theorem opcode_ne_of_data (data : frame.isControl = false) :
    frame.opcode ≠ 0x08 ∧ frame.opcode ≠ 0x09 := by
  simp only [Frame.isControl, ne_eq, decide_not, Bool.not_eq_false', decide_eq_true_eq] at data
  constructor
  · intro close
    rw [close] at data
    exact absurd data (by decide)
  · intro ping
    rw [ping] at data
    exact absurd data (by decide)

theorem Pending.append_control (pending : Pending before) (control : frame.isControl = true)
    (known : frame.opcode = 0x09 ∨ frame.opcode = 0x0A) : Pending (before ++ [frame]) where
  controls := by
    intro other mem isControl
    rcases List.mem_append.mp mem with earlier | last
    · exact pending.controls other earlier isControl
    · rw [List.mem_singleton.mp last]
      exact known
  fragments := by
    rw [dataFrames_append_control control]
    exact pending.fragments
  unfinished := by
    rw [dataFrames_append_control control]
    exact pending.unfinished

theorem controls_append_data (pending : Pending before) (data : frame.isControl = false) :
    ∀ other ∈ before ++ [frame], other.isControl → other.opcode = 0x09 ∨ other.opcode = 0x0A := by
  intro other mem isControl
  rcases List.mem_append.mp mem with earlier | last
  · exact pending.controls other earlier isControl
  · rw [List.mem_singleton.mp last, data] at isControl
    exact absurd isControl Bool.false_ne_true

theorem Pending.append_data (pending : Pending before) (data : frame.isControl = false)
    (valid : Fragments (dataFrames before ++ [frame])) (unfinished : frame.fin = false) :
    Pending (before ++ [frame]) where
  controls := controls_append_data pending data
  fragments := by
    rw [dataFrames_append_data data]
    exact valid
  unfinished := by
    intro other mem
    rw [dataFrames_append_data data] at mem
    rcases List.mem_append.mp mem with earlier | last
    · exact pending.unfinished other earlier
    · rw [List.mem_singleton.mp last, unfinished]
      exact Bool.false_ne_true

theorem Pending.append_final (pending : Pending before) (data : frame.isControl = false)
    (valid : Fragments (dataFrames before ++ [frame])) (final : frame.fin = true) :
    IsMessage (before ++ [frame]) where
  controls := controls_append_data pending data
  fragments := by
    rw [dataFrames_append_data data]
    exact valid
  final := ⟨before, frame, rfl, by simp [data], final, pending.unfinished⟩

theorem IsMessage.exists_pending (message : IsMessage frames) :
    ∃ before last, frames = before ++ [last] ∧ Pending before ∧ last.isControl = false ∧
      Fragments (dataFrames before ++ [last]) ∧ last.fin = true := by
  rcases message.final with ⟨before, last, rfl, notControl, fin, unfinished⟩
  have data : last.isControl = false := by simpa using notControl
  have fragments := message.fragments
  rw [dataFrames_append_data data] at fragments
  refine ⟨before, last, rfl, ⟨?_, ?_, unfinished⟩, data, fragments, fin⟩
  · intro other mem
    exact message.controls other (List.mem_append_left _ mem)
  · cases list : dataFrames before with
    | nil => trivial
    | cons first later =>
        rw [list] at fragments
        refine ⟨fragments.1, ?_⟩
        intro other mem
        exact fragments.2 other (List.mem_append_left _ mem)

/-- Frames contain a message, or a first frame that offends, or are pending to their end. -/
theorem exists_ending (frames before : List Frame) (pending : Pending before) :
    (∃ more rest, frames = more ++ rest ∧ IsMessage (before ++ more)) ∨
      (∃ more offending rest, frames = more ++ offending :: rest ∧ Pending (before ++ more) ∧
        Offends (before ++ more) offending) ∨
      Pending (before ++ frames) := by
  induction frames generalizing before with
  | nil =>
      rw [List.append_nil]
      exact Or.inr (Or.inr pending)
  | cons frame frames ih =>
      have onward : Pending (before ++ [frame]) →
          (∃ more rest, frame :: frames = more ++ rest ∧ IsMessage (before ++ more)) ∨
            (∃ more offending rest, frame :: frames = more ++ offending :: rest ∧
              Pending (before ++ more) ∧ Offends (before ++ more) offending) ∨
            Pending (before ++ frame :: frames) := by
        intro pendingFrame
        rcases ih (before ++ [frame]) pendingFrame with
          ⟨more, rest, rfl, message⟩ | ⟨more, offending, rest, rfl, pendingMore, offends⟩ |
            pendingAll
        · exact Or.inl ⟨frame :: more, rest, rfl, by simpa using message⟩
        · refine Or.inr (Or.inl ⟨frame :: more, offending, rest, rfl, ?_, ?_⟩)
          · simpa using pendingMore
          · simpa using offends
        · exact Or.inr (Or.inr (by simpa using pendingAll))
      have offendsNow : Offends before frame →
          ∃ more offending rest, frame :: frames = more ++ offending :: rest ∧
            Pending (before ++ more) ∧ Offends (before ++ more) offending := by
        intro offends
        exact ⟨[], frame, frames, rfl, by simpa using pending, by simpa using offends⟩
      cases kind : frame.isControl with
      | true =>
          by_cases known : frame.opcode = 0x09 ∨ frame.opcode = 0x0A
          · exact onward (pending.append_control kind known)
          · refine Or.inr (Or.inl (offendsNow ?_))
            simpa [Offends, kind, not_or] using known
      | false =>
          by_cases valid : Fragments (dataFrames before ++ [frame])
          · cases final : frame.fin with
            | true => exact Or.inl ⟨[frame], frames, rfl, pending.append_final kind valid final⟩
            | false => exact onward (pending.append_data kind valid final)
          · refine Or.inr (Or.inl (offendsNow ?_))
            simpa [Offends, kind] using valid

theorem pongs_append (more : List Frame) : pongs (frames ++ more) = pongs frames ++ pongs more := by
  simp [pongs]

end Frames

namespace WebsocketClient

open Buffer

variable {stream : Stream} {sent : Bytes}

@[simp]
theorem length_unmask (maskKey payload : Bytes) :
    (unmask maskKey payload).length = payload.length := by
  simp [unmask]

theorem unmask_unmask (maskKey payload : Bytes) :
    unmask maskKey (unmask maskKey payload) = payload := by
  apply List.ext_getElem
  · simp
  · intro index _ _
    simp only [unmask, List.getElem_mapIdx, UInt8.xor_assoc, UInt8.xor_self, UInt8.xor_zero]

theorem sizeByte_low (code : Fin 128) (masked : Bool) :
    UInt8.ofNat (code + if masked then 128 else 0) &&& 0x7F = UInt8.ofNat code := by
  revert code masked
  decide

theorem sizeByte_high (code : Fin 128) (masked : Bool) :
    UInt8.ofNat (code + if masked then 128 else 0) &&& 0x80 ≠ 0 ↔ masked := by
  revert code masked
  decide

theorem code_lt (frame : Frame) : frame.form.code frame.payload.length < 128 := by
  have fits := frame.lengthFits
  cases form : frame.form with
  | short =>
      rw [form] at fits
      simp only [LengthForm.bound] at fits
      simp only [LengthForm.code]
      omega
  | medium => simp [LengthForm.code]
  | long => simp [LengthForm.code]

theorem sizeByte_and_low (frame : Frame) :
    frame.sizeByte &&& 0x7F = UInt8.ofNat (frame.form.code frame.payload.length) :=
  sizeByte_low ⟨_, code_lt frame⟩ frame.maskKey.isSome

theorem sizeByte_and_high (frame : Frame) :
    frame.sizeByte &&& 0x80 ≠ 0 ↔ frame.maskKey.isSome :=
  sizeByte_high ⟨_, code_lt frame⟩ frame.maskKey.isSome

theorem ofNat_ne_of_lt {code : ℕ} (small : code < 126) :
    UInt8.ofNat code ≠ 0x7F ∧ UInt8.ofNat code ≠ 0x7E := by
  simp only [ne_eq, ← UInt8.toNat_inj, UInt8.toNat_ofNat', UInt8.reduceToNat]
  omega

theorem readPayloadSize_ok (frame : Frame) {rest : Bytes}
    (holds : stream.Holds [] (frame.form.extension frame.payload.length ++ rest) sent) :
    ∃ after, readPayloadSize frame.sizeByte stream = .ok frame.payload.length after ∧
      after.Holds [] rest sent := by
  have fits := frame.lengthFits
  simp only [readPayloadSize, sizeByte_and_low]
  cases form : frame.form with
  | short =>
      rw [form] at fits holds
      simp only [LengthForm.bound] at fits
      have differs := ofNat_ne_of_lt fits
      refine ⟨stream, ?_, holds⟩
      have small : frame.payload.length % 2 ^ 8 = frame.payload.length := by omega
      rw [LengthForm.code, if_neg differs.1, if_neg differs.2, UInt8.toNat_ofNat', small]
      rfl
  | medium =>
      rw [form] at fits holds
      simp only [LengthForm.bound] at fits
      rcases readTo_chunk holds (length_beBytes 2 _) (by norm_num) with
        ⟨extended, read, holdsExtended⟩
      rw [← List.append_nil (LengthForm.extension _ _)] at holdsExtended
      rcases holdsExtended.decode (decodes_removeBe (by norm_num) (by omega)) with
        ⟨after, removed, holdsAfter⟩
      refine ⟨after, ?_, holdsAfter⟩
      simp only [LengthForm.code]
      exact (Stateful.bind_of_ok read).trans removed
  | long =>
      rw [form] at fits holds
      simp only [LengthForm.bound] at fits
      rcases readTo_chunk holds (length_beBytes 8 _) (by norm_num) with
        ⟨extended, read, holdsExtended⟩
      rw [← List.append_nil (LengthForm.extension _ _)] at holdsExtended
      rcases holdsExtended.decode (decodes_removeBe (by norm_num) (by omega)) with
        ⟨after, removed, holdsAfter⟩
      refine ⟨after, ?_, holdsAfter⟩
      simp only [LengthForm.code]
      exact (Stateful.bind_of_ok read).trans removed

theorem readMaskKey_ok (frame : Frame) {rest : Bytes}
    (holds : stream.Holds [] (frame.maskKey.getD [] ++ rest) sent) :
    ∃ after, readMaskKey frame.sizeByte stream = .ok frame.maskKey after ∧
      after.Holds [] rest sent := by
  have flag := sizeByte_and_high frame
  have keyFits := frame.keyFits
  cases maskKey : frame.maskKey with
  | none =>
      rw [maskKey] at flag holds
      have unmasked : ¬frame.sizeByte &&& 0x80 ≠ 0 := by simp [flag]
      refine ⟨stream, ?_, holds⟩
      rw [readMaskKey, if_neg unmasked]
      rfl
  | some key =>
      rw [maskKey] at flag holds keyFits
      have masked : frame.sizeByte &&& 0x80 ≠ 0 := by simp [flag]
      have length : key.length = 4 := keyFits key rfl
      rcases readTo_chunk holds length (by norm_num) with ⟨filled, read, holdsFilled⟩
      rw [← List.append_nil (Option.getD _ _)] at holdsFilled
      rcases holdsFilled.decode (decodes_remove length (by norm_num)) with
        ⟨after, removed, holdsAfter⟩
      refine ⟨after, ?_, holdsAfter⟩
      rw [readMaskKey, if_pos masked, Stateful.bind_of_ok read, Stateful.bind_of_ok removed]
      rfl

@[simp]
theorem length_body (frame : Frame) : frame.body.length = frame.payload.length := by
  simp only [Frame.body]
  split <;> simp

theorem readFrame_ok (frame : Frame) {rest : Bytes}
    (holds : stream.Holds [] (frame.encode ++ rest) sent) :
    ∃ after, readFrame stream = .ok (frame.head, frame.payload) after ∧
      after.Holds [] rest sent := by
  have split : frame.encode ++ rest = [frame.head, frame.sizeByte] ++
      (frame.form.extension frame.payload.length ++
        (frame.maskKey.getD [] ++ (frame.body ++ rest))) := by
    simp [Frame.encode]
  rw [split] at holds
  have twoBytes : [frame.head, frame.sizeByte].length = 2 := rfl
  rcases readTo_chunk holds twoBytes (by norm_num) with ⟨started, readStart, holdsStart⟩
  have startSplit : [frame.head, frame.sizeByte] = [frame.head] ++ ([frame.sizeByte] ++ []) := rfl
  rw [startSplit] at holdsStart
  rcases holdsStart.decode (decodes_removeU8 _) with ⟨headTaken, removedHead, holdsHead⟩
  rcases holdsHead.decode (decodes_removeU8 _) with ⟨sizeTaken, removedSize, holdsSize⟩
  rcases readPayloadSize_ok frame holdsSize with ⟨lengthTaken, readLength, holdsLength⟩
  rcases readMaskKey_ok frame holdsLength with ⟨keyTaken, readKey, holdsKey⟩
  rcases readTo_chunk holdsKey (length_body frame) frame.payloadSmall with
    ⟨bodyRead, readBody, holdsBody⟩
  rw [← List.append_nil frame.body] at holdsBody
  have bodySmall : frame.body.length < 2 ^ 31 := by
    rw [length_body]
    exact frame.payloadSmall
  rcases holdsBody.decode (decodes_removeString bodySmall) with ⟨after, removedBody, holdsAfter⟩
  rw [length_body] at removedBody
  refine ⟨after, ?_, holdsAfter⟩
  rw [readFrame, Stateful.bind_of_ok readStart, Stateful.bind_of_ok removedHead,
    Stateful.bind_of_ok removedSize, Stateful.bind_of_ok readLength,
    Stateful.bind_of_ok readKey, Stateful.bind_of_ok readBody, Stateful.bind_of_ok removedBody]
  cases maskKey : frame.maskKey with
  | none =>
      simp only [Frame.body, maskKey]
      rfl
  | some key =>
      simp only [Frame.body, maskKey, unmask_unmask]
      rfl

theorem write_ok (frame : Frame) {opcode : UInt8} {buf incoming : Bytes}
    (holds : stream.Holds buf incoming sent) (low : opcode &&& 0x0F = opcode) :
    ∃ after, write frame.payload opcode stream = .ok () after ∧
      after.Holds buf incoming (sent ++ (frame.reply opcode).encode) := by
  have content : filled (fillSendBuf frame.payload opcode) = (frame.reply opcode).encode := by
    simp only [fillSendBuf, Frame.encode, Frame.reply, Frame.sizeByte, Frame.body,
      LengthForm.shortest, low]
    split
    · simp [filled, addU8, addU64b, add, bind, EStateM.bind, Stateful.endState,
        LengthForm.code, LengthForm.extension]
    · split
      · simp [filled, addU8, addU16b, add, bind, EStateM.bind, Stateful.endState,
          LengthForm.code, LengthForm.extension]
      · simp [filled, addU8, add, bind, EStateM.bind, Stateful.endState,
          LengthForm.code, LengthForm.extension]
  have nonempty : (frame.reply opcode).encode ≠ [] := by simp [Frame.encode]
  rw [← content] at nonempty ⊢
  exact writeSeparately_ok holds nonempty

section Loop

variable {before : List Frame} {frame : Frame} {rest : Bytes} {msg : WebsocketMessage}

/-- One iteration of the loop, in terms of the frame that it receives. -/
theorem readFrames_succ (holds : stream.Holds [] (frame.encode ++ rest) sent)
    (msg : WebsocketMessage) (fuel : ℕ) :
    ∃ received : Stream, received.Holds [] rest sent ∧
      readFrames (fuel + 1) msg stream =
        (if frame.opcode &&& 0x08 ≠ 0 then do
            handleControl frame.opcode frame.payload
            readFrames fuel msg
          else do
            let appended ← appendFrame msg frame.opcode frame.payload
            if frame.head &&& 0x80 ≠ 0 then return appended
            else readFrames fuel appended) received := by
  rcases readFrame_ok frame holds with ⟨received, readOne, holdsReceived⟩
  refine ⟨received, holdsReceived, ?_⟩
  rw [readFrames, Stateful.bind_of_ok readOne]
  rfl

theorem readFrames_control (holds : stream.Holds [] (frame.encode ++ rest) sent)
    (control : frame.isControl = true)
    (known : frame.opcode = 0x09 ∨ frame.opcode = 0x0A) (msg : WebsocketMessage) (fuel : ℕ) :
    ∃ after, readFrames (fuel + 1) msg stream = readFrames fuel msg after ∧
      after.Holds [] rest (sent ++ pongs [frame]) := by
  rcases readFrames_succ holds msg fuel with ⟨received, holdsReceived, step⟩
  rw [if_pos (frame.isControl_iff.mp control)] at step
  rcases known with ping | pong
  · rcases write_ok frame holdsReceived (by decide : (0x0A : UInt8) &&& 0x0F = 0x0A) with
      ⟨after, wrote, holdsAfter⟩
    have handled : handleControl frame.opcode frame.payload received = .ok () after := by
      rw [handleControl, ping]
      simpa using wrote
    refine ⟨after, step.trans (Stateful.bind_of_ok handled), ?_⟩
    simpa [pongs, Frame.isPing, ping] using holdsAfter
  · have handled : handleControl frame.opcode frame.payload received = .ok () received := by
      rw [handleControl, if_pos pong]
      rfl
    refine ⟨received, step.trans (Stateful.bind_of_ok handled), ?_⟩
    simpa [pongs, Frame.isPing, pong] using holdsReceived

theorem readFrames_unknown_control (holds : stream.Holds [] (frame.encode ++ rest) sent)
    (control : frame.isControl = true)
    (unknown : frame.opcode ≠ 0x09 ∧ frame.opcode ≠ 0x0A) (msg : WebsocketMessage) (fuel : ℕ) :
    ∃ after, readFrames (fuel + 1) msg stream = .error (offence frame) after ∧
      after.Holds [] rest (sent ++ closeEcho frame) := by
  rcases readFrames_succ holds msg fuel with ⟨received, holdsReceived, step⟩
  rw [if_pos (frame.isControl_iff.mp control)] at step
  by_cases close : frame.opcode = 0x08
  · rcases write_ok frame holdsReceived (by decide : (0x08 : UInt8) &&& 0x0F = 0x08) with
      ⟨after, wrote, holdsAfter⟩
    have handled : handleControl frame.opcode frame.payload received =
        .error (offence frame) after := by
      rw [handleControl, if_neg unknown.2, if_pos close, Stateful.bind_of_ok wrote]
      simp only [offence, Frame.isClose, close, decide_true, if_true]
      rfl
    refine ⟨after, step.trans (Stateful.bind_of_error handled), ?_⟩
    simpa [closeEcho, Frame.isClose, close] using holdsAfter
  · have handled : handleControl frame.opcode frame.payload received =
        .error (offence frame) received := by
      rw [handleControl, if_neg unknown.2, if_neg close, if_neg unknown.1]
      simp only [offence, Frame.isClose, close, decide_false, control]
      rfl
    refine ⟨received, step.trans (Stateful.bind_of_error handled), ?_⟩
    simpa [closeEcho, Frame.isClose, close] using holdsReceived

theorem readFrames_invalid_data (fragments : Fragments (dataFrames before))
    (holds : stream.Holds [] (frame.encode ++ rest) sent) (data : frame.isControl = false)
    (invalid : ¬Fragments (dataFrames before ++ [frame])) (fuel : ℕ) :
    ∃ after, readFrames (fuel + 1) (assembled before) stream = .error (offence frame) after ∧
      after.Holds [] rest (sent ++ closeEcho frame) := by
  rcases readFrames_succ holds (assembled before) fuel with ⟨received, holdsReceived, step⟩
  have notControl : ¬frame.opcode &&& 0x08 ≠ 0 := by
    rw [← frame.isControl_iff, data]
    exact Bool.false_ne_true
  have same : (assembled before).opcode = 0 ↔ frame.opcode = 0 := by
    rw [fragments_append_iff fragments, not_not] at invalid
    exact invalid
  have notClose : frame.isClose = false := by
    simp [Frame.isClose, (opcode_ne_of_data data).1]
  have appended : appendFrame (assembled before) frame.opcode frame.payload received =
      .error (offence frame) received := by
    rw [appendFrame, if_pos same]
    simp only [offence, notClose, data]
    rfl
  rw [if_neg notControl] at step
  refine ⟨received, step.trans (Stateful.bind_of_error appended), ?_⟩
  simpa [closeEcho, notClose] using holdsReceived

theorem appendFrame_ok (fragments : Fragments (dataFrames before))
    (data : frame.isControl = false) (valid : Fragments (dataFrames before ++ [frame]))
    (received : Stream) :
    appendFrame (assembled before) frame.opcode frame.payload received =
      .ok (assembled (before ++ [frame])) received := by
  rw [fragments_append_iff fragments] at valid
  have differs : ¬((assembled before).opcode = 0 ↔ frame.opcode = 0) := valid
  have opcode : (if frame.opcode ≠ 0 then frame.opcode else (assembled before).opcode) =
      (assembled (before ++ [frame])).opcode := by
    simp only [assembled, dataFrames_append_data data] at differs ⊢
    cases list : dataFrames before with
    | nil =>
        rw [list] at differs
        simp_all
    | cons first later =>
        rw [list] at differs fragments
        have nonzero : first.opcode ≠ 0 := fragments.1
        simp_all
  have appended : (assembled before).data ++ frame.payload =
      (assembled (before ++ [frame])).data := by
    simp [assembled, dataFrames_append_data data]
  rw [appendFrame, if_neg differs, opcode, appended]
  rfl

theorem readFrames_data (fragments : Fragments (dataFrames before))
    (holds : stream.Holds [] (frame.encode ++ rest) sent) (data : frame.isControl = false)
    (valid : Fragments (dataFrames before ++ [frame])) (fuel : ℕ) :
    ∃ after : Stream, after.Holds [] rest sent ∧
      readFrames (fuel + 1) (assembled before) stream =
        if frame.fin then .ok (assembled (before ++ [frame])) after
        else readFrames fuel (assembled (before ++ [frame])) after := by
  rcases readFrames_succ holds (assembled before) fuel with ⟨received, holdsReceived, step⟩
  have notControl : ¬frame.opcode &&& 0x08 ≠ 0 := by
    rw [← frame.isControl_iff, data]
    exact Bool.false_ne_true
  refine ⟨received, holdsReceived, ?_⟩
  rw [step, if_neg notControl, Stateful.bind_of_ok (appendFrame_ok fragments data valid received)]
  by_cases final : frame.head &&& 0x80 ≠ 0
  · have fin : frame.fin = true := by simp [Frame.fin, final]
    rw [if_pos final, if_pos fin]
    rfl
  · have notFin : ¬frame.fin = true := by simpa [Frame.fin] using final
    rw [if_neg final, if_neg notFin]

/-- Reading on from a message that is not finished, over frames that do not finish it. -/
theorem readFrames_pending (more : List Frame) (before : List Frame)
    (pendingBefore : Pending before) (pending : Pending (before ++ more))
    (holds : stream.Holds [] (more.flatMap Frame.encode ++ rest) sent) (fuel : ℕ) :
    ∃ after, readFrames (fuel + more.length) (assembled before) stream =
        readFrames fuel (assembled (before ++ more)) after ∧
      after.Holds [] rest (sent ++ pongs more) := by
  induction more generalizing before stream sent with
  | nil => exact ⟨stream, by simp, by simpa [pongs] using holds⟩
  | cons frame more ih =>
      have split : before ++ frame :: more = before ++ [frame] ++ more := by simp
      rw [split] at pending ⊢
      have pendingFrame := pending.of_append
      rw [List.flatMap_cons, List.append_assoc] at holds
      rw [List.length_cons, ← Nat.add_assoc]
      cases kind : frame.isControl with
      | true =>
          have known := pendingFrame.controls frame (by simp) kind
          rcases readFrames_control holds kind known (assembled before) (fuel + more.length) with
            ⟨middle, step, holdsMiddle⟩
          rcases ih (before ++ [frame]) pendingFrame pending holdsMiddle with
            ⟨after, run, holdsAfter⟩
          have same : assembled (before ++ [frame]) = assembled before := by
            simp only [assembled, dataFrames_append_control kind]
          refine ⟨after, ?_, ?_⟩
          · rw [step, ← same, run]
          · rw [show frame :: more = [frame] ++ more from rfl, pongs_append, ← List.append_assoc]
            exact holdsAfter
      | false =>
          have fragments := pendingFrame.fragments
          have unfinished := pendingFrame.unfinished frame (by simp [dataFrames, kind])
          rw [dataFrames_append_data kind] at fragments
          rcases readFrames_data pendingBefore.fragments holds kind fragments
            (fuel + more.length) with ⟨middle, holdsMiddle, step⟩
          rw [if_neg unfinished] at step
          rcases ih (before ++ [frame]) pendingFrame pending holdsMiddle with
            ⟨after, run, holdsAfter⟩
          have notPing : frame.isPing = false := by
            simp [Frame.isPing, (opcode_ne_of_data kind).2]
          refine ⟨after, step.trans run, ?_⟩
          simpa [pongs, notPing] using holdsAfter

theorem length_le_length_encode (frames : List Frame) :
    frames.length ≤ (frames.flatMap Frame.encode).length := by
  induction frames with
  | nil => simp
  | cons frame frames ih =>
      simp only [List.flatMap_cons, List.length_append, List.length_cons, Frame.encode]
      omega

/-- `read` up to a frame that ends it, or up to the end of the stream. -/
theorem read_pending {before : List Frame} (pending : Pending before)
    (holds : stream.Holds [] (before.flatMap Frame.encode ++ rest) sent) :
    ∃ fuel, ∃ after, read stream = readFrames (fuel + 1) (assembled before) after ∧
      after.Holds [] rest (sent ++ pongs before) := by
  have enough := length_le_length_encode before
  have bytes :
      stream.socket.incoming.length = (before.flatMap Frame.encode).length + rest.length := by
    rw [holds.incoming_eq, List.length_append]
  have fuel : stream.buf.length + stream.socket.incoming.length + 1 =
      stream.buf.length + stream.socket.incoming.length - before.length + 1 + before.length := by
    omega
  have run := readFrames_pending before [] Pending.nil pending holds
    (stream.buf.length + stream.socket.incoming.length - before.length + 1)
  rw [← fuel] at run
  rcases run with ⟨after, ends, holdsAfter⟩
  exact ⟨_, after, ends, holdsAfter⟩

theorem read_message {message : List Frame} (isMessage : IsMessage message)
    (holds : stream.Holds [] (message.flatMap Frame.encode ++ rest) sent) :
    ∃ after, read stream = .ok (assembled message) after ∧
      after.Holds [] rest (sent ++ pongs message) := by
  rcases isMessage.exists_pending with ⟨before, last, rfl, pending, data, valid, fin⟩
  simp only [List.flatMap_append, List.flatMap_cons, List.flatMap_nil, List.append_nil,
    List.append_assoc] at holds
  rcases read_pending pending holds with ⟨fuel, middle, run, holdsMiddle⟩
  rcases readFrames_data pending.fragments holdsMiddle data valid fuel with
    ⟨after, holdsAfter, step⟩
  rw [if_pos fin] at step
  refine ⟨after, run.trans step, ?_⟩
  simpa [pongs, Frame.isPing, (opcode_ne_of_data data).2] using holdsAfter

theorem read_offending {before : List Frame} {offending : Frame} (pending : Pending before)
    (offends : Offends before offending)
    (holds : stream.Holds [] (before.flatMap Frame.encode ++ (offending.encode ++ rest)) sent) :
    ∃ after, read stream = .error (offence offending) after ∧
      after.Holds [] rest (sent ++ pongs before ++ closeEcho offending) := by
  rcases read_pending pending holds with ⟨fuel, middle, run, holdsMiddle⟩
  rw [run]
  cases kind : offending.isControl with
  | true =>
      simp only [Offends, kind, if_true] at offends
      exact readFrames_unknown_control holdsMiddle kind offends _ fuel
  | false =>
      simp only [Offends, kind, Bool.false_eq_true, if_false] at offends
      exact readFrames_invalid_data pending.fragments holdsMiddle kind offends fuel

theorem read_exhausted {frames : List Frame} (pending : Pending frames)
    (holds : stream.Holds [] (frames.flatMap Frame.encode) sent) :
    ∃ after, read stream = .error (.runtimeError "end of stream") after ∧
      after.Holds [] [] (sent ++ pongs frames) := by
  rw [← List.append_nil (frames.flatMap Frame.encode)] at holds
  rcases read_pending pending holds with ⟨fuel, middle, run, holdsMiddle⟩
  rcases readTo_eof holdsMiddle (by norm_num : 2 < 2 ^ 31) (by simp) with
    ⟨after, ends, holdsAfter⟩
  refine ⟨after, ?_, by simpa using holdsAfter⟩
  have received : readFrame middle = .error (.runtimeError "end of stream") after :=
    Stateful.bind_of_error ends
  rw [run, readFrames]
  exact Stateful.bind_of_error received

end Loop

/-- `read` returns normally exactly if the frames start with a message, which it reassembles
while it answers the pings; otherwise it raises at the first frame that offends, or at the
end of the stream if there is none. -/
theorem read_frames (frames : List Frame)
    (holds : stream.Holds [] (frames.flatMap Frame.encode) sent) :
    ((∃ msg after, read stream = .ok msg after) ↔
        ∃ message rest, frames = message ++ rest ∧ IsMessage message) ∧
      (∀ message rest, frames = message ++ rest → IsMessage message →
        ∃ after, read stream = .ok (assembled message) after ∧
          after.Holds [] (rest.flatMap Frame.encode) (sent ++ pongs message)) ∧
      ((¬∃ message rest, frames = message ++ rest ∧ IsMessage message) →
        (∃ before offending rest after, frames = before ++ offending :: rest ∧
            Pending before ∧ Offends before offending ∧
            read stream = .error (offence offending) after ∧
            after.Holds [] (rest.flatMap Frame.encode)
              (sent ++ pongs before ++ closeEcho offending)) ∨
          (Pending frames ∧
            ∃ after, read stream = .error (.runtimeError "end of stream") after ∧
              after.Holds [] [] (sent ++ pongs frames))) := by
  have returns : ∀ message rest, frames = message ++ rest → IsMessage message →
      ∃ after, read stream = .ok (assembled message) after ∧
        after.Holds [] (rest.flatMap Frame.encode) (sent ++ pongs message) := by
    rintro message rest rfl isMessage
    rw [List.flatMap_append] at holds
    exact read_message isMessage holds
  have raises : (¬∃ message rest, frames = message ++ rest ∧ IsMessage message) →
      (∃ before offending rest after, frames = before ++ offending :: rest ∧
          Pending before ∧ Offends before offending ∧
          read stream = .error (offence offending) after ∧
          after.Holds [] (rest.flatMap Frame.encode)
            (sent ++ pongs before ++ closeEcho offending)) ∨
        (Pending frames ∧
          ∃ after, read stream = .error (.runtimeError "end of stream") after ∧
            after.Holds [] [] (sent ++ pongs frames)) := by
    intro noMessage
    rcases exists_ending frames [] Pending.nil with
      ⟨message, rest, split, isMessage⟩ | ⟨before, offending, rest, rfl, pending, offends⟩ |
        pending
    · exact absurd ⟨message, rest, split, isMessage⟩ noMessage
    · rw [List.flatMap_append, List.flatMap_cons] at holds
      rcases read_offending pending offends holds with ⟨after, raised, holdsAfter⟩
      exact Or.inl ⟨before, offending, rest, after, rfl, pending, offends, raised, holdsAfter⟩
    · exact Or.inr ⟨pending, read_exhausted pending holds⟩
  refine ⟨⟨?_, ?_⟩, returns, raises⟩
  · rintro ⟨msg, after, returned⟩
    by_contra noMessage
    rcases raises noMessage with
      ⟨_, _, _, _, _, _, _, raised, _⟩ | ⟨_, _, raised, _⟩
    · rw [returned] at raised
      cases raised
    · rw [returned] at raised
      cases raised
  · rintro ⟨message, rest, split, isMessage⟩
    rcases returns message rest split isMessage with ⟨after, returned, _⟩
    exact ⟨assembled message, after, returned⟩

/-- A text message in two frames, the first one masked, with a ping between them. -/
def pingWithinMessage : List Frame :=
  [{ head := 0x01, form := .medium, maskKey := some [1, 2, 3, 4], payload := [0x61, 0x62]
     lengthFits := by decide, keyFits := by simp, payloadSmall := by decide },
    { head := 0x89, form := .short, maskKey := none, payload := [0x70]
      lengthFits := by decide, keyFits := by simp, payloadSmall := by decide },
    { head := 0x80, form := .long, maskKey := none, payload := [0x63]
      lengthFits := by decide, keyFits := by simp, payloadSmall := by decide }]

theorem isMessage_pingWithinMessage : IsMessage pingWithinMessage where
  controls := by decide
  fragments := by
    refine ⟨by decide, ?_⟩
    decide
  final := ⟨pingWithinMessage.take 2, _, rfl, by decide, by decide, by decide⟩

theorem read_pingWithinMessage :
    ∃ after,
      read { buf := [], socket := .bytewise (pingWithinMessage.flatMap Frame.encode) } =
          .ok { opcode := 0x01, data := [0x61, 0x62, 0x63] } after ∧
        after.Holds [] [] [0x8A, 0x01, 0x70] := by
  have holds : Stream.Holds
      { buf := [], socket := .bytewise (pingWithinMessage.flatMap Frame.encode) } []
      (pingWithinMessage.flatMap Frame.encode) [] := ⟨rfl, rfl, rfl, Socket.healthy_bytewise _⟩
  exact (read_frames pingWithinMessage holds).2.1 pingWithinMessage [] (by simp)
    isMessage_pingWithinMessage

end WebsocketClient

end EventAsync.HTTP
