import EventAsync.BufferProgress
import EventAsync.Memcache.Client

/-!
# The requests of the memcache client

A request of the binary protocol is a header of 24 bytes followed by extras, key
and value, of which the header has the sizes.  Every command sends one request
with the header, extras, key and value that its arguments call for.  The server
reads the same request back exactly if the sizes fit into the header: a longer
key is sent whole, but announced with the low-order bits of its length.
-/

namespace EventAsync.Memcache

open ByteCodec

/-- A request as the server sees it. -/
structure Request where
  opcode : UInt8
  extras : Bytes
  cas : UInt64
  key : Bytes
  value : Bytes
  deriving DecidableEq

namespace Request

/-- The next number of a request. -/
def parseNumber (width : ℕ) (bytes : Bytes) : Option (ℕ × Bytes) :=
  if bytes.length < width then none else some (beNat (bytes.take width), bytes.drop width)

/-- The next bytes of a request. -/
def parseBytes (size : ℕ) (bytes : Bytes) : Option (Bytes × Bytes) :=
  if bytes.length < size then none else some (bytes.take size, bytes.drop size)

/-- The request at the beginning of what the server receives, and what follows it. -/
def parse (bytes : Bytes) : Option (Request × Bytes) := do
  let (magic, bytes) ← parseNumber 1 bytes
  guard (magic = 0x80)
  let (opcode, bytes) ← parseNumber 1 bytes
  let (keySize, bytes) ← parseNumber 2 bytes
  let (extrasSize, bytes) ← parseNumber 1 bytes
  let (_, bytes) ← parseNumber 1 bytes
  let (_, bytes) ← parseNumber 2 bytes
  let (bodySize, bytes) ← parseNumber 4 bytes
  let (_, bytes) ← parseNumber 4 bytes
  let (cas, bytes) ← parseNumber 8 bytes
  guard (extrasSize + keySize ≤ bodySize)
  let (extras, bytes) ← parseBytes extrasSize bytes
  let (key, bytes) ← parseBytes keySize bytes
  let (value, bytes) ← parseBytes (bodySize - extrasSize - keySize) bytes
  return (⟨.ofNat opcode, extras, .ofNat cas, key, value⟩, bytes)

/-- The sizes of the request fit into the header. -/
def Representable (request : Request) : Prop :=
  request.key.length < 2 ^ 16 ∧
    request.extras.length + request.key.length + request.value.length < 2 ^ 32

instance (request : Request) : Decidable request.Representable :=
  inferInstanceAs (Decidable (_ ∧ _))

/-- The header that the client makes for the request. -/
def header (request : Request) : CommandHeader where
  magic := 0x80
  opcode := request.opcode
  keySize := .ofNat request.key.length
  extrasSize := .ofNat request.extras.length
  dataType := 0
  status := 0
  bodySize := .ofNat (request.extras.length + request.key.length + request.value.length)
  opaqueValue := 0
  cas := request.cas

def wire (request : Request) : Bytes :=
  request.header.wire ++ (request.extras ++ (request.key ++ request.value))

theorem wire_ne_nil (request : Request) : request.wire ≠ [] := by
  intro empty
  have length := congrArg List.length empty
  simp [wire] at length

theorem parseNumber_beBytes {width value : ℕ} (fits : value < 256 ^ width) (rest : Bytes) :
    parseNumber width (beBytes width value ++ rest) = some (value, rest) := by
  have enough : ¬(beBytes width value ++ rest).length < width := by simp
  rw [parseNumber, if_neg enough, List.take_left' (length_beBytes width value),
    List.drop_left' (length_beBytes width value), beNat_beBytes_of_lt fits]

theorem parseBytes_append {size : ℕ} {bytes : Bytes} (length : bytes.length = size)
    (rest : Bytes) : parseBytes size (bytes ++ rest) = some (bytes, rest) := by
  have enough : ¬(bytes ++ rest).length < size := by simp [length]
  rw [parseBytes, if_neg enough, List.take_left' length, List.drop_left' length]

theorem parseBytes_all (bytes : Bytes) : parseBytes bytes.length bytes = some (bytes, []) := by
  have parsed := @parseBytes_append bytes.length bytes rfl []
  rwa [List.append_nil] at parsed

/-- A parser goes on with the number that stands in front. -/
theorem parseNumber_bind {Result : Type} {width value : ℕ} (fits : value < 256 ^ width)
    (rest : Bytes) (next : ℕ × Bytes → Option Result) :
    (parseNumber width (beBytes width value ++ rest) >>= next) = next (value, rest) := by
  rw [parseNumber_beBytes fits]
  rfl

/-- A request whose sizes fit is read back by the server, with nothing left over. -/
theorem parse_wire {request : Request} (extrasFit : request.extras.length < 2 ^ 8)
    (representable : request.Representable) : parse request.wire = some (request, []) := by
  rcases representable with ⟨keyFits, bodyFits⟩
  have keySize : (UInt16.ofNat request.key.length).toNat = request.key.length :=
    UInt16.toNat_ofNat_of_lt' keyFits
  have extrasSize : (UInt8.ofNat request.extras.length).toNat = request.extras.length :=
    UInt8.toNat_ofNat_of_lt' extrasFit
  have bodySize : (UInt32.ofNat (request.extras.length + request.key.length +
      request.value.length)).toNat =
        request.extras.length + request.key.length + request.value.length :=
    UInt32.toNat_ofNat_of_lt' bodyFits
  have valueSize : request.extras.length + request.key.length + request.value.length -
      request.extras.length - request.key.length = request.value.length := by
    omega
  have covers : request.extras.length + request.key.length ≤
      request.extras.length + request.key.length + request.value.length := by
    omega
  have one : ∀ number : UInt8, number.toNat < 256 ^ 1 := fun number => number.toNat_lt
  have two : ∀ number : UInt16, number.toNat < 256 ^ 2 := fun number => number.toNat_lt
  have four : ∀ number : UInt32, number.toNat < 256 ^ 4 := fun number => number.toNat_lt
  have eight : ∀ number : UInt64, number.toNat < 256 ^ 8 := fun number => number.toNat_lt
  simp only [wire, CommandHeader.wire, List.append_assoc]
  simp only [parse, ↓parseNumber_bind (one _), ↓parseNumber_bind (two _),
    ↓parseNumber_bind (four _), ↓parseNumber_bind (eight _)]
  simp only [header, keySize, extrasSize, bodySize, valueSize, covers]
  simp [guard, parseBytes_append, parseBytes_all]

/-- The part of a key that the header announces as the key. -/
def announcedKey (key : Bytes) : Bytes :=
  key.take (key.length % 2 ^ 16)

/-- What the server takes a request for: the rest of a longer key goes to the value. -/
def announced (request : Request) : Request :=
  { request with
    key := announcedKey request.key
    value := request.key.drop (request.key.length % 2 ^ 16) ++ request.value }

theorem length_announcedKey (key : Bytes) :
    (announcedKey key).length = key.length % 2 ^ 16 := by
  rw [announcedKey, List.length_take]
  exact min_eq_left (Nat.mod_le _ _)

theorem announcedKey_append (request : Request) :
    request.announced.key ++ request.announced.value = request.key ++ request.value := by
  rw [announced, announcedKey, ← List.append_assoc, List.take_append_drop]

theorem wire_announced (request : Request) : request.announced.wire = request.wire := by
  have keySize : UInt16.ofNat request.announced.key.length = .ofNat request.key.length := by
    rw [announced, length_announcedKey, ← UInt16.toNat_inj]
    exact Nat.mod_mod _ _
  have body := announcedKey_append request
  have size := congrArg List.length body
  rw [List.length_append, List.length_append] at size
  rw [wire, wire, body, header, header, keySize, add_assoc, size, ← add_assoc]
  rfl

theorem length_of_parseNumber {width number : ℕ} {bytes rest : Bytes}
    (parsed : parseNumber width bytes = some (number, rest)) :
    bytes.length = width + rest.length ∧ number < 256 ^ width := by
  rw [parseNumber] at parsed
  split at parsed
  · cases parsed
  · cases parsed
    have taken : (bytes.take width).length = width := by
      rw [List.length_take]
      omega
    have bounded := leNat_lt (bytes.take width).reverse
    rw [List.length_reverse, taken] at bounded
    refine ⟨?_, bounded⟩
    rw [List.length_drop]
    omega

theorem length_of_parseBytes {size : ℕ} {bytes part rest : Bytes}
    (parsed : parseBytes size bytes = some (part, rest)) :
    bytes.length = size + rest.length := by
  rw [parseBytes] at parsed
  split at parsed
  · cases parsed
  · cases parsed
    rw [List.length_drop]
    omega

/-- A request ends within what the header can announce. -/
theorem length_of_parse {bytes rest : Bytes} {request : Request}
    (parsed : parse bytes = some (request, rest)) :
    bytes.length < 24 + 2 ^ 32 + rest.length := by
  rcases Option.bind_eq_some_iff.mp parsed with ⟨⟨magic, _⟩, readMagic, parsed⟩
  rcases Option.bind_eq_some_iff.mp parsed with ⟨_, isRequest, parsed⟩
  rcases Option.bind_eq_some_iff.mp parsed with ⟨⟨opcode, _⟩, readOpcode, parsed⟩
  rcases Option.bind_eq_some_iff.mp parsed with ⟨⟨keySize, _⟩, readKeySize, parsed⟩
  rcases Option.bind_eq_some_iff.mp parsed with ⟨⟨extrasSize, _⟩, readExtrasSize, parsed⟩
  rcases Option.bind_eq_some_iff.mp parsed with ⟨⟨_, _⟩, readDataType, parsed⟩
  rcases Option.bind_eq_some_iff.mp parsed with ⟨⟨_, _⟩, readStatus, parsed⟩
  rcases Option.bind_eq_some_iff.mp parsed with ⟨⟨bodySize, _⟩, readBodySize, parsed⟩
  rcases Option.bind_eq_some_iff.mp parsed with ⟨⟨_, _⟩, readOpaque, parsed⟩
  rcases Option.bind_eq_some_iff.mp parsed with ⟨⟨cas, _⟩, readCas, parsed⟩
  rcases Option.bind_eq_some_iff.mp parsed with ⟨_, covers, parsed⟩
  rcases Option.bind_eq_some_iff.mp parsed with ⟨⟨extras, _⟩, readExtras, parsed⟩
  rcases Option.bind_eq_some_iff.mp parsed with ⟨⟨key, _⟩, readKey, parsed⟩
  rcases Option.bind_eq_some_iff.mp parsed with ⟨⟨value, _⟩, readValue, ends⟩
  cases ends
  have magicLength := length_of_parseNumber readMagic
  have opcodeLength := length_of_parseNumber readOpcode
  have keySizeLength := length_of_parseNumber readKeySize
  have extrasSizeLength := length_of_parseNumber readExtrasSize
  have dataTypeLength := length_of_parseNumber readDataType
  have statusLength := length_of_parseNumber readStatus
  have bodySizeLength := length_of_parseNumber readBodySize
  have opaqueLength := length_of_parseNumber readOpaque
  have casLength := length_of_parseNumber readCas
  have extrasLength := length_of_parseBytes readExtras
  have keyLength := length_of_parseBytes readKey
  have valueLength := length_of_parseBytes readValue
  have within : extrasSize + keySize ≤ bodySize := by
    by_contra exceeds
    simp [guard, exceeds] at covers
  omega

/-- What the client makes of a request is read by the server as the announced request, if at all
as one request. -/
theorem eq_announced_of_parse {request parsed : Request} (extrasFit : request.extras.length < 2 ^ 8)
    (parses : parse request.wire = some (parsed, [])) : parsed = request.announced := by
  have size := length_of_parse parses
  simp only [wire, List.length_append, CommandHeader.length_wire, List.length_nil] at size
  have body := congrArg List.length (announcedKey_append request)
  rw [List.length_append, List.length_append] at body
  have fits : request.announced.Representable := by
    refine ⟨?_, ?_⟩
    · rw [announced, length_announcedKey]
      exact Nat.mod_lt _ (by norm_num)
    · have extras : request.announced.extras = request.extras := rfl
      rw [extras]
      omega
  have whole : parse request.announced.wire = _ := parse_wire extrasFit fits
  rw [wire_announced, parses] at whole
  cases whole
  rfl

end Request

namespace Client

open Buffer

/-- The bytes that are added to whatever is in the buffer. -/
def Appends (action : BufferM Unit) (bytes : Bytes) : Prop :=
  ∀ buf, action buf = .ok () (buf ++ bytes)

theorem Appends.bind {action : BufferM Unit} {next : Unit → BufferM Unit} {first second : Bytes}
    (appendsFirst : Appends action first) (appendsSecond : Appends (next ()) second) :
    Appends (action >>= next) (first ++ second) := by
  intro buf
  rw [Stateful.bind_of_ok (appendsFirst buf), appendsSecond, List.append_assoc]

theorem appends_addReference (data : Bytes) : Appends (addReference data) data :=
  fun _ => rfl

theorem appends_addHeader (header : CommandHeader) : Appends (addHeader header) header.wire := by
  rw [← CommandHeader.memory_byteswap]
  exact appends_addReference _

theorem appends_addU32 (value : UInt32) : Appends (addU32 value) (beBytes 4 value.toNat) := by
  rw [← leBytes_byteSwap, ← toNat_bswap32]
  exact appends_addReference _

theorem appends_addU64 (value : UInt64) : Appends (addU64 value) (beBytes 8 value.toNat) := by
  rw [← leBytes_byteSwap, ← toNat_bswap64]
  exact appends_addReference _

/-- A request is appended when its header and then its parts are. -/
theorem Appends.of_header {action : BufferM Unit} {request : Request} {header : CommandHeader}
    {body : Bytes} (appends : Appends action (header.wire ++ body))
    (header_eq : header = request.header)
    (body_eq : body = request.extras ++ (request.key ++ request.value)) :
    Appends action request.wire := by
  rw [Request.wire, ← header_eq, ← body_eq]
  exact appends

theorem appends_getRequest (key : Bytes) (expirationSecs : UInt32) :
    Appends (getRequest key expirationSecs) (if expirationSecs = 0
      then Request.wire ⟨Command.get.code, [], 0, key, []⟩
      else Request.wire ⟨Command.getAndTouch.code, beBytes 4 expirationSecs.toNat, 0, key,
        []⟩) := by
  by_cases zero : expirationSecs = 0
  · simp only [getRequest, zero, ne_eq, not_true_eq_false, if_false, if_true]
    refine Appends.of_header ((appends_addHeader _).bind (appends_addReference key)) ?_ ?_
    · simp [Request.header, CommandHeader.create]
    · simp
  · simp only [getRequest, zero, ne_eq, not_false_eq_true, if_true, if_false]
    refine Appends.of_header ((appends_addHeader _).bind
      ((appends_addU32 expirationSecs).bind (appends_addReference key))) ?_ ?_
    · simp [Request.header, CommandHeader.create, add_comm]
    · simp

theorem appends_writeKeyRequest (opcode : Command) (key value : Bytes)
    (flags expirationSecs : UInt32) (cas : UInt64) :
    Appends (writeKeyRequest opcode key value flags expirationSecs cas)
      (Request.wire ⟨opcode.code, beBytes 4 flags.toNat ++ beBytes 4 expirationSecs.toNat, cas, key,
        value⟩) := by
  refine Appends.of_header ((appends_addHeader _).bind ((appends_addU32 flags).bind
    ((appends_addU32 expirationSecs).bind ((appends_addReference key).bind
      (appends_addReference value))))) ?_ ?_
  · simp [Request.header, CommandHeader.create]
  · simp

theorem appends_deleteKeyRequest (key : Bytes) (cas : UInt64) :
    Appends (deleteKeyRequest key cas) (Request.wire ⟨Command.delete.code, [], cas, key, []⟩) := by
  refine Appends.of_header ((appends_addHeader _).bind (appends_addReference key)) ?_ ?_
  · simp [Request.header, CommandHeader.create]
  · simp

theorem appends_incrementRequest (key : Bytes) (delta initialValue : UInt64)
    (expirationSecs : UInt32) (decrement : Bool) :
    Appends (incrementRequest key delta initialValue expirationSecs decrement)
      (Request.wire ⟨(if decrement then Command.decrement else Command.increment).code,
        beBytes 8 delta.toNat ++ beBytes 8 (initialOrDelta delta initialValue).toNat ++
          beBytes 4 expirationSecs.toNat, 0, key, []⟩) := by
  refine Appends.of_header ((appends_addHeader _).bind ((appends_addU64 delta).bind
    ((appends_addU64 (initialOrDelta delta initialValue)).bind
      ((appends_addU32 expirationSecs).bind (appends_addReference key))))) ?_ ?_
  · simp [Request.header, CommandHeader.create]
  · simp

theorem appends_appendRequest (key value : Bytes) (prepend : Bool) :
    Appends (appendRequest key value prepend)
      (Request.wire ⟨(if prepend then Command.prepend else Command.append).code, [], 0, key,
        value⟩) := by
  refine Appends.of_header ((appends_addHeader _).bind ((appends_addReference key).bind
    (appends_addReference value))) ?_ ?_
  · simp [Request.header, CommandHeader.create]
  · simp

theorem appends_flushRequest (expirationSecs : UInt32) :
    Appends (flushRequest expirationSecs)
      (Request.wire ⟨Command.flush.code, beBytes 4 expirationSecs.toNat, 0, [], []⟩) := by
  refine Appends.of_header ((appends_addHeader _).bind (appends_addU32 expirationSecs)) ?_ ?_
  · simp [Request.header, CommandHeader.create]
  · simp

/-- A request that is only a header. -/
theorem appends_bareHeader (opcode : Command) :
    Appends (addHeader (.create opcode 0 0)) (Request.wire ⟨opcode.code, [], 0, [], []⟩) := by
  have appends := appends_addHeader (.create opcode 0 0)
  rw [← List.append_nil (CommandHeader.wire _)] at appends
  refine appends.of_header ?_ ?_
  · simp [Request.header, CommandHeader.create]
  · simp

theorem appends_statsRequest (key : Option Bytes) :
    Appends (statsRequest key) (Request.wire ⟨Command.stat.code, [], 0, key.getD [], []⟩) := by
  cases key with
  | none => exact appends_bareHeader .stat
  | some key =>
      refine Appends.of_header ((appends_addHeader _).bind (appends_addReference key)) ?_ ?_
      · simp [Request.header, CommandHeader.create]
      · simp

theorem appends_touchRequest (key : Bytes) (expirationSecs : UInt32) :
    Appends (touchRequest key expirationSecs)
      (Request.wire ⟨Command.touch.code, beBytes 4 expirationSecs.toNat, 0, key, []⟩) := by
  refine Appends.of_header ((appends_addHeader _).bind
    ((appends_addU32 expirationSecs).bind (appends_addReference key))) ?_ ?_
  · simp [Request.header, CommandHeader.create, add_comm]
  · simp

end Client

namespace Call

/-- The request that a call asks for. -/
def request : Call → Request
  | .get key expirationSecs =>
      if expirationSecs = 0 then ⟨Command.get.code, [], 0, key, []⟩
      else ⟨Command.getAndTouch.code, beBytes 4 expirationSecs.toNat, 0, key, []⟩
  | .set key value flags expirationSecs cas =>
      ⟨Command.set.code, beBytes 4 flags.toNat ++ beBytes 4 expirationSecs.toNat, cas, key, value⟩
  | .add key value flags expirationSecs =>
      ⟨Command.add.code, beBytes 4 flags.toNat ++ beBytes 4 expirationSecs.toNat, 0, key, value⟩
  | .replace key value flags expirationSecs cas =>
      ⟨Command.replace.code, beBytes 4 flags.toNat ++ beBytes 4 expirationSecs.toNat, cas, key,
        value⟩
  | .deleteKey key cas => ⟨Command.delete.code, [], cas, key, []⟩
  | .increment key delta initialValue expirationSecs decrement =>
      ⟨(if decrement then Command.decrement else Command.increment).code,
        beBytes 8 delta.toNat ++ beBytes 8 (Client.initialOrDelta delta initialValue).toNat ++
          beBytes 4 expirationSecs.toNat, 0, key, []⟩
  | .append key value prepend =>
      ⟨(if prepend then Command.prepend else Command.append).code, [], 0, key, value⟩
  | .flush expirationSecs => ⟨Command.flush.code, beBytes 4 expirationSecs.toNat, 0, [], []⟩
  | .noop _ _ => ⟨Command.noOp.code, [], 0, [], []⟩
  | .version => ⟨Command.version.code, [], 0, [], []⟩
  | .stats key => ⟨Command.stat.code, [], 0, key.getD [], []⟩
  | .touch key expirationSecs =>
      ⟨Command.touch.code, beBytes 4 expirationSecs.toNat, 0, key, []⟩

/-- What the call adds to its buffer. -/
def fill : Call → BufferM Unit
  | .get key expirationSecs => Client.getRequest key expirationSecs
  | .set key value flags expirationSecs cas =>
      Client.writeKeyRequest .set key value flags expirationSecs cas
  | .add key value flags expirationSecs =>
      Client.writeKeyRequest .add key value flags expirationSecs 0
  | .replace key value flags expirationSecs cas =>
      Client.writeKeyRequest .replace key value flags expirationSecs cas
  | .deleteKey key cas => Client.deleteKeyRequest key cas
  | .increment key delta initialValue expirationSecs decrement =>
      Client.incrementRequest key delta initialValue expirationSecs decrement
  | .append key value prepend => Client.appendRequest key value prepend
  | .flush expirationSecs => Client.flushRequest expirationSecs
  | .noop _ _ => Client.addHeader (.create .noOp 0 0)
  | .version => Client.addHeader (.create .version 0 0)
  | .stats key => Client.statsRequest key
  | .touch key expirationSecs => Client.touchRequest key expirationSecs

theorem extras_length (call : Call) : call.request.extras.length < 2 ^ 8 := by
  cases call with
  | get key expirationSecs =>
      simp only [request]
      split
      · simp
      · simp
  | _ => simp [request]

open Client in
/-- Every call adds its request to its buffer. -/
theorem appends_fill (call : Call) : Appends call.fill call.request.wire := by
  cases call with
  | get key expirationSecs =>
      have appends := appends_getRequest key expirationSecs
      rwa [← apply_ite Request.wire] at appends
  | set key value flags expirationSecs cas =>
      exact appends_writeKeyRequest .set key value flags expirationSecs cas
  | add key value flags expirationSecs =>
      exact appends_writeKeyRequest .add key value flags expirationSecs 0
  | replace key value flags expirationSecs cas =>
      exact appends_writeKeyRequest .replace key value flags expirationSecs cas
  | deleteKey key cas => exact appends_deleteKeyRequest key cas
  | increment key delta initialValue expirationSecs decrement =>
      exact appends_incrementRequest key delta initialValue expirationSecs decrement
  | append key value prepend => exact appends_appendRequest key value prepend
  | flush expirationSecs => exact appends_flushRequest expirationSecs
  | noop startUsecs endUsecs => exact appends_bareHeader .noOp
  | version => exact appends_bareHeader .version
  | stats key => exact appends_statsRequest key
  | touch key expirationSecs => exact appends_touchRequest key expirationSecs

end Call

namespace Client

open Buffer Stateful

variable {Result : Type} {client : Client} {socket : Socket} {request : BufferM Unit}
  {bytes : Bytes} {response : StreamM Result} {after : Stream}

/-- A command whose request has been written ends as its response does. -/
theorem command_of_written (isOpen : client.fd = some socket) (appends : Appends request bytes)
    (wrote : write (-1) ⟨bytes, socket⟩ = .ok () after) :
    command request response client = client.leave (response after) := by
  have asserted : assertConnOpen client = .ok () client := by
    simp only [assertConnOpen, isOpen]
  have filled : (liftM request : StreamM Unit) ⟨[], socket⟩ = .ok () ⟨bytes, socket⟩ :=
    Stateful.zoom_of_ok (appends [])
  rw [command, Stateful.bind_of_ok asserted]
  simp only [withBuffer, isOpen]
  rw [Stateful.bind_of_ok filled, Stateful.bind_of_ok wrote]

theorem fd_command_of_written (isOpen : client.fd = some socket) (appends : Appends request bytes)
    (wrote : write (-1) ⟨bytes, socket⟩ = .ok () after) :
    (endState (command request response client)).fd = some (endState (response after)).socket := by
  rw [command_of_written isOpen appends wrote]
  cases response after with
  | ok result final => rfl
  | error stop final => rfl

theorem discard_withBuffer (action : StreamM Result) :
    discard (withBuffer action) = withBuffer (discard action) := by
  funext client
  cases isOpen : client.fd with
  | none => simp [discard, Functor.mapConst, EStateM.map, withBuffer, isOpen]
  | some socket =>
      cases ends : action ⟨[], socket⟩ with
      | ok result after =>
          simp [discard, Functor.mapConst, EStateM.map, withBuffer, isOpen, leave, ends]
      | error stop after =>
          simp [discard, Functor.mapConst, EStateM.map, withBuffer, isOpen, leave, ends]

theorem discard_command (request : BufferM Unit) (response : StreamM Result) :
    discard (command request response) = command request (discard response) := by
  simp only [command, Stateful.discard_bind, discard_withBuffer]

/-- The computation sends nothing, however it ends. -/
abbrev SendsNothing (action : StreamM Result) : Prop :=
  Respects Stream.SendsNothing (fun _ => True) action

theorem sendsNothing_lift (action : BufferM Result) :
    SendsNothing (liftM action : StreamM Result) :=
  lift_respects (fun _ _ => rfl) action

theorem sendsNothing_bind {Next : Type} {action : StreamM Result} {next : Result → StreamM Next}
    (first : SendsNothing action) (second : ∀ result, SendsNothing (next result)) :
    SendsNothing (action >>= next) := by
  refine Respects.bind ?_ first second
  intro _ _ _ earlier later
  exact earlier.trans later

theorem sendsNothing_readResponseHeader (code1 code2 : UInt16) :
    SendsNothing (readResponseHeader code1 code2) := by
  refine sendsNothing_bind (readTo_sent 24) fun _ => ?_
  refine sendsNothing_bind (sendsNothing_lift removeHeader) fun received => ?_
  refine Respects.check Stream.SendsNothing.refl trivial ?_
  refine sendsNothing_bind (readTo_sent _) fun _ => ?_
  refine sendsNothing_bind (sendsNothing_lift _) fun _ => ?_
  exact Respects.pure Stream.SendsNothing.refl _

theorem sendsNothing_oneResponse (code1 code2 : UInt16) (result : CommandHeader → BufferM Result) :
    SendsNothing (oneResponse code1 code2 result) :=
  sendsNothing_bind (sendsNothing_readResponseHeader code1 code2) fun header =>
    sendsNothing_lift (result header)

theorem sendsNothing_readStats (fuel : ℕ) (ret : List (Bytes × Bytes)) :
    SendsNothing (readStats fuel ret) := by
  induction fuel generalizing ret with
  | zero => exact Respects.throw Stream.SendsNothing.refl trivial
  | succ fuel ih =>
      refine sendsNothing_bind (sendsNothing_readResponseHeader 0 0) fun header => ?_
      split
      · exact Respects.throw Stream.SendsNothing.refl trivial
      · split
        · exact Respects.pure Stream.SendsNothing.refl _
        · exact sendsNothing_bind (sendsNothing_lift _) fun stat => ih _

theorem sendsNothing_discard {action : StreamM Result} (sendsNothing : SendsNothing action) :
    SendsNothing (discard action) := by
  rw [Stateful.discard_eq_bind]
  exact sendsNothing_bind sendsNothing fun _ => Respects.pure Stream.SendsNothing.refl _

/-- What the client has sent so far. -/
def sent (client : Client) : Bytes :=
  match client.fd with
  | some socket => socket.sent
  | none => []

end Client

namespace Call

open Client

/-- How the call receives its response. -/
def receive : Call → StreamM Unit
  | .get _ _ => discard (oneResponse ResponseStatus.keyNotFound.code 0 getResult)
  | .set _ _ _ _ _ | .add _ _ _ _ =>
      discard (oneResponse ResponseStatus.keyExists.code 0
        (emptyBodyResult "write command returned response data after header"))
  | .replace _ _ _ _ _ =>
      discard (oneResponse ResponseStatus.keyNotFound.code ResponseStatus.keyExists.code
        (emptyBodyResult "write command returned response data after header"))
  | .deleteKey _ _ =>
      discard (oneResponse ResponseStatus.keyExists.code 0
        (emptyBodyResult "delete command returned response data after header"))
  | .increment _ _ _ _ _ =>
      discard (oneResponse ResponseStatus.keyNotFound.code 0 incrementResult)
  | .append _ _ _ | .flush _ | .touch _ _ => oneResponse 0 0 fun _ => return ()
  | .noop startUsecs endUsecs =>
      discard (oneResponse 0 0 fun _ => return endUsecs - startUsecs)
  | .version => discard (oneResponse 0 0 fun header => Buffer.removeString header.bodySize.toNat)
  | .stats _ => discard fun stream => readStats (stream.socket.incoming.length + 1) [] stream

theorem run_eq (call : Call) : call.run = command call.fill call.receive := by
  cases call with
  | append _ _ _ => rfl
  | flush _ => rfl
  | touch _ _ => rfl
  | _ => exact discard_command _ _

theorem sendsNothing_receive (call : Call) : SendsNothing call.receive := by
  cases call with
  | append _ _ _ => exact sendsNothing_oneResponse 0 0 _
  | flush _ => exact sendsNothing_oneResponse 0 0 _
  | touch _ _ => exact sendsNothing_oneResponse 0 0 _
  | stats key =>
      apply sendsNothing_discard
      intro stream
      exact sendsNothing_readStats (stream.socket.incoming.length + 1) [] stream
  | _ => exact sendsNothing_discard (sendsNothing_oneResponse _ _ _)

/-- A call over an open connection sends its request and nothing else. -/
theorem sent_run (call : Call) {client : Client} {socket : Socket}
    (isOpen : client.fd = some socket) (writable : ∀ number, socket.writes number ≠ .failed) :
    (Stateful.endState (call.run client)).sent = client.sent ++ call.request.wire := by
  rcases Buffer.write_all ⟨call.request.wire, socket⟩ writable call.request.wire_ne_nil with
    ⟨calls, wrote⟩
  have ends : (Stateful.endState (command call.fill call.receive client)).fd = _ :=
    fd_command_of_written isOpen call.appends_fill wrote
  have kept := call.sendsNothing_receive.endState
    ⟨[], { socket with sent := socket.sent ++ call.request.wire, writeCalls := calls }⟩
  rw [run_eq, Client.sent, ends, Client.sent, isOpen]
  exact kept

/-- What the call sends is its request, if its sizes fit, and nothing otherwise. -/
def Framed (call : Call) (client : Client) : Prop :=
  ∃ written, (Stateful.endState (call.run client)).sent = client.sent ++ written ∧
    (call.request.Representable → Request.parse written = some (call.request, [])) ∧
    (¬call.request.Representable →
      (∃ exception after, call.run client = .error (.raised exception) after) ∧ written = [])

theorem representable_of_framed (call : Call) {client : Client} {socket : Socket}
    (isOpen : client.fd = some socket) (writable : ∀ number, socket.writes number ≠ .failed)
    (framed : call.Framed client) : call.request.Representable := by
  rcases framed with ⟨written, sends, _, refused⟩
  by_contra tooLarge
  rcases refused tooLarge with ⟨_, rfl⟩
  rw [sent_run call isOpen writable, List.append_cancel_left_eq] at sends
  exact call.request.wire_ne_nil sends

/-- Exactly the calls whose sizes fit into the header are framed. -/
theorem framed_iff (call : Call) {client : Client} {socket : Socket}
    (isOpen : client.fd = some socket) (writable : ∀ number, socket.writes number ≠ .failed) :
    call.Framed client ↔ call.request.Representable := by
  constructor
  · exact representable_of_framed call isOpen writable
  · intro representable
    refine ⟨call.request.wire, sent_run call isOpen writable, ?_, ?_⟩
    · exact Request.parse_wire call.extras_length
    · intro tooLarge
      exact absurd representable tooLarge

/-- A client whose connection accepts one byte at a time. -/
def bytewiseClient (incoming : Bytes) : Client where
  fd := some (Socket.bytewise incoming)

theorem framed_set_key : (Call.set [107, 101, 121] [1, 2] 7 60 0).Framed (bytewiseClient []) :=
  (framed_iff _ rfl fun number => ((Socket.healthy_bytewise []) number).2).mpr (by decide)

/-- A key whose length does not fit into the header. -/
def longKey : Bytes :=
  List.replicate (2 ^ 16) 0

theorem not_framed_get_longKey : ¬(Call.get longKey 0).Framed (bytewiseClient []) := by
  intro framed
  have fits := representable_of_framed _ rfl
    (fun number => ((Socket.healthy_bytewise []) number).2) framed
  have short : longKey.length < 2 ^ 16 := fits.1
  rw [longKey, List.length_replicate] at short
  exact absurd short (lt_irrefl _)

end Call

end EventAsync.Memcache
