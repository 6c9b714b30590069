import EventAsync.Lib.ByteCodec

/-!
# The header of memcache commands

Requests and responses of the binary protocol start with a header of 24 bytes
whose numbers are big-endian.  `CommandHeader` is a packed structure of machine
integers; `byteswap` turns the one it is called on from the order of the machine,
which is little-endian, into the order of the network and back.
-/

namespace EventAsync.Memcache

open ByteCodec

/-- The values of `CommandHeader::status` that the client distinguishes. -/
inductive ResponseStatus where
  | ok
  | keyNotFound
  | keyExists

def ResponseStatus.code : ResponseStatus → UInt16
  | .ok => 0x0000
  | .keyNotFound => 0x0001
  | .keyExists => 0x0002

/-- The commands that the client sends. -/
inductive Command where
  | get | set | add | replace | delete | increment | decrement
  | flush | noOp | version | append | prepend | stat | touch | getAndTouch
  deriving DecidableEq

def Command.code : Command → UInt8
  | .get => 0x00
  | .set => 0x01
  | .add => 0x02
  | .replace => 0x03
  | .delete => 0x04
  | .increment => 0x05
  | .decrement => 0x06
  | .flush => 0x08
  | .noOp => 0x0A
  | .version => 0x0B
  | .append => 0x0E
  | .prepend => 0x0F
  | .stat => 0x10
  | .touch => 0x1C
  | .getAndTouch => 0x1D

/-- `status` shares its place with the virtual bucket id of requests. -/
structure CommandHeader where
  magic : UInt8
  opcode : UInt8
  keySize : UInt16
  extrasSize : UInt8
  dataType : UInt8
  status : UInt16
  bodySize : UInt32
  opaqueValue : UInt32
  cas : UInt64
  deriving DecidableEq

/-- `phosg::bswap16`. -/
def bswap16 (value : UInt16) : UInt16 :=
  .ofNat (byteSwap 2 value.toNat)

/-- `phosg::bswap32`. -/
def bswap32 (value : UInt32) : UInt32 :=
  .ofNat (byteSwap 4 value.toNat)

/-- `phosg::bswap64`. -/
def bswap64 (value : UInt64) : UInt64 :=
  .ofNat (byteSwap 8 value.toNat)

theorem toNat_bswap16 (value : UInt16) : (bswap16 value).toNat = byteSwap 2 value.toNat :=
  Nat.mod_eq_of_lt (byteSwap_lt 2 value.toNat)

theorem toNat_bswap32 (value : UInt32) : (bswap32 value).toNat = byteSwap 4 value.toNat :=
  Nat.mod_eq_of_lt (byteSwap_lt 4 value.toNat)

theorem toNat_bswap64 (value : UInt64) : (bswap64 value).toNat = byteSwap 8 value.toNat :=
  Nat.mod_eq_of_lt (byteSwap_lt 8 value.toNat)

theorem bswap16_bswap16 (value : UInt16) : bswap16 (bswap16 value) = value := by
  rw [← UInt16.toNat_inj, toNat_bswap16, toNat_bswap16]
  exact byteSwap_byteSwap value.toNat_lt

theorem bswap32_bswap32 (value : UInt32) : bswap32 (bswap32 value) = value := by
  rw [← UInt32.toNat_inj, toNat_bswap32, toNat_bswap32]
  exact byteSwap_byteSwap value.toNat_lt

theorem bswap64_bswap64 (value : UInt64) : bswap64 (bswap64 value) = value := by
  rw [← UInt64.toNat_inj, toNat_bswap64, toNat_bswap64]
  exact byteSwap_byteSwap value.toNat_lt

namespace CommandHeader

/-- The constructor, with the fields that it leaves to the caller. -/
def create (opcode : Command) (keySize : UInt16) (bodySize : UInt32) : CommandHeader where
  magic := 0x80
  opcode := opcode.code
  keySize := keySize
  extrasSize := 0
  dataType := 0
  status := 0
  bodySize := bodySize
  opaqueValue := 0
  cas := 0

def byteswap (header : CommandHeader) : CommandHeader :=
  { header with
    keySize := bswap16 header.keySize
    status := bswap16 header.status
    bodySize := bswap32 header.bodySize
    opaqueValue := bswap32 header.opaqueValue
    cas := bswap64 header.cas }

/-- The bytes of the structure in memory. -/
def memory (header : CommandHeader) : Bytes :=
  leBytes 1 header.magic.toNat ++ (leBytes 1 header.opcode.toNat ++
    (leBytes 2 header.keySize.toNat ++ (leBytes 1 header.extrasSize.toNat ++
      (leBytes 1 header.dataType.toNat ++ (leBytes 2 header.status.toNat ++
        (leBytes 4 header.bodySize.toNat ++ (leBytes 4 header.opaqueValue.toNat ++
          leBytes 8 header.cas.toNat)))))))

/-- The structure that bytes in memory are read as. -/
def ofMemory (bytes : Bytes) : CommandHeader where
  magic := .ofNat (leNat (bytes.take 1))
  opcode := .ofNat (leNat ((bytes.drop 1).take 1))
  keySize := .ofNat (leNat ((bytes.drop 2).take 2))
  extrasSize := .ofNat (leNat ((bytes.drop 4).take 1))
  dataType := .ofNat (leNat ((bytes.drop 5).take 1))
  status := .ofNat (leNat ((bytes.drop 6).take 2))
  bodySize := .ofNat (leNat ((bytes.drop 8).take 4))
  opaqueValue := .ofNat (leNat ((bytes.drop 12).take 4))
  cas := .ofNat (leNat ((bytes.drop 16).take 8))

/-- The header in the order of the network. -/
def wire (header : CommandHeader) : Bytes :=
  beBytes 1 header.magic.toNat ++ (beBytes 1 header.opcode.toNat ++
    (beBytes 2 header.keySize.toNat ++ (beBytes 1 header.extrasSize.toNat ++
      (beBytes 1 header.dataType.toNat ++ (beBytes 2 header.status.toNat ++
        (beBytes 4 header.bodySize.toNat ++ (beBytes 4 header.opaqueValue.toNat ++
          beBytes 8 header.cas.toNat)))))))

@[simp]
theorem length_wire (header : CommandHeader) : header.wire.length = 24 := by
  simp [wire]

theorem byteswap_byteswap (header : CommandHeader) : header.byteswap.byteswap = header := by
  simp only [byteswap, bswap16_bswap16, bswap32_bswap32, bswap64_bswap64]

theorem memory_byteswap (header : CommandHeader) : header.byteswap.memory = header.wire := by
  simp only [memory, byteswap, wire, toNat_bswap16, toNat_bswap32, toNat_bswap64,
    leBytes_byteSwap]
  rfl

/-- Bytes before a field are skipped field by field. -/
theorem drop_leBytes_append {width count : ℕ} (value : ℕ) (after : Bytes) (le : width ≤ count) :
    (leBytes width value ++ after).drop count = after.drop (count - width) := by
  rw [List.drop_append, List.drop_eq_nil_of_le (by rwa [length_leBytes]), length_leBytes,
    List.nil_append]

theorem take_leBytes_append (width value : ℕ) (after : Bytes) :
    (leBytes width value ++ after).take width = leBytes width value :=
  List.take_left' (length_leBytes width value)

theorem ofMemory_memory (header : CommandHeader) : ofMemory header.memory = header := by
  have one : ∀ value : UInt8, leNat (leBytes 1 value.toNat) = value.toNat :=
    fun value => leNat_leBytes_of_lt value.toNat_lt
  have two : ∀ value : UInt16, leNat (leBytes 2 value.toNat) = value.toNat :=
    fun value => leNat_leBytes_of_lt value.toNat_lt
  have four : ∀ value : UInt32, leNat (leBytes 4 value.toNat) = value.toNat :=
    fun value => leNat_leBytes_of_lt value.toNat_lt
  have eight : ∀ value : UInt64, leNat (leBytes 8 value.toNat) = value.toNat :=
    fun value => leNat_leBytes_of_lt value.toNat_lt
  have last : (leBytes 8 header.cas.toNat).take 8 = leBytes 8 header.cas.toNat :=
    List.take_of_length_le (by rw [length_leBytes])
  simp (disch := norm_num) only [ofMemory, memory, drop_leBytes_append, take_leBytes_append,
    last, one, two, four, eight, Nat.reduceSub, List.drop_zero, UInt8.ofNat_toNat,
    UInt16.ofNat_toNat, UInt32.ofNat_toNat, UInt64.ofNat_toNat]

/-- What is received in the order of the network is swapped into the header. -/
theorem byteswap_ofMemory_wire (header : CommandHeader) :
    (ofMemory header.wire).byteswap = header := by
  rw [← memory_byteswap, ofMemory_memory, byteswap_byteswap]

end CommandHeader

end EventAsync.Memcache
