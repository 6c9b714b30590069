import EventAsync.MySQL.Types

/-!
# Reading a string from its start to its end

`StringReader` keeps an offset into a string.  `read` returns what is left if
fewer bytes are left than asked for, while the `get` functions raise.
`ProtocolStringReader` adds the fields of the MySQL protocol.
-/

namespace EventAsync.MySQL

open ByteCodec Decoding

/-- A reader at an offset, with the bytes from there to the end of the string. -/
structure StringReader where
  offset : ℕ
  rest : Bytes
  deriving DecidableEq

abbrev ReaderM := EStateM Stop StringReader

namespace StringReader

def ofString (data : Bytes) : StringReader where
  offset := 0
  rest := data

/-- `where()`. -/
def location : ReaderM ℕ := fun reader => .ok reader.offset reader

def eof : ReaderM Bool := fun reader => .ok reader.rest.isEmpty reader

/-- The number of bytes left, `size() - where()`. -/
def remaining : ReaderM ℕ := fun reader => .ok reader.rest.length reader

def read (size : ℕ) : ReaderM Bytes := fun reader =>
  .ok (reader.rest.take size)
    { offset := reader.offset + min size reader.rest.length
      rest := reader.rest.drop size }

/-- The bytes of a value of a fixed size. -/
def getBytes (size : ℕ) : ReaderM Bytes := do
  if (← remaining) < size then throw (.raised (.outOfRange "end of string"))
  read size

def skip (size : ℕ) : ReaderM Unit := do
  let _ ← getBytes size

def getU8 : ReaderM UInt8 := do
  return (← getBytes 1).headD 0

/-- `get<T>()` for a little-endian type of the given number of bytes. -/
def getLe (width : ℕ) : ReaderM ℕ := do
  return leNat (← getBytes width)

/-- `get<T>()` for a big-endian type of the given number of bytes. -/
def getBe (width : ℕ) : ReaderM ℕ := do
  return beNat (← getBytes width)

def getU16l : ReaderM ℕ := getLe 2

def getU24l : ReaderM ℕ := getLe 3

def getU32l : ReaderM ℕ := getLe 4

def getU48l : ReaderM ℕ := getLe 6

def getU64l : ReaderM ℕ := getLe 8

def getU16b : ReaderM ℕ := getBe 2

def getU24b : ReaderM ℕ := getBe 3

def getU32b : ReaderM ℕ := getBe 4

/-- The bits of a little-endian `float`. -/
def getF32l : ReaderM ℕ := getLe 4

/-- The bits of a little-endian `double`. -/
def getF64l : ReaderM ℕ := getLe 8

def getVarint : ReaderM ℕ := varint getU8 getU16l getU24l getU64l

/-- The bytes before the next NUL, which is passed over. -/
def getCstr : ReaderM Bytes := fun reader =>
  if reader.rest.contains 0 then
    let str := reader.rest.takeWhile (· ≠ 0)
    .ok str
      { offset := reader.offset + (str.length + 1)
        rest := (reader.rest.dropWhile (· ≠ 0)).drop 1 }
  else .error (.raised (.outOfRange "end of string")) reader

def getString0 : ReaderM Bytes := getCstr

def getVarString : ReaderM Bytes := do
  read (← getVarint)

def getStringEof : ReaderM Bytes := do
  read (← remaining)

/-- `data[x >> 3]` is the terminating NUL if the index is the length of the data that was read,
and has no meaning beyond that. -/
def getBitmask (numBits : ℕ) : ReaderM (List Bool) := do
  let data ← read ((numBits + 7) / 8)
  if data.length < (numBits - 1) / 8 then throw (.undefined "string index out of range")
  return unpack numBits data

theorem decodes_read {bytes : Bytes} {size : ℕ} (length : bytes.length = size) :
    Decodes mk (read size) bytes bytes := by
  intro offset rest
  subst length
  simp [read]

theorem decodes_getBytes {bytes : Bytes} {size : ℕ} (length : bytes.length = size) :
    Decodes mk (getBytes size) bytes bytes := by
  intro offset rest
  have enough : ¬(bytes ++ rest).length < size := by
    rw [List.length_append]
    omega
  rw [getBytes, Stateful.bind_of_ok (by rfl : remaining _ = .ok (bytes ++ rest).length _),
    if_neg enough]
  exact decodes_read length offset rest

theorem decodes_skip_one (byte : UInt8) : Decodes mk (skip 1) [byte] () := by
  have taken : Decodes mk (getBytes 1) [byte] [byte] := decodes_getBytes rfl
  exact taken.bind_pure

theorem decodes_getU8 (byte : UInt8) : Decodes mk getU8 [byte] byte := by
  have taken : Decodes mk (getBytes 1) [byte] [byte] := decodes_getBytes rfl
  exact taken.bind_pure

theorem decodes_getLe {width number : ℕ} (fits : number < 256 ^ width) :
    Decodes mk (getLe width) (leBytes width number) number := by
  have taken : Decodes mk (getLe width) (leBytes width number) (leNat (leBytes width number)) :=
    (decodes_getBytes (length_leBytes width number)).bind_pure
  rwa [leNat_leBytes_of_lt fits] at taken

theorem decodes_getBe {width number : ℕ} (fits : number < 256 ^ width) :
    Decodes mk (getBe width) (beBytes width number) number := by
  have taken : Decodes mk (getBe width) (beBytes width number) (beNat (beBytes width number)) :=
    (decodes_getBytes (length_beBytes width number)).bind_pure
  rwa [beNat_beBytes_of_lt fits] at taken

theorem decodes_getString0 {text : Bytes} (noNul : 0 ∉ text) :
    Decodes mk getString0 (text ++ [0]) text := by
  intro offset rest
  have terminated : text ++ [0] ++ rest = text ++ 0 :: rest := by simp
  have holdsNul : (text ++ 0 :: rest).contains 0 = true := by simp
  rw [terminated, getString0, getCstr, if_pos holdsNul]
  simp only [takeWhile_terminated noNul, dropWhile_terminated noNul, List.length_append]
  rfl

theorem decodes_getVarint {value : ℕ} (fits : value < 2 ^ 64) :
    Decodes mk getVarint (varintBytes value) value :=
  decodes_varint fits decodes_getU8 (fun _ => decodes_getLe) (fun _ => decodes_getLe)
    (fun _ => decodes_getLe)

theorem decodes_getVarString {str : Bytes} (fits : str.length < 2 ^ 64) :
    Decodes mk getVarString (varStringBytes str) str :=
  (decodes_getVarint fits).bind (decodes_read rfl)

theorem decodes_getBitmask {bits : List Bool} {bytes : Bytes} (packs : Packs bits bytes) :
    Decodes mk (getBitmask bits.length) bytes bits := by
  have inRange : ¬bytes.length < (bits.length - 1) / 8 := by
    rw [packs.1]
    omega
  have unpacked : Decodes mk (getBitmask bits.length) (bytes ++ []) bits := by
    apply (decodes_read packs.1).bind
    rw [if_neg inRange, unpack_of_packs packs]
    exact Decodes.pure bits
  rwa [List.append_nil] at unpacked

end StringReader

end EventAsync.MySQL
