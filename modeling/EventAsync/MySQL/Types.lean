import EventAsync.Awaiter
import EventAsync.Lib.Decoding

/-!
# MySQL types

Column types, cell values and the text forms of date and time values.  Numbers
of a fixed width are natural numbers below the bound of their type; floating
point values are represented by their bits.  Length-encoded integers occur in
everything that the protocol sends and are read in the same way from a buffer
and from a string.
-/

namespace EventAsync.MySQL

open ByteCodec Decoding

inductive ColumnType where
  | tDecimal
  | tTinyint
  | tSmallint
  | tInt
  | tFloat
  | tDouble
  | tNull
  | tTimestamp
  | tBigint
  | tMediumint
  | tDate
  | tTime
  | tDatetime
  | tYear
  | tNewdate
  | tVarchar
  | tBit
  | tTimestamp2
  | tDatetime2
  | tTime2
  | tBool
  | tJson
  | tNewdecimal
  | tEnum
  | tSet
  | tTinyblob
  | tMediumblob
  | tLongblob
  | tBlob
  | tVarString
  | tString
  | tGeometry
  deriving DecidableEq

namespace ColumnType

def code : ColumnType → UInt8
  | tDecimal => 0x00
  | tTinyint => 0x01
  | tSmallint => 0x02
  | tInt => 0x03
  | tFloat => 0x04
  | tDouble => 0x05
  | tNull => 0x06
  | tTimestamp => 0x07
  | tBigint => 0x08
  | tMediumint => 0x09
  | tDate => 0x0A
  | tTime => 0x0B
  | tDatetime => 0x0C
  | tYear => 0x0D
  | tNewdate => 0x0E
  | tVarchar => 0x0F
  | tBit => 0x10
  | tTimestamp2 => 0x11
  | tDatetime2 => 0x12
  | tTime2 => 0x13
  | tBool => 0xF4
  | tJson => 0xF5
  | tNewdecimal => 0xF6
  | tEnum => 0xF7
  | tSet => 0xF8
  | tTinyblob => 0xF9
  | tMediumblob => 0xFA
  | tLongblob => 0xFB
  | tBlob => 0xFC
  | tVarString => 0xFD
  | tString => 0xFE
  | tGeometry => 0xFF

def all : List ColumnType :=
  [tDecimal, tTinyint, tSmallint, tInt, tFloat, tDouble, tNull, tTimestamp, tBigint, tMediumint,
    tDate, tTime, tDatetime, tYear, tNewdate, tVarchar, tBit, tTimestamp2, tDatetime2, tTime2,
    tBool, tJson, tNewdecimal, tEnum, tSet, tTinyblob, tMediumblob, tLongblob, tBlob, tVarString,
    tString, tGeometry]

/-- The column type with a given code; a byte that is no code selects no case of a `switch`. -/
def ofCode (byte : UInt8) : Option ColumnType :=
  all.find? fun type => type.code = byte

theorem ofCode_code (type : ColumnType) : ofCode type.code = some type := by
  cases type <;> decide

end ColumnType

structure DateTimeValue where
  years : ℕ
  months : ℕ
  days : ℕ
  hours : ℕ
  minutes : ℕ
  seconds : ℕ
  usecs : ℕ
  deriving DecidableEq

structure TimeValue where
  isNegative : Bool
  hours : ℕ
  minutes : ℕ
  seconds : ℕ
  usecs : ℕ
  deriving DecidableEq

/-- A cell; `const void*` is always null. -/
inductive Value where
  | uint64 (number : ℕ)
  | int64 (number : ℤ)
  | float (bits : ℕ)
  | double (bits : ℕ)
  | null
  | dateTime (value : DateTimeValue)
  | time (value : TimeValue)
  | string (bytes : Bytes)
  deriving DecidableEq

/-- The white space of the C locale. -/
def isSpace (byte : UInt8) : Bool :=
  byte = 0x20 ∨ 0x09 ≤ byte ∧ byte ≤ 0x0D

def isDigit (byte : UInt8) : Bool :=
  0x30 ≤ byte ∧ byte ≤ 0x39

/-- The number written by decimal digits. -/
def digitsValue (digits : Bytes) : ℕ :=
  digits.foldl (fun number digit => 10 * number + (digit.toNat - 0x30)) 0

/-- The start of a number as the `strto` functions read it: sign, digits and what follows. -/
def scanDigits (input : Bytes) : Bool × Bytes × Bytes :=
  let trimmed := input.dropWhile isSpace
  let negative := trimmed.head? = some 0x2D
  let unsigned := if trimmed.head? = some 0x2D ∨ trimmed.head? = some 0x2B
    then trimmed.drop 1 else trimmed
  (negative, unsigned.takeWhile isDigit, unsigned.dropWhile isDigit)

/-- `strtoull` on digits that have been found: the value is clamped, then negated modulo 2^64. -/
def unsignedValue (negative : Bool) (digits : Bytes) : ℕ :=
  if 2 ^ 64 ≤ digitsValue digits then 2 ^ 64 - 1
  else if negative then (2 ^ 64 - digitsValue digits) % 2 ^ 64
  else digitsValue digits

/-- The directives of the `sscanf` formats that are used. -/
inductive ScanDirective where
  | unsigned (bits : ℕ)
  | literal (byte : UInt8)
  | space

/-- The numbers that `sscanf` stores before it ends or a directive fails. -/
def sscanf : List ScanDirective → Bytes → List ℕ
  | [], _ => []
  | .space :: format, input => sscanf format (input.dropWhile isSpace)
  | .literal byte :: format, input =>
      if input.head? = some byte then sscanf format (input.drop 1) else []
  | .unsigned bits :: format, input =>
      let (negative, digits, rest) := scanDigits input
      if digits = [] then []
      else unsignedValue negative digits % 2 ^ bits :: sscanf format rest

/-- `std::string::c_str`: the bytes up to the first NUL. -/
def cStr (str : Bytes) : Bytes :=
  str.takeWhile (· ≠ 0)

/-- The constructor of `DateTimeValue` from a string. -/
def DateTimeValue.ofString (str : Bytes) : DateTimeValue :=
  let fields := sscanf
    [.unsigned 16, .literal 0x2D, .unsigned 8, .literal 0x2D, .unsigned 8, .space, .unsigned 8,
      .literal 0x3A, .unsigned 8, .literal 0x3A, .unsigned 8, .literal 0x2E, .unsigned 32]
    (cStr str)
  { years := fields.getD 0 0
    months := fields.getD 1 0
    days := fields.getD 2 0
    hours := fields.getD 3 0
    minutes := fields.getD 4 0
    seconds := fields.getD 5 0
    usecs := fields.getD 6 0 * 10 ^ (26 - str.length) % 2 ^ 32 }

/-- The constructor of `TimeValue` from a string. -/
def TimeValue.ofString (str : Bytes) : TimeValue :=
  let isNegative := str.head? = some 0x2D
  let fields := sscanf
    [.unsigned 32, .literal 0x3A, .unsigned 8, .literal 0x3A, .unsigned 8, .literal 0x2E,
      .unsigned 32]
    (cStr (if isNegative then str.drop 1 else str))
  let fraction := (str.dropWhile (· ≠ 0x2E)).drop 1
  { isNegative := isNegative
    hours := fields.getD 0 0
    minutes := fields.getD 1 0
    seconds := fields.getD 2 0
    usecs :=
      if str.contains 0x2E then
        (sscanf [.unsigned 32] (cStr fraction)).getD 0 (fields.getD 3 0) *
          10 ^ (6 - fraction.length) % 2 ^ 32
      else fields.getD 3 0 }

/-- A length-encoded integer. -/
def varintBytes (value : ℕ) : Bytes :=
  if value ≤ 0xFA then [UInt8.ofNat value]
  else if value ≤ 0xFFFF then 0xFC :: leBytes 2 value
  else if value ≤ 0xFFFFFF then 0xFD :: leBytes 3 value
  else 0xFE :: leBytes 8 value

/-- A length-encoded string. -/
def varStringBytes (str : Bytes) : Bytes :=
  varintBytes str.length ++ str

section Varint

variable {State : Type} {u8 : EStateM Stop State UInt8} {u16l u24l u64l : EStateM Stop State ℕ}

/-- `remove_varint` and `get_varint`, which differ in where the bytes come from. -/
def varint (u8 : EStateM Stop State UInt8) (u16l u24l u64l : EStateM Stop State ℕ) :
    EStateM Stop State ℕ := do
  let v ← u8
  if v < 0xFB then return v.toNat
  else if v = 0xFB then throw (.runtimeError "length-encoded int is invalid (0xFB)")
  else if v = 0xFC then u16l
  else if v = 0xFD then u24l
  else if v = 0xFE then u64l
  else throw (.runtimeError "length-encoded int is invalid (0xFF)")

theorem decodes_varint {place : ℕ → Bytes → State} {value : ℕ} (fits : value < 2 ^ 64)
    (decodesU8 : ∀ byte, Decodes place u8 [byte] byte)
    (decodesU16l : ∀ number < 256 ^ 2, Decodes place u16l (leBytes 2 number) number)
    (decodesU24l : ∀ number < 256 ^ 3, Decodes place u24l (leBytes 3 number) number)
    (decodesU64l : ∀ number < 256 ^ 8, Decodes place u64l (leBytes 8 number) number) :
    Decodes place (varint u8 u16l u24l u64l) (varintBytes value) value := by
  have tagged : ∀ (tag : UInt8) (bytes : Bytes), tag :: bytes = [tag] ++ bytes :=
    fun _ _ => rfl
  simp only [varintBytes]
  split
  · have byte : (UInt8.ofNat value).toNat = value := by
      rw [UInt8.toNat_ofNat']
      omega
    have small : UInt8.ofNat value < 0xFB := by
      rw [UInt8.lt_iff_toNat_lt, byte]
      exact lt_of_le_of_lt ‹value ≤ 0xFA› (by decide)
    rw [← List.append_nil [UInt8.ofNat value]]
    apply (decodesU8 (UInt8.ofNat value)).bind
    rw [if_pos small, byte]
    exact Decodes.pure value
  · split
    · rw [tagged]
      exact (decodesU8 0xFC).bind (decodesU16l value (by omega))
    · split
      · rw [tagged]
        exact (decodesU8 0xFD).bind (decodesU24l value (by omega))
      · rw [tagged]
        exact (decodesU8 0xFE).bind (decodesU64l value (by omega))

end Varint

end EventAsync.MySQL
