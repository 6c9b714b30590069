import Mathlib.Data.Nat.Bitwise
import Mathlib.Tactic

/-!
# Fixed-width integers as bytes

Little- and big-endian encodings of natural numbers in a given number of bytes.
A value that does not fit is reduced modulo the range of the encoding, as a
conversion to a fixed-width unsigned type does.  Bit sequences are packed into
bytes with the least significant bit of the first byte first.
-/

namespace ByteCodec

abbrev Bytes := List UInt8

/-- The `width` low-order bytes of a number, least significant first. -/
def leBytes : ℕ → ℕ → Bytes
  | 0, _ => []
  | width + 1, value => UInt8.ofNat value :: leBytes width (value / 256)

/-- The number whose bytes are given least significant first. -/
def leNat : Bytes → ℕ
  | [] => 0
  | byte :: rest => byte.toNat + 256 * leNat rest

/-- The `width` low-order bytes of a number, most significant first. -/
def beBytes (width value : ℕ) : Bytes :=
  (leBytes width value).reverse

/-- The number whose bytes are given most significant first. -/
def beNat (bytes : Bytes) : ℕ :=
  leNat bytes.reverse

@[simp]
theorem length_leBytes (width value : ℕ) : (leBytes width value).length = width := by
  induction width generalizing value with
  | zero => rfl
  | succ width ih => simp [leBytes, ih]

@[simp]
theorem length_beBytes (width value : ℕ) : (beBytes width value).length = width := by
  simp [beBytes]

theorem leBytes_mod (width value : ℕ) :
    leBytes width (value % 256 ^ width) = leBytes width value := by
  induction width generalizing value with
  | zero => rfl
  | succ width ih =>
      have split : 256 ^ (width + 1) = 256 * 256 ^ width := pow_succ' 256 width
      have low : UInt8.ofNat (value % 256 ^ (width + 1)) = UInt8.ofNat value := by
        rw [← UInt8.toNat_inj, UInt8.toNat_ofNat', UInt8.toNat_ofNat', split]
        exact Nat.mod_mul_right_mod value 256 (256 ^ width)
      have high : value % 256 ^ (width + 1) / 256 = value / 256 % 256 ^ width := by
        rw [split]
        exact Nat.mod_mul_right_div_self value 256 (256 ^ width)
      simp only [leBytes, low, high, ih]

theorem leNat_leBytes (width value : ℕ) : leNat (leBytes width value) = value % 256 ^ width := by
  induction width generalizing value with
  | zero => simp [leBytes, leNat, Nat.mod_one]
  | succ width ih =>
      have split : 256 ^ (width + 1) = 256 * 256 ^ width := pow_succ' 256 width
      simp only [leBytes, leNat, ih, UInt8.toNat_ofNat']
      rw [split, Nat.mod_mul]

theorem leNat_leBytes_of_lt {width value : ℕ} (fits : value < 256 ^ width) :
    leNat (leBytes width value) = value := by
  rw [leNat_leBytes, Nat.mod_eq_of_lt fits]

theorem beNat_beBytes_of_lt {width value : ℕ} (fits : value < 256 ^ width) :
    beNat (beBytes width value) = value := by
  simp [beNat, beBytes, leNat_leBytes_of_lt fits]

theorem leNat_lt (bytes : Bytes) : leNat bytes < 256 ^ bytes.length := by
  induction bytes with
  | nil => simp [leNat]
  | cons byte rest ih =>
      have bound := byte.toNat_lt
      simp only [leNat, List.length_cons, pow_succ']
      omega

theorem leBytes_leNat (bytes : Bytes) : leBytes bytes.length (leNat bytes) = bytes := by
  induction bytes with
  | nil => rfl
  | cons byte rest ih =>
      have low : UInt8.ofNat (byte.toNat + 256 * leNat rest) = byte := by
        rw [← UInt8.toNat_inj, UInt8.toNat_ofNat', Nat.add_mul_mod_self_left]
        exact Nat.mod_eq_of_lt byte.toNat_lt
      have high : (byte.toNat + 256 * leNat rest) / 256 = leNat rest := by
        have bound := byte.toNat_lt
        omega
      simp only [leNat, List.length_cons, leBytes, low, high, ih]

theorem leBytes_add (low high value : ℕ) :
    leBytes (low + high) value = leBytes low value ++ leBytes high (value / 256 ^ low) := by
  induction low generalizing value with
  | zero => simp [leBytes]
  | succ low ih =>
      rw [Nat.succ_add, leBytes, leBytes, ih, Nat.div_div_eq_div_mul, ← pow_succ', List.cons_append]

theorem beBytes_add (high low value : ℕ) :
    beBytes (high + low) value = beBytes high (value / 256 ^ low) ++ beBytes low value := by
  rw [beBytes, Nat.add_comm, leBytes_add, List.reverse_append, beBytes, beBytes]

theorem beBytes_mod (width value : ℕ) :
    beBytes width (value % 256 ^ width) = beBytes width value := by
  rw [beBytes, leBytes_mod, beBytes]

/-- The number with its bytes in the opposite order. -/
def byteSwap (width value : ℕ) : ℕ :=
  beNat (leBytes width value)

theorem byteSwap_lt (width value : ℕ) : byteSwap width value < 256 ^ width := by
  have bound := leNat_lt (leBytes width value).reverse
  rwa [List.length_reverse, length_leBytes] at bound

theorem leBytes_byteSwap (width value : ℕ) :
    leBytes width (byteSwap width value) = beBytes width value := by
  have encoded := leBytes_leNat (leBytes width value).reverse
  rwa [List.length_reverse, length_leBytes] at encoded

theorem byteSwap_byteSwap {width value : ℕ} (fits : value < 256 ^ width) :
    byteSwap width (byteSwap width value) = value := by
  rw [byteSwap, leBytes_byteSwap, beNat_beBytes_of_lt fits]

theorem takeWhile_terminated {text : Bytes} (noNul : 0 ∉ text) (rest : Bytes) :
    (text ++ 0 :: rest).takeWhile (· ≠ 0) = text := by
  have before : ∀ byte ∈ text, decide (byte ≠ 0) = true := by
    intro byte inText
    rw [decide_eq_true_iff]
    exact ne_of_mem_of_not_mem inText noNul
  rw [List.takeWhile_append_of_pos before]
  simp

theorem dropWhile_terminated {text : Bytes} (noNul : 0 ∉ text) (rest : Bytes) :
    (text ++ 0 :: rest).dropWhile (· ≠ 0) = 0 :: rest := by
  have split : (text ++ 0 :: rest).takeWhile (· ≠ 0) ++ (text ++ 0 :: rest).dropWhile (· ≠ 0) =
      text ++ 0 :: rest := List.takeWhile_append_dropWhile
  rw [takeWhile_terminated noNul] at split
  exact List.append_cancel_left split

theorem and_two_pow_ne_zero_iff (count bit : ℕ) :
    count &&& 2 ^ bit ≠ 0 ↔ count / 2 ^ bit % 2 = 1 := by
  rw [Nat.and_two_pow, Nat.testBit_eq_decide_div_mod_eq]
  by_cases isSet : count / 2 ^ bit % 2 = 1
  · simp [isSet]
  · simp [isSet]

/-- A mask that is shifted takes the same bits as the mask does of the shifted number. -/
theorem and_shiftLeft (number mask shift : ℕ) :
    number &&& (mask <<< shift) = ((number >>> shift) &&& mask) <<< shift := by
  apply Nat.eq_of_testBit_eq
  intro bit
  rw [Nat.testBit_and, Nat.testBit_shiftLeft, Nat.testBit_shiftLeft, Nat.testBit_and,
    Nat.testBit_shiftRight]
  by_cases above : shift ≤ bit
  · simp [above]
  · simp [above]

/-- The bit at an index of a packed bit sequence; bits beyond the bytes are zero. -/
def bitAt (bytes : Bytes) (index : ℕ) : Bool :=
  (bytes.getD (index / 8) 0).toNat.testBit (index % 8)

/-- `bytes` packs `bits`; the unused bits of the last byte are arbitrary. -/
def Packs (bits : List Bool) (bytes : Bytes) : Prop :=
  bytes.length = (bits.length + 7) / 8 ∧
    ∀ index, ∀ inRange : index < bits.length, bitAt bytes index = bits[index]

instance (bits : List Bool) (bytes : Bytes) : Decidable (Packs bits bytes) :=
  inferInstanceAs (Decidable (_ ∧ _))

/-- The bits of a packed sequence of which the length is known. -/
def unpack (count : ℕ) (bytes : Bytes) : List Bool :=
  (List.range count).map (bitAt bytes)

theorem unpack_of_packs {bits : List Bool} {bytes : Bytes} (packs : Packs bits bytes) :
    unpack bits.length bytes = bits := by
  apply List.ext_getElem
  · simp [unpack]
  · intro index _ inRange
    simp only [unpack, List.getElem_map, List.getElem_range]
    exact packs.2 index inRange

end ByteCodec
