import EventAsync.MySQL.BinlogMetadata
import Mathlib.Algebra.Order.Floor.Div

/-!
# Bitmasks

`get_bitmask` reads the bytes that hold the bits and then takes one bit after
the other out of these bytes.  Reading returns fewer bytes if fewer are left,
and nothing compares the index of a byte with the number of bytes that were
read.  A bitmask for which the bytes are there is taken exactly; of one that is
cut off, the loop reads the NUL behind the string, or memory behind that.
-/

namespace EventAsync.MySQL

open ByteCodec

namespace StringReader

/-- `data[index]`, where the index of the terminating NUL is valid too. -/
def byteAt (data : Bytes) (index : ℕ) : ReaderM UInt8 := do
  if data.length < index then throw (.undefined "string index out of range")
  return data.getD index 0

/-- One iteration of the loop of `get_bitmask`. -/
def bitOf (data : Bytes) (x : ℕ) : ReaderM Bool := do
  return (← byteAt data (x >>> 3)).toNat.testBit (x &&& 7)

theorem bitOf_of_le {data : Bytes} {x : ℕ} (inRange : x / 8 ≤ data.length) :
    bitOf data x = pure (bitAt data x) := by
  have index : x >>> 3 = x / 8 := Nat.shiftRight_eq_div_pow x 3
  have bit : x &&& 7 = x % 8 := Nat.and_two_pow_sub_one_eq_mod x 3
  rw [bitOf, byteAt, index, bit, if_neg (Nat.not_lt.mpr inRange)]
  rfl

theorem bitOf_of_lt {data : Bytes} {x : ℕ} (beyond : data.length < x / 8) :
    bitOf data x = throw (.undefined "string index out of range") := by
  have index : x >>> 3 = x / 8 := Nat.shiftRight_eq_div_pow x 3
  rw [bitOf, byteAt, index, if_pos beyond]
  rfl

theorem mapM_bitOf_of_le {data : Bytes} {xs : List ℕ} (inRange : ∀ x ∈ xs, x / 8 ≤ data.length) :
    xs.mapM (bitOf data) = pure (xs.map (bitAt data)) := by
  induction xs with
  | nil => rfl
  | cons x xs ih =>
      rw [List.mapM_cons, bitOf_of_le (inRange x List.mem_cons_self),
        ih fun later mem => inRange later (List.mem_cons_of_mem x mem)]
      rfl

theorem mapM_bitOf_of_lt {data : Bytes} {xs : List ℕ} {last : ℕ} (mem : last ∈ xs)
    (beyond : data.length < last / 8) :
    xs.mapM (bitOf data) = throw (.undefined "string index out of range") := by
  induction xs with
  | nil => cases mem
  | cons x xs ih =>
      rw [List.mapM_cons]
      rcases Nat.lt_or_ge data.length (x / 8) with outside | inRange
      · rw [bitOf_of_lt outside]
        rfl
      · have memLater : last ∈ xs := by
          rcases List.mem_cons.mp mem with rfl | memLater
          · omega
          · exact memLater
        rw [bitOf_of_le inRange, ih memLater]
        rfl

/-- The last of the indices decides whether the loop stays in range, so `getBitmask` can check it
before the loop. -/
theorem getBitmask_eq_loop (numBits : ℕ) : getBitmask numBits = (do
    let data ← read ((numBits + 7) / 8)
    (List.range numBits).mapM (bitOf data)) := by
  rw [getBitmask]
  congr 1
  funext data
  rcases Nat.lt_or_ge data.length ((numBits - 1) / 8) with beyond | inRange
  · have mem : numBits - 1 ∈ List.range numBits := by
      rw [List.mem_range]
      omega
    rw [if_pos beyond, mapM_bitOf_of_lt mem beyond]
    rfl
  · have all : ∀ x ∈ List.range numBits, x / 8 ≤ data.length := by
      intro x mem
      have before := List.mem_range.mp mem
      omega
    rw [if_neg (Nat.not_lt.mpr inRange), mapM_bitOf_of_le all]
    rfl

theorem getBitmask_of_le {numBits : ℕ} {reader : StringReader}
    (enough : (numBits + 7) / 8 ≤ reader.rest.length) :
    getBitmask numBits reader = .ok (unpack numBits (reader.rest.take ((numBits + 7) / 8)))
      ⟨reader.offset + (numBits + 7) / 8, reader.rest.drop ((numBits + 7) / 8)⟩ := by
  have taken : read ((numBits + 7) / 8) reader = .ok (reader.rest.take ((numBits + 7) / 8))
      ⟨reader.offset + (numBits + 7) / 8, reader.rest.drop ((numBits + 7) / 8)⟩ := by
    rw [read, Nat.min_eq_left enough]
  have inRange : ¬(reader.rest.take ((numBits + 7) / 8)).length < (numBits - 1) / 8 := by
    rw [List.length_take]
    omega
  rw [getBitmask, Stateful.bind_of_ok taken, if_neg inRange]
  rfl

theorem getBitmask_bitmap {numBits : ℕ} {reader : StringReader} {bitmap left : Bytes}
    (length : bitmap.length = (numBits + 7) / 8) (split : reader.rest = bitmap ++ left) :
    ∃ after, getBitmask numBits reader = .ok (unpack numBits bitmap) after ∧ after.rest = left := by
  have enough : (numBits + 7) / 8 ≤ reader.rest.length := by
    rw [split, List.length_append]
    omega
  refine ⟨⟨reader.offset + (numBits + 7) / 8, left⟩, ?_, rfl⟩
  rw [getBitmask_of_le enough, split, ← length, List.take_left, List.drop_left]

/-- Bits of which only the last byte is missing are all returned. -/
theorem getBitmask_missing {numBits : ℕ} {reader : StringReader}
    (inRange : (numBits - 1) / 8 ≤ reader.rest.length)
    (missing : reader.rest.length < (numBits + 7) / 8) :
    ∃ after, getBitmask numBits reader = .ok (unpack numBits reader.rest) after ∧
      after.rest = [] := by
  have taken : read ((numBits + 7) / 8) reader =
      .ok (reader.rest.take ((numBits + 7) / 8)) _ := rfl
  have all := Nat.le_of_lt missing
  rw [getBitmask, Stateful.bind_of_ok taken, List.take_of_length_le all,
    if_neg (Nat.not_lt.mpr inRange)]
  exact ⟨_, rfl, List.drop_eq_nil_of_le all⟩

/-- Bits of which more than the last byte is missing are looked for in memory behind the string. -/
theorem getBitmask_beyond {numBits : ℕ} {reader : StringReader}
    (beyond : reader.rest.length < (numBits - 1) / 8) :
    ∃ after, getBitmask numBits reader =
      .error (.undefined "string index out of range") after := by
  have taken : read ((numBits + 7) / 8) reader =
      .ok (reader.rest.take ((numBits + 7) / 8)) _ := rfl
  have all : reader.rest.length ≤ (numBits + 7) / 8 := by omega
  rw [getBitmask, Stateful.bind_of_ok taken, List.take_of_length_le all, if_pos beyond]
  exact ⟨_, rfl⟩

/-- What reading a bitmap makes of the bytes that are left. -/
theorem getBitmask_cases (numBits : ℕ) (reader : StringReader) :
    (∃ last, getBitmask numBits reader =
        .error (.undefined "string index out of range") last) ∨
      ((numBits - 1) / 8 ≤ reader.rest.length ∧ reader.rest.length < (numBits + 7) / 8) ∨
      ∃ bitmap left, bitmap.length = (numBits + 7) / 8 ∧ reader.rest = bitmap ++ left := by
  rcases Nat.lt_or_ge reader.rest.length ((numBits + 7) / 8) with missing | enough
  · rcases Nat.lt_or_ge reader.rest.length ((numBits - 1) / 8) with beyond | inRange
    · exact Or.inl (getBitmask_beyond beyond)
    · exact Or.inr (Or.inl ⟨inRange, missing⟩)
  · exact Or.inr (Or.inr ⟨_, _, List.length_take_of_le enough, (List.take_append_drop _ _).symm⟩)

theorem getBitmask_ne_raised (numBits : ℕ) (reader after : StringReader) (exception : Exception) :
    getBitmask numBits reader ≠ .error (.raised exception) after := by
  intro raised
  rcases getBitmask_cases numBits reader with ⟨last, ends⟩ | ⟨inRange, missing⟩ |
    ⟨bitmap, left, length, split⟩
  · rw [ends] at raised
    cases raised
  · rcases getBitmask_missing inRange missing with ⟨last, ends, _⟩
    rw [ends] at raised
    cases raised
  · rcases getBitmask_bitmap length split with ⟨last, ends, _⟩
    rw [ends] at raised
    cases raised

/-- It raises, or takes the bytes that hold the bits and returns the bits of these bytes, the least
significant one first. -/
def ReturnsBits (numBits : ℕ) (reader : StringReader) : Prop :=
  (∃ exception after, getBitmask numBits reader = .error (.raised exception) after) ∨
    ∃ bits consumed left,
      getBitmask numBits reader = .ok bits ⟨reader.offset + consumed.length, left⟩ ∧
      reader.rest = consumed ++ left ∧ consumed.length = numBits ⌈/⌉ 8 ∧ bits.length = numBits ∧
      ∀ x < numBits, ∃ byte, consumed[x / 8]? = some byte ∧
        bits[x]? = some (byte.toNat.testBit (x % 8))

/-- The indices that the loop uses are within the bytes that were read. -/
def StaysInBounds (numBits : ℕ) (reader : StringReader) : Prop :=
  ∀ data after, read ((numBits + 7) / 8) reader = .ok data after →
    ∀ x < numBits, x >>> 3 < data.length

/-- What a call of `get_bitmask` is to do. -/
structure ReadsBitmask (numBits : ℕ) (reader : StringReader) : Prop where
  returns : ReturnsBits numBits reader
  inBounds : StaysInBounds numBits reader

theorem ceilDiv_eight (numBits : ℕ) : numBits ⌈/⌉ 8 = (numBits + 7) / 8 :=
  Nat.ceilDiv_eq_add_pred_div numBits 8

theorem length_unpack (numBits : ℕ) (bytes : Bytes) : (unpack numBits bytes).length = numBits := by
  rw [unpack, List.length_map, List.length_range]

theorem unpack_bit {numBits x : ℕ} {bytes : Bytes} (length : bytes.length = (numBits + 7) / 8)
    (before : x < numBits) :
    ∃ byte, bytes[x / 8]? = some byte ∧
      (unpack numBits bytes)[x]? = some (byte.toNat.testBit (x % 8)) := by
  have inRange : x / 8 < bytes.length := by omega
  refine ⟨bytes[x / 8], List.getElem?_eq_getElem inRange, ?_⟩
  have bit : bitAt bytes x = bytes[x / 8].toNat.testBit (x % 8) := by
    rw [bitAt, List.getD_eq_getElem bytes 0 inRange]
  simp only [unpack, List.getElem?_map, List.getElem?_range before, Option.map_some, bit]

theorem returnsBits_iff (numBits : ℕ) (reader : StringReader) :
    ReturnsBits numBits reader ↔ numBits ⌈/⌉ 8 ≤ reader.rest.length := by
  constructor
  · rintro (⟨exception, after, raised⟩ | ⟨bits, consumed, left, _, split, length, _⟩)
    · exact absurd raised (getBitmask_ne_raised numBits reader after exception)
    · rw [split, List.length_append]
      omega
  · intro enough
    rw [ceilDiv_eight] at enough
    have length : (reader.rest.take ((numBits + 7) / 8)).length = (numBits + 7) / 8 :=
      List.length_take_of_le enough
    refine Or.inr ⟨_, reader.rest.take ((numBits + 7) / 8), reader.rest.drop ((numBits + 7) / 8),
      ?_, (List.take_append_drop _ _).symm, ?_, length_unpack numBits _,
      fun x before => unpack_bit length before⟩
    · rw [getBitmask_of_le enough, length]
    · rw [length, ceilDiv_eight]

theorem staysInBounds_iff (numBits : ℕ) (reader : StringReader) :
    StaysInBounds numBits reader ↔ numBits ⌈/⌉ 8 ≤ reader.rest.length := by
  rw [ceilDiv_eight]
  constructor
  · intro inBounds
    rcases Nat.eq_zero_or_pos numBits with rfl | positive
    · exact Nat.zero_le _
    · have last := inBounds _ _ rfl (numBits - 1) (by omega)
      rw [Nat.shiftRight_eq_div_pow, List.length_take] at last
      omega
  · intro enough data after taken x before
    cases taken
    rw [Nat.shiftRight_eq_div_pow, List.length_take]
    omega

/-- A call does what it is to do if and only if all the bytes that hold the bits are left. -/
theorem readsBitmask_iff (numBits : ℕ) (reader : StringReader) :
    ReadsBitmask numBits reader ↔ numBits ⌈/⌉ 8 ≤ reader.rest.length := by
  constructor
  · intro reads
    exact (staysInBounds_iff numBits reader).mp reads.inBounds
  · intro enough
    exact ⟨(returnsBits_iff numBits reader).mpr enough,
      (staysInBounds_iff numBits reader).mpr enough⟩

end StringReader

namespace BinlogProcessor

open StringReader

/-- A table map event for the id 66 with a column of type TINYINT, cut off where its bitmap of
nullable columns would start. -/
def cutTableMap : Bytes :=
  (sampleHeader 19).encode ++ leBytes 6 66 ++ leBytes 2 1 ++ [1, 0x64, 0, 1, 0x74, 0, 1, 1, 0]

/-- The bit of the column is taken from no byte, and the event is accepted. -/
theorem not_readsBitmask_cutTableMap :
    readColumnMetadata (.ofString cutTableMap) = .ok ([1], []) ⟨36, []⟩ ∧
      (∃ ev after, parseTableMapEvent cutTableMap create = .ok ev after) ∧
      getBitmask 1 ⟨36, []⟩ = .ok [false] ⟨36, []⟩ ∧ ¬ReadsBitmask 1 ⟨36, []⟩ := by
  have described : (ParseCall.tableMap cutTableMap).described =
      some (66, ⟨[0x64], [0x74], [⟨1, [], false⟩]⟩) := by
    decide +kernel
  rcases read_of_described described with ⟨data, ev, last, same, decoded, _⟩
  cases same
  refine ⟨?_, ?_, rfl, ?_⟩
  · rfl
  · rcases parseTableMapEvent_cases cutTableMap create with ⟨_, _, failed, _⟩ |
      ⟨ev, ti, _, _, parsed⟩
    · rw [decoded] at failed
      cases failed
    · exact ⟨_, _, parsed⟩
  · intro reads
    have last := reads.inBounds [] ⟨36, []⟩ rfl 0 Nat.one_pos
    exact Nat.not_lt_zero _ last

end BinlogProcessor

end EventAsync.MySQL
