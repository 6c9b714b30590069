import EventAsync.MySQL.BinlogProcessor

/-!
# Cells that hold dates and times

The row format has a packed integer for the fields of a date or a time and a
fraction of a second behind it, whose width depends on the precision of the
column.  Both are big-endian.  Each result below says for which values
`read_cell_data` returns what was stored.
-/

namespace EventAsync.MySQL

open ByteCodec Decoding StringReader

/-- A column with a type whose only byte of metadata is a precision. -/
def temporalColumn (type : ColumnType) (precision : Fin 7) (ci : ColumnInfo) : ColumnInfo :=
  { ci with
    type := type.code
    typeMeta := [UInt8.ofNat precision.val] }

theorem ofCode_temporalColumn (type : ColumnType) (precision : Fin 7) (ci : ColumnInfo) :
    ColumnType.ofCode (temporalColumn type precision ci).type = some type :=
  ColumnType.ofCode_code type

/-- How many bytes the fraction has. -/
def fractionBytes (precision : Fin 7) : ℕ :=
  (precision.val + 1) / 2

/-- The fraction counts units of this many microseconds. -/
def fractionUnit (precision : Fin 7) : ℕ :=
  10 ^ (6 - 2 * fractionBytes precision)

theorem decodes_getU8_beBytes {number : ℕ} (fits : number < 256 ^ 1) (result : ℕ → ℕ) :
    Decodes mk (do return result (← getU8).toNat) (beBytes 1 number) (result number) := by
  have taken : Decodes mk (do return result (← getU8).toNat) [UInt8.ofNat number]
      (result (UInt8.ofNat number).toNat) := (decodes_getU8 _).bind_pure
  have byte : (UInt8.ofNat number).toNat = number := by
    rw [UInt8.toNat_ofNat']
    exact Nat.mod_eq_of_lt fits
  rwa [byte] at taken

/-- The fraction is read in its unit. -/
theorem decodes_fraction (precision : Fin 7) {fraction : ℕ}
    (fits : fraction < 256 ^ fractionBytes precision) :
    Decodes mk (BinlogProcessor.readDatetimeFractionalPart (UInt8.ofNat precision.val))
      (beBytes (fractionBytes precision) fraction) (fraction * fractionUnit precision) := by
  fin_cases precision
  · have none : fraction = 0 := Nat.lt_one_iff.mp fits
    subst none
    exact Decodes.pure 0
  · exact decodes_getU8_beBytes fits (· * 10000)
  · exact decodes_getU8_beBytes fits (· * 10000)
  · exact (decodes_getBe fits).bind_pure
  · exact (decodes_getBe fits).bind_pure
  · change Decodes mk (getBe 3) (beBytes 3 fraction) (fraction * 1)
    rw [Nat.mul_one]
    exact decodes_getBe fits
  · change Decodes mk (getBe 3) (beBytes 3 fraction) (fraction * 1)
    rw [Nat.mul_one]
    exact decodes_getBe fits

/-- The microseconds of a column with a precision. -/
structure Fraction (precision : Fin 7) (usecs : ℕ) : Prop where
  lt : usecs < 10 ^ 6
  multiple : 10 ^ (6 - precision.val) ∣ usecs

namespace Fraction

variable {precision : Fin 7} {usecs : ℕ}

theorem mul_unit (fraction : Fraction precision usecs) :
    usecs / fractionUnit precision * fractionUnit precision = usecs := by
  apply Nat.div_mul_cancel
  refine Dvd.dvd.trans ?_ fraction.multiple
  apply Nat.pow_dvd_pow
  rw [fractionBytes]
  omega

theorem div_unit_lt (fraction : Fraction precision usecs) :
    usecs / fractionUnit precision < 256 ^ fractionBytes precision := by
  have whole : (10 : ℕ) ^ 6 ≤ 256 ^ fractionBytes precision * fractionUnit precision := by
    fin_cases precision <;> decide
  exact Nat.div_lt_of_lt_mul (by
    rw [Nat.mul_comm]
    exact fraction.lt.trans_le whole)

end Fraction

section Time2

/-- A value that a `T_TIME2` column can hold; zero counts as positive. -/
structure Time2 (precision : Fin 7) where
  value : TimeValue
  hours_le : value.hours ≤ 838
  minutes_le : value.minutes ≤ 59
  seconds_le : value.seconds ≤ 59
  fraction : Fraction precision value.usecs
  positive : value.hours = 0 → value.minutes = 0 → value.seconds = 0 → value.usecs = 0 →
    value.isNegative = false

variable {precision : Fin 7}

namespace Time2

/-- The packed fields without the sign. -/
def packed (time : Time2 precision) : ℕ :=
  (time.value.hours <<< 12) ||| (time.value.minutes <<< 6) ||| time.value.seconds

/-- The fraction in its unit. -/
def units (time : Time2 precision) : ℕ :=
  time.value.usecs / fractionUnit precision

/-- The bytes in which the value is stored. -/
def bytes (time : Time2 precision) : Bytes :=
  let one := 2 ^ (8 * fractionBytes precision)
  beBytes (3 + fractionBytes precision)
    (if time.value.isNegative then 0x800000 * one - (time.packed * one + time.units)
    else 0x800000 * one + (time.packed * one + time.units))

theorem packed_eq (time : Time2 precision) :
    time.packed = time.value.hours * 4096 + time.value.minutes * 64 + time.value.seconds := by
  have minutes := time.minutes_le
  have seconds := time.seconds_le
  have minutesFit : time.value.minutes <<< 6 < 2 ^ 12 := by
    rw [Nat.shiftLeft_eq]
    omega
  have secondsFit : time.value.seconds < 2 ^ 6 := by omega
  have upper : (time.value.hours <<< 12) ||| (time.value.minutes <<< 6) =
      (time.value.hours * 64 + time.value.minutes) <<< 6 := by
    rw [← Nat.shiftLeft_add_eq_or_of_lt minutesFit]
    simp only [Nat.shiftLeft_eq]
    omega
  rw [packed, upper, ← Nat.shiftLeft_add_eq_or_of_lt secondsFit, Nat.shiftLeft_eq]
  omega

end Time2

/-- The value that is read from packed fields with a sign. -/
def timeOfBits (bits usecs : ℕ) : TimeValue :=
  let z := if bits &&& 0x800000 = 0 then (2 ^ 32 - bits) % 2 ^ 32 else bits
  { isNegative := bits &&& 0x800000 = 0
    hours := (z >>> 12) &&& 0x3FF
    minutes := (z >>> 6) &&& 0x3F
    seconds := z &&& 0x3F
    usecs := usecs }

theorem decodes_time2_bits (ci : ColumnInfo) {bits part : ℕ} (fits : bits < 256 ^ 3)
    (partFits : part < 256 ^ fractionBytes precision) :
    Decodes mk (BinlogProcessor.readCellData (temporalColumn .tTime2 precision ci))
      (beBytes 3 bits ++ beBytes (fractionBytes precision) part)
      (.time (timeOfBits bits (part * fractionUnit precision))) := by
  have length : ¬(temporalColumn .tTime2 precision ci).typeMeta.length ≠ 1 := not_not.mpr rfl
  have known := ofCode_temporalColumn .tTime2 precision ci
  rw [BinlogProcessor.readCellData, known]
  dsimp only
  rw [BinlogProcessor.readTime2Data, if_neg length]
  apply (decodes_getBe fits).bind
  exact (decodes_fraction precision partFits).bind_pure

theorem sign_clear_iff {bits : ℕ} (fits : bits < 2 ^ 24) :
    bits &&& 0x800000 = 0 ↔ bits < 0x800000 := by
  have sign : bits &&& 0x800000 ≠ 0 ↔ bits / 2 ^ 23 % 2 = 1 := and_two_pow_ne_zero_iff bits 23
  rw [← not_iff_not, ← ne_eq, sign]
  omega

theorem field_eq (z shift width : ℕ) :
    (z >>> shift) &&& (2 ^ width - 1) = z / 2 ^ shift % 2 ^ width := by
  rw [Nat.and_two_pow_sub_one_eq_mod, Nat.shiftRight_eq_div_pow]

/-- The sign is the highest bit; the fields are those of the number below it or of its
complement. -/
theorem timeOfBits_eq {bits : ℕ} (fits : bits < 2 ^ 24) (usecs : ℕ) {z : ℕ}
    (magnitude : z = if bits < 0x800000 then 2 ^ 32 - bits else bits) (nonzero : 0 < bits) :
    timeOfBits bits usecs =
      { isNegative := bits < 0x800000
        hours := z / 4096 % 1024
        minutes := z / 64 % 64
        seconds := z % 64
        usecs := usecs } := by
  have reduced : (if bits < 0x800000 then (2 ^ 32 - bits) % 2 ^ 32 else bits) = z := by
    rw [magnitude]
    split <;> omega
  have hours : (z >>> 12) &&& 0x3FF = z / 4096 % 1024 := field_eq z 12 10
  have minutes : (z >>> 6) &&& 0x3F = z / 64 % 64 := field_eq z 6 6
  have seconds : z &&& 0x3F = z % 64 := Nat.and_two_pow_sub_one_eq_mod z 6
  simp only [timeOfBits, sign_clear_iff fits, reduced, hours, minutes, seconds]

section Fields

variable {hours minutes seconds : ℕ} (hours_lt : hours < 1024) (minutes_lt : minutes < 64)
  (seconds_lt : seconds < 64)

include hours_lt minutes_lt seconds_lt

theorem timeOfBits_add (usecs : ℕ) :
    timeOfBits (0x800000 + (hours * 4096 + minutes * 64 + seconds)) usecs =
      { isNegative := false, hours, minutes, seconds, usecs } := by
  rw [timeOfBits_eq (by omega) usecs (if_neg (by omega)).symm (by omega), TimeValue.mk.injEq]
  refine ⟨?_, ?_, ?_, ?_, rfl⟩
  · simp
  · omega
  · omega
  · omega

theorem timeOfBits_sub (usecs : ℕ) (nonzero : 0 < hours * 4096 + minutes * 64 + seconds) :
    timeOfBits (0x800000 - (hours * 4096 + minutes * 64 + seconds)) usecs =
      { isNegative := true, hours, minutes, seconds, usecs } := by
  rw [timeOfBits_eq (by omega) usecs (if_pos (by omega)).symm (by omega), TimeValue.mk.injEq]
  refine ⟨?_, ?_, ?_, ?_, rfl⟩
  · simp only [decide_eq_true_eq]
    omega
  · omega
  · omega
  · omega

end Fields

/-- A packed integer and a fraction make up one integer. -/
theorem beBytes_packed (width : ℕ) {bits part count : ℕ} (fits : part < 256 ^ count) :
    beBytes (width + count) (bits * 256 ^ count + part) =
      beBytes width bits ++ beBytes count part := by
  have positive : 0 < 256 ^ count := Nat.pow_pos (by decide)
  have high : (bits * 256 ^ count + part) / 256 ^ count = bits := by
    rw [Nat.mul_comm, Nat.mul_add_div positive, Nat.div_eq_of_lt fits, Nat.add_zero]
  have low : (bits * 256 ^ count + part) % 256 ^ count = part := by
    rw [Nat.mul_comm, Nat.mul_add_mod, Nat.mod_eq_of_lt fits]
  rw [beBytes_add, high, ← beBytes_mod count (bits * 256 ^ count + part), low]

namespace Time2

/-- What is read back: the complement of a fraction is not borrowed from the seconds. -/
def returned (time : Time2 precision) : TimeValue :=
  if time.value.isNegative = true ∧ time.value.usecs ≠ 0 then
    { time.value with
      seconds := time.value.seconds + 1
      usecs := (256 ^ fractionBytes precision - time.units) * fractionUnit precision }
  else time.value

theorem units_lt (time : Time2 precision) : time.units < 256 ^ fractionBytes precision :=
  time.fraction.div_unit_lt

theorem bytes_positive {time : Time2 precision} (positive : time.value.isNegative = false) :
    time.bytes = beBytes 3 (0x800000 + time.packed) ++
      beBytes (fractionBytes precision) time.units := by
  have one : 2 ^ (8 * fractionBytes precision) = 256 ^ fractionBytes precision :=
    pow_mul 2 8 (fractionBytes precision)
  rw [← beBytes_packed 3 time.units_lt, bytes, positive, one]
  simp only [Bool.false_eq_true, if_false]
  congr 1
  ring

theorem packed_lt (time : Time2 precision) : time.packed + 1 < 0x800000 := by
  have hours := time.hours_le
  have minutes := time.minutes_le
  have seconds := time.seconds_le
  rw [packed_eq]
  omega

theorem bytes_negative {time : Time2 precision} (negative : time.value.isNegative = true)
    (whole : time.value.usecs = 0) :
    time.bytes = beBytes 3 (0x800000 - time.packed) ++
      beBytes (fractionBytes precision) time.units := by
  have one : 2 ^ (8 * fractionBytes precision) = 256 ^ fractionBytes precision :=
    pow_mul 2 8 (fractionBytes precision)
  have none : time.units = 0 := by rw [units, whole, Nat.zero_div]
  rw [← beBytes_packed 3 time.units_lt, bytes, negative, one, none, Nat.sub_mul]
  rfl

theorem bytes_borrowing {time : Time2 precision} (negative : time.value.isNegative = true)
    (split : 0 < time.units) :
    time.bytes = beBytes 3 (0x800000 - (time.packed + 1)) ++
      beBytes (fractionBytes precision) (256 ^ fractionBytes precision - time.units) := by
  have one : 2 ^ (8 * fractionBytes precision) = 256 ^ fractionBytes precision :=
    pow_mul 2 8 (fractionBytes precision)
  have units_lt := time.units_lt
  rw [← beBytes_packed 3 (by omega), bytes, negative, one]
  simp only [if_true]
  have room : (time.packed + 1) * 256 ^ fractionBytes precision ≤
      0x800000 * 256 ^ fractionBytes precision := Nat.mul_le_mul_right _ time.packed_lt.le
  have step : (time.packed + 1) * 256 ^ fractionBytes precision =
      time.packed * 256 ^ fractionBytes precision + 256 ^ fractionBytes precision :=
    Nat.succ_mul _ _
  rw [step] at room
  rw [Nat.sub_mul, step]
  congr 1
  omega

theorem decodes_returned (time : Time2 precision) (ci : ColumnInfo) :
    Decodes StringReader.mk (BinlogProcessor.readCellData (temporalColumn .tTime2 precision ci))
      time.bytes (.time time.returned) := by
  have hours := time.hours_le
  have minutes := time.minutes_le
  have seconds := time.seconds_le
  have packed_lt := time.packed_lt
  have usecs := time.fraction.mul_unit
  rw [← units] at usecs
  cases sign : time.value.isNegative with
  | false =>
      have decodes := decodes_time2_bits ci (show 0x800000 + time.packed < 256 ^ 3 by omega)
        time.units_lt
      rw [← bytes_positive sign, packed_eq, timeOfBits_add (by omega) (by omega) (by omega), usecs,
        ← sign] at decodes
      rwa [returned, if_neg (by simp [sign])]
  | true =>
      by_cases whole : time.value.usecs = 0
      · have nonzero : 0 < time.packed := by
          by_contra zero
          rw [packed_eq] at zero
          have positive := time.positive (by omega) (by omega) (by omega) whole
          rw [sign] at positive
          simp at positive
        have decodes := decodes_time2_bits ci (show 0x800000 - time.packed < 256 ^ 3 by omega)
          time.units_lt
        rw [packed_eq] at nonzero
        rw [← bytes_negative sign whole, packed_eq,
          timeOfBits_sub (by omega) (by omega) (by omega) _ nonzero, usecs, ← sign] at decodes
        rwa [returned, if_neg (by simp [whole])]
      · have split : 0 < time.units := by
          by_contra zero
          rw [Nat.eq_zero_of_not_pos zero, Nat.zero_mul] at usecs
          exact whole usecs.symm
        have units_lt := time.units_lt
        have complement : 256 ^ fractionBytes precision - time.units <
            256 ^ fractionBytes precision := by omega
        have decodes := decodes_time2_bits ci
          (show 0x800000 - (time.packed + 1) < 256 ^ 3 by omega) complement
        rw [← bytes_borrowing sign split, packed_eq, Nat.add_assoc,
          timeOfBits_sub (by omega) (by omega) (by omega) _ (by omega), ← sign] at decodes
        rwa [returned, if_pos ⟨sign, whole⟩]

end Time2

/-- A `T_TIME2` cell is read as it was stored exactly if it is not negative or has no fraction. -/
theorem decodes_time2_iff (precision : Fin 7) (time : Time2 precision) (ci : ColumnInfo) :
    Decodes StringReader.mk (BinlogProcessor.readCellData (temporalColumn .tTime2 precision ci))
        time.bytes (.time time.value) ↔
      time.value.isNegative = false ∨ time.value.usecs = 0 := by
  have returned := time.decodes_returned ci
  constructor
  · intro decodes
    by_contra both
    rw [not_or, Bool.not_eq_false] at both
    have same := Decodes.unique decodes returned
    rw [Time2.returned, if_pos both, Value.time.injEq] at same
    have seconds := congrArg TimeValue.seconds same
    simp at seconds
  · intro either
    have unsplit : ¬(time.value.isNegative = true ∧ time.value.usecs ≠ 0) := by
      rintro ⟨negative, split⟩
      rcases either with positive | whole
      · simp [negative] at positive
      · exact split whole
    rwa [Time2.returned, if_neg unsplit] at returned

theorem fraction_halfSecond : Fraction 1 500000 where
  lt := by decide
  multiple := by decide

/-- `-00:00:00.5` -/
def halfSecondBefore : Time2 1 where
  value := { isNegative := true, hours := 0, minutes := 0, seconds := 0, usecs := 500000 }
  hours_le := Nat.zero_le _
  minutes_le := Nat.zero_le _
  seconds_le := Nat.zero_le _
  fraction := fraction_halfSecond
  positive _ _ _ whole := nomatch whole

/-- `-00:00:01.56` is returned. -/
theorem not_decodes_halfSecondBefore : ¬Decodes StringReader.mk
    (BinlogProcessor.readCellData
      (temporalColumn .tTime2 1 { type := 0x13, typeMeta := [1], nullable := false }))
    halfSecondBefore.bytes (.time halfSecondBefore.value) := by
  intro decodes
  have same := Decodes.unique decodes (halfSecondBefore.decodes_returned _)
  have seconds : halfSecondBefore.returned.seconds = 1 := by decide
  injection same with value
  rw [← value] at seconds
  simp [halfSecondBefore] at seconds

end Time2

section Datetime2

/-- A value that a `T_DATETIME2` column can hold. -/
structure Datetime2 (precision : Fin 7) where
  value : DateTimeValue
  years_le : value.years ≤ 9999
  months_le : value.months ≤ 12
  days_le : value.days ≤ 31
  hours_le : value.hours ≤ 23
  minutes_le : value.minutes ≤ 59
  seconds_le : value.seconds ≤ 59
  fraction : Fraction precision value.usecs

variable {precision : Fin 7}

namespace Datetime2

/-- The packed fields; the highest bit is always set. -/
def packed (dateTime : Datetime2 precision) : ℕ :=
  2 ^ 39 + ((dateTime.value.years * 13 + dateTime.value.months) <<< 22) +
    (dateTime.value.days <<< 17) + (dateTime.value.hours <<< 12) +
    (dateTime.value.minutes <<< 6) + dateTime.value.seconds

/-- The bytes in which the value is stored. -/
def bytes (dateTime : Datetime2 precision) : Bytes :=
  beBytes 5 dateTime.packed ++
    beBytes (fractionBytes precision) (dateTime.value.usecs / fractionUnit precision)

end Datetime2

/-- The value that is read from packed fields. -/
def dateTimeOfBits (z usecs : ℕ) : DateTimeValue where
  years := sizeSub (z >>> 22) 131073 / 13 % 2 ^ 16
  months := ((z >>> 22) + 7) % 13
  days := (z >>> 17) &&& 0x1F
  hours := (z >>> 12) &&& 0x1F
  minutes := (z >>> 6) &&& 0x3F
  seconds := z &&& 0x3F
  usecs := usecs

theorem decodes_datetime2_bits (ci : ColumnInfo) {z part : ℕ} (fits : z < 256 ^ 5)
    (partFits : part < 256 ^ fractionBytes precision) :
    Decodes mk (BinlogProcessor.readCellData (temporalColumn .tDatetime2 precision ci))
      (beBytes 5 z ++ beBytes (fractionBytes precision) part)
      (.dateTime (dateTimeOfBits z (part * fractionUnit precision))) := by
  have length : ¬(temporalColumn .tDatetime2 precision ci).typeMeta.length ≠ 1 := not_not.mpr rfl
  have known := ofCode_temporalColumn .tDatetime2 precision ci
  have low : (UInt8.ofNat z).toNat = z % 256 := UInt8.toNat_ofNat'
  have whole : z / 256 ^ 1 * 256 + (UInt8.ofNat z).toNat = z := by
    rw [low]
    omega
  rw [BinlogProcessor.readCellData, known]
  dsimp only
  rw [BinlogProcessor.readDatetime2Data, if_neg length, beBytes_add 4 1, List.append_assoc]
  apply (decodes_getBe (show z / 256 ^ 1 < 256 ^ 4 by omega)).bind
  apply (decodes_getU8 (UInt8.ofNat z)).bind
  rw [whole]
  exact (decodes_fraction precision partFits).bind_pure

namespace Datetime2

/-- What is read back: the year is computed from the month before the one that is stored. -/
def returned (dateTime : Datetime2 precision) : DateTimeValue :=
  { dateTime.value with
    years := sizeSub (131072 + (dateTime.value.years * 13 + dateTime.value.months)) 131073 / 13 %
      2 ^ 16 }

theorem packed_eq (dateTime : Datetime2 precision) :
    dateTime.packed = 2 ^ 39 + (dateTime.value.years * 13 + dateTime.value.months) * 4194304 +
      dateTime.value.days * 131072 + dateTime.value.hours * 4096 + dateTime.value.minutes * 64 +
      dateTime.value.seconds := by
  simp only [packed, Nat.shiftLeft_eq]

theorem packed_lt (dateTime : Datetime2 precision) : dateTime.packed < 256 ^ 5 := by
  have years := dateTime.years_le
  have months := dateTime.months_le
  have days := dateTime.days_le
  have hours := dateTime.hours_le
  have minutes := dateTime.minutes_le
  have seconds := dateTime.seconds_le
  rw [packed_eq]
  omega

theorem dateTimeOfBits_packed (dateTime : Datetime2 precision) :
    dateTimeOfBits dateTime.packed dateTime.value.usecs = dateTime.returned := by
  have months_le := dateTime.months_le
  have days_le := dateTime.days_le
  have hours_le := dateTime.hours_le
  have minutes_le := dateTime.minutes_le
  have seconds_le := dateTime.seconds_le
  have upper : dateTime.packed >>> 22 =
      131072 + (dateTime.value.years * 13 + dateTime.value.months) := by
    rw [Nat.shiftRight_eq_div_pow, packed_eq]
    omega
  have months : (131072 + (dateTime.value.years * 13 + dateTime.value.months) + 7) % 13 =
      dateTime.value.months := by omega
  have days : (dateTime.packed >>> 17) &&& 0x1F = dateTime.value.days := by
    refine (field_eq dateTime.packed 17 5).trans ?_
    rw [packed_eq]
    omega
  have hours : (dateTime.packed >>> 12) &&& 0x1F = dateTime.value.hours := by
    refine (field_eq dateTime.packed 12 5).trans ?_
    rw [packed_eq]
    omega
  have minutes : (dateTime.packed >>> 6) &&& 0x3F = dateTime.value.minutes := by
    refine (field_eq dateTime.packed 6 6).trans ?_
    rw [packed_eq]
    omega
  have seconds : dateTime.packed &&& 0x3F = dateTime.value.seconds := by
    refine (Nat.and_two_pow_sub_one_eq_mod dateTime.packed 6).trans ?_
    rw [packed_eq]
    omega
  rw [dateTimeOfBits, upper, months, days, hours, minutes, seconds, returned]

theorem decodes_returned (dateTime : Datetime2 precision) (ci : ColumnInfo) :
    Decodes StringReader.mk
      (BinlogProcessor.readCellData (temporalColumn .tDatetime2 precision ci)) dateTime.bytes
      (.dateTime dateTime.returned) := by
  have decodes := decodes_datetime2_bits ci dateTime.packed_lt dateTime.fraction.div_unit_lt
  rwa [dateTime.fraction.mul_unit, dateTimeOfBits_packed] at decodes

/-- The subtraction wraps around for the month zero of the year zero. -/
theorem sizeSub_months {count : ℕ} (small : count < 2 ^ 63) :
    sizeSub (131072 + count) 131073 = if count = 0 then 2 ^ 64 - 1 else count - 1 := by
  have fits : 131073 % 2 ^ 64 = 131073 := Nat.mod_eq_of_lt (by decide)
  rw [sizeSub, fits]
  split <;> omega

/-- The year is right unless the month is zero. -/
theorem returned_eq_iff (dateTime : Datetime2 precision) :
    dateTime.returned = dateTime.value ↔ 1 ≤ dateTime.value.months := by
  have years_le := dateTime.years_le
  have months_le := dateTime.months_le
  have onlyYears : dateTime.returned = dateTime.value ↔
      sizeSub (131072 + (dateTime.value.years * 13 + dateTime.value.months)) 131073 / 13 % 2 ^ 16 =
        dateTime.value.years := by
    constructor
    · intro same
      exact congrArg DateTimeValue.years same
    · intro years
      rw [returned, years]
  rw [onlyYears, sizeSub_months (by omega)]
  split <;> omega

end Datetime2

/-- A `T_DATETIME2` cell is read as it was stored exactly if its month is not zero. -/
theorem decodes_datetime2_iff (precision : Fin 7) (dateTime : Datetime2 precision)
    (ci : ColumnInfo) :
    Decodes StringReader.mk
        (BinlogProcessor.readCellData (temporalColumn .tDatetime2 precision ci)) dateTime.bytes
        (.dateTime dateTime.value) ↔
      1 ≤ dateTime.value.months := by
  have returned := dateTime.decodes_returned ci
  rw [← dateTime.returned_eq_iff]
  constructor
  · intro decodes
    have same := Decodes.unique returned decodes
    injection same
  · intro same
    rwa [same] at returned

theorem fraction_zero (precision : Fin 7) : Fraction precision 0 where
  lt := Nat.pow_pos (Nat.succ_pos 9)
  multiple := dvd_zero _

/-- `0000-00-00 00:00:00` -/
def zeroDate : Datetime2 0 where
  value := {
    years := 0, months := 0, days := 0, hours := 0, minutes := 0, seconds := 0, usecs := 0 }
  years_le := Nat.zero_le _
  months_le := Nat.zero_le _
  days_le := Nat.zero_le _
  hours_le := Nat.zero_le _
  minutes_le := Nat.zero_le _
  seconds_le := Nat.zero_le _
  fraction := fraction_zero 0

/-- The year 5041 is returned. -/
theorem not_decodes_zeroDate : ¬Decodes StringReader.mk
    (BinlogProcessor.readCellData
      (temporalColumn .tDatetime2 0 { type := 0x12, typeMeta := [0], nullable := false }))
    zeroDate.bytes (.dateTime zeroDate.value) := by
  intro decodes
  have same := Decodes.unique (zeroDate.decodes_returned _) decodes
  have years : zeroDate.returned.years = 5041 := by decide
  injection same with value
  rw [value] at years
  simp [zeroDate] at years

end Datetime2

section Timestamps

/-- The bytes of a `T_TIMESTAMP2` cell without a fraction. -/
def timestamp2Bytes (seconds : UInt32) (precision : Fin 7) : Bytes :=
  beBytes 4 seconds.toNat ++ List.replicate (fractionBytes precision) 0

theorem decodes_timestamp (seconds : UInt32) (ci : ColumnInfo) :
    Decodes mk (BinlogProcessor.readCellData { ci with type := ColumnType.tTimestamp.code })
      (leBytes 4 seconds.toNat) (.uint64 (seconds.toNat * 1000000)) := by
  have known : ColumnType.ofCode { ci with type := ColumnType.tTimestamp.code }.type =
      some .tTimestamp := ColumnType.ofCode_code .tTimestamp
  rw [BinlogProcessor.readCellData, known]
  exact (decodes_getLe seconds.toNat_lt).bind_pure

/-- The bytes of the seconds are reversed, and they are not converted to microseconds. -/
theorem decodes_timestamp2 (seconds : UInt32) (precision : Fin 7) (ci : ColumnInfo) :
    Decodes mk (BinlogProcessor.readCellData (temporalColumn .tTimestamp2 precision ci))
      (timestamp2Bytes seconds precision) (.uint64 (byteSwap 4 seconds.toNat)) := by
  have length : ¬(temporalColumn .tTimestamp2 precision ci).typeMeta.length ≠ 1 :=
    not_not.mpr rfl
  have known := ofCode_temporalColumn .tTimestamp2 precision ci
  rw [BinlogProcessor.readCellData, known]
  dsimp only
  rw [BinlogProcessor.readTimestamp2Data, timestamp2Bytes, ← leBytes_byteSwap]
  apply (decodes_getLe (byteSwap_lt 4 _)).bind
  rw [if_neg length]
  have metadata : (temporalColumn .tTimestamp2 precision ci).typeMeta.getD 0 0 =
      UInt8.ofNat precision.val := rfl
  have skipped : intToSize ((charToInt (UInt8.ofNat precision.val) + 1).tdiv 2) =
      fractionBytes precision := by
    fin_cases precision <;> decide
  have fraction : Decodes mk (read (fractionBytes precision))
      (List.replicate (fractionBytes precision) 0) (List.replicate (fractionBytes precision) 0) :=
    decodes_read List.length_replicate
  by_cases none : precision = 0
  · subst none
    exact Decodes.pure _
  · have nonzero : ∀ precision : Fin 7, precision ≠ 0 → UInt8.ofNat precision.val ≠ 0 := by decide
    rw [metadata, if_pos (nonzero precision none), skipped]
    exact fraction.bind_pure

/-- The two column types agree on an instant. -/
def TimestampsAgree (seconds : UInt32) (precision : Fin 7) (ci : ColumnInfo) : Prop :=
  ∃ value,
    Decodes mk (BinlogProcessor.readCellData { ci with type := ColumnType.tTimestamp.code })
      (leBytes 4 seconds.toNat) value ∧
    Decodes mk (BinlogProcessor.readCellData (temporalColumn .tTimestamp2 precision ci))
      (timestamp2Bytes seconds precision) value

/-- A number of two bytes, the high one below 17, whose bytes in reverse make a million times the
number, is zero. -/
theorem eq_zero_of_swapped {low high : ℕ} (high_lt : high < 17)
    (same : 256 * (256 * (high + 256 * low)) = (256 * high + low) * 1000000) :
    high = 0 ∧ low = 0 := by
  have divides : 82173 ∣ 1332992 * high := ⟨low, by linarith⟩
  have coprime : Nat.Coprime 82173 1332992 := by norm_num
  have high_eq : high = 0 :=
    Nat.eq_zero_of_dvd_of_lt (coprime.dvd_of_dvd_mul_left divides) (high_lt.trans (by norm_num))
  refine ⟨high_eq, ?_⟩
  rw [high_eq] at same
  omega

theorem byteSwap_eq_mul_iff (seconds : UInt32) :
    byteSwap 4 seconds.toNat = seconds.toNat * 1000000 ↔ seconds = 0 := by
  have lt := seconds.toNat_lt
  rw [← UInt32.toNat_inj]
  simp only [byteSwap, leBytes, beNat, List.reverse_cons, List.reverse_nil, List.nil_append,
    List.cons_append, leNat, UInt8.toNat_ofNat', UInt32.toNat_zero]
  generalize seconds.toNat = count at lt
  constructor
  · intro same
    have few : count < 256 * 17 := by omega
    have high_lt : count / 256 < 17 := Nat.div_lt_of_lt_mul few
    have third : count / 256 / 256 = 0 := Nat.div_eq_of_lt (high_lt.trans (by norm_num))
    have second : count / 256 % 256 = count / 256 := Nat.mod_eq_of_lt (high_lt.trans (by norm_num))
    simp only [third, second, Nat.zero_div, Nat.zero_mod, Nat.zero_add, Nat.mul_zero] at same
    have split : count * 1000000 = (256 * (count / 256) + count % 256) * 1000000 := by
      rw [Nat.div_add_mod]
    rcases eq_zero_of_swapped high_lt (same.trans split) with ⟨high, low⟩
    clear same split
    omega
  · omega

/-- The two column types agree only on the start of the epoch. -/
theorem timestampsAgree_iff (seconds : UInt32) (precision : Fin 7) (ci : ColumnInfo) :
    TimestampsAgree seconds precision ci ↔ seconds = 0 := by
  rw [← byteSwap_eq_mul_iff]
  constructor
  · rintro ⟨value, decodes, decodes2⟩
    have same := Decodes.unique decodes (decodes_timestamp seconds ci)
    have same2 := Decodes.unique decodes2 (decodes_timestamp2 seconds precision ci)
    rw [same] at same2
    injection same2 with eq
    exact eq.symm
  · intro eq
    refine ⟨_, decodes_timestamp seconds ci, ?_⟩
    rw [← eq]
    exact decodes_timestamp2 seconds precision ci

/-- One second after the start of the epoch. -/
theorem not_timestampsAgree_one :
    ¬TimestampsAgree 1 0 { type := 0x11, typeMeta := [0], nullable := false } := by
  rintro ⟨value, decodes, decodes2⟩
  have same := Decodes.unique decodes (decodes_timestamp 1 _)
  have same2 := Decodes.unique decodes2 (decodes_timestamp2 1 0 _)
  rw [same] at same2
  injection same2 with eq
  have one := (byteSwap_eq_mul_iff 1).mp eq.symm
  simp at one

end Timestamps

end EventAsync.MySQL
