import EventAsync.MySQL.DecimalNumbers
import Mathlib.Data.List.TakeWhile

/-!
# Texts of dates and times

`str` writes every field with at least the usual number of digits, and the
constructors read as many digits as there are.  The number of digits behind the
point is taken from the length of the whole text for a date and from the place
of the point for a time; either way it is right for the texts that the server
sends, and at least six for those that `str` writes.
-/

namespace EventAsync.MySQL

open ByteCodec

def DateTimeValue.str (value : DateTimeValue) : Bytes :=
  zeroPadded 4 value.years ++ 0x2D :: (zeroPadded 2 value.months ++ 0x2D ::
    (zeroPadded 2 value.days ++ 0x20 :: (zeroPadded 2 value.hours ++ 0x3A ::
      (zeroPadded 2 value.minutes ++ 0x3A :: (zeroPadded 2 value.seconds ++ 0x2E ::
        zeroPadded 6 value.usecs)))))

def TimeValue.str (value : TimeValue) : Bytes :=
  (if value.isNegative then [0x2D] else []) ++ (zeroPadded 2 value.hours ++ 0x3A ::
    (zeroPadded 2 value.minutes ++ 0x3A :: (zeroPadded 2 value.seconds ++ 0x2E ::
      zeroPadded 6 value.usecs)))

/-- The fields have the widths of their types. -/
structure DateTimeValue.Fits (value : DateTimeValue) : Prop where
  years : value.years < 2 ^ 16
  months : value.months < 2 ^ 8
  days : value.days < 2 ^ 8
  hours : value.hours < 2 ^ 8
  minutes : value.minutes < 2 ^ 8
  seconds : value.seconds < 2 ^ 8
  usecs : value.usecs < 2 ^ 32

/-- The fields have the widths of their types. -/
structure TimeValue.Fits (value : TimeValue) : Prop where
  hours : value.hours < 2 ^ 32
  minutes : value.minutes < 2 ^ 8
  seconds : value.seconds < 2 ^ 8
  usecs : value.usecs < 2 ^ 32

/-- A given number of digits. -/
structure Digits (width : ℕ) where
  bytes : Bytes
  length_eq : bytes.length = width
  isDigit : ∀ digit ∈ bytes, isDigit digit = true

/-- The fraction of a second in a text; without digits there is no point either. -/
def fractionText (fraction : Bytes) : Bytes :=
  if fraction = [] then [] else 0x2E :: fraction

/-- A text `YYYY-MM-DD HH:MM:SS` with up to six digits of a fraction. -/
structure DateTimeText where
  years : Digits 4
  months : Digits 2
  days : Digits 2
  hours : Digits 2
  minutes : Digits 2
  seconds : Digits 2
  precision : Fin 7
  fraction : Digits precision.val

/-- A text `H..H:MM:SS` with or without a minus sign and with up to six digits of a fraction. -/
structure TimeText where
  isNegative : Bool
  moreHours : ℕ
  hours : Digits (moreHours + 1)
  minutes : Digits 2
  seconds : Digits 2
  precision : Fin 7
  fraction : Digits precision.val

namespace DateTimeText

def bytes (text : DateTimeText) : Bytes :=
  text.years.bytes ++ 0x2D :: (text.months.bytes ++ 0x2D :: (text.days.bytes ++ 0x20 ::
    (text.hours.bytes ++ 0x3A :: (text.minutes.bytes ++ 0x3A :: (text.seconds.bytes ++
      fractionText text.fraction.bytes)))))

/-- The fields as they are written. -/
def value (text : DateTimeText) : DateTimeValue where
  years := digitsValue text.years.bytes
  months := digitsValue text.months.bytes
  days := digitsValue text.days.bytes
  hours := digitsValue text.hours.bytes
  minutes := digitsValue text.minutes.bytes
  seconds := digitsValue text.seconds.bytes
  usecs := digitsValue text.fraction.bytes * 10 ^ (6 - text.precision.val)

end DateTimeText

namespace TimeText

def bytes (text : TimeText) : Bytes :=
  (if text.isNegative then [0x2D] else []) ++ (text.hours.bytes ++ 0x3A ::
    (text.minutes.bytes ++ 0x3A :: (text.seconds.bytes ++ fractionText text.fraction.bytes)))

/-- The fields as they are written. -/
def value (text : TimeText) : TimeValue where
  isNegative := text.isNegative
  hours := digitsValue text.hours.bytes
  minutes := digitsValue text.minutes.bytes
  seconds := digitsValue text.seconds.bytes
  usecs := digitsValue text.fraction.bytes * 10 ^ (6 - text.precision.val)

end TimeText

namespace Digits

variable {width : ℕ}

theorem isNumeral (digits : Digits (width + 1)) : IsNumeral digits.bytes where
  nonempty := by
    have length := digits.length_eq
    rintro empty
    simp [empty] at length
  isDigit := digits.isDigit

theorem value_lt (digits : Digits width) : digitsValue digits.bytes < 10 ^ width := by
  have bound := digitsValue_lt digits.isDigit
  rwa [digits.length_eq] at bound

/-- A fraction of a second is less than a million microseconds. -/
theorem usecs_lt {precision : Fin 7} (fraction : Digits precision.val) :
    digitsValue fraction.bytes * 10 ^ (6 - precision.val) < 10 ^ 6 := by
  have whole : 10 ^ precision.val * 10 ^ (6 - precision.val) = 10 ^ 6 := by
    rw [← pow_add]
    congr 1
    omega
  rw [← whole]
  exact Nat.mul_lt_mul_of_pos_right fraction.value_lt (Nat.pow_pos (Nat.succ_pos 9))

theorem value_lt_of_fraction {precision : Fin 7} (fraction : Digits precision.val) :
    digitsValue fraction.bytes < 2 ^ 32 := by
  have narrow : 10 ^ precision.val ≤ 10 ^ 6 := Nat.pow_le_pow_right (Nat.succ_pos 9) (by omega)
  exact (fraction.value_lt.trans_le narrow).trans (by decide)

end Digits

theorem noDigitHead_nil : NoDigitHead [] := nofun

theorem noDigitHead_cons {first : UInt8} (none : isDigit first = false) (later : Bytes) :
    NoDigitHead (first :: later) := by
  rintro _ _ ⟨⟩
  exact none

section Scanning

variable {digits rest fraction : Bytes} {format : List ScanDirective}

/-- A number that is the whole text. -/
theorem sscanf_whole {bits : ℕ} (narrow : bits ≤ 64) (numeral : IsNumeral digits)
    (fits : digitsValue digits < 2 ^ bits) :
    sscanf [.unsigned bits] digits = [digitsValue digits] := by
  have read := @sscanf_unsigned digits [] [] bits numeral noDigitHead_nil
  rw [List.append_nil, unsignedValue_of_lt narrow fits] at read
  exact read

/-- A number and the separator behind it. -/
theorem sscanf_field {bits : ℕ} {separator : UInt8} (narrow : bits ≤ 64)
    (numeral : IsNumeral digits) (fits : digitsValue digits < 2 ^ bits)
    (none : isDigit separator = false) :
    sscanf (.unsigned bits :: .literal separator :: format) (digits ++ separator :: rest) =
      digitsValue digits :: sscanf format rest := by
  rw [sscanf_unsigned bits numeral (noDigitHead_cons none rest), sscanf_literal,
    unsignedValue_of_lt narrow fits]

theorem sscanf_space (numeral : IsNumeral digits) :
    sscanf (.space :: format) (0x20 :: (digits ++ rest)) = sscanf format (digits ++ rest) := by
  rcases digits with _ | ⟨digit, digits⟩
  · exact absurd rfl numeral.nonempty
  · have visible := isSpace_of_isDigit (numeral.isDigit digit List.mem_cons_self)
    rw [sscanf, List.dropWhile_cons_of_pos (by decide), List.cons_append,
      List.dropWhile_cons_of_neg (by simp [visible])]

theorem noDigitHead_fractionText (fraction : Bytes) : NoDigitHead (fractionText fraction) := by
  rw [fractionText]
  split
  · exact noDigitHead_nil
  · exact noDigitHead_cons (by decide) fraction

/-- The last two numbers, of which the second may be missing. -/
theorem sscanf_seconds (numeral : IsNumeral digits) (fits : digitsValue digits < 2 ^ 8)
    (decimal : ∀ digit ∈ fraction, isDigit digit = true)
    (fractionFits : digitsValue fraction < 2 ^ 32) :
    sscanf [.unsigned 8, .literal 0x2E, .unsigned 32] (digits ++ fractionText fraction) =
      if fraction = [] then [digitsValue digits]
      else [digitsValue digits, digitsValue fraction] := by
  rw [sscanf_unsigned 8 numeral (noDigitHead_fractionText fraction),
    unsignedValue_of_lt (by decide) fits, fractionText]
  split
  · rfl
  · rename_i nonempty
    rw [sscanf_literal, sscanf_whole (by decide) ⟨nonempty, decimal⟩ fractionFits]

theorem cStr_eq {str : Bytes} (free : ∀ byte ∈ str, byte ≠ 0) : cStr str = str := by
  rw [cStr, List.takeWhile_eq_self_iff]
  simpa using free

theorem ne_zero_of_isDigit {digit : UInt8} (decimal : isDigit digit = true) : digit ≠ 0 :=
  isDigit_ne decimal (by decide)

theorem IsNumeral.ne_zero (numeral : IsNumeral digits) : ∀ byte ∈ digits, byte ≠ 0 :=
  fun byte mem => ne_zero_of_isDigit (numeral.isDigit byte mem)

theorem fractionText_ne_zero (decimal : ∀ digit ∈ fraction, isDigit digit = true) :
    ∀ byte ∈ fractionText fraction, byte ≠ 0 := by
  rw [fractionText]
  split
  · simp
  · rw [List.forall_mem_cons]
    exact ⟨by decide, fun byte mem => ne_zero_of_isDigit (decimal byte mem)⟩

end Scanning

section DateTime

variable {years months days hours minutes seconds fraction : Bytes}

/-- A date with numbers of any lengths that fit their fields. -/
theorem DateTimeValue.ofString_text (yearsNumeral : IsNumeral years)
    (monthsNumeral : IsNumeral months) (daysNumeral : IsNumeral days)
    (hoursNumeral : IsNumeral hours) (minutesNumeral : IsNumeral minutes)
    (secondsNumeral : IsNumeral seconds)
    (fractionDecimal : ∀ digit ∈ fraction, isDigit digit = true) {value : DateTimeValue}
    (fits : value.Fits)
    (written : value =
      { years := digitsValue years
        months := digitsValue months
        days := digitsValue days
        hours := digitsValue hours
        minutes := digitsValue minutes
        seconds := digitsValue seconds
        usecs := digitsValue fraction }) {str : Bytes}
    (text : str = years ++ 0x2D :: (months ++ 0x2D :: (days ++ 0x20 :: (hours ++ 0x3A ::
      (minutes ++ 0x3A :: (seconds ++ fractionText fraction)))))) :
    DateTimeValue.ofString str =
      { value with usecs := value.usecs * 10 ^ (26 - str.length) % 2 ^ 32 } := by
  have free : ∀ byte ∈ str, byte ≠ 0 := by
    rw [text]
    simp only [List.forall_mem_append, List.forall_mem_cons]
    exact ⟨yearsNumeral.ne_zero, by decide, monthsNumeral.ne_zero, by decide, daysNumeral.ne_zero,
      by decide, hoursNumeral.ne_zero, by decide, minutesNumeral.ne_zero, by decide,
      secondsNumeral.ne_zero, fractionText_ne_zero fractionDecimal⟩
  subst written
  have scanned : sscanf
      [.unsigned 16, .literal 0x2D, .unsigned 8, .literal 0x2D, .unsigned 8, .space, .unsigned 8,
        .literal 0x3A, .unsigned 8, .literal 0x3A, .unsigned 8, .literal 0x2E, .unsigned 32] str =
      [digitsValue years, digitsValue months, digitsValue days, digitsValue hours,
        digitsValue minutes] ++ if fraction = [] then [digitsValue seconds]
          else [digitsValue seconds, digitsValue fraction] := by
    rw [text, sscanf_field (by decide) yearsNumeral fits.years (by decide),
      sscanf_field (by decide) monthsNumeral fits.months (by decide),
      sscanf_unsigned 8 daysNumeral (noDigitHead_cons (by decide) _),
      unsignedValue_of_lt (by decide) fits.days, sscanf_space hoursNumeral,
      sscanf_field (by decide) hoursNumeral fits.hours (by decide),
      sscanf_field (by decide) minutesNumeral fits.minutes (by decide),
      sscanf_seconds secondsNumeral fits.seconds fractionDecimal fits.usecs]
    rfl
  rw [DateTimeValue.ofString, cStr_eq free, scanned]
  by_cases none : fraction = []
  · subst none
    rfl
  · rw [if_neg none]
    rfl

/-- What `str` writes is read back. -/
theorem DateTimeValue.ofString_str {value : DateTimeValue} (fits : value.Fits) :
    DateTimeValue.ofString value.str = value := by
  have fraction := isNumeral_zeroPadded 6 value.usecs
  have text : value.str = zeroPadded 4 value.years ++ 0x2D :: (zeroPadded 2 value.months ++ 0x2D ::
      (zeroPadded 2 value.days ++ 0x20 :: (zeroPadded 2 value.hours ++ 0x3A ::
        (zeroPadded 2 value.minutes ++ 0x3A :: (zeroPadded 2 value.seconds ++
          fractionText (zeroPadded 6 value.usecs)))))) := by
    rw [fractionText, if_neg fraction.nonempty]
    rfl
  have written : value =
      { years := digitsValue (zeroPadded 4 value.years)
        months := digitsValue (zeroPadded 2 value.months)
        days := digitsValue (zeroPadded 2 value.days)
        hours := digitsValue (zeroPadded 2 value.hours)
        minutes := digitsValue (zeroPadded 2 value.minutes)
        seconds := digitsValue (zeroPadded 2 value.seconds)
        usecs := digitsValue (zeroPadded 6 value.usecs) } := by
    simp only [digitsValue_zeroPadded]
  have long : 26 ≤ value.str.length := by
    have years := length_zeroPadded_ge 4 value.years
    have months := length_zeroPadded_ge 2 value.months
    have days := length_zeroPadded_ge 2 value.days
    have hours := length_zeroPadded_ge 2 value.hours
    have minutes := length_zeroPadded_ge 2 value.minutes
    have seconds := length_zeroPadded_ge 2 value.seconds
    have usecs := length_zeroPadded_ge 6 value.usecs
    simp only [DateTimeValue.str, List.length_append, List.length_cons]
    omega
  have read := ofString_text (isNumeral_zeroPadded _ _) (isNumeral_zeroPadded _ _)
    (isNumeral_zeroPadded _ _) (isNumeral_zeroPadded _ _) (isNumeral_zeroPadded _ _)
    (isNumeral_zeroPadded _ _) fraction.isDigit fits written text
  rw [read, Nat.sub_eq_zero_of_le long, pow_zero, Nat.mul_one, Nat.mod_eq_of_lt fits.usecs]

/-- The number of the digits behind the point is the length of the text beyond twenty characters. -/
theorem DateTimeText.ofString_bytes (text : DateTimeText) :
    DateTimeValue.ofString text.bytes = text.value := by
  have two : ∀ digits : Digits 2, digitsValue digits.bytes < 2 ^ 8 :=
    fun digits => digits.value_lt.trans (by decide)
  have fits : DateTimeValue.Fits { text.value with usecs := digitsValue text.fraction.bytes } :=
    { years := text.years.value_lt.trans (by decide)
      months := two text.months
      days := two text.days
      hours := two text.hours
      minutes := two text.minutes
      seconds := two text.seconds
      usecs := text.fraction.value_lt_of_fraction }
  have read : DateTimeValue.ofString text.bytes =
      { text.value with
        usecs := digitsValue text.fraction.bytes * 10 ^ (26 - text.bytes.length) % 2 ^ 32 } :=
    DateTimeValue.ofString_text text.years.isNumeral text.months.isNumeral text.days.isNumeral
      text.hours.isNumeral text.minutes.isNumeral text.seconds.isNumeral text.fraction.isDigit fits
      rfl rfl
  have length : text.bytes.length = 19 + (fractionText text.fraction.bytes).length := by
    simp only [bytes, List.length_append, List.length_cons, text.years.length_eq,
      text.months.length_eq, text.days.length_eq, text.hours.length_eq, text.minutes.length_eq,
      text.seconds.length_eq]
    omega
  have usecs : digitsValue text.fraction.bytes * 10 ^ (26 - text.bytes.length) % 2 ^ 32 =
      digitsValue text.fraction.bytes * 10 ^ (6 - text.precision.val) := by
    by_cases none : text.fraction.bytes = []
    · rw [none]
      simp [digitsValue]
    · have digits : 26 - text.bytes.length = 6 - text.precision.val := by
        rw [length, fractionText, if_neg none, List.length_cons, text.fraction.length_eq]
        omega
      rw [digits, Nat.mod_eq_of_lt (text.fraction.usecs_lt.trans (by decide))]
  rw [read, usecs]
  rfl

end DateTime

section Time

variable {hours minutes seconds fraction : Bytes}

/-- What the constructor finds in a text behind the sign. -/
theorem sscanf_time (hoursNumeral : IsNumeral hours) (minutesNumeral : IsNumeral minutes)
    (secondsNumeral : IsNumeral seconds)
    (fractionDecimal : ∀ digit ∈ fraction, isDigit digit = true)
    (minutesFit : digitsValue minutes < 2 ^ 8) (secondsFit : digitsValue seconds < 2 ^ 8)
    (fractionFits : digitsValue fraction < 2 ^ 32) :
    sscanf [.unsigned 32, .literal 0x3A, .unsigned 8, .literal 0x3A, .unsigned 8, .literal 0x2E,
        .unsigned 32]
      (cStr (hours ++ 0x3A :: (minutes ++ 0x3A :: (seconds ++ fractionText fraction)))) =
      [unsignedValue false hours % 2 ^ 32, digitsValue minutes] ++
        if fraction = [] then [digitsValue seconds]
        else [digitsValue seconds, digitsValue fraction] := by
  have free : ∀ byte ∈ hours ++ 0x3A :: (minutes ++ 0x3A :: (seconds ++ fractionText fraction)),
      byte ≠ 0 := by
    simp only [List.forall_mem_append, List.forall_mem_cons]
    exact ⟨hoursNumeral.ne_zero, by decide, minutesNumeral.ne_zero, by decide,
      secondsNumeral.ne_zero, fractionText_ne_zero fractionDecimal⟩
  rw [cStr_eq free, sscanf_unsigned 32 hoursNumeral (noDigitHead_cons (by decide) _),
    sscanf_literal, sscanf_field (by decide) minutesNumeral minutesFit (by decide),
    sscanf_seconds secondsNumeral secondsFit fractionDecimal fractionFits]
  rfl

theorem numeral_ne_point {digits : Bytes} (numeral : IsNumeral digits) :
    ∀ byte ∈ digits, byte ≠ 0x2E :=
  fun byte mem => isDigit_ne (numeral.isDigit byte mem) (by decide)

/-- The digits behind the point are found wherever it stands. -/
theorem point_of_free {front : Bytes} (free : ∀ byte ∈ front, byte ≠ 0x2E) (fraction : Bytes) :
    (front ++ fractionText fraction).contains 0x2E = !fraction.isEmpty ∧
      ((front ++ fractionText fraction).dropWhile (· ≠ 0x2E)).drop 1 = fraction := by
  have others : ∀ byte ∈ front, (decide (byte ≠ 0x2E)) = true := by simpa using free
  have absent : (0x2E : UInt8) ∉ front := fun mem => free _ mem rfl
  rw [List.dropWhile_append_of_pos others, fractionText]
  split
  · rename_i none
    subst none
    simp [absent]
  · rename_i some
    simp [some]

theorem head?_signed {text : Bytes} (unsigned : text.head? ≠ some 0x2D) (isNegative : Bool) :
    ((if isNegative then [0x2D] else []) ++ text).head? = some 0x2D ↔ isNegative = true := by
  cases isNegative with
  | true => simp
  | false => simpa using unsigned

theorem drop_signed (isNegative : Bool) (text : Bytes) :
    (if isNegative = true then ((if isNegative then [0x2D] else []) ++ text).drop 1
      else (if isNegative then [0x2D] else []) ++ text) = text := by
  cases isNegative with
  | true => rfl
  | false => rfl

/-- A sign is no point either. -/
theorem point_signed {front : Bytes} (free : ∀ byte ∈ front, byte ≠ 0x2E) (isNegative : Bool)
    (fraction : Bytes) :
    ((if isNegative then [0x2D] else []) ++ (front ++ fractionText fraction)).contains 0x2E =
        !fraction.isEmpty ∧
      (((if isNegative then [0x2D] else []) ++ (front ++ fractionText fraction)).dropWhile
        (· ≠ 0x2E)).drop 1 = fraction := by
  rw [← List.append_assoc]
  apply point_of_free
  rw [List.forall_mem_append]
  refine ⟨?_, free⟩
  cases isNegative with
  | true => simp
  | false => simp

/-- A time with numbers of any lengths, of which all but the hours fit their fields. -/
theorem TimeValue.ofString_text (isNegative : Bool) (hoursNumeral : IsNumeral hours)
    (minutesNumeral : IsNumeral minutes) (secondsNumeral : IsNumeral seconds)
    (fractionDecimal : ∀ digit ∈ fraction, isDigit digit = true)
    (minutesFit : digitsValue minutes < 2 ^ 8) (secondsFit : digitsValue seconds < 2 ^ 8)
    (fractionFits : digitsValue fraction < 2 ^ 32) :
    TimeValue.ofString ((if isNegative then [0x2D] else []) ++ (hours ++ 0x3A ::
        (minutes ++ 0x3A :: (seconds ++ fractionText fraction)))) =
      { isNegative := isNegative
        hours := unsignedValue false hours % 2 ^ 32
        minutes := digitsValue minutes
        seconds := digitsValue seconds
        usecs := digitsValue fraction * 10 ^ (6 - fraction.length) % 2 ^ 32 } := by
  have scanned := sscanf_time hoursNumeral minutesNumeral secondsNumeral fractionDecimal minutesFit
    secondsFit fractionFits
  have unsigned : (hours ++ 0x3A :: (minutes ++ 0x3A :: (seconds ++ fractionText fraction))).head? ≠
      some 0x2D := by
    rcases hours with _ | ⟨digit, hours⟩
    · exact absurd rfl hoursNumeral.nonempty
    · intro minus
      exact isDigit_ne (hoursNumeral.isDigit digit List.mem_cons_self) (by decide)
        (Option.some.inj minus)
  have body : hours ++ 0x3A :: (minutes ++ 0x3A :: (seconds ++ fractionText fraction)) =
      hours ++ 0x3A :: (minutes ++ 0x3A :: seconds) ++ fractionText fraction := by
    simp
  have free : ∀ byte ∈ hours ++ 0x3A :: (minutes ++ 0x3A :: seconds), byte ≠ 0x2E := by
    simp only [List.forall_mem_append, List.forall_mem_cons]
    exact ⟨numeral_ne_point hoursNumeral, by decide, numeral_ne_point minutesNumeral, by decide,
      numeral_ne_point secondsNumeral⟩
  have found := point_signed free isNegative fraction
  rw [← body] at found
  simp only [TimeValue.ofString, head?_signed unsigned, drop_signed, scanned, found.1, found.2,
    Bool.decide_eq_true]
  by_cases none : fraction = []
  · subst none
    simp [digitsValue]
  · have numeral : IsNumeral fraction := ⟨none, fractionDecimal⟩
    rw [cStr_eq numeral.ne_zero, sscanf_whole (by decide) numeral fractionFits]
    simp [none]

/-- What `str` writes is read back. -/
theorem TimeValue.ofString_str {value : TimeValue} (fits : value.Fits) :
    TimeValue.ofString value.str = value := by
  have fraction := isNumeral_zeroPadded 6 value.usecs
  have text : value.str = (if value.isNegative then [0x2D] else []) ++
      (zeroPadded 2 value.hours ++ 0x3A :: (zeroPadded 2 value.minutes ++ 0x3A ::
        (zeroPadded 2 value.seconds ++ fractionText (zeroPadded 6 value.usecs)))) := by
    rw [fractionText, if_neg fraction.nonempty]
    rfl
  have hours := fits.hours
  have minutes := fits.minutes
  have seconds := fits.seconds
  have usecs := fits.usecs
  rw [← digitsValue_zeroPadded 2 value.hours] at hours
  rw [← digitsValue_zeroPadded 2 value.minutes] at minutes
  rw [← digitsValue_zeroPadded 2 value.seconds] at seconds
  rw [← digitsValue_zeroPadded 6 value.usecs] at usecs
  rw [text, ofString_text _ (isNumeral_zeroPadded _ _) (isNumeral_zeroPadded _ _)
    (isNumeral_zeroPadded _ _) fraction.isDigit minutes seconds usecs,
    unsignedValue_of_lt (by decide) hours,
    Nat.sub_eq_zero_of_le (length_zeroPadded_ge 6 value.usecs),
    pow_zero, Nat.mul_one, Nat.mod_eq_of_lt usecs]
  simp only [digitsValue_zeroPadded]

/-- The hours are those that are written if they fit; the other fields are in any case. -/
theorem TimeText.ofString_bytes (text : TimeText) : TimeValue.ofString text.bytes =
    { text.value with hours := unsignedValue false text.hours.bytes % 2 ^ 32 } := by
  have two : ∀ digits : Digits 2, digitsValue digits.bytes < 2 ^ 8 :=
    fun digits => digits.value_lt.trans (by decide)
  rw [bytes, TimeValue.ofString_text _ text.hours.isNumeral text.minutes.isNumeral
    text.seconds.isNumeral text.fraction.isDigit (two _) (two _) text.fraction.value_lt_of_fraction,
    text.fraction.length_eq, Nat.mod_eq_of_lt (text.fraction.usecs_lt.trans (by decide))]
  rfl

end Time

/-- Dates and times keep their values in texts, and a fraction of up to six digits is read as
microseconds. -/
theorem temporalTexts :
    (∀ value : DateTimeValue, value.Fits → DateTimeValue.ofString value.str = value) ∧
    (∀ value : TimeValue, value.Fits → TimeValue.ofString value.str = value) ∧
    (∀ text : DateTimeText, DateTimeValue.ofString text.bytes = text.value) ∧
    ∀ text : TimeText, ∃ hours,
      TimeValue.ofString text.bytes = { text.value with hours := hours } ∧
        (digitsValue text.hours.bytes < 2 ^ 32 → hours = digitsValue text.hours.bytes) := by
  refine ⟨?_, ?_, DateTimeText.ofString_bytes, ?_⟩
  · intro value fits
    exact DateTimeValue.ofString_str fits
  · intro value fits
    exact TimeValue.ofString_str fits
  · intro text
    refine ⟨_, text.ofString_bytes, ?_⟩
    intro fits
    exact unsignedValue_of_lt (by decide) fits

/-- A time before midnight with fields beyond the calendar. -/
def lateTime : TimeValue where
  isNegative := true
  hours := 4000000000
  minutes := 200
  seconds := 99
  usecs := 1234567

theorem lateTime_fits : lateTime.Fits where
  hours := by decide
  minutes := by decide
  seconds := by decide
  usecs := by decide

theorem ofString_str_lateTime : TimeValue.ofString lateTime.str = lateTime :=
  temporalTexts.2.1 lateTime lateTime_fits

end EventAsync.MySQL
