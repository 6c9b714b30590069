import EventAsync.MySQL.Client

/-!
# Decimal numbers in texts

What `printf` writes for a number, and that `sscanf` reads it back.  A number
ends at the first character that is no digit.
-/

namespace EventAsync.MySQL

open ByteCodec

/-- A number as `%0*u` prints it with a minimal width. -/
def zeroPadded (width number : ℕ) : Bytes :=
  List.replicate (width - (decimal number).length) 0x30 ++ decimal number

/-- Some characters are digits, and there is at least one. -/
structure IsNumeral (digits : Bytes) : Prop where
  nonempty : digits ≠ []
  isDigit : ∀ digit ∈ digits, isDigit digit = true

/-- A numeral ends in front of these characters. -/
def NoDigitHead (rest : Bytes) : Prop :=
  ∀ first later, rest = first :: later → isDigit first = false

theorem toNat_of_mem_toDigits {number : ℕ} {char : Char} (mem : char ∈ Nat.toDigits 10 number) :
    0x30 ≤ char.toNat ∧ char.toNat ≤ 0x39 := by
  have digit := Nat.isDigit_of_mem_toDigits (by norm_num) (by norm_num) mem
  simp only [Char.isDigit, Bool.and_eq_true, decide_eq_true_eq] at digit
  exact digit

theorem toNat_ofNat_digit {char : Char} (digit : 0x30 ≤ char.toNat ∧ char.toNat ≤ 0x39) :
    (UInt8.ofNat char.toNat).toNat = char.toNat := by
  rw [UInt8.toNat_ofNat']
  omega

theorem foldl_digits (chars : List Char) (start : ℕ)
    (digits : ∀ char ∈ chars, 0x30 ≤ char.toNat ∧ char.toNat ≤ 0x39) :
    (chars.map fun char => UInt8.ofNat char.toNat).foldl
        (fun number digit => 10 * number + (digit.toNat - 0x30)) start =
      Nat.ofDigitChars 10 chars start := by
  induction chars generalizing start with
  | nil => rfl
  | cons char chars ih =>
      rw [List.map_cons, List.foldl_cons, Nat.ofDigitChars_cons,
        toNat_ofNat_digit (digits char (List.mem_cons_self ..))]
      exact ih _ fun later mem => digits later (List.mem_cons_of_mem _ mem)

theorem digitsValue_decimal (number : ℕ) : digitsValue (decimal number) = number := by
  rw [digitsValue, decimal, foldl_digits _ _ fun char => toNat_of_mem_toDigits,
    Nat.ofDigitChars_ten_toDigits]

theorem digitsValue_zeros (count : ℕ) (digits : Bytes) :
    digitsValue (List.replicate count 0x30 ++ digits) = digitsValue digits := by
  induction count with
  | zero => rfl
  | succ count ih =>
      rw [List.replicate_succ, List.cons_append]
      exact ih

theorem digitsValue_zeroPadded (width number : ℕ) :
    digitsValue (zeroPadded width number) = number := by
  rw [zeroPadded, digitsValue_zeros, digitsValue_decimal]

theorem isDigit_iff (byte : UInt8) :
    isDigit byte = true ↔ 0x30 ≤ byte.toNat ∧ byte.toNat ≤ 0x39 := by
  rw [isDigit, decide_eq_true_eq, UInt8.le_iff_toNat_le, UInt8.le_iff_toNat_le]
  rfl

theorem isNumeral_zeroPadded (width number : ℕ) : IsNumeral (zeroPadded width number) where
  nonempty := by
    rw [zeroPadded, decimal]
    simp [Nat.toDigits_ne_nil]
  isDigit := by
    intro digit mem
    rw [isDigit_iff]
    rw [zeroPadded, List.mem_append] at mem
    rcases mem with padding | inNumber
    · rw [List.eq_of_mem_replicate padding]
      decide
    · rcases List.mem_map.mp inNumber with ⟨char, memChar, rfl⟩
      have digit := toNat_of_mem_toDigits memChar
      rwa [toNat_ofNat_digit digit]

theorem length_zeroPadded_ge (width number : ℕ) : width ≤ (zeroPadded width number).length := by
  rw [zeroPadded, List.length_append, List.length_replicate]
  omega

/-- Some digits cannot make up a larger number than as many nines. -/
theorem digitsValue_lt {digits : Bytes} (decimal : ∀ digit ∈ digits, isDigit digit = true) :
    digitsValue digits < 10 ^ digits.length := by
  have bound : ∀ start,
      digits.foldl (fun number digit => 10 * number + (digit.toNat - 0x30)) start <
        10 ^ digits.length * (start + 1) := by
    induction digits with
    | nil => simp
    | cons digit digits ih =>
        intro start
        have later := ih (fun other mem => decimal other (List.mem_cons_of_mem _ mem))
          (10 * start + (digit.toNat - 0x30))
        have digitFits := (isDigit_iff digit).mp (decimal digit List.mem_cons_self)
        rw [List.foldl_cons, List.length_cons, pow_succ]
        refine later.trans_le ?_
        rw [Nat.mul_assoc]
        apply Nat.mul_le_mul_left
        omega
  simpa [digitsValue] using bound 0

section Scanning

variable {digits rest : Bytes} {format : List ScanDirective}

theorem isDigit_ne {digit other : UInt8} (decimal : isDigit digit = true)
    (none : isDigit other = false) : digit ≠ other := by
  rintro rfl
  rw [decimal] at none
  simp at none

theorem isSpace_of_isDigit {digit : UInt8} (decimal : isDigit digit = true) :
    isSpace digit = false := by
  have bounds := (isDigit_iff digit).mp decimal
  have notBlank := isDigit_ne decimal (show isDigit 0x20 = false by decide)
  have high : ¬digit ≤ 0x0D := by
    rw [UInt8.le_iff_toNat_le]
    change ¬digit.toNat ≤ 13
    omega
  simp [isSpace, notBlank, high]

theorem scanDigits_append (numeral : IsNumeral digits) (ends : NoDigitHead rest) :
    scanDigits (digits ++ rest) = (false, digits, rest) := by
  have taken : (digits ++ rest).takeWhile isDigit = digits := by
    rw [List.takeWhile_append_of_pos numeral.isDigit]
    rcases rest with _ | ⟨first, later⟩
    · simp
    · rw [List.takeWhile_cons_of_neg (by simp [ends first later rfl]), List.append_nil]
  have dropped : (digits ++ rest).dropWhile isDigit = rest := by
    rw [List.dropWhile_append_of_pos numeral.isDigit]
    rcases rest with _ | ⟨first, later⟩
    · rfl
    · rw [List.dropWhile_cons_of_neg (by simp [ends first later rfl])]
  rcases digits with _ | ⟨digit, digits⟩
  · exact absurd rfl numeral.nonempty
  · have decimal := numeral.isDigit digit List.mem_cons_self
    have notMinus := isDigit_ne decimal (show isDigit 0x2D = false by decide)
    have notPlus := isDigit_ne decimal (show isDigit 0x2B = false by decide)
    have trimmed : (digit :: digits ++ rest).dropWhile isSpace = digit :: digits ++ rest := by
      rw [List.cons_append, List.dropWhile_cons_of_neg (by simp [isSpace_of_isDigit decimal])]
    rw [scanDigits]
    simp only [trimmed]
    simp only [List.cons_append, List.head?_cons, Option.some.injEq, notMinus, notPlus, or_self,
      if_false, decide_false] at taken dropped ⊢
    rw [taken, dropped]

theorem sscanf_unsigned (bits : ℕ) (numeral : IsNumeral digits) (ends : NoDigitHead rest) :
    sscanf (.unsigned bits :: format) (digits ++ rest) =
      unsignedValue false digits % 2 ^ bits :: sscanf format rest := by
  rw [sscanf, scanDigits_append numeral ends]
  exact if_neg numeral.nonempty

theorem sscanf_literal (byte : UInt8) :
    sscanf (.literal byte :: format) (byte :: rest) = sscanf format rest := by
  rw [sscanf]
  exact if_pos rfl

theorem unsignedValue_of_lt {bits : ℕ} (narrow : bits ≤ 64) (fits : digitsValue digits < 2 ^ bits) :
    unsignedValue false digits % 2 ^ bits = digitsValue digits := by
  have wide : digitsValue digits < 2 ^ 64 := fits.trans_le (Nat.pow_le_pow_right (by decide) narrow)
  rw [unsignedValue, if_neg (Nat.not_le.mpr wide), if_neg (by simp), Nat.mod_eq_of_lt fits]

end Scanning

end EventAsync.MySQL
