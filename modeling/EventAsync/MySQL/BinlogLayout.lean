import EventAsync.MySQL.BinlogState

/-!
# The layout of a cell

`read_cell_data` reads numbers and length prefixes with functions that raise at
the end of the event, and strings and the fraction of a `T_TIMESTAMP2` with one
that returns the bytes that are left.  So every cell has first bytes without
which reading it raises, and then some bytes that may be missing.
-/

namespace EventAsync.MySQL

open ByteCodec StringReader

namespace BinlogProcessor

/-- How a cell is read: a number of bytes without which reading it raises, and then as many bytes
as are asked for, if there are that many. -/
structure CellLayout where
  head : ℕ
  asked : Bytes → ℕ
  /-- The length of the cell behind its first bytes. -/
  declared : Bytes → ℕ

namespace CellLayout

def fixed (width : ℕ) : CellLayout where
  head := width
  asked := fun _ => 0
  declared := fun _ => 0

/-- A length prefix of the given width, and as many bytes as it says. -/
def prefixed (width : ℕ) : CellLayout where
  head := width
  asked := leNat
  declared := leNat

/-- A string whose length is in the metadata of its column; the byte is taken as a signed one. -/
def counted (length : UInt8) : CellLayout where
  head := 0
  asked := fun _ => intToSize (charToInt length)
  declared := fun _ => length.toNat

/-- Seconds in four bytes and a fraction that is skipped. -/
def stamped (precision : UInt8) : CellLayout where
  head := 4
  asked := fun _ => if precision ≠ 0 then intToSize ((charToInt precision + 1).tdiv 2) else 0
  declared := fun _ => if precision ≠ 0 then intToSize ((charToInt precision + 1).tdiv 2) else 0

end CellLayout

/-- The width of the length prefix of a blob. -/
def blobLayout (metaLength : UInt8) : Option CellLayout :=
  match metaLength with
  | 1 => some (.prefixed 1)
  | 2 => some (.prefixed 2)
  | 3 => some (.prefixed 3)
  | 4 => some (.prefixed 4)
  | _ => none

/-- The width of the fractional part of a time. -/
def fractionWidth (precision : UInt8) : Option ℕ :=
  match precision with
  | 0 => some 0
  | 1 => some 1
  | 2 => some 1
  | 3 => some 2
  | 4 => some 2
  | 5 => some 3
  | 6 => some 3
  | _ => none

def stringLayout (subtype length : UInt8) : CellLayout :=
  if subtype = ColumnType.tSet.code ∨ subtype = ColumnType.tEnum.code then .counted length
  else if 255 < (((subtype.toNat <<< 4) &&& 0x300) ^^^ 0x300) + length.toNat then .prefixed 2
  else .prefixed 1

/-- The layout of the cells of a column, if they can be read at all. -/
def cellLayout (ci : ColumnInfo) : Option CellLayout :=
  match ColumnType.ofCode ci.type with
  | some .tNull => some (.fixed 0)
  | some .tTinyint | some .tYear => some (.fixed 1)
  | some .tSmallint => some (.fixed 2)
  | some .tMediumint => some (.fixed 3)
  | some .tInt | some .tFloat | some .tTimestamp => some (.fixed 4)
  | some .tBigint | some .tDouble => some (.fixed 8)
  | some .tTinyblob | some .tMediumblob | some .tLongblob | some .tBlob | some .tGeometry
  | some .tJson => if ci.typeMeta.length = 1 then blobLayout (ci.typeMeta.getD 0 0) else none
  | some .tEnum | some .tSet | some .tString =>
      if ci.typeMeta.length = 2 then
        some (stringLayout (ci.typeMeta.getD 0 0) (ci.typeMeta.getD 1 0))
      else none
  | some .tVarchar =>
      if ci.typeMeta.length = 2 then
        some (if 255 < leNat ci.typeMeta then .prefixed 2 else .prefixed 1)
      else none
  | some .tTimestamp2 =>
      if ci.typeMeta.length = 1 then some (.stamped (ci.typeMeta.getD 0 0)) else none
  | some .tDatetime2 =>
      if ci.typeMeta.length = 1 then
        (fractionWidth (ci.typeMeta.getD 0 0)).map fun width => .fixed (5 + width)
      else none
  | some .tTime2 =>
      if ci.typeMeta.length = 1 then
        (fractionWidth (ci.typeMeta.getD 0 0)).map fun width => .fixed (3 + width)
      else none
  | _ => none

/-- A computation that needs a number of bytes, raises if fewer are left, and otherwise takes them
and returns a function of them. -/
def Needs {Result : Type} (width : ℕ) (result : Bytes → Result) (action : ReaderM Result) : Prop :=
  ∀ reader : StringReader,
    (reader.rest.length < width →
        ∃ exception last, action reader = .error (.raised exception) last) ∧
      (width ≤ reader.rest.length →
        ∃ after, action reader = .ok (result (reader.rest.take width)) after ∧
          after.rest = reader.rest.drop width)

namespace Needs

variable {First Second : Type} {width other : ℕ}

theorem pure (value : First) : Needs 0 (fun _ => value) (Pure.pure value : ReaderM First) :=
  fun reader => ⟨fun short => absurd short (Nat.not_lt_zero _), fun _ => ⟨reader, rfl, rfl⟩⟩

theorem bind {action : ReaderM First} {next : First → ReaderM Second} {first : Bytes → First}
    {second : First → Bytes → Second} (needs : Needs width first action)
    (later : ∀ value, Needs other (second value) (next value)) :
    Needs (width + other) (fun bytes => second (first (bytes.take width)) (bytes.drop width))
      (action >>= next) := by
  intro reader
  constructor
  · intro short
    rcases Nat.lt_or_ge reader.rest.length width with before | enough
    · rcases (needs reader).1 before with ⟨exception, last, raised⟩
      exact ⟨exception, last, Stateful.bind_of_error raised⟩
    · rcases (needs reader).2 enough with ⟨middle, taken, left⟩
      have shortAfter : middle.rest.length < other := by
        rw [left, List.length_drop]
        omega
      rcases (later (first (reader.rest.take width)) middle).1 shortAfter with
        ⟨exception, last, raised⟩
      exact ⟨exception, last, (Stateful.bind_of_ok taken).trans raised⟩
  · intro enough
    rcases (needs reader).2 (by omega) with ⟨middle, taken, left⟩
    have enoughAfter : other ≤ middle.rest.length := by
      rw [left, List.length_drop]
      omega
    rcases (later (first (reader.rest.take width)) middle).2 enoughAfter with
      ⟨after, takenAfter, leftAfter⟩
    refine ⟨after, ?_, ?_⟩
    · rw [Stateful.bind_of_ok taken, takenAfter, left]
      dsimp only
      rw [List.take_take, List.drop_take, Nat.min_eq_left (Nat.le_add_right _ _),
        Nat.add_sub_cancel_left]
    · rw [leftAfter, left, List.drop_drop]

theorem map {action : ReaderM First} {first : Bytes → First} (needs : Needs width first action)
    (function : First → Second) :
    Needs width (fun bytes => function (first bytes)) (action >>= fun value =>
      Pure.pure (function value)) := by
  intro reader
  constructor
  · intro short
    rcases (needs reader).1 short with ⟨exception, last, raised⟩
    exact ⟨exception, last, Stateful.bind_of_error raised⟩
  · intro enough
    rcases (needs reader).2 enough with ⟨after, taken, left⟩
    exact ⟨after, Stateful.bind_of_ok taken, left⟩

theorem getBytes (size : ℕ) : Needs size id (StringReader.getBytes size) := by
  intro reader
  constructor
  · intro short
    exact ⟨_, _, getBytes_of_lt short⟩
  · intro enough
    exact ⟨_, getBytes_of_le enough, rfl⟩

theorem getLe (width : ℕ) : Needs width leNat (StringReader.getLe width) :=
  (getBytes width).map leNat

theorem getBe (width : ℕ) : Needs width beNat (StringReader.getBe width) :=
  (getBytes width).map beNat

theorem getU8 : Needs 1 (fun bytes => bytes.headD 0) StringReader.getU8 :=
  (getBytes 1).map fun bytes => bytes.headD 0

end Needs

/-- A computation that always raises. -/
def Raises {Result : Type} (action : ReaderM Result) : Prop :=
  ∀ reader : StringReader, ∃ exception last, action reader = .error (.raised exception) last

theorem Raises.throw {Result : Type} (exception : Exception) :
    Raises (throw (.raised exception) : ReaderM Result) :=
  fun reader => ⟨exception, reader, rfl⟩

theorem Raises.bind {First Second : Type} {action : ReaderM First} {width : ℕ}
    {first : Bytes → First} (needs : Needs width first action) {next : First → ReaderM Second}
    (raises : ∀ value, Raises (next value)) : Raises (action >>= next) := by
  intro reader
  rcases Nat.lt_or_ge reader.rest.length width with short | enough
  · rcases (needs reader).1 short with ⟨exception, last, raised⟩
    exact ⟨exception, last, Stateful.bind_of_error raised⟩
  · rcases (needs reader).2 enough with ⟨middle, taken, _⟩
    rw [Stateful.bind_of_ok taken]
    exact raises _ middle

theorem Raises.then {First Second : Type} {action : ReaderM First} (raises : Raises action)
    (next : First → ReaderM Second) : Raises (action >>= next) := by
  intro reader
  rcases raises reader with ⟨exception, last, raised⟩
  exact ⟨exception, last, Stateful.bind_of_error raised⟩

theorem Raises.unless {Result : Type} {condition : Prop} [Decidable condition]
    {exception : Exception} {next : PUnit → ReaderM Result}
    (raises : ¬condition → Raises (next ⟨⟩)) :
    Raises (if condition then (MonadExcept.throw (.raised exception) : ReaderM PUnit) >>= next
      else next ⟨⟩) := by
  split
  · exact (Raises.throw exception).then next
  · exact raises ‹¬condition›

namespace CellLayout

/-- The first bytes of a cell, and the bytes behind them. -/
def first (layout : CellLayout) (bytes : Bytes) : Bytes :=
  bytes.take layout.head

def body (layout : CellLayout) (bytes : Bytes) : Bytes :=
  bytes.drop layout.head

/-- What reading a cell with the given layout makes of the bytes that are left. -/
structure Took (layout : CellLayout) (bytes : Bytes) (value : Value) (rest : Bytes) : Prop where
  rest_eq : rest = (layout.body bytes).drop (layout.asked (layout.first bytes))
  string_eq : ∀ content, value = .string content →
    content = (layout.body bytes).take (layout.asked (layout.first bytes))
  /-- What is asked for is what is declared, except for the length of a string in the metadata. -/
  sized : layout.asked (layout.first bytes) = layout.declared (layout.first bytes) ∨
    (∃ content, value = .string content) ∧ stringMaxSize < layout.asked (layout.first bytes)

/-- A computation that reads a cell with the given layout. -/
def ReadBy (layout : CellLayout) (action : ReaderM Value) : Prop :=
  ∀ reader : StringReader,
    (reader.rest.length < layout.head →
        ∃ exception last, action reader = .error (.raised exception) last) ∧
      (layout.head ≤ reader.rest.length →
        ∃ value after, action reader = .ok value after ∧ layout.Took reader.rest value after.rest)

theorem readBy_fixed {width : ℕ} {result : Bytes → Value} {action : ReaderM Value}
    (needs : Needs width result action)
    (other : ∀ bytes content, result bytes ≠ .string content) : (fixed width).ReadBy action := by
  intro reader
  refine ⟨(needs reader).1, fun enough => ?_⟩
  rcases (needs reader).2 enough with ⟨after, taken, left⟩
  exact ⟨_, after, taken, left, fun content same => absurd same (other _ content), Or.inl rfl⟩

theorem readBy_prefixed {First : Type} {width : ℕ} {result : Bytes → First}
    {action : ReaderM First} (needs : Needs width result action) {size : First → ℕ}
    (sized : ∀ bytes, bytes.length = width → size (result bytes) = leNat bytes) :
    (prefixed width).ReadBy (do
      let length ← action
      return .string (← StringReader.read (size length))) := by
  intro reader
  constructor
  · intro short
    rcases (needs reader).1 short with ⟨exception, last, raised⟩
    exact ⟨exception, last, Stateful.bind_of_error raised⟩
  · intro enough
    rcases (needs reader).2 enough with ⟨middle, taken, left⟩
    have length : (reader.rest.take width).length = width := List.length_take_of_le enough
    refine ⟨.string (middle.rest.take (leNat (reader.rest.take width))),
      { offset := middle.offset + min (leNat (reader.rest.take width)) middle.rest.length
        rest := middle.rest.drop (leNat (reader.rest.take width)) }, ?_, ?_⟩
    · rw [Stateful.bind_of_ok taken, sized _ length]
      rfl
    · refine ⟨?_, ?_, Or.inl rfl⟩
      · rw [left]
        rfl
      · intro content same
        injection same with same
        rw [← same, left]
        rfl

theorem readBy_counted (length : UInt8) :
    (counted length).ReadBy (do
      return .string (← StringReader.read (intToSize (charToInt length)))) := by
  intro reader
  refine ⟨fun short => absurd short (Nat.not_lt_zero _), fun _ => ?_⟩
  refine ⟨_, _, rfl, rfl, ?_, ?_⟩
  · intro content same
    injection same with same
    exact same.symm
  · have small := length.toNat_lt
    simp only [counted, charToInt, intToSize]
    by_cases positive : length < 0x80
    · left
      rw [if_pos positive]
      omega
    · right
      refine ⟨⟨_, rfl⟩, ?_⟩
      rw [if_neg positive]
      have large : 128 ≤ length.toNat := Nat.not_lt.mp positive
      simp only [stringMaxSize]
      omega

theorem readBy_stamped {ci : ColumnInfo} (length : ci.typeMeta.length = 1) :
    (stamped (ci.typeMeta.getD 0 0)).ReadBy (readTimestamp2Data ci) := by
  intro reader
  constructor
  · intro short
    exact ⟨_, _, Stateful.bind_of_error (getLe_of_lt short)⟩
  · intro enough
    have taken : getU32l reader = .ok (leNat (reader.rest.take 4))
        { offset := reader.offset + 4, rest := reader.rest.drop 4 } := getLe_of_le enough
    rw [readTimestamp2Data, Stateful.bind_of_ok taken, if_neg (not_not.mpr length)]
    by_cases fraction : ci.typeMeta.getD 0 0 ≠ 0
    · rw [if_pos fraction]
      refine ⟨_, _, rfl, ?_, ?_, Or.inl rfl⟩
      · simp only [stamped, body, if_pos fraction]
      · intro content same
        cases same
    · rw [if_neg fraction]
      refine ⟨_, _, rfl, ?_, ?_, Or.inl rfl⟩
      · simp only [stamped, body, if_neg fraction, List.drop_zero]
      · intro content same
        cases same

end CellLayout

theorem needs_fraction {precision : UInt8} {width : ℕ}
    (known : fractionWidth precision = some width) :
    ∃ result, Needs width result (readDatetimeFractionalPart precision) := by
  simp only [fractionWidth] at known
  unfold readDatetimeFractionalPart
  split at known
  · cases known
    exact ⟨_, Needs.pure 0⟩
  · cases known
    exact ⟨_, Needs.getU8.map _⟩
  · cases known
    exact ⟨_, Needs.getU8.map _⟩
  · cases known
    exact ⟨_, (Needs.getBe 2).map _⟩
  · cases known
    exact ⟨_, (Needs.getBe 2).map _⟩
  · cases known
    exact ⟨_, Needs.getBe 3⟩
  · cases known
    exact ⟨_, Needs.getBe 3⟩
  · cases known

theorem readDatetimeFractionalPart_raises {precision : UInt8}
    (unknown : fractionWidth precision = none) :
    Raises (readDatetimeFractionalPart precision) := by
  unfold readDatetimeFractionalPart
  split
  case h_8 => exact Raises.throw _
  all_goals cases unknown

theorem length_one_toNat (bytes : Bytes) (length : bytes.length = 1) :
    (bytes.headD 0).toNat = leNat bytes := by
  rcases List.length_eq_one_iff.mp length with ⟨byte, rfl⟩
  simp [leNat]

theorem readBy_readPrefixed {maxLength : ℕ} :
    (if 255 < maxLength then CellLayout.prefixed 2 else CellLayout.prefixed 1).ReadBy (do
      return .string (← readPrefixed maxLength)) := by
  unfold readPrefixed
  split
  · simp only [bind_assoc]
    exact CellLayout.readBy_prefixed (Needs.getLe 2) fun _ _ => rfl
  · simp only [bind_assoc]
    exact CellLayout.readBy_prefixed Needs.getU8 length_one_toNat

theorem needs_readBlobSize {metaLength : UInt8} {layout : CellLayout}
    (known : blobLayout metaLength = some layout) :
    ∃ width result, layout = .prefixed width ∧ Needs width result (readBlobSize metaLength) ∧
      ∀ bytes, bytes.length = width → result bytes = leNat bytes := by
  simp only [blobLayout] at known
  unfold readBlobSize
  split at known
  · cases known
    exact ⟨1, _, rfl, Needs.getU8.map UInt8.toNat, length_one_toNat⟩
  · cases known
    exact ⟨2, _, rfl, Needs.getLe 2, fun _ _ => rfl⟩
  · cases known
    exact ⟨3, _, rfl, Needs.getLe 3, fun _ _ => rfl⟩
  · cases known
    exact ⟨4, _, rfl, Needs.getLe 4, fun _ _ => rfl⟩
  · cases known

theorem readBlobSize_raises {metaLength : UInt8} (unknown : blobLayout metaLength = none) :
    Raises (readBlobSize metaLength) := by
  unfold readBlobSize
  split
  case h_5 => exact Raises.throw _
  all_goals cases unknown

theorem readBy_readBlobData {ci : ColumnInfo} {layout : CellLayout}
    (length : ci.typeMeta.length = 1) (known : blobLayout (ci.typeMeta.getD 0 0) = some layout) :
    layout.ReadBy (readBlobData ci) := by
  rcases needs_readBlobSize known with ⟨width, result, rfl, needs, sized⟩
  rw [readBlobData, if_neg (not_not.mpr length)]
  exact @CellLayout.readBy_prefixed _ _ _ _ needs id sized

theorem readBy_readStringData {ci : ColumnInfo} (length : ci.typeMeta.length = 2) :
    (stringLayout (ci.typeMeta.getD 0 0) (ci.typeMeta.getD 1 0)).ReadBy (readStringData ci) := by
  rw [readStringData, if_neg (not_not.mpr length)]
  simp only [stringLayout]
  split
  · exact CellLayout.readBy_counted _
  · exact readBy_readPrefixed

theorem readBy_readDatetime2Data {ci : ColumnInfo} {width : ℕ} (length : ci.typeMeta.length = 1)
    (known : fractionWidth (ci.typeMeta.getD 0 0) = some width) :
    (CellLayout.fixed (5 + width)).ReadBy (readDatetime2Data ci) := by
  rcases needs_fraction known with ⟨result, fraction⟩
  rw [readDatetime2Data, if_neg (not_not.mpr length)]
  have needs := (Needs.getBe 4).bind fun high => Needs.getU8.bind fun low =>
    fraction.map fun usecs => Value.dateTime {
      years := sizeSub ((high * 256 + low.toNat) >>> 22) 131073 / 13 % 2 ^ 16
      months := (((high * 256 + low.toNat) >>> 22) + 7) % 13
      days := ((high * 256 + low.toNat) >>> 17) &&& 0x1F
      hours := ((high * 256 + low.toNat) >>> 12) &&& 0x1F
      minutes := ((high * 256 + low.toNat) >>> 6) &&& 0x3F
      seconds := (high * 256 + low.toNat) &&& 0x3F
      usecs := usecs }
  have total : 4 + (1 + width) = 5 + width := by omega
  rw [total] at needs
  exact CellLayout.readBy_fixed needs fun _ _ same => by cases same

theorem readBy_readTime2Data {ci : ColumnInfo} {width : ℕ} (length : ci.typeMeta.length = 1)
    (known : fractionWidth (ci.typeMeta.getD 0 0) = some width) :
    (CellLayout.fixed (3 + width)).ReadBy (readTime2Data ci) := by
  rcases needs_fraction known with ⟨result, fraction⟩
  rw [readTime2Data, if_neg (not_not.mpr length)]
  have needs := (Needs.getBe 3).bind fun bits =>
    fraction.map fun usecs =>
      let z := if bits &&& 0x800000 = 0 then (2 ^ 32 - bits) % 2 ^ 32 else bits
      Value.time {
        isNegative := bits &&& 0x800000 = 0
        hours := (z >>> 12) &&& 0x3FF
        minutes := (z >>> 6) &&& 0x3F
        seconds := z &&& 0x3F
        usecs := usecs }
  exact CellLayout.readBy_fixed needs fun _ _ same => by cases same

theorem readBy_number {width : ℕ} {action : ReaderM ℕ} {result : Bytes → ℕ}
    (needs : Needs width result action) {value : ℕ → Value}
    (other : ∀ number content, value number ≠ .string content) :
    (CellLayout.fixed width).ReadBy (do return value (← action)) :=
  CellLayout.readBy_fixed (needs.map value) fun _ content => other _ content

/-- A cell of a type that can be read is read by its layout. -/
theorem readBy_readCellData {ci : ColumnInfo} {layout : CellLayout}
    (known : cellLayout ci = some layout) : layout.ReadBy (readCellData ci) := by
  unfold cellLayout at known
  unfold readCellData
  cases kind : ColumnType.ofCode ci.type with
  | none =>
      rw [kind] at known
      cases known
  | some type =>
      rw [kind] at known
      cases type with
      | tNull =>
          cases known
          exact CellLayout.readBy_fixed (Needs.pure _) fun _ _ same => by cases same
      | tTinyint | tYear =>
          cases known
          exact CellLayout.readBy_fixed (Needs.getU8.map fun byte => Value.uint64 byte.toNat)
            fun _ _ same => by cases same
      | tSmallint =>
          cases known
          exact readBy_number (Needs.getLe 2) fun _ _ same => by cases same
      | tMediumint =>
          cases known
          exact readBy_number (Needs.getLe 3) fun _ _ same => by cases same
      | tInt | tFloat =>
          cases known
          exact readBy_number (Needs.getLe 4) fun _ _ same => by cases same
      | tTimestamp =>
          cases known
          exact CellLayout.readBy_fixed
            ((Needs.getLe 4).map fun seconds => Value.uint64 (seconds * 1000000))
            fun _ _ same => by cases same
      | tBigint | tDouble =>
          cases known
          exact readBy_number (Needs.getLe 8) fun _ _ same => by cases same
      | tTinyblob | tMediumblob | tLongblob | tBlob | tGeometry | tJson =>
          rcases Option.ite_none_right_eq_some.mp known with ⟨length, blob⟩
          exact readBy_readBlobData length blob
      | tEnum | tSet | tString =>
          rcases Option.ite_none_right_eq_some.mp known with ⟨length, same⟩
          cases same
          exact readBy_readStringData length
      | tVarchar =>
          rcases Option.ite_none_right_eq_some.mp known with ⟨length, same⟩
          cases same
          dsimp only
          rw [readVarcharData, if_neg (not_not.mpr length)]
          exact readBy_readPrefixed
      | tTimestamp2 =>
          rcases Option.ite_none_right_eq_some.mp known with ⟨length, same⟩
          cases same
          exact CellLayout.readBy_stamped length
      | tDatetime2 =>
          rcases Option.ite_none_right_eq_some.mp known with ⟨length, same⟩
          rcases Option.map_eq_some_iff.mp same with ⟨width, fraction, rfl⟩
          exact readBy_readDatetime2Data length fraction
      | tTime2 =>
          rcases Option.ite_none_right_eq_some.mp known with ⟨length, same⟩
          rcases Option.map_eq_some_iff.mp same with ⟨width, fraction, rfl⟩
          exact readBy_readTime2Data length fraction
      | _ => cases known

theorem readBlobData_raises {ci : ColumnInfo}
    (unknown : ci.typeMeta.length = 1 → blobLayout (ci.typeMeta.getD 0 0) = none) :
    Raises (readBlobData ci) := by
  unfold readBlobData
  apply Raises.unless
  intro single
  exact (readBlobSize_raises (unknown (not_not.mp single))).then _

theorem readStringData_raises {ci : ColumnInfo} (length : ci.typeMeta.length ≠ 2) :
    Raises (readStringData ci) := by
  rw [readStringData, if_pos length]
  exact (Raises.throw _).then _

theorem readVarcharData_raises {ci : ColumnInfo} (length : ci.typeMeta.length ≠ 2) :
    Raises (readVarcharData ci) := by
  rw [readVarcharData, if_pos length]
  exact (Raises.throw _).then _

theorem readTimestamp2Data_raises {ci : ColumnInfo} (length : ci.typeMeta.length ≠ 1) :
    Raises (readTimestamp2Data ci) := by
  unfold readTimestamp2Data
  apply Raises.bind (Needs.getLe 4)
  intro ret
  rw [if_pos length]
  exact (Raises.throw _).then _

theorem readDatetime2Data_raises {ci : ColumnInfo}
    (unknown : ci.typeMeta.length = 1 → fractionWidth (ci.typeMeta.getD 0 0) = none) :
    Raises (readDatetime2Data ci) := by
  unfold readDatetime2Data
  apply Raises.unless
  intro single
  apply Raises.bind (Needs.getBe 4)
  intro high
  apply Raises.bind Needs.getU8
  intro low
  exact (readDatetimeFractionalPart_raises (unknown (not_not.mp single))).then _

theorem readTime2Data_raises {ci : ColumnInfo}
    (unknown : ci.typeMeta.length = 1 → fractionWidth (ci.typeMeta.getD 0 0) = none) :
    Raises (readTime2Data ci) := by
  unfold readTime2Data
  apply Raises.unless
  intro single
  apply Raises.bind (Needs.getBe 3)
  intro bits
  exact (readDatetimeFractionalPart_raises (unknown (not_not.mp single))).then _

/-- A cell of another type is never read. -/
theorem readCellData_raises {ci : ColumnInfo} (unknown : cellLayout ci = none) :
    Raises (readCellData ci) := by
  unfold cellLayout at unknown
  unfold readCellData
  cases kind : ColumnType.ofCode ci.type with
  | none => exact Raises.throw _
  | some type =>
      rw [kind] at unknown
      cases type with
      | tTinyblob | tMediumblob | tLongblob | tBlob | tGeometry | tJson =>
          exact readBlobData_raises fun single => (if_pos single).symm.trans unknown
      | tEnum | tSet | tString =>
          refine readStringData_raises fun double => ?_
          cases (if_pos double).symm.trans unknown
      | tVarchar =>
          refine readVarcharData_raises fun double => ?_
          cases (if_pos double).symm.trans unknown
      | tTimestamp2 =>
          refine readTimestamp2Data_raises fun single => ?_
          cases (if_pos single).symm.trans unknown
      | tDatetime2 =>
          exact readDatetime2Data_raises fun single =>
            Option.map_eq_none_iff.mp ((if_pos single).symm.trans unknown)
      | tTime2 =>
          exact readTime2Data_raises fun single =>
            Option.map_eq_none_iff.mp ((if_pos single).symm.trans unknown)
      | tDecimal | tDate | tTime | tDatetime | tNewdate | tBit | tBool | tNewdecimal
      | tVarString => exact Raises.throw _
      | _ => cases unknown

end BinlogProcessor

end EventAsync.MySQL
