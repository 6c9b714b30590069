import EventAsync.MySQL.BinlogProcessor

/-!
# Decoding binlog rows

Tables and rows as MySQL encodes them in table map and rows events.  The width
of a cell depends on the type and the metadata of its column; a row starts with
a bitmap of its null cells, of which the unused bits may have any value.  A
table that a table map event describes is kept by the processor such that rows
events of the table decode to exactly the encoded row changes.
-/

namespace EventAsync.MySQL

open ByteCodec Decoding StringReader

namespace BinlogEventHeader

def encode (header : BinlogEventHeader) : Bytes :=
  leBytes 4 header.timestamp ++ header.type :: (leBytes 4 header.serverId ++
    (leBytes 4 header.length ++ (leBytes 4 header.endPosition ++ leBytes 2 header.flags)))

/-- The fields are within the range of their types. -/
structure Fits (header : BinlogEventHeader) : Prop where
  timestamp : header.timestamp < 2 ^ 32
  serverId : header.serverId < 2 ^ 32
  length : header.length < 2 ^ 32
  endPosition : header.endPosition < 2 ^ 32
  flags : header.flags < 2 ^ 16

theorem decodes_getBinlogEventHeader {header : BinlogEventHeader} (fits : header.Fits) :
    Decodes StringReader.mk BinlogProcessor.getBinlogEventHeader header.encode header := by
  have length : header.encode.length = 19 := by simp [encode]
  intro offset rest
  rw [BinlogProcessor.getBinlogEventHeader,
    Stateful.bind_of_ok (decodes_getBytes length offset rest)]
  have timestamp : leNat (leBytes 4 header.timestamp) = header.timestamp :=
    leNat_leBytes_of_lt fits.timestamp
  have serverId : leNat (leBytes 4 header.serverId) = header.serverId :=
    leNat_leBytes_of_lt fits.serverId
  have eventLength : leNat (leBytes 4 header.length) = header.length :=
    leNat_leBytes_of_lt fits.length
  have endPosition : leNat (leBytes 4 header.endPosition) = header.endPosition :=
    leNat_leBytes_of_lt fits.endPosition
  have flags : leNat (leBytes 2 header.flags) = header.flags :=
    leNat_leBytes_of_lt fits.flags
  simp [encode, List.drop_append, List.drop_of_length_le, timestamp, serverId, eventLength,
    endPosition, flags]
  rfl

end BinlogEventHeader

/-- The integer column types. -/
inductive IntegerType where
  | tinyint
  | smallint
  | mediumint
  | int
  | bigint
  deriving DecidableEq

namespace IntegerType

def type : IntegerType → ColumnType
  | tinyint => .tTinyint
  | smallint => .tSmallint
  | mediumint => .tMediumint
  | int => .tInt
  | bigint => .tBigint

def width : IntegerType → ℕ
  | tinyint => 1
  | smallint => 2
  | mediumint => 3
  | int => 4
  | bigint => 8

end IntegerType

/-- The column types that are stored as a length and that many bytes. -/
inductive BlobType where
  | tinyblob
  | mediumblob
  | longblob
  | blob
  | geometry
  | json
  deriving DecidableEq

def BlobType.type : BlobType → ColumnType
  | tinyblob => .tTinyblob
  | mediumblob => .tMediumblob
  | longblob => .tLongblob
  | blob => .tBlob
  | geometry => .tGeometry
  | json => .tJson

/-- The types of columns with a declared set of values. -/
inductive ChoiceType where
  | enum
  | set
  deriving DecidableEq

def ChoiceType.type : ChoiceType → ColumnType
  | enum => .tEnum
  | set => .tSet

/-- The type of a column with the declaration that its metadata encodes. -/
inductive ColumnSpec where
  | integer (kind : IntegerType)
  | float
  | double
  | year
  | timestamp
  | blob (kind : BlobType) (lengthWidth : ℕ) (valid : 1 ≤ lengthWidth ∧ lengthWidth ≤ 4)
  | string (displayWidth : ℕ) (valid : displayWidth < 1024)
  | choice (kind : ChoiceType) (asString : Bool) (packLength : ℕ)
      (valid : 1 ≤ packLength ∧ packLength ≤ 8)
  | varchar (maxLength : ℕ) (valid : maxLength < 2 ^ 16)

namespace ColumnSpec

def type : ColumnSpec → ColumnType
  | integer kind => kind.type
  | float => .tFloat
  | double => .tDouble
  | year => .tYear
  | timestamp => .tTimestamp
  | blob kind _ _ => kind.type
  | string _ _ => .tString
  | choice kind asString _ _ => if asString then .tString else kind.type
  | varchar _ _ => .tVarchar

/-- The metadata; MySQL hides bits 8 and 9 of a string's display width in the type byte. -/
def typeMeta : ColumnSpec → Bytes
  | integer _ | year | timestamp => []
  | float => [4]
  | double => [8]
  | blob _ lengthWidth _ => [UInt8.ofNat lengthWidth]
  | string displayWidth _ =>
      [UInt8.ofNat (0xFE ^^^ ((displayWidth &&& 0x300) >>> 4)), UInt8.ofNat displayWidth]
  | choice kind _ packLength _ => [kind.type.code, UInt8.ofNat packLength]
  | varchar maxLength _ => leBytes 2 maxLength

/-- The width of the length prefix of a string that is declared with a maximum. -/
def prefixWidth (maxLength : ℕ) : ℕ :=
  if 255 < maxLength then 2 else 1

/-- The values that a column can hold; a timestamp is a number of seconds in microseconds. -/
def Fits : ColumnSpec → Value → Prop
  | integer kind, .uint64 number => number < 256 ^ kind.width
  | float, .float bits => bits < 2 ^ 32
  | double, .double bits => bits < 2 ^ 64
  | year, .uint64 number => number < 2 ^ 8
  | timestamp, .uint64 number => number % 1000000 = 0 ∧ number / 1000000 < 2 ^ 32
  | blob _ lengthWidth _, .string bytes => bytes.length < 256 ^ lengthWidth
  | string displayWidth _, .string bytes => bytes.length < 256 ^ prefixWidth displayWidth
  | choice _ _ packLength _, .string bytes => bytes.length = packLength
  | varchar maxLength _, .string bytes => bytes.length < 256 ^ prefixWidth maxLength
  | _, _ => False

def encodeCell : ColumnSpec → Value → Bytes
  | integer kind, .uint64 number => leBytes kind.width number
  | float, .float bits => leBytes 4 bits
  | double, .double bits => leBytes 8 bits
  | year, .uint64 number => leBytes 1 number
  | timestamp, .uint64 number => leBytes 4 (number / 1000000)
  | blob _ lengthWidth _, .string bytes => leBytes lengthWidth bytes.length ++ bytes
  | string displayWidth _, .string bytes =>
      leBytes (prefixWidth displayWidth) bytes.length ++ bytes
  | choice _ _ _ _, .string bytes => bytes
  | varchar maxLength _, .string bytes => leBytes (prefixWidth maxLength) bytes.length ++ bytes
  | _, _ => []

/-- The column as a table map event makes the processor keep it. -/
def info (spec : ColumnSpec) (nullable : Bool) : ColumnInfo where
  type := spec.type.code
  typeMeta := spec.typeMeta
  nullable := nullable

end ColumnSpec

section Cells

open BinlogProcessor ColumnSpec

variable {nullable : Bool}

theorem decodes_getU8_toNat {number : ℕ} (fits : number < 2 ^ 8) (result : ℕ → Value) :
    Decodes StringReader.mk (do return result (← getU8).toNat) (leBytes 1 number)
      (result number) := by
  have byte : (UInt8.ofNat number).toNat = number := by
    rw [UInt8.toNat_ofNat']
    omega
  have decodes : Decodes StringReader.mk (do return result (← getU8).toNat)
      [UInt8.ofNat number] (result (UInt8.ofNat number).toNat) :=
    (decodes_getU8 (UInt8.ofNat number)).bind_pure
  rwa [byte] at decodes

theorem decodes_integer (kind : IntegerType) {number : ℕ} (fits : number < 256 ^ kind.width) :
    Decodes StringReader.mk (readCellData ((integer kind).info nullable))
      (leBytes kind.width number) (.uint64 number) := by
  cases kind with
  | tinyint => exact decodes_getU8_toNat fits .uint64
  | smallint => exact (decodes_getLe fits).bind_pure
  | mediumint => exact (decodes_getLe fits).bind_pure
  | int => exact (decodes_getLe fits).bind_pure
  | bigint => exact (decodes_getLe fits).bind_pure

theorem decodes_readBlobSize {lengthWidth size : ℕ} (valid : 1 ≤ lengthWidth ∧ lengthWidth ≤ 4)
    (fits : size < 256 ^ lengthWidth) :
    Decodes StringReader.mk (readBlobSize (UInt8.ofNat lengthWidth)) (leBytes lengthWidth size)
      size := by
  have widths : lengthWidth = 1 ∨ lengthWidth = 2 ∨ lengthWidth = 3 ∨ lengthWidth = 4 := by omega
  rcases widths with rfl | rfl | rfl | rfl
  · have byte : (UInt8.ofNat size).toNat = size := by
      rw [UInt8.toNat_ofNat']
      omega
    have decodes : Decodes StringReader.mk (readBlobSize 1) [UInt8.ofNat size]
        (UInt8.ofNat size).toNat := (decodes_getU8 (UInt8.ofNat size)).bind_pure
    rwa [byte] at decodes
  · exact decodes_getLe fits
  · exact decodes_getLe fits
  · exact decodes_getLe fits

theorem decodes_readPrefixed {maxLength : ℕ} {bytes : Bytes}
    (fits : bytes.length < 256 ^ prefixWidth maxLength) :
    Decodes StringReader.mk (readPrefixed maxLength)
      (leBytes (prefixWidth maxLength) bytes.length ++ bytes) bytes := by
  simp only [readPrefixed, prefixWidth] at fits ⊢
  split
  · rename_i long
    rw [if_pos long] at fits
    exact (decodes_getLe fits).bind (decodes_read rfl)
  · rename_i short
    rw [if_neg short] at fits
    have byte : (UInt8.ofNat bytes.length).toNat = bytes.length := by
      rw [UInt8.toNat_ofNat']
      omega
    exact (decodes_getU8 (UInt8.ofNat bytes.length)).bind (decodes_read byte.symm)

/-- The two high bits of the width are those of the metadata byte, inverted. -/
theorem displayWidth_high : ∀ high < 4,
    ¬(UInt8.ofNat (0xFE ^^^ (high <<< 4)) = ColumnType.tSet.code ∨
        UInt8.ofNat (0xFE ^^^ (high <<< 4)) = ColumnType.tEnum.code) ∧
      (((UInt8.ofNat (0xFE ^^^ (high <<< 4))).toNat <<< 4) &&& 0x300) ^^^ 0x300 =
        256 * high := by
  decide

theorem displayWidth_unpacked {displayWidth : ℕ} (valid : displayWidth < 1024) :
    ¬(UInt8.ofNat (0xFE ^^^ ((displayWidth &&& 0x300) >>> 4)) = ColumnType.tSet.code ∨
        UInt8.ofNat (0xFE ^^^ ((displayWidth &&& 0x300) >>> 4)) = ColumnType.tEnum.code) ∧
      ((((UInt8.ofNat (0xFE ^^^ ((displayWidth &&& 0x300) >>> 4))).toNat <<< 4) &&& 0x300) ^^^
        0x300) + (UInt8.ofNat displayWidth).toNat = displayWidth := by
  have high_lt : displayWidth / 256 < 4 := by omega
  have masked : displayWidth &&& 0x300 = (displayWidth / 256) <<< 8 := by
    calc displayWidth &&& 0x300 = ((displayWidth >>> 8) &&& 3) <<< 8 :=
          and_shiftLeft displayWidth 3 8
      _ = (displayWidth / 256) <<< 8 := by
          rw [Nat.shiftRight_eq_div_pow, Nat.and_two_pow_sub_one_eq_mod _ 2,
            Nat.mod_eq_of_lt high_lt]
  have shifted : (displayWidth &&& 0x300) >>> 4 = (displayWidth / 256) <<< 4 := by
    rw [masked, Nat.shiftLeft_eq, Nat.shiftRight_eq_div_pow, Nat.shiftLeft_eq]
    omega
  have high := displayWidth_high (displayWidth / 256) high_lt
  rw [shifted]
  refine ⟨high.1, ?_⟩
  rw [high.2, UInt8.toNat_ofNat']
  omega

theorem decodes_string {displayWidth : ℕ} (valid : displayWidth < 1024) {bytes : Bytes}
    (fits : bytes.length < 256 ^ prefixWidth displayWidth) :
    Decodes StringReader.mk (readCellData ((string displayWidth valid).info nullable))
      (leBytes (prefixWidth displayWidth) bytes.length ++ bytes) (.string bytes) := by
  have unpacked := displayWidth_unpacked valid
  have decodes : Decodes StringReader.mk (do return Value.string (← readPrefixed displayWidth))
      (leBytes (prefixWidth displayWidth) bytes.length ++ bytes) (Value.string bytes) :=
    (decodes_readPrefixed fits).bind_pure
  have reduced : readStringData ((string displayWidth valid).info nullable) =
      (do return Value.string (← readPrefixed displayWidth)) := by
    simp only [readStringData, info, typeMeta, List.length_cons, List.length_nil,
      List.getD_cons_zero, List.getD_cons_succ, unpacked.1, unpacked.2, if_false, ne_eq,
      not_true_eq_false]
  rw [← reduced] at decodes
  exact decodes

theorem decodes_choice (kind : ChoiceType) (asString : Bool) {packLength : ℕ}
    (valid : 1 ≤ packLength ∧ packLength ≤ 8) {bytes : Bytes} (fits : bytes.length = packLength) :
    Decodes StringReader.mk (readCellData ((choice kind asString packLength valid).info nullable))
      bytes (.string bytes) := by
  have size : ∀ pack : Fin 9, intToSize (charToInt (UInt8.ofNat pack)) = pack := by decide
  have packSize : intToSize (charToInt (UInt8.ofNat packLength)) = packLength :=
    size ⟨packLength, by omega⟩
  have isChoice : kind.type.code = ColumnType.tSet.code ∨
      kind.type.code = ColumnType.tEnum.code := by
    cases kind with
    | enum => exact Or.inr rfl
    | set => exact Or.inl rfl
  have reduced : readStringData ((choice kind asString packLength valid).info nullable) =
      (do return Value.string (← read packLength)) := by
    simp only [readStringData, info, typeMeta, List.length_cons, List.length_nil,
      List.getD_cons_zero, List.getD_cons_succ, isChoice, if_true, packSize, ne_eq,
      not_true_eq_false, if_false]
  have decodes : Decodes StringReader.mk
      (readStringData ((choice kind asString packLength valid).info nullable)) bytes
      (.string bytes) := by
    rw [reduced]
    exact (decodes_read fits).bind_pure
  cases asString with
  | true => exact decodes
  | false =>
      cases kind with
      | enum => exact decodes
      | set => exact decodes

theorem decodes_blob (kind : BlobType) {lengthWidth : ℕ}
    (valid : 1 ≤ lengthWidth ∧ lengthWidth ≤ 4) {bytes : Bytes}
    (fits : bytes.length < 256 ^ lengthWidth) :
    Decodes StringReader.mk (readCellData ((blob kind lengthWidth valid).info nullable))
      (leBytes lengthWidth bytes.length ++ bytes) (.string bytes) := by
  have decodes : Decodes StringReader.mk
      (do
        let size ← readBlobSize (UInt8.ofNat lengthWidth)
        return Value.string (← read size))
      (leBytes lengthWidth bytes.length ++ bytes) (Value.string bytes) :=
    (decodes_readBlobSize valid fits).bind (decodes_read rfl).bind_pure
  cases kind with
  | tinyblob => exact decodes
  | mediumblob => exact decodes
  | longblob => exact decodes
  | blob => exact decodes
  | geometry => exact decodes
  | json => exact decodes

/-- Every cell that fits its column is decoded from its encoding. -/
theorem decodes_readCellData {spec : ColumnSpec} {value : Value} (fits : spec.Fits value) :
    Decodes StringReader.mk (readCellData (spec.info nullable)) (spec.encodeCell value) value := by
  cases spec with
  | integer kind =>
      cases value with
      | uint64 number => exact decodes_integer kind fits
      | _ => exact fits.elim
  | float =>
      cases value with
      | float bits => exact (decodes_getLe fits).bind_pure
      | _ => exact fits.elim
  | double =>
      cases value with
      | double bits => exact (decodes_getLe fits).bind_pure
      | _ => exact fits.elim
  | year =>
      cases value with
      | uint64 number => exact decodes_getU8_toNat fits .uint64
      | _ => exact fits.elim
  | timestamp =>
      cases value with
      | uint64 number =>
          have seconds : number / 1000000 * 1000000 = number :=
            Nat.div_mul_cancel (Nat.dvd_of_mod_eq_zero fits.1)
          have decodes : Decodes StringReader.mk (readCellData (timestamp.info nullable))
              (leBytes 4 (number / 1000000)) (.uint64 (number / 1000000 * 1000000)) :=
            (decodes_getLe fits.2).bind_pure
          rwa [seconds] at decodes
      | _ => exact fits.elim
  | blob kind lengthWidth valid =>
      cases value with
      | string bytes => exact decodes_blob kind valid fits
      | _ => exact fits.elim
  | string displayWidth valid =>
      cases value with
      | string bytes => exact decodes_string valid fits
      | _ => exact fits.elim
  | choice kind asString packLength valid =>
      cases value with
      | string bytes => exact decodes_choice kind asString valid fits
      | _ => exact fits.elim
  | varchar maxLength valid =>
      cases value with
      | string bytes =>
          have maximum : leNat (leBytes 2 maxLength) = maxLength := leNat_leBytes_of_lt valid
          have decodes : Decodes StringReader.mk
              (readCellData ((varchar maxLength valid).info nullable))
              (leBytes (prefixWidth (leNat (leBytes 2 maxLength))) bytes.length ++ bytes)
              (.string bytes) := by
            have lengthFits :
                bytes.length < 256 ^ prefixWidth (leNat (leBytes 2 maxLength)) := by
              rw [maximum]
              exact fits
            exact (decodes_readPrefixed lengthFits).bind_pure
          rwa [maximum] at decodes
      | _ => exact fits.elim

end Cells

structure ColumnDef where
  spec : ColumnSpec
  nullable : Bool

namespace ColumnDef

def info (column : ColumnDef) : ColumnInfo :=
  column.spec.info column.nullable

/-- The cells that a column can hold; `none` is a null. -/
def Fits (column : ColumnDef) : Option Value → Prop
  | none => column.nullable = true
  | some value => column.spec.Fits value

/-- Nulls are encoded in the null bitmap alone. -/
def encodeCell (column : ColumnDef) : Option Value → Bytes
  | none => []
  | some value => column.spec.encodeCell value

end ColumnDef

/-- A row as it stands in a rows event. -/
structure RowImage (columns : List ColumnDef) where
  cells : List (Option Value)
  nullBitmap : Bytes
  fits : List.Forall₂ ColumnDef.Fits columns cells
  packs : Packs (cells.map Option.isNone) nullBitmap

namespace RowImage

variable {columns : List ColumnDef}

def encodeCells : List ColumnDef → List (Option Value) → Bytes
  | column :: columns, cell :: cells => column.encodeCell cell ++ encodeCells columns cells
  | _, _ => []

def encode (row : RowImage columns) : Bytes :=
  row.nullBitmap ++ encodeCells columns row.cells

def values (row : RowImage columns) : List Value :=
  row.cells.map fun cell => cell.getD .null

theorem encode_ne_nil (nonempty : columns ≠ []) (row : RowImage columns) : row.encode ≠ [] := by
  have cells : row.cells.length = columns.length := row.fits.length_eq.symm
  have some : 0 < columns.length := List.length_pos_of_ne_nil nonempty
  have bitmap : 0 < row.nullBitmap.length := by
    rw [row.packs.1, List.length_map, cells]
    omega
  intro empty
  rw [encode, List.append_eq_nil_iff] at empty
  rw [empty.1] at bitmap
  exact absurd bitmap (lt_irrefl 0)

end RowImage

/-- A change of a given type with the images of its rows. -/
inductive Change (columns : List ColumnDef) : WriteType → Type where
  | insert (post : RowImage columns) : Change columns .insert
  | update (pre post : RowImage columns) : Change columns .update
  | delete (pre : RowImage columns) : Change columns .delete

namespace Change

variable {columns : List ColumnDef} {writeType : WriteType}

def encode : Change columns writeType → Bytes
  | insert post => post.encode
  | update pre post => pre.encode ++ post.encode
  | delete pre => pre.encode

/-- The change as the processor returns it. -/
def rowChange : Change columns writeType → RowChange
  | insert post => { post := post.values, postBytes := post.encode.length }
  | update pre post =>
      { pre := pre.values
        preBytes := pre.encode.length
        post := post.values
        postBytes := post.encode.length }
  | delete pre => { pre := pre.values, preBytes := pre.encode.length }

theorem encode_ne_nil (nonempty : columns ≠ []) (change : Change columns writeType) :
    change.encode ≠ [] := by
  cases change with
  | insert post => exact post.encode_ne_nil nonempty
  | update pre post =>
      intro empty
      exact pre.encode_ne_nil nonempty (List.append_eq_nil_iff.mp empty).1
  | delete pre => exact pre.encode_ne_nil nonempty

end Change

structure TableDef where
  databaseName : Bytes
  tableName : Bytes
  columns : List ColumnDef
  databaseNameFits : databaseName.length < 256
  tableNameFits : tableName.length < 256
  nonempty : columns ≠ []
  columnsFit : columns.length < 2 ^ 63

def TableDef.info (table : TableDef) : BinlogTableInfo where
  databaseName := table.databaseName
  tableName := table.tableName
  columns := table.columns.map ColumnDef.info

section Rows

open BinlogProcessor

variable {columns : List ColumnDef}

theorem decodes_readCell {column : ColumnDef} {cell : Option Value} (fits : column.Fits cell) :
    Decodes StringReader.mk (readCell column.info cell.isNone) (column.encodeCell cell)
      (cell.getD .null) := by
  cases cell with
  | none =>
      have nullable : column.info.nullable = true := fits
      simp only [readCell, nullable]
      exact Decodes.pure Value.null
  | some value => exact decodes_readCellData fits

theorem decodes_cells {cells : List (Option Value)}
    (fits : List.Forall₂ ColumnDef.Fits columns cells) :
    Decodes StringReader.mk
      (((columns.map ColumnDef.info).zip (cells.map Option.isNone)).mapM
        fun (ci, isNull) => readCell ci isNull)
      (RowImage.encodeCells columns cells) (cells.map fun cell => cell.getD .null) := by
  induction fits with
  | nil => exact Decodes.pure []
  | cons fitsCell fitsCells ih =>
      simp only [List.map_cons, List.zip_cons_cons, List.mapM_cons, RowImage.encodeCells]
      exact (decodes_readCell fitsCell).bind ih.bind_pure

theorem decodes_readRowData {ti : BinlogTableInfo}
    (tableColumns : ti.columns = columns.map ColumnDef.info) (row : RowImage columns) :
    Decodes StringReader.mk (readRowData ti) row.encode row.values := by
  have length : (row.cells.map Option.isNone).length = ti.columns.length := by
    rw [tableColumns, List.length_map, List.length_map, row.fits.length_eq]
  have bitmap := decodes_getBitmask row.packs
  rw [length] at bitmap
  apply bitmap.bind
  rw [tableColumns]
  exact decodes_cells row.fits

theorem location_eq (offset : ℕ) (rest : Bytes) :
    location { offset := offset, rest := rest } =
      .ok offset { offset := offset, rest := rest } := rfl

theorem decodes_readRowChange {ti : BinlogTableInfo}
    (tableColumns : ti.columns = columns.map ColumnDef.info) {writeType : WriteType}
    {preimage : Bool} (preimageOfUpdate : writeType = .update → preimage = true)
    (change : Change columns writeType) :
    Decodes StringReader.mk (readRowChange ti writeType preimage) change.encode
      change.rowChange := by
  have decodesRow := fun row => decodes_readRowData tableColumns row
  intro offset rest
  rw [readRowChange, Stateful.bind_of_ok (location_eq _ _)]
  cases change with
  | insert post =>
      simp only [Change.encode]
      rw [Stateful.bind_of_ok (decodesRow post offset rest),
        Stateful.bind_of_ok (location_eq _ _), Nat.add_sub_cancel_left]
      rfl
  | update pre post =>
      simp only [Change.encode, preimageOfUpdate rfl, if_true, List.append_assoc]
      rw [Stateful.bind_of_ok (decodesRow pre offset (post.encode ++ rest)),
        Stateful.bind_of_ok (location_eq _ _),
        Stateful.bind_of_ok (decodesRow post _ rest),
        Stateful.bind_of_ok (location_eq _ _), Nat.add_sub_cancel_left, Nat.add_sub_cancel_left,
        List.length_append, Nat.add_assoc]
      rfl
  | delete pre =>
      simp only [Change.encode]
      rw [Stateful.bind_of_ok (decodesRow pre offset rest),
        Stateful.bind_of_ok (location_eq _ _), Nat.add_sub_cancel_left]
      rfl

theorem readRowChanges_ok {ti : BinlogTableInfo} (nonempty : columns ≠ [])
    (tableColumns : ti.columns = columns.map ColumnDef.info) {writeType : WriteType}
    {preimage : Bool} (preimageOfUpdate : writeType = .update → preimage = true)
    (changes : List (Change columns writeType)) (offset fuel : ℕ)
    (enough : changes.length < fuel) :
    readRowChanges ti writeType preimage fuel
        { offset := offset, rest := changes.flatMap Change.encode } =
      .ok (changes.map Change.rowChange)
        { offset := offset + (changes.flatMap Change.encode).length, rest := [] } := by
  induction changes generalizing offset fuel with
  | nil =>
      rcases Nat.exists_eq_add_of_lt enough with ⟨more, rfl⟩
      rfl
  | cons change changes ih =>
      rcases Nat.exists_eq_add_of_lt enough with ⟨more, rfl⟩
      have more' : (change :: changes).length + more + 1 = changes.length + 1 + more + 1 := by simp
      have notEmpty : ((change :: changes).flatMap Change.encode).isEmpty = false := by
        rw [List.flatMap_cons, List.isEmpty_eq_false_iff]
        intro empty
        exact Change.encode_ne_nil nonempty change (List.append_eq_nil_iff.mp empty).1
      have atEnd : eof { offset := offset, rest := (change :: changes).flatMap Change.encode } =
          .ok false { offset := offset, rest := (change :: changes).flatMap Change.encode } := by
        rw [eof, notEmpty]
      have decodes := decodes_readRowChange tableColumns preimageOfUpdate change offset
        (changes.flatMap Change.encode)
      rw [more', readRowChanges, Stateful.bind_of_ok atEnd]
      simp only [Bool.false_eq_true, if_false, List.flatMap_cons]
      rw [Stateful.bind_of_ok decodes,
        Stateful.bind_of_ok (ih (offset + change.encode.length) _ (by omega)),
        List.length_append, Nat.add_assoc]
      rfl

end Rows

/-- A table map event of a table: what the encoding leaves open, within its range. -/
structure TableMapDef (table : TableDef) where
  header : BinlogEventHeader
  tableId : ℕ
  flags : ℕ
  databaseNameEnd : UInt8
  tableNameEnd : UInt8
  nullableBitmap : Bytes
  optionalMetadata : Bytes
  headerFits : header.Fits
  headerType : header.type = BinlogEventType.tableMapEvent.code
  tableIdFits : tableId < 2 ^ 48
  tableIdUsable : tableId ≠ 0xFFFFFF
  flagsFit : flags < 2 ^ 16
  nullablePacks : Packs (table.columns.map ColumnDef.nullable) nullableBitmap

namespace TableMapDef

variable {table : TableDef}

/-- The part that the processor reads. -/
def encodeUsed (map : TableMapDef table) : Bytes :=
  map.header.encode ++ (leBytes 6 map.tableId ++ (leBytes 2 map.flags ++
    ([UInt8.ofNat table.databaseName.length] ++ (table.databaseName ++ ([map.databaseNameEnd] ++
    ([UInt8.ofNat table.tableName.length] ++ (table.tableName ++ ([map.tableNameEnd] ++
    (varintBytes table.columns.length ++ (table.columns.map (fun column => column.spec.type.code) ++
    (varStringBytes (table.columns.flatMap fun column => column.spec.typeMeta) ++
    map.nullableBitmap)))))))))))

def encode (map : TableMapDef table) : Bytes :=
  map.encodeUsed ++ map.optionalMetadata

/-- The event as the processor returns it. -/
def event (map : TableMapDef table) : BinlogTableMapEvent where
  header := map.header
  tableId := map.tableId
  flags := map.flags
  ti := none

end TableMapDef

/-- The rows events that are encoded with version 1 or 2. -/
def rowsEventType (writeType : WriteType) (v2 : Bool) : BinlogEventType :=
  match writeType, v2 with
  | .insert, false => .writeRowsEventV1
  | .update, false => .updateRowsEventV1
  | .delete, false => .deleteRowsEventV1
  | .insert, true => .writeRowsEventV2
  | .update, true => .updateRowsEventV2
  | .delete, true => .deleteRowsEventV2

/-- A rows event of a table with the given columns: the changes and what the encoding leaves
open. -/
structure RowsEventDef (columns : List ColumnDef) where
  header : BinlogEventHeader
  writeType : WriteType
  v2 : Bool
  flags : ℕ
  extraData : Bytes
  presentBitmaps : List Bytes
  changes : List (Change columns writeType)
  headerFits : header.Fits
  headerType : header.type = (rowsEventType writeType v2).code
  flagsFit : flags < 2 ^ 16
  extraDataFits : extraData.length + 2 < 2 ^ 16
  presentCount : presentBitmaps.length = if writeType = .update then 2 else 1
  presentPacks : ∀ bitmap ∈ presentBitmaps, Packs (List.replicate columns.length true) bitmap

namespace RowsEventDef

variable {columns : List ColumnDef}

/-- The part up to the number of columns. -/
def encodeHead (rows : RowsEventDef columns) (tableId : ℕ) : Bytes :=
  rows.header.encode ++ (leBytes 6 tableId ++ (leBytes 2 rows.flags ++
    ((if rows.v2 then leBytes 2 (rows.extraData.length + 2) ++ rows.extraData else []) ++
    varintBytes columns.length)))

/-- The part before the rows. -/
def encodeStart (rows : RowsEventDef columns) (tableId : ℕ) : Bytes :=
  rows.header.encode ++ (leBytes 6 tableId ++ (leBytes 2 rows.flags ++
    ((if rows.v2 then leBytes 2 (rows.extraData.length + 2) ++ rows.extraData else []) ++
    (varintBytes columns.length ++ rows.presentBitmaps.flatten))))

def encode (rows : RowsEventDef columns) (tableId : ℕ) : Bytes :=
  rows.encodeStart tableId ++ rows.changes.flatMap Change.encode

/-- The event as the processor returns it, with the table that is known under the id. -/
def event (rows : RowsEventDef columns) (tableId : ℕ) (ti : BinlogTableInfo) : BinlogRowsEvent where
  header := rows.header
  writeType := rows.writeType
  tableId := tableId
  ti := ti
  flags := rows.flags
  extraData := if rows.v2 then rows.extraData else []
  rows := rows.changes.map Change.rowChange

end RowsEventDef

section Events

open BinlogProcessor

variable {table : TableDef}

theorem metadataBytesForColumnType_code (spec : ColumnSpec) :
    metadataBytesForColumnType spec.type.code = pure spec.typeMeta.length := by
  cases spec with
  | integer kind => cases kind <;> rfl
  | float => rfl
  | double => rfl
  | year => rfl
  | timestamp => rfl
  | blob kind _ _ => cases kind <;> rfl
  | string _ _ => rfl
  | choice kind asString _ _ => cases kind <;> cases asString <;> rfl
  | varchar _ _ => rfl

theorem decodes_readColumnInfos (columns : List ColumnDef) :
    Decodes StringReader.mk
      (readColumnInfos ((columns.map fun column => column.spec.type.code).zip
        (columns.map ColumnDef.nullable)))
      (columns.flatMap fun column => column.spec.typeMeta) (columns.map ColumnDef.info) := by
  rw [readColumnInfos, List.zip_map']
  apply Decodes.mapM_map
  intro column _
  simp only [metadataBytesForColumnType_code, pure_bind]
  exact (decodes_read rfl).bind_pure

theorem length_typeMeta_le (spec : ColumnSpec) : spec.typeMeta.length ≤ 2 := by
  cases spec <;> simp [ColumnSpec.typeMeta]

theorem length_typeMetas_le (columns : List ColumnDef) :
    (columns.flatMap fun column => column.spec.typeMeta).length ≤ 2 * columns.length := by
  induction columns with
  | nil => simp
  | cons column columns ih =>
      have head := length_typeMeta_le column.spec
      simp only [List.flatMap_cons, List.length_append, List.length_cons]
      omega

theorem columnInfos_ok (columns : List ColumnDef) :
    columnInfos (columns.map fun column => column.spec.type.code)
        (columns.flatMap fun column => column.spec.typeMeta) (columns.map ColumnDef.nullable) =
      .ok (columns.map ColumnDef.info) := by
  have decodes := decodes_readColumnInfos columns 0 []
  rw [List.append_nil] at decodes
  simp only [columnInfos, StringReader.ofString, decodes, if_true]

theorem decodes_getU8s (indices : List ℕ) (bytes : Bytes) (length : indices.length = bytes.length) :
    Decodes StringReader.mk (indices.mapM fun _ => getU8) bytes bytes := by
  induction bytes generalizing indices with
  | nil =>
      rw [List.length_eq_zero_iff.mp length]
      exact Decodes.pure []
  | cons byte bytes ih =>
      cases indices with
      | nil => simp at length
      | cons index indices =>
          rw [List.mapM_cons]
          exact (decodes_getU8 byte).bind (ih indices (by simpa using length)).bind_pure

theorem toNat_ofNat_length {bytes : Bytes} (fits : bytes.length < 256) :
    (UInt8.ofNat bytes.length).toNat = bytes.length := by
  rw [UInt8.toNat_ofNat']
  omega

theorem decodes_readTableMapEvent (map : TableMapDef table) :
    Decodes StringReader.mk readTableMapEvent map.encodeUsed (map.event, table.info) := by
  have rightType : ¬map.header.type ≠ BinlogEventType.tableMapEvent.code :=
    not_not.mpr map.headerType
  have columnsFit := table.columnsFit
  have metasFit : (table.columns.flatMap fun column => column.spec.typeMeta).length < 2 ^ 64 := by
    have bound := length_typeMetas_le table.columns
    omega
  have nullable := decodes_getBitmask map.nullablePacks
  rw [List.length_map] at nullable
  apply (BinlogEventHeader.decodes_getBinlogEventHeader map.headerFits).bind
  rw [if_neg rightType]
  apply (decodes_getLe map.tableIdFits).bind
  apply (decodes_getLe map.flagsFit).bind
  apply (decodes_getU8 _).bind
  apply (decodes_read (toNat_ofNat_length table.databaseNameFits).symm).bind
  apply (decodes_skip_one _).bind
  apply (decodes_getU8 _).bind
  apply (decodes_read (toNat_ofNat_length table.tableNameFits).symm).bind
  apply (decodes_skip_one _).bind
  apply (decodes_getVarint (by omega)).bind
  apply (decodes_getU8s _ _ (by simp)).bind
  apply (decodes_getVarString metasFit).bind
  rw [← List.append_nil map.nullableBitmap]
  apply nullable.bind
  rw [columnInfos_ok]
  exact Decodes.pure (map.event, table.info)

theorem writeTypeOf_rowsEventType (writeType : WriteType) (v2 : Bool) :
    writeTypeOf (rowsEventType writeType v2).code = some writeType := by
  cases writeType <;> cases v2 <;> rfl

theorem isV2_rowsEventType (writeType : WriteType) (v2 : Bool) :
    isV2 (rowsEventType writeType v2).code = v2 := by
  cases writeType <;> cases v2 <;> rfl

theorem hasPreimage_rowsEventType (writeType : WriteType) (v2 : Bool) :
    hasPreimage (rowsEventType writeType v2).code = decide (writeType = .update) := by
  cases writeType <;> cases v2 <;> rfl

theorem decodes_checkColumnsPresent {count : ℕ} {bitmap : Bytes}
    (packs : Packs (List.replicate count true) bitmap) :
    Decodes StringReader.mk (checkColumnsPresent count) bitmap () := by
  have present : (List.replicate count true).contains false = false := by simp
  have decodes := decodes_getBitmask packs
  rw [List.length_replicate] at decodes
  rw [← List.append_nil bitmap]
  apply decodes.bind
  rw [present]
  exact Decodes.pure ()

theorem decodes_checkImages {count : ℕ} (indices : List ℕ) (bitmaps : List Bytes)
    (length : indices.length = bitmaps.length)
    (packs : ∀ bitmap ∈ bitmaps, Packs (List.replicate count true) bitmap) :
    Decodes StringReader.mk (indices.forM fun _ => checkColumnsPresent count) bitmaps.flatten
      () := by
  induction bitmaps generalizing indices with
  | nil =>
      rw [List.length_eq_zero_iff.mp length]
      exact Decodes.pure ()
  | cons bitmap bitmaps ih =>
      cases indices with
      | nil => simp at length
      | cons index indices =>
          have first := decodes_checkColumnsPresent (packs bitmap (List.mem_cons_self ..))
          have others := ih indices (by simpa using length)
            fun later mem => packs later (List.mem_cons_of_mem bitmap mem)
          exact first.bind others

section RowsEvents

variable {columns : List ColumnDef} {tableId : ℕ} {ti : BinlogTableInfo}
  {tableMap : ℕ → Option BinlogTableInfo}

theorem decodes_readExtraData (rows : RowsEventDef columns) :
    Decodes StringReader.mk (readExtraData rows.header.type)
      (if rows.v2 then leBytes 2 (rows.extraData.length + 2) ++ rows.extraData else [])
      (if rows.v2 then rows.extraData else []) := by
  rw [readExtraData, rows.headerType, isV2_rowsEventType]
  cases rows.v2 with
  | true =>
      have fits := rows.extraDataFits
      have size : rows.extraData.length = sizeSub (rows.extraData.length + 2) 2 := by
        simp only [sizeSub]
        omega
      exact (decodes_getLe fits).bind (decodes_read size)
  | false => exact Decodes.pure []

theorem encodeStart_eq (rows : RowsEventDef columns) (tableId : ℕ) :
    rows.encodeStart tableId = rows.encodeHead tableId ++ rows.presentBitmaps.flatten := by
  simp only [RowsEventDef.encodeStart, RowsEventDef.encodeHead, List.append_assoc]

theorem decodes_readRowsEventHead (rows : RowsEventDef columns)
    (columnsFit : columns.length < 2 ^ 64)
    (tableIdFits : tableId < 2 ^ 48) (tableIdUsable : tableId ≠ 0xFFFFFF)
    (known : tableMap tableId = some ti) (columnCount : ti.columns.length = columns.length) :
    Decodes StringReader.mk (readRowsEventHead tableMap) (rows.encodeHead tableId)
      { rows.event tableId ti with rows := [] } := by
  have sameCount : ¬columns.length ≠ ti.columns.length := not_not.mpr columnCount.symm
  have writeType : writeTypeOf rows.header.type = some rows.writeType := by
    rw [rows.headerType, writeTypeOf_rowsEventType]
  apply (BinlogEventHeader.decodes_getBinlogEventHeader rows.headerFits).bind
  rw [writeType]
  apply (decodes_getLe tableIdFits).bind
  rw [if_neg tableIdUsable, known]
  apply (decodes_getLe rows.flagsFit).bind
  apply (decodes_readExtraData rows).bind
  rw [← List.append_nil (varintBytes columns.length)]
  apply (decodes_getVarint columnsFit).bind
  rw [if_neg sameCount]
  exact Decodes.pure _

theorem decodes_readRowsEventStart (rows : RowsEventDef columns)
    (columnsFit : columns.length < 2 ^ 64)
    (tableIdFits : tableId < 2 ^ 48) (tableIdUsable : tableId ≠ 0xFFFFFF)
    (known : tableMap tableId = some ti) (columnCount : ti.columns.length = columns.length) :
    Decodes StringReader.mk (readRowsEventStart tableMap) (rows.encodeStart tableId)
      { rows.event tableId ti with rows := [] } := by
  have images : (List.range (1 + (hasPreimage rows.header.type).toNat)).length =
      rows.presentBitmaps.length := by
    rw [List.length_range, rows.headerType, hasPreimage_rowsEventType, rows.presentCount]
    split <;> simp_all
  have packs := rows.presentPacks
  rw [← columnCount] at packs
  rw [encodeStart_eq]
  apply (decodes_readRowsEventHead rows columnsFit tableIdFits tableIdUsable known
    columnCount).bind
  exact (decodes_checkImages _ _ images packs).bind_pure

theorem readRowsEvent_ok (rows : RowsEventDef columns) (nonempty : columns ≠ [])
    (columnsFit : columns.length < 2 ^ 64) (tableIdFits : tableId < 2 ^ 48)
    (tableIdUsable : tableId ≠ 0xFFFFFF) (known : tableMap tableId = some ti)
    (tableColumns : ti.columns = columns.map ColumnDef.info) {fuel : ℕ}
    (enough : rows.changes.length < fuel) :
    ∃ after, readRowsEvent tableMap fuel (.ofString (rows.encode tableId)) =
      .ok (rows.event tableId ti) after := by
  have columnCount : ti.columns.length = columns.length := by rw [tableColumns, List.length_map]
  have started := decodes_readRowsEventStart rows columnsFit tableIdFits tableIdUsable known
    columnCount 0 (rows.changes.flatMap Change.encode)
  have preimage : rows.writeType = .update → hasPreimage rows.header.type = true := by
    intro update
    rw [rows.headerType, hasPreimage_rowsEventType, update]
    rfl
  have changes := readRowChanges_ok nonempty tableColumns preimage rows.changes
    (0 + (rows.encodeStart tableId).length) fuel enough
  rw [readRowsEvent, StringReader.ofString, RowsEventDef.encode, Stateful.bind_of_ok started]
  exact ⟨_, Stateful.bind_of_ok changes⟩

end RowsEvents

end Events

/-- The processor after it has been told of a table. -/
def BinlogProcessor.mapped (processor : BinlogProcessor) {table : TableDef}
    (map : TableMapDef table) : BinlogProcessor :=
  { processor with
    position := map.header.endPosition
    tableMap := Function.update processor.tableMap map.tableId (some table.info) }

theorem parseTableMapEvent_encode {table : TableDef} (map : TableMapDef table)
    (processor : BinlogProcessor) :
    BinlogProcessor.parseTableMapEvent map.encode processor =
      .ok map.event (processor.mapped map) := by
  have tableRead := decodes_readTableMapEvent map 0 map.optionalMetadata
  have read : BinlogProcessor.reading map.encode BinlogProcessor.readTableMapEvent processor =
      .ok (map.event, table.info) processor := by
    simp only [BinlogProcessor.reading, StringReader.ofString, TableMapDef.encode, tableRead]
  rw [BinlogProcessor.parseTableMapEvent, Stateful.bind_of_ok read]
  rfl

/-- A table map event followed by a rows event of the table is decoded to the encoded row
changes; a bound on the rows that exceeds their number is never reached. -/
theorem parse_encoded_rows (table : TableDef) (map : TableMapDef table)
    (rows : RowsEventDef table.columns) (processor : BinlogProcessor) {fuel : ℕ}
    (enough : rows.changes.length < fuel) :
    ∃ mapped : BinlogProcessor,
      BinlogProcessor.parseTableMapEvent map.encode processor = .ok map.event mapped ∧
        BinlogProcessor.parseRowsEvent fuel (rows.encode map.tableId) mapped =
          .ok (rows.event map.tableId table.info)
            { processor with
              position := rows.header.endPosition
              tableMap := Function.update processor.tableMap map.tableId (some table.info) } := by
  have known : (processor.mapped map).tableMap map.tableId = some table.info :=
    Function.update_self ..
  have columnsFit : table.columns.length < 2 ^ 64 := table.columnsFit.trans (by norm_num)
  rcases readRowsEvent_ok rows table.nonempty columnsFit map.tableIdFits map.tableIdUsable known
    rfl enough with ⟨after, rowsRead⟩
  refine ⟨processor.mapped map, parseTableMapEvent_encode map processor, ?_⟩
  rw [BinlogProcessor.parseRowsEvent_eq, rowsRead]
  rfl

section Sample

/-- A table with a nullable integer and a string of up to 300 bytes. -/
def sampleTable : TableDef where
  databaseName := [0x64]
  tableName := [0x74]
  columns := [⟨.integer .int, true⟩, ⟨.varchar 300 (by decide), false⟩]
  databaseNameFits := by decide
  tableNameFits := by decide
  nonempty := by simp
  columnsFit := by decide

def sampleHeader (type : UInt8) : BinlogEventHeader where
  timestamp := 1
  type := type
  serverId := 1
  length := 19
  endPosition := 200
  flags := 0

theorem sampleHeader_fits (type : UInt8) : (sampleHeader type).Fits where
  timestamp := by simp [sampleHeader]
  serverId := by simp [sampleHeader]
  length := by simp [sampleHeader]
  endPosition := by simp [sampleHeader]
  flags := by simp [sampleHeader]

def sampleMap : TableMapDef sampleTable where
  header := sampleHeader 19
  tableId := 66
  flags := 1
  databaseNameEnd := 0
  tableNameEnd := 0
  nullableBitmap := [1]
  optionalMetadata := []
  headerFits := sampleHeader_fits 19
  headerType := rfl
  tableIdFits := by decide
  tableIdUsable := by decide
  flagsFit := by decide
  nullablePacks := by decide

/-- An update of one row, which sets the integer to null. -/
def sampleRows : RowsEventDef sampleTable.columns where
  header := sampleHeader 31
  writeType := .update
  v2 := true
  flags := 1
  extraData := []
  presentBitmaps := [[3], [0xFF]]
  changes := [.update
    { cells := [some (.uint64 7), some (.string [0x61])]
      nullBitmap := [0xFC]
      fits := .cons (by decide : 7 < 256 ^ 4) (.cons (by decide : 1 < 256 ^ 2) .nil)
      packs := by decide }
    { cells := [none, some (.string [0x62])]
      nullBitmap := [1]
      fits := .cons rfl (.cons (by decide : 1 < 256 ^ 2) .nil)
      packs := by decide }]
  headerFits := sampleHeader_fits 31
  headerType := rfl
  flagsFit := by decide
  extraDataFits := by decide
  presentCount := rfl
  presentPacks := by decide

theorem parse_sampleRows :
    ∃ mapped : BinlogProcessor,
      BinlogProcessor.parseTableMapEvent sampleMap.encode .create = .ok sampleMap.event mapped ∧
        BinlogProcessor.parseRowsEvent 2 (sampleRows.encode 66) mapped =
          .ok (sampleRows.event 66 sampleTable.info)
            { BinlogProcessor.create with
              position := 200
              tableMap := Function.update (fun _ => none) 66 (some sampleTable.info) } :=
  parse_encoded_rows sampleTable sampleMap sampleRows .create (by decide)

end Sample

end EventAsync.MySQL
