import EventAsync.MySQL.BinlogRows

/-!
# Reading rows events

Whatever the bytes of an event are, reading never goes backwards, and the steps
of the loop over the rows end by themselves.  A column whose metadata has the
size that its type calls for passes all checks of its metadata.
-/

namespace EventAsync.MySQL

open ByteCodec StringReader

namespace BinlogProcessor

/-- A column has as much metadata as its type calls for. -/
def ColumnFits (ci : ColumnInfo) : Prop :=
  ∀ reader, metadataBytesForColumnType ci.type reader = .ok ci.typeMeta.length reader

/-- The exceptions of the branches of `read_cell_data` that reject the metadata of a column. -/
def InvalidTypeOptions (stop : Stop) : Prop :=
  stop = .runtimeError "invalid type options" ∨
    stop = .raised (.logicError "invalid type options")

instance (stop : Stop) : Decidable (InvalidTypeOptions stop) :=
  inferInstanceAs (Decidable (_ ∨ _))

end BinlogProcessor

open BinlogProcessor

/-- Reading never goes backwards and never stops for lack of fuel. If the columns are `typed`, their
metadata is not rejected. -/
def Reads {Result : Type} (typed : Prop) (action : ReaderM Result) : Prop :=
  Stateful.Respects (fun before after => after.rest.length ≤ before.rest.length)
    (fun stop => stop ≠ .outOfFuel ∧ (typed → ¬InvalidTypeOptions stop)) action

namespace Reads

variable {First Second : Type} {typed : Prop}

theorem pure (value : First) : Reads typed (Pure.pure value : ReaderM First) := by
  intro reader
  exact le_rfl

theorem throw {stop : Stop} (permitted : stop ≠ .outOfFuel ∧ ¬InvalidTypeOptions stop) :
    Reads typed (MonadExcept.throw stop : ReaderM First) := by
  intro reader
  exact ⟨le_rfl, permitted.1, fun _ => permitted.2⟩

theorem bind {action : ReaderM First} {next : First → ReaderM Second} (first : Reads typed action)
    (second : ∀ value, Reads typed (next value)) : Reads typed (action >>= next) := by
  refine Stateful.Respects.bind ?_ first second
  intro before middle after earlier later
  exact later.trans earlier

/-- A check that raises, followed by the rest of the computation. -/
theorem check {condition : Prop} [Decidable condition] {stop : Stop}
    (permitted : stop ≠ .outOfFuel ∧ ¬InvalidTypeOptions stop) {next : Unit → ReaderM Second}
    (passed : Reads typed (next ())) :
    Reads typed (if condition then MonadExcept.throw stop >>= next else next ()) := by
  refine Stateful.Respects.check ?_ ⟨permitted.1, fun _ => permitted.2⟩ passed
  intro reader
  exact le_rfl

/-- A check of the metadata, which columns that are `typed` pass. -/
theorem checkLength {ci : ColumnInfo} {size : ℕ} {stop : Stop} (raises : stop ≠ .outOfFuel)
    (length : typed → ci.typeMeta.length = size) {next : Unit → ReaderM Second}
    (passed : Reads typed (next ())) :
    Reads typed (if ci.typeMeta.length ≠ size then MonadExcept.throw stop >>= next
      else next ()) := by
  by_cases holds : ci.typeMeta.length = size
  · rw [if_neg (not_not.mpr holds)]
    exact passed
  · rw [if_pos holds]
    intro reader
    exact ⟨le_rfl, raises, fun isTyped => absurd (length isTyped) holds⟩

theorem read (size : ℕ) : Reads typed (StringReader.read size) := by
  intro reader
  simp [StringReader.read]

theorem remaining : Reads typed StringReader.remaining :=
  fun _ => le_rfl

theorem location : Reads typed StringReader.location :=
  fun _ => le_rfl

theorem getBytes (size : ℕ) : Reads typed (StringReader.getBytes size) :=
  bind remaining fun _ => check (by decide) (read size)

theorem getU8 : Reads typed StringReader.getU8 :=
  bind (getBytes 1) fun _ => pure _

theorem getLe (width : ℕ) : Reads typed (StringReader.getLe width) :=
  bind (getBytes width) fun _ => pure _

theorem getBe (width : ℕ) : Reads typed (StringReader.getBe width) :=
  bind (getBytes width) fun _ => pure _

theorem getVarint : Reads typed StringReader.getVarint := by
  apply bind getU8
  intro v
  split
  · exact pure _
  · split
    · exact throw (by decide)
    · split
      · exact getLe 2
      · split
        · exact getLe 3
        · split
          · exact getLe 8
          · exact throw (by decide)

theorem getBitmask (numBits : ℕ) : Reads typed (StringReader.getBitmask numBits) :=
  bind (read _) fun _ => check (by decide) (pure _)

theorem mapM {Item : Type} {decoder : Item → ReaderM First} (items : List Item)
    (each : ∀ item ∈ items, Reads typed (decoder item)) : Reads typed (items.mapM decoder) := by
  induction items with
  | nil => exact pure []
  | cons item items ih =>
      rw [List.mapM_cons]
      apply bind (each item (List.mem_cons_self ..))
      intro _
      apply bind (ih fun other mem => each other (List.mem_cons_of_mem item mem))
      intro _
      exact pure _

theorem forM {Item : Type} {action : Item → ReaderM Unit} (items : List Item)
    (each : ∀ item, Reads typed (action item)) : Reads typed (items.forM action) := by
  induction items with
  | nil => exact pure ()
  | cons item items ih => exact bind (each item) fun _ => ih

theorem readDatetimeFractionalPart (precision : UInt8) :
    Reads typed (BinlogProcessor.readDatetimeFractionalPart precision) := by
  unfold BinlogProcessor.readDatetimeFractionalPart
  split
  · exact pure 0
  · exact bind getU8 fun _ => pure _
  · exact bind getU8 fun _ => pure _
  · exact bind (getBe 2) fun _ => pure _
  · exact bind (getBe 2) fun _ => pure _
  · exact getBe 3
  · exact getBe 3
  · exact throw (by decide)

theorem readBlobSize (metaLength : UInt8) :
    Reads typed (BinlogProcessor.readBlobSize metaLength) := by
  unfold BinlogProcessor.readBlobSize
  split
  · exact bind getU8 fun _ => pure _
  · exact getLe 2
  · exact getLe 3
  · exact getLe 4
  · exact throw (by decide)

theorem readPrefixed (maxLength : ℕ) : Reads typed (BinlogProcessor.readPrefixed maxLength) := by
  unfold BinlogProcessor.readPrefixed
  split
  · exact bind (getLe 2) fun size => read size
  · exact bind getU8 fun size => read size.toNat

variable {ci : ColumnInfo}

theorem readBlobData (length : typed → ci.typeMeta.length = 1) :
    Reads typed (BinlogProcessor.readBlobData ci) := by
  unfold BinlogProcessor.readBlobData
  apply checkLength (by decide) length
  apply bind (readBlobSize _)
  intro size
  exact bind (read size) fun _ => pure _

theorem readStringData (length : typed → ci.typeMeta.length = 2) :
    Reads typed (BinlogProcessor.readStringData ci) := by
  unfold BinlogProcessor.readStringData
  apply checkLength (by decide) length
  dsimp only
  split
  · exact bind (read _) fun _ => pure _
  · exact bind (readPrefixed _) fun _ => pure _

theorem readVarcharData (length : typed → ci.typeMeta.length = 2) :
    Reads typed (BinlogProcessor.readVarcharData ci) := by
  unfold BinlogProcessor.readVarcharData
  apply checkLength (by decide) length
  exact bind (readPrefixed _) fun _ => pure _

theorem readTimestamp2Data (length : typed → ci.typeMeta.length = 1) :
    Reads typed (BinlogProcessor.readTimestamp2Data ci) := by
  apply bind (getLe 4)
  intro _
  apply checkLength (by decide) length
  split
  · exact bind (read _) fun _ => pure _
  · exact pure _

theorem readDatetime2Data (length : typed → ci.typeMeta.length = 1) :
    Reads typed (BinlogProcessor.readDatetime2Data ci) := by
  unfold BinlogProcessor.readDatetime2Data
  apply checkLength (by decide) length
  apply bind (getBe 4)
  intro _
  apply bind getU8
  intro _
  exact bind (readDatetimeFractionalPart _) fun _ => pure _

theorem readTime2Data (length : typed → ci.typeMeta.length = 1) :
    Reads typed (BinlogProcessor.readTime2Data ci) := by
  unfold BinlogProcessor.readTime2Data
  apply checkLength (by decide) length
  apply bind (getBe 3)
  intro _
  exact bind (readDatetimeFractionalPart _) fun _ => pure _

theorem length_of_sized {size : ℕ} {reader : StringReader}
    (sized : (.ok size reader : EStateM.Result Stop StringReader ℕ) =
      .ok ci.typeMeta.length reader) : ci.typeMeta.length = size := by
  injection sized with length
  exact length.symm

/-- The switch over the column types agrees with that of `metadata_bytes_for_column_type`. -/
theorem readCellData (fits : typed → ColumnFits ci) :
    Reads typed (BinlogProcessor.readCellData ci) := by
  have sized := fun isTyped => fits isTyped (.ofString [])
  unfold BinlogProcessor.readCellData
  simp only [metadataBytesForColumnType] at sized
  cases code : ColumnType.ofCode ci.type with
  | none => exact throw (by decide)
  | some columnType =>
      rw [code] at sized
      cases columnType with
      | tNull => exact pure _
      | tTinyint => exact bind getU8 fun _ => pure _
      | tYear => exact bind getU8 fun _ => pure _
      | tSmallint => exact bind (getLe 2) fun _ => pure _
      | tMediumint => exact bind (getLe 3) fun _ => pure _
      | tInt => exact bind (getLe 4) fun _ => pure _
      | tFloat => exact bind (getLe 4) fun _ => pure _
      | tTimestamp => exact bind (getLe 4) fun _ => pure _
      | tBigint => exact bind (getLe 8) fun _ => pure _
      | tDouble => exact bind (getLe 8) fun _ => pure _
      | tTinyblob => exact readBlobData fun isTyped => length_of_sized (sized isTyped)
      | tMediumblob => exact readBlobData fun isTyped => length_of_sized (sized isTyped)
      | tLongblob => exact readBlobData fun isTyped => length_of_sized (sized isTyped)
      | tBlob => exact readBlobData fun isTyped => length_of_sized (sized isTyped)
      | tGeometry => exact readBlobData fun isTyped => length_of_sized (sized isTyped)
      | tJson => exact readBlobData fun isTyped => length_of_sized (sized isTyped)
      | tEnum => exact readStringData fun isTyped => length_of_sized (sized isTyped)
      | tSet => exact readStringData fun isTyped => length_of_sized (sized isTyped)
      | tString => exact readStringData fun isTyped => length_of_sized (sized isTyped)
      | tVarchar => exact readVarcharData fun isTyped => length_of_sized (sized isTyped)
      | tTimestamp2 => exact readTimestamp2Data fun isTyped => length_of_sized (sized isTyped)
      | tDatetime2 => exact readDatetime2Data fun isTyped => length_of_sized (sized isTyped)
      | tTime2 => exact readTime2Data fun isTyped => length_of_sized (sized isTyped)
      | _ => exact throw (by decide)

theorem readCell (fits : typed → ColumnFits ci) (isNull : Bool) :
    Reads typed (BinlogProcessor.readCell ci isNull) := by
  unfold BinlogProcessor.readCell
  split
  · exact check (by decide) (pure _)
  · exact readCellData fits

variable {ti : BinlogTableInfo}

theorem readCells (fits : typed → ∀ ci ∈ ti.columns, ColumnFits ci) (columnsNull : List Bool) :
    Reads typed ((ti.columns.zip columnsNull).mapM fun (ci, isNull) =>
      BinlogProcessor.readCell ci isNull) := by
  apply mapM
  rintro ⟨ci, isNull⟩ mem
  exact readCell (fun isTyped => fits isTyped ci (List.of_mem_zip mem).1) isNull

theorem readRowData (fits : typed → ∀ ci ∈ ti.columns, ColumnFits ci) :
    Reads typed (BinlogProcessor.readRowData ti) :=
  bind (getBitmask _) fun columnsNull => readCells fits columnsNull

theorem readRowChange (fits : typed → ∀ ci ∈ ti.columns, ColumnFits ci) (writeType : WriteType)
    (preimage : Bool) : Reads typed (BinlogProcessor.readRowChange ti writeType preimage) := by
  have image := readRowData fits
  apply bind location
  intro _
  cases writeType with
  | insert => exact bind image fun _ => bind location fun _ => pure _
  | update =>
      cases preimage with
      | true =>
          exact bind image fun _ => bind location fun _ => bind image fun _ =>
            bind location fun _ => pure _
      | false => exact bind image fun _ => bind location fun _ => pure _
  | delete => exact bind image fun _ => bind location fun _ => pure _

theorem readExtraData (type : UInt8) : Reads typed (BinlogProcessor.readExtraData type) := by
  unfold BinlogProcessor.readExtraData
  split
  · exact bind (getLe 2) fun size => read _
  · exact pure _

theorem checkColumnsPresent (numColumns : ℕ) :
    Reads typed (BinlogProcessor.checkColumnsPresent numColumns) := by
  apply bind (getBitmask numColumns)
  intro _
  split
  · exact throw (by decide)
  · exact pure _

theorem readRowsEventHead (tableMap : ℕ → Option BinlogTableInfo) :
    Reads typed (BinlogProcessor.readRowsEventHead tableMap) := by
  apply bind (bind (getBytes 19) fun _ => pure _)
  intro header
  split
  · exact throw (by decide)
  · apply bind (getLe 6)
    intro tableId
    apply check (by decide)
    dsimp only
    split
    · exact throw (by decide)
    · apply bind (getLe 2)
      intro _
      apply bind (readExtraData _)
      intro _
      apply bind getVarint
      intro _
      exact check (by decide) (pure _)

theorem readRowsEventStart (tableMap : ℕ → Option BinlogTableInfo) :
    Reads typed (BinlogProcessor.readRowsEventStart tableMap) := by
  apply bind (readRowsEventHead tableMap)
  intro ev
  exact bind (forM _ fun _ => checkColumnsPresent _) fun _ => pure _

end Reads

end EventAsync.MySQL
