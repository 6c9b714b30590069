import EventAsync.Lib.Agreement
import EventAsync.MySQL.QueryResults

/-!
# Rows as dicts and rows as vectors

`query_multi` has a loop for rows that are returned as dicts and another one for
rows that are returned as vectors.  Whatever the server sends, both take the
same bytes and raise at the same places, so that the two modes end with the same
error, or return the same result sets up to the form of their rows.
-/

namespace EventAsync.MySQL

open ByteCodec Stateful

/-- A dict row and a vector row with the same cells. -/
structure RowsAgree (columns : List ColumnDefinition) (dict : DictRow) (vec : List Value) :
    Prop where
  length : vec.length = columns.length
  /-- A name stands for the cell of the first column that bears it. -/
  first : ∀ before column after, columns = before ++ column :: after →
    (∀ earlier ∈ before, earlier.columnName ≠ column.columnName) →
      dict column.columnName = vec[before.length]?
  /-- There are no other keys. -/
  other : ∀ name, (∀ column ∈ columns, column.columnName ≠ name) → dict name = none

/-- Rows in the two forms. A result without rows is a vector of no rows in both. -/
inductive RowSetsAgree (columns : List ColumnDefinition) : Rows → Rows → Prop
  | noRows : RowSetsAgree columns (.vecs []) (.vecs [])
  | rows {dicts : List DictRow} {vecs : List (List Value)} :
      List.Forall₂ (RowsAgree columns) dicts vecs → RowSetsAgree columns (.dicts dicts) (.vecs vecs)

/-- Result sets that differ in the form of their rows only. -/
structure ResultSetsAgree (dicts vecs : ResultSet) : Prop where
  columns : dicts.columns = vecs.columns
  affectedRows : dicts.affectedRows = vecs.affectedRows
  insertId : dicts.insertId = vecs.insertId
  statusFlags : dicts.statusFlags = vecs.statusFlags
  warningCount : dicts.warningCount = vecs.warningCount
  rows : RowSetsAgree dicts.columns dicts.rows vecs.rows

/-- The names of the columns of a row with its cells. -/
def namedCells (columns : List ColumnDefinition) (vec : List Value) : List (Bytes × Value) :=
  (columns.map ColumnDefinition.columnName).zip vec

theorem lookup_namedCells_first {before after : List ColumnDefinition} {column : ColumnDefinition}
    {vec : List Value} (length : vec.length = (before ++ column :: after).length)
    (earlier : ∀ other ∈ before, other.columnName ≠ column.columnName) :
    (namedCells (before ++ column :: after) vec).lookup column.columnName =
      vec[before.length]? := by
  induction before generalizing vec with
  | nil =>
      cases vec with
      | nil => cases length
      | cons cell vec => simp [namedCells]
  | cons other before ih =>
      cases vec with
      | nil => cases length
      | cons cell vec =>
          have different : (column.columnName == other.columnName) = false := by
            simpa using (earlier other (List.mem_cons_self ..)).symm
          have rest := ih (Nat.succ.inj length) fun later mem =>
            earlier later (List.mem_cons_of_mem _ mem)
          simp only [namedCells, List.cons_append, List.map_cons, List.zip_cons_cons,
            List.lookup_cons, different, List.length_cons, List.getElem?_cons_succ]
          exact rest

theorem lookup_namedCells_other {columns : List ColumnDefinition} {name : Bytes}
    (other : ∀ column ∈ columns, column.columnName ≠ name) (vec : List Value) :
    (namedCells columns vec).lookup name = none := by
  rw [List.lookup_eq_none_iff]
  rintro ⟨key, cell⟩ mem
  have named := (List.of_mem_zip mem).1
  rcases List.mem_map.mp named with ⟨column, memColumn, rfl⟩
  simpa using (other column memColumn).symm

/-- A dict into which the cells of a row have been emplaced in order. -/
theorem rowsAgree_emplaced {columns : List ColumnDefinition} {vec : List Value}
    (length : vec.length = columns.length) :
    RowsAgree columns
      ((namedCells columns vec).foldl (fun row entry => row.emplace entry.1 entry.2) fun _ => none)
      vec := by
  refine ⟨length, ?_, ?_⟩
  · rintro before column after rfl earlier
    rw [foldl_emplace, lookup_namedCells_first length earlier]
    rfl
  · intro name other
    rw [foldl_emplace, lookup_namedCells_other other]
    rfl

namespace Client

variable (lib : Library)

/-- The loops over the columns of a row, from a dict that has some entries already. -/
theorem agrees_removeCells (columns : List ColumnDefinition) (row : DictRow) :
    Agrees (fun dict vec => vec.length = columns.length ∧
        dict = (namedCells columns vec).foldl (fun row entry => row.emplace entry.1 entry.2) row)
      (columns.foldlM (fun row definition => do
        return row.emplace definition.columnName (← removeCell lib definition)) row)
      (columns.mapM (removeCell lib)) := by
  induction columns generalizing row with
  | nil => exact Agrees.pure ⟨rfl, rfl⟩
  | cons definition columns ih =>
      rw [List.foldlM_cons, List.mapM_cons, bind_assoc]
      apply Agrees.bind_same
      intro cell
      rw [pure_bind, ← bind_pure (List.foldlM _ _ columns)]
      apply (ih _).bind
      rintro dict vec ⟨length, rfl⟩
      exact Agrees.pure ⟨congrArg Nat.succ length, rfl⟩

theorem agrees_removeRow (columns : List ColumnDefinition) {dicts : List DictRow}
    {vecs : List (List Value)} (agree : List.Forall₂ (RowsAgree columns) dicts vecs) :
    Agrees (fun left right => ∃ dicts vecs, left = .dicts dicts ∧ right = .vecs vecs ∧
        List.Forall₂ (RowsAgree columns) dicts vecs)
      (removeRow lib columns (.dicts dicts)) (removeRow lib columns (.vecs vecs)) := by
  apply (agrees_removeCells lib columns _).bind
  rintro dict vec ⟨length, rfl⟩
  refine Agrees.pure ⟨_, _, rfl, rfl, ?_⟩
  exact List.rel_append agree (.cons (rowsAgree_emplaced length) .nil)

theorem agrees_readRows (columns : List ColumnDefinition) (fuel : ℕ) {dicts : List DictRow}
    {vecs : List (List Value)} (agree : List.Forall₂ (RowsAgree columns) dicts vecs) :
    Agrees ResultSetsAgree (readRows lib columns fuel (.dicts dicts))
      (readRows lib columns fuel (.vecs vecs)) := by
  induction fuel generalizing dicts vecs with
  | zero => exact Agrees.throw _
  | succ fuel ih =>
      simp only [readRows]
      apply Agrees.bind_same
      intro _
      apply Agrees.bind_same
      intro first
      split
      · apply Agrees.zoom
        apply Agrees.bind_same
        intro _
        apply Agrees.bind_same
        intro warningCount
        apply Agrees.bind_same
        intro statusFlags
        exact Agrees.pure ⟨rfl, rfl, rfl, rfl, rfl, .rows agree⟩
      · apply (agrees_removeRow lib columns agree).zoom.bind
        rintro _ _ ⟨dicts, vecs, rfl, rfl, more⟩
        exact ih more

theorem agrees_removeOk : Agrees ResultSetsAgree removeOk removeOk := by
  apply Agrees.bind_same
  intro _
  apply Agrees.bind_same
  intro affectedRows
  apply Agrees.bind_same
  intro insertId
  apply Agrees.bind_same
  intro statusFlags
  apply Agrees.bind_same
  intro warningCount
  exact Agrees.pure ⟨rfl, rfl, rfl, rfl, rfl, .noRows⟩

theorem agrees_parseErrorBody {Left Right : Type} (related : Left → Right → Prop) :
    Agrees related parseErrorBody parseErrorBody := by
  apply Agrees.bind_same
  intro errorCode
  apply Agrees.bind_same
  intro sqlstate
  apply Agrees.bind_same
  intro message
  exact Agrees.throw _

theorem agrees_readResults (fuel : ℕ) {dicts vecs : List ResultSet}
    (agree : List.Forall₂ ResultSetsAgree dicts vecs) :
    Agrees (List.Forall₂ ResultSetsAgree) (readResults lib true fuel dicts)
      (readResults lib false fuel vecs) := by
  induction fuel generalizing dicts vecs with
  | zero => exact Agrees.throw _
  | succ fuel ih =>
      simp only [readResults]
      apply Agrees.bind_same
      intro _
      apply Agrees.bind_same
      intro responseCommand
      split
      · apply agrees_removeOk.zoom.bind
        intro res res' same
        have extended := List.rel_append agree (.cons same .nil)
        rw [same.statusFlags]
        split
        · exact ih extended
        · exact Agrees.pure extended
      · split
        · exact (agrees_parseErrorBody _).zoom
        · split
          · exact Agrees.throw _
          · apply Agrees.bind_same
            intro columnCount
            apply Agrees.bind_same
            intro columns
            apply (agrees_readRows lib columns fuel .nil).bind
            intro res res' same
            have extended := List.rel_append agree (.cons same .nil)
            rw [same.statusFlags]
            split
            · apply Agrees.bind_same
              intro _
              exact ih extended
            · exact Agrees.pure extended

/-- Whatever the server sends, both modes of a query end in the same state of the client, with the
same error or with result sets that differ in the form of their rows only. -/
theorem agrees_queryMulti (fuel : ℕ) (sql : Bytes) :
    Agrees (List.Forall₂ ResultSetsAgree) (queryMulti lib fuel sql true)
      (queryMulti lib fuel sql false) := by
  apply Agrees.bind_same
  intro _
  apply Agrees.zoom
  apply Agrees.bind_same
  intro _
  exact agrees_readResults lib fuel .nil

end Client

end EventAsync.MySQL
