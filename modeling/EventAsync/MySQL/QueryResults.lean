import EventAsync.MySQL.ClientTransfers

/-!
# Decoding the results of a query

The response to a query is a sequence of results, of which all but the last
announce that another one follows.  A result is an OK packet, or a result set:
the number of columns, their definitions, the rows and a terminator.  Before
every packet that `query_multi` reads its buffer must be empty.  What follows the
fields of a terminator is drained; what follows the fields of an OK packet is
not, so that an OK packet with further bytes makes the client raise if another
result follows it.
-/

namespace EventAsync.MySQL

open ByteCodec Decoding ProtocolBuffer Client

/-- A column definition with its two unused bytes. -/
structure ColumnPacket where
  definition : ColumnDefinition
  unused : ℕ
  charsetFits : definition.charset < 2 ^ 16
  maxValueLengthFits : definition.maxValueLength < 2 ^ 32
  flagsFit : definition.flags < 2 ^ 16
  unusedFits : unused < 2 ^ 16

def ColumnPacket.encode (column : ColumnPacket) : Bytes :=
  varStringBytes column.definition.catalogName ++
    (varStringBytes column.definition.databaseName ++
      (varStringBytes column.definition.tableName ++
        (varStringBytes column.definition.originalTableName ++
          (varStringBytes column.definition.columnName ++
            (varStringBytes column.definition.originalColumnName ++
              (varintBytes 0x0C ++ (leBytes 2 column.definition.charset ++
                (leBytes 4 column.definition.maxValueLength ++
                  ([column.definition.type] ++ (leBytes 2 column.definition.flags ++
                    ([column.definition.decimals] ++ leBytes 2 column.unused)))))))))))

/-- The text of a cell, or none for null, with its value. -/
structure TextCell where
  text : Option Bytes
  value : Value

namespace TextCell

def encode (cell : TextCell) : Bytes :=
  match cell.text with
  | none => [0xFB]
  | some text => varStringBytes text

/-- The value is the one that `parse_value` gives for the text. -/
def Parses (lib : Library) (definition : ColumnDefinition) (cell : TextCell) : Prop :=
  match cell.text with
  | none => cell.value = .null
  | some text => parseValue lib definition.type text = .ok cell.value

end TextCell

/-- A row with a cell for each column. -/
structure TextRow (lib : Library) (columns : List ColumnPacket) where
  cells : List TextCell
  parses : List.Forall₂ (fun column cell => cell.Parses lib column.definition) columns cells

def TextRow.encode {lib : Library} {columns : List ColumnPacket} (row : TextRow lib columns) :
    Bytes :=
  row.cells.flatMap TextCell.encode

/-- A row as a vector of values. -/
def TextRow.values {lib : Library} {columns : List ColumnPacket} (row : TextRow lib columns) :
    List Value :=
  row.cells.map TextCell.value

/-- A row as a dict: under each name the value of the first column with that name. -/
def TextRow.dict {lib : Library} {columns : List ColumnPacket} (row : TextRow lib columns) :
    DictRow := fun name =>
  ((columns.map fun column => column.definition.columnName).zip row.values).lookup name

def textRows {lib : Library} {columns : List ColumnPacket} (rowsAsDicts : Bool)
    (rows : List (TextRow lib columns)) : Rows :=
  if rowsAsDicts then .dicts (rows.map TextRow.dict) else .vecs (rows.map TextRow.values)

/-- The fields with which OK packets and terminators end; `info` stands for all further bytes. -/
structure ResultStatus where
  flags : ℕ
  warnings : ℕ
  info : Bytes
  flagsFit : flags < 2 ^ 16
  warningsFit : warnings < 2 ^ 16

/-- A result of a query. -/
inductive QueryResult (lib : Library) where
  | ok (affectedRows insertId : ℕ) (fits : affectedRows < 2 ^ 64 ∧ insertId < 2 ^ 64)
      (status : ResultStatus)
  | resultSet (columns : List ColumnPacket) (nonempty : columns ≠ [])
      (fits : columns.length < 2 ^ 64) (rows : List (TextRow lib columns)) (status : ResultStatus)

namespace QueryResult

variable {lib : Library}

def status : QueryResult lib → ResultStatus
  | ok _ _ _ status => status
  | resultSet _ _ _ _ status => status

/-- Another result is announced. -/
def More (result : QueryResult lib) : Prop :=
  moreResultsExist result.status.flags = true

instance (result : QueryResult lib) : Decidable result.More :=
  inferInstanceAs (Decidable (moreResultsExist result.status.flags = true))

def okPayload (affectedRows insertId : ℕ) (status : ResultStatus) : Bytes :=
  [0x00] ++ (varintBytes affectedRows ++ (varintBytes insertId ++ (leBytes 2 status.flags ++
    leBytes 2 status.warnings))) ++ status.info

/-- The affected rows and the insert id of a terminator are zero. -/
def terminator (status : ResultStatus) : Bytes :=
  [0xFE] ++ ([0x00, 0x00] ++ leBytes 2 status.flags) ++ (leBytes 2 status.warnings ++ status.info)

/-- The payloads of the packets of a result. -/
def payloads : QueryResult lib → List Bytes
  | ok affectedRows insertId _ status => [okPayload affectedRows insertId status]
  | resultSet columns _ _ rows status =>
      varintBytes columns.length :: (columns.map ColumnPacket.encode ++
        (rows.map TextRow.encode ++ [terminator status]))

theorem length_payloads_pos (result : QueryResult lib) : 0 < result.payloads.length := by
  cases result with
  | ok affectedRows insertId numbersFit status => exact Nat.one_pos
  | resultSet columns nonempty columnsFit rows status => exact Nat.succ_pos _

/-- What is encoded about columns and rows. -/
def columns : QueryResult lib → List ColumnDefinition
  | ok _ _ _ _ => []
  | resultSet columns _ _ _ _ => columns.map ColumnPacket.definition

def rows (rowsAsDicts : Bool) : QueryResult lib → Rows
  | ok _ _ _ _ => .vecs []
  | resultSet _ _ _ rows _ => textRows rowsAsDicts rows

def affectedRows : QueryResult lib → ℕ
  | ok affectedRows _ _ _ => affectedRows
  | resultSet _ _ _ _ _ => 0

def insertId : QueryResult lib → ℕ
  | ok _ insertId _ _ => insertId
  | resultSet _ _ _ _ _ => 0

/-- A `ResultSet` with the encoded columns and rows. -/
structure Matches (rowsAsDicts : Bool) (result : QueryResult lib) (res : ResultSet) : Prop where
  columns : res.columns = result.columns
  rows : res.rows = result.rows rowsAsDicts
  affectedRows : res.affectedRows = result.affectedRows
  insertId : res.insertId = result.insertId
  statusFlags : res.statusFlags = result.status.flags

/-- What is left in the buffer after the fields that are read; only a terminator is drained. -/
def leftover (result : QueryResult lib) : Bytes :=
  match result with
  | ok _ _ _ status => status.info
  | resultSet _ _ _ _ status =>
      if moreResultsExist status.flags then [] else leBytes 2 status.warnings ++ status.info

end QueryResult

/-- A well-formed response to a query: all results but the last announce another one. -/
structure QueryResponse (lib : Library) where
  before : List (QueryResult lib)
  last : QueryResult lib
  more : ∀ result ∈ before, result.More
  noMore : ¬last.More
  fits : ∀ result ∈ before ++ [last], ∀ payload ∈ result.payloads, payload.length < 2 ^ 24 - 1

namespace QueryResponse

variable {lib : Library}

def results (response : QueryResponse lib) : List (QueryResult lib) :=
  response.before ++ [response.last]

def payloads (response : QueryResponse lib) : List Bytes :=
  response.results.flatMap QueryResult.payloads

/-- The packets are numbered from 1 on. -/
def encode (response : QueryResponse lib) : Bytes :=
  packets 1 response.payloads

end QueryResponse

section Packets

open Buffer

variable {lib : Library}

theorem decodes_removeColumnDefinition (column : ColumnPacket)
    (fits : column.encode.length < 2 ^ 24) :
    Decodes front removeColumnDefinition column.encode column.definition := by
  have total := fits
  simp only [ColumnPacket.encode, varStringBytes, List.length_append] at total
  have header : ¬(0x0C : ℕ) ≠ 0x0C := by decide
  apply (decodes_removeVarString (by omega)).bind
  apply (decodes_removeVarString (by omega)).bind
  apply (decodes_removeVarString (by omega)).bind
  apply (decodes_removeVarString (by omega)).bind
  apply (decodes_removeVarString (by omega)).bind
  apply (decodes_removeVarString (by omega)).bind
  apply (decodes_removeVarint (by norm_num)).bind
  rw [if_neg header]
  apply (decodes_removeLe (by norm_num) column.charsetFits).bind
  apply (decodes_removeLe (by norm_num) column.maxValueLengthFits).bind
  apply (decodes_removeU8 column.definition.type).bind
  apply (decodes_removeLe (by norm_num) column.flagsFit).bind
  apply (decodes_removeU8 column.definition.decimals).bind
  exact (decodes_removeLe (by norm_num) column.unusedFits).bind_pure

/-- The first byte of a length-encoded integer. -/
theorem varintBytes_eq_cons (value : ℕ) :
    ∃ first others, varintBytes value = first :: others ∧ first ≠ 0xFB ∧ first ≠ 0xFF ∧
      (0 < value → first ≠ 0x00) ∧ (value < 2 ^ 24 → first ≠ 0xFE) := by
  simp only [varintBytes]
  split
  · rename_i low
    have number : (UInt8.ofNat value).toNat = value := by
      rw [UInt8.toNat_ofNat']
      omega
    have ne_of_ne : ∀ byte : UInt8, value ≠ byte.toNat → UInt8.ofNat value ≠ byte := by
      intro byte different equal
      rw [← equal] at different
      exact different number.symm
    have markers : (0xFB : UInt8).toNat = 0xFB ∧ (0xFF : UInt8).toNat = 0xFF ∧
        (0x00 : UInt8).toNat = 0 ∧ (0xFE : UInt8).toNat = 0xFE := ⟨rfl, rfl, rfl, rfl⟩
    refine ⟨UInt8.ofNat value, [], rfl, ne_of_ne 0xFB ?_, ne_of_ne 0xFF ?_,
      fun positive => ne_of_ne 0x00 ?_, fun _ => ne_of_ne 0xFE ?_⟩
    · omega
    · omega
    · omega
    · omega
  · split
    · exact ⟨0xFC, leBytes 2 value, rfl, by decide, by decide,
      fun _ => by decide, fun _ => by decide⟩
    · split
      · exact ⟨0xFD, leBytes 3 value, rfl, by decide, by decide, fun _ => by decide,
          fun _ => by decide⟩
      · exact ⟨0xFE, leBytes 8 value, rfl, by decide, by decide, fun _ => by decide, by omega⟩

theorem decodes_removeCell {definition : ColumnDefinition} {cell : TextCell}
    (parses : cell.Parses lib definition) (fits : cell.encode.length < 2 ^ 24) :
    Decodes front (removeCell lib definition) cell.encode cell.value := by
  rcases cell with ⟨text, value⟩
  intro offset rest
  cases text with
  | none =>
      have isNull : value = .null := parses
      have peeked : copyoutU8 (front offset ([0xFB] ++ rest)) =
          .ok 0xFB (front offset ([0xFB] ++ rest)) := copyoutU8_cons 0xFB rest
      have removed := decodes_removeU8 0xFB offset rest
      simp only [TextCell.encode, isNull]
      rw [removeCell, Stateful.bind_of_ok peeked, if_pos rfl, Stateful.bind_of_ok removed]
      rfl
  | some text =>
      have parsed : parseValue lib definition.type text = .ok value := parses
      have total : (varStringBytes text).length < 2 ^ 24 := fits
      simp only [varStringBytes, List.length_append] at total
      rcases varintBytes_eq_cons text.length with ⟨first, others, encoded, notNull, _⟩
      have content : varStringBytes text ++ rest = first :: (others ++ (text ++ rest)) := by
        simp only [varStringBytes, encoded, List.cons_append, List.append_assoc]
      have peeked : copyoutU8 (front offset (varStringBytes text ++ rest)) =
          .ok first (front offset (varStringBytes text ++ rest)) := by
        simp only [front, content]
        exact copyoutU8_cons first _
      have removed := decodes_removeVarString (by omega : text.length < 2 ^ 31) offset rest
      simp only [TextCell.encode]
      rw [removeCell, Stateful.bind_of_ok peeked, if_neg notNull, Stateful.bind_of_ok removed,
        parsed]
      rfl

theorem decodes_removeVecRow {columns : List ColumnPacket} {cells : List TextCell}
    (parses : List.Forall₂ (fun column cell => cell.Parses lib column.definition) columns cells)
    (fits : (cells.flatMap TextCell.encode).length < 2 ^ 24) :
    Decodes front (removeVecRow lib (columns.map ColumnPacket.definition))
      (cells.flatMap TextCell.encode) (cells.map TextCell.value) := by
  induction parses with
  | nil => exact Decodes.pure []
  | cons first others ih =>
      simp only [List.flatMap_cons, List.length_append] at fits
      simp only [removeVecRow, List.map_cons, List.mapM_cons, List.flatMap_cons]
      apply (decodes_removeCell first (by omega)).bind
      exact (ih (by omega)).bind_pure

theorem decodes_emplaceCells {columns : List ColumnPacket} {cells : List TextCell}
    (parses : List.Forall₂ (fun column cell => cell.Parses lib column.definition) columns cells)
    (fits : (cells.flatMap TextCell.encode).length < 2 ^ 24) (row : DictRow) :
    Decodes front ((columns.map ColumnPacket.definition).foldlM (fun row definition => do
        return row.emplace definition.columnName (← removeCell lib definition)) row)
      (cells.flatMap TextCell.encode)
      (((columns.map fun column => column.definition.columnName).zip
        (cells.map TextCell.value)).foldl (fun row entry => row.emplace entry.1 entry.2) row) := by
  induction parses generalizing row with
  | nil => exact Decodes.pure row
  | cons first others ih =>
      simp only [List.flatMap_cons, List.length_append] at fits
      simp only [List.map_cons, List.foldlM_cons, List.flatMap_cons, List.zip_cons_cons,
        List.foldl_cons]
      apply Decodes.bind (decodes_removeCell first (by omega)).bind_pure
      exact ih (by omega) _

/-- Entries that are emplaced one after the other: the first one under a name stays. -/
theorem foldl_emplace (entries : List (Bytes × Value)) (row : DictRow) (name : Bytes) :
    entries.foldl (fun row entry => row.emplace entry.1 entry.2) row name =
      (row name).or (entries.lookup name) := by
  induction entries generalizing row with
  | nil => simp
  | cons entry entries ih =>
      rcases entry with ⟨key, cell⟩
      rw [List.foldl_cons, ih, DictRow.emplace, List.lookup_cons]
      by_cases same : name = key
      · subst same
        cases known : row name with
        | none => simp
        | some value => simp [known]
      · have other : (name == key) = false := by simpa using same
        cases known : row key with
        | none => simp [other, Function.update_of_ne same]
        | some value => simp [other]

theorem decodes_removeRow {columns : List ColumnPacket} (row : TextRow lib columns)
    (fits : row.encode.length < 2 ^ 24) (rowsAsDicts : Bool) (rows : List (TextRow lib columns)) :
    Decodes front
      (removeRow lib (columns.map ColumnPacket.definition) (textRows rowsAsDicts rows))
      row.encode (textRows rowsAsDicts (rows ++ [row])) := by
  cases rowsAsDicts with
  | false =>
      have vec := decodes_removeVecRow row.parses fits
      simp only [textRows, removeRow, Bool.false_eq_true, if_false, List.map_append]
      exact vec.bind_pure
  | true =>
      have dict := decodes_emplaceCells row.parses fits fun _ => none
      have firsts : ((columns.map fun column => column.definition.columnName).zip
          (row.cells.map TextCell.value)).foldl
          (fun (row : DictRow) entry => row.emplace entry.1 entry.2) (fun _ => none) =
            row.dict := by
        funext name
        rw [foldl_emplace]
        rfl
      rw [firsts] at dict
      simp only [textRows, removeRow, if_true, List.map_append]
      exact dict.bind_pure

/-- A row does not look like a terminator. -/
theorem encode_row_eq_cons {columns : List ColumnPacket} (nonempty : columns ≠ [])
    (row : TextRow lib columns) (fits : row.encode.length < 2 ^ 24) :
    ∃ first others, row.encode = first :: others ∧ first ≠ 0xFE := by
  rcases row with ⟨cells, parses⟩
  cases parses with
  | nil => exact absurd rfl nonempty
  | @cons column cell columns cells parsesFirst parsesOthers =>
      simp only [TextRow.encode, List.flatMap_cons, List.length_append] at fits ⊢
      rcases cell with ⟨_ | text, value⟩
      · exact ⟨0xFB, _, rfl, by decide⟩
      · simp only [TextCell.encode, varStringBytes, List.length_append] at fits ⊢
        rcases varintBytes_eq_cons text.length with ⟨first, others, encoded, _, _, _, notTerminator⟩
        exact ⟨first, others ++ text ++ cells.flatMap TextCell.encode, by simp [encoded],
          notTerminator (by omega)⟩

def okResultSet (affectedRows insertId : ℕ) (status : ResultStatus) : ResultSet where
  columns := []
  rows := .vecs []
  affectedRows := affectedRows
  insertId := insertId
  statusFlags := status.flags
  warningCount := status.warnings

theorem decodes_removeOk {affectedRows insertId : ℕ} (affectedRowsFit : affectedRows < 2 ^ 64)
    (insertIdFits : insertId < 2 ^ 64) (status : ResultStatus) :
    Decodes front removeOk
      ([0x00] ++ (varintBytes affectedRows ++ (varintBytes insertId ++ (leBytes 2 status.flags ++
        leBytes 2 status.warnings))))
      (okResultSet affectedRows insertId status) := by
  apply (decodes_removeU8 0x00).bind
  apply (decodes_removeVarint affectedRowsFit).bind
  apply (decodes_removeVarint insertIdFits).bind
  apply (decodes_removeLe (by norm_num) status.flagsFit).bind
  exact (decodes_removeLe (by norm_num) status.warningsFit).bind_pure

/-- The result set of some rows, with what is read from the four bytes behind the first one of the
terminator. -/
def terminatedResultSet (columns : List ColumnDefinition) (rows : Rows) (warnings flags : ℕ) :
    ResultSet where
  columns := columns
  rows := rows
  affectedRows := 0
  insertId := 0
  statusFlags := flags
  warningCount := warnings

theorem decodes_removeTerminator (columns : List ColumnDefinition) (rows : Rows)
    {warnings flags : ℕ} (warningsFit : warnings < 2 ^ 16) (flagsFit : flags < 2 ^ 16) :
    Decodes front (removeTerminator columns rows)
      ([0xFE] ++ (leBytes 2 warnings ++ leBytes 2 flags))
      (terminatedResultSet columns rows warnings flags) := by
  apply (decodes_removeU8 0xFE).bind
  apply (decodes_removeLe (by norm_num) warningsFit).bind
  exact (decodes_removeLe (by norm_num) flagsFit).bind_pure

end Packets

/-- The state of a session in the middle of a response: the content of the buffer, the payloads of
the packets that are still to be read, and the bytes behind them. -/
def Session.Awaits (session : Session) (buf : Bytes) (payloads : List Bytes) (following : Bytes) :
    Prop :=
  ∃ seq, session.Holds seq buf (packets seq payloads ++ following)

section Loops

open Buffer

variable {lib : Library} {session : Session} {payload buf rest following : Bytes}
  {payloads : List Bytes}

theorem readCommand_next (awaits : session.Awaits [] (payload :: payloads) following)
    (fits : payload.length < 2 ^ 24) :
    ∃ after, Client.readCommand session = .ok () after ∧
      after.Awaits payload payloads following := by
  rcases awaits with ⟨seq, holds⟩
  rw [packets, List.append_assoc] at holds
  rcases Client.readCommand_ok holds fits with ⟨after, read, held⟩
  exact ⟨after, read, seq + 1, held⟩

theorem Session.Awaits.decode {Result : Type} {action : BufferM Result} {bytes : Bytes}
    {result : Result} (awaits : session.Awaits (bytes ++ rest) payloads following)
    (decodes : Decodes front action bytes result) :
    ∃ after, (liftM action : SessionM Result) session = .ok result after ∧
      after.Awaits rest payloads following := by
  rcases awaits with ⟨seq, holds⟩
  rcases holds.decode decodes with ⟨after, ends, held⟩
  exact ⟨after, ends, seq, held⟩

theorem Session.Awaits.decode_all {Result : Type} {action : BufferM Result} {bytes : Bytes}
    {result : Result} (awaits : session.Awaits bytes payloads following)
    (decodes : Decodes front action bytes result) :
    ∃ after, (liftM action : SessionM Result) session = .ok result after ∧
      after.Awaits [] payloads following := by
  rw [← List.append_nil bytes] at awaits
  exact awaits.decode decodes

theorem Session.Awaits.copyoutU8 {first : UInt8} (awaits : session.Awaits (first :: rest) payloads
    following) : (liftM copyoutU8 : SessionM UInt8) session = .ok first session := by
  rcases awaits with ⟨seq, holds⟩
  have content := holds.buf_eq
  rcases session with ⟨client, buf⟩
  subst content
  exact Stateful.zoom_of_ok (copyoutU8_cons first rest)

theorem readColumns_ok (columns : List ColumnPacket) (before : List ColumnDefinition)
    (fits : ∀ column ∈ columns, column.encode.length < 2 ^ 24) {fuel : ℕ}
    (enough : columns.length < fuel)
    (awaits : session.Awaits [] (columns.map ColumnPacket.encode ++ payloads) following) :
    ∃ after, readColumns (before.length + columns.length) fuel before session =
        .ok (before ++ columns.map ColumnPacket.definition) after ∧
      after.Awaits [] payloads following := by
  induction columns generalizing before fuel session with
  | nil =>
      cases fuel with
      | zero => simp at enough
      | succ fuel =>
          refine ⟨session, ?_, awaits⟩
          rw [readColumns, if_pos (by simp)]
          simp
          rfl
  | cons column columns ih =>
      cases fuel with
      | zero => simp at enough
      | succ fuel =>
          have columnFits := fits column (List.mem_cons_self ..)
          rcases readCommand_next awaits columnFits with ⟨loaded, read, awaitsColumn⟩
          rcases awaitsColumn.decode_all (decodes_removeColumnDefinition column columnFits) with
            ⟨decoded, removed, awaitsOthers⟩
          rcases ih (before ++ [column.definition])
            (fun later mem => fits later (List.mem_cons_of_mem _ mem))
            (Nat.lt_of_succ_lt_succ enough) awaitsOthers with ⟨after, ends, awaitsAfter⟩
          refine ⟨after, ?_, awaitsAfter⟩
          have count : (before ++ [column.definition]).length + columns.length =
              before.length + (column :: columns).length := by
            simp only [List.length_append, List.length_cons, List.length_nil]
            omega
          rw [count] at ends
          rw [readColumns, if_neg (by simp)]
          refine (Stateful.bind_of_ok read).trans ((Stateful.bind_of_ok removed).trans ?_)
          rw [ends, List.append_assoc]
          rfl

/-- The loop over the rows ends at a packet that starts with 0xFE, of which four further bytes are
read. -/
theorem readRows_ok {columns : List ColumnPacket} (nonempty : columns ≠ []) (rowsAsDicts : Bool)
    (rows before : List (TextRow lib columns)) {warnings flags : ℕ} {left : Bytes}
    (warningsFit : warnings < 2 ^ 16) (flagsFit : flags < 2 ^ 16)
    (fits : ∀ row ∈ rows, row.encode.length < 2 ^ 24)
    (terminatorFits : ([0xFE] ++ (leBytes 2 warnings ++ leBytes 2 flags) ++ left).length < 2 ^ 24)
    {fuel : ℕ} (enough : rows.length < fuel)
    (awaits : session.Awaits []
      (rows.map TextRow.encode ++ ([0xFE] ++ (leBytes 2 warnings ++ leBytes 2 flags) ++ left) ::
        payloads) following) :
    ∃ after, readRows lib (columns.map ColumnPacket.definition) fuel (textRows rowsAsDicts before)
        session =
      .ok (terminatedResultSet (columns.map ColumnPacket.definition)
        (textRows rowsAsDicts (before ++ rows)) warnings flags) after ∧
      after.Awaits left payloads following := by
  induction rows generalizing before fuel session with
  | nil =>
      cases fuel with
      | zero => simp at enough
      | succ fuel =>
          rcases readCommand_next awaits terminatorFits with ⟨loaded, read, awaitsTerminator⟩
          have peeked := awaitsTerminator.copyoutU8
          rcases awaitsTerminator.decode (decodes_removeTerminator
            (columns.map ColumnPacket.definition) (textRows rowsAsDicts before) warningsFit
            flagsFit) with ⟨after, removed, awaitsAfter⟩
          refine ⟨after, ?_, awaitsAfter⟩
          rw [readRows, Stateful.bind_of_ok read, Stateful.bind_of_ok peeked, if_pos rfl, removed,
            List.append_nil]
  | cons row rows ih =>
      cases fuel with
      | zero => simp at enough
      | succ fuel =>
          have rowFits := fits row (List.mem_cons_self ..)
          rcases encode_row_eq_cons nonempty row rowFits with ⟨first, others, encoded, notEnd⟩
          rcases readCommand_next awaits rowFits with ⟨loaded, read, awaitsRow⟩
          have peeked : (liftM copyoutU8 : SessionM UInt8) loaded = .ok first loaded := by
            rw [encoded] at awaitsRow
            exact awaitsRow.copyoutU8
          rcases awaitsRow.decode_all (decodes_removeRow row rowFits rowsAsDicts before) with
            ⟨decoded, removed, awaitsOthers⟩
          rcases ih (before ++ [row]) (fun later mem => fits later (List.mem_cons_of_mem _ mem))
            (Nat.lt_of_succ_lt_succ enough) awaitsOthers with ⟨after, ends, awaitsAfter⟩
          refine ⟨after, ?_, awaitsAfter⟩
          rw [readRows, Stateful.bind_of_ok read, Stateful.bind_of_ok peeked, if_neg notEnd,
            Stateful.bind_of_ok removed, ends, List.append_assoc]
          rfl

theorem drainAll_ok (awaits : session.Awaits buf payloads following) :
    ∃ after, (liftM drainAll : SessionM Unit) session = .ok () after ∧
      after.Awaits [] payloads following := by
  rcases awaits with ⟨seq, ⟨connection, isOpen, held⟩, number⟩
  have drained : drainAll session.buf = .ok () [] := by
    have ends : drainAll session.buf = .ok () (session.buf.drop session.buf.length) := rfl
    rwa [List.drop_length] at ends
  refine ⟨{ session with buf := [] }, Stateful.zoom_of_ok drained, seq, ⟨connection, isOpen, ?_⟩,
    number⟩
  exact ⟨rfl, held.incoming_eq, rfl, held.healthy⟩

theorem readResults_ok_step (rowsAsDicts : Bool) {affectedRows insertId : ℕ}
    (affectedRowsFit : affectedRows < 2 ^ 64) (insertIdFits : insertId < 2 ^ 64)
    (status : ResultStatus)
    (fits : (QueryResult.okPayload affectedRows insertId status).length < 2 ^ 24) (fuel : ℕ)
    (ret : List ResultSet)
    (awaits : session.Awaits [] (QueryResult.okPayload affectedRows insertId status :: payloads)
      following) :
    ∃ after, after.Awaits status.info payloads following ∧
      readResults lib rowsAsDicts (fuel + 1) ret session =
        if moreResultsExist status.flags then
          readResults lib rowsAsDicts fuel (ret ++ [okResultSet affectedRows insertId status]) after
        else .ok (ret ++ [okResultSet affectedRows insertId status]) after := by
  rcases readCommand_next awaits fits with ⟨loaded, read, awaitsOk⟩
  have peeked := awaitsOk.copyoutU8
  rcases awaitsOk.decode (decodes_removeOk affectedRowsFit insertIdFits status) with
    ⟨after, removed, awaitsAfter⟩
  refine ⟨after, awaitsAfter, ?_⟩
  rw [readResults, Stateful.bind_of_ok read, Stateful.bind_of_ok peeked, if_pos rfl,
    Stateful.bind_of_ok removed]
  by_cases more : moreResultsExist status.flags = true
  · exact (congrFun (if_pos more) after).trans (if_pos more).symm
  · exact (congrFun (if_neg more) after).trans (if_neg more).symm

/-- The payloads of the packets of a result set with the given terminator. -/
def rowsPayloads {columns : List ColumnPacket} (rows : List (TextRow lib columns))
    (terminator : Bytes) : List Bytes :=
  varintBytes columns.length :: (columns.map ColumnPacket.encode ++
    (rows.map TextRow.encode ++ [terminator]))

/-- A result set is returned with what is read from its terminator, and what is left of the
terminator is drained if another result seems to follow. -/
theorem readResults_rows_step (rowsAsDicts : Bool) {columns : List ColumnPacket}
    (nonempty : columns ≠ []) (columnsFit : columns.length < 2 ^ 64)
    (rows : List (TextRow lib columns)) {warnings flags : ℕ} {left terminator : Bytes}
    (warningsFit : warnings < 2 ^ 16) (flagsFit : flags < 2 ^ 16)
    (shape : terminator = [0xFE] ++ (leBytes 2 warnings ++ leBytes 2 flags) ++ left)
    (fits : ∀ payload ∈ rowsPayloads rows terminator, payload.length < 2 ^ 24) {fuel : ℕ}
    (columnsEnough : columns.length < fuel) (rowsEnough : rows.length < fuel) (ret : List ResultSet)
    (awaits : session.Awaits [] (rowsPayloads rows terminator ++ payloads) following) :
    ∃ after, after.Awaits (if moreResultsExist flags then [] else left) payloads following ∧
      readResults lib rowsAsDicts (fuel + 1) ret session =
        if moreResultsExist flags then
          readResults lib rowsAsDicts fuel (ret ++ [terminatedResultSet
            (columns.map ColumnPacket.definition) (textRows rowsAsDicts rows) warnings flags]) after
        else .ok (ret ++ [terminatedResultSet (columns.map ColumnPacket.definition)
          (textRows rowsAsDicts rows) warnings flags]) after := by
  have columnsPayload : ∀ column ∈ columns, column.encode.length < 2 ^ 24 := by
    intro column mem
    refine fits column.encode (List.mem_cons_of_mem _ (List.mem_append_left _ ?_))
    exact List.mem_map_of_mem mem
  have rowsPayload : ∀ row ∈ rows, row.encode.length < 2 ^ 24 := by
    intro row mem
    refine fits row.encode (List.mem_cons_of_mem _ (List.mem_append_right _ ?_))
    exact List.mem_append_left _ (List.mem_map_of_mem mem)
  have terminatorPayload : terminator.length < 2 ^ 24 := by
    refine fits _ (List.mem_cons_of_mem _ (List.mem_append_right _ ?_))
    exact List.mem_append_right _ (List.mem_singleton_self _)
  have positive : 0 < columns.length := List.length_pos_of_ne_nil nonempty
  simp only [rowsPayloads, List.cons_append, List.append_assoc, List.nil_append] at awaits
  rcases varintBytes_eq_cons columns.length with
    ⟨first, others, encoded, notInfile, notErr, notOk, _⟩
  rcases readCommand_next awaits (fits _ (List.mem_cons_self ..)) with ⟨loaded, read, awaitsCount⟩
  have peeked : (liftM copyoutU8 : SessionM UInt8) loaded = .ok first loaded := by
    rw [encoded] at awaitsCount
    exact awaitsCount.copyoutU8
  rcases awaitsCount.decode_all (decodes_removeVarint columnsFit) with
    ⟨counted, removed, awaitsColumns⟩
  rcases readColumns_ok columns [] columnsPayload columnsEnough awaitsColumns with
    ⟨defined, readDefinitions, awaitsRows⟩
  rw [List.length_nil, Nat.zero_add, List.nil_append] at readDefinitions
  subst shape
  rcases readRows_ok nonempty rowsAsDicts rows [] warningsFit flagsFit rowsPayload
    terminatorPayload rowsEnough awaitsRows with ⟨ended, readAll, awaitsRest⟩
  rw [List.nil_append] at readAll
  have noneYet : textRows rowsAsDicts ([] : List (TextRow lib columns)) = noRows rowsAsDicts := rfl
  rw [noneYet] at readAll
  rw [readResults, Stateful.bind_of_ok read, Stateful.bind_of_ok peeked, if_neg (notOk positive),
    if_neg notErr, if_neg notInfile, Stateful.bind_of_ok removed,
    Stateful.bind_of_ok readDefinitions, Stateful.bind_of_ok readAll]
  by_cases more : moreResultsExist flags = true
  · rcases drainAll_ok awaitsRest with ⟨after, drained, awaitsAfter⟩
    refine ⟨after, ?_, ?_⟩
    · rw [if_pos more]
      exact awaitsAfter
    · refine (congrFun (if_pos more) ended).trans (Eq.trans ?_ (if_pos more).symm)
      exact Stateful.bind_of_ok drained
  · refine ⟨ended, ?_, ?_⟩
    · rw [if_neg more]
      exact awaitsRest
    · exact (congrFun (if_neg more) ended).trans (if_neg more).symm

/-- One iteration of the loop over the results. -/
theorem readResults_step (rowsAsDicts : Bool) (result : QueryResult lib)
    (fits : ∀ payload ∈ result.payloads, payload.length < 2 ^ 24) {fuel : ℕ}
    (enough : result.payloads.length ≤ fuel) (ret : List ResultSet)
    (awaits : session.Awaits [] (result.payloads ++ payloads) following) :
    ∃ res after, result.Matches rowsAsDicts res ∧
      after.Awaits result.leftover payloads following ∧
      readResults lib rowsAsDicts (fuel + 1) ret session =
        if moreResultsExist result.status.flags then
          readResults lib rowsAsDicts fuel (ret ++ [res]) after
        else .ok (ret ++ [res]) after := by
  cases result with
  | ok affectedRows insertId numbersFit status =>
      rcases readResults_ok_step rowsAsDicts numbersFit.1 numbersFit.2 status
        (fits _ (List.mem_singleton_self _)) fuel ret awaits with ⟨after, awaitsAfter, ends⟩
      exact ⟨_, after, ⟨rfl, rfl, rfl, rfl, rfl⟩, awaitsAfter, ends⟩
  | resultSet columns nonempty columnsFit rows status =>
      have count : (QueryResult.resultSet columns nonempty columnsFit rows status).payloads.length =
          columns.length + rows.length + 2 := by
        simp only [QueryResult.payloads, List.length_cons, List.length_append, List.length_map,
          List.length_nil]
        omega
      have shape : QueryResult.terminator status =
          [0xFE] ++ (leBytes 2 0 ++ leBytes 2 status.flags) ++
            (leBytes 2 status.warnings ++ status.info) := rfl
      rcases readResults_rows_step rowsAsDicts nonempty columnsFit rows (by norm_num)
        status.flagsFit shape fits (by omega : columns.length < fuel)
        (by omega : rows.length < fuel)
        ret awaits with ⟨after, awaitsAfter, ends⟩
      exact ⟨_, after, ⟨rfl, rfl, rfl, rfl, rfl⟩, awaitsAfter, ends⟩

/-- With bytes in the buffer no further result is read. -/
theorem readResults_of_leftover (rowsAsDicts : Bool) {fuel : ℕ} (ret : List ResultSet)
    (awaits : session.Awaits buf payloads following) (leftover : buf ≠ []) :
    ∃ stop after, readResults lib rowsAsDicts fuel ret session = .error stop after := by
  cases fuel with
  | zero => exact ⟨_, _, rfl⟩
  | succ fuel =>
      rcases awaits with ⟨seq, ⟨connection, isOpen, held⟩, _⟩
      have nonempty : session.buf ≠ [] := held.buf_eq.trans_ne leftover
      rcases Client.readCommand_cases isOpen with ⟨stop, after, _, ends⟩ |
        ⟨number, after, _, _, ends⟩ | ⟨after, read, _⟩
      · exact ⟨_, _, Stateful.bind_of_error ends⟩
      · exact ⟨_, _, Stateful.bind_of_error ends⟩
      · exact absurd (ProtocolBuffer.readCommand_returned read).1 nonempty

/-- The loop goes on with the next result if nothing is left in the buffer. -/
theorem readResults_more (rowsAsDicts : Bool) (result : QueryResult lib)
    (others : List (QueryResult lib)) (more : result.More)
    (fits : ∀ payload ∈ result.payloads, payload.length < 2 ^ 24) {fuel : ℕ}
    (enough : ((result :: others).flatMap QueryResult.payloads).length < fuel + 1)
    (ret : List ResultSet)
    (awaits : session.Awaits [] ((result :: others).flatMap QueryResult.payloads) following) :
    ∃ res after, result.Matches rowsAsDicts res ∧
      after.Awaits result.leftover (others.flatMap QueryResult.payloads) following ∧
      (others.flatMap QueryResult.payloads).length < fuel ∧
      readResults lib rowsAsDicts (fuel + 1) ret session =
        readResults lib rowsAsDicts fuel (ret ++ [res]) after := by
  rw [List.flatMap_cons] at enough awaits
  rw [List.length_append] at enough
  have packet := result.length_payloads_pos
  rcases readResults_step rowsAsDicts result fits (by omega : result.payloads.length ≤ fuel) ret
    awaits with ⟨res, after, isMatch, awaitsAfter, ends⟩
  exact ⟨res, after, isMatch, awaitsAfter, by omega, ends.trans (if_pos more)⟩

/-- The loop returns all results if nothing is left in the buffer before the last one. -/
theorem readResults_ok (rowsAsDicts : Bool) (before : List (QueryResult lib))
    (last : QueryResult lib) (more : ∀ result ∈ before, result.More) (noMore : ¬last.More)
    (fits : ∀ result ∈ before ++ [last], ∀ payload ∈ result.payloads, payload.length < 2 ^ 24)
    (clean : ∀ result ∈ before, result.leftover = []) {fuel : ℕ}
    (enough : ((before ++ [last]).flatMap QueryResult.payloads).length < fuel)
    (ret : List ResultSet)
    (awaits : session.Awaits [] ((before ++ [last]).flatMap QueryResult.payloads) following) :
    ∃ res after, readResults lib rowsAsDicts fuel ret session = .ok (ret ++ res) after ∧
      List.Forall₂ (QueryResult.Matches rowsAsDicts) (before ++ [last]) res ∧
      after.Awaits last.leftover [] following := by
  induction before generalizing fuel ret session with
  | nil =>
      cases fuel with
      | zero => simp at enough
      | succ fuel =>
          simp only [List.nil_append, List.flatMap_cons] at enough awaits
          rw [List.flatMap_nil, List.append_nil] at enough
          rcases readResults_step rowsAsDicts last (fits last (List.mem_singleton_self last))
            (Nat.le_of_lt_succ enough) ret awaits with ⟨res, after, isMatch, awaitsAfter, ends⟩
          exact ⟨[res], after, ends.trans (if_neg noMore), .cons isMatch .nil, awaitsAfter⟩
  | cons result before ih =>
      cases fuel with
      | zero => simp at enough
      | succ fuel =>
          rcases readResults_more rowsAsDicts result (before ++ [last])
            (more result (List.mem_cons_self ..)) (fits result (List.mem_cons_self ..)) enough ret
            awaits with ⟨first, middle, isMatch, awaitsMiddle, enoughMiddle, continues⟩
          rw [clean result (List.mem_cons_self ..)] at awaitsMiddle
          rcases ih (fun later mem => more later (List.mem_cons_of_mem _ mem))
            (fun later mem => fits later (List.mem_cons_of_mem _ mem))
            (fun later mem => clean later (List.mem_cons_of_mem _ mem)) enoughMiddle
            (ret ++ [first]) awaitsMiddle with ⟨others, after, ends, matchOthers, awaitsAfter⟩
          refine ⟨first :: others, after, ?_, .cons isMatch matchOthers, awaitsAfter⟩
          rw [continues, ends, List.append_assoc]
          rfl

/-- The loop raises if something is left in the buffer before the last result. -/
theorem readResults_raises (rowsAsDicts : Bool) (before : List (QueryResult lib))
    (last : QueryResult lib) (more : ∀ result ∈ before, result.More)
    (fits : ∀ result ∈ before ++ [last], ∀ payload ∈ result.payloads, payload.length < 2 ^ 24)
    (unclean : ∃ result ∈ before, result.leftover ≠ []) {fuel : ℕ}
    (enough : ((before ++ [last]).flatMap QueryResult.payloads).length < fuel)
    (ret : List ResultSet)
    (awaits : session.Awaits [] ((before ++ [last]).flatMap QueryResult.payloads) following) :
    ∃ stop after, readResults lib rowsAsDicts fuel ret session = .error stop after := by
  induction before generalizing fuel ret session with
  | nil =>
      rcases unclean with ⟨result, mem, _⟩
      cases mem
  | cons result before ih =>
      cases fuel with
      | zero => simp at enough
      | succ fuel =>
          rcases readResults_more rowsAsDicts result (before ++ [last])
            (more result (List.mem_cons_self ..)) (fits result (List.mem_cons_self ..)) enough ret
            awaits with ⟨first, middle, _, awaitsMiddle, enoughMiddle, continues⟩
          rw [continues]
          by_cases empty : result.leftover = []
          · rw [empty] at awaitsMiddle
            refine ih (fun later mem => more later (List.mem_cons_of_mem _ mem))
              (fun later mem => fits later (List.mem_cons_of_mem _ mem)) ?_ enoughMiddle
              (ret ++ [first]) awaitsMiddle
            rcases unclean with ⟨other, mem, leftover⟩
            rcases List.mem_cons.mp mem with rfl | memBefore
            · exact absurd empty leftover
            · exact ⟨other, memBefore, leftover⟩
          · exact readResults_of_leftover rowsAsDicts _ awaitsMiddle empty

end Loops

namespace QueryResponse

variable {lib : Library}

/-- No OK packet that is followed by another result has bytes behind its fields. -/
def NoInfoBeforeLast (response : QueryResponse lib) : Prop :=
  ∀ affectedRows insertId fits status,
    QueryResult.ok affectedRows insertId fits status ∈ response.before → status.info = []

theorem leftover_eq_nil_iff (response : QueryResponse lib) :
    response.NoInfoBeforeLast ↔ ∀ result ∈ response.before, result.leftover = [] := by
  constructor
  · intro noInfo result mem
    cases result with
    | ok affectedRows insertId fits status => exact noInfo affectedRows insertId fits status mem
    | resultSet columns nonempty columnsFit rows status =>
        exact if_pos (response.more _ mem)
  · intro clean affectedRows insertId fits status mem
    exact clean _ mem

/-- `query_multi` returns a `ResultSet` for each result, in order and with what it encodes, and has
read exactly the packets of the response. -/
def Decoded (response : QueryResponse lib) (client : Client) (fuel : ℕ) (sql : Bytes)
    (rowsAsDicts : Bool) (following : Bytes) : Prop :=
  ∃ res after, queryMulti lib fuel sql rowsAsDicts client = .ok res after ∧
    List.Forall₂ (QueryResult.Matches rowsAsDicts) response.results res ∧
    after.Receives following

section Decoding

variable {client : Client} {following : Bytes} {fuel : ℕ}

theorem payloads_fit (response : QueryResponse lib) :
    ∀ result ∈ response.before ++ [response.last], ∀ payload ∈ result.payloads,
      payload.length < 2 ^ 24 :=
  fun result mem payload memPayload =>
    (response.fits result mem payload memPayload).trans (by norm_num)

theorem noInfoBeforeLast_of_decoded {response : QueryResponse lib}
    (receives : client.Receives (response.encode ++ following))
    (enough : response.payloads.length < fuel) {sql : Bytes} {rowsAsDicts : Bool}
    (decoded : response.Decoded client fuel sql rowsAsDicts following) :
    response.NoInfoBeforeLast := by
  rcases exists_sent_query receives lib fuel sql rowsAsDicts with ⟨sent, held, _, raised⟩
  rcases decoded with ⟨res, after, ends, _⟩
  rw [response.leftover_eq_nil_iff]
  intro result mem
  by_contra leftover
  rcases readResults_raises rowsAsDicts response.before response.last response.more
    response.payloads_fit ⟨result, mem, leftover⟩ enough [] ⟨1, held⟩ with
    ⟨stop, stopped, fails⟩
  rw [raised stop stopped fails] at ends
  cases ends

theorem decoded_of_noInfoBeforeLast {response : QueryResponse lib}
    (receives : client.Receives (response.encode ++ following))
    (enough : response.payloads.length < fuel) (noInfo : response.NoInfoBeforeLast) (sql : Bytes)
    (rowsAsDicts : Bool) : response.Decoded client fuel sql rowsAsDicts following := by
  rcases exists_sent_query receives lib fuel sql rowsAsDicts with ⟨sent, held, returned, _⟩
  have clean := response.leftover_eq_nil_iff.mp noInfo
  rcases readResults_ok rowsAsDicts response.before response.last response.more response.noMore
    response.payloads_fit clean enough [] ⟨1, held⟩ with
      ⟨res, after, ends, allMatch, seq, heldAfter⟩
  exact ⟨res, after.client, returned _ _ ends, allMatch, heldAfter.receives⟩

/-- A well-formed response, followed by any bytes, is decoded if and only if no OK packet that is
followed by another result has bytes behind its fields. -/
theorem decoded_iff (response : QueryResponse lib)
    (receives : client.Receives (response.encode ++ following))
    (enough : response.payloads.length < fuel) (sql : Bytes) (rowsAsDicts : Bool) :
    response.Decoded client fuel sql rowsAsDicts following ↔ response.NoInfoBeforeLast := by
  constructor
  · intro decoded
    exact noInfoBeforeLast_of_decoded receives enough decoded
  · intro noInfo
    exact decoded_of_noInfoBeforeLast receives enough noInfo sql rowsAsDicts

end Decoding

section Samples

/-- A client to which a server has sent some bytes. -/
def receivingClient (incoming : Bytes) : Client :=
  { Client.create [] [] with fd := some (.opened (.bytewise incoming)) }

theorem receives_receivingClient (incoming : Bytes) :
    (receivingClient incoming).Receives incoming :=
  ⟨_, rfl, rfl, Socket.healthy_bytewise incoming⟩

/-- A column of type INT. -/
def sampleColumn : ColumnPacket where
  definition :=
    { catalogName := ascii "def"
      databaseName := []
      tableName := []
      originalTableName := []
      columnName := ascii "n"
      originalColumnName := []
      charset := 0x3F
      maxValueLength := 11
      type := 0x03
      flags := 0
      decimals := 0 }
  unused := 0
  charsetFits := by decide
  maxValueLengthFits := by decide
  flagsFit := by decide
  unusedFits := by decide

/-- A final status, or one that announces another result, with further bytes. -/
def sampleStatus (more : Bool) (info : Bytes) : ResultStatus where
  flags := if more then 0x0A else 0x02
  warnings := 0
  info := info
  flagsFit := by cases more <;> decide
  warningsFit := by decide

/-- Two rows, the second one with null, and then an OK packet. -/
def sampleResponse : QueryResponse unusedLibrary where
  before :=
    [.resultSet [sampleColumn] (by simp) (by decide)
      [⟨[⟨some (ascii "7"), .uint64 7⟩], .cons rfl .nil⟩, ⟨[⟨none, .null⟩], .cons rfl .nil⟩]
      (sampleStatus true [0x64])]
  last := .ok 1 0 (by decide) (sampleStatus false (ascii "done"))
  more := by
    intro result mem
    cases List.mem_singleton.mp mem
    rfl
  noMore := by decide
  fits := by decide

theorem decoded_sampleResponse :
    sampleResponse.Decoded (receivingClient (sampleResponse.encode ++ [1, 2])) 10
      (ascii "SELECT n FROM t; DELETE FROM t") true [1, 2] := by
  refine (sampleResponse.decoded_iff (receives_receivingClient _) (by decide) _ true).mpr ?_
  intro affectedRows insertId fits status mem
  cases List.mem_singleton.mp mem

/-- Two OK packets, the first one with an info string. -/
def infoResponse : QueryResponse unusedLibrary where
  before := [.ok 2 0 (by decide) (sampleStatus true (ascii "Records: 2"))]
  last := .ok 1 0 (by decide) (sampleStatus false [])
  more := by
    intro result mem
    cases List.mem_singleton.mp mem
    rfl
  noMore := by decide
  fits := by decide

theorem not_decoded_infoResponse :
    ¬infoResponse.Decoded (receivingClient infoResponse.encode) 10
      (ascii "INSERT INTO t VALUES (1), (2); DELETE FROM t") true [] := by
  intro decoded
  have receives : (receivingClient infoResponse.encode).Receives (infoResponse.encode ++ []) :=
    receives_receivingClient infoResponse.encode
  have noInfo := noInfoBeforeLast_of_decoded receives (by decide) decoded
  cases noInfo 2 0 (by decide) (sampleStatus true (ascii "Records: 2"))
    (List.mem_singleton_self _)

end Samples

end QueryResponse

end EventAsync.MySQL
