import EventAsync.MySQL.BinlogLayout
import EventAsync.MySQL.Bitmasks

/-!
# The forms of row images

A form says what the bytes of something are and what a computation makes of any
other bytes: it passes whole ones on, takes bytes that are cut as if they were
whole, looks for something behind their end, or raises an exception.  The forms
of cells and bitmaps are put together to that of a row image, and to that of a
change of a row.
-/

namespace EventAsync.MySQL

open ByteCodec StringReader

namespace BinlogProcessor

/-- What a computation is to read. -/
structure Form (Result : Type) where
  /-- The bytes of a whole one, and its value. -/
  Whole : Bytes → Result → Prop
  /-- The bytes of a whole one, with what follows, of which just these bytes are taken. -/
  Passes : Bytes → Bytes → Prop
  /-- Bytes that are taken to their end although they are not a whole one. -/
  Cut : Bytes → Prop
  /-- Bytes behind whose end something is looked for. -/
  Beyond : Bytes → Prop

/-- The computation does something that has no meaning. -/
def Strays {Result : Type} (action : ReaderM Result) (reader : StringReader) : Prop :=
  ∃ operation last, action reader = .error (.undefined operation) last

theorem strays_bind_iff {First Second : Type} {action : ReaderM First}
    {next : First → ReaderM Second} {reader : StringReader} :
    Strays (action >>= next) reader ↔ Strays action reader ∨
      ∃ value middle, action reader = .ok value middle ∧ Strays (next value) middle := by
  constructor
  · rintro ⟨operation, last, ends⟩
    cases read : action reader with
    | ok value middle =>
        rw [Stateful.bind_of_ok read] at ends
        exact Or.inr ⟨value, middle, rfl, operation, last, ends⟩
    | error stop middle =>
        rw [Stateful.bind_of_error read] at ends
        cases ends
        exact Or.inl ⟨operation, last, read⟩
  · rintro (⟨operation, last, ends⟩ | ⟨value, middle, read, operation, last, ends⟩)
    · exact ⟨operation, last, Stateful.bind_of_error ends⟩
    · exact ⟨operation, last, (Stateful.bind_of_ok read).trans ends⟩

theorem strays_bind_of_ok {First Second : Type} {action : ReaderM First}
    {next : First → ReaderM Second} {reader middle : StringReader} {value : First}
    (returned : action reader = .ok value middle) :
    Strays (action >>= next) reader ↔ Strays (next value) middle := by
  simp only [Strays, Stateful.bind_of_ok returned]

theorem not_strays_of_ok {Result : Type} {action : ReaderM Result} {reader after : StringReader}
    {value : Result} (returned : action reader = .ok value after) : ¬Strays action reader := by
  rintro ⟨operation, last, ends⟩
  rw [returned] at ends
  cases ends

theorem not_strays_of_raised {Result : Type} {action : ReaderM Result}
    {reader after : StringReader} {exception : Exception}
    (raised : action reader = .error (.raised exception) after) : ¬Strays action reader := by
  rintro ⟨operation, last, ends⟩
  rw [raised] at ends
  cases ends

namespace Form

variable {First Second Result : Type}

/-- Something is read where no bytes are left. -/
def AtEnd (form : Form Result) : Prop :=
  form.Cut [] ∨ form.Passes [] []

/-- A computation that returns what passes and what is cut, and nothing else, and that raises unless
it strays. -/
structure ReadBy (form : Form Result) (action : ReaderM Result) : Prop where
  returns : ∀ {reader value after}, reader.rest.length ≤ stringMaxSize →
    action reader = .ok value after → form.Cut reader.rest ∨
      ∃ used, reader.rest = used ++ after.rest ∧ form.Passes used after.rest ∧
        form.Whole used value
  passes : ∀ {reader used left}, reader.rest.length ≤ stringMaxSize → reader.rest = used ++ left →
    form.Passes used left →
      ∃ value after, action reader = .ok value after ∧ after.rest = left ∧ form.Whole used value
  /-- What is returned for bytes that are cut is the value of no part of them. -/
  cut : ∀ {reader}, reader.rest.length ≤ stringMaxSize → form.Cut reader.rest →
    ∃ value after, action reader = .ok value after ∧ after.rest = [] ∧
      ∀ used left, reader.rest = used ++ left → ¬form.Whole used value
  strays_iff : ∀ {reader}, reader.rest.length ≤ stringMaxSize →
    (Strays action reader ↔ form.Beyond reader.rest)

/-- The bytes say where a whole one ends. -/
def Unique (form : Form Result) : Prop :=
  ∀ ⦃used left value other rest value'⦄, form.Whole used value → form.Whole other value' →
    used ++ left = other ++ rest → used = other

theorem ReadBy.atEnd {form : Form Result} {action : ReaderM Result} (readBy : form.ReadBy action)
    (atEnd : form.AtEnd) {reader : StringReader} (ended : reader.rest = []) :
    ∃ value after, action reader = .ok value after ∧ after.rest = [] := by
  have short : reader.rest.length ≤ stringMaxSize := by
    rw [ended]
    exact Nat.zero_le _
  rcases atEnd with isCut | passed
  · rw [← ended] at isCut
    rcases readBy.cut short isCut with ⟨value, after, returned, left, _⟩
    exact ⟨value, after, returned, left⟩
  · rcases readBy.passes short ended passed with ⟨value, after, returned, left, _⟩
    exact ⟨value, after, returned, left⟩

theorem ReadBy.atEnd_of_returned {form : Form Result} {action : ReaderM Result}
    (readBy : form.ReadBy action) {reader after : StringReader} {value : Result}
    (ended : reader.rest = []) (returned : action reader = .ok value after) : form.AtEnd := by
  have short : reader.rest.length ≤ stringMaxSize := by
    rw [ended]
    exact Nat.zero_le _
  rcases readBy.returns short returned with isCut | ⟨used, split, passed, _⟩
  · rw [ended] at isCut
    exact Or.inl isCut
  · rw [ended] at split
    rcases List.append_eq_nil_iff.mp split.symm with ⟨rfl, left⟩
    rw [left] at passed
    exact Or.inr passed

/-- The results that stand for a value of the form. -/
def via (form : Form First) (related : Result → First → Prop) : Form Result where
  Whole := fun used result => ∃ value, related result value ∧ form.Whole used value
  Passes := form.Passes
  Cut := form.Cut
  Beyond := form.Beyond

/-- One after the other. -/
def seq (first : Form First) (second : Form Second) : Form (First × Second) where
  Whole := fun used pair => ∃ front back, used = front ++ back ∧ first.Whole front pair.1 ∧
    second.Whole back pair.2
  Passes := fun used left => ∃ front back, used = front ++ back ∧
    first.Passes front (back ++ left) ∧ second.Passes back left
  Cut := fun bytes => first.Cut bytes ∧ second.AtEnd ∨
    ∃ front back, bytes = front ++ back ∧ first.Passes front back ∧ second.Cut back
  Beyond := fun bytes => first.Beyond bytes ∨ first.Cut bytes ∧ second.Beyond [] ∨
    ∃ front back, bytes = front ++ back ∧ first.Passes front back ∧ second.Beyond back

theorem ReadBy.via {form : Form First} {action : ReaderM First} {next : First → ReaderM Result}
    {related : Result → First → Prop} (readBy : form.ReadBy action)
    (returns : ∀ value reader, ∃ result after, next value reader = .ok result after ∧
      after.rest = reader.rest ∧ ∀ other, related result other ↔ other = value) :
    (form.via related).ReadBy (action >>= next) where
  returns := by
    intro reader result after short returned
    rcases Stateful.bind_eq_ok_iff.mp returned with ⟨value, middle, read, last⟩
    rcases returns value middle with ⟨result', after', last', left, stands⟩
    rw [last] at last'
    cases last'
    rcases readBy.returns short read with isCut | ⟨used, split, passed, whole⟩
    · exact Or.inl isCut
    · rw [← left] at split passed
      exact Or.inr ⟨used, split, passed, value, (stands value).mpr rfl, whole⟩
  passes := by
    intro reader used left short split passed
    rcases readBy.passes short split passed with ⟨value, middle, read, rfl, whole⟩
    rcases returns value middle with ⟨result, after, last, left, stands⟩
    exact ⟨result, after, (Stateful.bind_of_ok read).trans last, left, value,
      (stands value).mpr rfl, whole⟩
  cut := by
    intro reader short isCut
    rcases readBy.cut short isCut with ⟨value, middle, read, ended, notWhole⟩
    rcases returns value middle with ⟨result, after, last, left, stands⟩
    refine ⟨result, after, (Stateful.bind_of_ok read).trans last, left.trans ended, ?_⟩
    rintro used rest split ⟨value', stands', whole⟩
    rw [(stands value').mp stands'] at whole
    exact notWhole used rest split whole
  strays_iff := by
    intro reader short
    rw [strays_bind_iff, readBy.strays_iff short]
    refine ⟨fun strays => ?_, Or.inl⟩
    rcases strays with beyond | ⟨value, middle, _, strays⟩
    · exact beyond
    · rcases returns value middle with ⟨result, after, last, _⟩
      exact absurd strays (not_strays_of_ok last)

theorem ReadBy.seq {first : Form First} {second : Form Second} {action : ReaderM First}
    {next : First → ReaderM Result} {related : Result → First × Second → Prop}
    (readFirst : first.ReadBy action) (unique : first.Unique)
    (readSecond : ∀ value, (second.via fun result value' => related result (value, value')).ReadBy
      (next value))
    (stands : ∀ value, Stateful.Returns (fun result => ∀ pair, related result pair →
      pair.1 = value) (next value)) :
    ((first.seq second).via related).ReadBy (action >>= next) where
  returns := by
    intro reader result after short returned
    rcases Stateful.bind_eq_ok_iff.mp returned with ⟨value, middle, read, last⟩
    rcases readFirst.returns short read with isCut | ⟨front, split, passed, whole⟩
    · rcases readFirst.cut short isCut with ⟨value', middle', read', ended, _⟩
      rw [read] at read'
      cases read'
      exact Or.inl (Or.inl ⟨isCut, (readSecond value).atEnd_of_returned ended last⟩)
    · have shorter : middle.rest.length ≤ stringMaxSize := by
        rw [split, List.length_append] at short
        omega
      rcases (readSecond value).returns shorter last with isCut |
        ⟨back, split', passed', value', stands, whole'⟩
      · exact Or.inl (Or.inr ⟨front, middle.rest, split, passed, isCut⟩)
      · refine Or.inr ⟨front ++ back, ?_, ⟨front, back, rfl, ?_, passed'⟩, (value, value'), stands,
          front, back, rfl, whole, whole'⟩
        · rw [split, split', List.append_assoc]
        · rwa [← split']
  passes := by
    rintro reader used left short split ⟨front, back, rfl, passed, passed'⟩
    rw [List.append_assoc] at split
    rcases readFirst.passes short split passed with ⟨value, middle, read, rest, whole⟩
    have shorter : middle.rest.length ≤ stringMaxSize := by
      rw [split, List.length_append] at short
      rw [rest]
      omega
    rcases (readSecond value).passes shorter rest passed' with
      ⟨result, after, last, left, value', stands, whole'⟩
    exact ⟨result, after, (Stateful.bind_of_ok read).trans last, left, (value, value'), stands,
      front, back, rfl, whole, whole'⟩
  cut := by
    rintro reader short (⟨isCut, atEnd⟩ | ⟨front, back, split, passed, isCut⟩)
    · rcases readFirst.cut short isCut with ⟨value, middle, read, ended, notWhole⟩
      rcases (readSecond value).atEnd atEnd ended with ⟨result, after, last, left⟩
      refine ⟨result, after, (Stateful.bind_of_ok read).trans last, left, ?_⟩
      rintro used rest split ⟨pair, related, front, back, rfl, whole, _⟩
      rw [stands value middle result after last pair related] at whole
      rw [List.append_assoc] at split
      exact notWhole front (back ++ rest) split whole
    · rcases readFirst.passes short split passed with ⟨value, middle, read, rfl, whole⟩
      have shorter : middle.rest.length ≤ stringMaxSize := by
        rw [split, List.length_append] at short
        omega
      rcases (readSecond value).cut shorter isCut with ⟨result, after, last, ended, notWhole⟩
      refine ⟨result, after, (Stateful.bind_of_ok read).trans last, ended, ?_⟩
      rintro used rest split' ⟨⟨value', other⟩, related, front', back, rfl, whole', wholeBack⟩
      cases stands value middle result after last _ related
      rw [split, List.append_assoc] at split'
      cases unique whole whole' split'
      exact notWhole back rest (List.append_cancel_left split') ⟨other, related, wholeBack⟩
  strays_iff := by
    intro reader short
    rw [strays_bind_iff, readFirst.strays_iff short]
    apply or_congr_right
    constructor
    · rintro ⟨value, middle, read, strays⟩
      rcases readFirst.returns short read with isCut | ⟨front, split, passed, _⟩
      · rcases readFirst.cut short isCut with ⟨value', middle', read', ended, _⟩
        rw [read] at read'
        cases read'
        have beyond := (readSecond value).strays_iff (ended ▸ Nat.zero_le _) |>.mp strays
        rw [ended] at beyond
        exact Or.inl ⟨isCut, beyond⟩
      · have shorter : middle.rest.length ≤ stringMaxSize := by
          rw [split, List.length_append] at short
          omega
        exact Or.inr ⟨front, middle.rest, split, passed,
          ((readSecond value).strays_iff shorter).mp strays⟩
    · rintro (⟨isCut, beyond⟩ | ⟨front, back, split, passed, beyond⟩)
      · rcases readFirst.cut short isCut with ⟨value, middle, read, ended, _⟩
        rw [← ended] at beyond
        exact ⟨value, middle, read,
          ((readSecond value).strays_iff (ended ▸ Nat.zero_le _)).mpr beyond⟩
      · rcases readFirst.passes short split passed with ⟨value, middle, read, rfl, _⟩
        have shorter : middle.rest.length ≤ stringMaxSize := by
          rw [split, List.length_append] at short
          omega
        exact ⟨value, middle, read, ((readSecond value).strays_iff shorter).mpr beyond⟩

theorem Unique.via {form : Form First} (unique : form.Unique) (related : Result → First → Prop) :
    (form.via related).Unique := by
  rintro used left result other rest result' ⟨value, _, whole⟩ ⟨value', _, whole'⟩ same
  exact unique whole whole' same

theorem Unique.seq {first : Form First} {second : Form Second} (uniqueFirst : first.Unique)
    (uniqueSecond : second.Unique) : (first.seq second).Unique := by
  rintro used left pair other rest pair' ⟨front, back, rfl, whole, wholeBack⟩
    ⟨front', back', rfl, whole', wholeBack'⟩ same
  rw [List.append_assoc, List.append_assoc] at same
  cases uniqueFirst whole whole' same
  cases uniqueSecond wholeBack wholeBack' (List.append_cancel_left same)
  rfl

end Form

namespace CellLayout

/-- All that is left is taken for the rest of a cell, and is not as long as the cell says. -/
def Cut (layout : CellLayout) (bytes : Bytes) : Prop :=
  layout.head ≤ bytes.length ∧
    (layout.body bytes).length ≤ layout.asked (layout.first bytes) ∧
    (layout.body bytes).length ≠ layout.declared (layout.first bytes)

/-- The form of the cells with a layout. -/
def form (layout : CellLayout) : Form Value where
  Whole := fun used value => ∃ head content, used = head ++ content ∧
    head.length = layout.head ∧ content.length = layout.declared head ∧
      ∀ str, value = .string str → str = content
  Passes := fun used left => ¬layout.Cut (used ++ left) ∧
    ∃ head content, used = head ++ content ∧ head.length = layout.head ∧
      content.length = layout.declared head
  Cut := layout.Cut
  Beyond := fun _ => False

variable {layout : CellLayout} {bytes head content left : Bytes}

theorem first_append (length : head.length = layout.head)
    (split : bytes = head ++ content ++ left) :
    layout.first bytes = head := by
  rw [first, split, List.append_assoc, ← length, List.take_left]

theorem body_append (length : head.length = layout.head) (split : bytes = head ++ content ++ left) :
    layout.body bytes = content ++ left := by
  rw [body, split, List.append_assoc, ← length, List.drop_left]

theorem unique_form (layout : CellLayout) : layout.form.Unique := by
  rintro used left value other rest value' ⟨head, content, rfl, headLength, length, _⟩
    ⟨head', content', rfl, headLength', length', _⟩ same
  have sameHead : head = head' := by
    rw [← first_append headLength rfl, same, first_append headLength' rfl]
  subst sameHead
  rw [List.append_assoc, List.append_assoc] at same
  rw [(List.append_inj (List.append_cancel_left same) (length.trans length'.symm)).1]

/-- What is not cut is whole. -/
theorem Took.whole {value : Value} {rest : Bytes} (took : layout.Took bytes value rest)
    (short : bytes.length ≤ stringMaxSize) (headFits : layout.head ≤ bytes.length)
    (notCut : ¬layout.Cut bytes) :
    ∃ used, bytes = used ++ rest ∧ layout.form.Passes used rest ∧ layout.form.Whole used value := by
  have bodyShort : (layout.body bytes).length ≤ stringMaxSize := by
    rw [body, List.length_drop]
    omega
  have headLength : (layout.first bytes).length = layout.head := List.length_take_of_le headFits
  have length : ((layout.body bytes).take (layout.asked (layout.first bytes))).length =
      layout.declared (layout.first bytes) := by
    rw [List.length_take]
    rcases Nat.lt_or_ge (layout.asked (layout.first bytes)) (layout.body bytes).length with
      more | all
    · rcases took.sized with same | ⟨_, huge⟩
      · omega
      · omega
    · have same : (layout.body bytes).length = layout.declared (layout.first bytes) :=
        not_not.mp fun differs => notCut ⟨headFits, all, differs⟩
      omega
  have split : bytes = layout.first bytes ++
      (layout.body bytes).take (layout.asked (layout.first bytes)) ++ rest := by
    rw [took.rest_eq, List.append_assoc, List.take_append_drop]
    exact (List.take_append_drop _ _).symm
  refine ⟨_, split, ⟨?_, _, _, rfl, headLength, length⟩, _, _, rfl, headLength, length,
    took.string_eq⟩
  rwa [← split]

/-- What is returned for a cell that is cut is longer or shorter than the cell says. -/
theorem Took.not_whole {value : Value} {rest used left : Bytes}
    (took : layout.Took bytes value rest) (isCut : layout.Cut bytes)
    (split : bytes = used ++ left) :
    ¬layout.form.Whole used value := by
  rintro ⟨head, content, rfl, headLength, length, string⟩
  have firstEq : layout.first bytes = head := first_append headLength split
  have bodyEq : layout.body bytes = content ++ left := body_append headLength split
  rcases isCut with ⟨_, taken, differs⟩
  have bodyLength : (layout.body bytes).length = content.length + left.length := by
    rw [bodyEq, List.length_append]
  rw [firstEq, ← length] at differs
  rcases took.sized with same | ⟨⟨str, isString⟩, _⟩
  · rw [same, firstEq, ← length] at taken
    omega
  · have all := took.string_eq str isString
    rw [List.take_of_length_le taken] at all
    rw [← all, string str isString] at bodyLength differs
    exact differs rfl

theorem ReadBy.form {action : ReaderM Value} (readBy : layout.ReadBy action) :
    layout.form.ReadBy action where
  returns := by
    intro reader value after short returned
    rcases Nat.lt_or_ge reader.rest.length layout.head with missing | headFits
    · rcases (readBy reader).1 missing with ⟨exception, last, raised⟩
      rw [raised] at returned
      cases returned
    · rcases (readBy reader).2 headFits with ⟨value', after', returned', took⟩
      rw [returned] at returned'
      cases returned'
      by_cases isCut : layout.Cut reader.rest
      · exact Or.inl isCut
      · exact Or.inr (took.whole short headFits isCut)
  passes := by
    rintro reader used left short split ⟨notCut, head, content, rfl, headLength, length⟩
    rw [← split] at notCut
    have headFits : layout.head ≤ reader.rest.length := by
      rw [split, List.length_append, List.length_append]
      omega
    rcases (readBy reader).2 headFits with ⟨value, after, returned, took⟩
    rcases took.whole short headFits notCut with ⟨used, split', _, whole⟩
    have plain : layout.form.Whole (head ++ content) .null :=
      ⟨head, content, rfl, headLength, length, fun _ same => by cases same⟩
    cases layout.unique_form plain whole (split.symm.trans split')
    exact ⟨value, after, returned, (List.append_cancel_left (split.symm.trans split')).symm, whole⟩
  cut := by
    intro reader short isCut
    rcases (readBy reader).2 isCut.1 with ⟨value, after, returned, took⟩
    refine ⟨value, after, returned, ?_, fun used left split => took.not_whole isCut split⟩
    rw [took.rest_eq, List.drop_eq_nil_of_le isCut.2.1]
  strays_iff := by
    intro reader _
    refine iff_of_false ?_ not_false
    rcases Nat.lt_or_ge reader.rest.length layout.head with missing | headFits
    · rcases (readBy reader).1 missing with ⟨exception, last, raised⟩
      exact not_strays_of_raised raised
    · rcases (readBy reader).2 headFits with ⟨value, after, returned, _⟩
      exact not_strays_of_ok returned

end CellLayout

namespace Form

variable {Result : Type}

/-- What is never read. -/
def none : Form Value where
  Whole := fun _ _ => False
  Passes := fun _ _ => False
  Cut := fun _ => False
  Beyond := fun _ => False

/-- What has no bytes. -/
def nothing (value : Result) : Form Result where
  Whole := fun used result => used = [] ∧ result = value
  Passes := fun used _ => used = []
  Cut := fun _ => False
  Beyond := fun _ => False

theorem unique_nothing (value : Result) : (nothing value).Unique := by
  rintro used left result other rest result' ⟨rfl, _⟩ ⟨rfl, _⟩ _
  rfl

theorem nothing_readBy (value : Result) : (nothing value).ReadBy (Pure.pure value) where
  returns := by
    intro reader result after _ returned
    cases returned
    exact Or.inr ⟨[], rfl, rfl, rfl, rfl⟩
  passes := by
    rintro reader used left _ split rfl
    exact ⟨value, reader, rfl, split, rfl, rfl⟩
  cut := fun _ isCut => isCut.elim
  strays_iff := fun _ => iff_of_false (not_strays_of_ok rfl) not_false

theorem none_readBy {action : ReaderM Value} (raises : Raises action) : none.ReadBy action where
  returns := by
    intro reader value after _ returned
    rcases raises reader with ⟨exception, last, raised⟩
    rw [raised] at returned
    cases returned
  passes := fun _ _ passed => passed.elim
  cut := fun _ isCut => isCut.elim
  strays_iff := by
    intro reader _
    rcases raises reader with ⟨exception, last, raised⟩
    exact iff_of_false (not_strays_of_raised raised) not_false

end Form

/-- A cell of a column, which may be null. -/
def cellForm (ci : ColumnInfo) (isNull : Bool) : Form Value :=
  if isNull then if ci.nullable then .nothing .null else .none
  else
    match cellLayout ci with
    | some layout => layout.form
    | none => .none

def cellsForm : List (ColumnInfo × Bool) → Form (List Value)
  | [] => .nothing []
  | (ci, isNull) :: cells =>
      ((cellForm ci isNull).seq (cellsForm cells)).via fun row pair => row = pair.1 :: pair.2

/-- A row image: the bitmap of the cells that are null, and the cells. -/
def rowForm (columns : List ColumnInfo) : Form (List Value) where
  Whole := fun used row => ∃ bitmap cells, used = bitmap ++ cells ∧
    bitmap.length = (columns.length + 7) / 8 ∧
    (cellsForm (columns.zip (unpack columns.length bitmap))).Whole cells row
  Passes := fun used left => ∃ bitmap cells, used = bitmap ++ cells ∧
    bitmap.length = (columns.length + 7) / 8 ∧
    (cellsForm (columns.zip (unpack columns.length bitmap))).Passes cells left
  Cut := fun bytes =>
    ((columns.length - 1) / 8 ≤ bytes.length ∧ bytes.length < (columns.length + 7) / 8 ∧
      (cellsForm (columns.zip (unpack columns.length bytes))).AtEnd) ∨
    ∃ bitmap cells, bytes = bitmap ++ cells ∧ bitmap.length = (columns.length + 7) / 8 ∧
      (cellsForm (columns.zip (unpack columns.length bitmap))).Cut cells
  Beyond := fun bytes => bytes.length < (columns.length - 1) / 8

/-- The images of a row before and after a change, as far as the event has them. -/
def changeForm (columns : List ColumnInfo) (writeType : WriteType) (hasPreimage : Bool) :
    Form RowChange :=
  match writeType with
  | .insert => (rowForm columns).via fun rc row => row = rc.post
  | .update =>
      if hasPreimage then
        ((rowForm columns).seq (rowForm columns)).via fun rc pair => pair = (rc.pre, rc.post)
      else (rowForm columns).via fun rc row => row = rc.post
  | .delete => (rowForm columns).via fun rc row => row = rc.pre

theorem unique_cellForm (ci : ColumnInfo) (isNull : Bool) : (cellForm ci isNull).Unique := by
  unfold cellForm
  split
  · split
    · exact Form.unique_nothing _
    · intro used left value other rest value' whole
      exact whole.elim
  · split
    · exact CellLayout.unique_form _
    · intro used left value other rest value' whole
      exact whole.elim

theorem readBy_readCell (ci : ColumnInfo) (isNull : Bool) :
    (cellForm ci isNull).ReadBy (readCell ci isNull) := by
  unfold cellForm readCell
  cases isNull with
  | true =>
      cases nullable : ci.nullable with
      | true => exact Form.nothing_readBy _
      | false => exact Form.none_readBy ((Raises.throw _).then _)
  | false =>
      cases known : cellLayout ci with
      | some layout => exact (readBy_readCellData known).form
      | none => exact Form.none_readBy (readCellData_raises known)

theorem unique_cellsForm (cells : List (ColumnInfo × Bool)) : (cellsForm cells).Unique := by
  induction cells with
  | nil => exact Form.unique_nothing _
  | cons cell cells ih => exact ((unique_cellForm cell.1 cell.2).seq ih).via _

theorem readBy_readCells (cells : List (ColumnInfo × Bool)) :
    (cellsForm cells).ReadBy (cells.mapM fun (ci, isNull) => readCell ci isNull) := by
  induction cells with
  | nil => exact Form.nothing_readBy _
  | cons cell cells ih =>
      rw [List.mapM_cons]
      refine (readBy_readCell cell.1 cell.2).seq (unique_cellForm _ _) (fun value => ?_) ?_
      · refine ih.via fun values reader => ⟨value :: values, reader, rfl, rfl, fun other => ?_⟩
        exact ⟨fun same => (List.cons.inj same).2.symm, fun same => by rw [same]⟩
      · intro value
        refine Stateful.Returns.bind_any fun values => Stateful.Returns.pure ?_
        rintro ⟨value', values'⟩ same
        exact (List.cons.inj same).1.symm

/-- Nothing is looked for behind the end of a cell. -/
theorem not_beyond_cellForm (ci : ColumnInfo) (isNull : Bool) (bytes : Bytes) :
    ¬(cellForm ci isNull).Beyond bytes := by
  unfold cellForm
  split
  · split
    · exact not_false
    · exact not_false
  · split
    · exact not_false
    · exact not_false

theorem not_beyond_cellsForm (cells : List (ColumnInfo × Bool)) (bytes : Bytes) :
    ¬(cellsForm cells).Beyond bytes := by
  induction cells generalizing bytes with
  | nil => exact not_false
  | cons cell cells ih =>
      rintro (beyond | ⟨_, beyond⟩ | ⟨front, back, _, _, beyond⟩)
      · exact not_beyond_cellForm cell.1 cell.2 bytes beyond
      · exact ih [] beyond
      · exact ih back beyond

theorem unique_rowForm (columns : List ColumnInfo) : (rowForm columns).Unique := by
  rintro used left row other rest row' ⟨bitmap, cells, rfl, length, whole⟩
    ⟨bitmap', cells', rfl, length', whole'⟩ same
  rw [List.append_assoc, List.append_assoc] at same
  rcases List.append_inj same (length.trans length'.symm) with ⟨rfl, sameCells⟩
  rw [unique_cellsForm _ whole whole' sameCells]

theorem strays_getBitmask_iff {numBits : ℕ} {reader : StringReader} :
    Strays (getBitmask numBits) reader ↔ reader.rest.length < (numBits - 1) / 8 := by
  constructor
  · rintro ⟨operation, last, strays⟩
    by_contra inRange
    rcases Nat.lt_or_ge reader.rest.length ((numBits + 7) / 8) with missing | enough
    · rcases getBitmask_missing (not_lt.mp inRange) missing with ⟨after, returned, _⟩
      rw [returned] at strays
      cases strays
    · rw [getBitmask_of_le enough] at strays
      cases strays
  · intro beyond
    rcases getBitmask_beyond beyond with ⟨last, strays⟩
    exact ⟨_, last, strays⟩

theorem readBy_readRowData (ti : BinlogTableInfo) :
    (rowForm ti.columns).ReadBy (readRowData ti) where
  returns := by
    intro reader row after short returned
    rcases Stateful.bind_eq_ok_iff.mp returned with ⟨columnsNull, middle, read, last⟩
    rcases getBitmask_cases ti.columns.length reader with ⟨stopped, raised⟩ |
      ⟨inRange, missing⟩ | ⟨bitmap, left, length, split⟩
    · rw [raised] at read
      cases read
    · rcases getBitmask_missing inRange missing with ⟨middle', read', ended⟩
      rw [read'] at read
      cases read
      exact Or.inl (Or.inl ⟨inRange, missing, (readBy_readCells _).atEnd_of_returned ended last⟩)
    · rcases getBitmask_bitmap length split with ⟨middle', read', rfl⟩
      rw [read'] at read
      cases read
      have shorter : middle.rest.length ≤ stringMaxSize := by
        rw [split, List.length_append] at short
        omega
      rcases (readBy_readCells _).returns shorter last with isCut | ⟨cells, split', passed, whole⟩
      · exact Or.inl (Or.inr ⟨bitmap, middle.rest, split, length, isCut⟩)
      · refine Or.inr ⟨bitmap ++ cells, ?_, ⟨bitmap, cells, rfl, length, passed⟩,
          bitmap, cells, rfl, length, whole⟩
        rw [split, split', List.append_assoc]
  passes := by
    rintro reader used left short split ⟨bitmap, cells, rfl, length, passed⟩
    rw [List.append_assoc] at split
    rcases getBitmask_bitmap length split with ⟨middle, read, rest⟩
    have shorter : middle.rest.length ≤ stringMaxSize := by
      rw [split, List.length_append] at short
      rw [rest]
      omega
    rcases (readBy_readCells _).passes shorter rest passed with ⟨row, after, last, left, whole⟩
    exact ⟨row, after, (Stateful.bind_of_ok read).trans last, left, bitmap, cells, rfl, length,
      whole⟩
  cut := by
    rintro reader short (⟨inRange, missing, atEnd⟩ | ⟨bitmap, cells, split, length, isCut⟩)
    · rcases getBitmask_missing inRange missing with ⟨middle, read, ended⟩
      rcases (readBy_readCells _).atEnd atEnd ended with ⟨row, after, last, left⟩
      refine ⟨row, after, (Stateful.bind_of_ok read).trans last, left, ?_⟩
      rintro used rest split ⟨bitmap, cells, rfl, length, _⟩
      rw [split, List.length_append, List.length_append] at missing
      omega
    · rcases getBitmask_bitmap length split with ⟨middle, read, rfl⟩
      have shorter : middle.rest.length ≤ stringMaxSize := by
        rw [split, List.length_append] at short
        omega
      rcases (readBy_readCells _).cut shorter isCut with ⟨row, after, last, ended, notWhole⟩
      refine ⟨row, after, (Stateful.bind_of_ok read).trans last, ended, ?_⟩
      rintro used rest split' ⟨bitmap', cells', rfl, length', whole⟩
      rw [split, List.append_assoc] at split'
      rcases List.append_inj split' (length.trans length'.symm) with ⟨rfl, sameCells⟩
      exact notWhole cells' rest sameCells whole
  strays_iff := by
    intro reader short
    refine (strays_bind_iff.trans ⟨fun strays => ?_, Or.inl⟩).trans strays_getBitmask_iff
    rcases strays with beyond | ⟨columnsNull, middle, read, strays⟩
    · exact beyond
    · have shorter : middle.rest.length ≤ stringMaxSize :=
        ((Reads.getBitmask ti.columns.length : Reads False _).of_ok read).trans short
      have beyond := ((readBy_readCells _).strays_iff shorter).mp strays
      exact absurd beyond (not_beyond_cellsForm _ _)

theorem unique_changeForm (columns : List ColumnInfo) (writeType : WriteType) (preimage : Bool) :
    (changeForm columns writeType preimage).Unique := by
  have unique := unique_rowForm columns
  cases writeType with
  | insert => exact unique.via _
  | update =>
      cases preimage with
      | true => exact (unique.seq unique).via _
      | false => exact unique.via _
  | delete => exact unique.via _

/-- Looking at the offset takes nothing. -/
theorem Form.ReadBy.located {Result : Type} {form : Form Result} {next : ℕ → ReaderM Result}
    (readBy : ∀ offset, form.ReadBy (next offset)) : form.ReadBy (location >>= next) where
  returns := fun {reader} => (readBy reader.offset).returns
  passes := fun {reader} => (readBy reader.offset).passes
  cut := fun {reader} => (readBy reader.offset).cut
  strays_iff := fun {reader} => (readBy reader.offset).strays_iff

theorem readBy_readRowChange (ti : BinlogTableInfo) (writeType : WriteType) (preimage : Bool) :
    (changeForm ti.columns writeType preimage).ReadBy (readRowChange ti writeType preimage) := by
  have readRow := readBy_readRowData ti
  refine Form.ReadBy.located fun startOffset => ?_
  cases writeType with
  | insert => exact readRow.via fun post reader => ⟨_, _, rfl, rfl, fun other => Iff.rfl⟩
  | delete => exact readRow.via fun pre reader => ⟨_, _, rfl, rfl, fun other => Iff.rfl⟩
  | update =>
      cases preimage with
      | false => exact readRow.via fun post reader => ⟨_, _, rfl, rfl, fun other => Iff.rfl⟩
      | true =>
          refine readRow.seq (unique_rowForm _) (fun pre => Form.ReadBy.located fun middleOffset =>
            readRow.via fun post reader => ⟨_, _, rfl, rfl, fun other => ?_⟩) ?_
          · exact ⟨fun same => (Prod.mk.inj same).2, fun same => by rw [same]⟩
          · intro pre
            refine Stateful.Returns.bind_any fun middleOffset =>
              Stateful.Returns.bind_any fun post =>
              Stateful.Returns.bind_any fun endOffset => Stateful.Returns.pure ?_
            rintro pair rfl
            rfl

end BinlogProcessor

end EventAsync.MySQL
