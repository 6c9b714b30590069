import EventAsync.MySQL.BinlogState

/-!
# The table of a table map event

`BinlogTableMapEvent` and `BinlogRowsEvent` both have a field for the table that
they are about.  A parsed table map event is stored under its id, and every
rows event for the id that is parsed until the next table map event for it
carries what was stored.  The table map event itself is returned with the null
pointer it was created with.
-/

namespace EventAsync.MySQL

open ByteCodec

namespace BinlogProcessor

/-- Every rows event for the id carries the table, until another table map event for the id is
parsed. -/
def CarriesTable (processor : BinlogProcessor) (tableId : ℕ) (ti : BinlogTableInfo) : Prop :=
  ∀ calls later, Transition.run parseStep processor calls = some later →
    (∀ call ∈ calls, call.describes tableId = none) →
      ∀ fuel data ev after, parseRowsEvent fuel data later = .ok ev after →
        ev.tableId = tableId → ev.ti = ti

/-- The event that is returned has the table that later rows events carry. -/
def DescribesStored (ev : BinlogTableMapEvent) (after : BinlogProcessor) : Prop :=
  ∃ ti, ev.ti = some ti ∧ CarriesTable after ev.tableId ti

/-- Calls that describe no table with the given id leave the one that is kept. -/
theorem tableMap_of_undescribed {calls : List ParseCall} {processor later : BinlogProcessor}
    {tableId : ℕ} (reached : Transition.run parseStep processor calls = some later)
    (undescribed : ∀ call ∈ calls, call.describes tableId = none) :
    later.tableMap tableId = processor.tableMap tableId := by
  have along : Transition.Along parseStep (fun _ call => call.describes tableId = none)
      processor calls := Transition.along_of_mem undescribed
  have keeps : ∀ (state : BinlogProcessor) call next,
      state.tableMap tableId = processor.tableMap tableId → call.describes tableId = none →
      parseStep state call = some next →
      next.tableMap tableId = processor.tableMap tableId := by
    intro state call next kept notDescribed stepped
    rw [tableMap_of_parseStep stepped, ParseCall.keeps, notDescribed]
    exact kept
  exact Transition.invariant_of_along keeps rfl along reached

/-- A rows event that is returned carries the table that is kept under its id. -/
theorem tableMap_of_parseRowsEvent {fuel : ℕ} {data : Bytes} {processor after : BinlogProcessor}
    {ev : BinlogRowsEvent} (returned : parseRowsEvent fuel data processor = .ok ev after) :
    processor.tableMap ev.tableId = some ev.ti := by
  rcases parseRowsEvent_returned returned with ⟨start, middle, last, started, _, same⟩
  rw [same]
  exact (readRowsEventStart_known _ _ _ _ started).2

theorem carriesTable_of_kept {processor : BinlogProcessor} {tableId : ℕ} {ti : BinlogTableInfo}
    (kept : processor.tableMap tableId = some ti) : CarriesTable processor tableId ti := by
  intro calls later reached undescribed fuel data ev after returned sameId
  have known := tableMap_of_parseRowsEvent returned
  rw [sameId, tableMap_of_undescribed reached undescribed, kept] at known
  exact (Option.some.inj known).symm

/-- What is returned for a table map event that is accepted, and what is stored. -/
theorem parseTableMapEvent_returned {data : Bytes} {processor after : BinlogProcessor}
    {ev : BinlogTableMapEvent} (accepted : parseTableMapEvent data processor = .ok ev after) :
    ev.ti = none ∧ ∃ ti, (ParseCall.tableMap data).described = some (ev.tableId, ti) ∧
      after.tableMap ev.tableId = some ti := by
  rcases parseTableMapEvent_cases data processor with ⟨stop, last, _, raised⟩ |
    ⟨read, ti, last, decoded, parsed⟩
  · rw [raised] at accepted
    cases accepted
  · rw [parsed] at accepted
    cases accepted
    refine ⟨(readTableMapEvent_event _ _ _ decoded).2, ti, ?_, Function.update_self ..⟩
    simp only [ParseCall.described, decoded]

theorem not_describesStored_of_none {ev : BinlogTableMapEvent} {after : BinlogProcessor}
    (without : ev.ti = none) : ¬DescribesStored ev after := by
  rintro ⟨ti, described, _⟩
  rw [without] at described
  cases described

/-- No table map event that is accepted describes what was stored, whatever the state it is parsed
in, although its bytes describe the table that the rows events carry. -/
theorem parseTableMapEvent_undescribed {data : Bytes} {processor after : BinlogProcessor}
    {ev : BinlogTableMapEvent} (accepted : parseTableMapEvent data processor = .ok ev after) :
    ¬DescribesStored ev after ∧
      ∃ ti, (ParseCall.tableMap data).described = some (ev.tableId, ti) ∧
        CarriesTable after ev.tableId ti := by
  rcases parseTableMapEvent_returned accepted with ⟨without, ti, described, kept⟩
  exact ⟨not_describesStored_of_none without, ti, described, carriesTable_of_kept kept⟩

theorem undescribed_sampleMap :
    parseTableMapEvent sampleMap.encode create = .ok sampleMap.event (create.mapped sampleMap) ∧
      ¬DescribesStored sampleMap.event (create.mapped sampleMap) :=
  ⟨parseTableMapEvent_encode sampleMap create,
    (parseTableMapEvent_undescribed (parseTableMapEvent_encode sampleMap create)).1⟩

/-- The rows event that follows is returned with the table of the event, and the event itself
without. -/
theorem not_describesStored_sampleMap :
    ∃ ev after rows last, parseTableMapEvent sampleMap.encode create = .ok ev after ∧
      parseRowsEvent 2 (sampleRows.encode 66) after = .ok rows last ∧
      rows.tableId = ev.tableId ∧ rows.ti = sampleTable.info ∧ ¬DescribesStored ev after := by
  have known : (create.mapped sampleMap).tableMap 66 = some sampleTable.info := rfl
  rcases readRowsEvent_ok sampleRows sampleTable.nonempty (by decide) (by decide) (by decide) known
    rfl (by decide : sampleRows.changes.length < 2) with ⟨last, rowsRead⟩
  have rowsParsed : parseRowsEvent 2 (sampleRows.encode 66) (create.mapped sampleMap) =
      .ok (sampleRows.event 66 sampleTable.info)
        { create.mapped sampleMap with position := sampleRows.header.endPosition } := by
    rw [parseRowsEvent_eq, rowsRead]
    rfl
  exact ⟨_, _, _, _, parseTableMapEvent_encode sampleMap create, rowsParsed, rfl, rfl,
    not_describesStored_of_none rfl⟩

end BinlogProcessor

end EventAsync.MySQL
