import EventAsync.MySQL.BinlogTermination

/-!
# The state of the binlog processor

Every parsing function reads its whole event before it changes the processor,
so a call that raises changes nothing.  The tables that are kept are therefore
those of the table map events that were parsed, the latest one for each id, and
a rows event is decoded with the latest table for its id.
-/

namespace EventAsync.MySQL

open ByteCodec StringReader

namespace BinlogProcessor

/-- The id and the table of a table map event that is parsed. -/
def ParseCall.described : ParseCall → Option (ℕ × BinlogTableInfo)
  | tableMap data =>
      match readTableMapEvent (.ofString data) with
      | .ok (ev, ti) _ => some (ev.tableId, ti)
      | .error _ _ => none
  | _ => none

/-- The table of a table map event that is parsed and names the given id. -/
def ParseCall.describes (tableId : ℕ) (call : ParseCall) : Option BinlogTableInfo :=
  match call.described with
  | some (named, ti) => if named = tableId then some ti else none
  | none => none

/-- The table of the latest of the calls that describes a table with the given id. -/
def latest (calls : List ParseCall) (tableId : ℕ) : Option BinlogTableInfo :=
  calls.reverse.findSome? (ParseCall.describes tableId)

/-- The table id of a rows event, behind the header. -/
def tableIdOf (data : Bytes) : ℕ :=
  leNat ((data.drop 19).take 6)

/-- The tables that are kept after a call that returns. -/
def ParseCall.keeps (call : ParseCall) (tableMap : ℕ → Option BinlogTableInfo) (tableId : ℕ) :
    Option BinlogTableInfo :=
  (call.describes tableId).or (tableMap tableId)

theorem keeps_of_described {call : ParseCall} {named : ℕ} {ti : BinlogTableInfo}
    (described : call.described = some (named, ti)) (tableMap : ℕ → Option BinlogTableInfo) :
    call.keeps tableMap = Function.update tableMap named (some ti) := by
  funext tableId
  by_cases same : tableId = named
  · subst same
    simp [ParseCall.keeps, ParseCall.describes, described]
  · simp [ParseCall.keeps, ParseCall.describes, described, same, Ne.symm same]

theorem keeps_of_not_described {call : ParseCall} (described : call.described = none)
    (tableMap : ℕ → Option BinlogTableInfo) : call.keeps tableMap = tableMap := by
  funext tableId
  simp [ParseCall.keeps, ParseCall.describes, described]

theorem read_of_described {call : ParseCall} {named : ℕ} {ti : BinlogTableInfo}
    (described : call.described = some (named, ti)) :
    ∃ data ev last, call = .tableMap data ∧
      readTableMapEvent (.ofString data) = .ok (ev, ti) last ∧ ev.tableId = named := by
  cases call with
  | tableMap data =>
      simp only [ParseCall.described] at described
      cases read : readTableMapEvent (.ofString data) with
      | error stop last =>
          rw [read] at described
          cases described
      | ok result last =>
          rw [read] at described
          cases described
          exact ⟨data, _, last, rfl, read, rfl⟩
  | _ => cases described

theorem described_of_describes {call : ParseCall} {tableId : ℕ} {ti : BinlogTableInfo}
    (describes : call.describes tableId = some ti) : call.described = some (tableId, ti) := by
  rw [ParseCall.describes] at describes
  split at describes
  · rename_i named table described
    split at describes
    · rename_i same
      cases describes
      rw [described, same]
    · cases describes
  · cases describes

/-- Reading an event leaves the processor. -/
theorem reading_cases {Event : Type} (data : Bytes) (action : ReaderM Event)
    (processor : BinlogProcessor) :
    (∃ ev last, action (.ofString data) = .ok ev last ∧
        reading data action processor = .ok ev processor) ∨
      ∃ stop last, action (.ofString data) = .error stop last ∧
        reading data action processor = .error stop processor := by
  cases ends : action (.ofString data) with
  | ok ev last => exact Or.inl ⟨ev, last, rfl, by simp only [reading, ends]⟩
  | error stop last => exact Or.inr ⟨stop, last, rfl, by simp only [reading, ends]⟩

/-- A function that reads an event and then changes no table. -/
theorem reading_then_cases {Event : Type} (data : Bytes) (action : ReaderM Event)
    {next : Event → ProcessorM Unit} {processor : BinlogProcessor}
    (returns : ∀ ev, ∃ after, next ev processor = .ok () after ∧
      after.tableMap = processor.tableMap) :
    (∃ stop, (reading data action >>= next) processor = .error stop processor) ∨
      ∃ after, (reading data action >>= next) processor = .ok () after ∧
        after.tableMap = processor.tableMap := by
  rcases reading_cases data action processor with ⟨ev, last, _, read⟩ | ⟨stop, last, _, read⟩
  · right
    rw [Stateful.bind_of_ok read]
    exact returns ev
  · left
    exact ⟨stop, Stateful.bind_of_error read⟩

/-- A table map event that is read is stored under its id. -/
theorem parseTableMapEvent_cases (data : Bytes) (processor : BinlogProcessor) :
    (∃ stop last, readTableMapEvent (.ofString data) = .error stop last ∧
        parseTableMapEvent data processor = .error stop processor) ∨
      ∃ ev ti last, readTableMapEvent (.ofString data) = .ok (ev, ti) last ∧
        parseTableMapEvent data processor = .ok ev
          { processor with
            tableMap := Function.update processor.tableMap ev.tableId (some ti)
            position := ev.header.endPosition } := by
  rcases reading_cases data readTableMapEvent processor with
    ⟨⟨ev, ti⟩, last, decoded, read⟩ | ⟨stop, last, failed, read⟩
  · right
    refine ⟨ev, ti, last, decoded, ?_⟩
    rw [parseTableMapEvent, Stateful.bind_of_ok read]
    rfl
  · left
    refine ⟨stop, last, failed, ?_⟩
    rw [parseTableMapEvent, Stateful.bind_of_error read]

theorem perform_tableMap_cases (data : Bytes) (processor : BinlogProcessor) :
    (∃ stop, (ParseCall.tableMap data).perform processor = .error stop processor ∧
        (ParseCall.tableMap data).described = none) ∨
      ∃ named ti after, (ParseCall.tableMap data).perform processor = .ok () after ∧
        (ParseCall.tableMap data).described = some (named, ti) ∧
        after.tableMap = Function.update processor.tableMap named (some ti) := by
  rcases parseTableMapEvent_cases data processor with ⟨stop, last, failed, raised⟩ |
    ⟨ev, ti, last, decoded, parsed⟩
  · left
    refine ⟨stop, Stateful.bind_of_error raised, ?_⟩
    simp only [ParseCall.described, failed]
  · right
    refine ⟨ev.tableId, ti, _, Stateful.bind_of_ok parsed, ?_, rfl⟩
    simp only [ParseCall.described, decoded]

/-- The calls other than those for table map events change no table. -/
theorem perform_other_cases {call : ParseCall} (other : ∀ data, call ≠ .tableMap data)
    (processor : BinlogProcessor) :
    (∃ stop, call.perform processor = .error stop processor) ∨
      ∃ after, call.perform processor = .ok () after ∧ after.tableMap = processor.tableMap := by
  cases call with
  | tableMap data => exact absurd rfl (other data)
  | rows fuel data =>
      simp only [ParseCall.perform, parseRowsEvent, bind_assoc]
      exact reading_then_cases data (readRowsEvent processor.tableMap fuel)
        fun ev => ⟨_, rfl, rfl⟩
  | query data =>
      simp only [ParseCall.perform, parseQueryEvent, bind_assoc]
      exact reading_then_cases data readQueryEvent fun ev => ⟨_, rfl, rfl⟩
  | rotate data =>
      simp only [ParseCall.perform, parseRotateEvent, bind_assoc]
      exact reading_then_cases data readRotateEvent fun ev => ⟨_, rfl, rfl⟩
  | xid data =>
      simp only [ParseCall.perform, parseXidEvent, bind_assoc]
      exact reading_then_cases data readXidEvent fun ev => ⟨_, rfl, rfl⟩
  | formatDescription data =>
      simp only [ParseCall.perform, parseFormatDescriptionEvent, bind_assoc]
      exact reading_then_cases data readFormatDescriptionEvent fun ev => ⟨_, rfl, rfl⟩
  | unknown data =>
      simp only [ParseCall.perform, parseUnknownEvent]
      by_cases short : data.length < 19
      · exact Or.inl ⟨.runtimeError "binlog event too small for header", by rw [if_pos short]; rfl⟩
      · rw [if_neg short]
        simp only [bind_assoc]
        exact reading_then_cases data getBinlogEventHeader fun ev => ⟨_, rfl, rfl⟩

/-- What a call can do: it raises, describes no table and changes nothing, or it returns and keeps
the table that it describes, if there is one. -/
theorem perform_cases (call : ParseCall) (processor : BinlogProcessor) :
    (∃ stop, call.perform processor = .error stop processor ∧ call.described = none) ∨
      ∃ after, call.perform processor = .ok () after ∧
        after.tableMap = call.keeps processor.tableMap := by
  by_cases isMap : ∃ data, call = .tableMap data
  · rcases isMap with ⟨data, rfl⟩
    rcases perform_tableMap_cases data processor with raised |
      ⟨named, ti, after, returned, described, kept⟩
    · exact Or.inl raised
    · rw [keeps_of_described described]
      exact Or.inr ⟨after, returned, kept⟩
  · have other : ∀ data, call ≠ .tableMap data := fun data same => isMap ⟨data, same⟩
    have described : call.described = none := by
      cases call with
      | tableMap data => exact absurd rfl (other data)
      | _ => rfl
    rw [keeps_of_not_described described]
    rcases perform_other_cases other processor with ⟨stop, raised⟩ | returned
    · exact Or.inl ⟨stop, raised, described⟩
    · exact Or.inr returned

theorem latest_append (calls : List ParseCall) (call : ParseCall) :
    latest (calls ++ [call]) = call.keeps (latest calls) := by
  funext tableId
  rw [latest, List.reverse_append]
  simp only [List.reverse_singleton, List.singleton_append, List.findSome?_cons, ParseCall.keeps]
  cases call.describes tableId with
  | none => rfl
  | some ti => rfl

theorem described_of_latest {calls : List ParseCall} {tableId : ℕ} {ti : BinlogTableInfo}
    (last : latest calls tableId = some ti) :
    ∃ call ∈ calls, call.described = some (tableId, ti) := by
  rcases List.exists_of_findSome?_eq_some last with ⟨call, mem, describes⟩
  exact ⟨call, List.mem_reverse.mp mem, described_of_describes describes⟩

/-- A step keeps the table that its call describes, if there is one. -/
theorem tableMap_of_parseStep {processor next : BinlogProcessor} {call : ParseCall}
    (stepped : parseStep processor call = some next) :
    next.tableMap = call.keeps processor.tableMap := by
  simp only [parseStep] at stepped
  rcases perform_cases call processor with ⟨stop, raised, described⟩ | ⟨after, returned, kept⟩
  · rw [raised] at stepped
    rw [keeps_of_not_described described]
    cases stop with
    | outOfFuel => cases stepped
    | raised exception =>
        cases stepped
        rfl
    | undefined operation =>
        cases stepped
        rfl
  · rw [returned] at stepped
    cases stepped
    exact kept

theorem tableMap_of_run {calls : List ParseCall} {processor : BinlogProcessor}
    (reached : Transition.run parseStep create calls = some processor) :
    processor.tableMap = latest calls := by
  induction calls using List.reverseRecOn generalizing processor with
  | nil =>
      cases reached
      rfl
  | append_singleton calls call ih =>
      rcases Transition.run_append_eq_some.mp reached with ⟨middle, before, last⟩
      rcases Transition.run_cons_eq_some.mp last with ⟨next, stepped, same⟩
      cases same
      rw [tableMap_of_parseStep stepped, ih before, latest_append]

theorem getBytes_of_le {size : ℕ} {reader : StringReader} (enough : size ≤ reader.rest.length) :
    getBytes size reader = .ok (reader.rest.take size)
      { offset := reader.offset + size, rest := reader.rest.drop size } := by
  have counted : remaining reader = .ok reader.rest.length reader := rfl
  rw [getBytes, Stateful.bind_of_ok counted, if_neg (Nat.not_lt.mpr enough)]
  simp only [StringReader.read, Nat.min_eq_left enough]

theorem getBytes_of_lt {size : ℕ} {reader : StringReader} (short : reader.rest.length < size) :
    getBytes size reader = .error (.raised (.outOfRange "end of string")) reader := by
  have counted : remaining reader = .ok reader.rest.length reader := rfl
  rw [getBytes, Stateful.bind_of_ok counted, if_pos short]
  rfl

theorem getLe_of_le {width : ℕ} {reader : StringReader} (enough : width ≤ reader.rest.length) :
    getLe width reader = .ok (leNat (reader.rest.take width))
      { offset := reader.offset + width, rest := reader.rest.drop width } := by
  rw [getLe, Stateful.bind_of_ok (getBytes_of_le enough)]
  rfl

theorem getLe_of_lt {width : ℕ} {reader : StringReader} (short : reader.rest.length < width) :
    getLe width reader = .error (.raised (.outOfRange "end of string")) reader := by
  rw [getLe, Stateful.bind_of_error (getBytes_of_lt short)]

theorem getBinlogEventHeader_of_le {data : Bytes} (enough : 19 ≤ data.length) :
    ∃ header, getBinlogEventHeader (.ofString data) =
      .ok header { offset := 19, rest := data.drop 19 } := by
  have taken : getBytes 19 (.ofString data) =
      .ok (data.take 19) { offset := 0 + 19, rest := data.drop 19 } := getBytes_of_le enough
  rw [getBinlogEventHeader, Stateful.bind_of_ok taken]
  exact ⟨_, rfl⟩

theorem getBinlogEventHeader_of_lt {data : Bytes} (short : data.length < 19) :
    getBinlogEventHeader (.ofString data) =
      .error (.raised (.outOfRange "end of string")) (.ofString data) := by
  have failed : getBytes 19 (.ofString data) =
      .error (.raised (.outOfRange "end of string")) (.ofString data) := getBytes_of_lt short
  rw [getBinlogEventHeader, Stateful.bind_of_error failed]

/-- What `parse_rows_event` reads first: it raises, or it looks up the table id of the event. -/
theorem readRowsEventHead_cases (tableMap : ℕ → Option BinlogTableInfo) (data : Bytes) :
    (∃ exception last, readRowsEventHead tableMap (.ofString data) =
        .error (.raised exception) last) ∨
      ∃ ti, tableMap (tableIdOf data) = some ti ∧
        ∀ ev last, readRowsEventHead tableMap (.ofString data) = .ok ev last →
          ev.tableId = tableIdOf data ∧ ev.ti = ti := by
  rcases Nat.lt_or_ge data.length 19 with short | enough
  · left
    exact ⟨_, _, Stateful.bind_of_error (getBinlogEventHeader_of_lt short)⟩
  · rcases getBinlogEventHeader_of_le enough with ⟨header, got⟩
    rw [readRowsEventHead, Stateful.bind_of_ok got]
    cases kind : writeTypeOf header.type with
    | none => exact Or.inl ⟨_, _, rfl⟩
    | some writeType =>
        dsimp only
        rcases Nat.lt_or_ge (data.drop 19).length 6 with shortId | enoughId
        · left
          exact ⟨_, _, Stateful.bind_of_error (getLe_of_lt shortId)⟩
        · have gotId : getU48l { offset := 19, rest := data.drop 19 } =
              .ok (tableIdOf data) { offset := 19 + 6, rest := (data.drop 19).drop 6 } :=
            getLe_of_le enoughId
          rw [Stateful.bind_of_ok gotId]
          split
          · exact Or.inl ⟨_, _, rfl⟩
          · cases known : tableMap (tableIdOf data) with
            | none => exact Or.inl ⟨_, _, rfl⟩
            | some ti =>
                refine Or.inr ⟨ti, rfl, fun ev last returned => ?_⟩
                refine (?_ : Stateful.Returns (fun ev : BinlogRowsEvent =>
                  ev.tableId = tableIdOf data ∧ ev.ti = ti) _) _ _ _ returned
                refine Stateful.Returns.bind_any fun _ => Stateful.Returns.bind_any fun _ =>
                  Stateful.Returns.bind_any fun _ => ?_
                split
                · exact Stateful.Returns.throw_bind _ _
                · exact Stateful.Returns.pure ⟨rfl, rfl⟩

theorem readRowsEventStart_cases (tableMap : ℕ → Option BinlogTableInfo) (data : Bytes) :
    (∃ exception last, readRowsEventStart tableMap (.ofString data) =
        .error (.raised exception) last) ∨
      ∃ ti, tableMap (tableIdOf data) = some ti ∧
        ∀ ev last, readRowsEventStart tableMap (.ofString data) = .ok ev last →
          ev.tableId = tableIdOf data ∧ ev.ti = ti := by
  rcases readRowsEventHead_cases tableMap data with ⟨exception, last, raised⟩ |
    ⟨ti, known, carries⟩
  · exact Or.inl ⟨exception, last, Stateful.bind_of_error raised⟩
  · refine Or.inr ⟨ti, known, fun ev last returned => ?_⟩
    rcases Stateful.bind_eq_ok_iff.mp returned with ⟨head, middle, read, rest⟩
    rcases Stateful.bind_eq_ok_iff.mp rest with ⟨_, _, _, same⟩
    cases same
    exact carries _ middle read

/-- What holds of a processor after some calls. -/
structure FollowsTableMaps (calls : List ParseCall) (processor : BinlogProcessor) : Prop where
  /-- A call that raises leaves the filename, the position and the tables. -/
  unchanged : ∀ (call : ParseCall) stop after, call.perform processor = .error stop after →
    after = processor
  /-- The table map events that are parsed are those that count for `latest`. -/
  parsed : ∀ data, (∃ after, (ParseCall.tableMap data).perform processor = .ok () after) ↔
    ∃ named ti, (ParseCall.tableMap data).described = some (named, ti)
  /-- A rows event that is parsed carries the latest table for its id, and its rows are those that
  are read with this table. -/
  carried : ∀ fuel data ev after, parseRowsEvent fuel data processor = .ok ev after →
    ev.tableId = tableIdOf data ∧ latest calls (tableIdOf data) = some ev.ti ∧
      ∃ start middle last, readRowsEventStart (latest calls) (.ofString data) = .ok start middle ∧
        readRowChanges ev.ti ev.writeType (hasPreimage ev.header.type) fuel middle =
          .ok ev.rows last
  /-- A rows event for an id without a table raises. -/
  unnamed : ∀ fuel data, latest calls (tableIdOf data) = none →
    ∃ exception, parseRowsEvent fuel data processor = .error (.raised exception) processor

theorem parseRowsEvent_returned {fuel : ℕ} {data : Bytes} {processor after : BinlogProcessor}
    {ev : BinlogRowsEvent} (returned : parseRowsEvent fuel data processor = .ok ev after) :
    ∃ start middle last, readRowsEventStart processor.tableMap (.ofString data) =
        .ok start middle ∧
      readRowChanges start.ti start.writeType (hasPreimage start.header.type) fuel middle =
        .ok ev.rows last ∧
      ev = { start with rows := ev.rows } := by
  rw [parseRowsEvent_eq] at returned
  cases ends : readRowsEvent processor.tableMap fuel (.ofString data) with
  | error stop last =>
      rw [ends] at returned
      cases returned
  | ok event last =>
      rw [ends] at returned
      cases returned
      rcases Stateful.bind_eq_ok_iff.mp ends with ⟨start, middle, started, rest⟩
      rcases Stateful.bind_eq_ok_iff.mp rest with ⟨rows, final, loop, same⟩
      cases same
      exact ⟨start, middle, _, started, loop, rfl⟩

theorem parseRowsEvent_of_start_raised {data : Bytes} {processor : BinlogProcessor}
    {exception : Exception} {last : StringReader}
    (raised : readRowsEventStart processor.tableMap (.ofString data) =
      .error (.raised exception) last) (fuel : ℕ) :
    parseRowsEvent fuel data processor = .error (.raised exception) processor := by
  have read : readRowsEvent processor.tableMap fuel (.ofString data) =
      .error (.raised exception) last := Stateful.bind_of_error raised
  rw [parseRowsEvent_eq, read]

/-- After any sequence of calls, some of which may raise, the next call that raises changes
nothing, and the next rows event is decoded with the table of the latest table map event for its
id that was parsed, or raises if there is none. -/
theorem followsTableMaps_of_run {calls : List ParseCall} {processor : BinlogProcessor}
    (reached : Transition.run parseStep create calls = some processor) :
    FollowsTableMaps calls processor := by
  have tables := tableMap_of_run reached
  refine ⟨?_, ?_, ?_, ?_⟩
  · intro call stop after raises
    rcases perform_cases call processor with ⟨stop', raised, _⟩ | ⟨after', returned, _⟩
    · rw [raised] at raises
      cases raises
      rfl
    · rw [returned] at raises
      cases raises
  · intro data
    rcases perform_tableMap_cases data processor with ⟨stop, raised, described⟩ |
      ⟨named, ti, after, returned, described, _⟩
    · simp [raised, described]
    · simp [returned, described]
  · intro fuel data ev after returned
    rcases parseRowsEvent_returned returned with ⟨start, middle, last, started, loop, same⟩
    rw [tables] at started
    rcases readRowsEventStart_cases (latest calls) data with ⟨exception, _, raised⟩ |
      ⟨ti, known, carries⟩
    · rw [raised] at started
      cases started
    · rcases carries start middle started with ⟨named, carried⟩
      rw [same]
      exact ⟨named, known.trans (congrArg some carried.symm), start, middle, last, started, loop⟩
  · intro fuel data unknown
    rcases readRowsEventStart_cases (latest calls) data with ⟨exception, last, raised⟩ |
      ⟨ti, known, _⟩
    · rw [← tables] at raised
      exact ⟨exception, parseRowsEvent_of_start_raised raised fuel⟩
    · rw [unknown] at known
      cases known

theorem followsTableMaps_sampleMap :
    Transition.run parseStep create [.tableMap sampleMap.encode] = some (create.mapped sampleMap) ∧
      FollowsTableMaps [.tableMap sampleMap.encode] (create.mapped sampleMap) :=
  ⟨run_sampleMap, followsTableMaps_of_run run_sampleMap⟩

end BinlogProcessor

end EventAsync.MySQL
