import EventAsync.MySQL.QueryResults

/-!
# Terminators of result sets

The client asks for terminators with the layout of OK packets: the affected rows
and the insert id as length-encoded integers, then the status flags and the
number of warnings.  `query_multi` reads a terminator as if the number of
warnings and the flags came first.  The bytes of the two integers are then taken
for the number of warnings, and for the flags as well unless there are just two
of them, so that a result may be missed or waited for in vain.
-/

namespace EventAsync.MySQL

open ByteCodec Decoding ProtocolBuffer Client

/-- The first byte of a length-encoded integer. -/
def marker (value : ℕ) : ℕ :=
  if value ≤ 0xFA then value else if value ≤ 0xFFFF then 0xFC else if value ≤ 0xFFFFFF then 0xFD
  else 0xFE

/-- What is taken for the number of warnings. -/
def warningsRead (affectedRows insertId : ℕ) : ℕ :=
  if affectedRows ≤ 0xFA then affectedRows + 256 * marker insertId
  else marker affectedRows + 256 * (affectedRows % 256)

/-- What is taken for the status flags. -/
def flagsRead (affectedRows insertId flags : ℕ) : ℕ :=
  if affectedRows ≤ 0xFA then if insertId ≤ 0xFA then flags else insertId % 2 ^ 16
  else affectedRows / 256 % 256 +
    256 * if affectedRows ≤ 0xFFFF then marker insertId else affectedRows / 2 ^ 16 % 256

section Bytes

theorem marker_lt (value : ℕ) : marker value < 256 := by
  simp only [marker]
  split
  · omega
  · split
    · omega
    · split <;> omega

/-- The bytes behind the first one. -/
def varintTail (value : ℕ) : Bytes :=
  if value ≤ 0xFA then [] else if value ≤ 0xFFFF then leBytes 2 value
  else if value ≤ 0xFFFFFF then leBytes 3 value else leBytes 8 value

theorem varintBytes_eq_marker (value : ℕ) :
    varintBytes value = UInt8.ofNat (marker value) :: varintTail value := by
  simp only [varintBytes, marker, varintTail]
  split
  · rfl
  · split
    · rfl
    · split
      · rfl
      · rfl

theorem leBytes_two {low high : ℕ} (lowFits : low < 256) :
    leBytes 2 (low + 256 * high) = [UInt8.ofNat low, UInt8.ofNat high] := by
  have first : UInt8.ofNat (low + 256 * high) = UInt8.ofNat low := by
    apply UInt8.toNat_inj.mp
    rw [UInt8.toNat_ofNat', UInt8.toNat_ofNat', Nat.add_mul_mod_self_left]
  have second : (low + 256 * high) / 256 = high := by omega
  simp only [leBytes, first, second]

theorem ofNat_mod (value : ℕ) : UInt8.ofNat (value % 256) = UInt8.ofNat value := by
  apply UInt8.toNat_inj.mp
  rw [UInt8.toNat_ofNat', UInt8.toNat_ofNat', Nat.mod_mod]

theorem varintTail_of_word {value : ℕ} (large : ¬value ≤ 0xFA) (word : value ≤ 0xFFFF) :
    varintTail value = [UInt8.ofNat value, UInt8.ofNat (value / 256)] := by
  rw [varintTail, if_neg large, if_pos word]
  rfl

theorem varintTail_of_long {value : ℕ} (long : ¬value ≤ 0xFFFF) :
    ∃ rest, varintTail value =
      UInt8.ofNat value :: UInt8.ofNat (value / 256) :: UInt8.ofNat (value / 2 ^ 16) :: rest := by
  have third : value / 2 ^ 16 = value / 256 / 256 := by omega
  rw [varintTail, if_neg (by omega), if_neg long, third]
  split
  · exact ⟨_, rfl⟩
  · exact ⟨_, rfl⟩

/-- The four bytes that are read from a terminator behind its first byte. -/
theorem terminator_shape (affectedRows insertId flags : ℕ) (following : Bytes) :
    ∃ left, varintBytes affectedRows ++ (varintBytes insertId ++ (leBytes 2 flags ++ following)) =
      leBytes 2 (warningsRead affectedRows insertId) ++
        (leBytes 2 (flagsRead affectedRows insertId flags) ++ left) := by
  rw [varintBytes_eq_marker affectedRows, varintBytes_eq_marker insertId]
  by_cases small : affectedRows ≤ 0xFA
  · have tail : varintTail affectedRows = [] := if_pos small
    have first : marker affectedRows = affectedRows := if_pos small
    rw [warningsRead, flagsRead, if_pos small, if_pos small, tail, first,
      leBytes_two (by omega : affectedRows < 256)]
    by_cases smallId : insertId ≤ 0xFA
    · have tailId : varintTail insertId = [] := if_pos smallId
      rw [if_pos smallId, tailId]
      exact ⟨following, rfl⟩
    · have word : leBytes 2 (insertId % 2 ^ 16) = leBytes 2 insertId := leBytes_mod 2 insertId
      rw [if_neg smallId, word]
      by_cases wordId : insertId ≤ 0xFFFF
      · rw [varintTail_of_word smallId wordId]
        exact ⟨_, rfl⟩
      · rcases varintTail_of_long wordId with ⟨rest, tailId⟩
        rw [tailId]
        exact ⟨_, rfl⟩
  · rw [warningsRead, flagsRead, if_neg small, if_neg small, leBytes_two (marker_lt _),
      leBytes_two (Nat.mod_lt _ (by norm_num)), ofNat_mod, ofNat_mod]
    by_cases word : affectedRows ≤ 0xFFFF
    · rw [if_pos word, varintTail_of_word small word]
      exact ⟨_, rfl⟩
    · rcases varintTail_of_long word with ⟨rest, tail⟩
      rw [if_neg word, tail, ofNat_mod]
      exact ⟨_, rfl⟩

theorem warningsRead_lt (affectedRows insertId : ℕ) :
    warningsRead affectedRows insertId < 2 ^ 16 := by
  have first := marker_lt affectedRows
  have second := marker_lt insertId
  simp only [warningsRead]
  split <;> omega

theorem flagsRead_lt (affectedRows insertId : ℕ) {flags : ℕ} (flagsFit : flags < 2 ^ 16) :
    flagsRead affectedRows insertId flags < 2 ^ 16 := by
  have marked := marker_lt insertId
  simp only [flagsRead]
  split
  · split <;> omega
  · split <;> omega

end Bytes

/-- A result of a query. The terminator of a result set may have any values in its fields. -/
inductive TerminatedResult (lib : Library) where
  | ok (affectedRows insertId : ℕ) (fits : affectedRows < 2 ^ 64 ∧ insertId < 2 ^ 64)
      (status : ResultStatus)
  | resultSet (columns : List ColumnPacket) (nonempty : columns ≠ [])
      (columnsFit : columns.length < 2 ^ 64) (rows : List (TextRow lib columns))
      (affectedRows insertId : ℕ) (fits : affectedRows < 2 ^ 64 ∧ insertId < 2 ^ 64)
      (status : ResultStatus)

namespace TerminatedResult

variable {lib : Library}

def status : TerminatedResult lib → ResultStatus
  | ok _ _ _ status => status
  | resultSet _ _ _ _ _ _ _ status => status

/-- A terminator has the layout of an OK packet. -/
def terminator (affectedRows insertId : ℕ) (status : ResultStatus) : Bytes :=
  0xFE :: (varintBytes affectedRows ++ (varintBytes insertId ++ (leBytes 2 status.flags ++
    (leBytes 2 status.warnings ++ status.info))))

def payloads : TerminatedResult lib → List Bytes
  | ok affectedRows insertId _ status => [QueryResult.okPayload affectedRows insertId status]
  | resultSet _ _ _ rows affectedRows insertId _ status =>
      rowsPayloads rows (terminator affectedRows insertId status)

/-- The number of warnings that the client reads. -/
def readWarnings : TerminatedResult lib → ℕ
  | ok _ _ _ status => status.warnings
  | resultSet _ _ _ _ affectedRows insertId _ _ => warningsRead affectedRows insertId

/-- The status flags that the client reads. -/
def readFlags : TerminatedResult lib → ℕ
  | ok _ _ _ status => status.flags
  | resultSet _ _ _ _ affectedRows insertId _ status => flagsRead affectedRows insertId status.flags

/-- The bytes at the places that are read happen to be those of the right fields. -/
def Aligned (result : TerminatedResult lib) : Prop :=
  result.readWarnings = result.status.warnings ∧ result.readFlags = result.status.flags

/-- There are no bytes behind the fields of an OK packet. -/
def NoInfo : TerminatedResult lib → Prop
  | ok _ _ _ status => status.info = []
  | resultSet _ _ _ _ _ _ _ _ => True

/-- A `ResultSet` with the status that was sent. -/
structure Reports (result : TerminatedResult lib) (res : ResultSet) : Prop where
  statusFlags : res.statusFlags = result.status.flags
  warningCount : res.warningCount = result.status.warnings

theorem length_payloads_pos (result : TerminatedResult lib) : 0 < result.payloads.length := by
  cases result with
  | ok affectedRows insertId fits status => exact Nat.one_pos
  | resultSet columns nonempty columnsFit rows affectedRows insertId fits status =>
      exact Nat.succ_pos _

end TerminatedResult

/-- A response of which all results but the last announce another one. OK packets that are followed
by another result have no further bytes, with which that result would not be read. -/
structure TerminatedResponse (lib : Library) where
  before : List (TerminatedResult lib)
  last : TerminatedResult lib
  more : ∀ result ∈ before, moreResultsExist result.status.flags = true
  noMore : moreResultsExist last.status.flags = false
  noInfo : ∀ result ∈ before, result.NoInfo
  fits : ∀ result ∈ before ++ [last], ∀ payload ∈ result.payloads, payload.length < 2 ^ 24 - 1

namespace TerminatedResponse

variable {lib : Library}

def results (response : TerminatedResponse lib) : List (TerminatedResult lib) :=
  response.before ++ [response.last]

def payloads (response : TerminatedResponse lib) : List Bytes :=
  response.results.flatMap TerminatedResult.payloads

def encode (response : TerminatedResponse lib) : Bytes :=
  packets 1 response.payloads

end TerminatedResponse

section Loops

variable {lib : Library} {session : Session} {following : Bytes} {payloads : List Bytes} {fuel : ℕ}

/-- One iteration of the loop over the results. -/
theorem readResults_terminated (rowsAsDicts : Bool) (result : TerminatedResult lib)
    (fits : ∀ payload ∈ result.payloads, payload.length < 2 ^ 24)
    (enough : result.payloads.length ≤ fuel) (ret : List ResultSet)
    (awaits : session.Awaits [] (result.payloads ++ payloads) following) :
    ∃ res left after, res.statusFlags = result.readFlags ∧
      res.warningCount = result.readWarnings ∧ after.Awaits left payloads following ∧
      (result.NoInfo → moreResultsExist result.readFlags = true → left = []) ∧
      readResults lib rowsAsDicts (fuel + 1) ret session =
        if moreResultsExist result.readFlags then
          readResults lib rowsAsDicts fuel (ret ++ [res]) after
        else .ok (ret ++ [res]) after := by
  cases result with
  | ok affectedRows insertId numbersFit status =>
      rcases readResults_ok_step rowsAsDicts numbersFit.1 numbersFit.2 status
        (fits _ (List.mem_singleton_self _)) fuel ret awaits with ⟨after, awaitsAfter, ends⟩
      exact ⟨_, _, after, rfl, rfl, awaitsAfter, fun noInfo _ => noInfo, ends⟩
  | resultSet columns nonempty columnsFit rows affectedRows insertId numbersFit status =>
      rcases terminator_shape affectedRows insertId status.flags
        (leBytes 2 status.warnings ++ status.info) with ⟨left, shape⟩
      have terminator : TerminatedResult.terminator affectedRows insertId status =
          [0xFE] ++ (leBytes 2 (warningsRead affectedRows insertId) ++
            leBytes 2 (flagsRead affectedRows insertId status.flags)) ++ left := by
        rw [TerminatedResult.terminator, shape]
        simp
      have count : (rowsPayloads rows
          (TerminatedResult.terminator affectedRows insertId status)).length =
          columns.length + rows.length + 2 := by
        simp only [rowsPayloads, List.length_cons, List.length_append, List.length_map,
          List.length_nil]
        omega
      have bound : columns.length + rows.length + 2 ≤ fuel := count ▸ enough
      rcases readResults_rows_step rowsAsDicts nonempty columnsFit rows (warningsRead_lt _ _)
        (flagsRead_lt _ _ status.flagsFit) terminator fits (by omega : columns.length < fuel)
        (by omega : rows.length < fuel) ret awaits with ⟨after, awaitsAfter, ends⟩
      exact ⟨_, _, after, rfl, rfl, awaitsAfter, fun _ more => if_pos more, ends⟩

/-- Results that have been read stay in the list. -/
theorem prefix_readResults (rowsAsDicts : Bool) (fuel : ℕ) (ret : List ResultSet) :
    Stateful.Returns (fun res => ret <+: res) (readResults lib rowsAsDicts fuel ret) := by
  induction fuel generalizing ret with
  | zero => exact Stateful.Returns.throw _
  | succ fuel ih =>
      have extended : ∀ res : ResultSet, Stateful.Returns (fun all => ret <+: all)
          (readResults lib rowsAsDicts fuel (ret ++ [res])) := by
        intro res session all after returned
        exact (List.prefix_append ret [res]).trans (ih _ session all after returned)
      have ended : ∀ res : ResultSet, Stateful.Returns (fun all => ret <+: all)
          (pure (ret ++ [res]) : SessionM (List ResultSet)) :=
        fun res => Stateful.Returns.pure (List.prefix_append ret [res])
      rw [readResults]
      apply Stateful.Returns.bind_any
      intro _
      apply Stateful.Returns.bind_any
      intro responseCommand
      split
      · apply Stateful.Returns.bind_any
        intro res
        split
        · exact extended res
        · exact ended res
      · split
        · apply Stateful.Returns.zoom
          apply Stateful.Returns.bind_any
          intro errorCode
          apply Stateful.Returns.bind_any
          intro sqlstate
          apply Stateful.Returns.bind_any
          intro message
          exact Stateful.Returns.throw _
        · split
          · exact Stateful.Returns.throw _
          · apply Stateful.Returns.bind_any
            intro columnCount
            apply Stateful.Returns.bind_any
            intro columns
            apply Stateful.Returns.bind_any
            intro res
            split
            · apply Stateful.Returns.bind_any
              intro _
              exact extended res
            · exact ended res

/-- The loop returns the results with their status if the terminators are aligned. -/
theorem readResults_of_aligned (rowsAsDicts : Bool) (before : List (TerminatedResult lib))
    (last : TerminatedResult lib)
    (more : ∀ result ∈ before, moreResultsExist result.status.flags = true)
    (noMore : moreResultsExist last.status.flags = false)
    (noInfo : ∀ result ∈ before, result.NoInfo)
    (fits : ∀ result ∈ before ++ [last], ∀ payload ∈ result.payloads, payload.length < 2 ^ 24)
    (aligned : ∀ result ∈ before ++ [last], result.Aligned)
    (enough : ((before ++ [last]).flatMap TerminatedResult.payloads).length < fuel)
    (ret : List ResultSet)
    (awaits : session.Awaits [] ((before ++ [last]).flatMap TerminatedResult.payloads) following) :
    ∃ res after, readResults lib rowsAsDicts fuel ret session = .ok (ret ++ res) after ∧
      List.Forall₂ TerminatedResult.Reports (before ++ [last]) res ∧
      after.client.Receives following := by
  induction before generalizing fuel ret session with
  | nil =>
      cases fuel with
      | zero => cases enough
      | succ fuel =>
          rw [List.nil_append, List.flatMap_cons, List.flatMap_nil] at enough awaits
          rw [List.append_nil] at enough
          have mem : last ∈ [] ++ [last] := List.mem_singleton_self last
          rcases readResults_terminated rowsAsDicts last (fits last mem) (Nat.le_of_lt_succ enough)
            ret awaits with ⟨res, left, after, flags, warnings, ⟨seq, held⟩, _, ends⟩
          rw [(aligned last mem).2] at flags ends
          rw [(aligned last mem).1] at warnings
          rw [noMore] at ends
          exact ⟨[res], after, ends, .cons ⟨flags, warnings⟩ .nil, held.receives⟩
  | cons result before ih =>
      cases fuel with
      | zero => cases enough
      | succ fuel =>
          rw [List.cons_append, List.flatMap_cons] at enough awaits
          rw [List.length_append] at enough
          have packetCount := result.length_payloads_pos
          have mem : result ∈ (result :: before) ++ [last] := List.mem_cons_self ..
          rcases readResults_terminated rowsAsDicts result (fits result mem)
            (by omega : result.payloads.length ≤ fuel) ret awaits with
            ⟨res, left, middle, flags, warnings, awaitsMiddle, clean, ends⟩
          have enoughLater :
              ((before ++ [last]).flatMap TerminatedResult.payloads).length < fuel := by
            omega
          have announced := more result (List.mem_cons_self ..)
          rw [(aligned result mem).2] at flags clean ends
          rw [(aligned result mem).1] at warnings
          rw [clean (noInfo result (List.mem_cons_self ..)) announced] at awaitsMiddle
          rw [announced] at ends
          rcases ih (fun later mem => more later (List.mem_cons_of_mem _ mem))
            (fun later mem => noInfo later (List.mem_cons_of_mem _ mem))
            (fun later mem => fits later (List.mem_cons_of_mem _ mem))
            (fun later mem => aligned later (List.mem_cons_of_mem _ mem))
            enoughLater (ret ++ [res]) awaitsMiddle with
            ⟨others, after, continues, reports, received⟩
          refine ⟨res :: others, after, ?_, .cons ⟨flags, warnings⟩ reports, received⟩
          rw [ends, if_pos rfl, continues, List.append_assoc]
          rfl

/-- If the loop returns a result with its status, its terminator is aligned, and the loop goes on
if another result was announced. -/
theorem aligned_of_returned_first (rowsAsDicts : Bool) (result : TerminatedResult lib)
    (fits : ∀ payload ∈ result.payloads, payload.length < 2 ^ 24)
    (enough : result.payloads.length ≤ fuel) {ret others : List ResultSet} {res : ResultSet}
    {after : Session} (awaits : session.Awaits [] (result.payloads ++ payloads) following)
    (returned : readResults lib rowsAsDicts (fuel + 1) ret session =
      .ok (ret ++ res :: others) after)
    (reports : result.Reports res) :
    result.Aligned ∧ (result.NoInfo → moreResultsExist result.status.flags = true →
      ∃ middle, middle.Awaits [] payloads following ∧
        readResults lib rowsAsDicts fuel (ret ++ [res]) middle =
          .ok (ret ++ [res] ++ others) after) := by
  rcases readResults_terminated rowsAsDicts result fits enough ret awaits with
    ⟨first, left, middle, flags, warnings, awaitsMiddle, clean, ends⟩
  rw [returned] at ends
  have start : ret ++ [first] <+: ret ++ res :: others := by
    split at ends
    · exact prefix_readResults rowsAsDicts fuel _ middle _ after ends.symm
    · injection ends with same
      rw [same]
  have same : first = res :=
    (List.cons_prefix_cons.mp ((List.prefix_append_right_inj ret).mp start)).1
  subst same
  have aligned : result.Aligned :=
    ⟨warnings.symm.trans reports.warningCount, flags.symm.trans reports.statusFlags⟩
  refine ⟨aligned, fun noInfo more => ⟨middle, ?_, ?_⟩⟩
  · rw [clean noInfo (by rw [aligned.2, more])] at awaitsMiddle
    exact awaitsMiddle
  · rw [aligned.2, if_pos more] at ends
    rw [← ends, List.append_assoc]
    rfl

/-- If the loop returns the results with their status, the terminators are aligned. -/
theorem aligned_of_returned (rowsAsDicts : Bool) (before : List (TerminatedResult lib))
    (last : TerminatedResult lib)
    (more : ∀ result ∈ before, moreResultsExist result.status.flags = true)
    (noInfo : ∀ result ∈ before, result.NoInfo)
    (fits : ∀ result ∈ before ++ [last], ∀ payload ∈ result.payloads, payload.length < 2 ^ 24)
    (enough : ((before ++ [last]).flatMap TerminatedResult.payloads).length < fuel)
    {ret res : List ResultSet} {after : Session}
    (awaits : session.Awaits [] ((before ++ [last]).flatMap TerminatedResult.payloads) following)
    (returned : readResults lib rowsAsDicts fuel ret session = .ok (ret ++ res) after)
    (reports : List.Forall₂ TerminatedResult.Reports (before ++ [last]) res) :
    ∀ result ∈ before ++ [last], result.Aligned := by
  induction before generalizing fuel ret res session with
  | nil =>
      cases fuel with
      | zero => cases enough
      | succ fuel =>
          rw [List.nil_append, List.flatMap_cons, List.flatMap_nil] at enough awaits
          rw [List.append_nil] at enough
          cases reports with
          | cons report _ =>
              have first := aligned_of_returned_first rowsAsDicts last
                (fits last (List.mem_singleton_self last)) (Nat.le_of_lt_succ enough)
                  awaits returned
                report
              intro result mem
              cases List.mem_singleton.mp mem
              exact first.1
  | cons result before ih =>
      cases fuel with
      | zero => cases enough
      | succ fuel =>
          rw [List.cons_append, List.flatMap_cons] at enough awaits
          rw [List.length_append] at enough
          have packetCount := result.length_payloads_pos
          have enoughLater :
              ((before ++ [last]).flatMap TerminatedResult.payloads).length < fuel := by
            omega
          have mem : result ∈ result :: before := List.mem_cons_self ..
          cases reports with
          | cons report reports =>
              rcases aligned_of_returned_first rowsAsDicts result
                (fits result (List.mem_cons_self ..)) (by omega : result.payloads.length ≤ fuel)
                awaits returned report with ⟨aligned, goesOn⟩
              rcases goesOn (noInfo result mem) (more result mem) with
                ⟨middle, awaitsMiddle, continues⟩
              have others := ih (fun later mem => more later (List.mem_cons_of_mem _ mem))
                (fun later mem => noInfo later (List.mem_cons_of_mem _ mem))
                (fun later mem => fits later (List.mem_cons_of_mem _ mem))
                enoughLater awaitsMiddle continues reports
              intro other memOther
              rcases List.mem_cons.mp memOther with rfl | memLater
              · exact aligned
              · exact others other memLater

end Loops

namespace TerminatedResponse

variable {lib : Library} {client : Client} {following : Bytes} {fuel : ℕ}

/-- `query_multi` returns a `ResultSet` for each result, with the status that was sent, and has
read exactly the packets of the response. -/
def Reported (response : TerminatedResponse lib) (client : Client) (fuel : ℕ) (sql : Bytes)
    (rowsAsDicts : Bool) (following : Bytes) : Prop :=
  ∃ res after, queryMulti lib fuel sql rowsAsDicts client = .ok res after ∧
    List.Forall₂ TerminatedResult.Reports response.results res ∧ after.Receives following

theorem payloads_fit (response : TerminatedResponse lib) :
    ∀ result ∈ response.before ++ [response.last], ∀ payload ∈ result.payloads,
      payload.length < 2 ^ 24 :=
  fun result mem payload memPayload =>
    (response.fits result mem payload memPayload).trans (by norm_num)

theorem aligned_of_reported {response : TerminatedResponse lib}
    (receives : client.Receives (response.encode ++ following))
    (enough : response.payloads.length < fuel) {sql : Bytes} {rowsAsDicts : Bool}
    (reported : response.Reported client fuel sql rowsAsDicts following) :
    ∀ result ∈ response.results, result.Aligned := by
  rcases exists_sent_query receives lib fuel sql rowsAsDicts with ⟨sent, held, returned, raised⟩
  rcases reported with ⟨res, after, ends, reports, _⟩
  cases loop : readResults lib rowsAsDicts fuel [] sent with
  | ok res' last =>
      rw [returned _ _ loop] at ends
      cases ends
      exact aligned_of_returned rowsAsDicts response.before response.last response.more
        response.noInfo response.payloads_fit enough ⟨1, held⟩ loop reports
  | error stop last =>
      rw [raised _ _ loop] at ends
      cases ends

/-- The status of every result is returned if and only if, in every terminator, the bytes at the
places that are read happen to be those of the right fields. -/
theorem reported_iff (response : TerminatedResponse lib)
    (receives : client.Receives (response.encode ++ following))
    (enough : response.payloads.length < fuel) (sql : Bytes) (rowsAsDicts : Bool) :
    response.Reported client fuel sql rowsAsDicts following ↔
      ∀ result ∈ response.results, result.Aligned := by
  constructor
  · intro reported
    exact aligned_of_reported receives enough reported
  · intro aligned
    rcases exists_sent_query receives lib fuel sql rowsAsDicts with ⟨sent, held, returned, _⟩
    rcases readResults_of_aligned rowsAsDicts response.before response.last response.more
      response.noMore response.noInfo response.payloads_fit aligned enough [] ⟨1, held⟩ with
      ⟨res, after, ends, reports, received⟩
    exact ⟨res, after.client, returned _ _ ends, reports, received⟩

/-- The terminator of a result set with one warning or none. -/
def warnedStatus (warned : Bool) : ResultStatus where
  flags := 0x02
  warnings := if warned then 1 else 0
  info := []
  flagsFit := by decide
  warningsFit := by cases warned <;> decide

theorem oneColumn_ne_nil : [QueryResponse.sampleColumn] ≠ [] := by
  simp

theorem oneColumn_fits : [QueryResponse.sampleColumn].length < 2 ^ 64 := by
  decide

theorem zeros_fit : 0 < 2 ^ 64 ∧ 0 < 2 ^ 64 := by
  decide

/-- A result set with one column and no rows. -/
def warnedResponse (warned : Bool) : TerminatedResponse unusedLibrary where
  before := []
  last := .resultSet [QueryResponse.sampleColumn] oneColumn_ne_nil oneColumn_fits [] 0 0 zeros_fit
    (warnedStatus warned)
  more := by simp
  noMore := by cases warned <;> decide
  noInfo := by simp
  fits := by cases warned <;> decide

theorem reported_withoutWarnings :
    (warnedResponse false).Reported
      (QueryResponse.receivingClient ((warnedResponse false).encode ++ [])) 10
      (ascii "SELECT n FROM t") true [] := by
  refine (reported_iff _ (QueryResponse.receives_receivingClient _) (by decide) _ true).mpr ?_
  intro result mem
  cases List.mem_singleton.mp mem
  exact ⟨rfl, rfl⟩

theorem not_reported_withWarning :
    ¬(warnedResponse true).Reported
      (QueryResponse.receivingClient ((warnedResponse true).encode ++ [])) 10
      (ascii "SELECT n FROM t") true [] := by
  intro reported
  have aligned := aligned_of_reported (QueryResponse.receives_receivingClient _) (by decide)
    reported
    _ (List.mem_singleton_self _)
  exact absurd aligned.1 (by decide)

end TerminatedResponse

end EventAsync.MySQL
