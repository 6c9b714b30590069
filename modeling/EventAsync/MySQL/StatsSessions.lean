import EventAsync.MySQL.BinlogStats

/-!
# Sessions of the binlog statistics

The program adds up the sizes of the events, and at the end of a transaction it
sends the sum.  When the log consists of transactions, and of events outside of
them, the sums that are sent are the sizes of the transactions.  A session with a
server sends the metrics of the log that the server sends.
-/

namespace EventAsync.MySQL

open ByteCodec

section Transactions

/-- The values of the metrics with a name. -/
def named (name : Bytes) (metrics : List Metric) : List ℕ :=
  (metrics.filter fun metric => metric.name = name).map Metric.value

/-- The name of the metric for the size of a transaction. -/
def transactionBytes : Bytes := ascii "mysql.binlog.transaction_event_bytes"

theorem named_append (name : Bytes) (first second : List Metric) :
    named name (first ++ second) = named name first ++ named name second := by
  rw [named, List.filter_append, List.map_append]
  rfl

namespace LogEvent

theorem named_ownMetrics (tags : Tags) (bytes : ℕ) (event : LogEvent) :
    named transactionBytes (event.ownMetrics tags bytes) =
      if event.commits then [bytes] else [] := by
  cases event with
  | rows table tableId event =>
      rcases event with ⟨_, writeType, _⟩
      cases writeType <;> rfl
  | query event =>
      have notCommit : ascii "BEGIN" ≠ ascii "COMMIT" := by decide
      simp only [ownMetrics, commits, decide_eq_true_eq]
      split
      case isTrue isBegin =>
        rw [isBegin, if_neg notCommit]
        rfl
      case isFalse =>
        split <;> rfl
  | other event =>
      rw [ownMetrics]
      split <;> rfl
  | _ => rfl

/-- Only the end of a transaction has a size of a transaction among its metrics. -/
theorem named_metrics (opts : StatsOptions) (meter : Meter) (event : LogEvent) :
    named transactionBytes (event.metrics opts meter) =
      if event.commits then [event.bytesWith meter.bytes] else [] := by
  rw [metrics, named_append, named_append, named_ownMetrics]
  split <;> rfl

/-- The bytes of some events. -/
def size (events : List LogEvent) : ℕ :=
  (events.map fun event => event.encode.length).sum

/-- A transaction from its beginning to its end. -/
structure Transaction where
  first : LogEvent
  inner : List LogEvent
  last : LogEvent
  begins : first.begins = true
  inside : ∀ event ∈ inner, event.begins = false ∧ event.commits = false
  commits : last.commits = true

def Transaction.events (transaction : Transaction) : List LogEvent :=
  transaction.first :: (transaction.inner ++ [transaction.last])

/-- The log consists of the transactions and of events outside of them. -/
inductive Consists : List LogEvent → List Transaction → Prop where
  | nil : Consists [] []
  | outside {event : LogEvent} {events : List LogEvent} {transactions : List Transaction}
      (notFirst : event.begins = false) (notLast : event.commits = false)
      (later : Consists events transactions) : Consists (event :: events) transactions
  | transaction {events : List LogEvent} {transactions : List Transaction}
      (transaction : Transaction) (later : Consists events transactions) :
      Consists (transaction.events ++ events) (transaction :: transactions)

theorem allMetrics_append (opts : StatsOptions) (meter : Meter) (first second : List LogEvent) :
    allMetrics opts meter (first ++ second) =
      allMetrics opts meter first ++ allMetrics opts (first.foldl meterAfter meter) second := by
  induction first generalizing meter with
  | nil => rfl
  | cons event events ih =>
      rw [List.cons_append, allMetrics, allMetrics, ih, List.append_assoc, List.foldl_cons]

/-- No event begins a transaction and ends it. -/
theorem not_commits_of_begins {event : LogEvent} (isFirst : event.begins = true) :
    event.commits = false := by
  cases event with
  | query event =>
      have isBegin : event.query = ascii "BEGIN" := of_decide_eq_true isFirst
      simp only [commits, isBegin]
      decide
  | _ => cases isFirst

theorem not_begins_of_commits {event : LogEvent} (isLast : event.commits = true) :
    event.begins = false := by
  cases isFirst : event.begins with
  | false => rfl
  | true =>
      rw [not_commits_of_begins isFirst] at isLast
      cases isLast

/-- Inside of a transaction the bytes are only counted. -/
theorem inside_metrics (opts : StatsOptions) {inner : List LogEvent}
    (inside : ∀ event ∈ inner, event.begins = false ∧ event.commits = false) (meter : Meter) :
    named transactionBytes (allMetrics opts meter inner) = [] ∧
      (inner.foldl meterAfter meter).bytes % 2 ^ 64 = (meter.bytes + size inner) % 2 ^ 64 := by
  induction inner generalizing meter with
  | nil => exact ⟨rfl, rfl⟩
  | cons event events ih =>
      rcases inside event List.mem_cons_self with ⟨notFirst, notLast⟩
      rcases ih (fun other mem => inside other (List.mem_cons_of_mem event mem))
        (event.meterAfter meter) with ⟨nothing, counted⟩
      constructor
      · rw [allMetrics, named_append, nothing, named_metrics, notLast]
        rfl
      · rw [List.foldl_cons, counted]
        simp [meterAfter, bytesWith, notFirst, notLast, size, Nat.add_assoc]

/-- At the end of a transaction the bytes of all its events are sent. -/
theorem transaction_metrics (opts : StatsOptions) (transaction : Transaction) (meter : Meter) :
    named transactionBytes (allMetrics opts meter transaction.events) =
      [size transaction.events % 2 ^ 64] := by
  rcases transaction with ⟨first, inner, last, isFirst, inside, isLast⟩
  have notFirst := not_begins_of_commits isLast
  have notLast := not_commits_of_begins isFirst
  rcases inside_metrics opts inside (first.meterAfter meter) with ⟨nothing, counted⟩
  have started : (first.meterAfter meter).bytes = first.encode.length := by
    simp [meterAfter, notLast, bytesWith, isFirst]
  have total : last.bytesWith (inner.foldl meterAfter (first.meterAfter meter)).bytes =
      size (first :: (inner ++ [last])) % 2 ^ 64 := by
    rw [bytesWith, notFirst, if_neg Bool.false_ne_true, ← Nat.mod_add_mod, counted, started]
    simp [size, Nat.add_assoc]
  rw [Transaction.events, allMetrics, named_append, allMetrics_append, named_append, nothing,
    named_metrics, notLast, allMetrics, named_append, named_metrics, isLast, total]
  rfl

/-- The sizes that are sent are those of the transactions, in their order. -/
theorem named_allMetrics (opts : StatsOptions) {events : List LogEvent}
    {transactions : List Transaction} (consists : Consists events transactions) (meter : Meter) :
    named transactionBytes (allMetrics opts meter events) =
      transactions.map fun transaction => size transaction.events % 2 ^ 64 := by
  induction consists generalizing meter with
  | nil => rfl
  | outside notFirst notLast later ih =>
      rw [allMetrics, named_append, named_metrics, notLast, ih]
      rfl
  | transaction transaction later ih =>
      rw [allMetrics_append, named_append, transaction_metrics, ih]
      rfl

end LogEvent

end Transactions

namespace BinlogStats

variable {opts : StatsOptions} {lib : Library} {stats : BinlogStats}

theorem bind_client {Result : Type} {action : ClientM Result} {result : Result} {after : Client}
    {next : Result → BinlogStatsM Unit} (returned : action stats.client = .ok result after) :
    ((liftM action : BinlogStatsM Result) >>= next) stats =
      next result { stats with client := after } :=
  Stateful.bind_of_ok (Stateful.zoom_of_ok returned)

section Sample

open Client BinlogReader

/-- A query that is artificial and has no database. -/
def sampleQuery (query : Bytes) : QueryEventDef where
  header := artificialHeader 2
  connId := 0
  execTimeSecs := 0
  errorCode := 0
  statusVars := []
  databaseName := []
  databaseNameEnd := 0
  query := query
  headerFits := artificialHeader_fits 2
  headerType := rfl
  connIdFits := Nat.two_pow_pos 32
  execTimeSecsFits := Nat.two_pow_pos 32
  errorCodeFits := Nat.two_pow_pos 16
  statusVarsFit := Nat.two_pow_pos 16
  databaseNameFits := Nat.two_pow_pos 8

def sampleXid : XidEventDef where
  header := artificialHeader 16
  xid := 5
  ignored := []
  headerFits := artificialHeader_fits 16
  headerType := rfl
  xidFits := (by norm_num : 5 < 2 ^ 64)

/-- An update within a transaction. -/
def sampleTransaction : LogEvent.Transaction where
  first := .query (sampleQuery (ascii "BEGIN"))
  inner := [.tableMap sampleTable sampleMap, .rows sampleTable 66 (artificialRows sampleRows)]
  last := .xid sampleXid
  begins := rfl
  inside := by
    intro event mem
    fin_cases mem <;> exact ⟨rfl, rfl⟩
  commits := rfl

def transactionHistory : History where
  first := .rotate sampleRotate
  later := sampleTransaction.events.map fun event => ⟨event, [8, 7, 6, 5], rfl⟩
  ending := []
  admissible := ⟨trivial, trivial, trivial, rfl, trivial, trivial⟩
  fits := by decide

def transactionServer : BinlogServer sampleLibrary :=
  { sampleBinlogServer with history := transactionHistory }

/-- Numbers are printed in decimal, and tags are iterated in the order of a list. -/
def sampleOptions : StatsOptions where
  format := ⟨decimal, id⟩
  constantTags := [(ascii "host", ascii "a")]

def sampleStatsd : StatsDClient where
  writingStdout := true
  stream := ⟨[], .bytewise []⟩

/-- The server sends one more byte after the end of the stream. -/
def transactionSocket : Socket :=
  .bytewise (transactionServer.encode loginClient [] 0 ++ [9])

theorem consists_transactionHistory :
    LogEvent.Consists transactionHistory.events [sampleTransaction] :=
  .outside rfl rfl (.transaction sampleTransaction .nil)

end Sample

end BinlogStats

end EventAsync.MySQL
