import Mathlib.Tactic

/-!
# Logs of interleaved writers

Several writers, each with a block of symbols to write, append to one log, which
records the writer of every symbol.  The log is serial if it is a prefix of the
writers' whole blocks one after another.  Appending to a serial log keeps it
serial exactly if no other writer is in the middle of its block.
-/

namespace SerialLog

universe u v

variable {Writer : Type u} {Symbol : Type v} {block : Writer → List Symbol}
  {log : List (Writer × Symbol)} {writer other : Writer} {symbols : List Symbol}

/-- The symbols as one writer's entries of the log. -/
def tagged (writer : Writer) (symbols : List Symbol) : List (Writer × Symbol) :=
  symbols.map fun symbol => (writer, symbol)

/-- The blocks of some writers, one after another. -/
def blocks (block : Writer → List Symbol) (order : List Writer) : List (Writer × Symbol) :=
  order.flatMap fun writer => tagged writer (block writer)

/-- The log is a prefix of whole blocks, at most one for each writer. -/
def Serial (block : Writer → List Symbol) (log : List (Writer × Symbol)) : Prop :=
  ∃ order : List Writer, order.Nodup ∧ (∀ writer ∈ order, block writer ≠ []) ∧
    log <+: blocks block order

theorem serial_nil (block : Writer → List Symbol) : Serial block [] := by
  refine ⟨[], List.nodup_nil, ?_, List.nil_prefix⟩
  intro writer mem
  exact absurd mem List.not_mem_nil

/-- Writers that have no block yet do not matter. -/
theorem Serial.of_blocks {changed : Writer → List Symbol} (serial : Serial block log)
    (kept : ∀ writer, block writer ≠ [] → changed writer = block writer) : Serial changed log := by
  rcases serial with ⟨order, nodup, nonempty, within⟩
  have same : blocks changed order = blocks block order := by
    apply List.flatMap_congr
    intro writer mem
    rw [kept writer (nonempty writer mem)]
  refine ⟨order, nodup, ?_, ?_⟩
  · intro writer mem
    rw [kept writer (nonempty writer mem)]
    exact nonempty writer mem
  · rwa [same]

/-- A prefix of whole blocks ends at the end of a block or within one. -/
theorem blocks_prefix {order : List Writer} (within : log <+: blocks block order) :
    ∃ finished rest tail, order = finished ++ rest ∧ log = blocks block finished ++ tail ∧
      (tail = [] ∨ ∃ writer later, rest = writer :: later ∧ tail ≠ [] ∧
        tail <+: tagged writer (block writer) ∧ tail ≠ tagged writer (block writer)) := by
  induction order generalizing log with
  | nil =>
      have empty : log = [] := List.prefix_nil.mp within
      exact ⟨[], [], [], rfl, empty, Or.inl rfl⟩
  | cons writer order ih =>
      have split : blocks block (writer :: order) =
          tagged writer (block writer) ++ blocks block order := List.flatMap_cons
      rw [split] at within
      rcases List.prefix_or_prefix_of_prefix within (List.prefix_append _ _) with inside | beyond
      · by_cases whole : log = tagged writer (block writer)
        · refine ⟨[writer], order, [], rfl, ?_, Or.inl rfl⟩
          rw [whole, blocks, List.flatMap_singleton, List.append_nil]
        · refine ⟨[], writer :: order, log, rfl, rfl, ?_⟩
          by_cases empty : log = []
          · exact Or.inl empty
          · exact Or.inr ⟨writer, order, rfl, empty, inside, whole⟩
      · rcases beyond with ⟨later, rfl⟩
        rw [List.prefix_append_right_inj] at within
        rcases ih within with ⟨finished, rest, tail, rfl, rfl, tailEnds⟩
        refine ⟨writer :: finished, rest, tail, rfl, ?_, tailEnds⟩
        rw [← List.append_assoc]
        rfl

/-- The writer of the last entry of a log. -/
theorem getLast?_append_tagged (front : List (Writer × Symbol)) (something : symbols ≠ []) :
    (front ++ tagged writer symbols).getLast?.map Prod.fst = some writer := by
  rcases List.eq_nil_or_concat symbols with rfl | ⟨init, last, rfl⟩
  · exact absurd rfl something
  · simp [tagged, ← List.append_assoc]

section Parts

variable [DecidableEq Writer]

/-- The symbols that one writer has appended. -/
def part (log : List (Writer × Symbol)) (writer : Writer) : List Symbol :=
  log.filterMap fun entry => if entry.1 = writer then some entry.2 else none

@[simp]
theorem part_append (first second : List (Writer × Symbol)) (writer : Writer) :
    part (first ++ second) writer = part first writer ++ part second writer :=
  List.filterMap_append ..

@[simp]
theorem part_tagged (writer : Writer) (symbols : List Symbol) :
    part (tagged writer symbols) writer = symbols := by
  simp [part, tagged, List.filterMap_map]

theorem part_tagged_of_ne (different : other ≠ writer) (symbols : List Symbol) :
    part (tagged writer symbols) other = [] := by
  simp [part, tagged, List.filterMap_map, different.symm]

theorem part_blocks_of_not_mem {finished : List Writer} (notMem : writer ∉ finished) :
    part (blocks block finished) writer = [] := by
  induction finished with
  | nil => rfl
  | cons first finished ih =>
      rw [List.mem_cons, not_or] at notMem
      have split : blocks block (first :: finished) =
          tagged first (block first) ++ blocks block finished := List.flatMap_cons
      rw [split, part_append, part_tagged_of_ne notMem.1, ih notMem.2, List.append_nil]

theorem part_blocks_of_mem {finished : List Writer} (nodup : finished.Nodup)
    (mem : writer ∈ finished) : part (blocks block finished) writer = block writer := by
  induction finished with
  | nil => exact absurd mem List.not_mem_nil
  | cons first finished ih =>
      rw [List.nodup_cons] at nodup
      have split : blocks block (first :: finished) =
          tagged first (block first) ++ blocks block finished := List.flatMap_cons
      rw [split, part_append]
      rcases List.mem_cons.mp mem with rfl | later
      · rw [part_tagged, part_blocks_of_not_mem nodup.1, List.append_nil]
      · have different : writer ≠ first := by
          rintro rfl
          exact nodup.1 later
        rw [part_tagged_of_ne different, ih nodup.2 later, List.nil_append]

/-- Entries of one writer, put together from what it has appended. -/
theorem eq_tagged_of_prefix {tail : List (Writer × Symbol)} {whole : List Symbol}
    (inside : tail <+: tagged writer whole) : tail = tagged writer (part tail writer) := by
  rcases inside with ⟨rest, joined⟩
  rcases List.map_eq_append_iff.mp joined.symm with ⟨first, second, rfl, rfl, rfl⟩
  rw [← tagged, part_tagged]

/-- Nobody else is in the middle of a block. -/
def Idle (block : Writer → List Symbol) (log : List (Writer × Symbol)) (writer : Writer) : Prop :=
  ∀ other, other ≠ writer → part log other = [] ∨ part log other = block other

/-- A log stays serial when a writer continues its block and no other writer is in the middle of
one. -/
theorem Serial.append (serial : Serial block log) (idle : Idle block log writer)
    (continues : part log writer ++ symbols <+: block writer) :
    Serial block (log ++ tagged writer symbols) := by
  by_cases nothing : symbols = []
  · rw [nothing, tagged, List.map_nil, List.append_nil]
    exact serial
  · rcases serial with ⟨order, nodup, nonempty, within⟩
    rcases blocks_prefix within with ⟨finished, rest, tail, rfl, rfl, tailEnds⟩
    have nodupFinished : finished.Nodup := nodup.of_append_left
    have blockNonempty : block writer ≠ [] := by
      intro empty
      rw [empty, List.prefix_nil] at continues
      exact nothing (List.append_eq_nil_iff.mp continues).2
    have notFinished : writer ∉ finished := by
      intro mem
      have short := continues.length_le
      rw [part_append, part_blocks_of_mem nodupFinished mem] at short
      simp only [List.length_append] at short
      exact nothing (List.length_eq_zero_iff.mp (by omega))
    have tailOwn : tail = tagged writer (part tail writer) := by
      rcases tailEnds with rfl | ⟨current, later, rfl, started, inside, unfinished⟩
      · rfl
      · have notMem : current ∉ finished := by
          intro mem
          exact (List.nodup_append.mp nodup).2.2 current mem current (List.mem_cons_self ..) rfl
        have own := eq_tagged_of_prefix inside
        by_cases same : current = writer
        · rwa [same] at own
        · have middle := idle current same
          rw [part_append, part_blocks_of_not_mem notMem, List.nil_append] at middle
          rcases middle with none | all
          · rw [none] at own
            exact absurd own started
          · rw [all] at own
            exact absurd own unfinished
    refine ⟨finished ++ [writer], ?_, ?_, ?_⟩
    · exact nodupFinished.append (List.nodup_singleton writer)
        (List.disjoint_singleton.mpr notFinished)
    · intro member mem
      rcases List.mem_append.mp mem with earlier | last
      · exact nonempty member (List.mem_append_left _ earlier)
      · rw [List.mem_singleton.mp last]
        exact blockNonempty
    · rw [part_append, part_blocks_of_not_mem notFinished, List.nil_append] at continues
      have joined : blocks block (finished ++ [writer]) =
          blocks block finished ++ tagged writer (block writer) := by
        rw [blocks, List.flatMap_append, List.flatMap_singleton]
        rfl
      rw [joined, List.append_assoc, List.prefix_append_right_inj, tailOwn, tagged, tagged,
        ← List.map_append]
      exact continues.map _

/-- In a serial log, nobody was in the middle of a block when another writer appended. -/
theorem Serial.idle (serial : Serial block (log ++ tagged writer symbols))
    (something : symbols ≠ []) : Idle block log writer := by
  intro other different
  have unchanged : part (log ++ tagged writer symbols) other = part log other := by
    rw [part_append, part_tagged_of_ne different, List.append_nil]
  rw [← unchanged]
  rcases serial with ⟨order, nodup, nonempty, within⟩
  rcases blocks_prefix within with ⟨finished, rest, tail, rfl, joined, tailEnds⟩
  have nodupFinished : finished.Nodup := nodup.of_append_left
  have tailOther : part tail other = [] := by
    rcases tailEnds with rfl | ⟨current, later, rfl, started, inside, unfinished⟩
    · rfl
    · have own := eq_tagged_of_prefix inside
      have last : writer = current := by
        have written : part tail current ≠ [] := by
          intro empty
          rw [empty] at own
          exact started own
        have lastEntry : (log ++ tagged writer symbols).getLast?.map Prod.fst = some writer :=
          getLast?_append_tagged log something
        rw [joined, own, getLast?_append_tagged _ written] at lastEntry
        exact (Option.some.inj lastEntry).symm
      rw [own]
      exact part_tagged_of_ne (last ▸ different) _
  rw [joined, part_append, tailOther, List.append_nil]
  by_cases mem : other ∈ finished
  · exact Or.inr (part_blocks_of_mem nodupFinished mem)
  · exact Or.inl (part_blocks_of_not_mem mem)

end Parts

end SerialLog
