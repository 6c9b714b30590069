import EventAsync.TaskSteps

/-!
# What holds of tasks at all times

Coroutines are on the stack exactly while they execute, a completion resumes
only a coroutine that is suspended on the task that completed, the tasks of an
`AnyAwaiter` have been started, no task is started twice, and a result does not
change.  All of this holds whatever the program does with its tasks.
-/

namespace EventAsync

variable {Value Exc : Type}

namespace Point

variable {first second suspended : Point Value Exc} {task : TaskId} {polledTasks : List TaskId}
  {goesOn : TaskId → List TaskId → Point Value Exc} {system : TaskSystem Value Exc}

theorem awaits_of_not_suspends (executes : ¬first.Suspends) : first.awaits = [] := by
  cases first <;> simp_all [Suspends, awaits]

theorem mem_addTask {tasks : List TaskId} {other : TaskId} :
    other ∈ TaskSystem.AnyAwaiter.addTask tasks task ↔ other ∈ tasks ∨ other = task := by
  simp only [TaskSystem.AnyAwaiter.addTask]
  split
  · constructor
    · exact Or.inl
    · rintro (mem | rfl)
      · exact mem
      · assumption
  · simp

theorem Moves.tasks_subset (moves : Moves first second) :
    ∀ task ∈ second.tasks, task ∈ first.tasks := by
  cases moves <;> simp [tasks, mem_addTask] <;> grind

theorem Moves.polled_subset (moves : Moves first second) :
    ∀ task ∈ second.polled, task ∈ first.polled := by
  cases moves <;> simp [polled, mem_addTask] <;> grind

theorem Moves.not_suspends (moves : Moves first second) : ¬second.Suspends := by
  cases moves <;> simp [Suspends]

theorem Moves.ne_logicError (moves : Moves first second) (message : String) :
    second ≠ .ending (.logicError message) := by
  cases moves <;> simp

theorem Starts.tasks_subset (starts : Starts first task second) :
    task ∈ first.tasks ∧ ∀ other ∈ second.tasks, other ∈ first.tasks := by
  cases starts <;> grind [tasks]

theorem Starts.polled_subset (starts : Starts first task second) :
    ∀ other ∈ second.polled, other ∈ first.polled ∨ other = task := by
  cases starts <;> grind [polled]

theorem Starts.not_suspends (starts : Starts first task second) : ¬second.Suspends := by
  cases starts <;> simp [Suspends]

theorem Starts.ne_logicError (starts : Starts first task second) (message : String) :
    second ≠ .ending (.logicError message) := by
  cases starts <;> simp

theorem Waits.tasks_subset (waits : Waits first task suspended second) :
    task ∈ first.tasks ∧ (∀ other ∈ suspended.tasks, other ∈ first.tasks) ∧
      ∀ other ∈ second.tasks, other ∈ first.tasks := by
  cases waits <;> grind [tasks]

theorem Waits.polled_eq (waits : Waits first task suspended second) :
    suspended.polled = [] ∧ second.polled = [] := by
  cases waits <;> simp [polled]

theorem Waits.suspends (waits : Waits first task suspended second) :
    suspended.Suspends ∧ suspended.awaits = [task] ∧ ¬second.Suspends := by
  cases waits <;> simp [Suspends, awaits]

theorem Waits.ne_logicError (waits : Waits first task suspended second) (message : String) :
    second ≠ .ending (.logicError message) := by
  cases waits <;> simp

theorem Polls.tasks_subset (polls : Polls first polledTasks suspended goesOn) :
    (∀ other ∈ polledTasks, other ∈ first.tasks) ∧
      (∀ other ∈ suspended.tasks, other ∈ first.tasks) ∧
      ∀ ret left, (∀ other ∈ left, other ∈ polledTasks) →
        ∀ other ∈ (goesOn ret left).tasks, other ∈ first.tasks := by
  cases polls <;> grind [tasks, TaskSystem.anyNext, TaskSystem.limitNext]

theorem Polls.polled_eq (polls : Polls first polledTasks suspended goesOn) :
    first.polled = polledTasks ∧ suspended.polled = polledTasks ∧
      ∀ ret left, ∀ other ∈ (goesOn ret left).polled, other ∈ left := by
  cases polls <;> simp [polled, TaskSystem.anyNext, TaskSystem.limitNext]

theorem Polls.suspends (polls : Polls first polledTasks suspended goesOn) :
    suspended.Suspends ∧ suspended.awaits = polledTasks ∧
      ∀ ret left, ¬(goesOn ret left).Suspends := by
  cases polls <;> simp [Suspends, awaits, TaskSystem.anyNext, TaskSystem.limitNext]

theorem Polls.ne_logicError (polls : Polls first polledTasks suspended goesOn) (ret : TaskId)
    (left : List TaskId) (message : String) : goesOn ret left ≠ .ending (.logicError message) := by
  cases polls <;> simp [TaskSystem.anyNext, TaskSystem.limitNext]

theorem PollResumes.tasks_subset (resumes : PollResumes first polledTasks goesOn) :
    (∀ other ∈ polledTasks, other ∈ first.tasks) ∧
      ∀ ret left, (∀ other ∈ left, other ∈ polledTasks) →
        ∀ other ∈ (goesOn ret left).tasks, other ∈ first.tasks := by
  cases resumes <;> grind [tasks, TaskSystem.anyNext, TaskSystem.limitNext]

theorem PollResumes.polled_eq (resumes : PollResumes first polledTasks goesOn) :
    first.polled = polledTasks ∧ ∀ ret left, ∀ other ∈ (goesOn ret left).polled, other ∈ left := by
  cases resumes <;> simp [polled, TaskSystem.anyNext, TaskSystem.limitNext]

theorem PollResumes.suspends (resumes : PollResumes first polledTasks goesOn) :
    first.awaits = polledTasks ∧ ∀ ret left, ¬(goesOn ret left).Suspends := by
  cases resumes <;> simp [Suspends, awaits, TaskSystem.anyNext, TaskSystem.limitNext]

theorem PollResumes.ne_logicError (resumes : PollResumes first polledTasks goesOn) (ret : TaskId)
    (left : List TaskId) (message : String) : goesOn ret left ≠ .ending (.logicError message) := by
  cases resumes <;> simp [TaskSystem.anyNext, TaskSystem.limitNext]

theorem Resumes.tasks_subset (resumes : Resumes system first second) :
    ∀ other ∈ second.tasks, other ∈ first.tasks := by
  cases resumes with
  | user => simp [tasks]
  | all => grind [tasks]
  | @rest task nested outcome => cases outcome <;> simp [tasks, TaskSystem.afterRest]
  | multi => simp [tasks]

theorem Resumes.polled_eq (resumes : Resumes system first second) : second.polled = [] := by
  cases resumes with
  | user => rfl
  | all => rfl
  | @rest task nested outcome => cases outcome <;> rfl
  | multi => rfl

theorem Resumes.suspends (resumes : Resumes system first second) :
    (∃ task, first.awaits = [task]) ∧ ¬second.Suspends := by
  cases resumes with
  | user => simp [awaits, Suspends]
  | all => simp [awaits, Suspends]
  | @rest task nested outcome =>
      cases outcome <;> simp [awaits, Suspends, TaskSystem.afterRest]
  | multi => simp [awaits, Suspends]

/-- `multi` passes on a `logic_error` of its nested task only. -/
theorem Resumes.ne_logicError (resumes : Resumes system first second)
    (none : ∀ coro message, (system.coros coro).result ≠ some (.logicError message))
    (message : String) : second ≠ .ending (.logicError message) := by
  cases resumes with
  | user => simp
  | all => simp
  | @rest task nested outcome done =>
      cases outcome <;> simp [TaskSystem.afterRest]
      exact absurd done (none nested _)
  | multi => simp

end Point

namespace Body

/-- Where the coroutine functions begin. -/
theorem point_begins (body : Body) : (∀ task ∈ (body.point : Point Value Exc).tasks,
    task ∈ body.tasks) ∧ ¬(body.point : Point Value Exc).Suspends ∧
      (body.point : Point Value Exc).polled = [] ∧
      ∀ message, (body.point : Point Value Exc) ≠ .ending (.logicError message) := by
  cases body <;> simp [point, tasks, Point.tasks, Point.Suspends, Point.polled]

end Body

namespace TaskSystem

variable {system next : TaskSystem Value Exc} {coro task waiting : TaskId} {below : List TaskId}
  {point : Point Value Exc} {outcome : Outcome Value Exc}

/-- Where coroutines are: those that execute are on the stack, those that are suspended or done or
not started are not. -/
structure Placed (system : TaskSystem Value Exc) : Prop where
  fresh : ∀ coro, system.made ≤ coro → (system.coros coro).point = .user ∧
    (system.coros coro).started = false ∧ (system.coros coro).awaitingCoro = none ∧
    (system.coros coro).result = none
  known : ∀ coro, ∀ task ∈ (system.coros coro).point.tasks, task < system.made
  nodup : system.stack.Nodup
  executing : ∀ coro ∈ system.stack, (system.coros coro).started = true ∧
    (system.coros coro).result = none ∧ ¬(system.coros coro).point.Suspends
  onStack : ∀ coro, (system.coros coro).started = true → (system.coros coro).result = none →
    (system.coros coro).point ≠ .user → ¬(system.coros coro).point.Suspends → coro ∈ system.stack
  resting : ∀ coro, (system.coros coro).started = false →
    (system.coros coro).result = none ∧ ¬(system.coros coro).point.Suspends
  done : ∀ coro outcome, (system.coros coro).result = some outcome →
    (system.coros coro).point = .ending outcome

namespace Placed

theorem init : Placed (TaskSystem.init : TaskSystem Value Exc) := by
  constructor <;> simp [TaskSystem.init, Point.tasks, Point.Suspends]

theorem lt_made (placed : Placed system) (started : (system.coros coro).started = true) :
    coro < system.made := by
  by_contra unmade
  have notStarted := (placed.fresh coro (Nat.not_lt.mp unmade)).2.1
  rw [started] at notStarted
  cases notStarted

/-- The innermost coroutine executes. -/
theorem top (placed : Placed system) (shape : system.stack = coro :: below) :
    (system.coros coro).started = true ∧ (system.coros coro).result = none ∧
      ¬(system.coros coro).point.Suspends :=
  placed.executing coro (shape ▸ List.mem_cons_self ..)

theorem start (placed : Placed system) (made : task < system.made) :
    Placed (system.start task) := by
  have made_eq := made_start system task
  rcases placed with ⟨fresh, known, nodup, executing, onStack, resting, done⟩
  constructor
  · rw [made_eq]
    intro coro
    simp only [point_start, started_start, awaitingCoro_start, result_start]
    grind
  · rw [made_eq]
    simpa using known
  · rw [stack_start]
    grind
  · rw [stack_start]
    simp only [point_start, started_start, result_start]
    grind
  · rw [stack_start]
    simp only [point_start, started_start, result_start]
    grind
  · simp only [point_start, started_start, result_start]
    grind
  · simpa using done

/-- A coroutine goes to a point and is on the stack afterwards if it executes there. -/
theorem relocate (placed : Placed system) (started : (system.coros coro).started = true)
    (unfinished : (system.coros coro).result = none)
    (knownAfter : ∀ task ∈ point.tasks, task < system.made) {stack : List TaskId}
    (nodupAfter : stack.Nodup) (own : coro ∈ stack ↔ ¬point.Suspends)
    (others : ∀ other, other ≠ coro → (other ∈ stack ↔ other ∈ system.stack))
    (trace : List (TaskTrace Value Exc)) :
    Placed { system.goTo coro point with stack := stack, trace := trace } := by
  have made_eq : (system.goTo coro point).made = system.made := rfl
  have made := placed.lt_made started
  rcases placed with ⟨fresh, known, nodup, executing, onStack, resting, done⟩
  constructor
  · rw [made_eq]
    intro other
    simp only [point_goTo, started_goTo, awaitingCoro_goTo, result_goTo]
    grind
  · rw [made_eq]
    simp only [point_goTo]
    grind
  · exact nodupAfter
  · simp only [point_goTo, started_goTo, result_goTo]
    grind
  · simp only [point_goTo, started_goTo, result_goTo]
    grind
  · simp only [point_goTo, started_goTo, result_goTo]
    grind
  · simp only [point_goTo, result_goTo]
    grind

theorem goTo (placed : Placed system) (shape : system.stack = coro :: below)
    (knownAfter : ∀ task ∈ point.tasks, task < system.made) (executes : ¬point.Suspends) :
    Placed (system.goTo coro point) := by
  rcases placed.top shape with ⟨started, unfinished, _⟩
  have onStack : coro ∈ system.stack := by
    rw [shape]
    exact List.mem_cons_self ..
  exact placed.relocate started unfinished knownAfter placed.nodup (iff_of_true onStack executes)
    (fun _ _ => Iff.rfl) system.trace

theorem awaitSuspend (placed : Placed system) (shape : system.stack = coro :: below)
    (knownAfter : ∀ task ∈ point.tasks, task < system.made) (suspends : point.Suspends)
    (made : task < system.made) : Placed (system.awaitSuspend coro task point) := by
  have made_eq := made_awaitSuspend system coro task point
  rcases placed with ⟨fresh, known, nodup, executing, onStack, resting, done⟩
  constructor
  · rw [made_eq]
    intro other
    simp only [point_awaitSuspend, started_awaitSuspend, awaitingCoro_awaitSuspend,
      result_awaitSuspend]
    grind
  · rw [made_eq]
    simp only [point_awaitSuspend]
    grind
  · rw [stack_awaitSuspend]
    grind
  · rw [stack_awaitSuspend, shape]
    simp only [point_awaitSuspend, started_awaitSuspend, result_awaitSuspend, List.tail_cons]
    grind
  · rw [stack_awaitSuspend, shape]
    simp only [point_awaitSuspend, started_awaitSuspend, result_awaitSuspend, List.tail_cons]
    grind
  · simp only [point_awaitSuspend, started_awaitSuspend, result_awaitSuspend]
    grind
  · simp only [point_awaitSuspend, result_awaitSuspend]
    grind

theorem linkAll (placed : Placed system) {tasks : List TaskId} (made : ∀ task ∈ tasks,
    task < system.made) (waiting : Option TaskId) : Placed (system.linkAll tasks waiting) := by
  have made_eq : (system.linkAll tasks waiting).made = system.made := rfl
  have stack_eq : (system.linkAll tasks waiting).stack = system.stack := rfl
  rcases placed with ⟨fresh, known, nodup, executing, onStack, resting, done⟩
  constructor
  · rw [made_eq]
    intro other
    simp only [point_linkAll, started_linkAll, awaitingCoro_linkAll, result_linkAll]
    grind
  · rw [made_eq]
    simpa using known
  · exact nodup
  · rw [stack_eq]
    simpa using executing
  · rw [stack_eq]
    simpa using onStack
  · simpa using resting
  · simpa using done

theorem create (placed : Placed system) {temporary : Bool}
    (knownAfter : ∀ task ∈ point.tasks, task < system.made) (executes : ¬point.Suspends) :
    Placed (system.create point temporary) := by
  have made_eq : (system.create point temporary).made = system.made + 1 := rfl
  have stack_eq : (system.create point temporary).stack = system.stack := rfl
  rcases placed with ⟨fresh, known, nodup, executing, onStack, resting, done⟩
  constructor
  · rw [made_eq]
    intro other
    simp only [point_create, started_create, awaitingCoro_create, result_create]
    grind
  · rw [made_eq]
    simp only [point_create]
    grind
  · exact nodup
  · rw [stack_eq]
    simp only [point_create, started_create, result_create]
    grind
  · rw [stack_eq]
    simp only [point_create, started_create, result_create]
    grind
  · simp only [point_create, started_create, result_create]
    grind
  · simp only [point_create, result_create]
    grind

theorem completed (placed : Placed system) (shape : system.stack = coro :: below)
    (outcome : Outcome Value Exc) : Placed (system.completed coro outcome) := by
  have made_eq : (system.completed coro outcome).made = system.made := rfl
  have stack_eq : (system.completed coro outcome).stack = below := by
    rw [TaskSystem.completed, shape]
    rfl
  rcases placed with ⟨fresh, known, nodup, executing, onStack, resting, done⟩
  constructor
  · rw [made_eq]
    intro other
    simp only [point_completed, started_completed, awaitingCoro_completed, result_completed]
    grind
  · rw [made_eq]
    simp only [point_completed]
    grind [Point.tasks]
  · rw [stack_eq]
    grind
  · rw [stack_eq]
    simp only [point_completed, started_completed, result_completed]
    grind
  · rw [stack_eq]
    simp only [point_completed, started_completed, result_completed]
    grind
  · simp only [point_completed, started_completed, result_completed]
    grind
  · simp only [point_completed, result_completed]
    grind

/-- The innermost coroutine suspends. -/
theorem leave (placed : Placed system) (shape : system.stack = coro :: below)
    (knownAfter : ∀ task ∈ point.tasks, task < system.made) (suspends : point.Suspends) :
    Placed { system.goTo coro point with stack := below } := by
  rcases placed.top shape with ⟨started, unfinished, _⟩
  have nodup := placed.nodup
  rw [shape, List.nodup_cons] at nodup
  refine placed.relocate started unfinished knownAfter nodup.2
    (iff_of_false nodup.1 (not_not.mpr suspends)) ?_ system.trace
  intro other different
  rw [shape, List.mem_cons, or_iff_right different]

/-- A coroutine of the program that executes suspends. -/
theorem suspendUser (placed : Placed system) (shape : system.stack = coro :: below)
    (isUser : (system.coros coro).point = .user) : Placed { system with stack := below } := by
  rcases placed with ⟨fresh, known, nodup, executing, onStack, resting, done⟩
  exact ⟨fresh, known, by grind, by grind, by grind, resting, done⟩

/-- A coroutine of the program that was suspended executes again. -/
theorem resumeUser (placed : Placed system) (sleeps : system.Sleeps coro = true) :
    Placed { system with stack := coro :: system.stack } := by
  simp only [Sleeps, Bool.and_eq_true, Bool.not_eq_true', TaskSystem.done,
    Option.isSome_eq_false_iff, Option.isNone_iff_eq_none, List.contains_eq_mem,
    decide_eq_false_iff_not] at sleeps
  rcases sleeps with ⟨⟨⟨started, unfinished⟩, notOnStack⟩, sleeping⟩
  have isUser : (system.coros coro).point = .user := by
    split at sleeping
    case h_1 isUser => exact isUser
    case h_2 => cases sleeping
  have executes : ¬(system.coros coro).point.Suspends := by
    rw [isUser]
    exact id
  rcases placed with ⟨fresh, known, nodup, executing, onStack, resting, done⟩
  exact ⟨fresh, known, by grind, by grind, by grind, resting, done⟩

/-- A coroutine that was suspended executes again. -/
theorem wake (placed : Placed system) (suspended : (system.coros waiting).point.Suspends)
    (knownAfter : ∀ task ∈ point.tasks, task < system.made) (executes : ¬point.Suspends)
    (trace : List (TaskTrace Value Exc)) :
    Placed { system.goTo waiting point with stack := waiting :: system.stack, trace := trace } := by
  have started : (system.coros waiting).started = true := by
    by_contra notStarted
    exact (placed.resting waiting (Bool.eq_false_iff.mpr notStarted)).2 suspended
  have unfinished : (system.coros waiting).result = none := by
    rw [Option.eq_none_iff_forall_not_mem]
    intro outcome ended
    rw [placed.done waiting outcome ended] at suspended
    exact suspended
  have notOnStack : waiting ∉ system.stack :=
    fun mem => (placed.executing waiting mem).2.2 suspended
  refine placed.relocate started unfinished knownAfter
    (List.nodup_cons.mpr ⟨notOnStack, placed.nodup⟩)
    (iff_of_true (List.mem_cons_self ..) executes) ?_ trace
  intro other different
  rw [List.mem_cons, or_iff_right different]

end Placed

/-- No completion resumes the coroutine. -/
def Unlinked (system : TaskSystem Value Exc) (coro : TaskId) : Prop :=
  ∀ task, (system.coros task).awaitingCoro = some coro → (system.coros task).result ≠ none

/-- A completion resumes only a coroutine that is suspended on the task that completed. -/
def Linked (system : TaskSystem Value Exc) : Prop :=
  ∀ task waiting, (system.coros task).awaitingCoro = some waiting →
    (system.coros task).result = none → task ∈ (system.coros waiting).point.awaits

namespace Linked

theorem init : Linked (TaskSystem.init : TaskSystem Value Exc) := by
  intro task waiting linked
  cases linked

theorem unlinked (linked : Linked system) (executes : ¬(system.coros coro).point.Suspends) :
    Unlinked system coro := by
  intro task isLinked unfinished
  have awaited := linked task coro isLinked unfinished
  rw [Point.awaits_of_not_suspends executes] at awaited
  exact absurd awaited List.not_mem_nil

theorem goTo (linked : Linked system) (unlinked : Unlinked system coro)
    (point : Point Value Exc) : Linked (system.goTo coro point) := by
  intro task waiting isLinked unfinished
  rw [awaitingCoro_goTo] at isLinked
  rw [result_goTo] at unfinished
  rw [point_goTo]
  split
  case isTrue same => exact absurd unfinished (unlinked task (same ▸ isLinked))
  case isFalse => exact linked task waiting isLinked unfinished

theorem start (linked : Linked system) (task : TaskId) : Linked (system.start task) := by
  intro other waiting isLinked unfinished
  rw [awaitingCoro_start] at isLinked
  rw [result_start] at unfinished
  rw [point_start]
  exact linked other waiting isLinked unfinished

theorem linkAll (linked : Linked system) {tasks : List TaskId} {waiting : Option TaskId}
    (awaited : ∀ coro, waiting = some coro → ∀ task ∈ tasks,
      task ∈ (system.coros coro).point.awaits) : Linked (system.linkAll tasks waiting) := by
  intro task other isLinked unfinished
  rw [awaitingCoro_linkAll] at isLinked
  rw [result_linkAll] at unfinished
  rw [point_linkAll]
  split at isLinked
  case isTrue mem => exact awaited other isLinked task mem
  case isFalse => exact linked task other isLinked unfinished

theorem awaitSuspend (linked : Linked system) (unlinked : Unlinked system coro)
    (awaits : point.awaits = [task]) : Linked (system.awaitSuspend coro task point) := by
  intro other waiting isLinked unfinished
  rw [awaitingCoro_awaitSuspend] at isLinked
  rw [result_awaitSuspend] at unfinished
  rw [point_awaitSuspend]
  split at isLinked
  case isTrue same =>
    cases isLinked
    rw [if_pos rfl, awaits, same]
    exact List.mem_singleton_self task
  case isFalse =>
    split
    case isTrue same => exact absurd unfinished (unlinked other (same ▸ isLinked))
    case isFalse => exact linked other waiting isLinked unfinished

theorem create (linked : Linked system) (placed : Placed system) (point : Point Value Exc)
    (temporary : Bool) : Linked (system.create point temporary) := by
  intro task waiting isLinked unfinished
  rw [awaitingCoro_create] at isLinked
  split at isLinked
  case isTrue => cases isLinked
  case isFalse existing =>
    rw [result_create, if_neg existing] at unfinished
    rw [point_create]
    split
    case isTrue same =>
      have awaited := linked task waiting isLinked unfinished
      rw [same, (placed.fresh system.made le_rfl).1] at awaited
      exact absurd awaited List.not_mem_nil
    case isFalse => exact linked task waiting isLinked unfinished

theorem completed (linked : Linked system) (unlinked : Unlinked system coro)
    (outcome : Outcome Value Exc) : Linked (system.completed coro outcome) := by
  intro task waiting isLinked unfinished
  rw [awaitingCoro_completed] at isLinked
  rw [result_completed] at unfinished
  split at unfinished
  case isTrue => cases unfinished
  case isFalse =>
    rw [point_completed]
    split
    case isTrue same => exact absurd unfinished (unlinked task (same ▸ isLinked))
    case isFalse => exact linked task waiting isLinked unfinished

/-- The coroutine that awaits the innermost one is suspended on it. -/
theorem awaited (linked : Linked system) (placed : Placed system)
    (shape : system.stack = coro :: below)
    (isLinked : (system.coros coro).awaitingCoro = some waiting) :
    coro ∈ (system.coros waiting).point.awaits :=
  linked coro waiting isLinked (placed.top shape).2.1

end Linked

/-- The tasks of every `AnyAwaiter` have been started, and neither of its exceptions is raised. -/
structure Polled (system : TaskSystem Value Exc) : Prop where
  started : ∀ coro, ∀ task ∈ (system.coros coro).point.polled,
    (system.coros task).started = true
  noLogicError : ∀ coro message, (system.coros coro).point ≠ .ending (.logicError message)

namespace Polled

theorem init : Polled (TaskSystem.init : TaskSystem Value Exc) := by
  constructor <;> simp [TaskSystem.init, Point.polled]

theorem goTo (polled : Polled system)
    (startedAfter : ∀ task ∈ point.polled, (system.coros task).started = true)
    (noLogicErrorAfter : ∀ message, point ≠ .ending (.logicError message)) :
    Polled (system.goTo coro point) := by
  rcases polled with ⟨started, noLogicError⟩
  constructor
  · simp only [point_goTo, started_goTo]
    grind
  · simp only [point_goTo]
    grind

theorem start (polled : Polled system) (task : TaskId) : Polled (system.start task) := by
  rcases polled with ⟨started, noLogicError⟩
  constructor
  · simp only [point_start, started_start]
    grind
  · simpa using noLogicError

/-- A task joins the set of an `AnyAwaiter` when it is started. -/
theorem startNext (polled : Polled system)
    (startedAfter : ∀ other ∈ point.polled, (system.coros other).started = true ∨ other = task)
    (noLogicErrorAfter : ∀ message, point ≠ .ending (.logicError message)) :
    Polled ((system.goTo coro point).start task) := by
  rcases polled with ⟨started, noLogicError⟩
  constructor
  · simp only [point_start, started_start, point_goTo, started_goTo]
    grind
  · simp only [point_start, point_goTo]
    grind

theorem linkAll (polled : Polled system) (tasks : List TaskId) (waiting : Option TaskId) :
    Polled (system.linkAll tasks waiting) := by
  rcases polled with ⟨started, noLogicError⟩
  constructor
  · simpa using started
  · simpa using noLogicError

theorem awaitSuspend (polled : Polled system) (nothing : point.polled = [])
    (suspends : point.Suspends) : Polled (system.awaitSuspend coro task point) := by
  rcases polled with ⟨started, noLogicError⟩
  constructor
  · simp only [point_awaitSuspend, started_awaitSuspend]
    grind
  · simp only [point_awaitSuspend]
    grind [Point.Suspends]

theorem create (polled : Polled system) (placed : Placed system) {temporary : Bool}
    (nothing : point.polled = [])
    (noLogicErrorAfter : ∀ message, point ≠ .ending (.logicError message)) :
    Polled (system.create point temporary) := by
  have fresh := placed.fresh
  rcases polled with ⟨started, noLogicError⟩
  constructor
  · simp only [point_create, started_create]
    grind
  · simp only [point_create]
    grind

theorem completed (polled : Polled system) (ends : system.Ends coro outcome) :
    Polled (system.completed coro outcome) := by
  have notLogicError : ∀ message, outcome ≠ .logicError message := by
    rintro message rfl
    rcases ends with ending | ⟨_, returned, isOutcome⟩
    · exact polled.noLogicError coro message ending
    · cases returned <;> cases isOutcome
  rcases polled with ⟨started, noLogicError⟩
  constructor
  · simp only [point_completed, started_completed]
    grind [Point.polled]
  · simp only [point_completed]
    grind

theorem noLogicError_result (polled : Polled system) (placed : Placed system) (coro : TaskId)
    (message : String) : (system.coros coro).result ≠ some (.logicError message) := by
  intro ended
  exact polled.noLogicError coro message (placed.done coro _ ended)

end Polled

/-- `AnyAwaiter::await_resume` finds a task that is done, if there is one. -/
theorem PollsTo.exists_ret {tasks : List TaskId} {goesOn : TaskId → List TaskId → Point Value Exc}
    (pollsTo : system.PollsTo tasks goesOn point)
    (ready : ∃ task ∈ tasks, system.done task = true) :
    ∃ ret ∈ tasks, system.done ret = true ∧ point = goesOn ret (system.left tasks) := by
  cases pollsTo with
  | @some ret mem done => exact ⟨ret, mem, done, rfl⟩
  | none unfinished =>
      rcases ready with ⟨task, mem, done⟩
      rw [unfinished task mem] at done
      cases done

/-- The invariants that hold whatever the program does. -/
structure Sound (system : TaskSystem Value Exc) : Prop where
  placed : Placed system
  linked : Linked system
  polled : Polled system

theorem sound_init : Sound (init : TaskSystem Value Exc) :=
  ⟨.init, .init, .init⟩

theorem left_subset (tasks : List TaskId) : ∀ task ∈ system.left tasks, task ∈ tasks :=
  fun _ mem => List.mem_of_mem_filter mem

theorem done_or_mem_left {tasks : List TaskId} (mem : task ∈ tasks) :
    system.done task = true ∨ task ∈ system.left tasks := by
  cases isDone : system.done task with
  | true => exact Or.inl rfl
  | false => exact Or.inr (List.mem_filter.mpr ⟨mem, by rw [isDone]; rfl⟩)

theorem lt_made_of_named (named : system.Named task = true) : task < system.made := by
  simp only [Named, Bool.and_eq_true, decide_eq_true_eq] at named
  exact named.1

namespace Sound

theorem goTo (sound : Sound system) (shape : system.stack = coro :: below)
    (knownAfter : ∀ task ∈ point.tasks, task < system.made) (executes : ¬point.Suspends)
    (startedAfter : ∀ task ∈ point.polled, (system.coros task).started = true)
    (noLogicErrorAfter : ∀ message, point ≠ .ending (.logicError message)) :
    Sound (system.goTo coro point) :=
  ⟨sound.placed.goTo shape knownAfter executes,
    sound.linked.goTo (sound.linked.unlinked (sound.placed.top shape).2.2) point,
    sound.polled.goTo startedAfter noLogicErrorAfter⟩

theorem start (sound : Sound system) (made : task < system.made) : Sound (system.start task) :=
  ⟨sound.placed.start made, sound.linked.start task, sound.polled.start task⟩

theorem awaitSuspend (sound : Sound system) (shape : system.stack = coro :: below)
    (knownAfter : ∀ task ∈ point.tasks, task < system.made) (suspends : point.Suspends)
    (awaits : point.awaits = [task]) (nothing : point.polled = []) (made : task < system.made) :
    Sound (system.awaitSuspend coro task point) :=
  ⟨sound.placed.awaitSuspend shape knownAfter suspends made,
    sound.linked.awaitSuspend (sound.linked.unlinked (sound.placed.top shape).2.2) awaits,
    sound.polled.awaitSuspend nothing suspends⟩

theorem linkAll (sound : Sound system) {tasks : List TaskId} {waiting : Option TaskId}
    (made : ∀ task ∈ tasks, task < system.made)
    (awaited : ∀ coro, waiting = some coro → ∀ task ∈ tasks,
      task ∈ (system.coros coro).point.awaits) : Sound (system.linkAll tasks waiting) :=
  ⟨sound.placed.linkAll made waiting, sound.linked.linkAll awaited,
    sound.polled.linkAll tasks waiting⟩

/-- Tasks are unlinked. -/
theorem unlinkAll (sound : Sound system) {tasks : List TaskId}
    (made : ∀ task ∈ tasks, task < system.made) : Sound (system.linkAll tasks none) := by
  refine sound.linkAll made ?_
  intro coro isSome
  cases isSome

/-- The innermost coroutine suspends, not yet linked to anything. -/
theorem leave (sound : Sound system) (shape : system.stack = coro :: below)
    (knownAfter : ∀ task ∈ point.tasks, task < system.made) (suspends : point.Suspends)
    (startedAfter : ∀ task ∈ point.polled, (system.coros task).started = true) :
    Sound { system.goTo coro point with stack := below } := by
  have linked := sound.linked.goTo (sound.linked.unlinked (sound.placed.top shape).2.2) point
  have noLogicErrorAfter : ∀ message, point ≠ .ending (.logicError message) := by
    rintro message rfl
    exact suspends
  have polled : Polled (system.goTo coro point) :=
    sound.polled.goTo startedAfter noLogicErrorAfter
  exact ⟨sound.placed.leave shape knownAfter suspends, linked,
    ⟨polled.started, polled.noLogicError⟩⟩

theorem create (sound : Sound system) {temporary : Bool}
    (knownAfter : ∀ task ∈ point.tasks, task < system.made) (executes : ¬point.Suspends)
    (nothing : point.polled = [])
    (noLogicErrorAfter : ∀ message, point ≠ .ending (.logicError message)) :
    Sound (system.create point temporary) :=
  ⟨sound.placed.create knownAfter executes, sound.linked.create sound.placed point temporary,
    sound.polled.create sound.placed nothing noLogicErrorAfter⟩

theorem completed (sound : Sound system) (shape : system.stack = coro :: below)
    (ends : system.Ends coro outcome) : Sound (system.completed coro outcome) :=
  ⟨sound.placed.completed shape outcome,
    sound.linked.completed (sound.linked.unlinked (sound.placed.top shape).2.2) outcome,
    sound.polled.completed ends⟩

/-- The coroutine that awaits the innermost one, after that one has completed. -/
theorem suspended (sound : Sound system) (shape : system.stack = coro :: below)
    (isLinked : (system.coros coro).awaitingCoro = some waiting) :
    waiting ≠ coro ∧ (system.coros waiting).point.Suspends ∧
      coro ∈ (system.coros waiting).point.awaits := by
  have awaited := sound.linked.awaited sound.placed shape isLinked
  have suspends : (system.coros waiting).point.Suspends := by
    by_contra executes
    rw [Point.awaits_of_not_suspends executes] at awaited
    exact absurd awaited List.not_mem_nil
  refine ⟨?_, suspends, awaited⟩
  rintro rfl
  exact (sound.placed.top shape).2.2 suspends

/-- A coroutine that was suspended on one task is linked to no other. -/
theorem unlinked_completed (sound : Sound system) (shape : system.stack = coro :: below)
    (isLinked : (system.coros coro).awaitingCoro = some waiting)
    (single : ∃ task, (system.coros waiting).point.awaits = [task]) :
    Unlinked (system.completed coro outcome) waiting := by
  rcases single with ⟨awaited, single⟩
  have awaitsCoro := (sound.suspended shape isLinked).2.2
  rw [single, List.mem_singleton] at awaitsCoro
  intro task linkedToo
  rw [awaitingCoro_completed] at linkedToo
  rw [result_completed]
  split
  case isTrue => simp
  case isFalse different =>
    intro unfinished
    have awaitsTask := sound.linked task waiting linkedToo unfinished
    rw [single, List.mem_singleton] at awaitsTask
    exact different (awaitsTask.trans awaitsCoro.symm)

/-- A coroutine that was suspended on several tasks is unlinked from those that are not done. -/
theorem unlinked_left (sound : Sound system) {tasks : List TaskId}
    (awaits : (system.coros waiting).point.awaits = tasks) :
    Unlinked ((system.completed coro outcome).linkAll
      ((system.completed coro outcome).left tasks) none) waiting := by
  intro task linkedToo unfinished
  rw [awaitingCoro_linkAll] at linkedToo
  rw [result_linkAll] at unfinished
  split at linkedToo
  case isTrue => cases linkedToo
  case isFalse notLeft =>
    apply notLeft
    have stillUnfinished : (system.coros task).result = none := by
      rw [result_completed] at unfinished
      split at unfinished
      case isTrue => cases unfinished
      case isFalse => exact unfinished
    rw [awaitingCoro_completed] at linkedToo
    have awaited := sound.linked task waiting linkedToo stillUnfinished
    rw [awaits] at awaited
    rw [left, List.mem_filter, done, unfinished]
    exact ⟨awaited, rfl⟩

theorem wake (sound : Sound system) (suspended : (system.coros waiting).point.Suspends)
    (unlinked : Unlinked system waiting)
    (knownAfter : ∀ task ∈ point.tasks, task < system.made) (executes : ¬point.Suspends)
    (startedAfter : ∀ task ∈ point.polled, (system.coros task).started = true)
    (noLogicErrorAfter : ∀ message, point ≠ .ending (.logicError message))
    (trace : List (TaskTrace Value Exc)) :
    Sound { system.goTo waiting point with stack := waiting :: system.stack, trace := trace } := by
  have linked := sound.linked.goTo unlinked point
  have polled : Polled (system.goTo waiting point) :=
    sound.polled.goTo startedAfter noLogicErrorAfter
  exact ⟨sound.placed.wake suspended knownAfter executes trace, linked,
    ⟨polled.started, polled.noLogicError⟩⟩

end Sound

theorem sound_step (system : TaskSystem Value Exc) (event : TaskEvent Value Exc)
    (next : TaskSystem Value Exc) (sound : Sound system) (stepped : system.step event = some next) :
    Sound next := by
  have known := sound.placed.known
  cases steps_of_step stepped with
  | create body userCode named =>
      rcases body.point_begins with ⟨tasks, executes, nothing, noLogicError⟩
      refine sound.create ?_ executes nothing noLogicError
      intro task mem
      exact lt_made_of_named (named task (tasks task mem))
  | start userCode named => exact sound.start (lt_made_of_named named)
  | observe shape isUser named done =>
      exact ⟨⟨sound.placed.fresh, known, sound.placed.nodup, sound.placed.executing,
        sound.placed.onStack, sound.placed.resting, sound.placed.done⟩, sound.linked,
        ⟨sound.polled.started, sound.polled.noLogicError⟩⟩
  | await shape isUser named unfinished =>
      refine sound.awaitSuspend shape ?_ trivial rfl rfl (lt_made_of_named named)
      intro task mem
      rw [List.mem_singleton.mp mem]
      exact lt_made_of_named named
  | suspend shape isUser =>
      exact ⟨sound.placed.suspendUser shape isUser, sound.linked,
        ⟨sound.polled.started, sound.polled.noLogicError⟩⟩
  | resume userCode sleeps =>
      exact ⟨sound.placed.resumeUser sleeps, sound.linked,
        ⟨sound.polled.started, sound.polled.noLogicError⟩⟩
  | move order shape moves =>
      refine sound.goTo shape ?_ moves.not_suspends ?_ moves.ne_logicError
      · intro task mem
        exact known _ task (moves.tasks_subset task mem)
      · intro task mem
        exact sound.polled.started _ task (moves.polled_subset task mem)
  | startNext order shape starts =>
      have placed := sound.placed.goTo shape
        (fun task mem => known _ task (starts.tasks_subset.2 task mem)) starts.not_suspends
      have linked := sound.linked.goTo (sound.linked.unlinked (sound.placed.top shape).2.2)
      refine ⟨placed.start (known _ _ starts.tasks_subset.1), (linked _).start _, ?_⟩
      refine sound.polled.startNext ?_ starts.ne_logicError
      intro other mem
      rcases starts.polled_subset other mem with earlier | same
      · exact Or.inl (sound.polled.started _ other earlier)
      · exact Or.inr same
  | waitDone order shape waits done =>
      refine sound.goTo shape ?_ waits.suspends.2.2 ?_ waits.ne_logicError
      · intro task mem
        exact known _ task (waits.tasks_subset.2.2 task mem)
      · intro task mem
        rw [waits.polled_eq.2] at mem
        exact absurd mem List.not_mem_nil
  | wait order shape waits unfinished =>
      refine sound.awaitSuspend shape ?_ waits.suspends.1 waits.suspends.2.1 waits.polled_eq.1
        (known _ _ waits.tasks_subset.1)
      intro task mem
      exact known _ task (waits.tasks_subset.2.1 task mem)
  | @nest coro task first rest below order shape isPoint =>
      have knownRest : ∀ other ∈ task :: first :: rest, other < system.made := by
        intro other mem
        apply known coro other
        rw [isPoint]
        exact mem
      have created : Sound (system.create (.multiStart first rest) true) := by
        refine sound.create ?_ id rfl (by simp)
        intro other mem
        exact knownRest other (List.mem_cons_of_mem task mem)
      refine created.awaitSuspend shape ?_ trivial rfl rfl (Nat.lt_succ_self _)
      intro other mem
      simp only [Point.tasks, List.mem_cons, List.not_mem_nil, or_false] at mem
      rcases mem with rfl | rfl
      · exact Nat.lt_succ_of_lt (knownRest other (List.mem_cons_self ..))
      · exact Nat.lt_succ_self _
  | @pollReady coro below tasks suspended point goesOn order shape polls ready pollsTo =>
      rcases pollsTo.exists_ret ready with ⟨ret, mem, done, rfl⟩
      have unlinked : Sound (system.linkAll (system.left tasks) none) := sound.unlinkAll
        fun task mem => known coro task (polls.tasks_subset.1 task (left_subset tasks task mem))
      refine unlinked.goTo shape ?_ (polls.suspends.2.2 _ _) ?_ (polls.ne_logicError _ _)
      · intro task mem
        exact known _ task (polls.tasks_subset.2.2 _ _ (left_subset _) task mem)
      · intro task mem
        rw [started_linkAll]
        apply sound.polled.started _ task
        rw [polls.polled_eq.1]
        exact left_subset _ task (polls.polled_eq.2.2 _ _ task mem)
  | @pollSuspend coro below tasks suspended goesOn order shape polls unfinished =>
      have left : Sound { system.goTo coro suspended with stack := below } := by
        refine sound.leave shape ?_ polls.suspends.1 ?_
        · intro task mem
          exact known _ task (polls.tasks_subset.2.1 task mem)
        · intro task mem
          apply sound.polled.started coro task
          rw [polls.polled_eq.1, ← polls.polled_eq.2.1]
          exact mem
      refine left.linkAll (fun task mem => known _ task (polls.tasks_subset.1 task mem)) ?_
      rintro other isSome task mem
      cases isSome
      rw [point_goTo, if_pos rfl, polls.suspends.2.1]
      exact mem
  | pollError order shape polls mem notStarted =>
      have started := sound.polled.started _ _ (polls.polled_eq.1 ▸ mem)
      rw [notStarted] at started
      cases started
  | complete shape ends nobody => exact sound.completed shape ends
  | @wake coro waiting below outcome point event shape ends linked resumes =>
      have completed := sound.completed shape ends
      rcases sound.suspended shape linked with ⟨different, suspends, _⟩
      rw [coros_woken, point_completed, if_neg different] at resumes
      refine completed.wake ?_ (sound.unlinked_completed shape linked resumes.suspends.1) ?_
        resumes.suspends.2 ?_ ?_ _
      · rwa [point_completed, if_neg different]
      · intro task mem
        exact known _ task (resumes.tasks_subset task mem)
      · intro task mem
        rw [resumes.polled_eq] at mem
        exact absurd mem List.not_mem_nil
      · exact resumes.ne_logicError (completed.polled.noLogicError_result completed.placed)
  | @wakePoll coro waiting below tasks outcome point goesOn event shape ends linked resumes
      pollsTo =>
      have completed := sound.completed shape ends
      rcases sound.suspended shape linked with ⟨different, suspends, awaited⟩
      rw [coros_woken, point_completed, if_neg different] at resumes
      rw [resumes.suspends.1] at awaited
      have ready : ∃ task ∈ tasks, (system.woken coro outcome waiting).done task = true := by
        refine ⟨coro, awaited, ?_⟩
        rw [done, coros_woken, result_completed, if_pos rfl]
        rfl
      rcases pollsTo.exists_ret ready with ⟨ret, mem, done, rfl⟩
      have unlinked : Sound ((system.completed coro outcome).linkAll
          ((system.completed coro outcome).left tasks) none) := completed.unlinkAll
        fun task mem =>
          known waiting task (resumes.tasks_subset.1 task (left_subset tasks task mem))
      refine unlinked.wake ?_ (sound.unlinked_left resumes.suspends.1) ?_
        (resumes.suspends.2 _ _) ?_ (resumes.ne_logicError _ _) _
      · rwa [point_linkAll, point_completed, if_neg different]
      · intro task mem
        exact known _ task (resumes.tasks_subset.2 _ _ (left_subset _) task mem)
      · intro task mem
        rw [started_linkAll, started_completed]
        apply sound.polled.started waiting task
        rw [resumes.polled_eq.1]
        exact left_subset _ task (resumes.polled_eq.2 _ _ task mem)

end TaskSystem

end EventAsync
