import EventAsync.Task

/-!
# The transitions of tasks

The step function is taken apart once into the transitions that it makes: a
coroutine goes on to the next point of its body, starts a task, suspends on
one task or on several, or completes and resumes the coroutine that awaits it.
What is said about tasks elsewhere is derived from these transitions.
-/

namespace EventAsync

variable {Value Exc : Type}

namespace Point

/-- The tasks whose completion resumes a coroutine that is suspended at the point. -/
def awaits : Point Value Exc → List TaskId
  | .userAwait task => [task]
  | .allAwait task _ => [task]
  | .multiAwaitRest _ nested => [nested]
  | .multiAwait task => [task]
  | .anyAwait tasks => tasks
  | .limitAwait _ _ tasks => tasks
  | _ => []

/-- The point is a suspension on tasks. -/
def Suspends : Point Value Exc → Prop
  | .userAwait _ | .allAwait _ _ | .multiAwaitRest _ _ | .multiAwait _ | .anyAwait _
  | .limitAwait _ _ _ => True
  | _ => False

/-- The tasks that the coroutine has from this point on. -/
def tasks : Point Value Exc → List TaskId
  | .user => []
  | .userAwait task => [task]
  | .allStart toStart range => toStart ++ range
  | .allWait toWait => toWait
  | .allAwait task toWait => task :: toWait
  | .multiStart task rest => task :: rest
  | .multiRest task rest => task :: rest
  | .multiAwaitRest task nested => [task, nested]
  | .multiWait task => [task]
  | .multiAwait task => [task]
  | .anyStart toStart tasks => toStart ++ tasks
  | .anyAdd task toStart tasks => task :: (toStart ++ tasks)
  | .anyAwait tasks => tasks
  | .limitLoop toStart _ tasks => toStart ++ tasks
  | .limitAdd task toStart _ tasks => task :: (toStart ++ tasks)
  | .limitAwait toStart _ tasks => toStart ++ tasks
  | .ending _ => []

/-- The set of the `AnyAwaiter` at the point, and the task about to be added to it. -/
def polled : Point Value Exc → List TaskId
  | .anyStart _ tasks => tasks
  | .anyAdd task _ tasks => task :: tasks
  | .anyAwait tasks => tasks
  | .limitLoop _ _ tasks => tasks
  | .limitAdd task _ _ tasks => task :: tasks
  | .limitAwait _ _ tasks => tasks
  | _ => []

/-- A task is started on the way from a point to the next. -/
inductive Starts : Point Value Exc → TaskId → Point Value Exc → Prop where
  | all (task : TaskId) (toStart range : List TaskId) :
      Starts (.allStart (task :: toStart) range) task (.allStart toStart range)
  | multi (task : TaskId) (rest : List TaskId) :
      Starts (.multiStart task rest) task (.multiRest task rest)
  | any (task : TaskId) (toStart tasks : List TaskId) :
      Starts (.anyStart (task :: toStart) tasks) task (.anyAdd task toStart tasks)
  | limit (task : TaskId) (toStart : List TaskId) {parallelism : ℕ} {tasks : List TaskId}
      (room : tasks.length < parallelism) :
      Starts (.limitLoop (task :: toStart) parallelism tasks) task
        (.limitAdd task toStart parallelism tasks)

/-- One task is waited for on the way from a point to the next. -/
inductive Waits : Point Value Exc → TaskId → Point Value Exc → Point Value Exc → Prop where
  | all (task : TaskId) (toWait : List TaskId) :
      Waits (.allWait (task :: toWait)) task (.allAwait task toWait) (.allWait toWait)
  | multi (task : TaskId) :
      Waits (.multiWait task) task (.multiAwait task) (.ending .void)

/-- The `AnyAwaiter` is awaited on the way from a point to the next. -/
inductive Polls : Point Value Exc → List TaskId → Point Value Exc →
    (TaskId → List TaskId → Point Value Exc) → Prop where
  | any (tasks : List TaskId) :
      Polls (.anyStart [] tasks) tasks (.anyAwait tasks) TaskSystem.anyNext
  | limit {toStart : List TaskId} {parallelism : ℕ} {tasks : List TaskId}
      (waits : parallelism ≤ tasks.length ∨ toStart = []) (goesOn : toStart ≠ [] ∨ tasks ≠ []) :
      Polls (.limitLoop toStart parallelism tasks) tasks (.limitAwait toStart parallelism tasks)
        (TaskSystem.limitNext toStart parallelism)

/-- The coroutine goes on to the next point without anything else. -/
inductive Moves : Point Value Exc → Point Value Exc → Prop where
  | allStarted (range : List TaskId) : Moves (.allStart [] range) (.allWait range)
  | allEnds : Moves (.allWait []) (.ending .void)
  | multiLast (task : TaskId) : Moves (.multiRest task []) (.multiWait task)
  | anyAdds (task : TaskId) (toStart tasks : List TaskId) :
      Moves (.anyAdd task toStart tasks)
        (.anyStart toStart (TaskSystem.AnyAwaiter.addTask tasks task))
  | limitAdds (task : TaskId) (toStart : List TaskId) (parallelism : ℕ) (tasks : List TaskId) :
      Moves (.limitAdd task toStart parallelism tasks)
        (.limitLoop toStart parallelism (TaskSystem.AnyAwaiter.addTask tasks task))
  | limitEnds (parallelism : ℕ) : Moves (.limitLoop [] parallelism []) (.ending .void)

/-- Where a coroutine that was suspended on one task goes on. -/
inductive Resumes (system : TaskSystem Value Exc) : Point Value Exc → Point Value Exc → Prop where
  | user {task : TaskId} {outcome : Outcome Value Exc}
      (done : (system.coros task).result = some outcome) : Resumes system (.userAwait task) .user
  | all (task : TaskId) (toWait : List TaskId) :
      Resumes system (.allAwait task toWait) (.allWait toWait)
  | rest {task nested : TaskId} {outcome : Outcome Value Exc}
      (done : (system.coros nested).result = some outcome) :
      Resumes system (.multiAwaitRest task nested) (TaskSystem.afterRest task outcome)
  | multi (task : TaskId) : Resumes system (.multiAwait task) (.ending .void)

/-- Where a coroutine that was suspended on several tasks goes on. -/
inductive PollResumes : Point Value Exc → List TaskId →
    (TaskId → List TaskId → Point Value Exc) → Prop where
  | any (tasks : List TaskId) : PollResumes (.anyAwait tasks) tasks TaskSystem.anyNext
  | limit (toStart : List TaskId) (parallelism : ℕ) (tasks : List TaskId) :
      PollResumes (.limitAwait toStart parallelism tasks) tasks
        (TaskSystem.limitNext toStart parallelism)

end Point

namespace TaskSystem

variable {system next : TaskSystem Value Exc}

section Fields

variable (system) (coro task other : TaskId) (tasks : List TaskId) (point : Point Value Exc)
  (waiting : Option TaskId)

@[simp]
theorem point_goTo : ((system.goTo coro point).coros other).point =
    if other = coro then point else (system.coros other).point := by
  simp only [goTo, Function.update_apply]
  split <;> simp_all

@[simp]
theorem started_goTo : ((system.goTo coro point).coros other).started =
    (system.coros other).started := by
  simp only [goTo, Function.update_apply]
  split <;> simp_all

@[simp]
theorem awaitingCoro_goTo : ((system.goTo coro point).coros other).awaitingCoro =
    (system.coros other).awaitingCoro := by
  simp only [goTo, Function.update_apply]
  split <;> simp_all

@[simp]
theorem result_goTo : ((system.goTo coro point).coros other).result =
    (system.coros other).result := by
  simp only [goTo, Function.update_apply]
  split <;> simp_all

@[simp]
theorem point_link : ((system.link task waiting).coros other).point =
    (system.coros other).point := by
  simp only [link, Function.update_apply]
  split <;> simp_all

@[simp]
theorem started_link : ((system.link task waiting).coros other).started =
    (system.coros other).started := by
  simp only [link, Function.update_apply]
  split <;> simp_all

@[simp]
theorem awaitingCoro_link : ((system.link task waiting).coros other).awaitingCoro =
    if other = task then waiting else (system.coros other).awaitingCoro := by
  simp only [link, Function.update_apply]
  split <;> simp_all

@[simp]
theorem result_link : ((system.link task waiting).coros other).result =
    (system.coros other).result := by
  simp only [link, Function.update_apply]
  split <;> simp_all

@[simp]
theorem point_linkAll : ((system.linkAll tasks waiting).coros other).point =
    (system.coros other).point := by
  simp only [linkAll]
  split <;> rfl

@[simp]
theorem started_linkAll : ((system.linkAll tasks waiting).coros other).started =
    (system.coros other).started := by
  simp only [linkAll]
  split <;> rfl

@[simp]
theorem awaitingCoro_linkAll : ((system.linkAll tasks waiting).coros other).awaitingCoro =
    if other ∈ tasks then waiting else (system.coros other).awaitingCoro := by
  simp only [linkAll]
  split <;> rfl

@[simp]
theorem result_linkAll : ((system.linkAll tasks waiting).coros other).result =
    (system.coros other).result := by
  simp only [linkAll]
  split <;> rfl

@[simp]
theorem point_start : ((system.start task).coros other).point = (system.coros other).point := by
  simp only [start]
  split
  · rfl
  · simp only [Function.update_apply]
    split <;> simp_all

@[simp]
theorem started_start : ((system.start task).coros other).started =
    (decide (other = task) || (system.coros other).started) := by
  by_cases same : other = task
  · simp only [start, same, decide_true, Bool.true_or]
    split <;> simp_all
  · simp only [start, same, decide_false, Bool.false_or]
    split <;> simp_all

@[simp]
theorem awaitingCoro_start : ((system.start task).coros other).awaitingCoro =
    (system.coros other).awaitingCoro := by
  simp only [start]
  split
  · rfl
  · simp only [Function.update_apply]
    split <;> simp_all

@[simp]
theorem result_start : ((system.start task).coros other).result =
    (system.coros other).result := by
  simp only [start]
  split
  · rfl
  · simp only [Function.update_apply]
    split <;> simp_all

@[simp]
theorem point_create (temporary : Bool) : ((system.create point temporary).coros other).point =
    if other = system.made then point else (system.coros other).point := by
  simp only [create, Function.update_apply]
  split <;> simp_all

@[simp]
theorem started_create (temporary : Bool) : ((system.create point temporary).coros other).started =
    if other = system.made then false else (system.coros other).started := by
  simp only [create, Function.update_apply]
  split <;> simp_all

@[simp]
theorem awaitingCoro_create (temporary : Bool) :
    ((system.create point temporary).coros other).awaitingCoro =
      if other = system.made then none else (system.coros other).awaitingCoro := by
  simp only [create, Function.update_apply]
  split <;> simp_all

@[simp]
theorem result_create (temporary : Bool) : ((system.create point temporary).coros other).result =
    if other = system.made then none else (system.coros other).result := by
  simp only [create, Function.update_apply]
  split <;> simp_all

@[simp]
theorem point_awaitSuspend : ((system.awaitSuspend coro task point).coros other).point =
    if other = coro then point else (system.coros other).point := by
  simp [awaitSuspend]

@[simp]
theorem started_awaitSuspend : ((system.awaitSuspend coro task point).coros other).started =
    (decide (other = task) || (system.coros other).started) := by
  simp [awaitSuspend]

@[simp]
theorem awaitingCoro_awaitSuspend :
    ((system.awaitSuspend coro task point).coros other).awaitingCoro =
      if other = task then some coro else (system.coros other).awaitingCoro := by
  simp [awaitSuspend]

@[simp]
theorem result_awaitSuspend : ((system.awaitSuspend coro task point).coros other).result =
    (system.coros other).result := by
  simp [awaitSuspend]

@[simp]
theorem temporary_goTo : ((system.goTo coro point).coros other).temporary =
    (system.coros other).temporary := by
  simp only [goTo, Function.update_apply]
  split <;> simp_all

@[simp]
theorem temporary_link : ((system.link task waiting).coros other).temporary =
    (system.coros other).temporary := by
  simp only [link, Function.update_apply]
  split <;> simp_all

@[simp]
theorem temporary_linkAll : ((system.linkAll tasks waiting).coros other).temporary =
    (system.coros other).temporary := by
  simp only [linkAll]
  split <;> rfl

@[simp]
theorem temporary_start : ((system.start task).coros other).temporary =
    (system.coros other).temporary := by
  simp only [start]
  split
  · rfl
  · simp only [Function.update_apply]
    split <;> simp_all

@[simp]
theorem temporary_create (temporary : Bool) :
    ((system.create point temporary).coros other).temporary =
      if other = system.made then temporary else (system.coros other).temporary := by
  simp only [create, Function.update_apply]
  split <;> simp_all

@[simp]
theorem temporary_awaitSuspend : ((system.awaitSuspend coro task point).coros other).temporary =
    (system.coros other).temporary := by
  simp [awaitSuspend]

theorem made_start : (system.start task).made = system.made := by
  simp only [start]
  split <;> rfl

theorem made_awaitSuspend : (system.awaitSuspend coro task point).made = system.made := by
  rw [awaitSuspend, made_start]
  rfl

theorem stack_awaitSuspend : (system.awaitSuspend coro task point).stack =
    if (system.coros task).started then system.stack.tail else task :: system.stack.tail := by
  simp only [awaitSuspend, start, started_link, started_goTo]
  split <;> rfl

theorem stack_start : (system.start task).stack =
    if (system.coros task).started then system.stack else task :: system.stack := by
  simp only [start]
  split <;> rfl

theorem trace_start : (system.start task).trace =
    if (system.coros task).started then system.trace
    else system.trace ++ [.started task] := by
  simp only [start]
  split <;> rfl

end Fields

/-- The state in which the innermost coroutine has completed and nobody is resumed yet. -/
def completed (system : TaskSystem Value Exc) (coro : TaskId) (outcome : Outcome Value Exc) :
    TaskSystem Value Exc :=
  { system with
    coros := Function.update system.coros coro
      { system.coros coro with point := .ending outcome, result := some outcome }
    stack := system.stack.tail
    trace := system.trace ++ [.completed coro outcome] }

/-- The state in which a completion has put the coroutine that awaits it on top of the stack. -/
def woken (system : TaskSystem Value Exc) (coro : TaskId) (outcome : Outcome Value Exc)
    (waiting : TaskId) : TaskSystem Value Exc :=
  { system.completed coro outcome with
    stack := waiting :: system.stack.tail
    trace := system.trace ++ [.completed coro outcome, .resumed waiting coro] }

section CompletedFields

variable (system) (coro other waiting : TaskId) (outcome : Outcome Value Exc)

@[simp]
theorem point_completed : ((system.completed coro outcome).coros other).point =
    if other = coro then .ending outcome else (system.coros other).point := by
  simp only [completed, Function.update_apply]
  split <;> simp_all

@[simp]
theorem started_completed : ((system.completed coro outcome).coros other).started =
    (system.coros other).started := by
  simp only [completed, Function.update_apply]
  split <;> simp_all

@[simp]
theorem awaitingCoro_completed : ((system.completed coro outcome).coros other).awaitingCoro =
    (system.coros other).awaitingCoro := by
  simp only [completed, Function.update_apply]
  split <;> simp_all

@[simp]
theorem result_completed : ((system.completed coro outcome).coros other).result =
    if other = coro then some outcome else (system.coros other).result := by
  simp only [completed, Function.update_apply]
  split <;> simp_all

@[simp]
theorem temporary_completed : ((system.completed coro outcome).coros other).temporary =
    (system.coros other).temporary := by
  simp only [completed, Function.update_apply]
  split <;> simp_all

theorem coros_woken : (system.woken coro outcome waiting).coros =
    (system.completed coro outcome).coros := rfl

end CompletedFields

/-- The tasks of a set that are not done. -/
def left (system : TaskSystem Value Exc) (tasks : List TaskId) : List TaskId :=
  tasks.filter fun task => !system.done task

/-- The point that `AnyAwaiter::await_resume` leads to. -/
inductive PollsTo (system : TaskSystem Value Exc) (tasks : List TaskId)
    (next : TaskId → List TaskId → Point Value Exc) : Point Value Exc → Prop where
  | some {ret : TaskId} (mem : ret ∈ tasks) (done : system.done ret = true) :
      PollsTo system tasks next (next ret (system.left tasks))
  | none (unfinished : ∀ task ∈ tasks, system.done task = false) :
      PollsTo system tasks next
        (.ending (.logicError "no task resumed during AnyAwaiter suspend"))

/-- The coroutine may complete with the outcome. -/
def Ends (system : TaskSystem Value Exc) (coro : TaskId) (outcome : Outcome Value Exc) : Prop :=
  (system.coros coro).point = .ending outcome ∨
    (system.coros coro).point = .user ∧ ∃ returned, outcome = outcomeOf returned

/-- What the resumed coroutine observes, for the trace. -/
def observes (system : TaskSystem Value Exc) (coro : TaskId) : List (TaskTrace Value Exc) :=
  match (system.coros coro).point with
  | .userAwait task =>
      match (system.coros task).result with
      | some outcome => [.observed coro task outcome]
      | none => []
  | _ => []

/-- The transitions of tasks, with what each of them requires. -/
inductive Steps (system : TaskSystem Value Exc) :
    TaskEvent Value Exc → TaskSystem Value Exc → Prop where
  | create (body : Body) (userCode : system.UserCodeRuns = true)
      (named : ∀ task ∈ body.tasks, system.Named task = true) :
      Steps system (.create body) (system.create body.point false)
  | start {task : TaskId} (userCode : system.UserCodeRuns = true)
      (named : system.Named task = true) : Steps system (.start task) (system.start task)
  | observe {coro task : TaskId} {below : List TaskId} {outcome : Outcome Value Exc}
      (shape : system.stack = coro :: below) (point : (system.coros coro).point = .user)
      (named : system.Named task = true) (done : (system.coros task).result = some outcome) :
      Steps system (.await task)
        { system with trace := system.trace ++ [.observed coro task outcome] }
  | await {coro task : TaskId} {below : List TaskId}
      (shape : system.stack = coro :: below) (point : (system.coros coro).point = .user)
      (named : system.Named task = true) (unfinished : (system.coros task).result = none) :
      Steps system (.await task) (system.awaitSuspend coro task (.userAwait task))
  | suspend {coro : TaskId} {below : List TaskId} (shape : system.stack = coro :: below)
      (point : (system.coros coro).point = .user) :
      Steps system .suspend { system with stack := below }
  | resume {coro : TaskId} (userCode : system.UserCodeRuns = true)
      (sleeps : system.Sleeps coro = true) :
      Steps system (.resume coro) { system with stack := coro :: system.stack }
  | move {coro : TaskId} {below : List TaskId} {point : Point Value Exc} (order : IterationOrder)
      (shape : system.stack = coro :: below) (moves : (system.coros coro).point.Moves point) :
      Steps system (.proceed order) (system.goTo coro point)
  | startNext {coro task : TaskId} {below : List TaskId} {point : Point Value Exc}
      (order : IterationOrder) (shape : system.stack = coro :: below)
      (starts : (system.coros coro).point.Starts task point) :
      Steps system (.proceed order) ((system.goTo coro point).start task)
  | waitDone {coro task : TaskId} {below : List TaskId} {suspended point : Point Value Exc}
      (order : IterationOrder) (shape : system.stack = coro :: below)
      (waits : (system.coros coro).point.Waits task suspended point)
      (done : system.done task = true) :
      Steps system (.proceed order) (system.goTo coro point)
  | wait {coro task : TaskId} {below : List TaskId} {suspended point : Point Value Exc}
      (order : IterationOrder) (shape : system.stack = coro :: below)
      (waits : (system.coros coro).point.Waits task suspended point)
      (unfinished : system.done task = false) :
      Steps system (.proceed order) (system.awaitSuspend coro task suspended)
  | nest {coro task first : TaskId} {rest below : List TaskId} (order : IterationOrder)
      (shape : system.stack = coro :: below)
      (point : (system.coros coro).point = .multiRest task (first :: rest)) :
      Steps system (.proceed order)
        ((system.create (.multiStart first rest) true).awaitSuspend coro system.made
          (.multiAwaitRest task system.made))
  | pollReady {coro : TaskId} {below tasks : List TaskId} {suspended point : Point Value Exc}
      {goesOn : TaskId → List TaskId → Point Value Exc} (order : IterationOrder)
      (shape : system.stack = coro :: below)
      (polls : (system.coros coro).point.Polls tasks suspended goesOn)
      (ready : ∃ task ∈ tasks, system.done task = true)
      (pollsTo : system.PollsTo tasks goesOn point) :
      Steps system (.proceed order) ((system.linkAll (system.left tasks) none).goTo coro point)
  | pollSuspend {coro : TaskId} {below tasks : List TaskId} {suspended : Point Value Exc}
      {goesOn : TaskId → List TaskId → Point Value Exc} (order : IterationOrder)
      (shape : system.stack = coro :: below)
      (polls : (system.coros coro).point.Polls tasks suspended goesOn)
      (unfinished : ∀ task ∈ tasks, system.done task = false) :
      Steps system (.proceed order)
        { (system.goTo coro suspended).linkAll tasks (some coro) with stack := below }
  | pollError {coro task : TaskId} {below tasks : List TaskId} {suspended : Point Value Exc}
      {goesOn : TaskId → List TaskId → Point Value Exc} (order : IterationOrder)
      (shape : system.stack = coro :: below)
      (polls : (system.coros coro).point.Polls tasks suspended goesOn)
      (mem : task ∈ tasks) (notStarted : (system.coros task).started = false) :
      Steps system (.proceed order) (system.goTo coro
        (.ending (.logicError "all tasks must be started before using AnyAwaiter")))
  | complete {coro : TaskId} {below : List TaskId} {outcome : Outcome Value Exc}
      {event : TaskEvent Value Exc} (shape : system.stack = coro :: below)
      (ends : system.Ends coro outcome) (nobody : (system.coros coro).awaitingCoro = none) :
      Steps system event (system.completed coro outcome)
  | wake {coro waiting : TaskId} {below : List TaskId} {outcome : Outcome Value Exc}
      {point : Point Value Exc} {event : TaskEvent Value Exc} (shape : system.stack = coro :: below)
      (ends : system.Ends coro outcome)
      (linked : (system.coros coro).awaitingCoro = some waiting)
      (resumes : ((system.woken coro outcome waiting).coros waiting).point.Resumes
        (system.woken coro outcome waiting) point) :
      Steps system event
        { (system.woken coro outcome waiting).goTo waiting point with
          trace := (system.woken coro outcome waiting).trace ++
            (system.woken coro outcome waiting).observes waiting }
  | wakePoll {coro waiting : TaskId} {below tasks : List TaskId} {outcome : Outcome Value Exc}
      {point : Point Value Exc} {goesOn : TaskId → List TaskId → Point Value Exc}
      {event : TaskEvent Value Exc} (shape : system.stack = coro :: below)
      (ends : system.Ends coro outcome)
      (linked : (system.coros coro).awaitingCoro = some waiting)
      (resumes : ((system.woken coro outcome waiting).coros waiting).point.PollResumes tasks goesOn)
      (pollsTo : (system.woken coro outcome waiting).PollsTo tasks goesOn point) :
      Steps system event
        (((system.woken coro outcome waiting).linkAll
          ((system.woken coro outcome waiting).left tasks) none).goTo waiting point)

namespace AnyAwaiter

theorem done_of_ready {tasks : List TaskId} (ready : awaitReady system tasks = .ok true) :
    ∃ task ∈ tasks, system.done task = true := by
  induction tasks with
  | nil => cases ready
  | cons task tasks ih =>
      simp only [awaitReady] at ready
      split at ready
      case isTrue done => exact ⟨task, List.mem_cons_self .., done⟩
      case isFalse =>
        split at ready
        case isTrue =>
          rcases ih ready with ⟨later, mem, done⟩
          exact ⟨later, List.mem_cons_of_mem task mem, done⟩
        case isFalse => cases ready

theorem unfinished_of_not_ready {tasks : List TaskId}
    (notReady : awaitReady system tasks = .ok false) :
    ∀ task ∈ tasks, system.done task = false := by
  induction tasks with
  | nil =>
      intro task mem
      exact absurd mem List.not_mem_nil
  | cons first tasks ih =>
      simp only [awaitReady] at notReady
      split at notReady
      case isTrue => cases notReady
      case isFalse unfinished =>
        split at notReady
        case isTrue =>
          intro task mem
          rcases List.mem_cons.mp mem with rfl | later
          · exact Bool.eq_false_iff.mpr unfinished
          · exact ih notReady task later
        case isFalse => cases notReady

theorem notStarted_of_error {tasks : List TaskId} {message : String}
    (raises : awaitReady system tasks = .error message) :
    message = "all tasks must be started before using AnyAwaiter" ∧
      ∃ task ∈ tasks, (system.coros task).started = false := by
  induction tasks with
  | nil => cases raises
  | cons task tasks ih =>
      simp only [awaitReady] at raises
      split at raises
      case isTrue => cases raises
      case isFalse =>
        split at raises
        case isTrue =>
          rcases ih raises with ⟨text, later, mem, notStarted⟩
          exact ⟨text, later, List.mem_cons_of_mem task mem, notStarted⟩
        case isFalse notStarted =>
          cases raises
          exact ⟨rfl, task, List.mem_cons_self .., Bool.eq_false_iff.mpr notStarted⟩

theorem awaitResume_eq (coro : TaskId) (tasks : List TaskId) (order : IterationOrder)
    (goesOn : TaskId → List TaskId → Point Value Exc) :
    ∃ point, system.PollsTo tasks goesOn point ∧
      awaitResume system coro tasks order goesOn =
        (system.linkAll (system.left tasks) none).goTo coro point := by
  simp only [awaitResume]
  cases found : (order.arrange tasks).find? system.done with
  | some ret =>
      have mem := (order.perm tasks).mem_iff.mp (List.mem_of_find?_eq_some found)
      exact ⟨_, .some mem (List.find?_some found), rfl⟩
  | none =>
      refine ⟨_, .none ?_, rfl⟩
      intro task mem
      have notFound := List.find?_eq_none.mp found task ((order.perm tasks).mem_iff.mpr mem)
      exact Bool.eq_false_iff.mpr notFound

end AnyAwaiter

theorem Steps.of_poll {coro : TaskId} {below tasks : List TaskId} {suspended : Point Value Exc}
    {goesOn : TaskId → List TaskId → Point Value Exc} (order : IterationOrder)
    (shape : system.stack = coro :: below)
    (polls : (system.coros coro).point.Polls tasks suspended goesOn) :
    Steps system (.proceed order)
      (AnyAwaiter.await system coro tasks order suspended goesOn) := by
  simp only [AnyAwaiter.await]
  split
  case h_1 ready =>
    rcases AnyAwaiter.done_of_ready ready with ⟨task, mem, done⟩
    rcases AnyAwaiter.awaitResume_eq coro tasks order goesOn with ⟨point, pollsTo, resumed⟩
    rw [resumed]
    exact .pollReady order shape polls ⟨task, (order.perm tasks).mem_iff.mp mem, done⟩ pollsTo
  case h_2 notReady =>
    rw [shape, List.tail_cons]
    refine .pollSuspend order shape polls ?_
    intro task mem
    exact AnyAwaiter.unfinished_of_not_ready notReady task ((order.perm tasks).mem_iff.mpr mem)
  case h_3 message raises =>
    rcases AnyAwaiter.notStarted_of_error raises with ⟨rfl, task, mem, notStarted⟩
    exact .pollError order shape polls ((order.perm tasks).mem_iff.mp mem) notStarted

theorem Steps.of_wait {coro task : TaskId} {below : List TaskId} {suspended point : Point Value Exc}
    (order : IterationOrder) (shape : system.stack = coro :: below)
    (waits : (system.coros coro).point.Waits task suspended point) :
    Steps system (.proceed order) (system.wait coro task suspended point) := by
  simp only [TaskSystem.wait]
  split
  case isTrue done => exact .waitDone order shape waits done
  case isFalse unfinished => exact .wait order shape waits (Bool.eq_false_iff.mpr unfinished)

/-- `await_resume` of a coroutine that was suspended on one task. -/
theorem awaitResume_cases {coro : TaskId} {order : IterationOrder}
    (resumed : system.awaitResume coro order = some next) :
    (∃ point, (system.coros coro).point.Resumes system point ∧
      next = { system.goTo coro point with trace := system.trace ++ system.observes coro }) ∨
    ∃ tasks goesOn point, (system.coros coro).point.PollResumes tasks goesOn ∧
      system.PollsTo tasks goesOn point ∧
      next = (system.linkAll (system.left tasks) none).goTo coro point := by
  have quiet : ∀ point, system.observes coro = [] →
      system.goTo coro point =
        { system.goTo coro point with trace := system.trace ++ system.observes coro } := by
    intro point nothing
    rw [nothing, List.append_nil]
    rfl
  simp only [awaitResume] at resumed
  split at resumed
  case h_1 task isPoint =>
    rcases Option.map_eq_some_iff.mp resumed with ⟨outcome, done, rfl⟩
    have observed : system.observes coro = [.observed coro task outcome] := by
      simp only [observes, isPoint, done]
    refine Or.inl ⟨.user, isPoint ▸ .user done, ?_⟩
    rw [observed]
  case h_2 task toWait isPoint =>
    cases resumed
    refine Or.inl ⟨_, isPoint ▸ .all task toWait, quiet _ ?_⟩
    simp only [observes, isPoint]
  case h_3 task nested isPoint =>
    rcases Option.map_eq_some_iff.mp resumed with ⟨outcome, done, rfl⟩
    refine Or.inl ⟨_, isPoint ▸ .rest done, quiet _ ?_⟩
    simp only [observes, isPoint]
  case h_4 task isPoint =>
    cases resumed
    refine Or.inl ⟨_, isPoint ▸ .multi task, quiet _ ?_⟩
    simp only [observes, isPoint]
  case h_5 tasks isPoint =>
    cases resumed
    rcases AnyAwaiter.awaitResume_eq coro tasks order anyNext with ⟨point, pollsTo, ends⟩
    exact Or.inr ⟨tasks, anyNext, point, isPoint ▸ .any tasks, pollsTo, ends⟩
  case h_6 toStart parallelism tasks isPoint =>
    cases resumed
    rcases AnyAwaiter.awaitResume_eq coro tasks order (limitNext toStart parallelism) with
      ⟨point, pollsTo, ends⟩
    exact Or.inr ⟨tasks, _, point, isPoint ▸ .limit toStart parallelism tasks, pollsTo, ends⟩
  case h_7 => cases resumed

theorem Steps.of_complete {coro : TaskId} {below : List TaskId} {outcome : Outcome Value Exc}
    {event : TaskEvent Value Exc} {order : IterationOrder} (shape : system.stack = coro :: below)
    (ends : system.Ends coro outcome) (completes : system.complete coro outcome order = some next) :
    Steps system event next := by
  simp only [TaskSystem.complete] at completes
  split at completes
  case h_1 nobody =>
    cases completes
    exact .complete shape ends nobody
  case h_2 waiting linked =>
    have resumed : (system.woken coro outcome waiting).awaitResume waiting order = some next := by
      rw [woken, completed]
      simpa using completes
    rcases awaitResume_cases resumed with ⟨point, resumes, rfl⟩ |
      ⟨tasks, goesOn, point, resumes, pollsTo, rfl⟩
    · exact .wake shape ends linked resumes
    · exact .wakePoll shape ends linked resumes pollsTo

theorem point_of_userCode {coro : TaskId} {below : List TaskId}
    (shape : system.stack = coro :: below) (userCode : system.UserCodeRuns = true) :
    (system.coros coro).point = .user := by
  simp only [UserCodeRuns, shape] at userCode
  split at userCode
  case h_1 isUser => exact isUser
  case h_2 => cases userCode

theorem Steps.of_proceed {coro : TaskId} {below : List TaskId} {order : IterationOrder}
    (shape : system.stack = coro :: below)
    (proceeds : system.proceed coro order = some next) : Steps system (.proceed order) next := by
  simp only [TaskSystem.proceed] at proceeds
  split at proceeds
  case h_1 range isPoint =>
    cases proceeds
    exact .move order shape (isPoint ▸ .allStarted range)
  case h_2 task toStart range isPoint =>
    cases proceeds
    exact .startNext order shape (isPoint ▸ .all task toStart range)
  case h_3 isPoint =>
    cases proceeds
    exact .move order shape (isPoint ▸ .allEnds)
  case h_4 task toWait isPoint =>
    cases proceeds
    exact .of_wait order shape (isPoint ▸ .all task toWait)
  case h_5 task rest isPoint =>
    cases proceeds
    exact .startNext order shape (isPoint ▸ .multi task rest)
  case h_6 task isPoint =>
    cases proceeds
    exact .move order shape (isPoint ▸ .multiLast task)
  case h_7 task first rest isPoint =>
    cases proceeds
    exact .nest order shape isPoint
  case h_8 task isPoint =>
    cases proceeds
    exact .of_wait order shape (isPoint ▸ .multi task)
  case h_9 task toStart tasks isPoint =>
    cases proceeds
    exact .startNext order shape (isPoint ▸ .any task toStart tasks)
  case h_10 task toStart tasks isPoint =>
    cases proceeds
    exact .move order shape (isPoint ▸ .anyAdds task toStart tasks)
  case h_11 tasks isPoint =>
    cases proceeds
    exact .of_poll order shape (isPoint ▸ .any tasks)
  case h_12 parallelism isPoint =>
    cases proceeds
    exact .move order shape (isPoint ▸ .limitEnds parallelism)
  case h_13 parallelism tasks nonempty isPoint =>
    cases proceeds
    exact .of_poll order shape (isPoint ▸ .limit (.inr rfl) (.inr nonempty))
  case h_14 task toStart parallelism tasks isPoint =>
    split at proceeds
    case isTrue full =>
      cases proceeds
      exact .of_poll order shape (isPoint ▸ .limit (.inl full)
        (.inl (List.cons_ne_nil task toStart)))
    case isFalse room =>
      cases proceeds
      exact .startNext order shape (isPoint ▸ .limit task toStart (by omega))
  case h_15 task toStart parallelism tasks isPoint =>
    cases proceeds
    exact .move order shape (isPoint ▸ .limitAdds task toStart parallelism tasks)
  case h_16 outcome isPoint => exact .of_complete shape (.inl isPoint) proceeds
  case h_17 => cases proceeds

/-- Every accepted event is one of the transitions. -/
theorem steps_of_step {event : TaskEvent Value Exc} (stepped : system.step event = some next) :
    Steps system event next := by
  cases event with
  | create body =>
      simp only [step] at stepped
      split at stepped
      case isTrue allowed =>
        cases stepped
        exact .create body allowed.1 allowed.2
      case isFalse => cases stepped
  | start task =>
      simp only [step] at stepped
      split at stepped
      case isTrue allowed =>
        cases stepped
        exact .start allowed.1 allowed.2
      case isFalse => cases stepped
  | await task =>
      simp only [step] at stepped
      split at stepped
      case h_1 => cases stepped
      case h_2 coro below shape =>
        split at stepped
        case isTrue allowed =>
          cases stepped
          have isUser := point_of_userCode shape allowed.1
          simp only [await]
          split
          case h_1 outcome done => exact .observe shape isUser allowed.2 done
          case h_2 unfinished => exact .await shape isUser allowed.2 unfinished
        case isFalse => cases stepped
  | suspend =>
      simp only [step] at stepped
      split at stepped
      case h_1 => cases stepped
      case h_2 coro below shape =>
        split at stepped
        case isTrue userCode =>
          cases stepped
          exact .suspend shape (point_of_userCode shape userCode)
        case isFalse => cases stepped
  | resume coro =>
      simp only [step] at stepped
      split at stepped
      case isTrue allowed =>
        cases stepped
        exact .resume allowed.1 allowed.2
      case isFalse => cases stepped
  | finish outcome order =>
      simp only [step] at stepped
      split at stepped
      case h_1 => cases stepped
      case h_2 coro below shape =>
        split at stepped
        case isTrue userCode =>
          exact .of_complete shape (.inr ⟨point_of_userCode shape userCode, outcome, rfl⟩) stepped
        case isFalse => cases stepped
  | proceed order =>
      simp only [step] at stepped
      split at stepped
      case h_1 => cases stepped
      case h_2 coro below shape => exact .of_proceed shape stepped

end TaskSystem

end EventAsync
