import EventAsync.Lib.Transition

/-!
# Tasks and the functions that wait for several of them

A `Task` owns a coroutine that does not run before it is started or awaited.
Its promise holds one handle, the coroutine to resume when the task completes,
and the value or the exception that it completed with.  `multi`, `all`, `any`
and `all_limit` are coroutines themselves, so a task in this file is either a
coroutine of the program, of which each step is chosen by an event, or one of
these four at some point of its body.

One thread executes all coroutines.  The stack has the coroutines that are
executing, the innermost one first: a coroutine that starts or resumes another
one stays on it, and one that suspends or completes leaves it.  A handle that is
returned from `await_suspend` takes the place of the coroutine that suspended.
-/

namespace EventAsync

abbrev TaskId := ℕ

/-- What a task completes with. -/
inductive Outcome (Value Exc : Type) where
  | value (value : Value)
  | void
  /-- The pointer that `any` returns. -/
  | task (task : TaskId)
  | exception (exc : Exc)
  | logicError (message : String)
  deriving DecidableEq

/-- Where a coroutine is in its body.  The points named `Await` are suspensions; the others are
passed while the coroutine executes. -/
inductive Point (Value Exc : Type) where
  /-- Code of the program, which is executing or suspended on something that is not a task. -/
  | user
  | userAwait (task : TaskId)
  /-- The first loop of `all`. -/
  | allStart (toStart range : List TaskId)
  /-- The second loop of `all`. -/
  | allWait (toWait : List TaskId)
  | allAwait (task : TaskId) (toWait : List TaskId)
  | multiStart (task : TaskId) (rest : List TaskId)
  /-- `multi` after `t.start()`. -/
  | multiRest (task : TaskId) (rest : List TaskId)
  /-- `multi` in `co_await multi(r...)`. -/
  | multiAwaitRest (task nested : TaskId)
  | multiWait (task : TaskId)
  | multiAwait (task : TaskId)
  /-- The loop of `any`; `tasks` is the set of its `AnyAwaiter`. -/
  | anyStart (toStart tasks : List TaskId)
  /-- `any` after `it->start()`. -/
  | anyAdd (task : TaskId) (toStart tasks : List TaskId)
  | anyAwait (tasks : List TaskId)
  /-- The loop of `all_limit`; `toStart` is the range from `start_it` on. -/
  | limitLoop (toStart : List TaskId) (parallelism : ℕ) (tasks : List TaskId)
  /-- `all_limit` after `start_it->start()`. -/
  | limitAdd (task : TaskId) (toStart : List TaskId) (parallelism : ℕ) (tasks : List TaskId)
  | limitAwait (toStart : List TaskId) (parallelism : ℕ) (tasks : List TaskId)
  /-- The coroutine returns or an exception leaves it. -/
  | ending (outcome : Outcome Value Exc)

/-- A task and its promise.  `temporary` tasks are known to the coroutine that made them only. -/
structure TaskCoro (Value Exc : Type) where
  point : Point Value Exc
  started : Bool
  awaitingCoro : Option TaskId
  result : Option (Outcome Value Exc)
  temporary : Bool

/-- What the trace records. -/
inductive TaskTrace (Value Exc : Type) where
  | started (task : TaskId)
  | completed (task : TaskId) (outcome : Outcome Value Exc)
  | resumed (coro completedTask : TaskId)
  | observed (coro task : TaskId) (outcome : Outcome Value Exc)

/-- All tasks made so far and the stack of coroutines that are executing. -/
structure TaskSystem (Value Exc : Type) where
  made : ℕ
  coros : TaskId → TaskCoro Value Exc
  stack : List TaskId
  trace : List (TaskTrace Value Exc)

/-- The order in which an `unordered_set` is iterated. -/
structure IterationOrder where
  arrange : List TaskId → List TaskId
  perm : ∀ tasks, (arrange tasks).Perm tasks

/-- The order of insertion. -/
def IterationOrder.insertion : IterationOrder where
  arrange := id
  perm := List.Perm.refl

/-- A coroutine function that is called. -/
inductive Body where
  | user
  | all (range : List TaskId)
  | multi (first : TaskId) (rest : List TaskId)
  | any (range : List TaskId)
  | allLimit (range : List TaskId) (parallelism : ℕ)

/-- One choice of the program. -/
inductive TaskEvent (Value Exc : Type) where
  | create (body : Body)
  /-- `task.start()`. -/
  | start (task : TaskId)
  /-- `co_await task`. -/
  | await (task : TaskId)
  /-- The innermost coroutine suspends on something that is not a task. -/
  | suspend
  /-- A coroutine that is suspended on something that is not a task is resumed. -/
  | resume (coro : TaskId)
  | finish (outcome : Except Exc Value) (order : IterationOrder)
  /-- The innermost coroutine is one of the library's and goes on. -/
  | proceed (order : IterationOrder)

namespace Body

def point {Value Exc : Type} : Body → Point Value Exc
  | .user => .user
  | .all range => .allStart range range
  | .multi first rest => .multiStart first rest
  | .any range => .anyStart range []
  | .allLimit range parallelism => .limitLoop range parallelism []

/-- The tasks that are passed to the function. -/
def tasks : Body → List TaskId
  | .user => []
  | .all range => range
  | .multi first rest => first :: rest
  | .any range => range
  | .allLimit range _ => range

end Body

namespace TaskSystem

variable {Value Exc : Type}

def init : TaskSystem Value Exc where
  made := 0
  coros := fun _ =>
    { point := .user, started := false, awaitingCoro := none, result := none, temporary := false }
  stack := []
  trace := []

/-- `TaskBase::done`. -/
def done (system : TaskSystem Value Exc) (task : TaskId) : Bool :=
  (system.coros task).result.isSome

/-- The coroutine reaches a point of its body. -/
def goTo (system : TaskSystem Value Exc) (coro : TaskId) (point : Point Value Exc) :
    TaskSystem Value Exc :=
  { system with
    coros := Function.update system.coros coro { system.coros coro with point := point } }

/-- `TaskBase::link`. -/
def link (system : TaskSystem Value Exc) (task : TaskId) (coro : Option TaskId) :
    TaskSystem Value Exc :=
  { system with
    coros := Function.update system.coros task
      { system.coros task with awaitingCoro := coro } }

/-- `link` for each task of a set. -/
def linkAll (system : TaskSystem Value Exc) (tasks : List TaskId) (coro : Option TaskId) :
    TaskSystem Value Exc :=
  { system with
    coros := fun task =>
      if task ∈ tasks then { system.coros task with awaitingCoro := coro } else system.coros task }

/-- A call of a coroutine function, which returns a task that is not started. -/
def create (system : TaskSystem Value Exc) (point : Point Value Exc) (temporary : Bool) :
    TaskSystem Value Exc :=
  { system with
    made := system.made + 1
    coros := Function.update system.coros system.made
      { point := point
        started := false
        awaitingCoro := none
        result := none
        temporary := temporary } }

/-- `TaskBase::start`. -/
def start (system : TaskSystem Value Exc) (task : TaskId) : TaskSystem Value Exc :=
  if (system.coros task).started then system
  else
    { system with
      coros := Function.update system.coros task { system.coros task with started := true }
      stack := task :: system.stack
      trace := system.trace ++ [.started task] }

/-- `AwaiterBase::await_suspend`: the coroutine at the top of the stack suspends, and the task is
executed in its place if it has not been started. -/
def awaitSuspend (system : TaskSystem Value Exc) (coro task : TaskId)
    (suspended : Point Value Exc) : TaskSystem Value Exc :=
  start { (system.goTo coro suspended).link task (some coro) with stack := system.stack.tail } task

namespace AnyAwaiter

/-- `AnyAwaiter::add_task`. -/
def addTask (tasks : List TaskId) (task : TaskId) : List TaskId :=
  if task ∈ tasks then tasks else tasks ++ [task]

/-- `AnyAwaiter::await_ready` over the tasks in the order of the iteration. -/
def awaitReady (system : TaskSystem Value Exc) : List TaskId → Except String Bool
  | [] => .ok false
  | task :: tasks =>
      if system.done task then .ok true
      else if (system.coros task).started then awaitReady system tasks
      else .error "all tasks must be started before using AnyAwaiter"

/-- `AnyAwaiter::await_resume`: the tasks that are done leave the set and the others are unlinked.
`next` is where the coroutine goes on with the task returned and the tasks left. -/
def awaitResume (system : TaskSystem Value Exc) (coro : TaskId) (tasks : List TaskId)
    (order : IterationOrder) (next : TaskId → List TaskId → Point Value Exc) :
    TaskSystem Value Exc :=
  let left := tasks.filter fun task => !system.done task
  match (order.arrange tasks).find? system.done with
  | some ret => (system.linkAll left none).goTo coro (next ret left)
  | none =>
      (system.linkAll left none).goTo coro
        (.ending (.logicError "no task resumed during AnyAwaiter suspend"))

/-- `co_await aw` by the coroutine at the top of the stack. -/
def await (system : TaskSystem Value Exc) (coro : TaskId) (tasks : List TaskId)
    (order : IterationOrder) (suspended : Point Value Exc)
    (next : TaskId → List TaskId → Point Value Exc) : TaskSystem Value Exc :=
  match awaitReady system (order.arrange tasks) with
  | .ok true => awaitResume system coro tasks order next
  | .ok false =>
      { (system.goTo coro suspended).linkAll tasks (some coro) with stack := system.stack.tail }
  | .error message => system.goTo coro (.ending (.logicError message))

end AnyAwaiter

/-- Where `any` goes on after `co_await aw`. -/
def anyNext (ret : TaskId) (_ : List TaskId) : Point Value Exc :=
  .ending (.task ret)

/-- Where `all_limit` goes on after `co_await aw`. -/
def limitNext (toStart : List TaskId) (parallelism : ℕ) (_ : TaskId) (left : List TaskId) :
    Point Value Exc :=
  .limitLoop toStart parallelism left

/-- `Task<void>::Awaiter::await_resume` in `multi`: an exception of the nested task leaves. -/
def afterRest (task : TaskId) : Outcome Value Exc → Point Value Exc
  | .exception exc => .ending (.exception exc)
  | .logicError message => .ending (.logicError message)
  | _ => .multiWait task

/-- `await_resume` of a coroutine that a completion has put on top of the stack.  Resuming a
coroutine that is not suspended has no meaning. -/
def awaitResume (system : TaskSystem Value Exc) (coro : TaskId) (order : IterationOrder) :
    Option (TaskSystem Value Exc) :=
  match (system.coros coro).point with
  | .userAwait task =>
      (system.coros task).result.map fun outcome =>
        { system.goTo coro .user with
          trace := system.trace ++ [.observed coro task outcome] }
  | .allAwait _ toWait => some (system.goTo coro (.allWait toWait))
  | .multiAwaitRest task nested =>
      (system.coros nested).result.map fun outcome => system.goTo coro (afterRest task outcome)
  | .multiAwait _ => some (system.goTo coro (.ending .void))
  | .anyAwait tasks => some (AnyAwaiter.awaitResume system coro tasks order anyNext)
  | .limitAwait toStart parallelism tasks =>
      some (AnyAwaiter.awaitResume system coro tasks order (limitNext toStart parallelism))
  | _ => none

/-- The coroutine at the top of the stack completes: `FinalAwaiter::await_suspend` returns the
handle of the coroutine that awaits it, if there is one. -/
def complete (system : TaskSystem Value Exc) (coro : TaskId) (outcome : Outcome Value Exc)
    (order : IterationOrder) : Option (TaskSystem Value Exc) :=
  let completed : TaskSystem Value Exc :=
    { system with
      coros := Function.update system.coros coro
        { system.coros coro with point := .ending outcome, result := some outcome }
      stack := system.stack.tail
      trace := system.trace ++ [.completed coro outcome] }
  match (system.coros coro).awaitingCoro with
  | none => some completed
  | some waiting =>
      awaitResume
        { completed with
          stack := waiting :: completed.stack
          trace := completed.trace ++ [.resumed waiting coro] }
        waiting order

/-- `co_await task.wait()` by the coroutine at the top of the stack. -/
def wait (system : TaskSystem Value Exc) (coro task : TaskId) (suspended next : Point Value Exc) :
    TaskSystem Value Exc :=
  if system.done task then system.goTo coro next
  else system.awaitSuspend coro task suspended

/-- The coroutine at the top of the stack is at a point of one of the library's functions. -/
def proceed (system : TaskSystem Value Exc) (coro : TaskId) (order : IterationOrder) :
    Option (TaskSystem Value Exc) :=
  match (system.coros coro).point with
  | .allStart [] range => some (system.goTo coro (.allWait range))
  | .allStart (task :: toStart) range =>
      some ((system.goTo coro (.allStart toStart range)).start task)
  | .allWait [] => some (system.goTo coro (.ending .void))
  | .allWait (task :: toWait) =>
      some (system.wait coro task (.allAwait task toWait) (.allWait toWait))
  | .multiStart task rest => some ((system.goTo coro (.multiRest task rest)).start task)
  | .multiRest task [] => some (system.goTo coro (.multiWait task))
  | .multiRest task (next :: rest) =>
      some ((system.create (.multiStart next rest) true).awaitSuspend coro system.made
        (.multiAwaitRest task system.made))
  | .multiWait task => some (system.wait coro task (.multiAwait task) (.ending .void))
  | .anyStart (task :: toStart) tasks =>
      some ((system.goTo coro (.anyAdd task toStart tasks)).start task)
  | .anyAdd task toStart tasks =>
      some (system.goTo coro (.anyStart toStart (AnyAwaiter.addTask tasks task)))
  | .anyStart [] tasks => some (AnyAwaiter.await system coro tasks order (.anyAwait tasks) anyNext)
  | .limitLoop [] _ [] => some (system.goTo coro (.ending .void))
  | .limitLoop [] parallelism tasks =>
      some (AnyAwaiter.await system coro tasks order (.limitAwait [] parallelism tasks)
        (limitNext [] parallelism))
  | .limitLoop (task :: toStart) parallelism tasks =>
      if parallelism ≤ tasks.length then
        some (AnyAwaiter.await system coro tasks order
          (.limitAwait (task :: toStart) parallelism tasks)
          (limitNext (task :: toStart) parallelism))
      else some ((system.goTo coro (.limitAdd task toStart parallelism tasks)).start task)
  | .limitAdd task toStart parallelism tasks =>
      some (system.goTo coro (.limitLoop toStart parallelism (AnyAwaiter.addTask tasks task)))
  | .ending outcome => system.complete coro outcome order
  | _ => none

/-- Code of the program is executing: outside of all coroutines, or in the innermost one. -/
def UserCodeRuns (system : TaskSystem Value Exc) : Bool :=
  match system.stack with
  | [] => true
  | coro :: _ =>
      match (system.coros coro).point with
      | .user => true
      | _ => false

/-- The program has the task. -/
def Named (system : TaskSystem Value Exc) (task : TaskId) : Bool :=
  task < system.made && !(system.coros task).temporary

/-- The coroutine is suspended on something that is not a task. -/
def Sleeps (system : TaskSystem Value Exc) (coro : TaskId) : Bool :=
  (system.coros coro).started && !system.done coro && !system.stack.contains coro &&
    match (system.coros coro).point with
    | .user => true
    | _ => false

/-- `co_await task` by the innermost coroutine. -/
def await (system : TaskSystem Value Exc) (coro task : TaskId) : TaskSystem Value Exc :=
  match (system.coros task).result with
  | some outcome => { system with trace := system.trace ++ [.observed coro task outcome] }
  | none => system.awaitSuspend coro task (.userAwait task)

/-- What a coroutine of the program completes with. -/
def outcomeOf : Except Exc Value → Outcome Value Exc
  | .ok value => .value value
  | .error exc => .exception exc

def step (system : TaskSystem Value Exc) :
    TaskEvent Value Exc → Option (TaskSystem Value Exc)
  | .create body =>
      if system.UserCodeRuns ∧ ∀ task ∈ body.tasks, system.Named task then
        some (system.create body.point false)
      else none
  | .start task =>
      if system.UserCodeRuns ∧ system.Named task then some (system.start task) else none
  | .await task =>
      match system.stack with
      | [] => none
      | coro :: _ =>
          if system.UserCodeRuns ∧ system.Named task then some (system.await coro task) else none
  | .suspend =>
      match system.stack with
      | [] => none
      | _ :: below => if system.UserCodeRuns then some { system with stack := below } else none
  | .resume coro =>
      if system.UserCodeRuns ∧ system.Sleeps coro then
        some { system with stack := coro :: system.stack }
      else none
  | .finish outcome order =>
      match system.stack with
      | [] => none
      | coro :: _ =>
          if system.UserCodeRuns then system.complete coro (outcomeOf outcome) order else none
  | .proceed order =>
      match system.stack with
      | [] => none
      | coro :: _ => system.proceed coro order

end TaskSystem

end EventAsync
