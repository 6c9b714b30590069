import EventAsync.Runtime

/-!
# What one event does to the wait lists

Every event of the runtime changes a wait list in at most one of two ways: a
coroutine suspends on it, or its front is taken and resumed.  `step_effect`
says so for all events at once, together with what the trace records about it;
the invariants of channels and futures are derived from it and never unfold
the step function again.
-/

namespace EventAsync

namespace Runtime

variable {Item Result Exc : Type}

/-- Observations that are not selected make no difference. -/
theorem filterMap_trace_of_none {runtime next : Runtime Item Result Exc} {Value : Type}
    {select : Observation Item Result Exc → Option Value}
    {seen : List (Observation Item Result Exc)} (trace_eq : next.trace = runtime.trace ++ seen)
    (none : ∀ observation ∈ seen, select observation = none) :
    next.trace.filterMap select = runtime.trace.filterMap select := by
  rw [trace_eq, List.filterMap_append, List.filterMap_eq_nil_iff.mpr none, List.append_nil]

/-- The transitions of the runtime, with what each of them requires. -/
inductive Steps (runtime : Runtime Item Result Exc) :
    Event Item Result Exc → Runtime Item Result Exc → Prop where
  | create (owner : Option CoroId) :
      Steps runtime (.create owner)
        { runtime with
          created := runtime.created + 1
          owner := Function.update runtime.owner runtime.created owner }
  | adopt (coro : CoroId) (owner : Option CoroId) :
      Steps runtime (.adopt coro owner)
        { runtime with owner := Function.update runtime.owner coro owner }
  | enter (coro : CoroId) (userCode : runtime.UserCodeRuns) (alive : runtime.Alive coro)
      (resting : ¬runtime.OnStack coro) (waitsNowhere : runtime.suspendedAt coro = none) :
      Steps runtime (.enter coro) { runtime with stack := .body coro :: runtime.stack }
  | leave {coro : CoroId} {below : List Frame} (shape : runtime.stack = .body coro :: below) :
      Steps runtime .leave { runtime with stack := below }
  | readReady {coro : CoroId} {below : List Frame} (channel : ℕ)
      (shape : runtime.stack = .body coro :: below)
      (nonempty : (runtime.channels channel).queue ≠ []) :
      Steps runtime (.read channel)
        { runtime with stack := .awaitResume coro (.channel channel) :: below }
  | readSuspend {coro : CoroId} {below : List Frame} (channel : ℕ)
      (shape : runtime.stack = .body coro :: below)
      (empty : (runtime.channels channel).queue = []) :
      Steps runtime (.read channel)
        { runtime with
          channels := Function.update runtime.channels channel
            ((runtime.channels channel).awaitSuspend coro)
          stack := below
          suspendedAt := Function.update runtime.suspendedAt coro (some (.channel channel))
          trace := runtime.trace ++ [.suspended coro (.channel channel)] }
  | writeQuiet (channel : ℕ) (item : Item) (userCode : runtime.UserCodeRuns)
      (nobody : (runtime.channels channel).awaitingCoros.front? = none) :
      Steps runtime (.write channel item)
        { runtime with
          channels := Function.update runtime.channels channel
            { runtime.channels channel with queue := (runtime.channels channel).queue ++ [item] }
          trace := runtime.trace ++ [.written channel item] }
  | writeWake (channel : ℕ) (item : Item) {coro : CoroId} (userCode : runtime.UserCodeRuns)
      (first : (runtime.channels channel).awaitingCoros.front? = some coro) :
      Steps runtime (.write channel item)
        { runtime with
          channels := Function.update runtime.channels channel
            { toWaitList := (runtime.channels channel).toWaitList.popFront
              queue := (runtime.channels channel).queue ++ [item] }
          stack := .awaitResume coro (.channel channel) :: runtime.stack
          suspendedAt := Function.update runtime.suspendedAt coro none
          trace := runtime.trace ++
            [.written channel item, .resumed coro (.channel channel)] }
  | awaitReady {coro : CoroId} {below : List Frame} (future : ℕ)
      (shape : runtime.stack = .body coro :: below)
      (done : (runtime.futures future).value.isSome) :
      Steps runtime (.await future)
        { runtime with stack := .awaitResume coro (.future future) :: below }
  | awaitSuspend {coro : CoroId} {below : List Frame} (future : ℕ)
      (shape : runtime.stack = .body coro :: below)
      (pending : (runtime.futures future).value = none) :
      Steps runtime (.await future)
        { runtime with
          futures := Function.update runtime.futures future
            ((runtime.futures future).awaitSuspend coro)
          stack := below
          suspendedAt := Function.update runtime.suspendedAt coro (some (.future future))
          trace := runtime.trace ++ [.suspended coro (.future future)] }
  | resolveAgain (future : ℕ) (resolution : Resolution Result Exc)
      (userCode : runtime.UserCodeRuns) (done : (runtime.futures future).value.isSome) :
      Steps runtime (.resolve future resolution)
        { runtime with trace := runtime.trace ++ [.logicError future resolution.doneMessage] }
  | resolve (future : ℕ) (resolution : Resolution Result Exc)
      (userCode : runtime.UserCodeRuns) (pending : (runtime.futures future).value = none) :
      Steps runtime (.resolve future resolution)
        { runtime with
          futures := Function.update runtime.futures future
            { runtime.futures future with value := some resolution.value }
          stack := .resumeAwaiters future :: runtime.stack
          trace := runtime.trace ++ [.resolved future resolution.value] }
  | receive {coro : CoroId} {channel : ℕ} {below : List Frame} {item : Item} {rest : List Item}
      (shape : runtime.stack = .awaitResume coro (.channel channel) :: below)
      (alive : runtime.Alive coro) (front : (runtime.channels channel).queue = item :: rest) :
      Steps runtime .proceed
        { runtime with
          channels := Function.update runtime.channels channel
            { runtime.channels channel with queue := rest }
          stack := .body coro :: below
          trace := runtime.trace ++ [.received coro channel item] }
  | observe {coro : CoroId} {future : ℕ} {below : List Frame}
      {value : Except (FutureException Exc) Result}
      (shape : runtime.stack = .awaitResume coro (.future future) :: below)
      (alive : runtime.Alive coro) (done : (runtime.futures future).value = some value) :
      Steps runtime .proceed
        { runtime with
          stack := .body coro :: below
          trace := runtime.trace ++ [.observed coro future value] }
  | badAccess {coro : CoroId} {future : ℕ} {below : List Frame}
      (shape : runtime.stack = .awaitResume coro (.future future) :: below)
      (alive : runtime.Alive coro) (pending : (runtime.futures future).value = none) :
      Steps runtime .proceed
        { runtime with
          stack := .body coro :: below
          trace := runtime.trace ++ [.badVariantAccess coro future] }
  | resumeNext {future : ℕ} {below : List Frame} {coro : CoroId}
      (shape : runtime.stack = .resumeAwaiters future :: below)
      (first : (runtime.futures future).awaitingCoros.front? = some coro) :
      Steps runtime .proceed
        { runtime with
          futures := Function.update runtime.futures future
            { runtime.futures future with
              toWaitList := (runtime.futures future).toWaitList.popFront }
          stack := .awaitResume coro (.future future) :: runtime.stack
          suspendedAt := Function.update runtime.suspendedAt coro none
          trace := runtime.trace ++ [.resumed coro (.future future)] }
  | resumeEnd {future : ℕ} {below : List Frame}
      (shape : runtime.stack = .resumeAwaiters future :: below)
      (nobody : (runtime.futures future).awaitingCoros.front? = none) :
      Steps runtime .proceed { runtime with stack := below }
  | destroy (coro : CoroId) (alive : runtime.Alive coro)
      (resting : ∀ victim ∈ runtime.victims coro, ¬runtime.OnStack victim) :
      Steps runtime (.destroy coro)
        { runtime with
          destroyed := runtime.destroyed ++ runtime.victims coro
          trace := runtime.trace ++ (runtime.victims coro).map .destroyed }

theorem Steps.of_read {runtime : Runtime Item Result Exc} {coro : CoroId} {below : List Frame}
    (channel : ℕ) (shape : runtime.stack = .body coro :: below) :
    Steps runtime (.read channel) (runtime.read channel coro below) := by
  by_cases empty : (runtime.channels channel).queue = []
  · simp only [read, Channel.awaitReady, empty, List.isEmpty_nil, Bool.not_true,
      Bool.false_eq_true, if_false]
    exact .readSuspend channel shape empty
  · have ready : (runtime.channels channel).awaitReady = true := by
      simp [Channel.awaitReady, empty]
    simp only [read, ready, if_true]
    exact .readReady channel shape empty

theorem Steps.of_write {runtime : Runtime Item Result Exc} (channel : ℕ) (item : Item)
    (userCode : runtime.UserCodeRuns) :
    Steps runtime (.write channel item) (runtime.write channel item) := by
  cases front : (runtime.channels channel).awaitingCoros.front? with
  | none =>
      simp only [write, Channel.write, Channel.resumeAwaiter, front]
      exact .writeQuiet channel item userCode front
  | some coro =>
      simp only [write, Channel.write, Channel.resumeAwaiter, front]
      exact .writeWake channel item userCode front

theorem Steps.of_await {runtime : Runtime Item Result Exc} {coro : CoroId} {below : List Frame}
    (future : ℕ) (shape : runtime.stack = .body coro :: below) :
    Steps runtime (.await future) (runtime.await future coro below) := by
  cases value : (runtime.futures future).value with
  | none =>
      simp only [await, FutureBase.done, value, Option.isSome_none, Bool.false_eq_true, if_false]
      exact .awaitSuspend future shape value
  | some outcome =>
      simp only [await, FutureBase.done, value, Option.isSome_some, if_true]
      exact .awaitReady future shape (by simp [value])

theorem Steps.of_resolve {runtime : Runtime Item Result Exc} (future : ℕ)
    (resolution : Resolution Result Exc) (userCode : runtime.UserCodeRuns) :
    Steps runtime (.resolve future resolution) (runtime.resolve future resolution) := by
  cases value : (runtime.futures future).value with
  | none =>
      simp only [Runtime.resolve, FutureBase.resolve, FutureBase.done, value, Option.isSome_none,
        Bool.false_eq_true, if_false]
      exact .resolve future resolution userCode value
  | some outcome =>
      simp only [Runtime.resolve, FutureBase.resolve, FutureBase.done, value, Option.isSome_some,
        if_true]
      exact .resolveAgain future resolution userCode (by simp [value])

theorem Steps.of_finishAwait {runtime next : Runtime Item Result Exc} {coro : CoroId}
    {target : WaitTarget} {below : List Frame}
    (shape : runtime.stack = .awaitResume coro target :: below) (alive : runtime.Alive coro)
    (finished : runtime.finishAwait coro target below = some next) :
    Steps runtime .proceed next := by
  cases target with
  | channel channel =>
      simp only [finishAwait, Option.map_eq_some_iff] at finished
      rcases finished with ⟨⟨item, after⟩, resumed, rfl⟩
      simp only [Channel.awaitResume] at resumed
      split at resumed
      · simp at resumed
      · rename_i first rest front
        simp only [Option.some.injEq, Prod.mk.injEq] at resumed
        rcases resumed with ⟨rfl, rfl⟩
        exact .receive shape alive front
  | future future =>
      simp only [finishAwait] at finished
      split at finished
      · rename_i value done
        simp only [Option.some.injEq] at finished
        exact finished ▸ .observe shape alive done
      · rename_i pending
        simp only [Option.some.injEq] at finished
        exact finished ▸ .badAccess shape alive pending

theorem Steps.of_resumeAwaiters {runtime : Runtime Item Result Exc} {future : ℕ}
    {below : List Frame} (shape : runtime.stack = .resumeAwaiters future :: below) :
    Steps runtime .proceed (runtime.resumeAwaiters future below) := by
  cases front : (runtime.futures future).awaitingCoros.front? with
  | none =>
      simp only [resumeAwaiters, FutureBase.resumeNext, front]
      exact .resumeEnd shape front
  | some coro =>
      simp only [resumeAwaiters, FutureBase.resumeNext, front]
      exact .resumeNext shape front

/-- Every event that is accepted is one of the transitions. -/
theorem steps_of_step {runtime next : Runtime Item Result Exc} {event : Event Item Result Exc}
    (stepped : runtime.step event = some next) : Steps runtime event next := by
  cases event with
  | create owner =>
      simp only [step, Option.some.injEq] at stepped
      exact stepped ▸ .create owner
  | adopt coro owner =>
      simp only [step, Option.some.injEq] at stepped
      exact stepped ▸ .adopt coro owner
  | enter coro =>
      simp only [step, Option.ite_none_right_eq_some, Option.some.injEq] at stepped
      rcases stepped with ⟨⟨userCode, alive, resting, waitsNowhere⟩, rfl⟩
      exact .enter coro userCode alive resting waitsNowhere
  | leave =>
      simp only [step] at stepped
      split at stepped
      · rename_i shape
        simp only [Option.some.injEq] at stepped
        exact stepped ▸ .leave shape
      · simp at stepped
  | read channel =>
      simp only [step] at stepped
      split at stepped
      · rename_i shape
        simp only [Option.some.injEq] at stepped
        exact stepped ▸ .of_read channel shape
      · simp at stepped
  | write channel item =>
      simp only [step, Option.ite_none_right_eq_some, Option.some.injEq] at stepped
      rcases stepped with ⟨userCode, rfl⟩
      exact .of_write channel item userCode
  | await future =>
      simp only [step] at stepped
      split at stepped
      · rename_i shape
        simp only [Option.some.injEq] at stepped
        exact stepped ▸ .of_await future shape
      · simp at stepped
  | resolve future resolution =>
      simp only [step, Option.ite_none_right_eq_some, Option.some.injEq] at stepped
      rcases stepped with ⟨userCode, rfl⟩
      exact .of_resolve future resolution userCode
  | proceed =>
      simp only [step] at stepped
      split at stepped
      · rename_i shape
        simp only [Option.ite_none_right_eq_some] at stepped
        exact .of_finishAwait shape stepped.1 stepped.2
      · rename_i shape
        simp only [Option.some.injEq] at stepped
        exact stepped ▸ .of_resumeAwaiters shape
      · simp at stepped
  | destroy coro =>
      simp only [step, Option.ite_none_right_eq_some, Option.some.injEq] at stepped
      rcases stepped with ⟨⟨alive, resting⟩, rfl⟩
      exact .destroy coro alive resting

/-- The coroutines that have suspended on a wait list, in the order of their suspension. -/
def suspendedOn (runtime : Runtime Item Result Exc) (target : WaitTarget) : List CoroId :=
  runtime.trace.filterMap fun
    | .suspended coro on => if on = target then some coro else none
    | _ => none

/-- The coroutines that have been resumed from a wait list, in the order of their resumption. -/
def resumedOn (runtime : Runtime Item Result Exc) (target : WaitTarget) : List CoroId :=
  runtime.trace.filterMap fun
    | .resumed coro on => if on = target then some coro else none
    | _ => none

/-- The call of `await_suspend` that an event leads to: the coroutine and the wait list. -/
def suspends (runtime : Runtime Item Result Exc) :
    Event Item Result Exc → Option (CoroId × WaitTarget)
  | .read channel =>
      match runtime.stack with
      | .body coro :: _ =>
          if (runtime.channels channel).awaitReady then none else some (coro, .channel channel)
      | _ => none
  | .await future =>
      match runtime.stack with
      | .body coro :: _ =>
          if (runtime.futures future).done then none else some (coro, .future future)
      | _ => none
  | _ => none

/-- The coroutines an event suspends on one wait list. -/
def suspendsOn (runtime : Runtime Item Result Exc) (event : Event Item Result Exc)
    (target : WaitTarget) : List CoroId :=
  match runtime.suspends event with
  | some (coro, on) => if on = target then [coro] else []
  | none => []

/-- The effect of a step on one wait list and on the part of the trace that belongs to it. -/
structure Effect (runtime next : Runtime Item Result Exc) (target : WaitTarget)
    (suspended taken : List CoroId) : Prop where
  change : WaitList.Change (runtime.waiters target) suspended taken (next.waiters target)
  suspendedOn_eq : next.suspendedOn target = runtime.suspendedOn target ++ suspended
  resumedOn_eq : next.resumedOn target = runtime.resumedOn target ++ taken

/-- An observation that is about no wait list. -/
def Quiet : Observation Item Result Exc → Prop
  | .suspended _ _ => False
  | .resumed _ _ => False
  | _ => True

theorem suspendedOn_of_quiet {runtime next : Runtime Item Result Exc} (target : WaitTarget)
    {added : List (Observation Item Result Exc)} (quiet : ∀ observation ∈ added, Quiet observation)
    (trace : next.trace = runtime.trace ++ added) :
    next.suspendedOn target = runtime.suspendedOn target := by
  apply filterMap_trace_of_none trace
  intro observation mem
  have isQuiet := quiet observation mem
  cases observation with
  | suspended coro on => exact isQuiet.elim
  | _ => rfl

theorem resumedOn_of_quiet {runtime next : Runtime Item Result Exc} (target : WaitTarget)
    {added : List (Observation Item Result Exc)} (quiet : ∀ observation ∈ added, Quiet observation)
    (trace : next.trace = runtime.trace ++ added) :
    next.resumedOn target = runtime.resumedOn target := by
  apply filterMap_trace_of_none trace
  intro observation mem
  have isQuiet := quiet observation mem
  cases observation with
  | resumed coro on => exact isQuiet.elim
  | _ => rfl

/-- A wait list stays, and what is observed is about none. -/
theorem Effect.of_quiet {runtime next : Runtime Item Result Exc} {target : WaitTarget}
    (waiters : next.waiters target = runtime.waiters target)
    {added : List (Observation Item Result Exc)} (trace : next.trace = runtime.trace ++ added)
    (quiet : ∀ observation ∈ added, Quiet observation) : Effect runtime next target [] [] where
  change := by
    rw [waiters]
    exact .keep _
  suspendedOn_eq := by
    rw [List.append_nil]
    exact suspendedOn_of_quiet target quiet trace
  resumedOn_eq := by
    rw [List.append_nil]
    exact resumedOn_of_quiet target quiet trace

theorem Effect.of_same {runtime next : Runtime Item Result Exc} {target : WaitTarget}
    (waiters : next.waiters target = runtime.waiters target)
    (trace : next.trace = runtime.trace) : Effect runtime next target [] [] :=
  .of_quiet waiters (trace.trans (List.append_nil _).symm) (List.forall_mem_nil _)

theorem Effect.of_observed {runtime next : Runtime Item Result Exc} {target : WaitTarget}
    (waiters : next.waiters target = runtime.waiters target)
    {observation : Observation Item Result Exc}
    (trace : next.trace = runtime.trace ++ [observation]) (quiet : Quiet observation) :
    Effect runtime next target [] [] :=
  .of_quiet waiters trace (List.forall_mem_singleton.mpr quiet)

/-- The wait lists after one channel has been replaced. -/
theorem waiters_updateChannel {runtime next : Runtime Item Result Exc} {channel : ℕ}
    {updated : Channel Item} {changed : WaitList} {target : WaitTarget}
    (channels : next.channels = Function.update runtime.channels channel updated)
    (futures : next.futures = runtime.futures) (list : updated.toWaitList = changed) :
    next.waiters target =
      if .channel channel = target then changed else runtime.waiters target := by
  cases target with
  | channel id =>
      by_cases same : id = channel
      · simp [waiters, channels, same, list]
      · simp [waiters, channels, same, Ne.symm same]
  | future id => simp [waiters, futures]

/-- The wait lists after one future has been replaced. -/
theorem waiters_updateFuture {runtime next : Runtime Item Result Exc} {future : ℕ}
    {updated : FutureBase Result Exc} {changed : WaitList} {target : WaitTarget}
    (futures : next.futures = Function.update runtime.futures future updated)
    (channels : next.channels = runtime.channels) (list : updated.toWaitList = changed) :
    next.waiters target = if .future future = target then changed else runtime.waiters target := by
  cases target with
  | channel id => simp [waiters, channels]
  | future id =>
      by_cases same : id = future
      · simp [waiters, futures, same, list]
      · simp [waiters, futures, same, Ne.symm same]

/-- A wait list that is replaced by itself. -/
theorem waiters_of_kept {runtime next : Runtime Item Result Exc} {target : WaitTarget}
    (on : WaitTarget) (waiters : next.waiters target =
      if on = target then runtime.waiters on else runtime.waiters target) :
    next.waiters target = runtime.waiters target := by
  rw [waiters]
  split
  case isTrue same => rw [same]
  case isFalse => rfl

/-- A coroutine suspends on a wait list. -/
theorem Effect.of_suspended {runtime next : Runtime Item Result Exc} {coro : CoroId}
    {on target : WaitTarget}
    (waiters : next.waiters target =
      if on = target then (runtime.waiters on).awaitSuspend coro else runtime.waiters target)
    (trace : next.trace = runtime.trace ++ [.suspended coro on]) :
    Effect runtime next target (if on = target then [coro] else []) [] := by
  have suspendedOn_eq : next.suspendedOn target =
      runtime.suspendedOn target ++ if on = target then [coro] else [] := by
    simp only [suspendedOn, trace, List.filterMap_append]
    by_cases same : on = target
    · simp only [List.filterMap_cons, List.filterMap_nil, if_pos same]
    · simp only [List.filterMap_cons, List.filterMap_nil, if_neg same]
  have resumedOn_eq : next.resumedOn target = runtime.resumedOn target ++ [] := by
    simp [resumedOn, trace]
  refine ⟨?_, suspendedOn_eq, resumedOn_eq⟩
  rw [waiters]
  split
  case isTrue same =>
    rw [same]
    exact .suspend _ coro
  case isFalse => exact .keep _

/-- The handle that a write to one channel resumes, seen from any wait list. -/
def wakesOn (runtime : Runtime Item Result Exc) (on target : WaitTarget) : List CoroId :=
  if on = target then (runtime.waiters on).awaitingCoros.front?.toList else []

/-- The front of a wait list is taken and resumed. -/
theorem Effect.of_taken {runtime next : Runtime Item Result Exc} {coro : CoroId}
    {on target : WaitTarget} (first : (runtime.waiters on).awaitingCoros.front? = some coro)
    (waiters : next.waiters target =
      if on = target then (runtime.waiters on).popFront else runtime.waiters target)
    {added : List (Observation Item Result Exc)}
    (trace : next.trace = runtime.trace ++ added ++ [Observation.resumed coro on])
    (quiet : ∀ observation ∈ added, Quiet observation) :
    Effect runtime next target [] (runtime.wakesOn on target) := by
  have woken : runtime.wakesOn on target = if on = target then [coro] else [] := by
    simp [wakesOn, first]
  let before := { runtime with trace := runtime.trace ++ added }
  have sameSuspended : before.suspendedOn target = runtime.suspendedOn target :=
    suspendedOn_of_quiet target quiet rfl
  have sameResumed : before.resumedOn target = runtime.resumedOn target :=
    resumedOn_of_quiet target quiet rfl
  have suspendedOn_eq : next.suspendedOn target = runtime.suspendedOn target := by
    rw [← sameSuspended]
    simp only [suspendedOn, trace, before, List.filterMap_append, List.filterMap_cons,
      List.filterMap_nil, List.append_nil]
  have resumedOn_eq : next.resumedOn target =
      runtime.resumedOn target ++ if on = target then [coro] else [] := by
    rw [← sameResumed]
    simp only [resumedOn, trace, before, List.filterMap_append]
    by_cases same : on = target
    · simp only [List.filterMap_cons, List.filterMap_nil, if_pos same]
    · simp only [List.filterMap_cons, List.filterMap_nil, if_neg same]
  rw [woken]
  refine ⟨?_, suspendedOn_eq.trans (List.append_nil _).symm, resumedOn_eq⟩
  rw [waiters]
  split
  case isTrue same =>
    subst same
    exact .take _ coro first
  case isFalse => exact .keep _

/-- The wait list whose front the code of an event takes. -/
def wakes (runtime : Runtime Item Result Exc) : Event Item Result Exc → Option WaitTarget
  | .write channel _ => some (.channel channel)
  | .proceed =>
      match runtime.stack with
      | .resumeAwaiters future :: _ => some (.future future)
      | _ => none
  | _ => none

/-- The coroutines an event resumes from one wait list. -/
def takesFrom (runtime : Runtime Item Result Exc) (event : Event Item Result Exc)
    (target : WaitTarget) : List CoroId :=
  match runtime.wakes event with
  | some on => runtime.wakesOn on target
  | none => []

/-- What any event does to any wait list. -/
theorem step_effect {runtime next : Runtime Item Result Exc} {event : Event Item Result Exc}
    (stepped : runtime.step event = some next) (target : WaitTarget) :
    Effect runtime next target (runtime.suspendsOn event target)
      (runtime.takesFrom event target) := by
  cases steps_of_step stepped with
  | create owner => exact .of_same (by cases target <;> rfl) rfl
  | adopt coro owner => exact .of_same (by cases target <;> rfl) rfl
  | enter coro => exact .of_same (by cases target <;> rfl) rfl
  | leave => exact .of_same (by cases target <;> rfl) rfl
  | readReady channel shape nonempty =>
      have none_suspends : runtime.suspendsOn (.read channel) target = [] := by
        simp [suspendsOn, suspends, shape, Channel.awaitReady, nonempty]
      rw [none_suspends]
      exact .of_same (by cases target <;> rfl) rfl
  | @readSuspend coro below channel shape empty =>
      have one_suspends : runtime.suspendsOn (.read channel) target =
          if .channel channel = target then [coro] else [] := by
        simp [suspendsOn, suspends, shape, Channel.awaitReady, empty]
      rw [one_suspends]
      refine .of_suspended ?_ rfl
      exact waiters_updateChannel rfl rfl rfl
  | writeQuiet channel item userCode nobody =>
      have none_woken : runtime.takesFrom (.write channel item) target = [] := by
        simp [takesFrom, wakes, wakesOn, waiters, nobody]
      rw [none_woken]
      refine .of_observed (waiters_of_kept (.channel channel) ?_) rfl trivial
      exact waiters_updateChannel rfl rfl rfl
  | @writeWake channel item coro userCode first =>
      have split : runtime.trace ++
            [Observation.written channel item, Observation.resumed coro (.channel channel)] =
          runtime.trace ++ [Observation.written channel item] ++
            [Observation.resumed coro (.channel channel)] :=
        (List.append_assoc _ [_] _).symm
      refine .of_taken first ?_ split (List.forall_mem_singleton.mpr trivial)
      exact waiters_updateChannel rfl rfl rfl
  | awaitReady future shape done =>
      have none_suspends : runtime.suspendsOn (.await future) target = [] := by
        simp [suspendsOn, suspends, shape, FutureBase.done, done]
      rw [none_suspends]
      exact .of_same (by cases target <;> rfl) rfl
  | @awaitSuspend coro below future shape pending =>
      have one_suspends : runtime.suspendsOn (.await future) target =
          if .future future = target then [coro] else [] := by
        simp [suspendsOn, suspends, shape, FutureBase.done, pending]
      rw [one_suspends]
      refine .of_suspended ?_ rfl
      exact waiters_updateFuture rfl rfl rfl
  | resolveAgain future resolution userCode done =>
      refine .of_observed ?_ rfl trivial
      cases target <;> rfl
  | resolve future resolution userCode pending =>
      refine .of_observed (waiters_of_kept (.future future) ?_) rfl trivial
      exact waiters_updateFuture rfl rfl rfl
  | @receive coro channel below item rest shape alive front =>
      have none_taken : runtime.takesFrom .proceed target = [] := by
        simp [takesFrom, wakes, shape]
      rw [none_taken]
      refine .of_observed (waiters_of_kept (.channel channel) ?_) rfl trivial
      exact waiters_updateChannel rfl rfl rfl
  | observe shape alive done =>
      have none_taken : runtime.takesFrom .proceed target = [] := by
        simp [takesFrom, wakes, shape]
      rw [none_taken]
      refine .of_observed ?_ rfl trivial
      cases target <;> rfl
  | badAccess shape alive pending =>
      have none_taken : runtime.takesFrom .proceed target = [] := by
        simp [takesFrom, wakes, shape]
      rw [none_taken]
      refine .of_observed ?_ rfl trivial
      cases target <;> rfl
  | @resumeNext future below coro shape first =>
      have front_taken : runtime.takesFrom .proceed target =
          runtime.wakesOn (.future future) target := by
        simp [takesFrom, wakes, shape]
      rw [front_taken]
      refine .of_taken first ?_ (by rw [List.append_nil]) (List.forall_mem_nil _)
      exact waiters_updateFuture rfl rfl rfl
  | @resumeEnd future below shape nobody =>
      have none_taken : runtime.takesFrom .proceed target = [] := by
        simp [takesFrom, wakes, shape, wakesOn, waiters, nobody]
      rw [none_taken]
      exact .of_same (by cases target <;> rfl) rfl
  | destroy coro =>
      refine .of_quiet ?_ rfl (List.forall_mem_map.mpr fun _ _ => trivial)
      cases target <;> rfl

/-- Only a coroutine that executes its body suspends. -/
theorem onStack_of_mem_suspendsOn {runtime : Runtime Item Result Exc}
    {event : Event Item Result Exc} {target : WaitTarget} {coro : CoroId}
    (suspends : coro ∈ runtime.suspendsOn event target) : runtime.OnStack coro := by
  unfold suspendsOn at suspends
  split at suspends
  · rename_i suspending on call
    split at suspends
    · rw [List.mem_singleton] at suspends
      subst coro
      cases event <;> simp only [Runtime.suspends, reduceCtorEq] at call
      all_goals
        split at call
        · rename_i shape
          split at call
          · simp at call
          · simp only [Option.some.injEq, Prod.mk.injEq] at call
            simp [OnStack, shape, Frame.coro?, call.1]
        · simp at call
    · simp at suspends
  · simp at suspends

theorem OnStack.of_tail {runtime : Runtime Item Result Exc} {coro : CoroId} {top : Frame}
    {below : List Frame} (shape : runtime.stack = top :: below)
    (present : some coro ∈ below.map Frame.coro?) : runtime.OnStack coro := by
  simp only [OnStack, shape, List.map_cons]
  exact List.mem_cons_of_mem _ present

/-- A coroutine comes onto the stack by being entered or by being taken from a wait list. -/
theorem step_onStack {runtime next : Runtime Item Result Exc} {event : Event Item Result Exc}
    (stepped : runtime.step event = some next) {coro : CoroId} (present : next.OnStack coro) :
    runtime.OnStack coro ∨ runtime.Alive coro ∨
      ∃ target, coro ∈ runtime.takesFrom event target := by
  cases steps_of_step stepped with
  | create owner => exact Or.inl present
  | adopt other owner => exact Or.inl present
  | enter entered userCode alive =>
      simp only [OnStack, List.map_cons, List.mem_cons] at present
      rcases present with top | below
      · simp only [Frame.coro?, Option.some.injEq] at top
        subst coro
        exact Or.inr (Or.inl alive)
      · exact Or.inl below
  | leave shape => exact Or.inl (OnStack.of_tail shape present)
  | readReady channel shape =>
      left
      simpa [OnStack, shape, Frame.coro?] using present
  | readSuspend channel shape => exact Or.inl (OnStack.of_tail shape present)
  | writeQuiet channel item => exact Or.inl present
  | writeWake channel item userCode first =>
      simp only [OnStack, List.map_cons, List.mem_cons] at present
      rcases present with top | below
      · simp only [Frame.coro?, Option.some.injEq] at top
        refine Or.inr (Or.inr ⟨.channel channel, ?_⟩)
        simp [takesFrom, wakes, wakesOn, waiters, first, top]
      · exact Or.inl below
  | awaitReady future shape =>
      left
      simpa [OnStack, shape, Frame.coro?] using present
  | awaitSuspend future shape => exact Or.inl (OnStack.of_tail shape present)
  | resolveAgain future resolution => exact Or.inl present
  | resolve future resolution =>
      left
      simpa [OnStack, Frame.coro?] using present
  | receive shape =>
      left
      simpa [OnStack, shape, Frame.coro?] using present
  | observe shape =>
      left
      simpa [OnStack, shape, Frame.coro?] using present
  | badAccess shape =>
      left
      simpa [OnStack, shape, Frame.coro?] using present
  | @resumeNext future below woken shape first =>
      simp only [OnStack, List.map_cons, List.mem_cons] at present
      rcases present with top | old
      · simp only [Frame.coro?, Option.some.injEq] at top
        refine Or.inr (Or.inr ⟨.future future, ?_⟩)
        simp [takesFrom, wakes, shape, wakesOn, waiters, first, top]
      · exact Or.inl old
  | resumeEnd shape => exact Or.inl (OnStack.of_tail shape present)
  | destroy root => exact Or.inl present

/-- The coroutines that an event destroys. -/
def destroys (runtime : Runtime Item Result Exc) : Event Item Result Exc → List CoroId
  | .destroy coro => runtime.victims coro
  | _ => []

/-- Frames are only ever added, and an event destroys what `destroys` says. -/
theorem step_frames {runtime next : Runtime Item Result Exc} {event : Event Item Result Exc}
    (stepped : runtime.step event = some next) :
    runtime.created ≤ next.created ∧
      next.destroyed = runtime.destroyed ++ runtime.destroys event := by
  cases steps_of_step stepped with
  | create owner => exact ⟨Nat.le_succ _, by simp [destroys]⟩
  | destroy root => exact ⟨le_refl _, rfl⟩
  | _ => exact ⟨le_refl _, by simp [destroys]⟩

/-- The runtime refuses to destroy a coroutine that is not suspended. -/
theorem not_onStack_of_mem_destroys {runtime next : Runtime Item Result Exc}
    {event : Event Item Result Exc} (stepped : runtime.step event = some next) {coro : CoroId}
    (destroyed : coro ∈ runtime.destroys event) : ¬runtime.OnStack coro := by
  cases event with
  | destroy root =>
      simp only [step, Option.ite_none_right_eq_some] at stepped
      exact stepped.1.2 coro destroyed
  | _ => simp [destroys] at destroyed

end Runtime

end EventAsync
