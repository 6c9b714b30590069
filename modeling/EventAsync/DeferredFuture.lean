import EventAsync.FutureRuns

/-!
# Deferred futures and the event loop

`DeferredFuture` is meant to resume its awaiters from callbacks of the event
loop: its own `resume_awaiters` takes every coroutine out of the wait list and
passes it to `base.once`.  The functions that resolve a future are members of
`FutureBase`, however, and `FutureBase::resume_awaiters`, which they call, is not
virtual.  A deferred future that is resolved therefore resumes its awaiters at
once, like any other future; its own `resume_awaiters` runs only where somebody
calls it directly.
-/

namespace EventAsync

open Transition (Along Throughout run)

/-- A program with its event loop.  `scheduled` are the callbacks that `base.once` has added and
that have not run yet: the coroutine and the future it awaits. -/
structure Loop (Item Result Exc : Type) where
  runtime : Runtime Item Result Exc
  scheduled : List (CoroId × ℕ)

/-- One choice of the program or of the event loop. -/
inductive LoopEvent (Item Result Exc : Type) where
  | program (event : Event Item Result Exc)
  /-- A direct call of `DeferredFuture::resume_awaiters`. -/
  | resumeAwaiters (future : ℕ)
  /-- The event loop runs the next callback. -/
  | callback

namespace Loop

variable {Item Result Exc : Type}

def init : Loop Item Result Exc where
  runtime := .init
  scheduled := []

/-- `DeferredFuture::resume_awaiters`: the whole wait list is moved to the event loop. -/
def resumeAwaiters (loop : Loop Item Result Exc) (future : ℕ) : Loop Item Result Exc where
  runtime :=
    { loop.runtime with
      futures := Function.update loop.runtime.futures future
        { loop.runtime.futures future with
          toWaitList :=
            (WaitList.popFront)^[(loop.runtime.waiters (.future future)).handles.length]
              (loop.runtime.waiters (.future future)) } }
  scheduled := loop.scheduled ++
    (loop.runtime.waiters (.future future)).handles.map fun coro => (coro, future)

/-- The callback that `base.once` was given: `coro.resume()`. -/
def callback (loop : Loop Item Result Exc) : Option (Loop Item Result Exc) :=
  match loop.runtime.stack, loop.scheduled with
  | [], (coro, future) :: rest =>
      some
        { runtime :=
            { loop.runtime with
              stack := [.awaitResume coro (.future future)]
              suspendedAt := Function.update loop.runtime.suspendedAt coro none
              trace := loop.runtime.trace ++ [.resumed coro (.future future)] }
          scheduled := rest }
  | _, _ => none

def step (loop : Loop Item Result Exc) :
    LoopEvent Item Result Exc → Option (Loop Item Result Exc)
  | .program event =>
      (loop.runtime.step event).map fun runtime => { loop with runtime := runtime }
  | .resumeAwaiters future =>
      if loop.runtime.UserCodeRuns then some (loop.resumeAwaiters future) else none
  | .callback => loop.callback

/-- The coroutines that callbacks will resume from one future. -/
def scheduledFor (loop : Loop Item Result Exc) (future : ℕ) : List CoroId :=
  loop.scheduled.filterMap fun (coro, on) => if on = future then some coro else none

/-- The call that was made on top of `below` to resolve the future has not returned. -/
def Resolving (loop : Loop Item Result Exc) (future : ℕ) (below : List Frame) : Prop :=
  (.resumeAwaiters future :: below) <:+ loop.runtime.stack

/-- What a deferred future promises about one resolving call. -/
structure Defers (loop : Loop Item Result Exc) (future : ℕ)
    (resolution : Resolution Result Exc) : Prop where
  /-- No awaiter is resumed before the call returns. -/
  unresumed : ∀ called events later,
    loop.step (.program (.resolve future resolution)) = some called →
      run step called events = some later →
        Throughout step (fun state => state.Resolving future loop.runtime.stack) called events →
          later.runtime.resumedOn (.future future) = loop.runtime.resumedOn (.future future)
  /-- When it returns, each suspended awaiter has been scheduled once, in await order. -/
  scheduled : ∀ called events later final,
    loop.step (.program (.resolve future resolution)) = some called →
      run step called events = some later →
        Throughout step (fun state => state.Resolving future loop.runtime.stack) called events →
          later.step (.program .proceed) = some final →
            final.runtime.stack = loop.runtime.stack →
              final.scheduledFor future = loop.scheduledFor future ++
                (loop.runtime.waiters (.future future)).handles

section Resolved

variable {loop next : Loop Item Result Exc} {future : ℕ} {below : List Frame}

theorem step_program {event : Event Item Result Exc}
    (stepped : loop.step (.program event) = some next) :
    loop.runtime.step event = some next.runtime ∧ next.scheduled = loop.scheduled := by
  simp only [step, Option.map_eq_some_iff] at stepped
  rcases stepped with ⟨runtime, stepped, rfl⟩
  exact ⟨stepped, rfl⟩

/-- The loop of `resume_awaiters` of a future that nobody awaits is about to end. -/
structure AboutToReturn (loop : Loop Item Result Exc) (future : ℕ) (below : List Frame)
    (resumed : List CoroId) (scheduled : List (CoroId × ℕ)) : Prop where
  stack : loop.runtime.stack = .resumeAwaiters future :: below
  nobody : (loop.runtime.waiters (.future future)).handles = []
  resumedOn : loop.runtime.resumedOn (.future future) = resumed
  scheduled_eq : loop.scheduled = scheduled

theorem not_resolving_below : ¬((.resumeAwaiters future :: below) <:+ below) := by
  intro suffix
  have short := suffix.length_le
  simp at short

/-- The innermost code is a loop of `resume_awaiters` that finds nobody: it returns, or nothing
happens to the future. -/
theorem returns_or_waits {runtime after : Runtime Item Result Exc} {event : Event Item Result Exc}
    (shape : runtime.stack = .resumeAwaiters future :: below)
    (nobody : (runtime.waiters (.future future)).handles = [])
    (stepped : runtime.step event = some after) :
    after.stack = below ∨ after.stack = runtime.stack ∧ after.futures = runtime.futures ∧
      after.resumedOn (.future future) = runtime.resumedOn (.future future) := by
  have library : runtime.UserCodeRuns = false := by
    simp [Runtime.UserCodeRuns, shape]
  cases Runtime.steps_of_step stepped with
  | create owner => exact Or.inr ⟨rfl, rfl, rfl⟩
  | adopt coro owner => exact Or.inr ⟨rfl, rfl, rfl⟩
  | enter coro userCode => simp [library] at userCode
  | leave other => simp [shape] at other
  | readReady channel other => simp [shape] at other
  | readSuspend channel other => simp [shape] at other
  | writeQuiet channel item userCode => simp [library] at userCode
  | writeWake channel item userCode => simp [library] at userCode
  | awaitReady on other => simp [shape] at other
  | awaitSuspend on other => simp [shape] at other
  | resolveAgain on resolution userCode => simp [library] at userCode
  | resolve on resolution userCode => simp [library] at userCode
  | receive other => simp [shape] at other
  | observe other => simp [shape] at other
  | badAccess other => simp [shape] at other
  | @resumeNext on rest coro other first =>
      simp only [shape, List.cons.injEq, Frame.resumeAwaiters.injEq] at other
      have nobodyFirst := WaitList.front_eq_none_iff.mpr nobody
      rw [Runtime.waiters, other.1, first] at nobodyFirst
      simp at nobodyFirst
  | @resumeEnd on rest other =>
      simp only [shape, List.cons.injEq] at other
      exact Or.inl other.2.symm
  | destroy coro => exact Or.inr ⟨rfl, rfl, by simp [Runtime.resumedOn]⟩

/-- While such a call has not returned, it does nothing. -/
theorem aboutToReturn_step {resumed : List CoroId} {scheduled : List (CoroId × ℕ)}
    {event : LoopEvent Item Result Exc}
    (about : loop.AboutToReturn future below resumed scheduled)
    (stepped : loop.step event = some next) (resolving : next.Resolving future below) :
    next.AboutToReturn future below resumed scheduled := by
  cases event with
  | program event =>
      rcases step_program stepped with ⟨stepped, sameScheduled⟩
      rcases returns_or_waits about.stack about.nobody stepped with
        returned | ⟨sameStack, sameFutures, sameResumed⟩
      · rw [Resolving, returned] at resolving
        exact absurd resolving not_resolving_below
      · refine ⟨sameStack.trans about.stack, ?_, sameResumed.trans about.resumedOn,
          sameScheduled.trans about.scheduled_eq⟩
        have nobody := about.nobody
        simp only [Runtime.waiters] at nobody ⊢
        rw [sameFutures]
        exact nobody
  | resumeAwaiters on => simp [step, Runtime.UserCodeRuns, about.stack] at stepped
  | callback => simp [step, callback, about.stack] at stepped

theorem aboutToReturn_of_resolve {resolution : Resolution Result Exc}
    (pending : (loop.runtime.futures future).value = none)
    (nobody : (loop.runtime.waiters (.future future)).handles = [])
    (stepped : loop.step (.program (.resolve future resolution)) = some next) :
    next.AboutToReturn future loop.runtime.stack (loop.runtime.resumedOn (.future future))
      loop.scheduled := by
  rcases step_program stepped with ⟨stepped, sameScheduled⟩
  have effect := Runtime.step_effect stepped (.future future)
  have untaken : loop.runtime.takesFrom (.resolve future resolution) (.future future) = [] := rfl
  have unsuspended : loop.runtime.suspendsOn (.resolve future resolution) (.future future) = [] :=
    rfl
  have change := effect.change
  have resumed := effect.resumedOn_eq
  rw [untaken, List.append_nil] at resumed
  rw [untaken, unsuspended] at change
  refine ⟨?_, ?_, resumed, sameScheduled⟩
  · generalize next.runtime = after at stepped
    cases Runtime.steps_of_step stepped with
    | resolveAgain _ _ _ done => simp [pending] at done
    | resolve => rfl
  · generalize next.runtime.waiters (.future future) = after at change
    cases change
    exact nobody

/-- A resolving call that finds nobody waiting defers, as there is nobody to resume. -/
theorem defers_of_nobody {resolution : Resolution Result Exc}
    (pending : (loop.runtime.futures future).value = none)
    (nobody : (loop.runtime.waiters (.future future)).handles = []) :
    loop.Defers future resolution := by
  have about : ∀ called events later,
      loop.step (.program (.resolve future resolution)) = some called →
        run step called events = some later →
          Throughout step (fun state => state.Resolving future loop.runtime.stack) called events →
            later.AboutToReturn future loop.runtime.stack
              (loop.runtime.resumedOn (.future future)) loop.scheduled := by
    intro called events later stepped reached resolving
    have preserved : ∀ (state : Loop Item Result Exc) event next,
        state.AboutToReturn future loop.runtime.stack
          (loop.runtime.resumedOn (.future future)) loop.scheduled →
        (∀ next, state.step event = some next → next.Resolving future loop.runtime.stack) →
        state.step event = some next →
          next.AboutToReturn future loop.runtime.stack
            (loop.runtime.resumedOn (.future future)) loop.scheduled := by
      intro state event next holds allowed stepped
      exact aboutToReturn_step holds stepped (allowed next stepped)
    exact Transition.invariant_of_along preserved
      (aboutToReturn_of_resolve pending nobody stepped) resolving.along_next reached
  constructor
  · intro called events later stepped reached resolving
    exact (about called events later stepped reached resolving).resumedOn
  · intro called events later final stepped reached resolving proceeded returned
    have before := about called events later stepped reached resolving
    rw [scheduledFor, (step_program proceeded).2, before.scheduled_eq, nobody, List.append_nil]
    rfl

/-- A resolving call that finds somebody waiting resumes the first one at once. -/
theorem nobody_of_defers {resolution : Resolution Result Exc}
    (pending : (loop.runtime.futures future).value = none)
    (accepted : (loop.step (.program (.resolve future resolution))).isSome)
    (defers : loop.Defers future resolution) :
    (loop.runtime.waiters (.future future)).handles = [] := by
  apply WaitList.front_eq_none_iff.mp
  cases front : (loop.runtime.futures future).awaitingCoros.front? with
  | none => exact front
  | some coro =>
      exfalso
      rcases Option.isSome_iff_exists.mp accepted with ⟨called, stepped⟩
      have sameScheduled := (step_program stepped).2
      have shape : called.runtime.stack = .resumeAwaiters future :: loop.runtime.stack ∧
          (called.runtime.futures future).awaitingCoros.front? = some coro ∧
            called.runtime.resumedOn (.future future) =
              loop.runtime.resumedOn (.future future) := by
        have stepped := (step_program stepped).1
        generalize called.runtime = after at stepped
        cases Runtime.steps_of_step stepped with
        | resolveAgain _ _ _ done => simp [pending] at done
        | resolve => exact ⟨rfl, by simpa using front, by simp [Runtime.resumedOn]⟩
      rcases shape with ⟨stack, first, resumed⟩
      have resumes : called.step (.program .proceed) =
          some { called with
            runtime := called.runtime.resumeAwaiters future loop.runtime.stack } := by
        simp [step, Runtime.step, stack]
      have resolving : Throughout step (fun state => state.Resolving future loop.runtime.stack)
          called [.program .proceed] := by
        apply Transition.throughout_cons
        · simp [Resolving, stack]
        · intro next proceeded
          rw [resumes, Option.some.injEq] at proceeded
          subst next
          apply Transition.throughout_nil
          simp [Resolving, Runtime.resumeAwaiters, FutureBase.resumeNext, first, stack,
            List.suffix_cons]
      have early := defers.unresumed called [.program .proceed] _ stepped
        (Transition.run_cons_eq_some.mpr ⟨_, resumes, rfl⟩) resolving
      rw [← resumed] at early
      simp [Runtime.resumeAwaiters, FutureBase.resumeNext, first, Runtime.resumedOn] at early

end Resolved

/-- Every call that resolves the future in a run defers. -/
def DefersAlong (future : ℕ) (events : List (LoopEvent Item Result Exc)) : Prop :=
  Along step (fun loop event => ∀ resolution, event = .program (.resolve future resolution) →
    (loop.step event).isSome → (loop.runtime.futures future).value = none →
      loop.Defers future resolution) init events

/-- Whenever the future is resolved, nobody is suspended on it. -/
def ResolvedUnawaited (future : ℕ) (events : List (LoopEvent Item Result Exc)) : Prop :=
  Along step (fun loop event => ∀ resolution, event = .program (.resolve future resolution) →
    (loop.step event).isSome → (loop.runtime.futures future).value = none →
      (loop.runtime.waiters (.future future)).handles = []) init events

/-- A coroutine suspends on a future, and then the future is resolved. -/
def awaitedThenResolved : List (LoopEvent ℕ ℕ ℕ) :=
  [.program (.create none), .program (.enter 0), .program (.await 0),
    .program (.resolve 0 (.setResult 7))]

end Loop

end EventAsync
