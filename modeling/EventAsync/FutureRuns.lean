import EventAsync.RuntimeSteps

/-!
# Futures over whole runs

`set_result`, `set_exception` and `cancel` store an outcome and then resume the
coroutines in the wait list one after the other.  A resumed coroutine runs
before the loop goes on and may call any of these functions again, await the
future again or resolve other futures.

The wait list of a future is popped only after the outcome has been stored, and
nobody suspends after that.  This is why a future, unlike a channel, never
emplaces behind a node that has been popped.
-/

namespace EventAsync

/-- The code of a frame runs only because a future is resolved. -/
def Frame.NeedsOutcome (future : ℕ) : Frame → Prop
  | .body _ => False
  | .awaitResume _ target => target = .future future
  | .resumeAwaiters on => on = future

/-- The observation is about an outcome of the future. -/
def Observation.OfOutcome {Item Result Exc : Type} (future : ℕ) :
    Observation Item Result Exc → Prop
  | .resolved on _ => on = future
  | .observed _ on _ => on = future
  | _ => False

namespace Runtime

open Transition (Along Throughout)

variable {Item Result Exc : Type}

/-- The outcomes that have been stored in a future, in order. -/
def resolutionsOf (runtime : Runtime Item Result Exc) (future : ℕ) :
    List (Except (FutureException Exc) Result) :=
  runtime.trace.filterMap fun
    | .resolved on value => if on = future then some value else none
    | _ => none

/-- The outcomes that coroutines have observed at a future, in order. -/
def observationsOf (runtime : Runtime Item Result Exc) (future : ℕ) :
    List (Except (FutureException Exc) Result) :=
  runtime.trace.filterMap fun
    | .observed _ on value => if on = future then some value else none
    | _ => none

/-- How the outcome of a future relates to the history and to the call stack. -/
structure OutcomeKept (runtime : Runtime Item Result Exc) (future : ℕ) : Prop where
  recorded : runtime.resolutionsOf future = (runtime.futures future).value.toList
  observed : ∀ value ∈ runtime.observationsOf future,
    (runtime.futures future).value = some value
  needed : ∀ frame ∈ runtime.stack, frame.NeedsOutcome future →
    (runtime.futures future).value.isSome

theorem outcomeKept_init (future : ℕ) : (init : Runtime Item Result Exc).OutcomeKept future where
  recorded := rfl
  observed := by simp [observationsOf, init]
  needed := by simp [init]

section OutcomeKept

variable {runtime next : Runtime Item Result Exc} {future : ℕ}

/-- The frames of a stack that need an outcome are old, or the outcome is there. -/
def Needed (runtime : Runtime Item Result Exc) (future : ℕ) (stack : List Frame) : Prop :=
  ∀ frame ∈ stack, frame.NeedsOutcome future →
    frame ∈ runtime.stack ∨ (runtime.futures future).value.isSome

theorem needed_stack : runtime.Needed future runtime.stack :=
  fun _ present _ => Or.inl present

theorem needed_below {top : Frame} {below : List Frame} (shape : runtime.stack = top :: below) :
    runtime.Needed future below := by
  intro frame present _
  left
  rw [shape]
  exact List.mem_cons_of_mem top present

theorem Needed.cons {top : Frame} {stack : List Frame} (needed : runtime.Needed future stack)
    (harmless : top.NeedsOutcome future → (runtime.futures future).value.isSome) :
    runtime.Needed future (top :: stack) := by
  intro frame present needs
  rcases List.mem_cons.mp present with rfl | old
  · exact Or.inr (harmless needs)
  · exact needed frame old needs

/-- The step neither stores nor observes an outcome of the future. -/
structure LeavesOutcome (runtime next : Runtime Item Result Exc) (future : ℕ) : Prop where
  value_eq : (next.futures future).value = (runtime.futures future).value
  resolutionsOf_eq : next.resolutionsOf future = runtime.resolutionsOf future
  observationsOf_eq : next.observationsOf future = runtime.observationsOf future

theorem LeavesOutcome.silent
    (value_eq : (next.futures future).value = (runtime.futures future).value)
    (trace_eq : next.trace = runtime.trace) : LeavesOutcome runtime next future := by
  refine ⟨value_eq, ?_, ?_⟩
  · rw [resolutionsOf, trace_eq, resolutionsOf]
  · rw [observationsOf, trace_eq, observationsOf]

theorem LeavesOutcome.recorded {seen : List (Observation Item Result Exc)}
    (value_eq : (next.futures future).value = (runtime.futures future).value)
    (trace_eq : next.trace = runtime.trace ++ seen)
    (elsewhere : ∀ observation ∈ seen, ¬observation.OfOutcome future) :
    LeavesOutcome runtime next future := by
  refine ⟨value_eq, ?_, ?_⟩
  · apply filterMap_trace_of_none trace_eq
    intro observation mem
    have other := elsewhere observation mem
    cases observation with
    | resolved on value => exact if_neg other
    | _ => rfl
  · apply filterMap_trace_of_none trace_eq
    intro observation mem
    have other := elsewhere observation mem
    cases observation with
    | observed coro on value => exact if_neg other
    | _ => rfl

theorem LeavesOutcome.observed {observation : Observation Item Result Exc}
    (value_eq : (next.futures future).value = (runtime.futures future).value)
    (trace_eq : next.trace = runtime.trace ++ [observation])
    (elsewhere : ¬observation.OfOutcome future) : LeavesOutcome runtime next future :=
  .recorded value_eq trace_eq (List.forall_mem_singleton.mpr elsewhere)

theorem OutcomeKept.of_same (kept : runtime.OutcomeKept future)
    (leaves : LeavesOutcome runtime next future) (stack : runtime.Needed future next.stack) :
    next.OutcomeKept future where
  recorded := by
    rw [leaves.resolutionsOf_eq, leaves.value_eq]
    exact kept.recorded
  observed := by
    rw [leaves.observationsOf_eq, leaves.value_eq]
    exact kept.observed
  needed := by
    intro frame present needs
    rw [leaves.value_eq]
    rcases stack frame present needs with old | done
    · exact kept.needed frame old needs
    · exact done

theorem outcomeKept_step {event : Event Item Result Exc} (kept : runtime.OutcomeKept future)
    (stepped : runtime.step event = some next) : next.OutcomeKept future := by
  cases steps_of_step stepped with
  | create owner => exact kept.of_same (.silent rfl rfl) needed_stack
  | adopt other owner => exact kept.of_same (.silent rfl rfl) needed_stack
  | enter coro => exact kept.of_same (.silent rfl rfl) (needed_stack.cons False.elim)
  | leave shape => exact kept.of_same (.silent rfl rfl) (needed_below shape)
  | readReady channel shape =>
      refine kept.of_same (.silent rfl rfl) ?_
      apply (needed_below shape).cons
      simp [Frame.NeedsOutcome]
  | readSuspend channel shape =>
      refine kept.of_same ?_ (needed_below shape)
      exact .observed rfl rfl not_false
  | writeQuiet channel item =>
      refine kept.of_same ?_ needed_stack
      exact .observed rfl rfl not_false
  | writeWake channel item =>
      refine kept.of_same (.recorded rfl rfl (by simp [Observation.OfOutcome])) ?_
      apply needed_stack.cons
      simp [Frame.NeedsOutcome]
  | @awaitReady coro below on shape done =>
      refine kept.of_same (.silent rfl rfl) ?_
      apply (needed_below shape).cons
      intro needs
      have same : on = future := by simpa [Frame.NeedsOutcome] using needs
      exact same ▸ done
  | @awaitSuspend coro below on shape pending =>
      refine kept.of_same ?_ (needed_below shape)
      refine .observed ?_ rfl not_false
      by_cases same : future = on
      · subst same
        simp [FutureBase.awaitSuspend]
      · simp [same]
  | resolveAgain on resolution =>
      refine kept.of_same ?_ needed_stack
      exact .observed rfl rfl not_false
  | resolve on resolution userCode pending =>
      by_cases same : on = future
      · subst on
        have unobserved : runtime.observationsOf future = [] := by
          apply List.eq_nil_iff_forall_not_mem.mpr
          intro value observed
          simp [kept.observed value observed] at pending
        have unrecorded := kept.recorded
        simp only [observationsOf, resolutionsOf, pending] at unobserved unrecorded
        refine ⟨?_, ?_, ?_⟩
        · simp [resolutionsOf, unrecorded]
        · simp [observationsOf, unobserved]
        · simp
      · apply kept.of_same
        · refine .observed ?_ rfl same
          simp [Ne.symm same]
        · exact needed_stack.cons fun needs => absurd needs same
  | receive shape =>
      refine kept.of_same ?_ ((needed_below shape).cons False.elim)
      exact .observed rfl rfl not_false
  | @observe coro on below value shape alive done =>
      refine ⟨?_, ?_, ?_⟩
      · have recorded := kept.recorded
        simp only [resolutionsOf] at recorded
        simp [resolutionsOf, recorded]
      · intro seen
        have old := kept.observed seen
        simp only [observationsOf] at old
        simp only [observationsOf, List.filterMap_append, List.mem_append]
        rintro (before | now)
        · exact old before
        · by_cases same : on = future
          · subst on
            simp only [List.filterMap_cons, if_true, List.filterMap_nil,
              List.mem_singleton] at now
            exact now ▸ done
          · simp [same] at now
      · intro frame present needs
        rcases List.mem_cons.mp present with rfl | old
        · exact needs.elim
        · exact kept.needed frame (by simp [shape, old]) needs
  | badAccess shape =>
      refine kept.of_same ?_ ((needed_below shape).cons False.elim)
      exact .observed rfl rfl not_false
  | @resumeNext on below coro shape first =>
      apply kept.of_same
      · refine .observed ?_ rfl not_false
        by_cases same : future = on
        · subst same
          simp
        · simp [same]
      · apply needed_stack.cons
        intro needs
        have same : on = future := by simpa [Frame.NeedsOutcome] using needs
        exact kept.needed (.resumeAwaiters on) (by simp [shape]) same
  | resumeEnd shape => exact kept.of_same (.silent rfl rfl) (needed_below shape)
  | destroy coro =>
      refine kept.of_same ?_ needed_stack
      exact .recorded rfl rfl (List.forall_mem_map.mpr fun _ _ => not_false)

end OutcomeKept

section WaitersKept

variable {runtime next : Runtime Item Result Exc} {event : Event Item Result Exc} {future : ℕ}

/-- An outcome that has been stored is never replaced. -/
theorem value_step {value : Except (FutureException Exc) Result}
    (stepped : runtime.step event = some next)
    (done : (runtime.futures future).value = some value) :
    (next.futures future).value = some value := by
  cases steps_of_step stepped with
  | awaitSuspend on =>
      by_cases same : future = on
      · subst same
        simpa [FutureBase.awaitSuspend] using done
      · simpa [same] using done
  | resolve on resolution userCode pending =>
      by_cases same : future = on
      · subst same
        simp [done] at pending
      · simpa [same] using done
  | @resumeNext on =>
      by_cases same : future = on
      · subst same
        simpa using done
      · simpa [same] using done
  | _ => exact done

theorem pending_of_suspends {coro : CoroId}
    (call : runtime.suspends event = some (coro, .future future)) :
    (runtime.futures future).value = none := by
  cases event with
  | await on =>
      simp only [suspends] at call
      split at call
      · split at call
        · simp at call
        · rename_i pending
          simp only [Option.some.injEq, Prod.mk.injEq, WaitTarget.future.injEq] at call
          rw [← call.2]
          simpa [FutureBase.done] using pending
      · simp at call
  | read channel =>
      simp only [suspends] at call
      split at call
      · split at call
        · simp at call
        · simp at call
      · simp at call
  | _ => simp [suspends] at call

theorem pending_of_suspendsOn (suspending : runtime.suspendsOn event (.future future) ≠ []) :
    (runtime.futures future).value = none := by
  unfold suspendsOn at suspending
  split at suspending
  · rename_i coro on call
    split at suspending
    · rename_i same
      exact pending_of_suspends (same ▸ call)
    · simp at suspending
  · simp at suspending

/-- The loop of `resume_awaiters` goes on until nobody waits. -/
theorem resumeAwaiters_mem_step (stepped : runtime.step event = some next)
    (running : .resumeAwaiters future ∈ runtime.stack) :
    .resumeAwaiters future ∈ next.stack ∨ (next.waiters (.future future)).handles = [] := by
  cases steps_of_step stepped with
  | @resumeEnd on below shape nobody =>
      rw [shape, List.mem_cons] at running
      rcases running with same | below
      · right
        simp only [Frame.resumeAwaiters.injEq] at same
        subst same
        exact WaitList.front_eq_none_iff.mp nobody
      · exact Or.inl below
  | leave shape => exact Or.inl (by simpa [shape] using running)
  | readReady channel shape => exact Or.inl (by simpa [shape] using running)
  | readSuspend channel shape => exact Or.inl (by simpa [shape] using running)
  | awaitReady on shape => exact Or.inl (by simpa [shape] using running)
  | awaitSuspend on shape => exact Or.inl (by simpa [shape] using running)
  | receive shape => exact Or.inl (by simpa [shape] using running)
  | observe shape => exact Or.inl (by simpa [shape] using running)
  | badAccess shape => exact Or.inl (by simpa [shape] using running)
  | enter => exact Or.inl (List.mem_cons_of_mem _ running)
  | writeWake => exact Or.inl (List.mem_cons_of_mem _ running)
  | resolve => exact Or.inl (List.mem_cons_of_mem _ running)
  | resumeNext => exact Or.inl (List.mem_cons_of_mem _ running)
  | _ => exact Or.inl running

/-- How the wait list of a future relates to its outcome. -/
structure WaitersKept (runtime : Runtime Item Result Exc) (future : ℕ) : Prop where
  tracked : (runtime.waiters (.future future)).Tracked (runtime.suspendedOn (.future future))
  fifo : (runtime.waiters (.future future)).Fifo (runtime.suspendedOn (.future future))
    (runtime.resumedOn (.future future))
  pending : (runtime.futures future).value = none → runtime.resumedOn (.future future) = []
  drained : (runtime.futures future).value.isSome → .resumeAwaiters future ∉ runtime.stack →
    (runtime.waiters (.future future)).handles = []

theorem waitersKept_init (future : ℕ) : (init : Runtime Item Result Exc).WaitersKept future where
  tracked := WaitList.tracked_init
  fifo := rfl
  pending := fun _ => rfl
  drained := fun _ _ => rfl

/-- Nobody has been taken from the list of a pending future, so its iterator is at the end. -/
theorem WaitersKept.iteratorAtEnd (kept : runtime.WaitersKept future)
    (pending : (runtime.futures future).value = none) :
    (runtime.waiters (.future future)).IteratorAtEnd := by
  apply kept.tracked.iteratorAtEnd_iff.mpr
  have fifo := kept.fifo
  rw [WaitList.Fifo, kept.pending pending, List.nil_append] at fifo
  rw [fifo]
  by_cases empty : (runtime.waiters (.future future)).handles = []
  · exact Or.inr empty
  · exact Or.inl empty

/-- Coroutines are resumed by the loop of `resume_awaiters` only. -/
theorem done_of_takesFrom (outcome : runtime.OutcomeKept future)
    (taken : runtime.takesFrom event (.future future) ≠ []) :
    (runtime.futures future).value.isSome := by
  cases event with
  | proceed =>
      simp only [takesFrom, wakes] at taken
      split at taken
      · rename_i on loop
        split at loop
        · rename_i running below shape
          simp only [Option.some.injEq] at loop
          subst on
          by_cases same : running = future
          · exact outcome.needed (.resumeAwaiters running) (by simp [shape]) same
          · simp [wakesOn, same] at taken
        · simp at loop
      · simp at taken
  | write channel item => simp [takesFrom, wakes, wakesOn] at taken
  | _ => simp [takesFrom, wakes] at taken

theorem waitersKept_step (kept : runtime.WaitersKept future)
    (outcome : runtime.OutcomeKept future) (stepped : runtime.step event = some next) :
    next.WaitersKept future := by
  have effect := step_effect stepped (.future future)
  constructor
  · rw [effect.suspendedOn_eq]
    exact kept.tracked.change effect.change
  · rw [effect.suspendedOn_eq, effect.resumedOn_eq]
    apply kept.fifo.change effect.change
    intro suspending
    exact kept.iteratorAtEnd (pending_of_suspendsOn suspending)
  · intro pending
    have before : (runtime.futures future).value = none := by
      by_contra done
      rcases Option.ne_none_iff_exists'.mp done with ⟨value, stored⟩
      rw [value_step stepped stored] at pending
      simp at pending
    have nobody : runtime.takesFrom event (.future future) = [] := by
      by_contra taken
      have done := done_of_takesFrom outcome taken
      simp [before] at done
    rw [effect.resumedOn_eq, kept.pending before, nobody]
    rfl
  · intro done finished
    by_cases before : (runtime.futures future).value = none
    · cases steps_of_step stepped with
      | resolve on resolution =>
          by_cases same : on = future
          · subst on
            simp at finished
          · simp [Ne.symm same, before] at done
      | awaitSuspend on =>
          by_cases same : future = on
          · subst same
            simp [FutureBase.awaitSuspend, before] at done
          · simp [same, before] at done
      | @resumeNext on =>
          by_cases same : future = on
          · subst same
            simp [before] at done
          · simp [same, before] at done
      | _ => simp [before] at done
    · by_cases running : .resumeAwaiters future ∈ runtime.stack
      · exact (resumeAwaiters_mem_step stepped running).resolve_left finished
      · have empty := kept.drained (Option.isSome_iff_ne_none.mpr before) running
        apply List.eq_nil_iff_forall_not_mem.mpr
        intro coro present
        rcases effect.change.mem_handles present with suspending | waiting
        · exact before (pending_of_suspendsOn (List.ne_nil_of_mem suspending))
        · simp [empty] at waiting

end WaitersKept

/-- What the calls on a future do wherever the program makes them, and what the library code does
that they lead to. -/
structure FutureCalls (runtime : Runtime Item Result Exc) (future : ℕ) : Prop where
  /-- The first resolving call stores its outcome and starts to resume the awaiters. -/
  resolves : ∀ resolution, runtime.UserCodeRuns → (runtime.futures future).value = none →
    ∃ next, runtime.step (.resolve future resolution) = some next ∧
      (next.futures future).value = some resolution.value ∧
      next.waiters (.future future) = runtime.waiters (.future future) ∧
      next.stack = .resumeAwaiters future :: runtime.stack
  /-- A later one raises and changes nothing. -/
  refuses : ∀ resolution, runtime.UserCodeRuns → (runtime.futures future).value.isSome →
    runtime.step (.resolve future resolution) =
      some { runtime with
        trace := runtime.trace ++ [.logicError future resolution.doneMessage] }
  /-- The loop of `resume_awaiters` takes the front of the list and resumes it. -/
  resumesNext : ∀ coro rest below, runtime.stack = .resumeAwaiters future :: below →
    (runtime.waiters (.future future)).handles = coro :: rest →
      ∃ next, runtime.step .proceed = some next ∧
        next.stack = .awaitResume coro (.future future) :: runtime.stack ∧
        (next.waiters (.future future)).handles = rest ∧
        next.resumedOn (.future future) = runtime.resumedOn (.future future) ++ [coro]
  /-- It ends when the list is empty. -/
  resumesNobody : ∀ below, runtime.stack = .resumeAwaiters future :: below →
    (runtime.waiters (.future future)).handles = [] →
      runtime.step .proceed = some { runtime with stack := below }
  /-- `co_await` of a pending future suspends. -/
  suspends : ∀ coro below, runtime.stack = .body coro :: below →
    (runtime.futures future).value = none →
      ∃ next, runtime.step (.await future) = some next ∧ next.stack = below ∧
        next.suspendedOn (.future future) = runtime.suspendedOn (.future future) ++ [coro]
  /-- `co_await` of a resolved one goes on with `await_resume` at once. -/
  continues : ∀ coro below, runtime.stack = .body coro :: below →
    (runtime.futures future).value.isSome →
      runtime.step (.await future) =
        some { runtime with stack := .awaitResume coro (.future future) :: below }
  /-- `await_resume` returns or raises the outcome. -/
  observes : ∀ coro below value, runtime.stack = .awaitResume coro (.future future) :: below →
    runtime.Alive coro → (runtime.futures future).value = some value →
      ∃ next, runtime.step .proceed = some next ∧ next.stack = .body coro :: below ∧
        next.observationsOf future = runtime.observationsOf future ++ [value]

theorem futureCalls (runtime : Runtime Item Result Exc) (future : ℕ) :
    runtime.FutureCalls future where
  resolves := by
    intro resolution userCode pending
    refine ⟨runtime.resolve future resolution, if_pos userCode, ?_, ?_, ?_⟩
    · simp [Runtime.resolve, FutureBase.resolve, FutureBase.done, pending]
    · simp [Runtime.resolve, FutureBase.resolve, FutureBase.done, pending, waiters]
    · simp [Runtime.resolve, FutureBase.resolve, FutureBase.done, pending]
  refuses := by
    intro resolution userCode done
    simp [step, userCode, Runtime.resolve, FutureBase.resolve, FutureBase.done, done]
  resumesNext := by
    intro coro rest below shape front
    have first : (runtime.futures future).awaitingCoros.front? = some coro :=
      WaitList.front_of_handles front
    refine ⟨runtime.resumeAwaiters future below, by simp [step, shape], ?_, ?_, ?_⟩
    · simp [resumeAwaiters, FutureBase.resumeNext, first]
    · rw [waiters] at front
      simp [resumeAwaiters, FutureBase.resumeNext, first, waiters, front]
    · simp [resumeAwaiters, FutureBase.resumeNext, first, resumedOn]
  resumesNobody := by
    intro below shape empty
    have nobody : (runtime.futures future).awaitingCoros.front? = none :=
      WaitList.front_eq_none_iff.mpr empty
    simp [step, shape, resumeAwaiters, FutureBase.resumeNext, nobody]
  suspends := by
    intro coro below shape pending
    refine ⟨runtime.await future coro below, by simp [step, shape], ?_, ?_⟩
    · simp [Runtime.await, FutureBase.done, pending]
    · simp [Runtime.await, FutureBase.done, pending, suspendedOn]
  continues := by
    intro coro below shape done
    simp [step, shape, Runtime.await, FutureBase.done, done]
  observes := by
    intro coro below value shape alive done
    have accepted : runtime.step .proceed = runtime.finishAwait coro (.future future) below := by
      simp [step, shape, alive]
    simp only [finishAwait, done] at accepted
    refine ⟨_, accepted, rfl, ?_⟩
    simp [observationsOf]

/-- What a future promises over a run. -/
structure FutureServed (future : ℕ) (events : List (Event Item Result Exc)) : Prop where
  /-- At most one outcome is ever stored, and it stays. -/
  once : Throughout step (fun runtime =>
    runtime.resolutionsOf future = (runtime.futures future).value.toList) init events
  /-- A later call raises and changes nothing. -/
  refused : Along step (fun runtime event => ∀ resolution next,
    event = .resolve future resolution → (runtime.futures future).value.isSome →
      runtime.step event = some next →
        next = { runtime with
          trace := runtime.trace ++ [.logicError future resolution.doneMessage] }) init events
  /-- Nobody is resumed before the resolution. -/
  patient : Throughout step (fun runtime => (runtime.futures future).value = none →
    runtime.resumedOn (.future future) = []) init events
  /-- Awaiters are resumed once each, in the order in which they began awaiting, and the ones
  not resumed yet are in the list. -/
  ordered : Throughout step (fun runtime =>
    (runtime.waiters (.future future)).Fifo (runtime.suspendedOn (.future future))
      (runtime.resumedOn (.future future))) init events
  /-- Once the resolving call has returned, all of them have been resumed. -/
  served : Throughout step (fun runtime => (runtime.futures future).value.isSome →
    .resumeAwaiters future ∉ runtime.stack →
      (runtime.waiters (.future future)).handles = []) init events
  /-- `await_resume` finds an outcome. -/
  ready : Throughout step (fun runtime => ∀ coro,
    .awaitResume coro (.future future) ∈ runtime.stack →
      (runtime.futures future).value.isSome) init events
  /-- All awaiters observe the outcome that was stored. -/
  agreed : Throughout step (fun runtime => ∀ value ∈ runtime.observationsOf future,
    (runtime.futures future).value = some value) init events
  /-- Nobody suspends on a future that is resolved. -/
  late : Along step (fun runtime event => (runtime.futures future).value.isSome →
    runtime.suspendsOn event (.future future) = []) init events
  /-- `await_suspend` emplaces behind the last node, or behind `before_begin`. -/
  iterator : Along step (fun runtime event =>
    runtime.suspendsOn event (.future future) ≠ [] →
      (runtime.waiters (.future future)).IteratorAtEnd) init events
  /-- Every call is accepted, and does its work. -/
  calls : Throughout step (fun runtime => runtime.FutureCalls future) init events

theorem futureServed (future : ℕ) (events : List (Event Item Result Exc)) :
    FutureServed future events := by
  have kept : Throughout step (fun runtime =>
      runtime.OutcomeKept future ∧ runtime.WaitersKept future) init events := by
    apply Transition.throughout_of_preserved
    · rintro runtime event next ⟨outcome, waiting⟩ stepped
      exact ⟨outcomeKept_step outcome stepped, waitersKept_step waiting outcome stepped⟩
    · exact ⟨outcomeKept_init future, waitersKept_init future⟩
  constructor
  · exact kept.mono fun runtime holds => holds.1.recorded
  · rintro before event after runtime split reached resolution next rfl done stepped
    cases steps_of_step stepped with
    | resolveAgain => rfl
    | resolve _ _ _ pending => simp [pending] at done
  · exact kept.mono fun runtime holds => holds.2.pending
  · exact kept.mono fun runtime holds => holds.2.fifo
  · exact kept.mono fun runtime holds => holds.2.drained
  · exact kept.mono fun runtime holds coro present =>
      holds.1.needed (.awaitResume coro (.future future)) present rfl
  · exact kept.mono fun runtime holds => holds.1.observed
  · intro before event after runtime split reached done
    by_contra suspending
    simp [pending_of_suspendsOn suspending] at done
  · intro before event after runtime split reached suspending
    have here := kept before (event :: after) runtime split reached
    exact here.2.iteratorAtEnd (pending_of_suspendsOn suspending)
  · exact fun _ _ runtime _ _ => futureCalls runtime future

end Runtime

end EventAsync
