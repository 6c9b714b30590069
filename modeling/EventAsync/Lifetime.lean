import EventAsync.RuntimeSteps

/-!
# Destroyed coroutines and wait lists

`DetachedTask::cancel`, `~TaskBase` and `TaskBase::operator=` destroy a
coroutine frame, and with it the `Task` objects in the frame and the frames
these own.  The awaiters of timers and file descriptors unregister themselves
when they are destroyed with the frame (`~Event`); the awaiters of channels and
futures do not take the handle out of the wait list.

No destroyed coroutine is ever in a wait list, and none is ever resumed from
one, exactly in the runs that destroy no coroutine while it is in a wait list.
-/

namespace EventAsync

namespace Runtime

open Transition (Along Throughout run)

variable {Item Result Exc : Type}

/-- Every coroutine in a wait list or on the stack has a frame. -/
structure FramesLive (runtime : Runtime Item Result Exc) : Prop where
  waiting : ∀ target, ∀ coro ∈ (runtime.waiters target).handles, runtime.Alive coro
  running : ∀ coro, runtime.OnStack coro → runtime.Alive coro

/-- The coroutines an event destroys are in no wait list. -/
def DestroysNoWaiter (runtime : Runtime Item Result Exc) (event : Event Item Result Exc) :
    Prop :=
  (runtime.step event).isSome → ∀ coro ∈ runtime.destroys event, ∀ target,
    coro ∉ (runtime.waiters target).handles

theorem framesLive_init : (init : Runtime Item Result Exc).FramesLive where
  waiting := by
    intro target coro present
    cases target <;> simp [waiters, init, Channel.init, FutureBase.init] at present
  running := by
    intro coro present
    simp [OnStack, init] at present

theorem alive_of_step {runtime next : Runtime Item Result Exc} {event : Event Item Result Exc}
    (stepped : runtime.step event = some next) {coro : CoroId} (alive : runtime.Alive coro)
    (spared : coro ∉ runtime.destroys event) : next.Alive coro := by
  rcases step_frames stepped with ⟨created, destroyed⟩
  refine ⟨alive.1.trans_le created, ?_⟩
  rw [destroyed, List.mem_append, not_or]
  exact ⟨alive.2, spared⟩

theorem not_onStack_of_destroyed {runtime next : Runtime Item Result Exc}
    {event : Event Item Result Exc} (stepped : runtime.step event = some next) {coro : CoroId}
    (destroyed : coro ∈ runtime.destroys event) : ¬next.OnStack coro := by
  cases event with
  | destroy root =>
      have before := not_onStack_of_mem_destroys stepped destroyed
      simp only [step, Option.ite_none_right_eq_some, Option.some.injEq] at stepped
      rcases stepped with ⟨_, rfl⟩
      exact before
  | _ => simp [destroys] at destroyed

theorem framesLive_step {runtime next : Runtime Item Result Exc}
    {event : Event Item Result Exc} (live : runtime.FramesLive)
    (careful : runtime.DestroysNoWaiter event) (stepped : runtime.step event = some next) :
    next.FramesLive where
  waiting := by
    intro target coro present
    have change := (step_effect stepped target).change
    rcases change.mem_handles present with suspending | waiting
    · have onStack := onStack_of_mem_suspendsOn suspending
      apply alive_of_step stepped (live.running coro onStack)
      intro destroyed
      exact not_onStack_of_mem_destroys stepped destroyed onStack
    · apply alive_of_step stepped (live.waiting target coro waiting)
      intro destroyed
      exact careful (by simp [stepped]) coro destroyed target waiting
  running := by
    intro coro present
    have spared : coro ∉ runtime.destroys event := fun destroyed =>
      not_onStack_of_destroyed stepped destroyed present
    rcases step_onStack stepped present with running | alive | ⟨target, taken⟩
    · exact alive_of_step stepped (live.running coro running) spared
    · exact alive_of_step stepped alive spared
    · have waiting := (step_effect stepped target).change.taken_mem_handles taken
      exact alive_of_step stepped (live.waiting target coro waiting) spared

/-- What the wait lists promise about destroyed coroutines over a run. -/
structure DestroyedNeverResumed (events : List (Event Item Result Exc)) : Prop where
  /-- No wait list ever contains the handle of a destroyed coroutine. -/
  unlisted : Throughout step (fun runtime =>
    ∀ target, ∀ coro ∈ (runtime.waiters target).handles, coro ∉ runtime.destroyed) init events
  /-- No write and no resolution resumes a destroyed coroutine. -/
  unresumed : Along step (fun runtime event =>
    ∀ target, ∀ coro ∈ runtime.takesFrom event target, coro ∉ runtime.destroyed) init events

theorem takesFrom_mem_handles {runtime : Runtime Item Result Exc}
    {event : Event Item Result Exc} {target : WaitTarget} {coro : CoroId}
    (taken : coro ∈ runtime.takesFrom event target) :
    coro ∈ (runtime.waiters target).handles := by
  unfold takesFrom at taken
  split at taken
  · unfold wakesOn at taken
    split at taken
    · rename_i same
      subst same
      rw [Option.mem_toList] at taken
      rw [WaitList.handles_of_front taken]
      exact List.mem_cons_self
    · simp at taken
  · simp at taken

/-- Destroyed coroutines stay out of the wait lists exactly when no coroutine is destroyed
while it waits in one. -/
theorem destroyedNeverResumed_iff (events : List (Event Item Result Exc)) :
    DestroyedNeverResumed events ↔ Along step DestroysNoWaiter init events := by
  constructor
  · intro safe before event after runtime split reached enabled coro destroyed target waiting
    rcases Option.isSome_iff_exists.mp enabled with ⟨next, stepped⟩
    have next_reached : run step init (before ++ [event]) = some next := by
      refine Transition.run_append_eq_some.mpr ⟨runtime, reached, ?_⟩
      exact Transition.run_cons_eq_some.mpr ⟨next, stepped, rfl⟩
    have still_waiting : coro ∈ (next.waiters target).handles := by
      cases event with
      | destroy root =>
          simp only [step, Option.ite_none_right_eq_some, Option.some.injEq] at stepped
          rcases stepped with ⟨_, rfl⟩
          cases target <;> exact waiting
      | _ => simp [destroys] at destroyed
    have gone : coro ∈ next.destroyed := by
      rw [(step_frames stepped).2]
      exact List.mem_append_right _ destroyed
    exact safe.unlisted (before ++ [event]) after next (by simp [split]) next_reached target coro
      still_waiting gone
  · intro careful
    have live : Throughout step FramesLive init events := by
      refine Transition.throughout_of_along ?_ framesLive_init careful
      intro runtime event next holds allowed stepped
      exact framesLive_step holds allowed stepped
    constructor
    · intro before after runtime split reached target coro waiting
      exact ((live before after runtime split reached).waiting target coro waiting).2
    · intro before event after runtime split reached target coro taken
      have waiting := takesFrom_mem_handles taken
      exact ((live before (event :: after) runtime split reached).waiting target coro waiting).2

/-- A reader suspends on a channel and is destroyed there; then somebody writes. -/
def destroyedWhileReading : List (Event ℕ ℕ ℕ) :=
  [.create none, .enter 0, .read 0, .destroy 0, .write 0 7]

theorem not_destroyedNeverResumed_destroyedWhileReading :
    ¬DestroyedNeverResumed destroyedWhileReading := by
  intro safe
  have unresumed := safe.unresumed [.create none, .enter 0, .read 0, .destroy 0]
    (.write 0 7) [] _ rfl rfl (.channel 0) 0 (by decide)
  exact absurd unresumed (by decide)

end Runtime

end EventAsync
