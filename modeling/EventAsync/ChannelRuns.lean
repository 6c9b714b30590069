import EventAsync.RuntimeSteps

/-!
# The wait list of a channel over whole runs

`Channel::write` wakes the reader that has waited longest: `await_suspend`
appends to the wait list at a saved iterator and `resume_awaiter` pops its
front.  Nothing moves the saved iterator back when the last reader is popped.
The readers are therefore resumed in the order of their suspension as long as
no reader suspends on a channel whose earlier readers have all been resumed.
The first one that does is linked behind a node that has been freed and is
never resumed, and so is every reader after it.
-/

namespace EventAsync

namespace Runtime

open Transition (Along Throughout run)

variable {Item Result Exc : Type}

theorem tracked_throughout (target : WaitTarget) (events : List (Event Item Result Exc)) :
    Throughout step
      (fun runtime => (runtime.waiters target).Tracked (runtime.suspendedOn target))
      init events := by
  apply Transition.throughout_of_preserved
  · intro runtime event next tracked stepped
    have effect := step_effect stepped target
    rw [effect.suspendedOn_eq]
    exact tracked.change effect.change
  · cases target <;> exact WaitList.tracked_init

/-- What a channel promises to its readers over a run. -/
structure ReadersServed (channel : ℕ) (events : List (Event Item Result Exc)) : Prop where
  /-- At every `await_suspend` the saved iterator denotes the last node, or `before_begin`. -/
  iterator : Along step (fun runtime event =>
    runtime.suspendsOn event (.channel channel) ≠ [] →
      (runtime.waiters (.channel channel)).IteratorAtEnd) init events
  /-- A reader that suspends is in the list. -/
  listed : Along step (fun runtime event =>
    ∀ coro ∈ runtime.suspendsOn event (.channel channel), ∀ next,
      runtime.step event = some next →
        coro ∈ (next.waiters (.channel channel)).handles) init events
  /-- Readers are resumed once each, in the order of their suspension, and the ones not
  resumed yet are in the list. -/
  ordered : Throughout step (fun runtime =>
    (runtime.waiters (.channel channel)).Fifo (runtime.suspendedOn (.channel channel))
      (runtime.resumedOn (.channel channel))) init events

/-- No reader suspends on the channel after all of its earlier readers have been resumed. -/
def NeverReusedAfterDrain (channel : ℕ) (events : List (Event Item Result Exc)) : Prop :=
  Along step (fun runtime event =>
    runtime.suspendsOn event (.channel channel) ≠ [] →
      (runtime.waiters (.channel channel)).handles ≠ [] ∨
        runtime.suspendedOn (.channel channel) = []) init events

theorem iteratorAtEnd_along_iff (channel : ℕ) (events : List (Event Item Result Exc)) :
    Along step (fun runtime event =>
      runtime.suspendsOn event (.channel channel) ≠ [] →
        (runtime.waiters (.channel channel)).IteratorAtEnd) init events ↔
      NeverReusedAfterDrain channel events := by
  have tracked := tracked_throughout (.channel channel) events
  constructor
  · intro along before event after runtime split reached suspends
    have here := tracked before (event :: after) runtime split reached
    exact here.iteratorAtEnd_iff.mp (along before event after runtime split reached suspends)
  · intro along before event after runtime split reached suspends
    have here := tracked before (event :: after) runtime split reached
    exact here.iteratorAtEnd_iff.mpr (along before event after runtime split reached suspends)

theorem fifo_throughout {channel : ℕ} {events : List (Event Item Result Exc)}
    (atEnd : Along step (fun runtime event =>
      runtime.suspendsOn event (.channel channel) ≠ [] →
        (runtime.waiters (.channel channel)).IteratorAtEnd) init events) :
    Throughout step (fun runtime =>
      (runtime.waiters (.channel channel)).Fifo (runtime.suspendedOn (.channel channel))
        (runtime.resumedOn (.channel channel))) init events := by
  refine Transition.throughout_of_along ?_ ?_ atEnd
  · intro runtime event next fifo allowed stepped
    have effect := step_effect stepped (.channel channel)
    rw [effect.suspendedOn_eq, effect.resumedOn_eq]
    exact fifo.change effect.change allowed
  · rfl

theorem suspending_mem_handles {channel : ℕ} {runtime next : Runtime Item Result Exc}
    {event : Event Item Result Exc} {coro : CoroId}
    (suspends : coro ∈ runtime.suspendsOn event (.channel channel))
    (atEnd : (runtime.waiters (.channel channel)).IteratorAtEnd)
    (stepped : runtime.step event = some next) :
    coro ∈ (next.waiters (.channel channel)).handles := by
  have change := (step_effect stepped (.channel channel)).change
  revert suspends change
  generalize runtime.suspendsOn event (.channel channel) = suspended
  generalize runtime.takesFrom event (.channel channel) = taken
  generalize next.waiters (.channel channel) = after
  intro suspends change
  cases change with
  | keep => simp at suspends
  | suspend suspending =>
      rw [List.mem_singleton] at suspends
      subst coro
      rw [WaitList.handles_awaitSuspend_of_atEnd atEnd]
      simp
  | take woken first => simp at suspends

/-- A channel serves its readers exactly in the runs that never suspend a reader on it after
its earlier readers have all been resumed. -/
theorem readersServed_iff (channel : ℕ) (events : List (Event Item Result Exc)) :
    ReadersServed channel events ↔ NeverReusedAfterDrain channel events := by
  constructor
  · intro served
    exact (iteratorAtEnd_along_iff channel events).mp served.iterator
  · intro neverReused
    have atEnd := (iteratorAtEnd_along_iff channel events).mpr neverReused
    refine ⟨atEnd, ?_, fifo_throughout atEnd⟩
    intro before event after runtime split reached coro suspends next stepped
    apply suspending_mem_handles suspends _ stepped
    apply atEnd before event after runtime split reached
    exact List.ne_nil_of_mem suspends

/-- A wait list that has been drained never holds a reader again. -/
theorem drained_throughout {channel : ℕ} {past : List (Event Item Result Exc)}
    {runtime : Runtime Item Result Exc} (reached : run step init past = some runtime)
    (empty : (runtime.waiters (.channel channel)).handles = [])
    (usedBefore : runtime.suspendedOn (.channel channel) ≠ [])
    (events : List (Event Item Result Exc)) :
    Throughout step (fun later => (later.waiters (.channel channel)).handles = [])
      runtime events := by
  have tracked : (runtime.waiters (.channel channel)).Tracked
      (runtime.suspendedOn (.channel channel)) :=
    tracked_throughout (.channel channel) past past [] runtime (by simp) reached
  have stays : Throughout step (fun later =>
      (later.waiters (.channel channel)).Tracked (later.suspendedOn (.channel channel)) ∧
        (later.waiters (.channel channel)).handles = [] ∧
          later.suspendedOn (.channel channel) ≠ []) runtime events := by
    refine Transition.throughout_of_preserved ?_ ⟨tracked, empty, usedBefore⟩ events
    rintro now event next ⟨tracked, empty, usedBefore⟩ stepped
    have effect := step_effect stepped (.channel channel)
    rw [effect.suspendedOn_eq]
    refine ⟨tracked.change effect.change, ?_, by simp [usedBefore]⟩
    exact WaitList.Change.handles_eq_nil_of_drained effect.change tracked empty usedBefore
  exact stays.mono fun later holds => holds.2.1

/-- Reader 0 suspends and is woken by a write; then reader 1 suspends. -/
def drainedThenReadAgain : List (Event ℕ ℕ ℕ) :=
  [.create none, .create none, .enter 0, .read 0, .write 0 7, .proceed, .leave, .enter 1,
    .read 0]

theorem not_readersServed_drainedThenReadAgain : ¬ReadersServed 0 drainedThenReadAgain := by
  intro served
  have listed := served.listed
    [.create none, .create none, .enter 0, .read 0, .write 0 7, .proceed, .leave, .enter 1]
    (.read 0) [] _ rfl rfl 1 (by decide) _ rfl
  exact absurd listed (by decide)

end Runtime

end EventAsync
