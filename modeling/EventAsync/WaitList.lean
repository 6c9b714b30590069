import EventAsync.Lib.ForwardList

/-!
# Wait lists of suspended coroutines

`Channel` and `FutureBase` keep the coroutines that wait on them in the same
way: a `std::forward_list` of handles, `awaiting_coros`, and a saved iterator,
`awaiting_coros_insert_it`, behind which `await_suspend` emplaces the next
handle.  Waking a coroutine takes the front of the list and does not look at
the saved iterator.

The file follows one wait list through its history: the handles that were ever
suspended on it and those that were ever taken from it.  `Tracked` holds in
every history.  It says when the saved iterator still denotes the end of the
list, and that it never does again once the list has been drained.
-/

namespace EventAsync

/-- A coroutine handle. -/
abbrev CoroId := ℕ

/-- The members `awaiting_coros` and `awaiting_coros_insert_it`. -/
structure WaitList where
  awaitingCoros : ForwardList CoroId
  awaitingCorosInsertIt : ForwardList.Position

namespace WaitList

/-- No coroutine waits and the iterator is `before_begin()`. -/
def init : WaitList where
  awaitingCoros := .empty
  awaitingCorosInsertIt := .beforeBegin

/-- `awaiting_coros_insert_it = awaiting_coros.emplace_after(awaiting_coros_insert_it, coro)`. -/
def awaitSuspend (waiters : WaitList) (coro : CoroId) : WaitList where
  awaitingCoros := waiters.awaitingCoros.emplaceAfter waiters.awaitingCorosInsertIt coro
  awaitingCorosInsertIt := waiters.awaitingCoros.emplacedPosition

/-- `awaiting_coros.pop_front()`. -/
def popFront (waiters : WaitList) : WaitList where
  awaitingCoros := waiters.awaitingCoros.popFront
  awaitingCorosInsertIt := waiters.awaitingCorosInsertIt

/-- The handles in the list, front first. -/
def handles (waiters : WaitList) : List CoroId :=
  waiters.awaitingCoros.values

@[simp]
theorem handles_init : init.handles = [] := rfl

@[simp]
theorem handles_popFront (waiters : WaitList) :
    waiters.popFront.handles = waiters.handles.tail := by
  simp [handles, popFront]

theorem mem_handles_awaitSuspend {waiters : WaitList} {coro member : CoroId}
    (present : member ∈ (waiters.awaitSuspend coro).handles) :
    member = coro ∨ member ∈ waiters.handles :=
  ForwardList.mem_values_emplaceAfter present

/-- What one operation can do to a wait list: the handles it suspends and those it takes. -/
inductive Change : WaitList → List CoroId → List CoroId → WaitList → Prop where
  | keep (waiters : WaitList) : Change waiters [] [] waiters
  | suspend (waiters : WaitList) (coro : CoroId) :
      Change waiters [coro] [] (waiters.awaitSuspend coro)
  | take (waiters : WaitList) (coro : CoroId)
      (first : waiters.awaitingCoros.front? = some coro) :
      Change waiters [] [coro] waiters.popFront

/-- The saved iterator denotes the last node, or `before_begin` when there is none. -/
def IteratorAtEnd (waiters : WaitList) : Prop :=
  waiters.awaitingCorosInsertIt = waiters.awaitingCoros.lastPosition

/-- How the saved iterator relates to the list, given all handles suspended so far. -/
structure Tracked (waiters : WaitList) (suspended : List CoroId) : Prop where
  unused : suspended = [] →
    waiters.awaitingCorosInsertIt = .beforeBegin ∧ waiters.handles = []
  used : suspended ≠ [] → waiters.awaitingCorosInsertIt ≠ .beforeBegin
  atEnd : waiters.handles ≠ [] → waiters.IteratorAtEnd

theorem tracked_init : init.Tracked [] where
  unused := fun _ => ⟨rfl, rfl⟩
  used := fun contradiction => absurd rfl contradiction
  atEnd := fun contradiction => absurd rfl contradiction

/-- The iterator is at the end exactly when somebody waits or nobody ever has. -/
theorem Tracked.iteratorAtEnd_iff {waiters : WaitList} {suspended : List CoroId}
    (tracked : waiters.Tracked suspended) :
    waiters.IteratorAtEnd ↔ waiters.handles ≠ [] ∨ suspended = [] := by
  constructor
  · intro atEnd
    by_cases waiting : waiters.handles = []
    · right
      by_contra usedBefore
      apply tracked.used usedBefore
      rw [atEnd]
      exact ForwardList.lastPosition_eq_beforeBegin_iff.mpr waiting
    · exact Or.inl waiting
  · rintro (waiting | neverUsed)
    · exact tracked.atEnd waiting
    · rcases tracked.unused neverUsed with ⟨iterator, empty⟩
      rw [IteratorAtEnd, iterator]
      exact (ForwardList.lastPosition_eq_beforeBegin_iff.mpr empty).symm

theorem handles_awaitSuspend_of_atEnd {waiters : WaitList} {coro : CoroId}
    (atEnd : waiters.IteratorAtEnd) :
    (waiters.awaitSuspend coro).handles = waiters.handles ++ [coro] := by
  simp only [handles, awaitSuspend]
  rw [atEnd]
  exact ForwardList.values_emplaceAfter_lastPosition _ _

theorem iteratorAtEnd_awaitSuspend {waiters : WaitList} {coro : CoroId}
    (atEnd : waiters.IteratorAtEnd) : (waiters.awaitSuspend coro).IteratorAtEnd := by
  simp only [IteratorAtEnd, awaitSuspend]
  rw [atEnd]
  exact (ForwardList.lastPosition_emplaceAfter_lastPosition _ _).symm

/-- A coroutine that suspends while the iterator denotes a removed node is in no list. -/
theorem handles_awaitSuspend_of_drained {waiters : WaitList} {suspended : List CoroId}
    {coro : CoroId} (tracked : waiters.Tracked suspended) (empty : waiters.handles = [])
    (usedBefore : suspended ≠ []) : (waiters.awaitSuspend coro).handles = [] :=
  ForwardList.values_emplaceAfter_removed empty (tracked.used usedBefore)

theorem Tracked.awaitSuspend {waiters : WaitList} {suspended : List CoroId} {coro : CoroId}
    (tracked : waiters.Tracked suspended) :
    (waiters.awaitSuspend coro).Tracked (suspended ++ [coro]) where
  unused := by simp
  used := by
    intro _
    simp [WaitList.awaitSuspend, ForwardList.emplacedPosition]
  atEnd := by
    intro waiting
    by_cases atEnd : waiters.IteratorAtEnd
    · exact iteratorAtEnd_awaitSuspend atEnd
    · have drained : ¬(waiters.handles ≠ [] ∨ suspended = []) :=
        fun fine => atEnd (tracked.iteratorAtEnd_iff.mpr fine)
      rw [not_or, not_not] at drained
      exact absurd (handles_awaitSuspend_of_drained tracked drained.1 drained.2) waiting

theorem Tracked.popFront {waiters : WaitList} {suspended : List CoroId}
    (tracked : waiters.Tracked suspended) : waiters.popFront.Tracked suspended where
  unused := by
    intro neverUsed
    rcases tracked.unused neverUsed with ⟨iterator, empty⟩
    exact ⟨iterator, by simp [empty]⟩
  used := tracked.used
  atEnd := by
    intro waiting
    rw [handles_popFront] at waiting
    have before : waiters.handles ≠ [] := by
      intro empty
      simp [empty] at waiting
    rw [IteratorAtEnd]
    exact (tracked.atEnd before).trans
      (ForwardList.lastPosition_popFront waiting).symm

theorem Tracked.change {before after : WaitList} {past suspended taken : List CoroId}
    (tracked : before.Tracked past) (change : Change before suspended taken after) :
    after.Tracked (past ++ suspended) := by
  cases change with
  | keep => simpa using tracked
  | suspend coro => exact tracked.awaitSuspend
  | take coro first => simpa using tracked.popFront

/-- The handles ever suspended are the ones taken so far followed by the ones in the list. -/
def Fifo (waiters : WaitList) (suspended taken : List CoroId) : Prop :=
  suspended = taken ++ waiters.handles

theorem handles_of_front {waiters : WaitList} {coro : CoroId}
    (first : waiters.awaitingCoros.front? = some coro) :
    waiters.handles = coro :: waiters.handles.tail :=
  List.eq_cons_of_mem_head? first

theorem front_eq_none_iff {waiters : WaitList} :
    waiters.awaitingCoros.front? = none ↔ waiters.handles = [] := by
  simp [handles, ForwardList.values, ForwardList.front?]

theorem front_of_handles {waiters : WaitList} {coro : CoroId} {rest : List CoroId}
    (front : waiters.handles = coro :: rest) : waiters.awaitingCoros.front? = some coro :=
  (congrArg List.head? front).trans List.head?_cons

/-- A change keeps the list in first-in first-out order if it suspends only at the end. -/
theorem Fifo.change {before after : WaitList} {past past' suspended taken : List CoroId}
    (fifo : before.Fifo past past') (change : Change before suspended taken after)
    (suspendsAtEnd : suspended ≠ [] → before.IteratorAtEnd) :
    after.Fifo (past ++ suspended) (past' ++ taken) := by
  unfold Fifo at fifo ⊢
  cases change with
  | keep => simpa using fifo
  | suspend coro =>
      rw [handles_awaitSuspend_of_atEnd (suspendsAtEnd (by simp)), fifo]
      simp
  | take coro first =>
      rw [fifo, handles_popFront, handles_of_front first]
      simp

/-- No handle enters a list except by suspending. -/
theorem Change.mem_handles {before after : WaitList} {suspended taken : List CoroId}
    (change : Change before suspended taken after) {coro : CoroId}
    (present : coro ∈ after.handles) : coro ∈ suspended ∨ coro ∈ before.handles := by
  cases change with
  | keep => exact Or.inr present
  | suspend suspending =>
      rcases mem_handles_awaitSuspend present with rfl | old
      · exact Or.inl (by simp)
      · exact Or.inr old
  | take first_coro first =>
      rw [handles_popFront] at present
      exact Or.inr (List.mem_of_mem_tail present)

/-- A handle taken from a list was in it. -/
theorem Change.taken_mem_handles {before after : WaitList} {suspended taken : List CoroId}
    (change : Change before suspended taken after) {coro : CoroId} (woken : coro ∈ taken) :
    coro ∈ before.handles := by
  cases change with
  | keep => simp at woken
  | suspend suspending => simp at woken
  | take front first =>
      rw [List.mem_singleton] at woken
      rw [handles_of_front first, woken]
      exact List.mem_cons_self

/-- A list that was drained stays empty: nobody can be taken, and nobody gets in. -/
theorem Change.handles_eq_nil_of_drained {before after : WaitList}
    {past suspended taken : List CoroId} (change : Change before suspended taken after)
    (tracked : before.Tracked past) (empty : before.handles = []) (usedBefore : past ≠ []) :
    after.handles = [] := by
  cases change with
  | keep => exact empty
  | suspend coro => exact handles_awaitSuspend_of_drained tracked empty usedBefore
  | take coro first => simp [empty]

end WaitList

end EventAsync
