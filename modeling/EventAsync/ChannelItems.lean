import EventAsync.RuntimeSteps

/-!
# The items of a channel over whole runs

`Channel::write` appends an item and then resumes a reader, which takes the
front of the queue before any other code runs and may then read and write
itself, inside of the outer call.  Between the two no item can be lost: a reader
waits only while the queue is empty, so the reader that is woken finds exactly
the item that was written for it.

Nothing here depends on which reader is woken, or on whether a reader that
suspends can be woken at all.
-/

namespace EventAsync

/-- The observation is about an item of the channel. -/
def Observation.OfItem {Item Result Exc : Type} (channel : ℕ) :
    Observation Item Result Exc → Prop
  | .written on _ => on = channel
  | .received _ on _ => on = channel
  | _ => False

namespace Runtime

open Transition (Along Throughout)

variable {Item Result Exc : Type}

/-- The items written to a channel so far. -/
def writtenTo (runtime : Runtime Item Result Exc) (channel : ℕ) : List Item :=
  runtime.trace.filterMap fun
    | .written on item => if on = channel then some item else none
    | _ => none

/-- The items that the calls of `write` among the events write to a channel, in order. -/
def itemsWritten (channel : ℕ) (events : List (Event Item Result Exc)) : List Item :=
  events.filterMap fun
    | .write on item => if on = channel then some item else none
    | _ => none

/-- The items that reads of a channel have returned so far. -/
def receivedFrom (runtime : Runtime Item Result Exc) (channel : ℕ) : List Item :=
  runtime.trace.filterMap fun
    | .received _ on item => if on = channel then some item else none
    | _ => none

/-- The step changes neither the channel nor the items that it has had. -/
structure LeavesItems (runtime next : Runtime Item Result Exc) (channel : ℕ) : Prop where
  channels_eq : next.channels channel = runtime.channels channel
  writtenTo_eq : next.writtenTo channel = runtime.writtenTo channel
  receivedFrom_eq : next.receivedFrom channel = runtime.receivedFrom channel

/-- The innermost code is about to evaluate `await_resume` of a read of the channel. -/
def ResumesRead (runtime : Runtime Item Result Exc) (channel : ℕ) : Prop :=
  ∃ coro below, runtime.stack = .awaitResume coro (.channel channel) :: below

/-- Only the innermost code can be about to evaluate `await_resume`. -/
def ResumesAtOnce (runtime : Runtime Item Result Exc) : Prop :=
  ∀ coro target, .awaitResume coro target ∉ runtime.stack.tail

theorem not_mem_of_userCode {runtime : Runtime Item Result Exc} (atOnce : runtime.ResumesAtOnce)
    (userCode : runtime.UserCodeRuns) (coro : CoroId) (target : WaitTarget) :
    .awaitResume coro target ∉ runtime.stack := by
  intro present
  simp only [UserCodeRuns] at userCode
  split at userCode
  · rename_i empty
    simp [empty] at present
  · rename_i running below shape
    rw [shape, List.mem_cons] at present
    rcases present with top | rest
    · simp at top
    · have nowhere := atOnce coro target
      rw [shape] at nowhere
      exact nowhere rest
  · simp at userCode

theorem resumesAtOnce_step {runtime next : Runtime Item Result Exc}
    {event : Event Item Result Exc} (atOnce : runtime.ResumesAtOnce)
    (stepped : runtime.step event = some next) : next.ResumesAtOnce := by
  intro coro target
  have nowhere := atOnce coro target
  have below {top : Frame} {rest : List Frame} (shape : runtime.stack = top :: rest) :
      .awaitResume coro target ∉ rest := by
    rw [shape] at nowhere
    exact nowhere
  cases steps_of_step stepped with
  | create owner => exact nowhere
  | adopt other owner => exact nowhere
  | enter other userCode => exact not_mem_of_userCode atOnce userCode coro target
  | leave shape => exact fun present => below shape (List.mem_of_mem_tail present)
  | readReady channel shape => exact below shape
  | readSuspend channel shape => exact fun present => below shape (List.mem_of_mem_tail present)
  | writeQuiet channel item => exact nowhere
  | writeWake channel item userCode => exact not_mem_of_userCode atOnce userCode coro target
  | awaitReady future shape => exact below shape
  | awaitSuspend future shape => exact fun present => below shape (List.mem_of_mem_tail present)
  | resolveAgain future resolution => exact nowhere
  | resolve future resolution userCode => exact not_mem_of_userCode atOnce userCode coro target
  | receive shape => exact below shape
  | observe shape => exact below shape
  | badAccess shape => exact below shape
  | resumeNext shape first =>
      simp only [List.tail_cons, shape, List.mem_cons, reduceCtorEq, false_or]
      exact below shape
  | resumeEnd shape => exact fun present => below shape (List.mem_of_mem_tail present)
  | destroy other => exact nowhere

/-- How the queue of a channel relates to its history and to its wait list. -/
structure ItemsInOrder (runtime : Runtime Item Result Exc) (channel : ℕ) : Prop where
  conserved : runtime.writtenTo channel =
    runtime.receivedFrom channel ++ (runtime.channels channel).queue
  atOnce : runtime.ResumesAtOnce
  /-- A reader that is about to resume finds an item, and no second one if others wait. -/
  resuming : runtime.ResumesRead channel → (runtime.channels channel).queue ≠ [] ∧
    ((runtime.waiters (.channel channel)).handles ≠ [] →
      (runtime.channels channel).queue.length = 1)
  idle : ¬runtime.ResumesRead channel → (runtime.waiters (.channel channel)).handles ≠ [] →
    (runtime.channels channel).queue = []

theorem itemsInOrder_init (channel : ℕ) :
    (init : Runtime Item Result Exc).ItemsInOrder channel where
  conserved := rfl
  atOnce := by simp [ResumesAtOnce, init]
  resuming := by simp [ResumesRead, init]
  idle := fun _ _ => rfl

section Resuming

variable {runtime : Runtime Item Result Exc} {channel : ℕ}

theorem not_resumesRead_of_userCode (userCode : runtime.UserCodeRuns) :
    ¬runtime.ResumesRead channel := by
  rintro ⟨coro, below, shape⟩
  simp [UserCodeRuns, shape] at userCode

theorem not_resumesRead_of_top {top : Frame} {below : List Frame}
    (shape : runtime.stack = top :: below)
    (other : ∀ coro, top ≠ .awaitResume coro (.channel channel)) :
    ¬runtime.ResumesRead channel := by
  rintro ⟨coro, rest, resuming⟩
  rw [shape, List.cons.injEq] at resuming
  exact other coro resuming.1

/-- What is below the innermost frame is about to evaluate no `await_resume`. -/
theorem not_resumesRead_of_below {next : Runtime Item Result Exc} (atOnce : runtime.ResumesAtOnce)
    {top : Frame} (shape : runtime.stack = top :: next.stack) : ¬next.ResumesRead channel := by
  rintro ⟨coro, rest, resuming⟩
  have nowhere := atOnce coro (.channel channel)
  rw [shape, resuming] at nowhere
  exact nowhere List.mem_cons_self

theorem LeavesItems.silent {next : Runtime Item Result Exc}
    (channels_eq : next.channels channel = runtime.channels channel)
    (trace_eq : next.trace = runtime.trace) : LeavesItems runtime next channel := by
  refine ⟨channels_eq, ?_, ?_⟩
  · rw [writtenTo, trace_eq, writtenTo]
  · rw [receivedFrom, trace_eq, receivedFrom]

theorem LeavesItems.recorded {next : Runtime Item Result Exc}
    {seen : List (Observation Item Result Exc)}
    (channels_eq : next.channels channel = runtime.channels channel)
    (trace_eq : next.trace = runtime.trace ++ seen)
    (elsewhere : ∀ observation ∈ seen, ¬observation.OfItem channel) :
    LeavesItems runtime next channel := by
  refine ⟨channels_eq, ?_, ?_⟩
  · apply filterMap_trace_of_none trace_eq
    intro observation mem
    have other := elsewhere observation mem
    cases observation with
    | written on item => exact if_neg other
    | _ => rfl
  · apply filterMap_trace_of_none trace_eq
    intro observation mem
    have other := elsewhere observation mem
    cases observation with
    | received coro on item => exact if_neg other
    | _ => rfl

theorem LeavesItems.observed {next : Runtime Item Result Exc}
    {observation : Observation Item Result Exc}
    (channels_eq : next.channels channel = runtime.channels channel)
    (trace_eq : next.trace = runtime.trace ++ [observation])
    (elsewhere : ¬observation.OfItem channel) : LeavesItems runtime next channel :=
  .recorded channels_eq trace_eq (List.forall_mem_singleton.mpr elsewhere)

/-- A step that leaves the channel alone. -/
theorem ItemsInOrder.of_unchanged {next : Runtime Item Result Exc}
    (inOrder : runtime.ItemsInOrder channel) (atOnce : next.ResumesAtOnce)
    (resumes : next.ResumesRead channel ↔ runtime.ResumesRead channel)
    (leaves : LeavesItems runtime next channel) : next.ItemsInOrder channel where
  conserved := by
    rw [leaves.writtenTo_eq, leaves.receivedFrom_eq, leaves.channels_eq]
    exact inOrder.conserved
  atOnce := atOnce
  resuming := by
    rw [resumes, waiters, leaves.channels_eq]
    exact inOrder.resuming
  idle := by
    rw [resumes, waiters, leaves.channels_eq]
    exact inOrder.idle

/-- The same, from and to a state that resumes no read of the channel. -/
theorem ItemsInOrder.of_quiet {next : Runtime Item Result Exc}
    (inOrder : runtime.ItemsInOrder channel) (atOnce : next.ResumesAtOnce)
    (before : ¬runtime.ResumesRead channel) (after : ¬next.ResumesRead channel)
    (leaves : LeavesItems runtime next channel) : next.ItemsInOrder channel :=
  inOrder.of_unchanged atOnce (iff_of_false after before) leaves

/-- The same where the stack does not change either. -/
theorem ItemsInOrder.of_same {next : Runtime Item Result Exc}
    (inOrder : runtime.ItemsInOrder channel) (atOnce : next.ResumesAtOnce)
    (stack : next.stack = runtime.stack) (leaves : LeavesItems runtime next channel) :
    next.ItemsInOrder channel := by
  have resumes : next.ResumesRead channel ↔ runtime.ResumesRead channel := by
    rw [ResumesRead, ResumesRead, stack]
  exact inOrder.of_unchanged atOnce resumes leaves

end Resuming

theorem itemsInOrder_step {runtime next : Runtime Item Result Exc}
    {event : Event Item Result Exc} {channel : ℕ} (inOrder : runtime.ItemsInOrder channel)
    (stepped : runtime.step event = some next) : next.ItemsInOrder channel := by
  have atOnce := resumesAtOnce_step inOrder.atOnce stepped
  cases steps_of_step stepped with
  | create owner => exact inOrder.of_same atOnce rfl (.silent rfl rfl)
  | adopt other owner => exact inOrder.of_same atOnce rfl (.silent rfl rfl)
  | enter coro userCode =>
      refine inOrder.of_quiet atOnce (not_resumesRead_of_userCode userCode) ?_ (.silent rfl rfl)
      exact not_resumesRead_of_top rfl (by simp)
  | leave shape =>
      refine inOrder.of_quiet atOnce (not_resumesRead_of_top shape (by simp)) ?_ (.silent rfl rfl)
      exact not_resumesRead_of_below inOrder.atOnce shape
  | @readReady coro below on shape nonempty =>
      have before : ¬runtime.ResumesRead channel := not_resumesRead_of_top shape (by simp)
      by_cases same : on = channel
      · subst on
        refine ⟨inOrder.conserved, atOnce, ?_, ?_⟩
        · intro _
          exact ⟨nonempty, fun waiting => absurd (inOrder.idle before waiting) nonempty⟩
        · intro after
          exact absurd ⟨coro, below, rfl⟩ after
      · refine inOrder.of_quiet atOnce before ?_ (.silent rfl rfl)
        exact not_resumesRead_of_top rfl (by simp [same])
  | @readSuspend coro below on shape empty =>
      have before : ¬runtime.ResumesRead channel := not_resumesRead_of_top shape (by simp)
      by_cases same : on = channel
      · subst on
        refine ⟨?_, atOnce, ?_, ?_⟩
        · simpa [writtenTo, receivedFrom, Channel.awaitSuspend] using inOrder.conserved
        · intro after
          exact absurd after (not_resumesRead_of_below inOrder.atOnce shape)
        · intro _ _
          simpa [Channel.awaitSuspend] using empty
      · apply inOrder.of_quiet atOnce before (not_resumesRead_of_below inOrder.atOnce shape)
        exact .observed (Function.update_of_ne (Ne.symm same) _ _) rfl not_false
  | writeQuiet on item userCode nobody =>
      have before : ¬runtime.ResumesRead channel := not_resumesRead_of_userCode userCode
      by_cases same : on = channel
      · subst on
        refine ⟨?_, atOnce, fun after => absurd after before, ?_⟩
        · have conserved := inOrder.conserved
          simp only [writtenTo, receivedFrom] at conserved
          simp [writtenTo, receivedFrom, conserved]
        · intro _ waiting
          have empty := WaitList.front_eq_none_iff.mp nobody
          simp [waiters, empty] at waiting
      · apply inOrder.of_same atOnce rfl
        exact .observed (Function.update_of_ne (Ne.symm same) _ _) rfl same
  | @writeWake on item coro userCode first =>
      have before : ¬runtime.ResumesRead channel := not_resumesRead_of_userCode userCode
      by_cases same : on = channel
      · subst on
        have waiting : (runtime.waiters (.channel channel)).handles ≠ [] := by
          rw [waiters, WaitList.handles_of_front first]
          simp
        have empty := inOrder.idle before waiting
        refine ⟨?_, atOnce, ?_, ?_⟩
        · have conserved := inOrder.conserved
          simp only [writtenTo, receivedFrom, empty] at conserved
          simp [writtenTo, receivedFrom, conserved, empty]
        · intro _
          simp [empty]
        · intro after
          exact absurd ⟨coro, runtime.stack, rfl⟩ after
      · apply inOrder.of_quiet atOnce before (not_resumesRead_of_top rfl (by simp [same]))
        apply LeavesItems.recorded (Function.update_of_ne (Ne.symm same) _ _) rfl
        simp [Observation.OfItem, same]
  | awaitReady future shape =>
      refine inOrder.of_quiet atOnce (not_resumesRead_of_top shape (by simp)) ?_ (.silent rfl rfl)
      exact not_resumesRead_of_top rfl (by simp)
  | awaitSuspend future shape =>
      refine inOrder.of_quiet atOnce (not_resumesRead_of_top shape (by simp)) ?_ ?_
      · exact not_resumesRead_of_below inOrder.atOnce shape
      · exact .observed rfl rfl not_false
  | resolveAgain future resolution userCode =>
      exact inOrder.of_same atOnce rfl (.observed rfl rfl not_false)
  | resolve future resolution userCode =>
      refine inOrder.of_quiet atOnce (not_resumesRead_of_userCode userCode) ?_ ?_
      · exact not_resumesRead_of_top rfl (by simp)
      · exact .observed rfl rfl not_false
  | @receive coro on below item rest shape alive front =>
      have after : ¬({ runtime with
          channels := Function.update runtime.channels on
            { runtime.channels on with queue := rest }
          stack := .body coro :: below
          trace := runtime.trace ++ [.received coro on item] } :
            Runtime Item Result Exc).ResumesRead channel :=
        not_resumesRead_of_top rfl (by simp)
      by_cases same : on = channel
      · subst on
        have resuming := inOrder.resuming ⟨coro, below, shape⟩
        refine ⟨?_, atOnce, fun later => absurd later after, ?_⟩
        · have conserved := inOrder.conserved
          simp only [writtenTo, receivedFrom, front] at conserved
          simp [writtenTo, receivedFrom, conserved]
        · intro _ waiting
          simp only [waiters, Function.update_self] at waiting ⊢
          have single := resuming.2 waiting
          rw [front, List.length_cons, Nat.add_eq_right] at single
          exact List.eq_nil_of_length_eq_zero single
      · apply inOrder.of_quiet atOnce (not_resumesRead_of_top shape (by simp [same])) after
        exact .observed (Function.update_of_ne (Ne.symm same) _ _) rfl same
  | observe shape =>
      refine inOrder.of_quiet atOnce (not_resumesRead_of_top shape (by simp)) ?_ ?_
      · exact not_resumesRead_of_top rfl (by simp)
      · exact .observed rfl rfl not_false
  | badAccess shape =>
      refine inOrder.of_quiet atOnce (not_resumesRead_of_top shape (by simp)) ?_ ?_
      · exact not_resumesRead_of_top rfl (by simp)
      · exact .observed rfl rfl not_false
  | resumeNext shape first =>
      refine inOrder.of_quiet atOnce (not_resumesRead_of_top shape (by simp)) ?_ ?_
      · exact not_resumesRead_of_top rfl (by simp)
      · exact .observed rfl rfl not_false
  | resumeEnd shape =>
      refine inOrder.of_quiet atOnce (not_resumesRead_of_top shape (by simp)) ?_ (.silent rfl rfl)
      exact not_resumesRead_of_below inOrder.atOnce shape
  | destroy coro =>
      apply inOrder.of_same atOnce rfl
      exact .recorded rfl rfl (List.forall_mem_map.mpr fun _ _ => not_false)

theorem writtenTo_step {runtime next : Runtime Item Result Exc} {event : Event Item Result Exc}
    (channel : ℕ) (stepped : runtime.step event = some next) :
    next.writtenTo channel = runtime.writtenTo channel ++ itemsWritten channel [event] := by
  cases steps_of_step stepped with
  | writeQuiet on item => by_cases same : on = channel <;> simp [writtenTo, itemsWritten, same]
  | writeWake on item => by_cases same : on = channel <;> simp [writtenTo, itemsWritten, same]
  | _ => simp [writtenTo, itemsWritten]

/-- The history of a channel has the items of the calls of `write` that were made. -/
theorem writtenTo_of_run {start final : Runtime Item Result Exc} (channel : ℕ)
    {events : List (Event Item Result Exc)}
    (reached : Transition.run step start events = some final) :
    final.writtenTo channel = start.writtenTo channel ++ itemsWritten channel events := by
  induction events generalizing start with
  | nil =>
      simp only [Transition.run_nil, Option.some.injEq] at reached
      simp [reached, itemsWritten]
  | cons event events ih =>
      rcases Transition.run_cons_eq_some.mp reached with ⟨next, stepped, rest⟩
      rw [ih rest, writtenTo_step channel stepped, List.append_assoc, itemsWritten, itemsWritten,
        itemsWritten, ← List.filterMap_append, List.singleton_append]

/-- What the calls on a channel do wherever the program makes them. -/
structure ItemCalls (runtime : Runtime Item Result Exc) (channel : ℕ) : Prop where
  /-- `write` appends its item. -/
  appends : ∀ item, runtime.UserCodeRuns →
    ∃ next, runtime.step (.write channel item) = some next ∧
      (next.channels channel).queue = (runtime.channels channel).queue ++ [item]
  /-- A read of an empty channel suspends. -/
  suspends : ∀ coro below, runtime.stack = .body coro :: below →
    (runtime.channels channel).queue = [] →
      ∃ next, runtime.step (.read channel) = some next ∧ next.stack = below ∧
        next.suspendedOn (.channel channel) = runtime.suspendedOn (.channel channel) ++ [coro]
  /-- A read of any other goes on with `await_resume` at once. -/
  continues : ∀ coro below, runtime.stack = .body coro :: below →
    (runtime.channels channel).queue ≠ [] →
      runtime.step (.read channel) =
        some { runtime with stack := .awaitResume coro (.channel channel) :: below }
  /-- `await_resume` takes the front of the queue and returns it. -/
  returns : ∀ coro below item rest,
    runtime.stack = .awaitResume coro (.channel channel) :: below → runtime.Alive coro →
      (runtime.channels channel).queue = item :: rest →
        ∃ next, runtime.step .proceed = some next ∧ next.stack = .body coro :: below ∧
          (next.channels channel).queue = rest ∧
          next.receivedFrom channel = runtime.receivedFrom channel ++ [item]

theorem itemCalls (runtime : Runtime Item Result Exc) (channel : ℕ) :
    runtime.ItemCalls channel where
  appends := by
    intro item userCode
    refine ⟨runtime.write channel item, if_pos userCode, ?_⟩
    cases front : (runtime.channels channel).awaitingCoros.front? with
    | none => simp [Runtime.write, Channel.write, Channel.resumeAwaiter, front]
    | some coro => simp [Runtime.write, Channel.write, Channel.resumeAwaiter, front]
  suspends := by
    intro coro below shape empty
    refine ⟨runtime.read channel coro below, by simp [step, shape], ?_, ?_⟩
    · simp [Runtime.read, Channel.awaitReady, empty]
    · simp [Runtime.read, Channel.awaitReady, empty, suspendedOn]
  continues := by
    intro coro below shape nonempty
    simp [step, shape, Runtime.read, Channel.awaitReady, nonempty]
  returns := by
    intro coro below item rest shape alive front
    have accepted : runtime.step .proceed = runtime.finishAwait coro (.channel channel) below := by
      simp [step, shape, alive]
    rw [finishAwait, Channel.awaitResume, front] at accepted
    refine ⟨_, accepted, rfl, ?_, ?_⟩
    · simp
    · simp [receivedFrom]

/-- What a channel promises about its items over a run. -/
structure ItemsServed (channel : ℕ) (events : List (Event Item Result Exc)) : Prop where
  /-- First in, first out, without loss and without duplicates: the reads so far have returned the
  items of the writes so far, up to the ones in the queue. -/
  fifo : ∀ before after runtime, events = before ++ after →
    Transition.run step init before = some runtime →
      itemsWritten channel before =
        runtime.receivedFrom channel ++ (runtime.channels channel).queue
  /-- `await_resume` finds an item. -/
  nonempty : Throughout step (fun runtime => runtime.ResumesRead channel →
    (runtime.channels channel).queue ≠ []) init events
  /-- Where no read is about to take its item, nobody waits while there are items. -/
  idle : Throughout step (fun runtime => ¬runtime.ResumesRead channel →
    (runtime.waiters (.channel channel)).handles ≠ [] →
      (runtime.channels channel).queue = []) init events
  /-- A read that need not wait finds nobody waiting, so that only in a `write` an item is about
  to be taken while others wait. -/
  ready : Along step (fun runtime event => event = .read channel →
    (runtime.channels channel).queue ≠ [] → (runtime.step event).isSome →
      (runtime.waiters (.channel channel)).handles = []) init events
  /-- Every call is accepted, and does its work. -/
  calls : Throughout step (fun runtime => runtime.ItemCalls channel) init events

theorem itemsServed (channel : ℕ) (events : List (Event Item Result Exc)) :
    ItemsServed channel events := by
  have inOrder : Throughout step (fun runtime => runtime.ItemsInOrder channel) init events := by
    apply Transition.throughout_of_preserved
    · intro runtime event next holds stepped
      exact itemsInOrder_step holds stepped
    · exact itemsInOrder_init channel
  constructor
  · intro before after runtime split reached
    rw [← (inOrder before after runtime split reached).conserved, writtenTo_of_run channel reached]
    rfl
  · exact inOrder.mono fun runtime holds resumes => (holds.resuming resumes).1
  · exact inOrder.mono fun runtime holds => holds.idle
  · rintro before event after runtime split reached rfl nonempty accepted
    have here := inOrder before (.read channel :: after) runtime split reached
    rcases Option.isSome_iff_exists.mp accepted with ⟨next, stepped⟩
    by_contra waiting
    cases steps_of_step stepped with
    | readReady _ shape =>
        exact nonempty (here.idle (not_resumesRead_of_top shape (by simp)) waiting)
    | readSuspend _ _ empty => exact nonempty empty
  · exact fun _ _ runtime _ _ => itemCalls runtime channel

end Runtime

end EventAsync
