import Mathlib.Tactic

/-!
# Runs of a partial step function

A system is given by a step function that either refuses an event or moves to a
new state.  A run is a list of events, all of which are accepted.  This file
states what it means for a condition to hold at every step of a run and at
every state a run visits, and packages the two inductions that derive such
facts from what a single step preserves.
-/

namespace Transition

universe u v

variable {State : Type u} {Event : Type v}

/-- The state reached by taking the events in order, when each one is accepted. -/
def run (step : State → Event → Option State) : State → List Event → Option State
  | state, [] => some state
  | state, event :: events => (step state event).bind fun next => run step next events

variable {step : State → Event → Option State}

@[simp]
theorem run_nil (state : State) : run step state [] = some state := rfl

theorem run_cons (state : State) (event : Event) (events : List Event) :
    run step state (event :: events) =
      (step state event).bind fun next => run step next events := rfl

theorem run_cons_eq_some {state final : State} {event : Event} {events : List Event} :
    run step state (event :: events) = some final ↔
      ∃ next, step state event = some next ∧ run step next events = some final := by
  rw [run_cons, Option.bind_eq_some_iff]

theorem run_append_eq_some {state final : State} {before after : List Event} :
    run step state (before ++ after) = some final ↔
      ∃ middle, run step state before = some middle ∧ run step middle after = some final := by
  induction before generalizing state with
  | nil => simp
  | cons event events ih =>
      simp only [List.cons_append, run_cons_eq_some, ih]
      constructor
      · rintro ⟨next, stepped, middle, reached, rest⟩
        exact ⟨middle, ⟨next, stepped, reached⟩, rest⟩
      · rintro ⟨middle, ⟨next, stepped, reached⟩, rest⟩
        exact ⟨next, stepped, middle, reached, rest⟩

/-- `guard` allows every step of the run, each in the state it is taken from. -/
def Along (step : State → Event → Option State) (guard : State → Event → Prop)
    (start : State) (events : List Event) : Prop :=
  ∀ before event after state, events = before ++ event :: after →
    run step start before = some state → guard state event

/-- `holds` is true of every state the run visits, the first and the last one included. -/
def Throughout (step : State → Event → Option State) (holds : State → Prop)
    (start : State) (events : List Event) : Prop :=
  ∀ before after state, events = before ++ after →
    run step start before = some state → holds state

theorem Along.of_append {guard : State → Event → Prop} {start : State}
    {before after : List Event} (along : Along step guard start (before ++ after)) :
    Along step guard start before := by
  intro first event rest state split reached
  exact along first event (rest ++ after) state (by simp [split]) reached

theorem Along.tail {guard : State → Event → Prop} {start next : State} {event : Event}
    {events : List Event} (along : Along step guard start (event :: events))
    (stepped : step start event = some next) : Along step guard next events := by
  intro first later rest state split reached
  refine along (event :: first) later rest state (by simp [split]) ?_
  exact run_cons_eq_some.mpr ⟨next, stepped, reached⟩

theorem Along.after {guard : State → Event → Prop} {start middle : State}
    {before after : List Event} (along : Along step guard start (before ++ after))
    (reached : run step start before = some middle) : Along step guard middle after := by
  intro first event rest state split later
  refine along (before ++ first) event rest state (by simp [split]) ?_
  exact run_append_eq_some.mpr ⟨middle, reached, later⟩

theorem along_nil (guard : State → Event → Prop) (start : State) : Along step guard start [] := by
  intro before event after state split
  simp at split

/-- A condition on events alone holds at every step if it holds of every event. -/
theorem along_of_mem {allowed : Event → Prop} {start : State} {events : List Event}
    (holds : ∀ event ∈ events, allowed event) :
    Along step (fun _ event => allowed event) start events := by
  intro before event after state split _
  apply holds
  rw [split]
  exact List.mem_append_right before List.mem_cons_self

theorem along_cons {guard : State → Event → Prop} {start : State} {event : Event}
    {events : List Event} (allowed : guard start event)
    (later : ∀ next, step start event = some next → Along step guard next events) :
    Along step guard start (event :: events) := by
  intro before current after state split reached
  cases before with
  | nil =>
      simp only [List.nil_append, List.cons.injEq] at split
      rw [run_nil, Option.some.injEq] at reached
      rw [← reached, ← split.1]
      exact allowed
  | cons first before =>
      simp only [List.cons_append, List.cons.injEq] at split
      rcases run_cons_eq_some.mp reached with ⟨next, stepped, rest⟩
      rw [← split.1] at stepped
      exact later next stepped before current after state split.2 rest

theorem along_cons_iff {guard : State → Event → Prop} {start next : State} {event : Event}
    {events : List Event} (stepped : step start event = some next) :
    Along step guard start (event :: events) ↔
      guard start event ∧ Along step guard next events := by
  constructor
  · intro along
    exact ⟨along [] event events start rfl rfl, along.tail stepped⟩
  · rintro ⟨allowed, later⟩
    refine along_cons allowed ?_
    intro other otherwise
    rw [stepped] at otherwise
    cases otherwise
    exact later

/-- Whether every step of the run passes a check. -/
def checkAlong (step : State → Event → Option State) (check : State → Event → Bool) :
    State → List Event → Bool
  | _, [] => true
  | state, event :: events =>
      check state event &&
        (step state event).all fun next => checkAlong step check next events

theorem along_of_checkAlong {guard : State → Event → Prop} {check : State → Event → Bool}
    (sound : ∀ state event, check state event = true → guard state event) {start : State}
    {events : List Event} (passes : checkAlong step check start events = true) :
    Along step guard start events := by
  induction events generalizing start with
  | nil => exact along_nil guard start
  | cons event events ih =>
      simp only [checkAlong, Bool.and_eq_true, Option.all_eq_true] at passes
      apply along_cons (sound start event passes.1)
      intro next stepped
      exact ih (passes.2 next stepped)

theorem throughout_nil {holds : State → Prop} {start : State} (initial : holds start) :
    Throughout step holds start [] := by
  intro before after state split reached
  rcases List.append_eq_nil_iff.mp split.symm with ⟨rfl, _⟩
  rw [run_nil, Option.some.injEq] at reached
  exact reached ▸ initial

theorem throughout_cons {holds : State → Prop} {start : State} {event : Event}
    {events : List Event} (initial : holds start)
    (later : ∀ next, step start event = some next → Throughout step holds next events) :
    Throughout step holds start (event :: events) := by
  intro before after state split reached
  cases before with
  | nil =>
      rw [run_nil, Option.some.injEq] at reached
      exact reached ▸ initial
  | cons first before =>
      simp only [List.cons_append, List.cons.injEq] at split
      rcases run_cons_eq_some.mp reached with ⟨next, stepped, rest⟩
      rw [← split.1] at stepped
      exact later next stepped before after state split.2 rest

/-- A property of the first state that every allowed step preserves holds in the last state. -/
theorem invariant_of_along {guard : State → Event → Prop} {holds : State → Prop}
    (preserved : ∀ state event next, holds state → guard state event →
      step state event = some next → holds next)
    {start final : State} {events : List Event} (initial : holds start)
    (along : Along step guard start events) (reached : run step start events = some final) :
    holds final := by
  induction events generalizing start with
  | nil =>
      simp only [run_nil, Option.some.injEq] at reached
      exact reached ▸ initial
  | cons event events ih =>
      rcases run_cons_eq_some.mp reached with ⟨next, stepped, rest⟩
      have allowed : guard start event := along [] event events start rfl rfl
      exact ih (preserved start event next initial allowed stepped)
        (along.tail stepped) rest

/-- The same over every state visited. -/
theorem throughout_of_along {guard : State → Event → Prop} {holds : State → Prop}
    (preserved : ∀ state event next, holds state → guard state event →
      step state event = some next → holds next)
    {start : State} {events : List Event} (initial : holds start)
    (along : Along step guard start events) : Throughout step holds start events := by
  intro before after state split reached
  subst split
  exact invariant_of_along preserved initial along.of_append reached

/-- A property that every step preserves holds in every state visited. -/
theorem throughout_of_preserved {holds : State → Prop}
    (preserved : ∀ state event next, holds state → step state event = some next → holds next)
    {start : State} (initial : holds start) (events : List Event) :
    Throughout step holds start events := by
  have unguarded : Along step (fun _ _ => True) start events := fun _ _ _ _ _ _ => trivial
  apply throughout_of_along _ initial unguarded
  intro state event next held _ stepped
  exact preserved state event next held stepped

/-- What holds in every state visited holds after every step. -/
theorem Throughout.along_next {holds : State → Prop} {start : State} {events : List Event}
    (throughout : Throughout step holds start events) :
    Along step (fun state event => ∀ next, step state event = some next → holds next)
      start events := by
  intro before event after state split reached next stepped
  apply throughout (before ++ [event]) after next (by simp [split])
  exact run_append_eq_some.mpr ⟨state, reached, run_cons_eq_some.mpr ⟨next, stepped, rfl⟩⟩

theorem Throughout.mono {first second : State → Prop} {start : State} {events : List Event}
    (throughout : Throughout step first start events)
    (weaker : ∀ state, first state → second state) : Throughout step second start events :=
  fun before after state split reached =>
    weaker state (throughout before after state split reached)

/-- Two conditions on steps are the same along an accepted run if they are the same for accepted
steps from the states that it visits. -/
theorem along_iff_of_accepted {first second : State → Event → Prop} (holds : State → Prop)
    (preserved : ∀ state event next, holds state → step state event = some next → holds next)
    (same : ∀ state event next, holds state → step state event = some next →
      (first state event ↔ second state event))
    {start final : State} {events : List Event} (initial : holds start)
    (accepted : run step start events = some final) :
    Along step first start events ↔ Along step second start events := by
  induction events generalizing start with
  | nil => exact iff_of_true (along_nil first start) (along_nil second start)
  | cons event events ih =>
      rcases run_cons_eq_some.mp accepted with ⟨next, stepped, rest⟩
      rw [along_cons_iff stepped, along_cons_iff stepped]
      exact and_congr (same start event next initial stepped)
        (ih (preserved start event next initial stepped) rest)

/-- If a second system takes every step of the first one from related states, it has a run over the
same events. -/
theorem exists_run_of_simulated {View : Type u} {follow : View → Event → Option View}
    {related : State → View → Prop} {allowed : Event → Prop}
    (simulated : ∀ state view event next, related state view → allowed event →
      step state event = some next → ∃ after, follow view event = some after ∧ related next after)
    {start final : State} {view : View} {events : List Event} (initial : related start view)
    (allAllowed : ∀ event ∈ events, allowed event) (reached : run step start events = some final) :
    ∃ last, run follow view events = some last ∧ related final last := by
  induction events generalizing start view with
  | nil =>
      cases reached
      exact ⟨view, rfl, initial⟩
  | cons event events ih =>
      rcases run_cons_eq_some.mp reached with ⟨next, stepped, rest⟩
      rcases simulated start view event next initial (allAllowed event List.mem_cons_self) stepped
        with ⟨after, followed, stillRelated⟩
      have later := fun other mem => allAllowed other (List.mem_cons_of_mem event mem)
      rcases ih stillRelated later rest with ⟨last, ran, lastRelated⟩
      exact ⟨last, run_cons_eq_some.mpr ⟨after, followed, ran⟩, lastRelated⟩

end Transition
