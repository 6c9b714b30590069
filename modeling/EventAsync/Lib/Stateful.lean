import Mathlib.Tactic

/-!
# Computations that keep their state when they fail

`EStateM` runs a computation on a state and ends with a value or an error, and
in both cases with a state.  This file has the rules by which such computations
are taken apart at `>>=`, and the relations between the first and the last
state that carry over from the parts of a computation to the whole.
-/

namespace Stateful

universe u v

variable {Error State Value Output : Type u}

theorem bind_of_ok {action : EStateM Error State Value}
    {next : Value → EStateM Error State Output} {before after : State} {value : Value}
    (ends : action before = .ok value after) : (action >>= next) before = next value after := by
  simp [bind, EStateM.bind, ends]

theorem bind_of_error {action : EStateM Error State Value}
    {next : Value → EStateM Error State Output} {before after : State} {error : Error}
    (ends : action before = .error error after) :
    (action >>= next) before = .error error after := by
  simp [bind, EStateM.bind, ends]

theorem map_of_ok {convert : Value → Output} {action : EStateM Error State Value}
    {before after : State} {value : Value} (ends : action before = .ok value after) :
    (convert <$> action) before = .ok (convert value) after := by
  simp [Functor.map, EStateM.map, ends]

theorem map_of_error {convert : Value → Output} {action : EStateM Error State Value}
    {before after : State} {error : Error} (ends : action before = .error error after) :
    (convert <$> action) before = .error error after := by
  simp [Functor.map, EStateM.map, ends]

theorem bind_eq_ok_iff {action : EStateM Error State Value}
    {next : Value → EStateM Error State Output} {before after : State} {output : Output} :
    (action >>= next) before = .ok output after ↔
      ∃ value middle, action before = .ok value middle ∧ next value middle = .ok output after := by
  simp only [bind, EStateM.bind]
  cases action before with
  | ok value middle => simp
  | error error middle => simp

theorem discard_eq_bind (action : EStateM Error State Value) :
    discard action = action >>= fun _ => pure ⟨⟩ := by
  funext before
  cases ends : action before with
  | ok value after =>
      rw [bind_of_ok ends]
      simp [discard, Functor.mapConst, EStateM.map, ends, pure, EStateM.pure]
  | error error after =>
      rw [bind_of_error ends]
      simp [discard, Functor.mapConst, EStateM.map, ends]

theorem discard_bind (action : EStateM Error State Value)
    (next : Value → EStateM Error State Output) :
    discard (action >>= next) = action >>= fun value => discard (next value) := by
  simp only [discard_eq_bind, bind_assoc]

/-- Runs a computation on a part of the state. -/
def zoom {Part : Type u} (view : State → Part) (put : Part → State → State)
    (action : EStateM Error Part Value) : EStateM Error State Value := fun state =>
  match action (view state) with
  | .ok value part => .ok value (put part state)
  | .error error part => .error error (put part state)

theorem zoom_of_ok {Part : Type u} {view : State → Part} {put : Part → State → State}
    {action : EStateM Error Part Value} {state : State} {value : Value} {part : Part}
    (ends : action (view state) = .ok value part) :
    zoom view put action state = .ok value (put part state) := by
  simp [zoom, ends]

theorem zoom_of_error {Part : Type u} {view : State → Part} {put : Part → State → State}
    {action : EStateM Error Part Value} {state : State} {error : Error} {part : Part}
    (ends : action (view state) = .error error part) :
    zoom view put action state = .error error (put part state) := by
  simp [zoom, ends]

theorem map_zoom {Part Other : Type u} (view : State → Part) (put : Part → State → State)
    (convert : Value → Other) (action : EStateM Error Part Value) :
    convert <$> zoom view put action = zoom view put (convert <$> action) := by
  funext state
  simp only [Functor.map, EStateM.map, zoom]
  cases action (view state) with
  | ok value part => rfl
  | error error part => rfl

/-- The end of a computation with a given result in a given state. -/
def ended : Except Error Value → State → EStateM.Result Error State Value
  | .ok value, state => .ok value state
  | .error error, state => .error error state

theorem zoom_of_ended {Part : Type u} {view : State → Part} {put : Part → State → State}
    {action : EStateM Error Part Value} {state : State} {result : Except Error Value} {part : Part}
    (ends : action (view state) = ended result part) :
    zoom view put action state = ended result (put part state) := by
  cases result with
  | ok value => exact zoom_of_ok ends
  | error error => exact zoom_of_error ends

/-- The state a computation ends in. -/
def endState : EStateM.Result Error State Value → State
  | .ok _ state => state
  | .error _ state => state

/-- The state after a computation is not changed by what only inspects its value. -/
theorem endState_bind_of_unchanged {action : EStateM Error State Value}
    {next : Value → EStateM Error State Output}
    (unchanged : ∀ value state, endState (next value state) = state) (before : State) :
    endState ((action >>= next) before) = endState (action before) := by
  cases ends : action before with
  | ok value after =>
      rw [bind_of_ok ends]
      exact unchanged value after
  | error error after =>
      rw [bind_of_error ends]
      rfl

/-- Every execution relates its first state to its last one and fails only as allowed. -/
def Respects (relation : State → State → Prop) (allowed : Error → Prop)
    (action : EStateM Error State Value) : Prop :=
  ∀ state, match action state with
    | .ok _ after => relation state after
    | .error error after => relation state after ∧ allowed error

namespace Respects

variable {relation : State → State → Prop} {allowed : Error → Prop}

theorem of_endState {action : EStateM Error State Value}
    (holds : ∀ state, relation state (endState (action state))) :
    Respects relation (fun _ => True) action := by
  intro state
  have related := holds state
  cases ends : action state with
  | ok value after =>
      rw [ends] at related
      exact related
  | error error after =>
      rw [ends] at related
      exact ⟨related, trivial⟩

theorem endState {action : EStateM Error State Value} (respects : Respects relation allowed action)
    (state : State) : relation state (Stateful.endState (action state)) := by
  have holds := respects state
  cases ends : action state with
  | ok value after =>
      rw [ends] at holds
      exact holds
  | error error after =>
      rw [ends] at holds
      exact holds.1

theorem of_ok {action : EStateM Error State Value} (respects : Respects relation allowed action)
    {before after : State} {value : Value} (ends : action before = .ok value after) :
    relation before after := by
  have holds := respects before
  rwa [ends] at holds

theorem of_error {action : EStateM Error State Value} (respects : Respects relation allowed action)
    {before after : State} {error : Error} (ends : action before = .error error after) :
    relation before after ∧ allowed error := by
  have holds := respects before
  rwa [ends] at holds

theorem mono {action : EStateM Error State Value} (respects : Respects relation allowed action)
    {weaker : State → State → Prop} {permitted : Error → Prop}
    (related : ∀ before after, relation before after → weaker before after)
    (permits : ∀ error, allowed error → permitted error) : Respects weaker permitted action := by
  intro state
  have holds := respects state
  cases ends : action state with
  | ok value after =>
      rw [ends] at holds
      exact related state after holds
  | error error after =>
      rw [ends] at holds
      exact ⟨related state after holds.1, permits error holds.2⟩

/-- A computation on a part of the state, of which changes do not matter. -/
theorem zoom {Part : Type u} {view : State → Part} {put : Part → State → State}
    (ignored : ∀ part state, relation state (put part state)) (action : EStateM Error Part Value) :
    Respects relation (fun _ => True) (Stateful.zoom view put action) := by
  intro state
  simp only [Stateful.zoom]
  cases action (view state) with
  | ok value part => exact ignored part state
  | error error part => exact ⟨ignored part state, trivial⟩

theorem pure (reflexive : ∀ state, relation state state) (value : Value) :
    Respects relation allowed (Pure.pure value : EStateM Error State Value) :=
  fun state => reflexive state

theorem throw (reflexive : ∀ state, relation state state) {error : Error}
    (permitted : allowed error) :
    Respects relation allowed (throw error : EStateM Error State Value) :=
  fun state => ⟨reflexive state, permitted⟩

/-- A check that fails, followed by the rest of the computation. -/
theorem check (reflexive : ∀ state, relation state state) {condition : Prop}
    [Decidable condition] {error : Error} (permitted : allowed error)
    {next : PUnit → EStateM Error State Output} (passed : Respects relation allowed (next ⟨⟩)) :
    Respects relation allowed
      (if condition then (MonadExcept.throw error : EStateM Error State PUnit) >>= next
        else next ⟨⟩) := by
  split
  · exact fun state => ⟨reflexive state, permitted⟩
  · exact passed

theorem bind (transitive : ∀ first second third, relation first second → relation second third →
      relation first third)
    {action : EStateM Error State Value} {next : Value → EStateM Error State Output}
    (first : Respects relation allowed action)
    (second : ∀ value, Respects relation allowed (next value)) :
    Respects relation allowed (action >>= next) := by
  intro state
  cases ends : action state with
  | ok value middle =>
      rw [bind_of_ok ends]
      have firstHolds := first.of_ok ends
      cases nextEnds : next value middle with
      | ok output after => exact transitive _ _ _ firstHolds ((second value).of_ok nextEnds)
      | error error after =>
          have secondHolds := (second value).of_error nextEnds
          exact ⟨transitive _ _ _ firstHolds secondHolds.1, secondHolds.2⟩
  | error error middle =>
      rw [bind_of_error ends]
      exact first.of_error ends

end Respects

/-- Every value that the computation returns has a property. -/
def Returns (post : Value → Prop) (action : EStateM Error State Value) : Prop :=
  ∀ state value after, action state = .ok value after → post value

namespace Returns

variable {post : Value → Prop}

theorem pure {value : Value} (holds : post value) :
    Returns post (Pure.pure value : EStateM Error State Value) := by
  intro state returned after ends
  cases ends
  exact holds

theorem throw (error : Error) : Returns post (throw error : EStateM Error State Value) := by
  intro state returned after ends
  cases ends

theorem throw_bind {Middle : Type u} (error : Error)
    (next : Middle → EStateM Error State Value) :
    Returns post ((MonadExcept.throw error : EStateM Error State Middle) >>= next) := by
  intro state returned after ends
  cases ends

theorem bind {Middle : Type u} {middle : Middle → Prop} {action : EStateM Error State Middle}
    {next : Middle → EStateM Error State Value} (first : Returns middle action)
    (second : ∀ value, middle value → Returns post (next value)) :
    Returns post (action >>= next) := by
  intro state returned after ends
  rcases bind_eq_ok_iff.mp ends with ⟨value, between, firstEnds, nextEnds⟩
  exact second value (first state value between firstEnds) between returned after nextEnds

theorem bind_any {Middle : Type u} {action : EStateM Error State Middle}
    {next : Middle → EStateM Error State Value} (second : ∀ value, Returns post (next value)) :
    Returns post (action >>= next) := by
  intro state returned after ends
  rcases bind_eq_ok_iff.mp ends with ⟨value, between, _, nextEnds⟩
  exact second value between returned after nextEnds

theorem mapM_length {Item : Type v} {next : Item → EStateM Error State Value} (items : List Item) :
    Returns (fun values : List Value => values.length = items.length) (items.mapM next) := by
  induction items with
  | nil =>
      rw [List.mapM_nil]
      exact pure rfl
  | cons item items ih =>
      rw [List.mapM_cons]
      refine bind_any fun value => bind ih fun values length => ?_
      apply pure
      rw [List.length_cons, List.length_cons, length]

theorem zoom {Part : Type u} {view : State → Part} {put : Part → State → State}
    {action : EStateM Error Part Value} (returns : Returns post action) :
    Returns post (Stateful.zoom view put action) := by
  intro state returned after ends
  cases partEnds : action (view state) with
  | ok value part =>
      rw [zoom_of_ok partEnds] at ends
      cases ends
      exact returns _ _ _ partEnds
  | error error part =>
      rw [zoom_of_error partEnds] at ends
      cases ends

end Returns

end Stateful
