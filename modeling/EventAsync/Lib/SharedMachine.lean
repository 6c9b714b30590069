import EventAsync.Lib.Machine
import EventAsync.Lib.Transition

/-!
# Machines with several users

Several users call one machine.  A call is invoked, takes effect on the machine at
one moment and finishes later, and the calls of different users overlap in any
way.  What the users see is what they would see if the calls were made one after
another: in the order of their effects, every call has the output that the machine
gives to it, and a call that has finished before another is invoked stands before
the other.
-/

namespace SharedMachine

universe u v w

variable {User : Type v} {State : Type u} {Input : Type v} {Output : Type w}

/-- What a user waits for. -/
inductive Phase (Input : Type v) (Output : Type w) where
  | idle
  | invoked (input : Input)
  | answered (output : Output)

inductive Event (User : Type v) (Input : Type v) (Output : Type w) where
  | invoke (user : User) (input : Input)
  | effect (user : User)
  | finish (user : User) (output : Output)

/-- A machine and what its users wait for. -/
structure Shared (User : Type v) (State : Type u) (Input : Type v) (Output : Type w) where
  state : State
  phase : User → Phase Input Output

/-- No user has made a call. -/
def start (state : State) : Shared User State Input Output where
  state := state
  phase := fun _ => .idle

/-- A call in the order of the effects. -/
structure Entry (User : Type v) (Input : Type v) (Output : Type w) where
  user : User
  input : Input
  output : Output

variable [DecidableEq User]

def step [DecidableEq Output] (machine : State → Input → Option (Output × State))
    (shared : Shared User State Input Output) :
    Event User Input Output → Option (Shared User State Input Output)
  | .invoke user input =>
      match shared.phase user with
      | .idle => some { shared with phase := Function.update shared.phase user (.invoked input) }
      | _ => none
  | .effect user =>
      match shared.phase user with
      | .invoked input =>
          (machine shared.state input).map fun (output, next) =>
            { state := next, phase := Function.update shared.phase user (.answered output) }
      | _ => none
  | .finish user output =>
      match shared.phase user with
      | .answered answer =>
          if answer = output then
            some { shared with phase := Function.update shared.phase user .idle }
          else none
      | _ => none

/-- The inputs of the calls that a user has invoked. -/
def invoked (user : User) (events : List (Event User Input Output)) : List Input :=
  events.filterMap fun
    | .invoke other input => if other = user then some input else none
    | _ => none

/-- The outputs of the calls of a user that have finished. -/
def finished (user : User) (events : List (Event User Input Output)) : List Output :=
  events.filterMap fun
    | .finish other output => if other = user then some output else none
    | _ => none

/-- The users of the calls that took effect, in the order of their effects. -/
def effective (events : List (Event User Input Output)) : List User :=
  events.filterMap fun
    | .effect user => some user
    | _ => none

/-- The calls of one user. -/
def own (user : User) (order : List (Entry User Input Output)) : List (Entry User Input Output) :=
  order.filter fun entry => entry.user = user

/-- The order explains what the users have seen. -/
structure Linearizes (machine : State → Input → Option (Output × State)) (state final : State)
    (events : List (Event User Input Output)) (order : List (Entry User Input Output)) : Prop where
  runs : Machine.run machine state (order.map Entry.input) = some (order.map Entry.output, final)
  effects : order.map Entry.user = effective events
  inputs : ∀ user, (own user order).map Entry.input <+: invoked user events
  outputs : ∀ user, finished user events <+: (own user order).map Entry.output
  realTime : ∀ before after, events = before ++ after → ∃ earlier later, order = earlier ++ later ∧
    ∀ user, (finished user before).length ≤ (own user earlier).length ∧
      (own user earlier).length ≤ (invoked user before).length

section Histories

variable {user : User} {input : Input} {events : List (Event User Input Output)}

@[simp]
theorem invoked_append (user : User) (before after : List (Event User Input Output)) :
    invoked user (before ++ after) = invoked user before ++ invoked user after :=
  List.filterMap_append ..

@[simp]
theorem finished_append (user : User) (before after : List (Event User Input Output)) :
    finished user (before ++ after) = finished user before ++ finished user after :=
  List.filterMap_append ..

@[simp]
theorem invoked_invoke (user other : User) (input : Input) :
    invoked user [(.invoke other input : Event User Input Output)] =
      if other = user then [input] else [] := by
  by_cases same : other = user <;> simp [invoked, same]

@[simp]
theorem invoked_effect (user other : User) :
    invoked user [(.effect other : Event User Input Output)] = [] := rfl

@[simp]
theorem invoked_finish (user other : User) (output : Output) :
    invoked user [(.finish other output : Event User Input Output)] = [] := rfl

@[simp]
theorem finished_invoke (user other : User) (input : Input) :
    finished user [(.invoke other input : Event User Input Output)] = [] := rfl

@[simp]
theorem finished_effect (user other : User) :
    finished user [(.effect other : Event User Input Output)] = [] := rfl

@[simp]
theorem finished_finish (user other : User) (output : Output) :
    finished user [(.finish other output : Event User Input Output)] =
      if other = user then [output] else [] := by
  by_cases same : other = user <;> simp [finished, same]

theorem mem_invoked : input ∈ invoked user events ↔ .invoke user input ∈ events := by
  rw [invoked, List.mem_filterMap]
  constructor
  · rintro ⟨event, mem, same⟩
    cases event with
    | invoke other call =>
        rcases Option.ite_none_right_eq_some.mp same with ⟨rfl, isCall⟩
        cases isCall
        exact mem
    | effect other => cases same
    | finish other output => cases same
  · intro mem
    exact ⟨_, mem, if_pos rfl⟩

@[simp]
theorem own_append (user : User) (first second : List (Entry User Input Output)) :
    own user (first ++ second) = own user first ++ own user second :=
  List.filter_append ..

@[simp]
theorem own_singleton (user : User) (entry : Entry User Input Output) :
    own user [entry] = if entry.user = user then [entry] else [] := by
  by_cases same : entry.user = user <;> simp [own, same]

end Histories

/-- How far the calls of a user have come. -/
def Phase.Fits : Phase Input Output → (begun effective : List Input) →
    (answers seen : List Output) → Prop
  | .idle, begun, effective, answers, seen => begun = effective ∧ answers = seen
  | .invoked input, begun, effective, answers, seen =>
      begun = effective ++ [input] ∧ answers = seen
  | .answered output, begun, effective, answers, seen =>
      begun = effective ∧ answers = seen ++ [output]

section Runs

variable {machine : State → Input → Option (Output × State)} {state : State}
  {shared next : Shared User State Input Output} {events : List (Event User Input Output)}
  {order : List (Entry User Input Output)}

/-- The calls of every user in the order have come as far as its phase says. -/
def PhasesFit (shared : Shared User State Input Output) (events : List (Event User Input Output))
    (order : List (Entry User Input Output)) : Prop :=
  ∀ user, (shared.phase user).Fits (invoked user events) ((own user order).map Entry.input)
    ((own user order).map Entry.output) (finished user events)

theorem PhasesFit.inputs (fit : PhasesFit shared events order) (user : User) :
    (own user order).map Entry.input <+: invoked user events := by
  have fits := fit user
  cases phase : shared.phase user with
  | idle =>
      rw [phase] at fits
      exact ⟨[], (List.append_nil _).trans fits.1.symm⟩
  | invoked input =>
      rw [phase] at fits
      exact ⟨[input], fits.1.symm⟩
  | answered output =>
      rw [phase] at fits
      exact ⟨[], (List.append_nil _).trans fits.1.symm⟩

theorem PhasesFit.outputs (fit : PhasesFit shared events order) (user : User) :
    finished user events <+: (own user order).map Entry.output := by
  have fits := fit user
  cases phase : shared.phase user with
  | idle =>
      rw [phase] at fits
      exact ⟨[], (List.append_nil _).trans fits.2.symm⟩
  | invoked input =>
      rw [phase] at fits
      exact ⟨[], (List.append_nil _).trans fits.2.symm⟩
  | answered output =>
      rw [phase] at fits
      exact ⟨[output], fits.2.symm⟩

theorem PhasesFit.bounds (fit : PhasesFit shared events order) (user : User) :
    (finished user events).length ≤ (own user order).length ∧
      (own user order).length ≤ (invoked user events).length := by
  have inputs := (fit.inputs user).length_le
  have outputs := (fit.outputs user).length_le
  rw [List.length_map] at inputs outputs
  exact ⟨outputs, inputs⟩

/-- A user whose calls, effects and answers stay as they are keeps its phase. -/
theorem PhasesFit.update (fit : PhasesFit shared events order) {user : User}
    {phase : Phase Input Output} {event : Event User Input Output}
    {more : List (Entry User Input Output)} {state : State}
    (others : ∀ other, other ≠ user → invoked other [event] = [] ∧ finished other [event] = [] ∧
      own other more = [])
    (fits : phase.Fits (invoked user (events ++ [event]))
      ((own user (order ++ more)).map Entry.input) ((own user (order ++ more)).map Entry.output)
      (finished user (events ++ [event]))) :
    PhasesFit { state := state, phase := Function.update shared.phase user phase }
      (events ++ [event]) (order ++ more) := by
  intro other
  by_cases same : other = user
  · subst same
    simpa using fits
  · rcases others other same with ⟨noCall, noAnswer, noEntry⟩
    simpa [same, noCall, noAnswer, noEntry] using fit other

/-- The order of the effects so far, as it belongs to a state. -/
structure Tracks (machine : State → Input → Option (Output × State)) (state : State)
    (events : List (Event User Input Output)) (order : List (Entry User Input Output))
    (shared : Shared User State Input Output) : Prop where
  linearizes : Linearizes machine state shared.state events order
  phases : PhasesFit shared events order

theorem tracks_start (machine : State → Input → Option (Output × State)) (state : State) :
    Tracks machine state [] [] (start state : Shared User State Input Output) := by
  have phases : PhasesFit (start state : Shared User State Input Output) [] [] :=
    fun _ => ⟨rfl, rfl⟩
  refine ⟨⟨rfl, rfl, phases.inputs, phases.outputs, ?_⟩, phases⟩
  intro before after split
  rcases List.append_eq_nil_iff.mp split.symm with ⟨rfl, rfl⟩
  exact ⟨[], [], rfl, phases.bounds⟩

/-- The order with the effects of one more event. -/
theorem Tracks.extend (tracks : Tracks machine state events order shared)
    {event : Event User Input Output} {more : List (Entry User Input Output)}
    (runs : Machine.run machine shared.state (more.map Entry.input) =
      some (more.map Entry.output, next.state))
    (effects : more.map Entry.user = effective [event])
    (phases : PhasesFit next (events ++ [event]) (order ++ more)) :
    Tracks machine state (events ++ [event]) (order ++ more) next := by
  refine ⟨⟨?_, ?_, phases.inputs, phases.outputs, ?_⟩, phases⟩
  · rw [List.map_append, List.map_append]
    exact Machine.run_append_eq_some.mpr
      ⟨_, _, _, tracks.linearizes.runs, runs, rfl⟩
  · rw [List.map_append, tracks.linearizes.effects, effects, effective, effective, effective,
      List.filterMap_append]
  · intro before after split
    rcases List.eq_nil_or_concat after with rfl | ⟨rest, last, rfl⟩
    · rw [List.append_nil] at split
      subst split
      exact ⟨order ++ more, [], (List.append_nil _).symm, phases.bounds⟩
    · rw [List.concat_eq_append, ← List.append_assoc] at split
      rcases List.append_inj' split rfl with ⟨within, _⟩
      rcases tracks.linearizes.realTime before rest within with ⟨earlier, later, rfl, bounds⟩
      exact ⟨earlier, later ++ more, List.append_assoc .., bounds⟩

end Runs

section Steps

variable [DecidableEq Output] {machine : State → Input → Option (Output × State)} {state : State}
  {shared next : Shared User State Input Output} {events : List (Event User Input Output)}
  {order : List (Entry User Input Output)}

theorem Tracks.step (tracks : Tracks machine state events order shared)
    {event : Event User Input Output} (stepped : step machine shared event = some next) :
    ∃ more, Tracks machine state (events ++ [event]) (order ++ more) next := by
  cases event with
  | invoke user input =>
      rw [SharedMachine.step] at stepped
      split at stepped
      case h_1 idle =>
        cases stepped
        have fits := tracks.phases user
        rw [idle] at fits
        refine ⟨[], tracks.extend rfl rfl (tracks.phases.update ?_ ?_)⟩
        · intro other different
          simp [different.symm, own]
        · simpa [Phase.Fits, own] using fits
      case h_2 => cases stepped
  | effect user =>
      rw [SharedMachine.step] at stepped
      split at stepped
      case h_1 input waits =>
        rcases Option.map_eq_some_iff.mp stepped with ⟨⟨output, after⟩, answered, rfl⟩
        have fits := tracks.phases user
        rw [waits] at fits
        have runs : Machine.run machine shared.state [input] = some ([output], after) :=
          Machine.run_cons_eq_some.mpr ⟨output, after, [], answered, rfl, rfl⟩
        refine ⟨[⟨user, input, output⟩], tracks.extend runs rfl (tracks.phases.update ?_ ?_)⟩
        · intro other different
          simp [different.symm]
        · simpa [Phase.Fits] using fits
      case h_2 => cases stepped
  | finish user output =>
      rw [SharedMachine.step] at stepped
      split at stepped
      case h_1 answer waits =>
        split at stepped
        case isTrue same =>
          subst same
          cases stepped
          have fits := tracks.phases user
          rw [waits] at fits
          refine ⟨[], tracks.extend rfl rfl (tracks.phases.update ?_ ?_)⟩
          · intro other different
            simp [different.symm, own]
          · simpa [Phase.Fits, own] using fits
        case isFalse => cases stepped
      case h_2 => cases stepped

/-- In every run there is an order of the calls that explains what the users have seen. -/
theorem exists_linearizes (ran : Transition.run (step machine) (start state) events = some shared) :
    ∃ order, Tracks machine state events order shared := by
  induction events using List.reverseRecOn generalizing shared with
  | nil =>
      cases ran
      exact ⟨[], tracks_start machine state⟩
  | append_singleton events event ih =>
      rcases Transition.run_append_eq_some.mp ran with ⟨middle, earlier, last⟩
      rcases Transition.run_cons_eq_some.mp last with ⟨next, stepped, ended⟩
      cases ended
      rcases ih earlier with ⟨order, tracks⟩
      rcases tracks.step stepped with ⟨more, after⟩
      exact ⟨order ++ more, after⟩

end Steps

section Orders

variable {machine : State → Input → Option (Output × State)} {state final : State}
  {events : List (Event User Input Output)} {order : List (Entry User Input Output)} {user : User}

/-- Every call in the order has taken effect, and every effect is one of a call in the order. -/
theorem Linearizes.length_eq (linearizes : Linearizes machine state final events order) :
    order.length = (effective events).length := by
  rw [← linearizes.effects, List.length_map]

/-- What a user has seen are outputs of its own calls in the order. -/
theorem Linearizes.exists_entry (linearizes : Linearizes machine state final events order)
    {output : Output} (seen : output ∈ finished user events) :
    ∃ entry ∈ order, entry.user = user ∧ entry.output = output := by
  rcases List.mem_map.mp ((linearizes.outputs user).subset seen) with ⟨entry, mem, same⟩
  rcases List.mem_filter.mp mem with ⟨isEntry, isOwn⟩
  exact ⟨entry, isEntry, of_decide_eq_true isOwn, same⟩

/-- A call in the order has been invoked by its user. -/
theorem Linearizes.invoke_mem (linearizes : Linearizes machine state final events order)
    {entry : Entry User Input Output} (mem : entry ∈ order) :
    .invoke entry.user entry.input ∈ events := by
  have isOwn : entry ∈ own entry.user order := List.mem_filter.mpr ⟨mem, decide_eq_true rfl⟩
  exact mem_invoked.mp ((linearizes.inputs entry.user).subset (List.mem_map_of_mem isOwn))

/-- If no two calls have the same output, no two users see the same, and no user sees it twice. -/
theorem Linearizes.distinct (linearizes : Linearizes machine state final events order)
    (nodup : (order.map Entry.output).Nodup) :
    (∀ user, (finished user events).Nodup) ∧
      ∀ user other, user ≠ other →
        List.Disjoint (finished user events) (finished other events) := by
  constructor
  · intro user
    apply List.Nodup.sublist (linearizes.outputs user).sublist
    exact nodup.sublist (List.filter_sublist.map _)
  · intro user other different output seen seenByOther
    rcases linearizes.exists_entry seen with ⟨entry, mem, rfl, same⟩
    rcases linearizes.exists_entry seenByOther with ⟨twin, twinMem, rfl, twinSame⟩
    have equal := List.inj_on_of_nodup_map nodup mem twinMem (same.trans twinSame.symm)
    exact different (congrArg Entry.user equal)

end Orders

end SharedMachine
