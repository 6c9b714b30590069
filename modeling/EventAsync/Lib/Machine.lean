import Mathlib.Tactic

/-!
# Machines with outputs

A machine answers an input with an output and moves to a new state, or refuses
the input.  One machine simulates another if it gives the same answers from
related states.  The induction over a run is made here once: if one machine
simulates another on single inputs, the two give the same outputs to every
sequence of inputs.
-/

namespace Machine

universe u v w

variable {State Concrete Abstract : Type u} {Input : Type v} {Output : Type w}

/-- The outputs to a sequence of inputs, if none is refused, and the last state. -/
def run (machine : State → Input → Option (Output × State)) :
    State → List Input → Option (List Output × State)
  | state, [] => some ([], state)
  | state, input :: inputs =>
      (machine state input).bind fun (output, next) =>
        (run machine next inputs).map fun (outputs, final) => (output :: outputs, final)

variable {machine : State → Input → Option (Output × State)}

@[simp]
theorem run_nil (state : State) : run machine state [] = some ([], state) := rfl

theorem run_cons_eq_some {state final : State} {input : Input} {inputs : List Input}
    {outputs : List Output} :
    run machine state (input :: inputs) = some (outputs, final) ↔
      ∃ output next others, machine state input = some (output, next) ∧
        run machine next inputs = some (others, final) ∧ outputs = output :: others := by
  rw [run, Option.bind_eq_some_iff]
  constructor
  · rintro ⟨⟨output, next⟩, answered, later⟩
    rcases Option.map_eq_some_iff.mp later with ⟨⟨others, last⟩, continued, same⟩
    cases same
    exact ⟨output, next, others, answered, continued, rfl⟩
  · rintro ⟨output, next, others, answered, continued, rfl⟩
    refine ⟨(output, next), answered, ?_⟩
    simp [continued]

theorem length_of_run {state final : State} {inputs : List Input} {outputs : List Output}
    (ran : run machine state inputs = some (outputs, final)) : outputs.length = inputs.length := by
  induction inputs generalizing state outputs with
  | nil =>
      cases ran
      rfl
  | cons input inputs ih =>
      rcases run_cons_eq_some.mp ran with ⟨output, next, others, _, continued, rfl⟩
      rw [List.length_cons, List.length_cons, ih continued]

/-- A run over two sequences of inputs is a run over the first and one over the second. -/
theorem run_append_eq_some {state final : State} {before after : List Input}
    {outputs : List Output} :
    run machine state (before ++ after) = some (outputs, final) ↔
      ∃ earlier middle later, run machine state before = some (earlier, middle) ∧
        run machine middle after = some (later, final) ∧ outputs = earlier ++ later := by
  induction before generalizing state outputs with
  | nil => simp
  | cons input before ih =>
      simp only [List.cons_append, run_cons_eq_some, ih]
      constructor
      · rintro ⟨output, next, others, answered, ⟨earlier, middle, later, first, second, rfl⟩, rfl⟩
        exact ⟨output :: earlier, middle, later, ⟨output, next, earlier, answered, first, rfl⟩,
          second, rfl⟩
      · rintro ⟨_, middle, later, ⟨output, next, earlier, answered, first, rfl⟩, second, rfl⟩
        exact ⟨output, next, earlier ++ later, answered, ⟨earlier, middle, later, first, second,
          rfl⟩, rfl⟩

/-- A machine that answers every input runs over every sequence of inputs. -/
theorem exists_run
    (answers : ∀ state input, ∃ output next, machine state input = some (output, next))
    (state : State) (inputs : List Input) :
    ∃ outputs final, run machine state inputs = some (outputs, final) := by
  induction inputs generalizing state with
  | nil => exact ⟨[], state, rfl⟩
  | cons input inputs ih =>
      rcases answers state input with ⟨output, next, answered⟩
      rcases ih next with ⟨outputs, final, continued⟩
      exact ⟨output :: outputs, final, run_cons_eq_some.mpr ⟨_, _, _, answered, continued, rfl⟩⟩

/-- What every answer to an allowed input preserves holds after every run over such inputs. -/
theorem invariant_of_run {holds : State → Prop} {allowed : Input → Prop}
    (preserved : ∀ state input output next, holds state → allowed input →
      machine state input = some (output, next) → holds next)
    {state final : State} {inputs : List Input} {outputs : List Output}
    (initially : holds state) (allAllowed : ∀ input ∈ inputs, allowed input)
    (ran : run machine state inputs = some (outputs, final)) : holds final := by
  induction inputs generalizing state outputs with
  | nil =>
      cases ran
      exact initially
  | cons input inputs ih =>
      rcases run_cons_eq_some.mp ran with ⟨output, next, others, answered, continued, rfl⟩
      have later := fun input mem => allAllowed input (List.mem_cons_of_mem _ mem)
      exact ih (preserved state input output next initially
        (allAllowed input List.mem_cons_self) answered) later continued

/-- From related states the concrete machine gives the answers of the abstract one to the allowed
inputs, and the states stay related. -/
def Simulates (concrete : Concrete → Input → Option (Output × Concrete))
    (abstract : Abstract → Input → Option (Output × Abstract))
    (related : Concrete → Abstract → Prop) (allowed : Input → Prop) : Prop :=
  ∀ state view input output next, related state view → allowed input →
    abstract view input = some (output, next) →
    ∃ after, concrete state input = some (output, after) ∧ related after next

/-- A machine that simulates another gives the same outputs to every sequence of inputs. -/
theorem Simulates.run {concrete : Concrete → Input → Option (Output × Concrete)}
    {abstract : Abstract → Input → Option (Output × Abstract)}
    {related : Concrete → Abstract → Prop} {allowed : Input → Prop}
    (simulates : Simulates concrete abstract related allowed)
    {state : Concrete} {view final : Abstract} {inputs : List Input} {outputs : List Output}
    (start : related state view) (allAllowed : ∀ input ∈ inputs, allowed input)
    (ran : run abstract view inputs = some (outputs, final)) :
    ∃ after, Machine.run concrete state inputs = some (outputs, after) ∧ related after final := by
  induction inputs generalizing state view outputs with
  | nil =>
      cases ran
      exact ⟨state, rfl, start⟩
  | cons input inputs ih =>
      rcases run_cons_eq_some.mp ran with ⟨output, next, others, answered, continued, rfl⟩
      rcases simulates state view input output next start (allAllowed input List.mem_cons_self)
        answered with ⟨after, follows, stillRelated⟩
      have later := fun input mem => allAllowed input (List.mem_cons_of_mem _ mem)
      rcases ih stillRelated later continued with ⟨last, others, lastRelated⟩
      exact ⟨last, run_cons_eq_some.mpr ⟨_, _, _, follows, others, rfl⟩, lastRelated⟩

end Machine
