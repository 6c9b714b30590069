import EventAsync.TaskTraces
import Mathlib.Logic.Relation

/-!
# Tasks that only one coroutine awaits

A task has one handle for the coroutine to resume, so a function that waits for
tasks relies on nobody else awaiting them meanwhile.  `multi` waits through
coroutines of its own, each of which is nested in another one and known to no
one else.  While only a coroutine and those nested in it await some tasks, each
of these tasks is linked to the coroutine that is suspended on it.
-/

namespace EventAsync

variable {Value Exc : Type}

namespace Point

theorem awaits_subset (point : Point Value Exc) : ∀ task ∈ point.awaits, task ∈ point.tasks := by
  cases point <;> simp [awaits, tasks]
  intro task mem
  exact Or.inr mem

theorem waitsFor_subset (point : Point Value Exc) :
    ∀ task ∈ point.waitsFor, task ∈ point.tasks := by
  cases point with
  | allWait toWait => cases toWait <;> simp [waitsFor, tasks]
  | anyStart toStart polledTasks => cases toStart <;> simp [waitsFor, tasks]
  | limitLoop toStart parallelism polledTasks =>
      simp only [waitsFor, tasks, List.mem_append]
      grind
  | _ => simp [waitsFor, tasks]

end Point

namespace TaskSystem

variable {system next : TaskSystem Value Exc} {coro task waiting : TaskId}
  {event : TaskEvent Value Exc} {range : List TaskId}

/-- The tasks that `multi` makes for itself are known to their maker only, which is suspended on
them until they complete. -/
structure Nests (system : TaskSystem Value Exc) : Prop where
  made : ∀ coro task nested, (system.coros coro).point = .multiAwaitRest task nested →
    (system.coros task).temporary = false ∧ (system.coros nested).temporary = true ∧
      (system.coros nested).started = true ∧ (system.coros nested).awaitingCoro = some coro ∧
      (system.coros nested).result = none
  hidden : ∀ coro, ∀ task ∈ (system.coros coro).point.tasks,
    (system.coros task).temporary = true →
      ∃ first, (system.coros coro).point = .multiAwaitRest first task

theorem nests_init : Nests (init : TaskSystem Value Exc) := by
  constructor <;> simp [init, Point.tasks]

theorem Named.not_temporary (named : system.Named task = true) :
    (system.coros task).temporary = false := by
  simp only [Named, Bool.and_eq_true, Bool.not_eq_true'] at named
  exact named.2

/-- The program has the tasks that events name. -/
theorem named_of_event (stepped : system.step event = some next) :
    (∀ task, event = .await task → system.Named task = true) ∧
      ∀ body, event = .create body → ∀ task ∈ body.tasks, system.Named task = true := by
  constructor
  · rintro task rfl
    simp only [step] at stepped
    split at stepped
    case h_1 => cases stepped
    case h_2 =>
      split at stepped
      case isTrue allowed => exact allowed.2
      case isFalse => cases stepped
  · rintro body rfl task mem
    simp only [step] at stepped
    split at stepped
    case isTrue allowed => exact allowed.2 task mem
    case isFalse => cases stepped

/-- `multi` comes to be suspended on a nested task by making it. -/
theorem nested_step (steps : Steps system event next) (sound : Sound system) {nested : TaskId}
    (isPoint : (next.coros coro).point = .multiAwaitRest task nested) :
    (system.coros coro).point = .multiAwaitRest task nested ∨
      nested = system.made ∧ system.Acts coro ∧
        ∃ first rest, (system.coros coro).point = .multiRest task (first :: rest) ∧
          (next.coros nested).point = .multiStart first rest ∧
          (next.coros nested).temporary = true ∧ (next.coros nested).started = true ∧
          (next.coros nested).awaitingCoro = some coro ∧ (next.coros nested).result = none := by
  have suspends : (next.coros coro).point.Suspends := by
    rw [isPoint]
    trivial
  cases steps with
  | create body userCode named =>
      have executes : ¬(body.point : Point Value Exc).Suspends := body.point_begins.2.1
      simp only [point_create] at isPoint suspends
      grind
  | start userCode named => exact Or.inl (by rwa [point_start] at isPoint)
  | observe shape isUser named done => exact Or.inl isPoint
  | await shape isUser named unfinished =>
      simp only [point_awaitSuspend] at isPoint
      grind
  | suspend shape isUser => exact Or.inl isPoint
  | resume userCode sleeps => exact Or.inl isPoint
  | move order shape moves =>
      have executes := moves.not_suspends
      simp only [point_goTo] at isPoint suspends
      grind
  | startNext order shape starts =>
      have executes := starts.not_suspends
      simp only [point_start, point_goTo] at isPoint suspends
      grind
  | waitDone order shape waits done =>
      have executes := waits.suspends.2.2
      simp only [point_goTo] at isPoint suspends
      grind
  | wait order shape waits unfinished =>
      have notNested := waits.ne_nested
      simp only [point_awaitSuspend] at isPoint
      grind
  | @nest actor first second rest below order shape isRest =>
      have acts := acts_of_shape shape
      have different : actor ≠ system.made :=
        Nat.ne_of_lt (sound.placed.lt_made (sound.placed.top shape).1)
      simp only [point_awaitSuspend, point_create] at isPoint
      simp only [point_awaitSuspend, point_create, temporary_awaitSuspend, temporary_create,
        started_awaitSuspend, awaitingCoro_awaitSuspend, result_awaitSuspend, result_create]
      grind
  | @pollReady actor below tasks suspended point goesOn order shape polls ready pollsTo =>
      rcases pollsTo.exists_ret ready with ⟨ret, mem, done, rfl⟩
      have executes := polls.suspends.2.2 ret (system.left tasks)
      simp only [point_goTo, point_linkAll] at isPoint suspends
      grind
  | pollSuspend order shape polls unfinished =>
      have notNested := polls.ne_nested
      simp only [point_linkAll, point_goTo] at isPoint
      grind
  | pollError order shape polls mem notStarted =>
      simp only [point_goTo] at isPoint
      grind
  | complete shape ends nobody =>
      simp only [point_completed] at isPoint
      grind
  | wake shape ends linked resumes =>
      have executes := resumes.suspends.2
      simp only [point_goTo, coros_woken, point_completed] at isPoint suspends
      grind
  | @wakePoll actor waiting below tasks outcome point goesOn event shape ends linked resumes
      pollsTo =>
      rcases sound.pollsTo_ret shape linked resumes pollsTo with ⟨ret, mem, done, rfl⟩
      have executes := resumes.suspends.2 ret ((system.woken actor outcome waiting).left tasks)
      simp only [point_goTo, point_linkAll, coros_woken, point_completed] at isPoint suspends
      grind

theorem Wakes.not_has_nested (wakes : Wakes system next coro) (steps : Steps system event next)
    (sound : Sound system) {nested : TaskId}
    (isPoint : (system.coros coro).point = .multiAwaitRest task nested)
    (different : task ≠ nested) : nested ∉ (next.coros coro).point.tasks := by
  rcases wakes.resumption steps sound with ⟨_, _, _, _, _, _, _, _, resumes |
    ⟨tasks, goesOn, ret, resumes, _⟩⟩
  · rw [isPoint] at resumes
    generalize (next.coros coro).point = after at resumes
    cases resumes with
    | @rest _ _ outcome done =>
        cases outcome <;> simp [afterRest, Point.tasks, different.symm]
  · rw [isPoint] at resumes
    cases resumes

/-- A task that is awaited is named by the event or had by the innermost coroutine. -/
theorem mem_awaited (stepped : system.step event = some next)
    (awaited : task ∈ system.awaited event) : ∃ actor, system.Acts actor ∧
      (event = .await task ∨ task ∈ (system.coros actor).point.waitsFor) := by
  cases event with
  | await first =>
      rw [List.mem_singleton.mp awaited]
      cases shape : system.stack with
      | nil => simp [step, shape] at stepped
      | cons actor below => exact ⟨actor, acts_of_shape shape, Or.inl rfl⟩
  | proceed order =>
      cases shape : system.stack with
      | nil => simp [step, shape] at stepped
      | cons actor below =>
          rw [awaited_proceed order shape] at awaited
          exact ⟨actor, acts_of_shape shape, Or.inr awaited⟩
  | _ => exact absurd awaited List.not_mem_nil

namespace Nests

/-- Nobody but its maker awaits a temporary task. -/
theorem not_awaited (nests : Nests system) (sound : Sound system)
    (stepped : system.step event = some next) (temporary : (system.coros task).temporary = true) :
    task ∉ system.awaited event := by
  intro awaited
  rcases mem_awaited stepped awaited with ⟨actor, acts, named | waitsFor⟩
  · rw [Named.not_temporary ((named_of_event stepped).1 task named)] at temporary
    cases temporary
  · rcases nests.hidden actor task (Point.waitsFor_subset _ task waitsFor) temporary with
      ⟨first, isPoint⟩
    have executes := (acts.executes sound).2.2
    rw [isPoint] at executes
    exact executes trivial

theorem made_step (nests : Nests system) (sound : Sound system)
    (stepped : system.step event = some next) {nested : TaskId}
    (isPoint : (next.coros coro).point = .multiAwaitRest task nested) :
    (next.coros task).temporary = false ∧ (next.coros nested).temporary = true ∧
      (next.coros nested).started = true ∧ (next.coros nested).awaitingCoro = some coro ∧
      (next.coros nested).result = none := by
  have steps := steps_of_step stepped
  have known := sound.placed.known coro
  rcases nested_step steps sound isPoint with before |
    ⟨rfl, acts, first, rest, before, _, temporary, started, linked, unfinished⟩
  · rcases nests.made coro task nested before with
      ⟨taskNamed, temporary, started, linked, unfinished⟩
    rw [before] at known
    have madeTask : task < system.made := known task (List.mem_cons_self ..)
    have madeNested : nested < system.made :=
      known nested (List.mem_cons_of_mem task (List.mem_singleton_self nested))
    have suspends : (next.coros coro).point.Suspends := by
      rw [isPoint]
      trivial
    have asleep : ¬Wakes system next coro := fun wakes => wakes.executes steps sound suspends
    rw [temporary_step steps madeTask, temporary_step steps madeNested]
    refine ⟨taskNamed, temporary, started_step steps madeNested started, ?_, ?_⟩
    · rcases awaitingCoro_step steps sound nested madeNested with same | awaited |
        ⟨resumed, wakes, awaits⟩
      · rw [same, linked]
      · exact absurd awaited (nests.not_awaited sound stepped temporary)
      · rcases nests.hidden resumed nested (Point.awaits_subset _ nested awaits) temporary with
          ⟨first, isMaker⟩
        have linkedToo := (nests.made resumed first nested isMaker).2.2.2.1
        rw [linked, Option.some.injEq] at linkedToo
        exact absurd (linkedToo ▸ wakes) asleep
    · rcases result_step steps nested madeNested with same | ⟨acts, outcome, ends, done⟩
      · rw [same, unfinished]
      · exact absurd ⟨nested, acts, linked, by rw [done]; simp⟩ asleep
  · have notTemporary : (system.coros task).temporary = false := by
      rw [Bool.eq_false_iff]
      intro isTemporary
      rcases nests.hidden coro task (by rw [before]; exact List.mem_cons_self ..) isTemporary with
        ⟨other, isOther⟩
      rw [before] at isOther
      cases isOther
    rw [before] at known
    rw [temporary_step steps (known task (List.mem_cons_self ..))]
    exact ⟨notTemporary, temporary, started, linked, unfinished⟩

theorem hidden_step (nests : Nests system) (sound : Sound system)
    (stepped : system.step event = some next) {coro : TaskId}
    (has : task ∈ (next.coros coro).point.tasks)
    (temporary : (next.coros task).temporary = true) :
    ∃ first, (next.coros coro).point = .multiAwaitRest first task := by
  have steps := steps_of_step stepped
  have stays : ∀ holder, task ∈ (system.coros holder).point.tasks →
      ∃ first, (system.coros holder).point = .multiAwaitRest first task := by
    intro holder had
    rw [temporary_step steps (sound.placed.known holder task had)] at temporary
    exact nests.hidden holder task had temporary
  have notTemporary : system.Named task = true → ¬(next.coros task).temporary = true := by
    intro named
    rw [temporary_step steps (lt_made_of_named named), Named.not_temporary named]
    exact Bool.false_ne_true
  rcases tasks_step steps sound has with had | named | made | ⟨isNew, created | ⟨actor, acts, had⟩⟩
  · rcases stays coro had with ⟨first, isPoint⟩
    by_cases wakes : Wakes system next coro
    · have different : first ≠ task := by
        rintro rfl
        rcases nests.made coro first first isPoint with ⟨notTemporary, isTemporary, _⟩
        rw [notTemporary] at isTemporary
        cases isTemporary
      exact absurd has (wakes.not_has_nested steps sound isPoint different)
    · have suspends : (system.coros coro).point.Suspends := by
        rw [isPoint]
        trivial
      rcases sound.of_suspends suspends with ⟨made, _, _, still⟩
      refine ⟨first, ?_⟩
      rw [point_step steps made still wakes, isPoint]
  · exact absurd temporary (notTemporary ((named_of_event stepped).1 task named))
  · exact made
  · rcases created with ⟨body, isCreate, mem⟩
    exact absurd temporary (notTemporary ((named_of_event stepped).2 body isCreate task mem))
  · rcases stays actor had with ⟨first, isPoint⟩
    have executes := (acts.executes sound).2.2
    rw [isPoint] at executes
    exact absurd trivial executes

end Nests

theorem nests_step (nests : Nests system) (sound : Sound system)
    (stepped : system.step event = some next) : Nests next := by
  constructor
  · intro coro task nested isPoint
    exact nests.made_step sound stepped isPoint
  · intro coro task has temporary
    exact nests.hidden_step sound stepped has temporary

/-- What holds of tasks whatever the program does. -/
structure Coherent (system : TaskSystem Value Exc) : Prop where
  sound : Sound system
  traced : Traced system
  nests : Nests system

theorem coherent_init : Coherent (init : TaskSystem Value Exc) :=
  ⟨sound_init, traced_init, nests_init⟩

theorem coherent_step (system : TaskSystem Value Exc) (event : TaskEvent Value Exc)
    (next : TaskSystem Value Exc) (coherent : Coherent system)
    (stepped : system.step event = some next) : Coherent next :=
  ⟨sound_step system event next coherent.sound stepped,
    traced_step (steps_of_step stepped) coherent.sound coherent.traced,
    nests_step coherent.nests coherent.sound stepped⟩

theorem Coherent.run {events : List (TaskEvent Value Exc)} (coherent : Coherent system)
    (reached : Transition.run step system events = some next) : Coherent next :=
  Transition.throughout_of_preserved coherent_step coherent events events [] next
    (List.append_nil events).symm reached

theorem coherent_of_run {history : List (TaskEvent Value Exc)}
    (reached : Transition.run step init history = some system) : Coherent system :=
  coherent_init.run reached

/-- A result that is set stays the same to the end of the run. -/
theorem result_of_run {events : List (TaskEvent Value Exc)} {outcome : Outcome Value Exc}
    (coherent : Coherent system) (ended : (system.coros task).result = some outcome)
    (reached : Transition.run step system events = some next) :
    (next.coros task).result = some outcome := by
  have kept : Transition.Throughout step (fun state => Coherent state ∧
      (state.coros task).result = some outcome) system events := by
    refine Transition.throughout_of_preserved ?_ ⟨coherent, ended⟩ events
    rintro state event after ⟨coherentState, endedState⟩ stepped
    exact ⟨coherent_step state event after coherentState stepped,
      result_stable (steps_of_step stepped) coherentState.sound endedState⟩
  exact (kept events [] next (List.append_nil events).symm reached).2

/-- A coroutine of `multi` is suspended on one that it has made. -/
def Nested (system : TaskSystem Value Exc) (outer inner : TaskId) : Prop :=
  ∃ task, (system.coros outer).point = .multiAwaitRest task inner

/-- A coroutine executes, or will, for another one, nested in it at some depth. -/
def Serves (system : TaskSystem Value Exc) : TaskId → TaskId → Prop :=
  Relation.ReflTransGen system.Nested

theorem nested_unique : Relator.RightUnique system.Nested := by
  rintro outer first second ⟨task, isFirst⟩ ⟨other, isSecond⟩
  rw [isFirst] at isSecond
  cases isSecond
  rfl

/-- Two coroutines that serve the same one and have nothing nested in them are the same. -/
theorem Serves.unique {outer first second : TaskId} (serves : system.Serves outer first)
    (servesToo : system.Serves outer second) (innermost : ∀ inner, ¬system.Nested first inner)
    (innermostToo : ∀ inner, ¬system.Nested second inner) : first = second := by
  rcases serves.total_of_right_unique nested_unique servesToo with below | below
  · rcases below.cases_head with same | ⟨inner, nested, _⟩
    · exact same
    · exact absurd nested (innermost inner)
  · rcases below.cases_head with same | ⟨inner, nested, _⟩
    · exact same.symm
    · exact absurd nested (innermostToo inner)

theorem not_nested_of_executes (executes : ¬(system.coros coro).point.Suspends) (inner : TaskId) :
    ¬system.Nested coro inner := by
  rintro ⟨task, isPoint⟩
  rw [isPoint] at executes
  exact executes trivial

/-- A coroutine serves another one until it completes. -/
theorem serves_step (steps : Steps system event next) (sound : Sound system)
    {outer inner : TaskId} (serves : system.Serves outer inner)
    (unfinished : (next.coros inner).result = none) : next.Serves outer inner := by
  induction serves with
  | refl => exact .refl
  | @tail middle inner _ nested ih =>
      rcases nested with ⟨task, isPoint⟩
      have suspends : (system.coros middle).point.Suspends := by
        rw [isPoint]
        trivial
      rcases sound.of_suspends suspends with ⟨made, _, unfinishedMiddle, still⟩
      have asleep : ¬Wakes system next middle := by
        intro wakes
        rcases wakes.resumption steps sound with ⟨_, completing, outcome, acts, _, linked, done, _⟩
        have awaits := sound.linked completing middle linked (acts.executes sound).2.1
        rw [isPoint, Point.awaits, List.mem_singleton] at awaits
        rw [awaits, unfinished] at done
        cases done
      have unfinishedAfter : (next.coros middle).result = none := by
        rcases result_step steps middle made with same | ⟨acts, _⟩
        · rw [same, unfinishedMiddle]
        · exact absurd acts still
      refine (ih unfinishedAfter).tail ⟨task, ?_⟩
      rw [point_step steps made still asleep, isPoint]

/-- Nobody but the coroutine and those that serve it awaits the tasks while it runs. -/
structure Undisturbed (coro : TaskId) (range : List TaskId) (system : TaskSystem Value Exc)
    (event : TaskEvent Value Exc) : Prop where
  /-- When the coroutine is started, nobody is suspended on one of the tasks. -/
  begins : (system.coros coro).started = false → ∀ next, system.step event = some next →
    (next.coros coro).started = true →
      ∀ other, ∀ task ∈ range, task ∉ (system.coros other).point.awaits
  /-- From then on nobody else awaits one of the tasks until the coroutine is done. -/
  meanwhile : (system.coros coro).started = true → system.done coro = false →
    ∀ actor, system.Acts actor → ¬system.Serves coro actor →
      ∀ task ∈ system.awaited event, task ∉ range

/-- Whoever is suspended on one of the tasks serves the coroutine, and the task is linked to it. -/
structure Owned (coro : TaskId) (range : List TaskId) (system : TaskSystem Value Exc) :
    Prop where
  made : ∀ task ∈ range, task < system.made
  named : ∀ task ∈ range, (system.coros task).temporary = false
  awaits : ∀ other, ∀ task ∈ range, task ∈ (system.coros other).point.awaits →
    system.Serves coro other ∧ (system.coros task).awaitingCoro = some other ∧
      (system.coros task).result = none

namespace Owned

/-- A coroutine that is suspended on one of the tasks has nothing nested in it. -/
theorem not_nested (owned : Owned coro range system) (nests : Nests system) {other : TaskId}
    (mem : task ∈ range) (awaits : task ∈ (system.coros other).point.awaits) (inner : TaskId) :
    ¬system.Nested other inner := by
  rintro ⟨first, isPoint⟩
  rw [isPoint, Point.awaits, List.mem_singleton] at awaits
  have temporary := (nests.made other first inner isPoint).2.1
  rw [← awaits, owned.named task mem] at temporary
  cases temporary

/-- While the coroutine is suspended on one of the tasks, nobody awaits this task again. -/
theorem not_awaited (owned : Owned coro range system) (coherent : Coherent system)
    (stepped : system.step event = some next) (undisturbed : Undisturbed coro range system event)
    (started : (system.coros coro).started = true) (unfinished : system.done coro = false)
    {other : TaskId} (mem : task ∈ range)
    (awaits : task ∈ (system.coros other).point.awaits) : task ∉ system.awaited event := by
  intro awaited
  rcases mem_awaited stepped awaited with ⟨actor, acts, _⟩
  have executes := (acts.executes coherent.sound).2.2
  have actorServes : system.Serves coro actor := by
    by_contra foreign
    exact undisturbed.meanwhile started unfinished actor acts foreign task awaited mem
  have same : actor = other := actorServes.unique (owned.awaits other task mem awaits).1
    (not_nested_of_executes executes) (owned.not_nested coherent.nests mem awaits)
  rw [← same, Point.awaits_of_not_suspends executes] at awaits
  exact absurd awaits List.not_mem_nil

theorem step (owned : Owned coro range system) (coherent : Coherent system)
    (stepped : system.step event = some next) (undisturbed : Undisturbed coro range system event)
    (started : (system.coros coro).started = true) (unfinished : next.done coro = false) :
    Owned coro range next := by
  have steps := steps_of_step stepped
  have sound := coherent.sound
  have unfinishedBefore : system.done coro = false := by
    rw [done_eq_false_iff] at unfinished ⊢
    exact unfinished_before steps sound unfinished
  constructor
  · intro task mem
    exact (owned.made task mem).trans_le (made_step steps)
  · intro task mem
    rw [temporary_step steps (owned.made task mem), owned.named task mem]
  intro other task mem awaits
  have suspends : (next.coros other).point.Suspends := by
    by_contra executes
    rw [Point.awaits_of_not_suspends executes] at awaits
    exact absurd awaits List.not_mem_nil
  have unfinishedOther := ((sound_step system event next sound stepped).of_suspends suspends).2.2.1
  rcases awaits_step steps sound (owned.made task mem) awaits with before |
    ⟨acts, awaited, linked, unfinishedTask⟩
  · rcases owned.awaits other task mem before with ⟨serves, linked, unfinishedTask⟩
    have asleep : ¬Wakes system next other := fun wakes => wakes.executes steps sound suspends
    refine ⟨serves_step steps sound serves unfinishedOther, ?_, ?_⟩
    · rcases awaitingCoro_step steps sound task (owned.made task mem) with same | awaited |
        ⟨resumed, wakes, awaitsToo⟩
      · rw [same, linked]
      · exact absurd awaited
          (owned.not_awaited coherent stepped undisturbed started unfinishedBefore mem before)
      · have linkedToo := (owned.awaits resumed task mem awaitsToo).2.1
        rw [linked, Option.some.injEq] at linkedToo
        exact absurd (linkedToo ▸ wakes) asleep
    · rcases result_step steps task (owned.made task mem) with same | ⟨acts, outcome, _, done⟩
      · rw [same, unfinishedTask]
      · exact absurd ⟨task, acts, linked, by rw [done]; simp⟩ asleep
  · have serves : system.Serves coro other := by
      by_contra foreign
      exact undisturbed.meanwhile started unfinishedBefore other acts foreign task awaited mem
    exact ⟨serves_step steps sound serves unfinishedOther, linked, unfinishedTask⟩

end Owned

/-- What is needed of the other coroutines while the coroutine runs. -/
structure Supervised (coro : TaskId) (range : List TaskId) (system : TaskSystem Value Exc) :
    Prop where
  coherent : Coherent system
  made : coro < system.made
  older : ∀ task ∈ range, task < coro
  named : ∀ task ∈ range, (system.coros task).temporary = false
  owned : (system.coros coro).started = true → system.done coro = false →
    Owned coro range system

/-- The coroutine is started while nobody is suspended on one of the tasks. -/
theorem owned_of_starts (supervised : Supervised coro range system)
    (undisturbed : Undisturbed coro range system event)
    (stepped : system.step event = some next) (notStarted : (system.coros coro).started = false)
    (starts : (next.coros coro).started = true) : Owned coro range next := by
  have steps := steps_of_step stepped
  have madeBefore : ∀ task ∈ range, task < system.made :=
    fun task mem => (supervised.older task mem).trans supervised.made
  constructor
  · intro task mem
    exact (madeBefore task mem).trans_le (made_step steps)
  · intro task mem
    rw [temporary_step steps (madeBefore task mem), supervised.named task mem]
  · intro other task mem awaits
    rcases awaits_step steps supervised.coherent.sound (madeBefore task mem) awaits with before |
      ⟨_, awaited, _⟩
    · exact absurd before (undisturbed.begins notStarted next stepped starts other task mem)
    · have same := eq_of_starts steps supervised.made notStarted starts awaited
      exact absurd (same ▸ supervised.older task mem) (Nat.lt_irrefl coro)

theorem supervised_step (supervised : Supervised coro range system)
    (undisturbed : Undisturbed coro range system event)
    (stepped : system.step event = some next) : Supervised coro range next := by
  have steps := steps_of_step stepped
  have sound := supervised.coherent.sound
  refine ⟨coherent_step system event next supervised.coherent stepped,
    supervised.made.trans_le (made_step steps), supervised.older, ?_, ?_⟩
  · intro task mem
    rw [temporary_step steps ((supervised.older task mem).trans supervised.made),
      supervised.named task mem]
  · intro startedNext unfinished
    cases started : (system.coros coro).started with
    | false => exact owned_of_starts supervised undisturbed stepped started startedNext
    | true =>
        have unfinishedBefore : system.done coro = false := by
          rw [done_eq_false_iff] at unfinished ⊢
          exact unfinished_before steps sound unfinished
        exact (supervised.owned started unfinishedBefore).step supervised.coherent stepped
          undisturbed started unfinished

theorem eq_create {body : Body} (called : system.step (.create body) = some next) :
    next = system.create body.point false := by
  simp only [step] at called
  split at called
  · exact (Option.some.inj called).symm
  · cases called

/-- One of the library's functions is called. -/
theorem supervised_call {body : Body} {before : List (TaskEvent Value Exc)}
    (reached : Transition.run step init before = some system)
    (called : system.step (.create body) = some next) :
    Supervised system.made body.tasks next := by
  have coherent := coherent_of_run reached
  have named := (named_of_event called).2 body rfl
  have coherentNext := coherent_step system _ next coherent called
  rw [eq_create called] at coherentNext ⊢
  refine ⟨coherentNext, Nat.lt_succ_self _, fun task mem => lt_made_of_named (named task mem),
    fun task mem => ?_, fun started => ?_⟩
  · rw [temporary_create, if_neg (Nat.ne_of_lt (lt_made_of_named (named task mem))),
      Named.not_temporary (named task mem)]
  · rw [started_create, if_pos rfl] at started
    cases started

/-- Whether the point of a coroutine, or of one nested in it, leads to the other one. -/
def leadsTo (system : TaskSystem Value Exc) : ℕ → TaskId → TaskId → Bool
  | 0, outer, inner => outer == inner
  | fuel + 1, outer, inner =>
      outer == inner || match (system.coros outer).point with
        | .multiAwaitRest _ nested => system.leadsTo fuel nested inner
        | _ => false

theorem serves_of_leadsTo {fuel : ℕ} {outer inner : TaskId}
    (leads : system.leadsTo fuel outer inner = true) : system.Serves outer inner := by
  induction fuel generalizing outer with
  | zero =>
      simp only [leadsTo, beq_iff_eq] at leads
      exact leads ▸ .refl
  | succ fuel ih =>
      simp only [leadsTo, Bool.or_eq_true, beq_iff_eq] at leads
      rcases leads with same | deeper
      · exact same ▸ .refl
      · split at deeper
        · rename_i task nested isPoint
          exact .head ⟨task, isPoint⟩ (ih deeper)
        · simp at deeper

/-- A check for runs in which the coroutine has been started: only those that serve it await one of
the tasks. -/
def undisturbedCheck (coro : TaskId) (range : List TaskId) (system : TaskSystem Value Exc)
    (event : TaskEvent Value Exc) : Bool :=
  (system.coros coro).started &&
    ((system.awaited event).all (fun task => !range.contains task) ||
      system.stack.head?.all fun actor => system.leadsTo system.made coro actor)

theorem undisturbed_of_check (passes : undisturbedCheck coro range system event = true) :
    Undisturbed coro range system event := by
  simp only [undisturbedCheck, Bool.and_eq_true, Bool.or_eq_true] at passes
  rcases passes with ⟨started, passes⟩
  refine ⟨fun notStarted => ?_, fun _ _ actor acts foreign task awaited => ?_⟩
  · simp [started] at notStarted
  · rcases passes with elsewhere | leads
    · simpa using List.all_eq_true.mp elsewhere task awaited
    · exact absurd (serves_of_leadsTo ((Option.all_eq_true _ _).mp leads actor acts)) foreign

/-- The program has three tasks, which have not been started. -/
def threeTasks : TaskSystem Unit Unit :=
  ((init.create .user false).create .user false).create .user false

theorem run_threeTasks :
    Transition.run step init [.create .user, .create .user, .create .user] = some threeTasks := rfl

/-- The program calls a function on its three tasks. -/
def calledOn (body : Body) : TaskSystem Unit Unit :=
  threeTasks.create body.point false

theorem undisturbed_start (body : Body) :
    Undisturbed 3 range (calledOn body) (.start 3) := by
  refine ⟨fun _ next _ _ other task _ => ?_, fun started => ?_⟩
  · have nothing : (body.point : Point Unit Unit).awaits = [] :=
      Point.awaits_of_not_suspends body.point_begins.2.1
    simp only [calledOn, threeTasks, point_create]
    split
    · rw [nothing]
      exact List.not_mem_nil
    · split_ifs <;> exact List.not_mem_nil
  · have notStarted : ((calledOn body).coros 3).started = false := rfl
    rw [notStarted] at started
    cases started

theorem undisturbed_calledOn {body : Body} {events : List (TaskEvent Unit Unit)}
    (passes : ((calledOn body).step (.start 3)).all
      (fun next => Transition.checkAlong step (undisturbedCheck 3 range) next events) = true) :
    Transition.Along step (Undisturbed 3 range) (calledOn body) (.start 3 :: events) := by
  apply Transition.along_cons (undisturbed_start body)
  intro next started
  apply Transition.along_of_checkAlong fun _ _ => undisturbed_of_check
  exact (Option.all_eq_true _ _).mp passes next started

end TaskSystem

end EventAsync
