import EventAsync.TaskInvariants

/-!
# What a transition of tasks leaves alone

A transition changes the points of the innermost coroutine and of the one that
it resumes, the result of the innermost coroutine, and the links and the start
of tasks that these two coroutines have or that the event names.  Tasks that
only some coroutines have are therefore left alone by all others.
-/

namespace EventAsync

variable {Value Exc : Type}

namespace Point

/-- The tasks that a coroutine at the point awaits when it goes on. -/
def waitsFor : Point Value Exc → List TaskId
  | .allWait (task :: _) => [task]
  | .multiWait task => [task]
  | .anyStart [] tasks => tasks
  | .limitLoop toStart parallelism tasks =>
      if parallelism ≤ tasks.length ∨ toStart = [] then tasks else []
  | _ => []

theorem Waits.waitsFor_eq {first second suspended : Point Value Exc} {task : TaskId}
    (waits : Waits first task suspended second) : first.waitsFor = [task] := by
  cases waits <;> rfl

theorem Polls.waitsFor_eq {first suspended : Point Value Exc} {tasks : List TaskId}
    {goesOn : TaskId → List TaskId → Point Value Exc}
    (polls : Polls first tasks suspended goesOn) : first.waitsFor = tasks := by
  cases polls with
  | any => rfl
  | limit waits goesOn => exact if_pos waits

theorem Starts.waitsFor_eq {first second : Point Value Exc} {task : TaskId}
    (starts : Starts first task second) : first.waitsFor = [] := by
  cases starts with
  | all => rfl
  | multi => rfl
  | any => rfl
  | limit task toStart room =>
      refine if_neg ?_
      rintro (full | isNil)
      · exact absurd room (Nat.not_lt.mpr full)
      · cases isNil

/-- Only the results of tasks matter for where a coroutine goes on. -/
theorem Resumes.congr {first second : Point Value Exc} {system next : TaskSystem Value Exc}
    (same : ∀ task, (system.coros task).result = (next.coros task).result)
    (resumes : Resumes system first second) : Resumes next first second := by
  cases resumes with
  | user done => exact .user (same _ ▸ done)
  | all task toWait => exact .all task toWait
  | rest done => exact .rest (same _ ▸ done)
  | multi task => exact .multi task

theorem Waits.ne_nested {first second suspended : Point Value Exc} {task : TaskId}
    (waits : Waits first task suspended second) (outer nested : TaskId) :
    suspended ≠ .multiAwaitRest outer nested := by
  cases waits <;> simp

theorem Polls.ne_nested {first suspended : Point Value Exc} {tasks : List TaskId}
    {goesOn : TaskId → List TaskId → Point Value Exc}
    (polls : Polls first tasks suspended goesOn) (outer nested : TaskId) :
    suspended ≠ .multiAwaitRest outer nested := by
  cases polls <;> simp

end Point

namespace TaskSystem

variable {system next : TaskSystem Value Exc} {coro task waiting : TaskId}
  {event : TaskEvent Value Exc} {below : List TaskId}

/-- The coroutine is the innermost one. -/
def Acts (system : TaskSystem Value Exc) (coro : TaskId) : Prop :=
  system.stack.head? = some coro

/-- The step completes the innermost coroutine and resumes the one that awaits it. -/
def Wakes (system next : TaskSystem Value Exc) (waiting : TaskId) : Prop :=
  ∃ coro, system.Acts coro ∧ (system.coros coro).awaitingCoro = some waiting ∧
    (next.coros coro).result ≠ none

theorem acts_of_shape (shape : system.stack = coro :: below) : system.Acts coro := by
  simp [Acts, shape]

theorem Acts.exists_shape (acts : system.Acts coro) : ∃ below, system.stack = coro :: below := by
  cases shape : system.stack with
  | nil => simp [Acts, shape] at acts
  | cons top below =>
      simp only [Acts, shape, List.head?_cons, Option.some.injEq] at acts
      exact ⟨below, by rw [acts]⟩

theorem Acts.unique {other : TaskId} (acts : system.Acts coro) (actsToo : system.Acts other) :
    coro = other :=
  Option.some.inj (acts.symm.trans actsToo)

theorem done_eq_false_iff : system.done task = false ↔ (system.coros task).result = none := by
  rw [done, Option.isSome_eq_false_iff, Option.isNone_iff_eq_none]

/-- The innermost coroutine is not suspended on a task. -/
theorem Acts.executes (acts : system.Acts coro) (sound : Sound system) :
    (system.coros coro).started = true ∧ (system.coros coro).result = none ∧
      ¬(system.coros coro).point.Suspends := by
  rcases acts.exists_shape with ⟨below, shape⟩
  exact sound.placed.top shape

/-- A coroutine that is suspended on tasks has been started and is not done. -/
theorem Sound.of_suspends (sound : Sound system) (suspends : (system.coros coro).point.Suspends) :
    coro < system.made ∧ (system.coros coro).started = true ∧
      (system.coros coro).result = none ∧ ¬system.Acts coro := by
  have started : (system.coros coro).started = true := by
    by_contra notStarted
    exact (sound.placed.resting coro (Bool.eq_false_iff.mpr notStarted)).2 suspends
  have unfinished : (system.coros coro).result = none := by
    rw [Option.eq_none_iff_forall_not_mem]
    intro outcome ended
    rw [sound.placed.done coro outcome ended] at suspends
    exact suspends
  exact ⟨sound.placed.lt_made started, started, unfinished,
    fun acts => (acts.executes sound).2.2 suspends⟩

/-- The tasks that the innermost coroutine awaits by the event. -/
def awaited (system : TaskSystem Value Exc) : TaskEvent Value Exc → List TaskId
  | .await task => [task]
  | .proceed _ =>
      match system.stack with
      | [] => []
      | coro :: _ => (system.coros coro).point.waitsFor
  | _ => []

theorem awaited_proceed (order : IterationOrder) (shape : system.stack = coro :: below) :
    system.awaited (.proceed order) = (system.coros coro).point.waitsFor := by
  simp only [awaited, shape]

/-- A coroutine that a completion resumes from an `AnyAwaiter` finds a task that is done. -/
theorem Sound.pollsTo_ret (sound : Sound system) {tasks : List TaskId} {point : Point Value Exc}
    {outcome : Outcome Value Exc} {goesOn : TaskId → List TaskId → Point Value Exc}
    (shape : system.stack = coro :: below)
    (linked : (system.coros coro).awaitingCoro = some waiting)
    (resumes : ((system.woken coro outcome waiting).coros waiting).point.PollResumes tasks goesOn)
    (pollsTo : (system.woken coro outcome waiting).PollsTo tasks goesOn point) :
    ∃ ret ∈ tasks, (system.woken coro outcome waiting).done ret = true ∧
      point = goesOn ret ((system.woken coro outcome waiting).left tasks) := by
  rcases sound.suspended shape linked with ⟨different, _, awaited⟩
  rw [coros_woken, point_completed, if_neg different] at resumes
  rw [resumes.suspends.1] at awaited
  refine pollsTo.exists_ret ⟨coro, awaited, ?_⟩
  rw [done, coros_woken, result_completed, if_pos rfl]
  rfl

/-- The result of the innermost coroutine may be set; other results stay as they are. -/
theorem result_step (steps : Steps system event next) (coro : TaskId) (made : coro < system.made) :
    (next.coros coro).result = (system.coros coro).result ∨
      system.Acts coro ∧ ∃ outcome, system.Ends coro outcome ∧
        (next.coros coro).result = some outcome := by
  cases steps with
  | create body userCode named =>
      simp only [result_create]
      grind
  | nest order shape isPoint =>
      simp only [result_awaitSuspend, result_create]
      grind
  | complete shape ends nobody =>
      have acts := acts_of_shape shape
      simp only [result_completed]
      grind
  | wake shape ends linked resumes =>
      have acts := acts_of_shape shape
      simp only [result_goTo, coros_woken, result_completed]
      grind
  | wakePoll shape ends linked resumes pollsTo =>
      have acts := acts_of_shape shape
      simp only [result_goTo, result_linkAll, coros_woken, result_completed]
      grind
  | _ => exact Or.inl (by simp)

theorem made_step (steps : Steps system event next) : system.made ≤ next.made := by
  cases steps with
  | create body userCode named => exact Nat.le_succ _
  | start userCode named => rw [made_start]
  | await shape isUser named unfinished => rw [made_awaitSuspend]
  | startNext order shape starts =>
      rw [made_start]
      exact le_rfl
  | wait order shape waits unfinished => rw [made_awaitSuspend]
  | nest order shape isPoint =>
      rw [made_awaitSuspend]
      exact Nat.le_succ _
  | _ => exact le_rfl

/-- A result that is set does not change. -/
theorem result_stable (steps : Steps system event next) (sound : Sound system)
    {outcome : Outcome Value Exc} (done : (system.coros task).result = some outcome) :
    (next.coros task).result = some outcome := by
  have made : task < system.made := by
    by_contra unmade
    rw [(sound.placed.fresh task (Nat.not_lt.mp unmade)).2.2.2] at done
    cases done
  rcases result_step steps task made with same | ⟨acts, _⟩
  · rw [same, done]
  · rcases acts.exists_shape with ⟨below, shape⟩
    rw [(sound.placed.top shape).2.1] at done
    cases done

theorem unfinished_before (steps : Steps system event next) (sound : Sound system)
    (unfinished : (next.coros task).result = none) : (system.coros task).result = none := by
  rw [Option.eq_none_iff_forall_not_mem]
  intro outcome ended
  rw [result_stable steps sound ended] at unfinished
  cases unfinished

theorem done_step (steps : Steps system event next) (sound : Sound system)
    (done : system.done task = true) : next.done task = true := by
  rcases Option.isSome_iff_exists.mp done with ⟨outcome, ended⟩
  rw [TaskSystem.done, result_stable steps sound ended]
  rfl

/-- A coroutine that neither is the innermost one nor is resumed stays where it is. -/
theorem point_step (steps : Steps system event next) (made : coro < system.made)
    (still : ¬system.Acts coro) (asleep : ¬Wakes system next coro) :
    (next.coros coro).point = (system.coros coro).point := by
  cases steps with
  | create body userCode named =>
      simp only [point_create]
      grind
  | start userCode named => exact point_start ..
  | observe shape isUser named done => rfl
  | await shape isUser named unfinished =>
      have acts := acts_of_shape shape
      simp only [point_awaitSuspend]
      grind
  | suspend shape isUser => rfl
  | resume userCode sleeps => rfl
  | move order shape moves =>
      have acts := acts_of_shape shape
      simp only [point_goTo]
      grind
  | startNext order shape starts =>
      have acts := acts_of_shape shape
      simp only [point_start, point_goTo]
      grind
  | waitDone order shape waits done =>
      have acts := acts_of_shape shape
      simp only [point_goTo]
      grind
  | wait order shape waits unfinished =>
      have acts := acts_of_shape shape
      simp only [point_awaitSuspend]
      grind
  | nest order shape isPoint =>
      have acts := acts_of_shape shape
      simp only [point_awaitSuspend, point_create]
      grind
  | pollReady order shape polls ready pollsTo =>
      have acts := acts_of_shape shape
      simp only [point_goTo, point_linkAll]
      grind
  | pollSuspend order shape polls unfinished =>
      have acts := acts_of_shape shape
      simp only [point_linkAll, point_goTo]
      grind
  | pollError order shape polls mem notStarted =>
      have acts := acts_of_shape shape
      simp only [point_goTo]
      grind
  | complete shape ends nobody =>
      have acts := acts_of_shape shape
      simp only [point_completed]
      grind
  | wake shape ends linked resumes =>
      have acts := acts_of_shape shape
      simp only [Wakes, result_goTo, point_goTo, coros_woken, point_completed,
        result_completed] at asleep ⊢
      grind
  | wakePoll shape ends linked resumes pollsTo =>
      have acts := acts_of_shape shape
      simp only [Wakes, result_goTo, result_linkAll, point_goTo, point_linkAll, coros_woken,
        point_completed, result_completed] at asleep ⊢
      grind

/-- A task that has been started stays so. -/
theorem started_step (steps : Steps system event next) (made : task < system.made)
    (started : (system.coros task).started = true) : (next.coros task).started = true := by
  cases steps with
  | create body userCode named =>
      simp only [started_create]
      grind
  | nest order shape isPoint =>
      simp only [started_awaitSuspend, started_create]
      grind
  | wake shape ends linked resumes => simpa [coros_woken] using started
  | wakePoll shape ends linked resumes pollsTo => simpa [coros_woken] using started
  | _ => simp [started]

/-- The task that is awaited when a task is started is that task. -/
theorem eq_of_starts (steps : Steps system event next) (made : coro < system.made)
    (notStarted : (system.coros coro).started = false)
    (starts : (next.coros coro).started = true) (awaited : task ∈ system.awaited event) :
    task = coro := by
  cases steps with
  | create body userCode named => exact absurd awaited List.not_mem_nil
  | start userCode named => exact absurd awaited List.not_mem_nil
  | await shape isUser named unfinished =>
      simp only [started_awaitSuspend] at starts
      simp only [TaskSystem.awaited] at awaited
      grind
  | startNext order shape startsNext =>
      rw [awaited_proceed order shape, startsNext.waitsFor_eq] at awaited
      exact absurd awaited List.not_mem_nil
  | wait order shape waits unfinished =>
      rw [awaited_proceed order shape, waits.waitsFor_eq] at awaited
      simp only [started_awaitSuspend] at starts
      grind
  | nest order shape isPoint =>
      simp only [started_awaitSuspend, started_create] at starts
      grind
  | wake shape ends linked resumes => simp [coros_woken, notStarted] at starts
  | wakePoll shape ends linked resumes pollsTo => simp [coros_woken, notStarted] at starts
  | _ => simp [notStarted] at starts

theorem temporary_step (steps : Steps system event next) (made : task < system.made) :
    (next.coros task).temporary = (system.coros task).temporary := by
  cases steps with
  | create body userCode named =>
      simp only [temporary_create]
      grind
  | nest order shape isPoint =>
      simp only [temporary_awaitSuspend, temporary_create]
      grind
  | wake shape ends linked resumes => simp [coros_woken]
  | wakePoll shape ends linked resumes pollsTo => simp [coros_woken]
  | _ => simp

/-- A task is linked and unlinked when it is awaited and when the coroutine that awaits it is
resumed. -/
theorem awaitingCoro_step (steps : Steps system event next) (sound : Sound system) (task : TaskId)
    (made : task < system.made) :
    (next.coros task).awaitingCoro = (system.coros task).awaitingCoro ∨
      task ∈ system.awaited event ∨
      ∃ resumed, Wakes system next resumed ∧ task ∈ (system.coros resumed).point.awaits := by
  cases steps with
  | create body userCode named =>
      simp only [awaitingCoro_create]
      grind
  | await shape isUser named unfinished =>
      simp only [awaitingCoro_awaitSuspend, awaited]
      grind
  | wait order shape waits unfinished =>
      rw [awaited_proceed order shape, waits.waitsFor_eq]
      simp only [awaitingCoro_awaitSuspend]
      grind
  | nest order shape isPoint =>
      simp only [awaitingCoro_awaitSuspend, awaitingCoro_create]
      grind
  | pollReady order shape polls ready pollsTo =>
      rw [awaited_proceed order shape, polls.waitsFor_eq]
      simp only [awaitingCoro_goTo, awaitingCoro_linkAll]
      grind [left_subset]
  | pollSuspend order shape polls unfinished =>
      rw [awaited_proceed order shape, polls.waitsFor_eq]
      simp only [awaitingCoro_linkAll, awaitingCoro_goTo]
      grind
  | wake shape ends linked resumes => exact Or.inl (by simp [coros_woken])
  | @wakePoll coro waiting below tasks outcome point goesOn event shape ends linked resumes
      pollsTo =>
      rw [coros_woken, point_completed, if_neg (sound.suspended shape linked).1] at resumes
      by_cases mem : task ∈ (system.woken coro outcome waiting).left tasks
      · refine Or.inr (Or.inr ⟨waiting, ⟨coro, acts_of_shape shape, linked, ?_⟩, ?_⟩)
        · simp [coros_woken]
        · rw [resumes.suspends.1]
          exact left_subset tasks task mem
      · left
        rw [awaitingCoro_goTo, awaitingCoro_linkAll, if_neg mem, coros_woken,
          awaitingCoro_completed]
  | _ => exact Or.inl (by simp)

/-- A coroutine comes to be suspended on a task by awaiting it, and is then linked to it. -/
theorem awaits_step (steps : Steps system event next) (sound : Sound system) {coro : TaskId}
    (made : task < system.made) (awaits : task ∈ (next.coros coro).point.awaits) :
    task ∈ (system.coros coro).point.awaits ∨
      system.Acts coro ∧ task ∈ system.awaited event ∧
        (next.coros task).awaitingCoro = some coro ∧ (next.coros task).result = none := by
  cases steps with
  | create body userCode named =>
      have nothing : (body.point : Point Value Exc).awaits = [] :=
        Point.awaits_of_not_suspends body.point_begins.2.1
      simp only [point_create] at awaits
      grind
  | start userCode named =>
      rw [point_start] at awaits
      exact Or.inl awaits
  | observe shape isUser named done => exact Or.inl awaits
  | await shape isUser named unfinished =>
      have acts := acts_of_shape shape
      simp only [point_awaitSuspend] at awaits
      simp only [awaitingCoro_awaitSuspend, result_awaitSuspend, awaited]
      grind [Point.awaits]
  | suspend shape isUser => exact Or.inl awaits
  | resume userCode sleeps => exact Or.inl awaits
  | move order shape moves =>
      have nothing := Point.awaits_of_not_suspends moves.not_suspends
      simp only [point_goTo] at awaits
      grind
  | startNext order shape starts =>
      have nothing := Point.awaits_of_not_suspends starts.not_suspends
      simp only [point_start, point_goTo] at awaits
      grind
  | waitDone order shape waits done =>
      have nothing := Point.awaits_of_not_suspends waits.suspends.2.2
      simp only [point_goTo] at awaits
      grind
  | wait order shape waits unfinished =>
      have acts := acts_of_shape shape
      have single := waits.suspends.2.1
      rw [done_eq_false_iff] at unfinished
      simp only [point_awaitSuspend] at awaits
      rw [awaited_proceed order shape, waits.waitsFor_eq]
      simp only [awaitingCoro_awaitSuspend, result_awaitSuspend]
      grind
  | nest order shape isPoint =>
      simp only [point_awaitSuspend, point_create] at awaits
      grind [Point.awaits]
  | @pollReady coro below tasks suspended point goesOn order shape polls ready pollsTo =>
      rcases pollsTo.exists_ret ready with ⟨ret, mem, done, rfl⟩
      have nothing := Point.awaits_of_not_suspends (polls.suspends.2.2 ret (system.left tasks))
      simp only [point_goTo, point_linkAll] at awaits
      grind
  | @pollSuspend coro below tasks suspended goesOn order shape polls unfinished =>
      have acts := acts_of_shape shape
      have several := polls.suspends.2.1
      have unfinishedTask : ∀ task ∈ tasks, (system.coros task).result = none := by
        intro task mem
        exact done_eq_false_iff.mp (unfinished task mem)
      rw [awaited_proceed order shape, polls.waitsFor_eq]
      simp only [point_linkAll, point_goTo] at awaits
      simp only [awaitingCoro_linkAll, result_linkAll, result_goTo]
      grind
  | pollError order shape polls mem notStarted =>
      simp only [point_goTo] at awaits
      grind [Point.awaits]
  | complete shape ends nobody =>
      simp only [point_completed] at awaits
      grind [Point.awaits]
  | @wake coro waiting below outcome point event shape ends linked resumes =>
      have nothing := Point.awaits_of_not_suspends resumes.suspends.2
      simp only [point_goTo, coros_woken, point_completed] at awaits
      grind [Point.awaits]
  | @wakePoll coro waiting below tasks outcome point goesOn event shape ends linked resumes
      pollsTo =>
      rcases sound.pollsTo_ret shape linked resumes pollsTo with ⟨ret, mem, done, rfl⟩
      have nothing := Point.awaits_of_not_suspends
        (resumes.suspends.2 ret ((system.woken coro outcome waiting).left tasks))
      simp only [point_goTo, point_linkAll, coros_woken, point_completed] at awaits
      grind [Point.awaits]

/-- A coroutine that a completion resumes was suspended on the task that completed. -/
theorem Wakes.suspends (wakes : Wakes system next waiting) (sound : Sound system) :
    (system.coros waiting).point.Suspends := by
  rcases wakes with ⟨coro, acts, linked, _⟩
  rcases acts.exists_shape with ⟨below, shape⟩
  exact (sound.suspended shape linked).2.1

/-- How a completion resumes a coroutine. -/
theorem Wakes.resumption (wakes : Wakes system next waiting) (steps : Steps system event next)
    (sound : Sound system) :
    next.Acts waiting ∧ ∃ coro outcome, system.Acts coro ∧ system.Ends coro outcome ∧
      (system.coros coro).awaitingCoro = some waiting ∧ (next.coros coro).result = some outcome ∧
      (∀ task, (next.coros task).started = (system.coros task).started) ∧
      ((system.coros waiting).point.Resumes next (next.coros waiting).point ∨
        ∃ tasks goesOn ret, (system.coros waiting).point.PollResumes tasks goesOn ∧
          ret ∈ tasks ∧ next.done ret = true ∧
          (next.coros waiting).point = goesOn ret (next.left tasks)) := by
  rcases wakes with ⟨completing, acts, isLinked, completed⟩
  rcases acts.exists_shape with ⟨onStack, shapeAll⟩
  have unfinished := (sound.placed.top shapeAll).2.1
  have made := sound.placed.lt_made (sound.placed.top shapeAll).1
  cases steps with
  | create body userCode named =>
      rw [result_create, if_neg (Nat.ne_of_lt made)] at completed
      exact absurd unfinished completed
  | nest order shape isPoint =>
      rw [result_awaitSuspend, result_create, if_neg (Nat.ne_of_lt made)] at completed
      exact absurd unfinished completed
  | complete shape ends nobody =>
      rw [← acts.unique (acts_of_shape shape), isLinked] at nobody
      cases nobody
  | @wake coro resumed below outcome point event shape ends linked resumes =>
      have same := acts.unique (acts_of_shape shape)
      subst same
      rw [isLinked, Option.some.injEq] at linked
      subst linked
      refine ⟨rfl, completing, outcome, acts, ends, isLinked, ?_, fun task => ?_, Or.inl ?_⟩
      · rw [result_goTo, coros_woken, result_completed, if_pos rfl]
      · rw [started_goTo, coros_woken, started_completed]
      · rw [coros_woken, point_completed, if_neg (sound.suspended shape isLinked).1] at resumes
        rw [point_goTo, if_pos rfl]
        exact resumes.congr fun task => (result_goTo ..).symm
  | @wakePoll coro resumed below tasks outcome point goesOn event shape ends linked resumes
      pollsTo =>
      have same := acts.unique (acts_of_shape shape)
      subst same
      rw [isLinked, Option.some.injEq] at linked
      subst linked
      rcases sound.pollsTo_ret shape isLinked resumes pollsTo with ⟨ret, mem, done, rfl⟩
      rw [coros_woken, point_completed, if_neg (sound.suspended shape isLinked).1] at resumes
      refine ⟨rfl, completing, outcome, acts, ends, isLinked, ?_, fun task => ?_,
        Or.inr ⟨tasks, goesOn, ret, resumes, mem, ?_, ?_⟩⟩
      · rw [result_goTo, result_linkAll, coros_woken, result_completed, if_pos rfl]
      · rw [started_goTo, started_linkAll, coros_woken, started_completed]
      · rw [TaskSystem.done, result_goTo, result_linkAll]
        exact done
      · rw [point_goTo, if_pos rfl]
        simp only [left, TaskSystem.done, result_goTo, result_linkAll]
  | _ =>
      refine absurd unfinished ?_
      simpa using completed

/-- A coroutine that a completion resumes executes. -/
theorem Wakes.executes (wakes : Wakes system next waiting) (steps : Steps system event next)
    (sound : Sound system) : ¬(next.coros waiting).point.Suspends := by
  rcases wakes.resumption steps sound with ⟨_, _, _, _, _, _, _, _, resumes |
    ⟨tasks, goesOn, ret, resumes, _, _, isPoint⟩⟩
  · exact resumes.suspends.2
  · rw [isPoint]
    exact resumes.suspends.2 _ _

/-- A coroutine does not get hold of a task, except that an event names the task or that it makes
the task. -/
theorem tasks_step (steps : Steps system event next) (sound : Sound system) {coro : TaskId}
    (has : task ∈ (next.coros coro).point.tasks) :
    task ∈ (system.coros coro).point.tasks ∨ event = .await task ∨
      (∃ first, (next.coros coro).point = .multiAwaitRest first task) ∨
      coro = system.made ∧ ((∃ body, event = .create body ∧ task ∈ body.tasks) ∨
        ∃ actor, system.Acts actor ∧ task ∈ (system.coros actor).point.tasks) := by
  cases steps with
  | create body userCode named =>
      have begins : ∀ task ∈ (body.point : Point Value Exc).tasks, task ∈ body.tasks :=
        body.point_begins.1
      simp only [point_create] at has
      grind
  | start userCode named =>
      rw [point_start] at has
      exact Or.inl has
  | observe shape isUser named done => exact Or.inl has
  | await shape isUser named unfinished =>
      simp only [point_awaitSuspend] at has
      grind [Point.tasks]
  | suspend shape isUser => exact Or.inl has
  | resume userCode sleeps => exact Or.inl has
  | move order shape moves =>
      have subset := moves.tasks_subset
      simp only [point_goTo] at has
      grind
  | startNext order shape starts =>
      have subset := starts.tasks_subset.2
      simp only [point_start, point_goTo] at has
      grind
  | waitDone order shape waits done =>
      have subset := waits.tasks_subset.2.2
      simp only [point_goTo] at has
      grind
  | wait order shape waits unfinished =>
      have subset := waits.tasks_subset.2.1
      simp only [point_awaitSuspend] at has
      grind
  | nest order shape isPoint =>
      have acts := acts_of_shape shape
      simp only [point_awaitSuspend, point_create] at has ⊢
      grind [Point.tasks]
  | @pollReady coro below tasks suspended point goesOn order shape polls ready pollsTo =>
      rcases pollsTo.exists_ret ready with ⟨ret, mem, done, rfl⟩
      have subset := polls.tasks_subset.2.2 ret (system.left tasks) (left_subset tasks)
      simp only [point_goTo, point_linkAll] at has
      grind
  | pollSuspend order shape polls unfinished =>
      have subset := polls.tasks_subset.2.1
      simp only [point_linkAll, point_goTo] at has
      grind
  | pollError order shape polls mem notStarted =>
      simp only [point_goTo] at has
      grind [Point.tasks]
  | complete shape ends nobody =>
      simp only [point_completed] at has
      grind [Point.tasks]
  | @wake coro waiting below outcome point event shape ends linked resumes =>
      have different := (sound.suspended shape linked).1
      rw [coros_woken, point_completed, if_neg different] at resumes
      have subset := resumes.tasks_subset
      simp only [point_goTo, coros_woken, point_completed] at has
      grind [Point.tasks]
  | @wakePoll coro waiting below tasks outcome point goesOn event shape ends linked resumes
      pollsTo =>
      rcases sound.pollsTo_ret shape linked resumes pollsTo with ⟨ret, mem, done, rfl⟩
      have different := (sound.suspended shape linked).1
      rw [coros_woken, point_completed, if_neg different] at resumes
      have subset := resumes.tasks_subset.2 ret ((system.woken coro outcome waiting).left tasks)
        (left_subset tasks)
      simp only [point_goTo, point_linkAll, coros_woken, point_completed] at has
      grind [Point.tasks]

/-- What the innermost coroutine does when it is at a point of one of the library's functions. -/
inductive Advances (system : TaskSystem Value Exc) (coro : TaskId) :
    TaskSystem Value Exc → Prop where
  | move {point : Point Value Exc} (moves : (system.coros coro).point.Moves point) :
      Advances system coro (system.goTo coro point)
  | startNext {task : TaskId} {point : Point Value Exc}
      (starts : (system.coros coro).point.Starts task point) :
      Advances system coro ((system.goTo coro point).start task)
  | waitDone {task : TaskId} {suspended point : Point Value Exc}
      (waits : (system.coros coro).point.Waits task suspended point)
      (done : system.done task = true) : Advances system coro (system.goTo coro point)
  | wait {task : TaskId} {suspended point : Point Value Exc}
      (waits : (system.coros coro).point.Waits task suspended point)
      (unfinished : system.done task = false) :
      Advances system coro (system.awaitSuspend coro task suspended)
  | nest {task first : TaskId} {rest : List TaskId}
      (isPoint : (system.coros coro).point = .multiRest task (first :: rest)) :
      Advances system coro ((system.create (.multiStart first rest) true).awaitSuspend coro
        system.made (.multiAwaitRest task system.made))
  | pollReady {tasks : List TaskId} {suspended : Point Value Exc}
      {goesOn : TaskId → List TaskId → Point Value Exc} {ret : TaskId}
      (polls : (system.coros coro).point.Polls tasks suspended goesOn) (mem : ret ∈ tasks)
      (done : system.done ret = true) :
      Advances system coro
        ((system.linkAll (system.left tasks) none).goTo coro (goesOn ret (system.left tasks)))
  | pollSuspend {below tasks : List TaskId} {suspended : Point Value Exc}
      {goesOn : TaskId → List TaskId → Point Value Exc}
      (polls : (system.coros coro).point.Polls tasks suspended goesOn)
      (unfinished : ∀ task ∈ tasks, system.done task = false) :
      Advances system coro
        { (system.goTo coro suspended).linkAll tasks (some coro) with stack := below }
  | complete {outcome : Outcome Value Exc} {next : TaskSystem Value Exc}
      (ending : (system.coros coro).point = .ending outcome)
      (stays : (next.coros coro).point = .ending outcome)
      (result : (next.coros coro).result = some outcome)
      (startsNone : ∀ task, (next.coros task).started = (system.coros task).started) :
      Advances system coro next

theorem userCodeRuns_eq_false (acts : system.Acts coro)
    (library : (system.coros coro).point ≠ .user) : system.UserCodeRuns = false := by
  rcases acts.exists_shape with ⟨below, shape⟩
  rw [Bool.eq_false_iff]
  exact fun userCode => library (point_of_userCode shape userCode)

theorem Ends.of_library {outcome : Outcome Value Exc} (ends : system.Ends coro outcome)
    (library : (system.coros coro).point ≠ .user) :
    (system.coros coro).point = .ending outcome := by
  rcases ends with ending | ⟨isUser, _⟩
  · exact ending
  · exact absurd isUser library

theorem Acts.advances (acts : system.Acts coro) (steps : Steps system event next)
    (sound : Sound system) (library : (system.coros coro).point ≠ .user) :
    Advances system coro next := by
  have noUserCode := userCodeRuns_eq_false acts library
  cases steps with
  | create body userCode named => simp [noUserCode] at userCode
  | start userCode named => simp [noUserCode] at userCode
  | observe shape isUser named done =>
      exact absurd (acts.unique (acts_of_shape shape) ▸ isUser) library
  | await shape isUser named unfinished =>
      exact absurd (acts.unique (acts_of_shape shape) ▸ isUser) library
  | suspend shape isUser => exact absurd (acts.unique (acts_of_shape shape) ▸ isUser) library
  | resume userCode sleeps => simp [noUserCode] at userCode
  | move order shape moves =>
      cases acts.unique (acts_of_shape shape)
      exact .move moves
  | startNext order shape starts =>
      cases acts.unique (acts_of_shape shape)
      exact .startNext starts
  | waitDone order shape waits done =>
      cases acts.unique (acts_of_shape shape)
      exact .waitDone waits done
  | wait order shape waits unfinished =>
      cases acts.unique (acts_of_shape shape)
      exact .wait waits unfinished
  | nest order shape isPoint =>
      cases acts.unique (acts_of_shape shape)
      exact .nest isPoint
  | pollReady order shape polls ready pollsTo =>
      cases acts.unique (acts_of_shape shape)
      rcases pollsTo.exists_ret ready with ⟨ret, mem, done, rfl⟩
      exact .pollReady polls mem done
  | pollSuspend order shape polls unfinished =>
      cases acts.unique (acts_of_shape shape)
      exact .pollSuspend polls unfinished
  | pollError order shape polls mem notStarted =>
      have started := sound.polled.started _ _ (polls.polled_eq.1 ▸ mem)
      rw [notStarted] at started
      cases started
  | complete shape ends nobody =>
      cases acts.unique (acts_of_shape shape)
      refine .complete (ends.of_library library) ?_ ?_ fun task => started_completed ..
      · rw [point_completed, if_pos rfl]
      · rw [result_completed, if_pos rfl]
  | wake shape ends linked resumes =>
      cases acts.unique (acts_of_shape shape)
      have different := (sound.suspended shape linked).1.symm
      refine .complete (ends.of_library library) ?_ ?_ fun task => ?_
      · rw [point_goTo, if_neg different, coros_woken, point_completed, if_pos rfl]
      · rw [result_goTo, coros_woken, result_completed, if_pos rfl]
      · rw [started_goTo, coros_woken, started_completed]
  | wakePoll shape ends linked resumes pollsTo =>
      cases acts.unique (acts_of_shape shape)
      have different := (sound.suspended shape linked).1.symm
      refine .complete (ends.of_library library) ?_ ?_ fun task => ?_
      · rw [point_goTo, if_neg different, point_linkAll, coros_woken, point_completed, if_pos rfl]
      · rw [result_goTo, result_linkAll, coros_woken, result_completed, if_pos rfl]
      · rw [started_goTo, started_linkAll, coros_woken, started_completed]

/-- A coroutine of the library starts the task that is next at its point, or one that it waits
for. -/
theorem Advances.starts (advances : Advances system coro next) (made : task < system.made)
    (notStarted : (system.coros task).started = false)
    (starts : (next.coros task).started = true) :
    (∃ point, (system.coros coro).point.Starts task point) ∨
      ∃ suspended point, (system.coros coro).point.Waits task suspended point := by
  cases advances with
  | move moves => simp [notStarted] at starts
  | @startNext first point startsFirst =>
      rw [started_start, started_goTo, notStarted, Bool.or_false, decide_eq_true_eq] at starts
      subst starts
      exact Or.inl ⟨point, startsFirst⟩
  | waitDone waits done => simp [notStarted] at starts
  | @wait first suspended point waits unfinished =>
      rw [started_awaitSuspend, notStarted, Bool.or_false, decide_eq_true_eq] at starts
      subst starts
      exact Or.inr ⟨suspended, point, waits⟩
  | nest isPoint =>
      simp [started_create, notStarted, Nat.ne_of_lt made] at starts
  | pollReady polls mem done => simp [notStarted] at starts
  | pollSuspend polls unfinished => simp [notStarted] at starts
  | complete ending stays result startsNone =>
      rw [startsNone, notStarted] at starts
      cases starts

/-- The innermost coroutine goes on by itself at a point of one of the library's functions. -/
theorem Acts.proceeds (acts : system.Acts coro) (stepped : system.step event = some next)
    (library : (system.coros coro).point ≠ .user) :
    ∃ order, system.proceed coro order = some next := by
  have noUserCode := userCodeRuns_eq_false acts library
  rcases acts.exists_shape with ⟨below, shape⟩
  cases event with
  | proceed order =>
      simp only [step, shape] at stepped
      exact ⟨order, stepped⟩
  | _ => simp [step, shape, noUserCode] at stepped

/-- A coroutine that executes and is not the innermost one stays where it is. -/
theorem point_of_still (steps : Steps system event next) (sound : Sound system)
    (made : coro < system.made) (executes : ¬(system.coros coro).point.Suspends)
    (still : ¬system.Acts coro) : (next.coros coro).point = (system.coros coro).point :=
  point_step steps made still fun wakes => executes (wakes.suspends sound)

/-- A coroutine that is suspended and not resumed stays where it is. -/
theorem point_of_asleep (steps : Steps system event next) (sound : Sound system)
    (suspends : (system.coros coro).point.Suspends) (asleep : ¬Wakes system next coro) :
    (next.coros coro).point = (system.coros coro).point := by
  rcases sound.of_suspends suspends with ⟨made, _, _, still⟩
  exact point_step steps made still asleep

/-- The innermost coroutine completes at the end of its body. -/
theorem Acts.completes (acts : system.Acts coro) (steps : Steps system event next)
    (sound : Sound system) {outcome : Outcome Value Exc}
    (isPoint : (system.coros coro).point = .ending outcome) :
    (next.coros coro).point = .ending outcome ∧ (next.coros coro).result = some outcome := by
  cases acts.advances steps sound (by rw [isPoint]; simp) with
  | move moves =>
      rw [isPoint] at moves
      cases moves
  | startNext starts =>
      rw [isPoint] at starts
      cases starts
  | waitDone waits done =>
      rw [isPoint] at waits
      cases waits
  | wait waits unfinished =>
      rw [isPoint] at waits
      cases waits
  | nest isRest =>
      rw [isPoint] at isRest
      cases isRest
  | pollReady polls mem done =>
      rw [isPoint] at polls
      cases polls
  | pollSuspend polls unfinished =>
      rw [isPoint] at polls
      cases polls
  | complete ending stays result startsNone =>
      rw [isPoint] at ending
      cases ending
      exact ⟨stays, result⟩

theorem ending_step (steps : Steps system event next) (sound : Sound system)
    (made : coro < system.made) {outcome : Outcome Value Exc}
    (isPoint : (system.coros coro).point = .ending outcome) :
    (next.coros coro).point = .ending outcome := by
  by_cases acts : system.Acts coro
  · exact (acts.completes steps sound isPoint).1
  · rw [point_of_still steps sound made (by rw [isPoint]; exact id) acts, isPoint]

/-- A completion is never refused: the coroutine that it resumes is suspended on the task that
completed. -/
theorem Sound.complete_isSome (sound : Sound system) (shape : system.stack = coro :: below)
    (outcome : Outcome Value Exc) (order : IterationOrder) :
    (system.complete coro outcome order).isSome = true := by
  simp only [complete]
  split
  case h_1 => rfl
  case h_2 waiting linked =>
    rcases sound.suspended shape linked with ⟨different, suspends, awaits⟩
    have point_eq : ((system.completed coro outcome).coros waiting).point =
        (system.coros waiting).point := by
      rw [point_completed, if_neg different]
    have done : ((system.completed coro outcome).coros coro).result = some outcome := by
      rw [result_completed, if_pos rfl]
    simp only [TaskSystem.completed] at point_eq done
    simp only [awaitResume, point_eq]
    cases isPoint : (system.coros waiting).point with
    | userAwait task =>
        rw [isPoint, Point.awaits, List.mem_singleton] at awaits
        simp [← awaits]
    | multiAwaitRest task nested =>
        rw [isPoint, Point.awaits, List.mem_singleton] at awaits
        simp [← awaits]
    | allAwait task toWait => rfl
    | multiAwait task => rfl
    | anyAwait tasks => rfl
    | limitAwait toStart parallelism tasks => rfl
    | _ =>
        rw [isPoint] at suspends
        exact absurd suspends id

/-- The innermost coroutine goes on if it is at a point of one of the library's functions. -/
theorem Acts.proceed_isSome (acts : system.Acts coro) (sound : Sound system)
    (library : (system.coros coro).point ≠ .user) (order : IterationOrder) :
    (system.step (.proceed order)).isSome = true := by
  rcases acts.exists_shape with ⟨below, shape⟩
  have executes := (sound.placed.top shape).2.2
  simp only [step, shape, proceed]
  cases isPoint : (system.coros coro).point with
  | user => exact absurd isPoint library
  | allStart toStart range => cases toStart <;> rfl
  | allWait toWait => cases toWait <;> rfl
  | multiStart task rest => rfl
  | multiRest task rest => cases rest <;> rfl
  | multiWait task => rfl
  | anyStart toStart tasks => cases toStart <;> rfl
  | anyAdd task toStart tasks => rfl
  | limitLoop toStart parallelism tasks =>
      cases toStart with
      | nil => cases tasks <;> rfl
      | cons task toStart =>
          simp only
          split <;> rfl
  | limitAdd task toStart parallelism tasks => rfl
  | ending outcome => exact sound.complete_isSome shape outcome order
  | _ =>
      rw [isPoint] at executes
      exact absurd trivial executes

end TaskSystem

end EventAsync
