import EventAsync.TaskOwnership

/-!
# `all_limit`

`all_limit` starts the tasks of a range in order and waits whenever as many of
them as it may have are started and not done.  The tasks that it waits for are
in the set of its `AnyAwaiter`, from which `await_resume` takes those that are
done; what remains between two waits is what the invariant of this file says.
-/

namespace EventAsync

variable {Value Exc : Type}

namespace TaskSystem

variable {system next : TaskSystem Value Exc} {coro task : TaskId}
  {event : TaskEvent Value Exc} {range begun held : List TaskId} {parallelism : ℕ}

/-- The tasks of a range that have been started, in the order in which they were. -/
def startedOf (system : TaskSystem Value Exc) (range : List TaskId) : List TaskId :=
  system.startedTasks.filter fun task => task ∈ range

theorem startedOf_of_same (same : next.startedTasks = system.startedTasks) (range : List TaskId) :
    next.startedOf range = system.startedOf range := by
  rw [startedOf, same, startedOf]

theorem mem_startedOf (traced : Traced system) :
    task ∈ system.startedOf range ↔ task ∈ range ∧ (system.coros task).started = true := by
  rw [startedOf, List.mem_filter, traced.mem_startedTasks, decide_eq_true_eq, and_comm]

/-- A step that starts no task of the range. -/
theorem startedOf_step (steps : Steps system event next) (sound : Sound system)
    (startsNone : ∀ task ∈ range, (system.coros task).started = false →
      (next.coros task).started = false) : next.startedOf range = system.startedOf range := by
  rcases startedTasks_step steps sound with ⟨same, _⟩ | ⟨task, grown, notStarted, starts⟩
  · exact startedOf_of_same same range
  · have notMem : task ∉ range := by
      intro mem
      have stays := startsNone task mem notStarted
      simp [starts] at stays
    rw [startedOf, grown, List.filter_append, startedOf]
    simp [notMem]

end TaskSystem

namespace AllLimit

open TaskSystem

variable {system next : TaskSystem Value Exc} {coro task : TaskId}
  {event : TaskEvent Value Exc} {range begun held : List TaskId} {parallelism : ℕ}

/-- Where `all_limit` is in its loop, with the tasks that it has begun to start and the tasks that
its `AnyAwaiter` has or is about to have. -/
inductive At (range : List TaskId) (parallelism : ℕ) :
    Point Value Exc → List TaskId → List TaskId → Prop where
  | loop {begun toStart tasks : List TaskId} (split : range = begun ++ toStart) :
      At range parallelism (.limitLoop toStart parallelism tasks) begun tasks
  | add {begun toStart tasks : List TaskId} {task : TaskId}
      (split : range = begun ++ task :: toStart) :
      At range parallelism (.limitAdd task toStart parallelism tasks) (begun ++ [task])
        (task :: tasks)
  | await {begun toStart tasks : List TaskId} (split : range = begun ++ toStart) :
      At range parallelism (.limitAwait toStart parallelism tasks) begun tasks
  | ending : At range parallelism (.ending .void) range []

/-- The tasks that have been started are done or held, and at most `parallelism` are held. -/
structure Keeps (range : List TaskId) (parallelism : ℕ) (system : TaskSystem Value Exc)
    (begun held : List TaskId) : Prop where
  order : system.startedOf range = begun.eraseDups
  settled : ∀ task ∈ begun, system.done task = true ∨ task ∈ held
  begun : ∀ task ∈ held, task ∈ begun
  bounded : held.toFinset.card ≤ parallelism

theorem eraseDups_append_singleton (tasks : List TaskId) (task : TaskId) :
    (tasks ++ [task]).eraseDups =
      if task ∈ tasks then tasks.eraseDups else tasks.eraseDups ++ [task] := by
  rw [List.eraseDups_append]
  by_cases mem : task ∈ tasks
  · simp [mem, List.removeAll]
  · simp [mem, List.removeAll, List.eraseDups_cons]

theorem At.begun_prefix {point : Point Value Exc} (isAt : At range parallelism point begun held) :
    begun <+: range := by
  cases isAt with
  | loop split => exact ⟨_, split.symm⟩
  | @add begun toStart tasks task split => exact ⟨toStart, by rw [split]; simp⟩
  | await split => exact ⟨_, split.symm⟩
  | ending => exact List.prefix_rfl

theorem At.ne_user {point : Point Value Exc} (isAt : At range parallelism point begun held) :
    point ≠ .user := by
  cases isAt <;> simp

namespace Keeps

/-- Tasks that are done leave the set. -/
theorem mono {fewer : List TaskId} (keeps : Keeps range parallelism system begun held)
    (order : next.startedOf range = system.startedOf range)
    (done : ∀ task, system.done task = true → next.done task = true)
    (kept : ∀ task ∈ held, next.done task = true ∨ task ∈ fewer)
    (subset : ∀ task ∈ fewer, task ∈ held) : Keeps range parallelism next begun fewer := by
  refine ⟨order.trans keeps.order, ?_, fun task mem => keeps.begun task (subset task mem), ?_⟩
  · intro task mem
    rcases keeps.settled task mem with isDone | isHeld
    · exact Or.inl (done task isDone)
    · exact kept task isHeld
  · refine le_trans (Finset.card_le_card ?_) keeps.bounded
    intro task mem
    rw [List.mem_toFinset] at mem ⊢
    exact subset task mem

theorem mem_begun (keeps : Keeps range parallelism system begun held) (traced : Traced system)
    (mem : task ∈ range) : task ∈ begun ↔ (system.coros task).started = true := by
  rw [← List.mem_eraseDups, ← keeps.order, mem_startedOf traced]
  exact and_iff_right mem

/-- The next task of the range is started and will be added to the set. -/
theorem startNext (keeps : Keeps range parallelism system begun held) (traced : Traced system)
    (mem : task ∈ range) (room : held.length < parallelism) (point : Point Value Exc) :
    Keeps range parallelism ((system.goTo coro point).start task) (begun ++ [task])
      (task :: held) := by
  constructor
  · rw [eraseDups_append_singleton, ← keeps.order, startedOf, startedTasks, trace_start,
      started_goTo]
    have trace_eq : (system.goTo coro point).trace = system.trace := rfl
    rw [trace_eq]
    by_cases started : (system.coros task).started = true
    · rw [if_pos started, if_pos ((keeps.mem_begun traced mem).mpr started)]
      rfl
    · rw [if_neg started, if_neg (mt (keeps.mem_begun traced mem).mp started),
        List.filterMap_append, List.filter_append]
      simp [TaskTrace.startedTask, mem, startedOf, startedTasks]
  · intro other begunToo
    rw [TaskSystem.done, result_start, result_goTo]
    rcases List.mem_append.mp begunToo with earlier | same
    · rcases keeps.settled other earlier with isDone | isHeld
      · exact Or.inl isDone
      · exact Or.inr (List.mem_cons_of_mem task isHeld)
    · rw [List.mem_singleton.mp same]
      exact Or.inr (List.mem_cons_self ..)
  · intro other isHeld
    rcases List.mem_cons.mp isHeld with rfl | earlier
    · exact List.mem_append_right begun (List.mem_singleton_self other)
    · exact List.mem_append_left [task] (keeps.begun other earlier)
  · rw [List.toFinset_cons]
    have cards := Finset.card_insert_le task held.toFinset
    have lengths := held.toFinset_card_le
    omega

end Keeps

/-- `all_limit` at some point of its run. -/
def Runs (coro : TaskId) (range : List TaskId) (parallelism : ℕ)
    (system : TaskSystem Value Exc) : Prop :=
  ∃ begun held, At range parallelism (system.coros coro).point begun held ∧
    Keeps range parallelism system begun held

/-- Nobody else starts a task of the range before `all_limit` does. -/
def StartsAlone (coro : TaskId) (range : List TaskId) (system : TaskSystem Value Exc)
    (event : TaskEvent Value Exc) : Prop :=
  system.done coro = false → ∀ next, system.step event = some next → ∀ task ∈ range,
    (system.coros task).started = false → (next.coros task).started = true → system.Acts coro

theorem runs_advance (advances : Advances system coro next) (steps : Steps system event next)
    (sound : Sound system) (traced : Traced system)
    (isAt : At range parallelism (system.coros coro).point begun held)
    (keeps : Keeps range parallelism system begun held) : Runs coro range parallelism next := by
  have quiet : ∀ point, Keeps range parallelism (system.goTo coro point) begun held := by
    intro point
    refine keeps.mono rfl ?_ (fun task mem => Or.inr mem) (fun task mem => mem)
    intro task isDone
    rwa [TaskSystem.done, result_goTo]
  generalize isPoint : (system.coros coro).point = point at isAt
  cases advances with
  | move moves =>
      rw [isPoint] at moves
      cases moves <;> cases isAt
      case limitAdds.add task toStart tasks begun split =>
        refine ⟨begun ++ [task], AnyAwaiter.addTask tasks task, ?_, ?_⟩
        · rw [point_goTo, if_pos rfl]
          exact .loop (by rw [split]; simp)
        · refine (quiet _).mono rfl (fun other isDone => isDone) ?_ ?_
          · intro other mem
            rw [Point.mem_addTask]
            exact Or.inr ((List.mem_cons.mp mem).symm)
          · intro other mem
            rw [Point.mem_addTask] at mem
            exact List.mem_cons.mpr mem.symm
      case limitEnds.loop split =>
        rw [List.append_nil] at split
        refine ⟨range, [], ?_, split ▸ quiet _⟩
        rw [point_goTo, if_pos rfl]
        exact .ending
  | startNext starts =>
      rw [isPoint] at starts
      cases starts <;> cases isAt
      case limit.loop task toStart split room =>
        refine ⟨_, _, ?_, keeps.startNext traced ?_ room _⟩
        · rw [point_start, point_goTo, if_pos rfl]
          exact .add split
        · rw [split]
          simp
  | waitDone waits done =>
      rw [isPoint] at waits
      cases waits <;> cases isAt
  | wait waits unfinished =>
      rw [isPoint] at waits
      cases waits <;> cases isAt
  | nest isRest =>
      rw [isPoint] at isRest
      subst isRest
      cases isAt
  | @pollReady tasks suspended goesOn ret polls mem done =>
      rw [isPoint] at polls
      cases polls <;> cases isAt
      case limit.loop toStart split waits nonempty =>
        refine ⟨begun, system.left held, ?_, ?_⟩
        · rw [point_goTo, if_pos rfl]
          exact .loop split
        · refine keeps.mono rfl ?_ ?_ (left_subset held)
          · intro task isDone
            rwa [TaskSystem.done, result_goTo, result_linkAll]
          · intro task isHeld
            rw [TaskSystem.done, result_goTo, result_linkAll]
            exact done_or_mem_left isHeld
  | pollSuspend polls unfinished =>
      rw [isPoint] at polls
      cases polls <;> cases isAt
      case limit.loop toStart split waits nonempty =>
        refine ⟨begun, held, ?_, ?_⟩
        · rw [point_linkAll, point_goTo, if_pos rfl]
          exact .await split
        · refine keeps.mono rfl ?_ (fun task mem => Or.inr mem) (fun task mem => mem)
          intro task isDone
          rwa [TaskSystem.done, result_linkAll, result_goTo]
  | complete ending stays result startsNone =>
      rw [isPoint] at ending
      subst ending
      cases isAt
      refine ⟨range, [], ?_, ?_⟩
      · rw [stays]
        exact .ending
      · refine keeps.mono ?_ (fun task => done_step steps sound) (fun task mem => Or.inr mem)
          (fun task mem => mem)
        refine startedOf_step steps sound ?_
        intro task _ notStarted
        rw [startsNone, notStarted]

theorem runs_wake (wakes : Wakes system next coro) (steps : Steps system event next)
    (sound : Sound system) (isAt : At range parallelism (system.coros coro).point begun held)
    (keeps : Keeps range parallelism system begun held) : Runs coro range parallelism next := by
  rcases wakes.resumption steps sound with ⟨_, completing, outcome, acts, _, linked, _, startsNone,
    resumes | ⟨tasks, goesOn, ret, resumes, _, _, isNext⟩⟩
  · generalize (system.coros coro).point = point at isAt resumes
    generalize (next.coros coro).point = after at resumes
    cases resumes <;> cases isAt
  · generalize (system.coros coro).point = point at isAt resumes
    cases resumes with
    | any => cases isAt
    | limit toStart _ tasks =>
        cases isAt with
        | await split =>
            refine ⟨begun, next.left held, ?_, ?_⟩
            · rw [isNext]
              exact .loop split
            · refine keeps.mono ?_ (fun task => done_step steps sound)
                (fun task isHeld => done_or_mem_left isHeld) (left_subset held)
              refine startedOf_step steps sound ?_
              intro task _ notStarted
              rw [startsNone, notStarted]

/-- Tasks of the range are started by `all_limit` only. -/
theorem runs_step (supervised : Supervised coro range system)
    (alone : StartsAlone coro range system event)
    (stepped : system.step event = some next) (runs : Runs coro range parallelism system) :
    Runs coro range parallelism next := by
  have steps := steps_of_step stepped
  have sound := supervised.coherent.sound
  have traced := supervised.coherent.traced
  rcases runs with ⟨begun, held, isAt, keeps⟩
  by_cases acts : system.Acts coro
  · exact runs_advance (acts.advances steps sound isAt.ne_user) steps sound traced isAt keeps
  by_cases wakes : Wakes system next coro
  · exact runs_wake wakes steps sound isAt keeps
  refine ⟨begun, held, ?_, ?_⟩
  · rw [point_step steps supervised.made acts wakes]
    exact isAt
  · refine keeps.mono ?_ (fun task => done_step steps sound) (fun task mem => Or.inr mem)
      (fun task mem => mem)
    refine startedOf_step steps sound ?_
    intro task mem notStarted
    rw [Bool.eq_false_iff]
    intro starts
    cases isDone : system.done coro with
    | false => exact acts (alone isDone next stepped task mem notStarted starts)
    | true =>
        rcases Option.isSome_iff_exists.mp isDone with ⟨outcome, ended⟩
        rw [sound.placed.done coro outcome ended] at isAt
        cases isAt
        rw [(keeps.mem_begun traced mem).mp mem] at notStarted
        cases notStarted

/-- What `all_limit` promises, in every state. -/
structure Contract (coro : TaskId) (range : List TaskId) (parallelism : ℕ)
    (system : TaskSystem Value Exc) : Prop where
  /-- A range that has no task twice is not changed by `eraseDups`. -/
  inOrder : system.startedOf range <+: range.eraseDups
  startedOnce : (system.startedOf range).Nodup
  bounded : (range.toFinset.filter fun task =>
    (system.coros task).started = true ∧ system.done task = false).card ≤ parallelism
  suspended : (system.coros coro).point.Suspends → ∃ toStart tasks,
    (system.coros coro).point = .limitAwait toStart parallelism tasks ∧
      (∀ task, task ∈ tasks ↔
        task ∈ range ∧ (system.coros task).started = true ∧ system.done task = false) ∧
      ∀ task ∈ tasks, (system.coros task).awaitingCoro = some coro
  running : ¬(system.coros coro).point.Suspends → ∀ task ∈ range, system.done task = false →
    (system.coros task).awaitingCoro ≠ some coro
  goesOn : system.Acts coro → ∀ order, (system.step (.proceed order)).isSome = true
  returned : ∀ outcome, (system.coros coro).result = some outcome →
    outcome = .void ∧ ∀ task ∈ range, system.startedTasks.count task = 1 ∧
      system.done task = true

theorem Keeps.unfinished_held (keeps : Keeps range parallelism system begun held)
    (traced : Traced system) (mem : task ∈ range) (started : (system.coros task).started = true)
    (unfinished : system.done task = false) : task ∈ held := by
  rcases keeps.settled task ((keeps.mem_begun traced mem).mpr started) with isDone | isHeld
  · rw [unfinished] at isDone
    cases isDone
  · exact isHeld

theorem contract_of_runs (supervised : Supervised coro range system)
    (runs : Runs coro range parallelism system) : Contract coro range parallelism system := by
  have sound := supervised.coherent.sound
  have traced := supervised.coherent.traced
  rcases runs with ⟨begun, held, isAt, keeps⟩
  have inRange : ∀ task ∈ begun, task ∈ range := fun task mem => isAt.begun_prefix.subset mem
  constructor
  · rcases isAt.begun_prefix with ⟨toStart, split⟩
    rw [keeps.order, ← split, List.eraseDups_append]
    exact List.prefix_append ..
  · exact traced.nodup.filter _
  · refine le_trans (Finset.card_le_card ?_) keeps.bounded
    intro task mem
    rw [Finset.mem_filter, List.mem_toFinset] at mem
    rw [List.mem_toFinset]
    exact keeps.unfinished_held traced mem.1 mem.2.1 mem.2.2
  · intro suspends
    rcases sound.of_suspends suspends with ⟨_, started, unfinished, _⟩
    have owned := supervised.owned started (done_eq_false_iff.mpr unfinished)
    have awaits := owned.awaits coro
    generalize isPoint : (system.coros coro).point = point at isAt suspends awaits
    cases isAt with
    | @await begun toStart tasks split =>
        refine ⟨toStart, held, rfl, ?_, ?_⟩
        · intro task
          constructor
          · intro mem
            have memRange := inRange task (keeps.begun task mem)
            exact ⟨memRange, (keeps.mem_begun traced memRange).mp (keeps.begun task mem),
              done_eq_false_iff.mpr (awaits task memRange mem).2.2⟩
          · rintro ⟨mem, started, unfinished⟩
            exact keeps.unfinished_held traced mem started unfinished
        · intro task mem
          exact (awaits task (inRange task (keeps.begun task mem)) mem).2.1
    | _ => exact absurd suspends id
  · intro executes task mem unfinished linked
    exact sound.linked.unlinked executes task linked (done_eq_false_iff.mp unfinished)
  · intro acts order
    exact acts.proceed_isSome sound isAt.ne_user order
  · intro outcome ended
    rw [sound.placed.done coro outcome ended] at isAt
    cases isAt
    refine ⟨rfl, ?_⟩
    intro task mem
    refine ⟨traced.count_eq_one ((keeps.mem_begun traced mem).mp mem), ?_⟩
    rcases keeps.settled task mem with isDone | isHeld
    · exact isDone
    · exact absurd isHeld List.not_mem_nil

/-- For every range of tasks that are not started and that nobody else starts or awaits until
`all_limit` is done, whatever else the program does and in whatever order the tasks complete. -/
theorem contract_throughout {system start : TaskSystem Value Exc} {range : List TaskId}
    {parallelism : ℕ} {before events : List (TaskEvent Value Exc)}
    (reached : Transition.run step init before = some system)
    (called : system.step (.create (.allLimit range parallelism)) = some start)
    (notStarted : ∀ task ∈ range, (system.coros task).started = false)
    (alone : Transition.Along step (fun system' event =>
      Undisturbed system.made range system' event ∧ StartsAlone system.made range system' event)
      start events) :
    Transition.Throughout step (Contract system.made range parallelism) start events := by
  have supervised : Supervised system.made range start :=
    supervised_call reached called
  have created := eq_create called
  have initial : Runs system.made range parallelism start := by
    refine ⟨[], [], ?_, ?_⟩
    · rw [created, point_create, if_pos rfl]
      exact .loop rfl
    · refine ⟨?_, by simp, by simp, by simp⟩
      rw [List.eraseDups_nil, List.eq_nil_iff_forall_not_mem]
      intro task mem
      rcases (mem_startedOf supervised.coherent.traced).mp mem with ⟨memRange, started⟩
      rw [created, started_create] at started
      split at started
      · cases started
      · rw [notStarted task memRange] at started
        cases started
  have invariant : Transition.Throughout step (fun state =>
      Supervised system.made range state ∧ Runs system.made range parallelism state)
      start events := by
    refine Transition.throughout_of_along ?_ ⟨supervised, initial⟩ alone
    rintro state event next ⟨supervisedState, runs⟩ ⟨undisturbed, startsAlone⟩ stepped
    exact ⟨supervised_step supervisedState undisturbed stepped,
      runs_step supervisedState startsAlone stepped runs⟩
  exact invariant.mono fun state holds => contract_of_runs holds.1 holds.2

/-- A check for the second condition: nobody but the coroutine starts a task of the range. -/
def startsAloneCheck (coro : TaskId) (range : List TaskId) (system : TaskSystem Value Exc)
    (event : TaskEvent Value Exc) : Bool :=
  system.stack.head? == some coro || (system.step event).all fun next =>
    range.all fun task => (system.coros task).started || !(next.coros task).started

theorem startsAlone_of_check (passes : startsAloneCheck coro range system event = true) :
    StartsAlone coro range system event := by
  intro _ next stepped task mem notStarted starts
  simp only [startsAloneCheck, Bool.or_eq_true, beq_iff_eq] at passes
  rcases passes with acts | quiet
  · exact acts
  · have stays := List.all_eq_true.mp ((Option.all_eq_true _ _).mp quiet next stepped) task mem
    simp [notStarted, starts] at stays

/-- Two tasks are started and wait for something.  The second one completes first, and the third
one is started in its place, which completes before the first one. -/
def secondThirdFirst : List (TaskEvent Unit Unit) :=
  [.proceed .insertion, .suspend, .proceed .insertion, .proceed .insertion, .suspend,
    .proceed .insertion, .proceed .insertion, .resume 1, .finish (.ok ()) .insertion,
    .proceed .insertion, .suspend, .proceed .insertion, .proceed .insertion, .resume 2,
    .finish (.error ()) .insertion, .proceed .insertion, .resume 0, .finish (.ok ()) .insertion,
    .proceed .insertion, .proceed .insertion]

theorem alone_secondThirdFirst : Transition.Along step
    (fun state event => Undisturbed 3 [0, 1, 2] state event ∧ StartsAlone 3 [0, 1, 2] state event)
    (calledOn (.allLimit [0, 1, 2] 2)) (.start 3 :: secondThirdFirst) := by
  have sound : ∀ (state : TaskSystem Unit Unit) event,
      (undisturbedCheck 3 [0, 1, 2] state event && startsAloneCheck 3 [0, 1, 2] state event) =
        true → Undisturbed 3 [0, 1, 2] state event ∧ StartsAlone 3 [0, 1, 2] state event := by
    intro state event passes
    rw [Bool.and_eq_true] at passes
    exact ⟨undisturbed_of_check passes.1, startsAlone_of_check passes.2⟩
  apply Transition.along_cons
  · exact ⟨undisturbed_start _, startsAlone_of_check (by decide +kernel)⟩
  · rintro state ⟨⟩
    exact Transition.along_of_checkAlong sound (by decide +kernel)

theorem contract_secondThirdFirst :
    Transition.Throughout step (Contract 3 [0, 1, 2] 2) (calledOn (.allLimit [0, 1, 2] 2))
      (.start 3 :: secondThirdFirst) ∧
    (∃ waiting, Transition.run step (calledOn (.allLimit [0, 1, 2] 2))
        (.start 3 :: secondThirdFirst.take 7) = some waiting ∧
      (waiting.coros 3).point = .limitAwait [2] 2 [0, 1]) ∧
    ∃ final, Transition.run step (calledOn (.allLimit [0, 1, 2] 2))
        (.start 3 :: secondThirdFirst) = some final ∧
      (final.coros 3).result = some .void ∧ final.startedTasks = [3, 0, 1, 2] := by
  refine ⟨?_, ⟨_, rfl, rfl⟩, _, rfl, rfl, rfl⟩
  refine contract_throughout run_threeTasks rfl ?_ alone_secondThirdFirst
  decide

end AllLimit

end EventAsync
