import EventAsync.TaskOwnership

/-!
# `any`

`any` starts the tasks of a range, waits on all of them at once and returns the
one that completed.  While it waits every task of the range is linked to it;
the first completion resumes it and it is unlinked from the others.
-/

namespace EventAsync

variable {Value Exc : Type}

namespace Any

open TaskSystem

variable {system next : TaskSystem Value Exc} {coro task : TaskId}
  {event : TaskEvent Value Exc} {range : List TaskId}

/-- Where `any` is in its body. -/
inductive At (range : List TaskId) : Point Value Exc → Prop where
  | start {begun toStart tasks : List TaskId} (split : range = begun ++ toStart)
      (held : ∀ task, task ∈ tasks ↔ task ∈ begun) : At range (.anyStart toStart tasks)
  | add {begun toStart tasks : List TaskId} {task : TaskId}
      (split : range = begun ++ task :: toStart) (held : ∀ task, task ∈ tasks ↔ task ∈ begun) :
      At range (.anyAdd task toStart tasks)
  | await {tasks : List TaskId} (held : ∀ task, task ∈ tasks ↔ task ∈ range) :
      At range (.anyAwait tasks)
  | ending {ret : TaskId} (mem : ret ∈ range) : At range (.ending (.task ret))

/-- The coroutine was resumed once, by the completion of the task, and no task of the range had
completed before. -/
def FirstToComplete (coro : TaskId) (range : List TaskId) (task : TaskId)
    (system : TaskSystem Value Exc) : Prop :=
  ∃ earlier outcome later,
    system.trace = earlier ++ .completed task outcome :: .resumed coro task :: later ∧
      (∀ other ∈ range, ∀ outcome, .completed other outcome ∉ earlier) ∧
      ∀ other, .resumed coro other ∉ earlier ∧ .resumed coro other ∉ later

/-- `any` at some point of its run. -/
structure Runs (coro : TaskId) (range : List TaskId) (system : TaskSystem Value Exc) : Prop where
  isAt : At range (system.coros coro).point
  ending : ∀ ret, (system.coros coro).point = .ending (.task ret) → system.done ret = true ∧
    ∀ task ∈ range, (system.coros task).started = true
  resumed : ∀ ret, .resumed coro ret ∈ system.trace →
    (system.coros coro).point = .ending (.task ret) ∧ FirstToComplete coro range ret system

theorem At.ne_user {point : Point Value Exc} (isAt : At range point) : point ≠ .user := by
  cases isAt <;> simp

theorem FirstToComplete.step (first : FirstToComplete coro range task system)
    (steps : Steps system event next) (sound : Sound system) (asleep : ¬Wakes system next coro) :
    FirstToComplete coro range task next := by
  rcases first with ⟨earlier, outcome, later, isTrace, noneEarlier, once⟩
  rcases trace_step steps sound with ⟨added, grows, records⟩
  refine ⟨earlier, outcome, later ++ added, ?_, noneEarlier, fun other => ⟨(once other).1, ?_⟩⟩
  · rw [grows, isTrace]
    simp
  · intro mem
    rcases List.mem_append.mp mem with before | new
    · exact (once other).2 before
    · exact asleep (records.wakes new)

/-- Where a step that does not resume `any` leads it. -/
theorem Runs.of_asleep (runs : Runs coro range system) (steps : Steps system event next)
    (sound : Sound system) (asleep : ¬Wakes system next coro)
    (isAt : At range (next.coros coro).point)
    (ending : ∀ ret, (next.coros coro).point = .ending (.task ret) → next.done ret = true ∧
      ∀ task ∈ range, (next.coros task).started = true)
    (stays : ∀ ret, (system.coros coro).point = .ending (.task ret) →
      (next.coros coro).point = .ending (.task ret)) : Runs coro range next := by
  refine ⟨isAt, ending, ?_⟩
  intro ret mem
  rcases trace_step steps sound with ⟨added, grows, records⟩
  rw [grows] at mem
  rcases List.mem_append.mp mem with before | new
  · rcases runs.resumed ret before with ⟨isEnding, first⟩
    exact ⟨stays ret isEnding, first.step steps sound asleep⟩
  · exact absurd (records.wakes new) asleep

theorem runs_advance (acts : system.Acts coro) (steps : Steps system event next)
    (sound : Sound system) (runs : Runs coro range system) : Runs coro range next := by
  have asleep : ¬Wakes system next coro :=
    fun wakes => (acts.executes sound).2.2 (wakes.suspends sound)
  have isAt := runs.isAt
  have started := sound.polled.started coro
  have advances := acts.advances steps sound isAt.ne_user
  generalize isPoint : (system.coros coro).point = point at isAt started
  cases advances with
  | move moves =>
      rw [isPoint] at moves
      cases moves <;> cases isAt
      case anyAdds.add task toStart tasks begun split held =>
        have isAfter : At range (Point.anyStart toStart (AnyAwaiter.addTask tasks task) :
            Point Value Exc) := by
          refine .start (by rw [split, List.append_cons]) fun other => ?_
          rw [Point.mem_addTask, held, List.mem_append, List.mem_singleton]
        apply runs.of_asleep steps sound asleep
        · rwa [point_goTo, if_pos rfl]
        · simp
        · simp [isPoint]
  | startNext starts =>
      rw [isPoint] at starts
      cases starts <;> cases isAt
      case any.start task toStart tasks begun split held =>
        apply runs.of_asleep steps sound asleep
        · rw [point_start, point_goTo, if_pos rfl]
          exact .add split held
        · simp
        · simp [isPoint]
  | waitDone waits done =>
      rw [isPoint] at waits
      cases waits <;> cases isAt
  | wait waits unfinished =>
      rw [isPoint] at waits
      cases waits <;> cases isAt
  | nest isRest =>
      rw [isPoint] at isRest
      subst isRest
      cases isAt
  | @pollReady tasks suspended goesOn ret polls mem done =>
      rw [isPoint] at polls
      cases polls <;> cases isAt
      case any.start begun split held =>
        rw [List.append_nil] at split
        subst split
        apply runs.of_asleep steps sound asleep
        · rw [point_goTo, if_pos rfl]
          exact .ending ((held ret).mp mem)
        · intro returned isReturned
          rw [point_goTo, if_pos rfl] at isReturned
          cases isReturned
          refine ⟨done_step steps sound done, fun task memRange => ?_⟩
          rw [started_goTo, started_linkAll]
          exact started task ((held task).mpr memRange)
        · simp [isPoint]
  | pollSuspend polls unfinished =>
      rw [isPoint] at polls
      cases polls <;> cases isAt
      case any.start begun split held =>
        rw [List.append_nil] at split
        subst split
        apply runs.of_asleep steps sound asleep
        · rw [point_linkAll, point_goTo, if_pos rfl]
          exact .await held
        · simp
        · simp [isPoint]
  | complete ending stays result startsNone =>
      rw [isPoint] at ending
      subst ending
      apply runs.of_asleep steps sound asleep
      · rwa [stays]
      · intro ret isEnding
        rw [stays] at isEnding
        rcases runs.ending ret (isPoint.trans isEnding) with ⟨done, startedAll⟩
        refine ⟨done_step steps sound done, fun task mem => ?_⟩
        rw [startsNone, startedAll task mem]
      · intro ret isEnding
        rw [stays, ← isPoint, isEnding]

theorem runs_wake (wakes : Wakes system next coro) (steps : Steps system event next)
    (coherent : Coherent system) (owned : Owned coro range system)
    (runs : Runs coro range system) : Runs coro range next := by
  have sound := coherent.sound
  have suspends := wakes.suspends sound
  have isAt := runs.isAt
  have awaits := owned.awaits coro
  have linked := sound.linked
  have started := sound.polled.started coro
  have quiet : ∀ ret, .resumed coro ret ∉ system.trace := by
    intro ret mem
    rw [(runs.resumed ret mem).1] at suspends
    exact suspends
  rcases wakes.trace steps sound with
    ⟨completing, outcome, added, acts, isLinked, done, grows, quietAfter⟩
  rcases wakes.resumption steps sound with ⟨_, _, _, _, _, _, _, startsNone,
    resumes | ⟨tasks, goesOn, ret, resumes, mem, retDone, isNext⟩⟩
  · generalize (system.coros coro).point = point at isAt resumes
    generalize (next.coros coro).point = after at resumes
    cases resumes <;> cases isAt
  have completingAwaited := linked completing coro isLinked (acts.executes sound).2.1
  generalize (system.coros coro).point = point at isAt resumes awaits started completingAwaited
  cases resumes with
  | limit => cases isAt
  | any =>
      cases isAt with
      | await held =>
          have unfinished : ∀ task ∈ range, (system.coros task).result = none :=
            fun task memRange => (awaits task memRange ((held task).mpr memRange)).2.2
          have same : ret = completing := by
            have memRange := (held ret).mp mem
            rcases result_step steps ret (owned.made ret memRange) with same | ⟨actsToo, _⟩
            · rw [TaskSystem.done, same, unfinished ret memRange] at retDone
              cases retDone
            · exact actsToo.unique acts
          subst same
          refine ⟨?_, ?_, ?_⟩
          · rw [isNext]
            exact .ending ((held ret).mp mem)
          · intro returned isReturned
            rw [isNext] at isReturned
            cases isReturned
            refine ⟨retDone, fun task memRange => ?_⟩
            rw [startsNone]
            exact started task ((held task).mpr memRange)
          · intro resumed memTrace
            have onlyRet : resumed = ret := by
              rw [grows, List.mem_append, List.mem_cons, List.mem_cons] at memTrace
              rcases memTrace with before | isCompleted | isResumed | after
              · exact absurd before (quiet resumed)
              · cases isCompleted
              · cases isResumed
                rfl
              · exact absurd after (quietAfter coro resumed)
            subst onlyRet
            refine ⟨isNext, system.trace, outcome, added, grows, ?_,
              fun other => ⟨quiet other, quietAfter coro other⟩⟩
            intro other memRange earlier isCompleted
            have ended := coherent.traced.completed other earlier isCompleted
            rw [unfinished other memRange] at ended
            cases ended

theorem runs_step (supervised : Supervised coro range system)
    (stepped : system.step event = some next) (runs : Runs coro range system) :
    Runs coro range next := by
  have steps := steps_of_step stepped
  have sound := supervised.coherent.sound
  by_cases acts : system.Acts coro
  · exact runs_advance acts steps sound runs
  by_cases wakes : Wakes system next coro
  · rcases sound.of_suspends (wakes.suspends sound) with ⟨_, started, unfinished, _⟩
    have owned := supervised.owned started (done_eq_false_iff.mpr unfinished)
    exact runs_wake wakes steps supervised.coherent owned runs
  have stays := point_step steps supervised.made acts wakes
  apply runs.of_asleep steps sound wakes
  · rw [stays]
    exact runs.isAt
  · intro ret isEnding
    rw [stays] at isEnding
    rcases runs.ending ret isEnding with ⟨done, started⟩
    refine ⟨done_step steps sound done, fun task mem => ?_⟩
    have made := sound.placed.lt_made (started task mem)
    exact started_step steps made (started task mem)
  · intro ret isEnding
    rw [stays, isEnding]

/-- What `any` promises, in every state. -/
structure Contract (coro : TaskId) (range : List TaskId) (system : TaskSystem Value Exc) :
    Prop where
  startedOnce : system.startedTasks.Nodup
  allStarted : (∃ tasks, (system.coros coro).point = .anyStart [] tasks) ∨
    (system.coros coro).point.Suspends ∨ system.done coro = true →
      ∀ task ∈ range, system.startedTasks.count task = 1
  suspended : (system.coros coro).point.Suspends → ∀ task ∈ range,
    (system.coros task).awaitingCoro = some coro ∧ system.done task = false
  returned : ∀ outcome, (system.coros coro).result = some outcome →
    ∃ ret ∈ range, outcome = .task ret ∧ system.done ret = true
  /-- The tasks that are left when `any` returns are linked to nobody. -/
  returning : system.Acts coro → ∀ outcome, (system.coros coro).point = .ending outcome →
    ∀ task ∈ range, system.done task = false → (system.coros task).awaitingCoro = none
  unlinked : ¬(system.coros coro).point.Suspends → ∀ task ∈ range, system.done task = false →
    (system.coros task).awaitingCoro ≠ some coro
  goesOn : system.Acts coro → ∀ order, (system.step (.proceed order)).isSome = true

theorem Runs.all_started (runs : Runs coro range system) (sound : Sound system)
    (loopDone : (∃ tasks, (system.coros coro).point = .anyStart [] tasks) ∨
      (system.coros coro).point.Suspends ∨ system.done coro = true)
    (mem : task ∈ range) : (system.coros task).started = true := by
  have isAt := runs.isAt
  have ending := runs.ending
  have started := sound.polled.started coro
  rcases loopDone with ⟨tasks, isPoint⟩ | suspends | isDone
  · rw [isPoint] at isAt started
    cases isAt with
    | start split held =>
        rw [List.append_nil] at split
        subst split
        exact started task ((held task).mpr mem)
  · generalize (system.coros coro).point = point at isAt suspends started
    cases isAt with
    | await held => exact started task ((held task).mpr mem)
    | _ => exact absurd suspends id
  · rcases Option.isSome_iff_exists.mp isDone with ⟨outcome, ended⟩
    have isPoint := sound.placed.done coro outcome ended
    rw [isPoint] at isAt
    cases isAt
    exact (ending _ isPoint).2 task mem

/-- While a coroutine executes, the tasks that it owns are linked to nobody. -/
theorem awaitingCoro_eq_none (sound : Sound system) (owned : Owned coro range system)
    (executes : ¬(system.coros coro).point.Suspends) (mem : task ∈ range)
    (unfinished : system.done task = false) : (system.coros task).awaitingCoro = none := by
  cases isLinked : (system.coros task).awaitingCoro with
  | none => rfl
  | some waiting =>
      have awaits := sound.linked task waiting isLinked (done_eq_false_iff.mp unfinished)
      rcases (owned.awaits waiting task mem awaits).1.cases_head with same | ⟨inner, nested, _⟩
      · rw [← same, Point.awaits_of_not_suspends executes] at awaits
        exact absurd awaits List.not_mem_nil
      · exact absurd nested (not_nested_of_executes executes inner)

theorem contract_of_runs (supervised : Supervised coro range system)
    (runs : Runs coro range system) : Contract coro range system := by
  have sound := supervised.coherent.sound
  have traced := supervised.coherent.traced
  constructor
  · exact traced.nodup
  · intro loopDone task mem
    exact traced.count_eq_one (runs.all_started sound loopDone mem)
  · intro suspends task mem
    rcases sound.of_suspends suspends with ⟨_, started, unfinished, _⟩
    have owned := supervised.owned started (done_eq_false_iff.mpr unfinished)
    have isAt := runs.isAt
    have awaits := owned.awaits coro task mem
    generalize (system.coros coro).point = point at isAt suspends awaits
    cases isAt with
    | await held =>
        rcases awaits ((held task).mpr mem) with ⟨_, linked, unfinished⟩
        exact ⟨linked, done_eq_false_iff.mpr unfinished⟩
    | _ => exact absurd suspends id
  · intro outcome ended
    have isAt := runs.isAt
    have isPoint := sound.placed.done coro outcome ended
    rw [isPoint] at isAt
    cases isAt with
    | @ending ret mem => exact ⟨ret, mem, rfl, (runs.ending ret isPoint).1⟩
  · intro acts outcome isEnding task mem unfinished
    rcases acts.executes sound with ⟨started, unfinishedCoro, executes⟩
    have owned := supervised.owned started (done_eq_false_iff.mpr unfinishedCoro)
    exact awaitingCoro_eq_none sound owned executes mem unfinished
  · intro executes task mem unfinished linked
    exact sound.linked.unlinked executes task linked (done_eq_false_iff.mp unfinished)
  · intro acts order
    exact acts.proceed_isSome sound runs.isAt.ne_user order

/-- `any` waits, or has been resumed. -/
def Waits (coro : TaskId) (range : List TaskId) (system : TaskSystem Value Exc) : Prop :=
  (system.Acts coro ∧ (∃ tasks, (system.coros coro).point = .anyStart [] tasks) ∧
    ∀ task ∈ range, system.done task = false) ∨
  (∃ tasks, (system.coros coro).point = .anyAwait tasks) ∨
  ∃ ret, .resumed coro ret ∈ system.trace

theorem waits_step (supervised : Supervised coro range system) (runs : Runs coro range system)
    (stepped : system.step event = some next) (waits : Waits coro range system) :
    Waits coro range next := by
  have steps := steps_of_step stepped
  have sound := supervised.coherent.sound
  have isAt := runs.isAt
  rcases waits with ⟨acts, ⟨tasks, isPoint⟩, unfinished⟩ | ⟨tasks, isPoint⟩ | ⟨ret, resumed⟩
  · have advances := acts.advances steps sound isAt.ne_user
    rw [isPoint] at isAt
    cases isAt with
    | start split held =>
        rw [List.append_nil] at split
        subst split
        cases advances with
        | move moves =>
            rw [isPoint] at moves
            cases moves
        | startNext starts =>
            rw [isPoint] at starts
            cases starts
        | waitDone waits done =>
            rw [isPoint] at waits
            cases waits
        | wait waits unfinished =>
            rw [isPoint] at waits
            cases waits
        | nest isRest =>
            rw [isPoint] at isRest
            cases isRest
        | @pollReady polled suspended goesOn ret polls mem done =>
            rw [isPoint] at polls
            cases polls
            rw [unfinished ret ((held ret).mp mem)] at done
            cases done
        | pollSuspend polls unfinished =>
            rw [isPoint] at polls
            cases polls
            refine Or.inr (Or.inl ⟨tasks, ?_⟩)
            rw [point_linkAll, point_goTo, if_pos rfl]
        | complete ending =>
            rw [isPoint] at ending
            cases ending
  · by_cases wakes : Wakes system next coro
    · rcases wakes.trace steps sound with ⟨completing, outcome, added, _, _, _, grows, _⟩
      refine Or.inr (Or.inr ⟨completing, ?_⟩)
      rw [grows]
      simp
    · have suspends : (system.coros coro).point.Suspends := by
        rw [isPoint]
        trivial
      refine Or.inr (Or.inl ⟨tasks, ?_⟩)
      rw [point_step steps supervised.made (sound.of_suspends suspends).2.2.2 wakes, isPoint]
  · rcases trace_step steps sound with ⟨added, grows, _⟩
    refine Or.inr (Or.inr ⟨ret, ?_⟩)
    rw [grows]
    exact List.mem_append_left added resumed

/-- If no task of the range was done when all had been started, `any` returns the first one to
complete, and is resumed by this completion and no other. -/
def ReturnsFirst (coro : TaskId) (range : List TaskId) (start : TaskSystem Value Exc)
    (events : List (TaskEvent Value Exc)) : Prop :=
  ∀ before after middle final tasks outcome, events = before ++ after →
    Transition.run step start before = some middle → middle.Acts coro →
    (middle.coros coro).point = .anyStart [] tasks →
    (∀ task ∈ range, middle.done task = false) →
    Transition.run step middle after = some final → (final.coros coro).result = some outcome →
    ∃ ret ∈ range, outcome = .task ret ∧ FirstToComplete coro range ret final

theorem runs_call (supervised : Supervised system.made range next)
    (called : system.step (.create (.any range)) = some next) : Runs system.made range next := by
  have isPoint : (next.coros system.made).point = .anyStart range [] := by
    rw [eq_create called, point_create, if_pos rfl, Body.point]
  refine ⟨?_, ?_, ?_⟩
  · rw [isPoint]
    exact .start rfl (fun _ => Iff.rfl)
  · intro ret isEnding
    rw [isPoint] at isEnding
    cases isEnding
  · intro ret mem
    have started := supervised.coherent.traced.resumed system.made ret mem
    rw [eq_create called, started_create, if_pos rfl] at started
    cases started

theorem runs_throughout {start : TaskSystem Value Exc} {events : List (TaskEvent Value Exc)}
    (supervised : Supervised coro range start) (runs : Runs coro range start)
    (alone : Transition.Along step (Undisturbed coro range) start events) :
    Transition.Throughout step
      (fun state => Supervised coro range state ∧ Runs coro range state) start events := by
  refine Transition.throughout_of_along ?_ ⟨supervised, runs⟩ alone
  rintro state event next ⟨supervisedState, runsState⟩ undisturbed stepped
  exact ⟨supervised_step supervisedState undisturbed stepped,
    runs_step supervisedState stepped runsState⟩

theorem returnsFirst_of_runs {start : TaskSystem Value Exc} {events : List (TaskEvent Value Exc)}
    (supervised : Supervised coro range start) (runs : Runs coro range start)
    (alone : Transition.Along step (Undisturbed coro range) start events) :
    ReturnsFirst coro range start events := by
  rintro before after middle final tasks outcome rfl reachedMiddle acts isPoint unfinished
    reachedFinal ended
  have holds := runs_throughout supervised runs alone before after middle rfl reachedMiddle
  have waits : Waits coro range middle := Or.inl ⟨acts, ⟨tasks, isPoint⟩, unfinished⟩
  have invariant : Transition.Throughout step (fun state => Supervised coro range state ∧
      Runs coro range state ∧ Waits coro range state) middle after := by
    refine Transition.throughout_of_along ?_ ⟨holds.1, holds.2, waits⟩ (alone.after reachedMiddle)
    rintro state event next ⟨supervisedState, runsState, waitsState⟩ undisturbed stepped
    exact ⟨supervised_step supervisedState undisturbed stepped,
      runs_step supervisedState stepped runsState,
      waits_step supervisedState runsState stepped waitsState⟩
  rcases invariant after [] final (List.append_nil after).symm reachedFinal with
    ⟨supervisedFinal, runsFinal, waitsFinal⟩
  have isEnding := supervisedFinal.coherent.sound.placed.done coro outcome ended
  have isAt := runsFinal.isAt
  rw [isEnding] at isAt
  rcases waitsFinal with ⟨_, ⟨tasks, isStart⟩, _⟩ | ⟨tasks, isAwait⟩ | ⟨ret, resumed⟩
  · rw [isEnding] at isStart
    cases isStart
  · rw [isEnding] at isAwait
    cases isAwait
  · rcases runsFinal.resumed ret resumed with ⟨isRet, first⟩
    rw [isEnding] at isRet
    cases isRet
    cases isAt with
    | ending mem => exact ⟨ret, mem, rfl, first⟩

/-- For every range of tasks that nobody else awaits until `any` is done, whatever else the program
does and in whatever order the tasks complete. -/
theorem contract_and_returnsFirst {system start : TaskSystem Value Exc} {range : List TaskId}
    {before events : List (TaskEvent Value Exc)}
    (reached : Transition.run step init before = some system)
    (called : system.step (.create (.any range)) = some start)
    (alone : Transition.Along step (Undisturbed system.made range) start events) :
    Transition.Throughout step (Contract system.made range) start events ∧
      ReturnsFirst system.made range start events ∧
      ∀ history (state : TaskSystem Value Exc), Transition.run step init history = some state →
        ∀ other message, (state.coros other).point ≠ .ending (.logicError message) := by
  have supervised : Supervised system.made range start :=
    supervised_call reached called
  have runs := runs_call supervised called
  refine ⟨?_, returnsFirst_of_runs supervised runs alone, ?_⟩
  · exact (runs_throughout supervised runs alone).mono
      fun state holds => contract_of_runs holds.1 holds.2
  · intro history state reachedState
    exact (coherent_of_run reachedState).sound.polled.noLogicError

/-- Three tasks are started and wait for something.  The last one completes first; the others
complete after `any` has returned it. -/
def lastCompletesFirst : List (TaskEvent Unit Unit) :=
  [.proceed .insertion, .suspend, .proceed .insertion, .proceed .insertion, .suspend,
    .proceed .insertion, .proceed .insertion, .suspend, .proceed .insertion, .proceed .insertion,
    .resume 2, .finish (.ok ()) .insertion, .proceed .insertion, .resume 1,
    .finish (.error ()) .insertion, .resume 0, .finish (.ok ()) .insertion]

theorem undisturbed_lastCompletesFirst : Transition.Along step (Undisturbed 3 [0, 1, 2])
    (calledOn (.any [0, 1, 2])) (.start 3 :: lastCompletesFirst) :=
  undisturbed_calledOn (by decide +kernel)

theorem contract_lastCompletesFirst :
    (Transition.Throughout step (Contract 3 [0, 1, 2]) (calledOn (.any [0, 1, 2]))
        (.start 3 :: lastCompletesFirst) ∧
      ReturnsFirst 3 [0, 1, 2] (calledOn (.any [0, 1, 2])) (.start 3 :: lastCompletesFirst) ∧
      ∀ history (state : TaskSystem Unit Unit), Transition.run step init history = some state →
        ∀ other message, (state.coros other).point ≠ .ending (.logicError message)) ∧
    ∃ final, Transition.run step (calledOn (.any [0, 1, 2])) (.start 3 :: lastCompletesFirst) =
        some final ∧
      (final.coros 3).result = some (.task 2) ∧ (final.coros 0).awaitingCoro = none := by
  refine ⟨?_, _, rfl, rfl, rfl⟩
  exact contract_and_returnsFirst run_threeTasks rfl undisturbed_lastCompletesFirst

end Any

end EventAsync
