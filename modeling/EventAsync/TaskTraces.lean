import EventAsync.TaskFrames

/-!
# The trace of tasks

The trace is history only: no transition reads it.  It says that no task is
started twice, with what each task completed, and that a coroutine that awaits
a task gets the value or the exception that this task completed with.
-/

namespace EventAsync

variable {Value Exc : Type}

namespace TaskTrace

def startedTask : TaskTrace Value Exc → Option TaskId
  | .started task => some task
  | _ => none

end TaskTrace

namespace TaskSystem

variable {system next : TaskSystem Value Exc} {coro task waiting : TaskId}
  {event : TaskEvent Value Exc} {outcome : Outcome Value Exc}

/-- The tasks that have been started, in the order in which they were. -/
def startedTasks (system : TaskSystem Value Exc) : List TaskId :=
  system.trace.filterMap TaskTrace.startedTask

/-- A transition starts no task. -/
def StartsNone (system next : TaskSystem Value Exc) : Prop :=
  ∀ task, (next.coros task).started = (system.coros task).started

/-- A transition completes no task. -/
def CompletesNone (system next : TaskSystem Value Exc) : Prop :=
  ∀ task, (next.coros task).result = (system.coros task).result

/-- What a transition appends to the trace. -/
inductive Records (system next : TaskSystem Value Exc) : List (TaskTrace Value Exc) → Prop where
  | nothing (startsNone : StartsNone system next) (completesNone : CompletesNone system next) :
      Records system next []
  | started {task : TaskId} (notStarted : (system.coros task).started = false)
      (starts : ∀ other, (next.coros other).started =
        (decide (other = task) || (system.coros other).started))
      (completesNone : CompletesNone system next) : Records system next [.started task]
  | observed {task : TaskId} {outcome : Outcome Value Exc} (coro : TaskId)
      (startsNone : StartsNone system next) (completesNone : CompletesNone system next)
      (done : (next.coros task).result = some outcome) :
      Records system next [.observed coro task outcome]
  | completed {coro : TaskId} {outcome : Outcome Value Exc} (startsNone : StartsNone system next)
      (acts : system.Acts coro) (nobody : (system.coros coro).awaitingCoro = none)
      (done : (next.coros coro).result = some outcome) :
      Records system next [.completed coro outcome]
  | resumed {coro waiting : TaskId} {outcome : Outcome Value Exc}
      {added : List (TaskTrace Value Exc)} (startsNone : StartsNone system next)
      (acts : system.Acts coro) (linked : (system.coros coro).awaitingCoro = some waiting)
      (done : (next.coros coro).result = some outcome)
      (observes : ∀ entry ∈ added, ∃ task outcome, entry = .observed waiting task outcome ∧
        (next.coros task).result = some outcome) :
      Records system next (.completed coro outcome :: .resumed waiting coro :: added)

theorem records_start
    (same : ∀ other, (system.coros other).started = (next.coros other).started)
    (sameResults : CompletesNone system next)
    (task : TaskId) : ∃ added, (next.start task).trace = next.trace ++ added ∧
      Records system (next.start task) added := by
  have completesNone : CompletesNone system (next.start task) := by
    intro other
    rw [result_start, sameResults]
  rw [trace_start]
  split
  case isTrue started =>
    refine ⟨[], (List.append_nil _).symm, .nothing ?_ completesNone⟩
    intro other
    rw [started_start, same]
    by_cases isTask : other = task
    · simp [isTask, started]
    · simp [isTask]
  case isFalse notStarted =>
    refine ⟨[.started task], rfl, .started ?_ ?_ completesNone⟩
    · rw [same]
      exact Bool.eq_false_iff.mpr notStarted
    · intro other
      rw [started_start, same]

/-- A transition that changes points, links and the stack only. -/
theorem records_nothing (startsNone : StartsNone system next)
    (completesNone : CompletesNone system next) (same : next.trace = system.trace) :
    ∃ added, next.trace = system.trace ++ added ∧ Records system next added :=
  ⟨[], by rw [same, List.append_nil], .nothing startsNone completesNone⟩

theorem observes_records (entry : TaskTrace Value Exc) (mem : entry ∈ system.observes waiting) :
    ∃ task outcome, entry = .observed waiting task outcome ∧
      (system.coros task).result = some outcome := by
  simp only [observes] at mem
  split at mem
  case h_1 task isPoint =>
    split at mem
    case h_1 outcome done => exact ⟨task, outcome, List.mem_singleton.mp mem, done⟩
    case h_2 => exact absurd mem List.not_mem_nil
  case h_2 => exact absurd mem List.not_mem_nil

theorem trace_step (steps : Steps system event next) (sound : Sound system) :
    ∃ added, next.trace = system.trace ++ added ∧ Records system next added := by
  rcases sound.placed.fresh system.made le_rfl with ⟨_, freshStarted, _, freshResult⟩
  cases steps with
  | create body userCode named =>
      refine records_nothing (fun task => ?_) (fun task => ?_) rfl
      · rw [started_create]
        grind
      · rw [result_create]
        grind
  | start userCode named => exact records_start (fun _ => rfl) (fun _ => rfl) _
  | observe shape isUser named done =>
      exact ⟨_, rfl, .observed _ (fun _ => rfl) (fun _ => rfl) done⟩
  | await shape isUser named unfinished =>
      refine records_start (fun other => ?_) (fun other => ?_) _
      · rw [started_link, started_goTo]
      · rw [result_link, result_goTo]
  | suspend shape isUser => exact records_nothing (fun _ => rfl) (fun _ => rfl) rfl
  | resume userCode sleeps => exact records_nothing (fun _ => rfl) (fun _ => rfl) rfl
  | move order shape moves =>
      exact records_nothing (fun _ => started_goTo ..) (fun _ => result_goTo ..) rfl
  | startNext order shape starts =>
      exact records_start (fun other => (started_goTo ..).symm) (fun other => result_goTo ..) _
  | waitDone order shape waits done =>
      exact records_nothing (fun _ => started_goTo ..) (fun _ => result_goTo ..) rfl
  | wait order shape waits unfinished =>
      refine records_start (fun other => ?_) (fun other => ?_) _
      · rw [started_link, started_goTo]
      · rw [result_link, result_goTo]
  | nest order shape isPoint =>
      refine records_start (fun other => ?_) (fun other => ?_) _
      · simp only [started_link, started_goTo, started_create]
        grind
      · simp only [result_link, result_goTo, result_create]
        grind
  | pollReady order shape polls ready pollsTo =>
      refine records_nothing (fun _ => ?_) (fun _ => ?_) rfl
      · rw [started_goTo, started_linkAll]
      · rw [result_goTo, result_linkAll]
  | pollSuspend order shape polls unfinished =>
      refine records_nothing (fun _ => ?_) (fun _ => ?_) rfl
      · rw [started_linkAll, started_goTo]
      · rw [result_linkAll, result_goTo]
  | pollError order shape polls mem notStarted =>
      exact records_nothing (fun _ => started_goTo ..) (fun _ => result_goTo ..) rfl
  | complete shape ends nobody =>
      refine ⟨_, rfl, .completed (fun _ => started_completed ..) (acts_of_shape shape) nobody ?_⟩
      rw [result_completed, if_pos rfl]
  | @wake coro waiting below outcome point event shape ends linked resumes =>
      refine ⟨_, List.append_assoc .., .resumed ?_ (acts_of_shape shape) linked ?_ ?_⟩
      · intro task
        rw [started_goTo, coros_woken, started_completed]
      · rw [result_goTo, coros_woken, result_completed, if_pos rfl]
      · intro entry mem
        rcases observes_records entry mem with ⟨task, observed, isEntry, done⟩
        refine ⟨task, observed, isEntry, ?_⟩
        rw [result_goTo, done]
  | wakePoll shape ends linked resumes pollsTo =>
      refine ⟨_, rfl, .resumed ?_ (acts_of_shape shape) linked ?_ ?_⟩
      · intro task
        rw [started_goTo, started_linkAll, coros_woken, started_completed]
      · rw [result_goTo, result_linkAll, coros_woken, result_completed, if_pos rfl]
      · intro entry mem
        exact absurd mem List.not_mem_nil

theorem Records.wakes {added : List (TaskTrace Value Exc)} (records : Records system next added)
    (mem : .resumed waiting task ∈ added) : Wakes system next waiting := by
  cases records with
  | nothing => exact absurd mem List.not_mem_nil
  | started => simp at mem
  | observed => simp at mem
  | completed => simp at mem
  | @resumed coro resumed outcome later startsNone acts linked done observes =>
      simp only [List.mem_cons, reduceCtorEq, false_or, TaskTrace.resumed.injEq] at mem
      rcases mem with ⟨rfl, rfl⟩ | observed
      · exact ⟨_, acts, linked, by rw [done]; simp⟩
      · rcases observes _ observed with ⟨other, outcome, isObserved, _⟩
        cases isObserved

/-- What the trace gets when a completion resumes a coroutine. -/
theorem Wakes.trace (wakes : Wakes system next waiting) (steps : Steps system event next)
    (sound : Sound system) : ∃ coro outcome added, system.Acts coro ∧
      (system.coros coro).awaitingCoro = some waiting ∧
      (next.coros coro).result = some outcome ∧
      next.trace = system.trace ++ .completed coro outcome :: .resumed waiting coro :: added ∧
      ∀ other task, .resumed other task ∉ added := by
  rcases wakes with ⟨completing, actsToo, linkedToo, completed⟩
  rcases trace_step steps sound with ⟨added, grows, records⟩
  have completes : ¬CompletesNone system next := by
    intro completesNone
    rw [completesNone, (actsToo.executes sound).2.1] at completed
    exact completed rfl
  cases records with
  | nothing startsNone completesNone => exact absurd completesNone completes
  | started notStarted starts completesNone => exact absurd completesNone completes
  | observed coro startsNone completesNone => exact absurd completesNone completes
  | completed startsNone acts nobody done =>
      rw [acts.unique actsToo, linkedToo] at nobody
      cases nobody
  | @resumed coro resumed outcome later startsNone acts linked done observes =>
      cases acts.unique actsToo
      rw [linkedToo, Option.some.injEq] at linked
      refine ⟨completing, outcome, later, acts, linkedToo, done, linked ▸ grows, ?_⟩
      intro other task mem
      rcases observes _ mem with ⟨_, _, isObserved, _⟩
      cases isObserved

/-- The trace agrees with the state. -/
structure Traced (system : TaskSystem Value Exc) : Prop where
  nodup : system.startedTasks.Nodup
  mem_startedTasks : ∀ task, task ∈ system.startedTasks ↔ (system.coros task).started = true
  completed : ∀ task outcome, .completed task outcome ∈ system.trace →
    (system.coros task).result = some outcome
  observed : ∀ coro task outcome, .observed coro task outcome ∈ system.trace →
    (system.coros task).result = some outcome
  resumed : ∀ coro task, .resumed coro task ∈ system.trace → (system.coros coro).started = true

theorem traced_init : Traced (init : TaskSystem Value Exc) := by
  constructor <;> simp [init, startedTasks]

/-- The tasks that a transition starts. -/
theorem startedTasks_step (steps : Steps system event next) (sound : Sound system) :
    (next.startedTasks = system.startedTasks ∧ StartsNone system next) ∨
      ∃ task, next.startedTasks = system.startedTasks ++ [task] ∧
        (system.coros task).started = false ∧
        ∀ other, (next.coros other).started =
          (decide (other = task) || (system.coros other).started) := by
  rcases trace_step steps sound with ⟨added, grows, records⟩
  have grown :
      next.startedTasks = system.startedTasks ++ added.filterMap TaskTrace.startedTask := by
    simp only [startedTasks, grows, List.filterMap_append]
  rw [grown]
  cases records with
  | nothing startsNone completesNone => exact Or.inl ⟨List.append_nil _, startsNone⟩
  | @started task notStarted starts completesNone => exact Or.inr ⟨task, rfl, notStarted, starts⟩
  | observed coro startsNone completesNone done => exact Or.inl ⟨List.append_nil _, startsNone⟩
  | completed startsNone acts nobody done => exact Or.inl ⟨List.append_nil _, startsNone⟩
  | @resumed coro waiting outcome added startsNone acts linked done observes =>
      have quiet : added.filterMap TaskTrace.startedTask = [] := by
        rw [List.filterMap_eq_nil_iff]
        intro entry mem
        rcases observes entry mem with ⟨task, outcome, rfl, _⟩
        rfl
      simp only [List.filterMap_cons, TaskTrace.startedTask, quiet]
      exact Or.inl ⟨List.append_nil _, startsNone⟩

theorem traced_step (steps : Steps system event next) (sound : Sound system)
    (traced : Traced system) : Traced next := by
  rcases trace_step steps sound with ⟨added, grows, records⟩
  have stable := fun task outcome => @result_stable _ _ system next task event steps sound outcome
  have startsOnce : next.startedTasks.Nodup ∧
      ∀ task, task ∈ next.startedTasks ↔ (next.coros task).started = true := by
    have before := traced.mem_startedTasks
    rcases startedTasks_step steps sound with ⟨same, startsNone⟩ | ⟨task, grown, notStarted, starts⟩
    · rw [same]
      refine ⟨traced.nodup, ?_⟩
      intro task
      rw [startsNone, before]
    · have notMem : task ∉ system.startedTasks := by
        rw [before, notStarted]
        exact Bool.false_ne_true
      rw [grown]
      refine ⟨traced.nodup.append (List.nodup_singleton task)
        (List.disjoint_singleton.mpr notMem), ?_⟩
      intro other
      rw [starts, List.mem_append, before, List.mem_singleton]
      simp [or_comm]
  refine ⟨startsOnce.1, startsOnce.2, ?_, ?_, ?_⟩
  · intro task outcome mem
    rw [grows, List.mem_append] at mem
    rcases mem with earlier | new
    · exact stable task outcome (traced.completed task outcome earlier)
    · cases records <;> grind
  · intro coro task outcome mem
    rw [grows, List.mem_append] at mem
    rcases mem with earlier | new
    · exact stable task outcome (traced.observed coro task outcome earlier)
    · cases records <;> grind
  · intro coro task mem
    have started : (system.coros coro).started = true := by
      rw [grows, List.mem_append] at mem
      rcases mem with earlier | new
      · exact traced.resumed coro task earlier
      · exact (sound.of_suspends ((records.wakes new).suspends sound)).2.1
    exact started_step steps (sound.placed.lt_made started) started

/-- A task that has been started was started once. -/
theorem Traced.count_eq_one (traced : Traced system)
    (started : (system.coros task).started = true) : system.startedTasks.count task = 1 :=
  List.count_eq_one_of_mem traced.nodup ((traced.mem_startedTasks task).mpr started)

end TaskSystem

end EventAsync
