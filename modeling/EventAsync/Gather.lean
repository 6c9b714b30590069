import EventAsync.TaskOwnership

/-!
# `all` and `multi`

`all` starts the tasks of a range and then waits for one after the other, from
the first to the last.  `multi` starts its first task, calls itself on the
others and waits for the first task last, so that a chain of coroutines stands
for the list of its tasks.  What the two are at some point of their run is one
relation here, and what they promise is one contract.
-/

namespace EventAsync

variable {Value Exc : Type}

namespace Gather

open TaskSystem

variable {system next : TaskSystem Value Exc} {coro task : TaskId}
  {event : TaskEvent Value Exc} {range rest : List TaskId}

/-- The tasks that are done. -/
def Done (system : TaskSystem Value Exc) (tasks : List TaskId) : Prop :=
  ∀ task ∈ tasks, system.done task = true

def Started (system : TaskSystem Value Exc) (tasks : List TaskId) : Prop :=
  ∀ task ∈ tasks, (system.coros task).started = true

/-- Where `all` or `multi` is in its body, with what it has done so far. -/
inductive Gathers (system : TaskSystem Value Exc) : List TaskId → TaskId → Prop where
  | allStart {range begun toStart : List TaskId} {coro : TaskId}
      (isPoint : (system.coros coro).point = .allStart toStart range)
      (split : range = begun ++ toStart) (started : Started system begun) :
      Gathers system range coro
  | allWait {range waited toWait : List TaskId} {coro : TaskId}
      (isPoint : (system.coros coro).point = .allWait toWait)
      (split : range = waited ++ toWait) (started : Started system range)
      (done : Done system waited) : Gathers system range coro
  | allAwait {range waited toWait : List TaskId} {coro task : TaskId}
      (isPoint : (system.coros coro).point = .allAwait task toWait)
      (split : range = waited ++ task :: toWait) (started : Started system range)
      (done : Done system waited) : Gathers system range coro
  | multiStart {rest : List TaskId} {coro task : TaskId}
      (isPoint : (system.coros coro).point = .multiStart task rest) :
      Gathers system (task :: rest) coro
  | multiRest {rest : List TaskId} {coro task : TaskId}
      (isPoint : (system.coros coro).point = .multiRest task rest)
      (started : (system.coros task).started = true) : Gathers system (task :: rest) coro
  | multiAwaitRest {rest : List TaskId} {coro task nested : TaskId}
      (isPoint : (system.coros coro).point = .multiAwaitRest task nested)
      (started : (system.coros task).started = true)
      (gathers : Gathers system rest nested) : Gathers system (task :: rest) coro
  | multiWait {rest : List TaskId} {coro task : TaskId}
      (isPoint : (system.coros coro).point = .multiWait task)
      (started : (system.coros task).started = true) (done : Done system rest) :
      Gathers system (task :: rest) coro
  | multiAwait {rest : List TaskId} {coro task : TaskId}
      (isPoint : (system.coros coro).point = .multiAwait task)
      (started : (system.coros task).started = true) (done : Done system rest) :
      Gathers system (task :: rest) coro
  | ending {range : List TaskId} {coro : TaskId}
      (isPoint : (system.coros coro).point = .ending .void) (done : Done system range) :
      Gathers system range coro

section Step

variable (steps : Steps system event next) (sound : Sound system)

include steps sound

theorem done_mono {tasks : List TaskId} (done : Done system tasks) : Done next tasks :=
  fun task mem => done_step steps sound (done task mem)

theorem started_mono {tasks : List TaskId} (started : Started system tasks) :
    Started next tasks :=
  fun task mem =>
    started_step steps (sound.placed.lt_made (started task mem)) (started task mem)

theorem started_one (started : (system.coros task).started = true) :
    (next.coros task).started = true :=
  started_step steps (sound.placed.lt_made started) started

end Step

/-- A coroutine that was suspended on one task finds it done. -/
theorem done_of_wakes (wakes : Wakes system next coro) (steps : Steps system event next)
    (sound : Sound system) (awaits : (system.coros coro).point.awaits = [task]) :
    next.done task = true ∧ (system.coros task).result = none := by
  rcases wakes.resumption steps sound with ⟨_, completing, outcome, acts, _, linked, done, _⟩
  have unfinished := (acts.executes sound).2.1
  have awaited := sound.linked completing coro linked unfinished
  rw [awaits, List.mem_singleton] at awaited
  rw [← awaited, TaskSystem.done, done]
  exact ⟨rfl, unfinished⟩

theorem resumes_of_wakes (wakes : Wakes system next coro) (steps : Steps system event next)
    (sound : Sound system) (single : (system.coros coro).point.polled = []) :
    (system.coros coro).point.Resumes next (next.coros coro).point := by
  rcases wakes.resumption steps sound with ⟨_, _, _, _, _, _, _, _, resumes |
    ⟨tasks, goesOn, ret, resumes, mem, _⟩⟩
  · exact resumes
  · rw [← resumes.polled_eq.1, single] at mem
    exact absurd mem List.not_mem_nil

theorem Done.append {first second : List TaskId} (done : Done system first)
    (doneToo : Done system second) : Done system (first ++ second) := by
  intro task mem
  rcases List.mem_append.mp mem with earlier | later
  · exact done task earlier
  · exact doneToo task later

theorem done_cons (done : system.done task = true) (rest_done : Done system rest) :
    Done system (task :: rest) := by
  intro other mem
  rcases List.mem_cons.mp mem with rfl | later
  · exact done
  · exact rest_done other later

/-- `all` goes on. -/
theorem gathers_of_allStart {begun toStart : List TaskId} {order : IterationOrder}
    (isPoint : (system.coros coro).point = .allStart toStart range)
    (split : range = begun ++ toStart) (started : Started system begun)
    (proceeds : system.proceed coro order = some next) : Gathers next range coro := by
  cases toStart with
  | nil =>
      simp only [proceed, isPoint, Option.some.injEq] at proceeds
      subst proceeds
      rw [List.append_nil] at split
      refine .allWait (by rw [point_goTo, if_pos rfl]) (List.nil_append range).symm ?_
        (by simp [Done])
      intro task mem
      rw [started_goTo]
      exact started task (split ▸ mem)
  | cons task toStart =>
      simp only [proceed, isPoint, Option.some.injEq] at proceeds
      subst proceeds
      refine .allStart (by rw [point_start, point_goTo, if_pos rfl])
        (split.trans (List.append_cons ..)) ?_
      intro other mem
      rw [started_start, started_goTo]
      rcases List.mem_append.mp mem with earlier | same
      · simp [started other earlier]
      · simp [List.mem_singleton.mp same]

theorem gathers_of_allWait {waited toWait : List TaskId} {order : IterationOrder}
    (isPoint : (system.coros coro).point = .allWait toWait)
    (split : range = waited ++ toWait) (started : Started system range)
    (done : Done system waited) (proceeds : system.proceed coro order = some next)
    (steps : Steps system event next) (sound : Sound system) : Gathers next range coro := by
  have startedAfter := started_mono steps sound started
  have doneAfter := done_mono steps sound done
  cases toWait with
  | nil =>
      simp only [proceed, isPoint, Option.some.injEq] at proceeds
      subst proceeds
      rw [List.append_nil] at split
      exact .ending (by rw [point_goTo, if_pos rfl]) (split ▸ doneAfter)
  | cons task toWait =>
      simp only [proceed, isPoint, Option.some.injEq, wait] at proceeds
      split at proceeds
      case isTrue taskDone =>
        have taskDoneAfter := done_step steps sound taskDone
        subst proceeds
        refine .allWait (by rw [point_goTo, if_pos rfl]) (split.trans (List.append_cons ..))
          startedAfter (doneAfter.append ?_)
        exact done_cons taskDoneAfter (by simp [Done])
      case isFalse =>
        subst proceeds
        exact .allAwait (by rw [point_awaitSuspend, if_pos rfl]) split startedAfter doneAfter

/-- `multi` goes on. -/
theorem gathers_of_multiRest {order : IterationOrder}
    (isPoint : (system.coros coro).point = .multiRest task rest)
    (started : (system.coros task).started = true)
    (proceeds : system.proceed coro order = some next) (steps : Steps system event next)
    (sound : Sound system) (made : coro < system.made) : Gathers next (task :: rest) coro := by
  have startedAfter := started_one steps sound started
  cases rest with
  | nil =>
      simp only [proceed, isPoint, Option.some.injEq] at proceeds
      subst proceeds
      exact .multiWait (by rw [point_goTo, if_pos rfl]) startedAfter (by simp [Done])
  | cons first rest =>
      simp only [proceed, isPoint, Option.some.injEq] at proceeds
      subst proceeds
      refine .multiAwaitRest (by rw [point_awaitSuspend, if_pos rfl]) startedAfter (.multiStart ?_)
      rw [point_awaitSuspend, if_neg (Nat.ne_of_gt made), point_create, if_pos rfl]

theorem gathers_of_multiWait {order : IterationOrder}
    (isPoint : (system.coros coro).point = .multiWait task)
    (started : (system.coros task).started = true) (done : Done system rest)
    (proceeds : system.proceed coro order = some next) (steps : Steps system event next)
    (sound : Sound system) : Gathers next (task :: rest) coro := by
  have startedAfter := started_one steps sound started
  have doneAfter := done_mono steps sound done
  simp only [proceed, isPoint, Option.some.injEq, wait] at proceeds
  split at proceeds
  case isTrue taskDone =>
    have taskDoneAfter := done_step steps sound taskDone
    subst proceeds
    exact .ending (by rw [point_goTo, if_pos rfl]) (done_cons taskDoneAfter doneAfter)
  case isFalse =>
    subst proceeds
    exact .multiAwait (by rw [point_awaitSuspend, if_pos rfl]) startedAfter doneAfter

/-- The innermost coroutine goes on. -/
theorem gathers_of_acts (gathers : Gathers system range coro) (acts : system.Acts coro)
    (stepped : system.step event = some next) (sound : Sound system) :
    Gathers next range coro := by
  have steps := steps_of_step stepped
  have made := sound.placed.lt_made (acts.executes sound).1
  have executes := (acts.executes sound).2.2
  cases gathers with
  | allStart isPoint split started =>
      rcases acts.proceeds stepped (by simp [isPoint]) with ⟨order, proceeds⟩
      exact gathers_of_allStart isPoint split started proceeds
  | allWait isPoint split started done =>
      rcases acts.proceeds stepped (by simp [isPoint]) with ⟨order, proceeds⟩
      exact gathers_of_allWait isPoint split started done proceeds steps sound
  | multiStart isPoint =>
      rcases acts.proceeds stepped (by simp [isPoint]) with ⟨order, proceeds⟩
      simp only [proceed, isPoint, Option.some.injEq] at proceeds
      subst proceeds
      refine .multiRest (by rw [point_start, point_goTo, if_pos rfl]) ?_
      simp
  | multiRest isPoint started =>
      rcases acts.proceeds stepped (by simp [isPoint]) with ⟨order, proceeds⟩
      exact gathers_of_multiRest isPoint started proceeds steps sound made
  | multiWait isPoint started done =>
      rcases acts.proceeds stepped (by simp [isPoint]) with ⟨order, proceeds⟩
      exact gathers_of_multiWait isPoint started done proceeds steps sound
  | ending isPoint done =>
      exact .ending (ending_step steps sound made isPoint) (done_mono steps sound done)
  | allAwait isPoint => exact absurd (isPoint ▸ trivial) executes
  | multiAwaitRest isPoint => exact absurd (isPoint ▸ trivial) executes
  | multiAwait isPoint => exact absurd (isPoint ▸ trivial) executes

/-- A coroutine that is done has returned, and so its tasks are done. -/
theorem Gathers.of_result (gathers : Gathers system range coro) (sound : Sound system)
    {outcome : Outcome Value Exc} (ended : (system.coros coro).result = some outcome) :
    outcome = .void ∧ Done system range := by
  have isEnding := sound.placed.done coro outcome ended
  cases gathers with
  | ending isPoint done =>
      rw [isEnding] at isPoint
      cases isPoint
      exact ⟨rfl, done⟩
  | allStart isPoint | allWait isPoint | allAwait isPoint | multiStart isPoint
  | multiRest isPoint | multiAwaitRest isPoint | multiWait isPoint | multiAwait isPoint =>
      rw [isEnding] at isPoint
      cases isPoint

/-- A completion resumes the coroutine. -/
theorem gathers_of_wakes (gathers : Gathers system range coro) (wakes : Wakes system next coro)
    (steps : Steps system event next) (sound : Sound system) (soundNext : Sound next)
    (nestedAfter : ∀ task nested rest, range = task :: rest →
      (system.coros coro).point = .multiAwaitRest task nested →
      Gathers system rest nested → Gathers next rest nested) : Gathers next range coro := by
  have suspends := wakes.suspends sound
  cases gathers with
  | allAwait isPoint split started done =>
      have taskDone := (done_of_wakes wakes steps sound (congrArg Point.awaits isPoint)).1
      have resumes := resumes_of_wakes wakes steps sound (congrArg Point.polled isPoint)
      rw [isPoint] at resumes
      generalize isAfter : (next.coros coro).point = after at resumes
      cases resumes
      refine .allWait isAfter (split.trans (List.append_cons ..))
        (started_mono steps sound started) ?_
      exact (done_mono steps sound done).append (done_cons taskDone (by simp [Done]))
  | @multiAwaitRest rest _ task nested isPoint started gathers =>
      have resumes := resumes_of_wakes wakes steps sound (congrArg Point.polled isPoint)
      rw [isPoint] at resumes
      generalize isAfter : (next.coros coro).point = after at resumes
      cases resumes with
      | rest ended =>
          have after := nestedAfter task nested rest rfl isPoint gathers
          rcases after.of_result soundNext ended with ⟨rfl, done⟩
          exact .multiWait isAfter (started_one steps sound started) done
  | multiAwait isPoint started done =>
      have taskDone := (done_of_wakes wakes steps sound (congrArg Point.awaits isPoint)).1
      have resumes := resumes_of_wakes wakes steps sound (congrArg Point.polled isPoint)
      rw [isPoint] at resumes
      generalize isAfter : (next.coros coro).point = after at resumes
      cases resumes
      exact .ending isAfter (done_cons taskDone (done_mono steps sound done))
  | allStart isPoint | allWait isPoint | multiStart isPoint | multiRest isPoint
  | multiWait isPoint | ending isPoint =>
      rw [isPoint] at suspends
      exact absurd suspends id

/-- The coroutine stays where it is. -/
theorem gathers_of_same (gathers : Gathers system range coro) (steps : Steps system event next)
    (sound : Sound system) (stays : (next.coros coro).point = (system.coros coro).point)
    (nestedAfter : ∀ task nested rest, range = task :: rest →
      (system.coros coro).point = .multiAwaitRest task nested →
      Gathers system rest nested → Gathers next rest nested) : Gathers next range coro := by
  cases gathers with
  | allStart isPoint split started =>
      exact .allStart (stays.trans isPoint) split (started_mono steps sound started)
  | allWait isPoint split started done =>
      exact .allWait (stays.trans isPoint) split (started_mono steps sound started)
        (done_mono steps sound done)
  | allAwait isPoint split started done =>
      exact .allAwait (stays.trans isPoint) split (started_mono steps sound started)
        (done_mono steps sound done)
  | multiStart isPoint => exact .multiStart (stays.trans isPoint)
  | multiRest isPoint started =>
      exact .multiRest (stays.trans isPoint) (started_one steps sound started)
  | @multiAwaitRest rest _ task nested isPoint started gathers =>
      exact .multiAwaitRest (stays.trans isPoint) (started_one steps sound started)
        (nestedAfter task nested rest rfl isPoint gathers)
  | multiWait isPoint started done =>
      exact .multiWait (stays.trans isPoint) (started_one steps sound started)
        (done_mono steps sound done)
  | multiAwait isPoint started done =>
      exact .multiAwait (stays.trans isPoint) (started_one steps sound started)
        (done_mono steps sound done)
  | ending isPoint done => exact .ending (stays.trans isPoint) (done_mono steps sound done)

theorem gathers_step (coherent : Coherent system) (stepped : system.step event = some next)
    (made : coro < system.made) (gathers : Gathers system range coro) :
    Gathers next range coro := by
  have steps := steps_of_step stepped
  have sound := coherent.sound
  have soundNext := sound_step system event next sound stepped
  induction range generalizing coro with
  | nil =>
      have nestedAfter : ∀ task nested rest, [] = task :: rest →
          (system.coros coro).point = .multiAwaitRest task nested →
          Gathers system rest nested → Gathers next rest nested := by
        intro task nested rest isCons
        cases isCons
      by_cases acts : system.Acts coro
      · exact gathers_of_acts gathers acts stepped sound
      by_cases wakes : Wakes system next coro
      · exact gathers_of_wakes gathers wakes steps sound soundNext nestedAfter
      · exact gathers_of_same gathers steps sound (point_step steps made acts wakes) nestedAfter
  | cons first rest ih =>
      have nestedAfter : ∀ task nested others, first :: rest = task :: others →
          (system.coros coro).point = .multiAwaitRest task nested →
          Gathers system others nested → Gathers next others nested := by
        intro task nested others isCons isPoint gathersNested
        cases isCons
        have started := (coherent.nests.made coro _ nested isPoint).2.2.1
        exact ih (sound.placed.lt_made started) gathersNested
      by_cases acts : system.Acts coro
      · exact gathers_of_acts gathers acts stepped sound
      by_cases wakes : Wakes system next coro
      · exact gathers_of_wakes gathers wakes steps sound soundNext nestedAfter
      · exact gathers_of_same gathers steps sound (point_step steps made acts wakes) nestedAfter

theorem Gathers.ne_user (gathers : Gathers system range coro) :
    (system.coros coro).point ≠ .user := by
  cases gathers <;> simp_all

/-- The coroutines that serve another one stand for the last tasks of its list. -/
theorem Gathers.of_serves (gathers : Gathers system range coro) {other : TaskId}
    (serves : system.Serves coro other) : ∃ before rest, range = before ++ rest ∧
      Started system before ∧ Gathers system rest other := by
  induction range generalizing coro with
  | nil =>
      rcases serves.cases_head with rfl | ⟨nested, ⟨task, isPoint⟩, _⟩
      · exact ⟨[], [], rfl, by simp [Started], gathers⟩
      · cases gathers <;> simp_all
  | cons first rest ih =>
      rcases serves.cases_head with rfl | ⟨nested, ⟨task, isPoint⟩, later⟩
      · exact ⟨[], first :: rest, rfl, by simp [Started], gathers⟩
      · cases gathers with
        | multiAwaitRest isRest started gathersNested =>
            rw [isPoint] at isRest
            cases isRest
            rcases ih gathersNested later with ⟨before, others, split, startedBefore, gathersOther⟩
            refine ⟨first :: before, others, by rw [split]; rfl, ?_, gathersOther⟩
            intro each mem
            rcases List.mem_cons.mp mem with rfl | earlier
            · exact started
            · exact startedBefore each earlier
        | _ => simp_all

/-- As long as the coroutine is not done, one that serves it executes or is suspended on one of the
tasks. -/
theorem Gathers.runs_or_waits (gathers : Gathers system range coro) (coherent : Coherent system)
    (started : (system.coros coro).started = true)
    (unfinished : (system.coros coro).result = none) :
    ∃ other, system.Serves coro other ∧ (other ∈ system.stack ∨
      ∃ task ∈ range, (system.coros other).point.awaits = [task]) := by
  induction gathers with
  | allStart isPoint | allWait isPoint | multiStart isPoint | multiRest isPoint
  | multiWait isPoint | ending isPoint =>
      refine ⟨_, .refl, Or.inl (coherent.sound.placed.onStack _ started unfinished ?_ ?_)⟩
      · simp [isPoint]
      · simp [isPoint, Point.Suspends]
  | allAwait isPoint split =>
      refine ⟨_, .refl, Or.inr ⟨_, ?_, congrArg Point.awaits isPoint⟩⟩
      rw [split]
      simp
  | multiAwait isPoint =>
      exact ⟨_, .refl, Or.inr ⟨_, List.mem_cons_self .., congrArg Point.awaits isPoint⟩⟩
  | multiAwaitRest isPoint _ _ ih =>
      rcases coherent.nests.made _ _ _ isPoint with ⟨_, _, startedNested, _, unfinishedNested⟩
      rcases ih startedNested unfinishedNested with ⟨other, serves, runs | ⟨task, mem, awaits⟩⟩
      · exact ⟨other, .head ⟨_, isPoint⟩ serves, Or.inl runs⟩
      · exact ⟨other, .head ⟨_, isPoint⟩ serves, Or.inr ⟨task, List.mem_cons_of_mem _ mem, awaits⟩⟩

section Returning

variable {order : IterationOrder}

/-- The innermost coroutine goes on, step after step, until the condition holds. -/
def Reaches (order : IterationOrder) (holds : TaskSystem Value Exc → Prop)
    (system : TaskSystem Value Exc) : Prop :=
  ∃ count final, Transition.run step system (List.replicate count (.proceed order)) = some final ∧
    holds final

theorem reaches_here {holds : TaskSystem Value Exc → Prop} (here : holds system) :
    Reaches order holds system :=
  ⟨0, system, rfl, here⟩

theorem reaches_step {holds : TaskSystem Value Exc → Prop} (next : TaskSystem Value Exc)
    (stepped : system.step (.proceed order) = some next) (later : Reaches order holds next) :
    Reaches order holds system := by
  rcases later with ⟨count, final, reached, here⟩
  exact ⟨count + 1, final, Transition.run_cons_eq_some.mpr ⟨next, stepped, reached⟩, here⟩

theorem Reaches.trans {first second : TaskSystem Value Exc → Prop}
    (reaches : Reaches order first system)
    (later : ∀ count middle,
      Transition.run step system (List.replicate count (.proceed order)) = some middle →
      first middle → Reaches order second middle) : Reaches order second system := by
  rcases reaches with ⟨count, middle, reached, here⟩
  rcases later count middle reached here with ⟨more, final, reachedFinal, there⟩
  refine ⟨count + more, final, ?_, there⟩
  rw [List.replicate_add]
  exact Transition.run_append_eq_some.mpr ⟨middle, reached, reachedFinal⟩

/-- The innermost coroutine is about to return. -/
def Returns (coro : TaskId) (system : TaskSystem Value Exc) : Prop :=
  system.Acts coro ∧ (system.coros coro).point = .ending .void

theorem step_of_proceed (acts : system.Acts coro)
    (proceeds : system.proceed coro order = some next) :
    system.step (.proceed order) = some next := by
  rcases acts.exists_shape with ⟨below, shape⟩
  simp only [step, shape, proceeds]

theorem reaches_of_allWait {toWait : List TaskId} (acts : system.Acts coro)
    (isPoint : (system.coros coro).point = .allWait toWait) (done : Done system toWait) :
    Reaches order (Returns coro) system := by
  induction toWait generalizing system with
  | nil =>
      refine reaches_step (system.goTo coro (.ending .void)) ?_ (reaches_here ⟨acts, ?_⟩)
      · exact step_of_proceed acts (by simp only [proceed, isPoint])
      · rw [point_goTo, if_pos rfl]
  | cons task toWait ih =>
      have taskDone := done task (List.mem_cons_self ..)
      refine reaches_step (system.goTo coro (.allWait toWait)) ?_ (ih acts ?_ ?_)
      · exact step_of_proceed acts (by simp only [proceed, isPoint, wait, taskDone, if_true])
      · rw [point_goTo, if_pos rfl]
      · intro other mem
        rw [TaskSystem.done, result_goTo]
        exact done other (List.mem_cons_of_mem task mem)

theorem reaches_of_allStart {toStart : List TaskId} (acts : system.Acts coro)
    (isPoint : (system.coros coro).point = .allStart toStart range)
    (started : Started system toStart) (done : Done system range) :
    Reaches order (Returns coro) system := by
  have doneAfter : ∀ point, Done (system.goTo coro point) range := by
    intro point task mem
    rw [TaskSystem.done, result_goTo]
    exact done task mem
  induction toStart generalizing system with
  | nil =>
      have isWait : ((system.goTo coro (.allWait range)).coros coro).point = .allWait range := by
        rw [point_goTo, if_pos rfl]
      refine reaches_step (system.goTo coro (.allWait range)) ?_
        (reaches_of_allWait acts isWait (doneAfter _))
      exact step_of_proceed acts (by simp only [proceed, isPoint])
  | cons task toStart ih =>
      have taskStarted := started task (List.mem_cons_self ..)
      refine reaches_step (system.goTo coro (.allStart toStart range)) ?_ (ih acts ?_ ?_ ?_ ?_)
      · refine step_of_proceed acts ?_
        simp only [proceed, isPoint, start, started_goTo, taskStarted, if_true]
      · rw [point_goTo, if_pos rfl]
      · intro other mem
        rw [started_goTo]
        exact started other (List.mem_cons_of_mem task mem)
      · exact doneAfter _
      · intro point other mem
        rw [TaskSystem.done, result_goTo]
        exact doneAfter _ other mem

theorem reaches_of_multiWait (acts : system.Acts coro)
    (isPoint : (system.coros coro).point = .multiWait task) (done : system.done task = true) :
    Reaches order (Returns coro) system := by
  refine reaches_step (system.goTo coro (.ending .void)) ?_ (reaches_here ⟨acts, ?_⟩)
  · exact step_of_proceed acts (by simp only [proceed, isPoint, wait, done, if_true])
  · rw [point_goTo, if_pos rfl]

/-- The innermost coroutine, which is about to return, completes. -/
theorem Returns.completes (returns : Returns coro system) (sound : Sound system)
    (order : IterationOrder) : ∃ next, system.step (.proceed order) = some next ∧
      (next.coros coro).result = some .void := by
  rcases returns with ⟨acts, isEnding⟩
  have library : (system.coros coro).point ≠ .user := by simp [isEnding]
  rcases Option.isSome_iff_exists.mp (acts.proceed_isSome sound library order) with ⟨next, stepped⟩
  exact ⟨next, stepped, (acts.completes (steps_of_step stepped) sound isEnding).2⟩

/-- A nested coroutine returns, and so does the one that made it. -/
theorem reaches_up {nested : TaskId} (coherent : Coherent system) (returns : Returns nested system)
    (isPoint : (system.coros coro).point = .multiAwaitRest task nested)
    (done : system.done task = true) : Reaches order (Returns coro) system := by
  have sound := coherent.sound
  rcases returns.completes sound order with ⟨next, stepped, completed⟩
  have steps := steps_of_step stepped
  have linked := (coherent.nests.made coro task nested isPoint).2.2.2.1
  have wakes : Wakes system next coro := ⟨nested, returns.1, linked, by rw [completed]; simp⟩
  have resumes := resumes_of_wakes wakes steps sound (congrArg Point.polled isPoint)
  have acts := (wakes.resumption steps sound).1
  rw [isPoint] at resumes
  generalize isAfter : (next.coros coro).point = after at resumes
  cases resumes with
  | rest ended =>
      rw [completed, Option.some.injEq] at ended
      subst ended
      exact reaches_step next stepped
        (reaches_of_multiWait acts isAfter (done_step steps sound done))

/-- What a run leaves as it is, as long as a nested coroutine is not done. -/
theorem nested_of_run {nested : TaskId} {events : List (TaskEvent Value Exc)}
    {final : TaskSystem Value Exc} (coherent : Coherent system)
    (isPoint : (system.coros coro).point = .multiAwaitRest task nested)
    (done : system.done task = true) (reached : Transition.run step system events = some final)
    (unfinished : (final.coros nested).result = none) :
    Coherent final ∧ (final.coros coro).point = .multiAwaitRest task nested ∧
      final.done task = true := by
  induction events generalizing system with
  | nil =>
      rw [Transition.run_nil, Option.some.injEq] at reached
      exact reached ▸ ⟨coherent, isPoint, done⟩
  | cons event events ih =>
      rcases Transition.run_cons_eq_some.mp reached with ⟨next, stepped, later⟩
      have steps := steps_of_step stepped
      have sound := coherent.sound
      have coherentNext := coherent_step system event next coherent stepped
      have asleep : ¬Wakes system next coro := by
        intro wakes
        have nestedDone := (done_of_wakes wakes steps sound (congrArg Point.awaits isPoint)).1
        rcases Option.isSome_iff_exists.mp nestedDone with ⟨outcome, ended⟩
        rw [result_of_run coherentNext ended later] at unfinished
        cases unfinished
      refine ih coherentNext ?_ (done_step steps sound done) later
      rw [point_of_asleep steps sound (by rw [isPoint]; trivial) asleep, isPoint]

theorem reaches_outer {nested : TaskId} (coherent : Coherent system)
    (isPoint : (system.coros coro).point = .multiAwaitRest task nested)
    (done : system.done task = true) (reaches : Reaches order (Returns nested) system) :
    Reaches order (Returns coro) system := by
  refine reaches.trans ?_
  intro count middle reached returns
  have coherentMiddle := coherent.run reached
  have unfinished := (returns.1.executes coherentMiddle.sound).2.1
  rcases nested_of_run coherent isPoint done reached unfinished with ⟨_, isPointMiddle, doneMiddle⟩
  exact reaches_up coherentMiddle returns isPointMiddle doneMiddle

theorem started_of_done (sound : Sound system) (done : system.done task = true) :
    (system.coros task).started = true := by
  by_contra notStarted
  have unfinished := (sound.placed.resting task (Bool.eq_false_iff.mpr notStarted)).1
  rw [TaskSystem.done, unfinished] at done
  cases done

/-- The nested coroutines for fewer tasks return. -/
def NestedReturn (Value Exc : Type) (order : IterationOrder) (rest : List TaskId) : Prop :=
  ∀ (system : TaskSystem Value Exc) nested, Coherent system → Gathers system rest nested →
    Done system rest → system.Acts nested → Reaches order (Returns nested) system

theorem reaches_of_multiRest (coherent : Coherent system) (acts : system.Acts coro)
    (isPoint : (system.coros coro).point = .multiRest task rest)
    (done : Done system (task :: rest)) (nestedReturn : NestedReturn Value Exc order rest) :
    Reaches order (Returns coro) system := by
  have sound := coherent.sound
  have taskDone := done task (List.mem_cons_self ..)
  have made := sound.placed.lt_made (acts.executes sound).1
  cases rest with
  | nil =>
      have isWait : ((system.goTo coro (.multiWait task)).coros coro).point = .multiWait task := by
        rw [point_goTo, if_pos rfl]
      refine reaches_step (system.goTo coro (.multiWait task)) ?_
        (reaches_of_multiWait acts isWait ?_)
      · exact step_of_proceed acts (by simp only [proceed, isPoint])
      · rwa [TaskSystem.done, result_goTo]
  | cons first rest =>
      have stepped : system.step (.proceed order) =
          some ((system.create (.multiStart first rest) true).awaitSuspend coro system.made
            (.multiAwaitRest task system.made)) :=
        step_of_proceed acts (by simp only [proceed, isPoint])
      have steps := steps_of_step stepped
      have coherentNext := coherent_step _ _ _ coherent stepped
      generalize isNext : (system.create (.multiStart first rest) true).awaitSuspend coro
        system.made (.multiAwaitRest task system.made) = next at stepped steps coherentNext
      have isOuter : (next.coros coro).point = .multiAwaitRest task system.made := by
        rw [← isNext, point_awaitSuspend, if_pos rfl]
      have isNested : (next.coros system.made).point = .multiStart first rest := by
        rw [← isNext, point_awaitSuspend, if_neg (Nat.ne_of_gt made), point_create, if_pos rfl]
      have actsNested : next.Acts system.made := by
        rw [← isNext, Acts, stack_awaitSuspend, started_create, if_pos rfl]
        rfl
      refine reaches_step next stepped ?_
      apply reaches_outer coherentNext isOuter (done_step steps sound taskDone)
      apply nestedReturn next system.made coherentNext (.multiStart isNested) _ actsNested
      exact fun other mem => done_step steps sound (done other (List.mem_cons_of_mem task mem))

/-- The coroutine itself executes. -/
theorem reaches_of_acts (coherent : Coherent system) (gathers : Gathers system range coro)
    (done : Done system range) (acts : system.Acts coro)
    (nestedReturn : ∀ task rest, range = task :: rest → NestedReturn Value Exc order rest) :
    Reaches order (Returns coro) system := by
  have sound := coherent.sound
  have executes := (acts.executes sound).2.2
  cases gathers with
  | allStart isPoint split =>
      refine reaches_of_allStart acts isPoint (fun task mem => ?_) done
      refine started_of_done sound (done task ?_)
      rw [split]
      exact List.mem_append_right _ mem
  | allWait isPoint split =>
      refine reaches_of_allWait acts isPoint fun task mem => done task ?_
      rw [split]
      exact List.mem_append_right _ mem
  | @multiStart rest _ task isPoint =>
      have taskStarted := started_of_done sound (done task (List.mem_cons_self ..))
      have stepped : system.step (.proceed order) =
          some (system.goTo coro (.multiRest task rest)) := by
        refine step_of_proceed acts ?_
        simp only [proceed, isPoint, start, started_goTo, taskStarted, if_true]
      have isRest : ((system.goTo coro (.multiRest task rest)).coros coro).point =
          .multiRest task rest := by
        rw [point_goTo, if_pos rfl]
      refine reaches_step _ stepped ?_
      exact reaches_of_multiRest (coherent_step _ _ _ coherent stepped) acts isRest
        (done_mono (steps_of_step stepped) sound done) (nestedReturn task rest rfl)
  | @multiRest rest _ task isPoint =>
      exact reaches_of_multiRest coherent acts isPoint done (nestedReturn task rest rfl)
  | multiWait isPoint => exact reaches_of_multiWait acts isPoint (done _ (List.mem_cons_self ..))
  | ending isPoint => exact reaches_here ⟨acts, isPoint⟩
  | allAwait isPoint | multiAwaitRest isPoint | multiAwait isPoint =>
      rw [isPoint] at executes
      exact absurd trivial executes

theorem nestedReturn (order : IterationOrder) (rest : List TaskId) :
    NestedReturn Value Exc order rest := by
  induction rest with
  | nil =>
      intro system nested coherent gathers done acts
      refine reaches_of_acts coherent gathers done acts ?_
      intro task rest isCons
      cases isCons
  | cons first rest ih =>
      intro system nested coherent gathers done acts
      refine reaches_of_acts coherent gathers done acts ?_
      rintro task others ⟨⟩
      exact ih

/-- When all tasks are done and a coroutine that serves the given one executes, nothing is waited
for any more. -/
theorem reaches_return {other : TaskId} (coherent : Coherent system)
    (gathers : Gathers system range coro) (done : Done system range)
    (serves : system.Serves coro other) (acts : system.Acts other) :
    Reaches order (Returns coro) system := by
  induction range generalizing coro with
  | nil =>
      rcases serves.cases_head with rfl | ⟨nested, ⟨task, isPoint⟩, later⟩
      · exact nestedReturn order [] system coro coherent gathers done acts
      · cases gathers <;> simp_all
  | cons first rest ih =>
      rcases serves.cases_head with rfl | ⟨nested, ⟨task, isPoint⟩, later⟩
      · exact nestedReturn order (first :: rest) system coro coherent gathers done acts
      · cases gathers with
        | multiAwaitRest isRest started gathersNested =>
            rw [isPoint] at isRest
            cases isRest
            refine reaches_outer coherent isPoint (done first (List.mem_cons_self ..)) ?_
            exact ih gathersNested (fun task mem => done task (List.mem_cons_of_mem _ mem)) later
        | _ => simp_all

end Returning

/-- What `all` and `multi` promise, in every state.  The coroutines that serve `all` are `all`
itself; those that serve `multi` are `multi` and the ones that it has called. -/
structure Contract (coro : TaskId) (range : List TaskId) (system : TaskSystem Value Exc) :
    Prop where
  startedOnce : system.startedTasks.Nodup
  startsFirst : ∀ other, system.Serves coro other → ∀ task ∈ range,
    task ∈ (system.coros other).point.awaits → ∀ each ∈ range, system.startedTasks.count each = 1
  linked : ∀ other, system.Serves coro other → ∀ task ∈ range,
    task ∈ (system.coros other).point.awaits →
      (system.coros task).awaitingCoro = some other ∧ system.done task = false
  returned : ∀ outcome, (system.coros coro).result = some outcome → outcome = .void ∧
    ∀ task ∈ range, system.done task = true ∧ system.startedTasks.count task = 1
  notMissed : (system.coros coro).started = true → system.done coro = false →
    Done system range → ∃ other, system.Serves coro other ∧ other ∈ system.stack
  returns : Done system range → ∀ other, system.Serves coro other → system.Acts other →
    ∀ order, Reaches order (fun final => (final.coros coro).result = some .void) system
  goesOn : ∀ other, system.Serves coro other → system.Acts other →
    ∀ order, (system.step (.proceed order)).isSome = true
  observed : ∀ other task outcome, .observed other task outcome ∈ system.trace →
    (system.coros task).result = some outcome

/-- What `all` and `multi` promise of every step. -/
structure StepContract (coro : TaskId) (range : List TaskId) (system : TaskSystem Value Exc)
    (event : TaskEvent Value Exc) (next : TaskSystem Value Exc) : Prop where
  kept : ∀ task outcome, (system.coros task).result = some outcome →
    (next.coros task).result = some outcome
  yields : ∀ actor task outcome, event = .await task → system.Acts actor →
    (system.coros task).result = some outcome →
      next.trace = system.trace ++ [.observed actor task outcome]
  /-- The completion that leaves no task unfinished resumes the coroutine. -/
  resumes : (system.coros coro).started = true →
    (∀ other, system.Serves coro other → other ∉ system.stack) → ¬Done system range →
    Done next range → ∃ other, system.Serves coro other ∧ Wakes system next other ∧
      next.Acts other
  /-- The tasks that are not started yet are started from the first to the last. -/
  inOrder : ∀ other, system.Serves coro other → system.Acts other → ∀ task,
    task < system.made → (system.coros task).started = false →
    (next.coros task).started = true →
      ∃ earlier later, range = earlier ++ task :: later ∧ Started system earlier

/-- A coroutine that is suspended on one of the tasks has started all of them. -/
theorem Gathers.all_started (gathers : Gathers system range coro) (coherent : Coherent system)
    (awaits : task ∈ (system.coros coro).point.awaits)
    (named : (system.coros task).temporary = false) : Started system range := by
  cases gathers with
  | allAwait isPoint split started => exact started
  | multiAwait isPoint started done =>
      intro each mem
      rcases List.mem_cons.mp mem with rfl | later
      · exact started
      · exact started_of_done coherent.sound (done each later)
  | multiAwaitRest isPoint =>
      have temporary := (coherent.nests.made _ _ _ isPoint).2.1
      rw [isPoint, Point.awaits, List.mem_singleton] at awaits
      rw [← awaits, named] at temporary
      cases temporary
  | allStart isPoint | allWait isPoint | multiStart isPoint | multiRest isPoint
  | multiWait isPoint | ending isPoint =>
      rw [isPoint] at awaits
      exact absurd awaits List.not_mem_nil

/-- A coroutine starts the first of its tasks that it has not started yet. -/
theorem Gathers.starts_next (gathers : Gathers system range coro)
    (advances : Advances system coro next) (made : task < system.made)
    (notStarted : (system.coros task).started = false)
    (starts : (next.coros task).started = true) :
    ∃ earlier later, range = earlier ++ task :: later ∧ Started system earlier := by
  rcases advances.starts made notStarted starts with ⟨point, startsTask⟩ | ⟨_, point, waits⟩
  · cases gathers with
    | allStart isPoint split started =>
        rw [isPoint] at startsTask
        cases startsTask
        exact ⟨_, _, split, started⟩
    | @multiStart rest _ _ isPoint =>
        rw [isPoint] at startsTask
        cases startsTask
        exact ⟨[], rest, rfl, by simp [Started]⟩
    | allWait isPoint | allAwait isPoint | multiRest isPoint | multiAwaitRest isPoint
    | multiWait isPoint | multiAwait isPoint | ending isPoint =>
        rw [isPoint] at startsTask
        cases startsTask
  · have alreadyStarted : (system.coros task).started = true := by
      cases gathers with
      | allWait isPoint split started =>
          rw [isPoint] at waits
          cases waits
          exact started task (by rw [split]; simp)
      | multiWait isPoint started =>
          rw [isPoint] at waits
          cases waits
          exact started
      | allStart isPoint | allAwait isPoint | multiStart isPoint | multiRest isPoint
      | multiAwaitRest isPoint | multiAwait isPoint | ending isPoint =>
          rw [isPoint] at waits
          cases waits
    rw [notStarted] at alreadyStarted
    cases alreadyStarted

/-- A coroutine is suspended while one that serves it is. -/
theorem Serves.suspends {other : TaskId} (serves : system.Serves coro other)
    (awaits : task ∈ (system.coros other).point.awaits) :
    (system.coros coro).point.Suspends := by
  rcases serves.cases_head with rfl | ⟨nested, ⟨first, isPoint⟩, _⟩
  · by_contra executes
    rw [Point.awaits_of_not_suspends executes] at awaits
    exact absurd awaits List.not_mem_nil
  · rw [isPoint]
    trivial

theorem owned_of_awaits (supervised : Supervised coro range system) {other : TaskId}
    (serves : system.Serves coro other) (awaits : task ∈ (system.coros other).point.awaits) :
    Owned coro range system := by
  rcases supervised.coherent.sound.of_suspends (Serves.suspends serves awaits) with
    ⟨_, started, unfinished, _⟩
  exact supervised.owned started (done_eq_false_iff.mpr unfinished)

theorem contract_of_gathers (supervised : Supervised coro range system)
    (gathers : Gathers system range coro) : Contract coro range system := by
  have coherent := supervised.coherent
  have sound := coherent.sound
  have traced := coherent.traced
  constructor
  · exact traced.nodup
  · intro other serves task mem awaits each memEach
    have owned := owned_of_awaits supervised serves awaits
    rcases gathers.of_serves serves with ⟨before, rest, rfl, started, gathersOther⟩
    apply traced.count_eq_one
    rcases List.mem_append.mp memEach with earlier | later
    · exact started each earlier
    · exact gathersOther.all_started coherent awaits (owned.named task mem) each later
  · intro other serves task mem awaits
    have owned := owned_of_awaits supervised serves awaits
    rw [done_eq_false_iff]
    exact (owned.awaits other task mem awaits).2
  · intro outcome ended
    rcases gathers.of_result sound ended with ⟨isVoid, done⟩
    refine ⟨isVoid, fun task mem => ⟨done task mem, ?_⟩⟩
    exact traced.count_eq_one (started_of_done sound (done task mem))
  · intro started unfinished done
    rcases gathers.runs_or_waits coherent started (done_eq_false_iff.mp unfinished) with
      ⟨other, serves, runs | ⟨task, mem, awaits⟩⟩
    · exact ⟨other, serves, runs⟩
    · have owned := supervised.owned started unfinished
      have suspended := (owned.awaits other task mem (by simp [awaits])).2.2
      have isDone := done task mem
      rw [TaskSystem.done, suspended] at isDone
      cases isDone
  · intro done other serves acts order
    refine (reaches_return coherent gathers done serves acts).trans ?_
    intro count middle reached returns
    rcases returns.completes (coherent.run reached).sound order with ⟨next, stepped, completed⟩
    exact reaches_step next stepped (reaches_here completed)
  · intro other serves acts order
    rcases gathers.of_serves serves with ⟨before, rest, _, _, gathersOther⟩
    exact acts.proceed_isSome sound gathersOther.ne_user order
  · exact traced.observed

theorem stepContract_of_gathers (supervised : Supervised coro range system)
    (gathers : Gathers system range coro) (stepped : system.step event = some next) :
    StepContract coro range system event next := by
  have coherent := supervised.coherent
  have sound := coherent.sound
  have steps := steps_of_step stepped
  constructor
  · intro task outcome ended
    exact result_stable steps sound ended
  · rintro actor task outcome rfl acts ended
    rcases acts.exists_shape with ⟨below, shape⟩
    simp only [step, shape] at stepped
    split at stepped
    · rw [← Option.some.inj stepped, await, ended]
    · cases stepped
  · intro started nobodyRuns notDone doneAfter
    have unfinished : system.done coro = false := by
      rw [done_eq_false_iff, Option.eq_none_iff_forall_not_mem]
      intro outcome ended
      exact notDone (gathers.of_result sound ended).2
    have owned := supervised.owned started unfinished
    rcases gathers.runs_or_waits coherent started (done_eq_false_iff.mp unfinished) with
      ⟨other, serves, runs | ⟨task, mem, awaits⟩⟩
    · exact absurd runs (nobodyRuns other serves)
    · rcases owned.awaits other task mem (by simp [awaits]) with ⟨_, linked, suspended⟩
      rcases result_step steps task (owned.made task mem) with same | ⟨acts, outcome, _, ended⟩
      · have isDone := doneAfter task mem
        rw [TaskSystem.done, same, suspended] at isDone
        cases isDone
      · have wakes : Wakes system next other := ⟨task, acts, linked, by rw [ended]; simp⟩
        exact ⟨other, serves, wakes, (wakes.resumption steps sound).1⟩
  · intro other serves acts task made notStarted starts
    rcases gathers.of_serves serves with ⟨before, rest, rfl, started, gathersOther⟩
    have advances := acts.advances steps sound gathersOther.ne_user
    rcases gathersOther.starts_next advances made notStarted starts with
      ⟨earlier, later, rfl, startedEarlier⟩
    refine ⟨before ++ earlier, later, (List.append_assoc ..).symm, ?_⟩
    intro each mem
    rcases List.mem_append.mp mem with outside | inside
    · exact started each outside
    · exact startedEarlier each inside

/-- The functions that wait for all of their tasks. -/
def WaitsForAll : Body → Prop
  | .all _ | .multi _ _ => True
  | _ => False

theorem gathers_call {body : Body} (waitsForAll : WaitsForAll body)
    (called : system.step (.create body) = some next) :
    Gathers next body.tasks system.made := by
  have isPoint : (next.coros system.made).point = body.point := by
    rw [eq_create called, point_create, if_pos rfl]
  cases body with
  | all range => exact .allStart isPoint (List.nil_append range).symm (by simp [Started])
  | multi first rest => exact .multiStart isPoint
  | _ => exact absurd waitsForAll id

/-- For every list of tasks that nobody else awaits until `all` or `multi` is done, whatever else
the program does and in whatever order the tasks complete. -/
theorem gathers_throughout {system start : TaskSystem Value Exc} {body : Body}
    {before events : List (TaskEvent Value Exc)}
    (reached : Transition.run step init before = some system) (waitsForAll : WaitsForAll body)
    (called : system.step (.create body) = some start)
    (alone : Transition.Along step (Undisturbed system.made body.tasks) start events) :
    Transition.Throughout step (Contract system.made body.tasks) start events ∧
      Transition.Along step (fun state event => ∀ next, state.step event = some next →
        StepContract system.made body.tasks state event next) start events := by
  have supervised := supervised_call reached called
  have invariant : Transition.Throughout step (fun state =>
      Supervised system.made body.tasks state ∧ Gathers state body.tasks system.made)
      start events := by
    refine Transition.throughout_of_along ?_ ⟨supervised, gathers_call waitsForAll called⟩ alone
    rintro state event next ⟨supervisedState, gathers⟩ undisturbed stepped
    exact ⟨supervised_step supervisedState undisturbed stepped,
      gathers_step supervisedState.coherent stepped supervisedState.made gathers⟩
  constructor
  · exact invariant.mono fun state holds => contract_of_gathers holds.1 holds.2
  · intro first event rest state split reachedState next stepped
    have holds := invariant first (event :: rest) state split reachedState
    exact stepContract_of_gathers holds.1 holds.2 stepped

/-- `all` starts three tasks, which complete in another order while it waits, one with an
exception. -/
def allOutOfOrder : List (TaskEvent Unit Unit) :=
  [.proceed .insertion, .suspend, .proceed .insertion, .suspend, .proceed .insertion, .suspend,
    .proceed .insertion, .proceed .insertion, .resume 2, .finish (.ok ()) .insertion, .resume 0,
    .finish (.error ()) .insertion, .proceed .insertion, .resume 1, .finish (.ok ()) .insertion,
    .proceed .insertion, .proceed .insertion, .proceed .insertion]

/-- `multi` starts three tasks through the coroutines nested in it, and they complete in another
order. -/
def multiOutOfOrder : List (TaskEvent Unit Unit) :=
  [.proceed .insertion, .suspend, .proceed .insertion, .proceed .insertion, .suspend,
    .proceed .insertion, .proceed .insertion, .suspend, .proceed .insertion, .proceed .insertion,
    .resume 1, .finish (.ok ()) .insertion, .resume 2, .finish (.error ()) .insertion,
    .proceed .insertion, .proceed .insertion, .proceed .insertion, .proceed .insertion, .resume 0,
    .finish (.ok ()) .insertion, .proceed .insertion]

theorem undisturbed_allOutOfOrder : Transition.Along step (Undisturbed 3 [0, 1, 2])
    (calledOn (.all [0, 1, 2])) (.start 3 :: allOutOfOrder) :=
  undisturbed_calledOn (by decide +kernel)

theorem undisturbed_multiOutOfOrder : Transition.Along step (Undisturbed 3 [0, 1, 2])
    (calledOn (.multi 0 [1, 2])) (.start 3 :: multiOutOfOrder) :=
  undisturbed_calledOn (by decide +kernel)

theorem gathers_outOfOrder :
    ((Transition.Throughout step (Contract 3 [0, 1, 2]) (calledOn (.all [0, 1, 2]))
          (.start 3 :: allOutOfOrder) ∧
        Transition.Along step (fun state event => ∀ next, state.step event = some next →
          StepContract 3 [0, 1, 2] state event next) (calledOn (.all [0, 1, 2]))
          (.start 3 :: allOutOfOrder)) ∧
      ∃ final, Transition.run step (calledOn (.all [0, 1, 2])) (.start 3 :: allOutOfOrder) =
          some final ∧
        (final.coros 3).result = some .void ∧ (final.coros 0).result = some (.exception ())) ∧
    (Transition.Throughout step (Contract 3 [0, 1, 2]) (calledOn (.multi 0 [1, 2]))
          (.start 3 :: multiOutOfOrder) ∧
        Transition.Along step (fun state event => ∀ next, state.step event = some next →
          StepContract 3 [0, 1, 2] state event next) (calledOn (.multi 0 [1, 2]))
          (.start 3 :: multiOutOfOrder)) ∧
      ∃ final, Transition.run step (calledOn (.multi 0 [1, 2])) (.start 3 :: multiOutOfOrder) =
          some final ∧
        (final.coros 3).result = some .void ∧ (final.coros 2).result = some (.exception ()) := by
  have waitsForAll : WaitsForAll (.all [0, 1, 2]) := trivial
  have multiWaitsForAll : WaitsForAll (.multi 0 [1, 2]) := trivial
  refine ⟨⟨?_, _, rfl, rfl, rfl⟩, ?_, _, rfl, rfl, rfl⟩
  · exact gathers_throughout run_threeTasks waitsForAll rfl undisturbed_allOutOfOrder
  · exact gathers_throughout run_threeTasks multiWaitsForAll rfl undisturbed_multiOutOfOrder

end Gather

end EventAsync
