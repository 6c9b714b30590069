import EventAsync.FdAwaiters

/-!
# Reading and writing a descriptor

`Base::read` and `Base::write` transfer a given number of bytes.  The first
system call is made in `await_ready`, before the coroutine is suspended, and
each further one in the callback of the event.  Both pieces of code advance the
pointer and the remaining size, or end the transfer.

Neither of them looks for the end of the stream: a `read` that returns zero is
taken for a short one, so the event is added again, and `eof` is never set.
-/

namespace EventAsync

open ByteCodec

section CoAwait

variable {Awaiter Result : Type}

/-- The functions of an awaiter that makes a system call in `await_ready` and in its callback. -/
structure FdAwait (Awaiter Result : Type) where
  awaitReady : Awaiter → Result → Except Stop Bool × Awaiter
  callback : Awaiter → Result → List Action × Awaiter
  awaitResume : Awaiter → Except Stop Unit

/-- How far a `co_await` has come. -/
inductive CoAwait (Awaiter : Type) where
  | suspended (awaiter : Awaiter)
  | ended (outcome : Except Stop Unit) (awaiter : Awaiter)

namespace CoAwait

def awaiter : CoAwait Awaiter → Awaiter
  | suspended awaiter => awaiter
  | ended _ awaiter => awaiter

end CoAwait

/-- A `co_await` after some turns of the event loop, given the results of the system calls. An
exception of `await_ready` leaves the `co_await` before the coroutine is suspended. -/
def coAwait (await : FdAwait Awaiter Result) (awaiter : Awaiter) (results : ℕ → Result)
    (turns : ℕ) : CoAwait Awaiter :=
  match await.awaitReady awaiter (results 0) with
  | (.error stop, after) => .ended (.error stop) after
  | (.ok true, after) => .ended (await.awaitResume after) after
  | (.ok false, after) =>
      let suspension := turned await.callback after (fun call => results (call + 1)) turns
      if suspension.resumptions = 0 then .suspended suspension.state.1
      else .ended (await.awaitResume suspension.state.1) suspension.state.1

/-- The awaiter answers each result of its call in one way, wherever the call is made: it makes
another one, or the `co_await` ends with an outcome. -/
structure Polls (await : FdAwait Awaiter Result) (keeps : Awaiter → Prop)
    (poll : Awaiter → Result → Option (Except Stop Unit)) (next : Awaiter → Result → Awaiter) :
    Prop where
  keeps_next : ∀ awaiter result, keeps awaiter → poll awaiter result = none →
    keeps (next awaiter result)
  ready_again : ∀ awaiter result, keeps awaiter → poll awaiter result = none →
    await.awaitReady awaiter result = (.ok false, next awaiter result)
  ready_done : ∀ awaiter result, keeps awaiter → poll awaiter result = some (.ok ()) →
    await.awaitReady awaiter result = (.ok true, next awaiter result) ∧
      await.awaitResume (next awaiter result) = .ok ()
  ready_raises : ∀ awaiter result stop, keeps awaiter → poll awaiter result = some (.error stop) →
    (await.awaitReady awaiter result).1 = .error stop
  callback_again : ∀ awaiter result, keeps awaiter → poll awaiter result = none →
    await.callback awaiter result = ([.eventAdd], next awaiter result)
  callback_done : ∀ awaiter result, keeps awaiter → poll awaiter result = some (.ok ()) →
    await.callback awaiter result = ([.resume], next awaiter result)
  callback_raises : ∀ awaiter result stop, keeps awaiter →
    poll awaiter result = some (.error stop) → (await.callback awaiter result).1 = [.resume] ∧
      await.awaitResume (await.callback awaiter result).2 = .error stop

/-- The awaiter after some calls. -/
def polled (next : Awaiter → Result → Awaiter) (awaiter : Awaiter) (results : ℕ → Result) :
    ℕ → Awaiter
  | 0 => awaiter
  | calls + 1 => next (polled next awaiter results calls) (results calls)

variable {await : FdAwait Awaiter Result} {keeps : Awaiter → Prop}
  {poll : Awaiter → Result → Option (Except Stop Unit)} {next : Awaiter → Result → Awaiter}
  {awaiter : Awaiter} {results : ℕ → Result}

theorem polled_succ_eq (calls : ℕ) : polled next awaiter results (calls + 1) =
    polled next (next awaiter (results 0)) (fun call => results (call + 1)) calls := by
  induction calls with
  | zero => rfl
  | succ calls ih =>
      rw [polled, ih]
      rfl

namespace Polls

theorem keeps_polled (polls : Polls await keeps poll next) (initially : keeps awaiter)
    {calls : ℕ}
    (again : ∀ earlier < calls,
      poll (polled next awaiter results earlier) (results earlier) = none) :
    keeps (polled next awaiter results calls) := by
  induction calls with
  | zero => exact initially
  | succ calls ih =>
      apply polls.keeps_next
      · exact ih fun earlier before => again earlier (Nat.lt_succ_of_lt before)
      · exact again calls (Nat.lt_succ_self calls)

/-- The callback has made one call at each turn of the event loop. -/
theorem turned_of_again (polls : Polls await keeps poll next) (initially : keeps awaiter)
    {turns : ℕ}
    (again : ∀ earlier < turns,
      poll (polled next awaiter results earlier) (results earlier) = none) :
    turned await.callback awaiter results turns =
      Suspension.start (polled next awaiter results turns, fun call => results (call + turns)) := by
  induction turns with
  | zero => rfl
  | succ turns ih =>
      have earlierAgain := fun earlier before => again earlier (Nat.lt_succ_of_lt before)
      have kept := polls.keeps_polled initially earlierAgain
      have answer := polls.callback_again _ _ kept (again turns (Nat.lt_succ_self turns))
      rw [turned_succ, ih earlierAgain]
      simp [Suspension.fire, Suspension.start, answering, answer, polled, Nat.add_comm 1,
        Nat.add_assoc]

/-- The first call in a callback that is not followed by another one resumes the coroutine. -/
theorem turned_of_ends (polls : Polls await keeps poll next) (initially : keeps awaiter)
    {turns call : ℕ} (before : call < turns)
    (again : ∀ earlier < call, poll (polled next awaiter results earlier) (results earlier) = none)
    {outcome : Except Stop Unit}
    (ends : poll (polled next awaiter results call) (results call) = some outcome) :
    (turned await.callback awaiter results turns).resumptions = 1 ∧
      (turned await.callback awaiter results turns).state.1 =
        (await.callback (polled next awaiter results call) (results call)).2 := by
  have kept := polls.keeps_polled initially again
  have resume : (await.callback (polled next awaiter results call) (results call)).1 =
      [.resume] := by
    cases outcome with
    | ok result => rw [polls.callback_done _ _ kept ends]
    | error stop => exact (polls.callback_raises _ _ _ kept ends).1
  have fired : turned await.callback awaiter results (call + 1) =
      { state := ((await.callback (polled next awaiter results call) (results call)).2,
          fun later => results (later + (call + 1)))
        armed := false
        resumptions := 1 } := by
    rw [turned_succ, polls.turned_of_again initially again]
    simp [Suspension.fire, Suspension.start, answering, resume, Nat.add_comm 1, Nat.add_assoc]
  have settled : turned await.callback awaiter results turns =
      turned await.callback awaiter results (call + 1) := by
    apply Suspension.fired_eq_of_le before
    exact congrArg Suspension.armed fired
  rw [settled, fired]
  exact ⟨rfl, rfl⟩

/-- The coroutine is suspended as long as every call is followed by another one. -/
theorem coAwait_of_again (polls : Polls await keeps poll next) (initially : keeps awaiter)
    {turns : ℕ}
    (again : ∀ earlier ≤ turns,
      poll (polled next awaiter results earlier) (results earlier) = none) :
    coAwait await awaiter results turns = .suspended (polled next awaiter results (turns + 1)) := by
  have first := again 0 (Nat.zero_le turns)
  have later : ∀ earlier < turns,
      poll (polled next (next awaiter (results 0)) (fun call => results (call + 1)) earlier)
        (results (earlier + 1)) = none := by
    intro earlier before
    rw [← polled_succ_eq]
    exact again (earlier + 1) before
  rw [coAwait, polls.ready_again _ _ initially first, polled_succ_eq]
  simp only [polls.turned_of_again (polls.keeps_next _ _ initially first) later, Suspension.start,
    if_true]

/-- The `co_await` ends as the first call does that is not followed by another one. -/
theorem coAwait_of_ends (polls : Polls await keeps poll next) (initially : keeps awaiter)
    {turns call : ℕ} (le : call ≤ turns)
    (again : ∀ earlier < call, poll (polled next awaiter results earlier) (results earlier) = none)
    {outcome : Except Stop Unit}
    (ends : poll (polled next awaiter results call) (results call) = some outcome) :
    ∃ after, coAwait await awaiter results turns = .ended outcome after ∧
      (outcome = .ok () → after = polled next awaiter results (call + 1)) := by
  cases call with
  | zero =>
      cases outcome with
      | ok result =>
          have done := polls.ready_done _ _ initially ends
          refine ⟨next awaiter (results 0), ?_, fun _ => rfl⟩
          rw [coAwait, done.1]
          simp only [done.2]
      | error stop =>
          have raised := polls.ready_raises _ _ _ initially ends
          refine ⟨(await.awaitReady awaiter (results 0)).2, ?_, nofun⟩
          rw [coAwait, ← Prod.mk.eta (p := await.awaitReady awaiter (results 0)), raised]
  | succ call =>
      have first := again 0 (Nat.succ_pos call)
      have initiallyLater := polls.keeps_next _ _ initially first
      have later : ∀ earlier < call,
          poll (polled next (next awaiter (results 0)) (fun call => results (call + 1)) earlier)
            (results (earlier + 1)) = none := by
        intro earlier before
        rw [← polled_succ_eq]
        exact again (earlier + 1) (Nat.succ_lt_succ before)
      rw [polled_succ_eq] at ends
      have resumed := polls.turned_of_ends initiallyLater le later ends
      have kept := polls.keeps_polled initiallyLater later
      refine ⟨(await.callback (polled next (next awaiter (results 0))
        (fun call => results (call + 1)) call) (results (call + 1))).2, ?_, ?_⟩
      · have answered : await.awaitResume (await.callback (polled next (next awaiter (results 0))
            (fun call => results (call + 1)) call) (results (call + 1))).2 = outcome := by
          cases outcome with
          | ok result =>
              rw [polls.callback_done _ _ kept ends]
              exact (polls.ready_done _ _ kept ends).2
          | error stop => exact (polls.callback_raises _ _ _ kept ends).2
        rw [coAwait, polls.ready_again _ _ initially first]
        simp only [resumed, one_ne_zero, if_false, answered]
      · rintro rfl
        rw [polls.callback_done _ _ kept ends, polled_succ_eq]
        rfl

/-- A `co_await` that has ended has done so at its first call that is not followed by another. -/
theorem ends_of_coAwait (polls : Polls await keeps poll next) (initially : keeps awaiter)
    {turns : ℕ} {outcome : Except Stop Unit} {after : Awaiter}
    (ended : coAwait await awaiter results turns = .ended outcome after) :
    ∃ call ≤ turns,
      (∀ earlier < call, poll (polled next awaiter results earlier) (results earlier) = none) ∧
      poll (polled next awaiter results call) (results call) = some outcome ∧
      (outcome = .ok () → after = polled next awaiter results (call + 1)) := by
  have some_ends : ∃ call, call ≤ turns ∧
      poll (polled next awaiter results call) (results call) ≠ none := by
    by_contra all
    have again : ∀ earlier ≤ turns,
        poll (polled next awaiter results earlier) (results earlier) = none := by
      intro earlier le
      by_contra ends
      exact all ⟨earlier, le, ends⟩
    rw [polls.coAwait_of_again initially again] at ended
    simp at ended
  have first := Nat.find_spec some_ends
  have again : ∀ earlier < Nat.find some_ends,
      poll (polled next awaiter results earlier) (results earlier) = none := by
    intro earlier before
    have notYet := Nat.find_min some_ends before
    by_contra ends
    exact notYet ⟨by omega, ends⟩
  rcases Option.ne_none_iff_exists'.mp first.2 with ⟨other, ends⟩
  rcases polls.coAwait_of_ends initially first.1 again ends with ⟨last, eq, polledLast⟩
  rw [eq] at ended
  cases ended
  exact ⟨Nat.find some_ends, first.1, again, ends, polledLast⟩

end Polls

/-- What both pieces of code preserve holds at every moment. -/
theorem coAwait_preserves {holds : Awaiter → Prop}
    (ready : ∀ awaiter result, holds awaiter → holds (await.awaitReady awaiter result).2)
    (callback : ∀ awaiter result, holds awaiter → holds (await.callback awaiter result).2)
    (initially : holds awaiter) (turns : ℕ) :
    holds (coAwait await awaiter results turns).awaiter := by
  have readied := ready awaiter (results 0) initially
  have later : holds (turned await.callback (await.awaitReady awaiter (results 0)).2
      (fun call => results (call + 1)) turns).state.1 := by
    refine @Suspension.fired_preserves _ _
      (fun suspension : Suspension (Awaiter × (ℕ → Result)) => holds suspension.state.1) ?_ turns _
      readied
    intro suspension held
    rw [Suspension.fire]
    split
    · exact callback _ _ held
    · exact held
  rw [coAwait]
  generalize await.awaitReady awaiter (results 0) = answer at readied later
  rcases answer with ⟨stop | done, after⟩
  · exact readied
  · cases done with
    | true => exact readied
    | false =>
        dsimp only
        split
        · exact later
        · exact later

end CoAwait

namespace Base

section Read

/-- The first system call of `Base::read`. -/
def ReadAwaiter.awaitReady (awaiter : ReadAwaiter) :
    SystemCall Bytes → Except Stop Bool × ReadAwaiter
  | .wouldBlock => (.ok false, awaiter)
  | .failed => (.error (.runtimeError "failed to read from fd"), awaiter)
  | .returned bytes =>
      let stored := bytes.take awaiter.size
      if stored.length < awaiter.size then
        (.ok false,
          { awaiter with
            filled := awaiter.filled ++ stored
            size := awaiter.size - stored.length })
      else (.ok true, { awaiter with filled := awaiter.filled ++ stored, size := 0 })

def ReadAwaiter.awaitResume (awaiter : ReadAwaiter) : Except Stop Unit :=
  if awaiter.err then .error (.runtimeError "failed to read from fd")
  else if awaiter.eof then .error (.runtimeError "end of stream")
  else .ok ()

def ReadAwaiter.create (size : ℕ) : ReadAwaiter where
  filled := []
  size := size
  err := false
  eof := false

def ReadAwaiter.await : FdAwait ReadAwaiter (SystemCall Bytes) where
  awaitReady := awaitReady
  callback := onReadReady
  awaitResume := awaitResume

/-- `Base::read` after some turns of the event loop. -/
def read (size : ℕ) (results : ℕ → SystemCall Bytes) (turns : ℕ) : CoAwait ReadAwaiter :=
  coAwait ReadAwaiter.await (ReadAwaiter.create size) results turns

/-- `Base::read` into a string of its own: what it returns once it has ended. -/
def readString (size : ℕ) (results : ℕ → SystemCall Bytes) (turns : ℕ) :
    Option (Except Stop Bytes) :=
  match read size results turns with
  | .suspended _ => none
  | .ended (.error stop) _ => some (.error stop)
  | .ended (.ok _) awaiter => some (.ok (awaiter.filled ++ List.replicate awaiter.size 0))

/-- The bytes of the stream that some calls have returned; each is asked for those that are still
missing. -/
def received (size : ℕ) (results : ℕ → SystemCall Bytes) : ℕ → Bytes
  | 0 => []
  | calls + 1 =>
      match results calls with
      | .returned bytes =>
          received size results calls ++ bytes.take (size - (received size results calls).length)
      | _ => received size results calls

/-- Bytes are missing at this call, and neither an error nor the end of the stream has been seen. -/
def Pending (size : ℕ) (results : ℕ → SystemCall Bytes) (call : ℕ) : Prop :=
  ∀ earlier < call, results earlier = .wouldBlock ∨
    ∃ bytes, results earlier = .returned bytes ∧ bytes ≠ [] ∧
      (received size results (earlier + 1)).length < size

/-- `read` stores exactly the bytes that were asked for, or reports why it cannot. -/
structure ReadsExactly (size : ℕ) (results : ℕ → SystemCall Bytes) : Prop where
  returns : ∀ turns awaiter, read size results turns = .ended (.ok ()) awaiter →
    awaiter.filled.length = size ∧ ∃ calls ≤ turns + 1, awaiter.filled = received size results calls
  endOfStream : ∀ call turns, call ≤ turns → Pending size results call →
    results call = .returned [] → (received size results call).length < size →
      ∃ awaiter, read size results turns =
        .ended (.error (.runtimeError "end of stream")) awaiter
  failure : ∀ call turns, call ≤ turns → Pending size results call → results call = .failed →
    ∃ awaiter, read size results turns =
      .ended (.error (.runtimeError "failed to read from fd")) awaiter
  /-- The overload that returns a string returns these bytes. -/
  string : ∀ turns bytes, readString size results turns = some (.ok bytes) →
    bytes.length = size ∧ ∃ calls ≤ turns + 1, bytes = received size results calls

namespace ReadAwaiter

/-- What the awaiter does about a result: it reads again unless there is an error or nothing is
missing any more. -/
def poll (awaiter : ReadAwaiter) : SystemCall Bytes → Option (Except Stop Unit)
  | .wouldBlock => none
  | .failed => some (.error (.runtimeError "failed to read from fd"))
  | .returned bytes =>
      if (bytes.take awaiter.size).length < awaiter.size then none else some (.ok ())

def next (awaiter : ReadAwaiter) : SystemCall Bytes → ReadAwaiter
  | .returned bytes =>
      { awaiter with
        filled := awaiter.filled ++ bytes.take awaiter.size
        size := awaiter.size - (bytes.take awaiter.size).length }
  | _ => awaiter

section Poll

variable {awaiter : ReadAwaiter} {result : SystemCall Bytes}

theorem short_of_again (again : poll awaiter result = none) : result = .wouldBlock ∨
    ∃ bytes, result = .returned bytes ∧ (bytes.take awaiter.size).length < awaiter.size := by
  cases result with
  | wouldBlock => exact Or.inl rfl
  | failed => simp [poll] at again
  | returned bytes =>
      rw [poll] at again
      split at again
      · exact Or.inr ⟨bytes, rfl, ‹_›⟩
      · simp at again

theorem full_of_done (done : poll awaiter result = some (.ok ())) :
    ∃ bytes, result = .returned bytes ∧ awaiter.size ≤ (bytes.take awaiter.size).length := by
  cases result with
  | wouldBlock => simp [poll] at done
  | failed => simp [poll] at done
  | returned bytes =>
      rw [poll] at done
      split at done
      · simp at done
      · exact ⟨bytes, rfl, not_lt.mp ‹_›⟩

theorem failed_of_raises {stop : Stop} (raises : poll awaiter result = some (.error stop)) :
    result = .failed ∧ stop = .runtimeError "failed to read from fd" := by
  cases result with
  | wouldBlock => simp [poll] at raises
  | failed => simpa [poll, eq_comm] using raises
  | returned bytes =>
      rw [poll] at raises
      split at raises <;> simp at raises

end Poll

theorem polls : Polls await (fun awaiter => awaiter.err = false ∧ awaiter.eof = false) poll
    next where
  keeps_next := by
    intro awaiter result kept _
    cases result with
    | wouldBlock => exact kept
    | failed => exact kept
    | returned bytes => exact kept
  ready_again := by
    intro awaiter result _ again
    rcases short_of_again again with rfl | ⟨bytes, rfl, short⟩
    · rfl
    · simp only [await, awaitReady, short, if_true, next]
  ready_done := by
    intro awaiter result kept done
    rcases full_of_done done with ⟨bytes, rfl, full⟩
    refine ⟨?_, ?_⟩
    · simp only [await, awaitReady, full.not_gt, if_false, next, Nat.sub_eq_zero_of_le full]
    · simp [await, awaitResume, next, kept]
  ready_raises := by
    intro awaiter result stop _ raises
    rcases failed_of_raises raises with ⟨rfl, rfl⟩
    rfl
  callback_again := by
    intro awaiter result _ again
    rcases short_of_again again with rfl | ⟨bytes, rfl, short⟩
    · rfl
    · simp only [await, onReadReady, short, if_true, next]
  callback_done := by
    intro awaiter result _ done
    rcases full_of_done done with ⟨bytes, rfl, full⟩
    simp only [await, onReadReady, full.not_gt, if_false, next, Nat.sub_eq_zero_of_le full]
  callback_raises := by
    intro awaiter result stop _ raises
    rcases failed_of_raises raises with ⟨rfl, rfl⟩
    exact ⟨rfl, rfl⟩

variable {size : ℕ} {results : ℕ → SystemCall Bytes}

theorem received_length_le (calls : ℕ) : (received size results calls).length ≤ size := by
  induction calls with
  | zero => exact Nat.zero_le size
  | succ calls ih =>
      rw [received]
      split
      · rw [List.length_append, List.length_take]
        omega
      · exact ih

/-- Some calls have stored what they have returned, and the rest is still missing. -/
theorem polled_create (calls : ℕ) : polled next (create size) results calls =
    { filled := received size results calls
      size := size - (received size results calls).length
      err := false
      eof := false } := by
  induction calls with
  | zero => rfl
  | succ calls ih =>
      rw [polled, ih, received]
      cases results calls with
      | wouldBlock => rfl
      | failed => rfl
      | returned bytes =>
          simp only [next, List.length_append]
          congr 1
          omega

theorem poll_polled_returned {call : ℕ} {bytes : Bytes}
    (returned : results call = .returned bytes) :
    poll (polled next (create size) results call) (results call) =
      if (received size results (call + 1)).length < size then none else some (.ok ()) := by
  have le := @received_length_le size results call
  simp only [polled_create, returned, poll, received, List.length_append]
  congr 1
  rw [eq_iff_iff]
  omega

/-- The awaiter makes each call up to one at which bytes are missing. -/
theorem again_of_pending {call : ℕ} (pending : Pending size results call) :
    ∀ earlier < call,
      poll (polled next (create size) results earlier) (results earlier) = none := by
  intro earlier before
  rcases pending earlier before with blocked | ⟨bytes, returned, _, missing⟩
  · rw [blocked]
    rfl
  · rw [poll_polled_returned returned, if_pos missing]

end ReadAwaiter

variable {size : ℕ} {results : ℕ → SystemCall Bytes}

/-- Whatever the results are, a `co_await` that returns has stored all the bytes. -/
theorem read_ok {turns : ℕ} {awaiter : ReadAwaiter}
    (ended : read size results turns = .ended (.ok ()) awaiter) :
    ∃ calls ≤ turns + 1, (received size results calls).length = size ∧
      awaiter.filled = received size results calls ∧ awaiter.size = 0 := by
  rcases ReadAwaiter.polls.ends_of_coAwait ⟨rfl, rfl⟩ ended with ⟨call, le, _, done, last⟩
  have bounded := @ReadAwaiter.received_length_le size results (call + 1)
  have full : (received size results (call + 1)).length = size := by
    rcases ReadAwaiter.full_of_done done with ⟨bytes, returned, _⟩
    rw [ReadAwaiter.poll_polled_returned returned] at done
    split at done
    · simp at done
    · omega
  rw [last rfl, ReadAwaiter.polled_create]
  refine ⟨call + 1, by omega, full, rfl, ?_⟩
  dsimp only
  omega

theorem readString_ok {turns : ℕ} {bytes : Bytes}
    (returned : readString size results turns = some (.ok bytes)) :
    bytes.length = size ∧ ∃ calls ≤ turns + 1, bytes = received size results calls := by
  rw [readString] at returned
  cases ended : read size results turns with
  | suspended awaiter => simp [ended] at returned
  | ended outcome awaiter =>
      cases outcome with
      | error stop => simp [ended] at returned
      | ok result =>
          rcases read_ok ended with ⟨calls, le, full, filled, complete⟩
          have eq : bytes = received size results calls := by
            simpa [ended, filled, complete, eq_comm] using returned
          exact ⟨by rw [eq, full], calls, le, eq⟩

/-- The end of the stream is reported in no run. -/
theorem ReadsExactly.lasts (exactly : ReadsExactly size results) {call : ℕ}
    (pending : Pending size results call) (ending : results call = .returned []) :
    size ≤ (received size results call).length := by
  by_contra missing
  rcases exactly.endOfStream call call le_rfl pending ending (by omega) with ⟨awaiter, ended⟩
  rcases ReadAwaiter.polls.ends_of_coAwait ⟨rfl, rfl⟩ ended with ⟨last, le, _, ends, _⟩
  by_cases before : last < call
  · rw [ReadAwaiter.again_of_pending pending last before] at ends
    simp at ends
  · have here : last = call := by omega
    subst here
    have failed := (ReadAwaiter.failed_of_raises ends).1
    rw [ending] at failed
    cases failed

/-- `read` does what it should exactly if the stream does not end while bytes are missing. -/
theorem readsExactly_fd_iff (size : ℕ) (results : ℕ → SystemCall Bytes) :
    ReadsExactly size results ↔ ∀ call, Pending size results call → results call = .returned [] →
      size ≤ (received size results call).length := by
  constructor
  · intro exactly call pending ending
    exact exactly.lasts pending ending
  · intro lasts
    refine ⟨?_, ?_, ?_, fun turns bytes => readString_ok⟩
    · intro turns awaiter ended
      rcases read_ok ended with ⟨calls, le, full, filled, _⟩
      exact ⟨by rw [filled, full], calls, le, filled⟩
    · intro call turns _ pending ending missing
      have enough := lasts call pending ending
      omega
    · intro call turns le pending failed
      have ends : (polled ReadAwaiter.next (ReadAwaiter.create size) results call).poll
          (results call) = some (.error (.runtimeError "failed to read from fd")) := by
        rw [failed]
        rfl
      rcases ReadAwaiter.polls.coAwait_of_ends ⟨rfl, rfl⟩ le
        (ReadAwaiter.again_of_pending pending) ends with ⟨awaiter, ended, _⟩
      exact ⟨awaiter, ended⟩

/-- The peer closes the connection before it has sent a byte. -/
theorem not_readsExactly_closed : ¬ReadsExactly 1 fun _ => .returned [] := by
  intro exactly
  have pending : Pending 1 (fun _ => .returned []) 0 := nofun
  have enough := exactly.lasts pending rfl
  simp [received] at enough

end Read

section Write

/-- The first system call of `Base::write`. -/
def WriteAwaiter.awaitReady (awaiter : WriteAwaiter) :
    SystemCall ℕ → Except Stop Bool × WriteAwaiter
  | .wouldBlock => (.ok false, awaiter)
  | .failed => (.error (.runtimeError "failed to write to fd"), awaiter)
  | .returned count =>
      if count < awaiter.data.length then
        (.ok false, { awaiter with data := awaiter.data.drop count })
      else (.ok true, { awaiter with data := [] })

def WriteAwaiter.awaitResume (awaiter : WriteAwaiter) : Except Stop Unit :=
  if awaiter.err then .error (.runtimeError "failed to write to fd") else .ok ()

/-- The awaiter with what the descriptor has accepted. -/
structure Writing where
  awaiter : WriteAwaiter
  accepted : Bytes

namespace Writing

/-- `write` accepts the first bytes of those it is given. -/
def accepts (writing : Writing) : SystemCall ℕ → Bytes
  | .returned count => writing.accepted ++ writing.awaiter.data.take count
  | _ => writing.accepted

def await : FdAwait Writing (SystemCall ℕ) where
  awaitReady writing result :=
    ((writing.awaiter.awaitReady result).1,
      { awaiter := (writing.awaiter.awaitReady result).2
        accepted := writing.accepts result })
  callback writing result :=
    ((writing.awaiter.onWriteReady result).1,
      { awaiter := (writing.awaiter.onWriteReady result).2
        accepted := writing.accepts result })
  awaitResume writing := writing.awaiter.awaitResume

def create (data : Bytes) : Writing where
  awaiter := { data := data, err := false }
  accepted := []

end Writing

/-- `Base::write` after some turns of the event loop. -/
def write (data : Bytes) (results : ℕ → SystemCall ℕ) (turns : ℕ) : CoAwait Writing :=
  coAwait Writing.await (Writing.create data) results turns

/-- How many bytes some calls have accepted. -/
def written (results : ℕ → SystemCall ℕ) : ℕ → ℕ
  | 0 => 0
  | calls + 1 =>
      match results calls with
      | .returned count => written results calls + count
      | _ => written results calls

/-- The call is made: no earlier one has failed or accepted the last byte. -/
def Made (data : Bytes) (results : ℕ → SystemCall ℕ) (call : ℕ) : Prop :=
  ∀ earlier < call, results earlier = .wouldBlock ∨
    ∃ count, results earlier = .returned count ∧ written results (earlier + 1) < data.length

/-- `write` passes all the bytes to the descriptor, once and in order, or raises. -/
structure WritesExactly (data : Bytes) (results : ℕ → SystemCall ℕ) : Prop where
  remaining : ∀ turns, (write data results turns).awaiter.accepted ++
    (write data results turns).awaiter.awaiter.data = data
  returns : ∀ turns writing, write data results turns = .ended (.ok ()) writing →
    writing.accepted = data
  raises : ∀ turns,
    (∃ stop writing, write data results turns = .ended (.error stop) writing) ↔
      ∃ call ≤ turns, Made data results call ∧ results call = .failed

namespace Writing

/-- What the awaiter does about a result: it writes again unless there is an error or nothing
remains. -/
def poll (writing : Writing) : SystemCall ℕ → Option (Except Stop Unit)
  | .wouldBlock => none
  | .failed => some (.error (.runtimeError "failed to write to fd"))
  | .returned count => if count < writing.awaiter.data.length then none else some (.ok ())

def next (writing : Writing) (result : SystemCall ℕ) : Writing where
  awaiter :=
    match result with
    | .returned count =>
        { writing.awaiter with data := writing.awaiter.data.drop count }
    | _ => writing.awaiter
  accepted := writing.accepts result

section Poll

variable {writing : Writing} {result : SystemCall ℕ}

theorem short_of_again (again : poll writing result = none) : result = .wouldBlock ∨
    ∃ count, result = .returned count ∧ count < writing.awaiter.data.length := by
  cases result with
  | wouldBlock => exact Or.inl rfl
  | failed => simp [poll] at again
  | returned count =>
      rw [poll] at again
      split at again
      · exact Or.inr ⟨count, rfl, ‹_›⟩
      · simp at again

theorem full_of_done (done : poll writing result = some (.ok ())) :
    ∃ count, result = .returned count ∧ writing.awaiter.data.length ≤ count := by
  cases result with
  | wouldBlock => simp [poll] at done
  | failed => simp [poll] at done
  | returned count =>
      rw [poll] at done
      split at done
      · simp at done
      · exact ⟨count, rfl, not_lt.mp ‹_›⟩

theorem failed_of_raises {stop : Stop} (raises : poll writing result = some (.error stop)) :
    result = .failed ∧ stop = .runtimeError "failed to write to fd" := by
  cases result with
  | wouldBlock => simp [poll] at raises
  | failed => simpa [poll, eq_comm] using raises
  | returned count =>
      rw [poll] at raises
      split at raises <;> simp at raises

end Poll

theorem polls : Polls await (fun writing => writing.awaiter.err = false) poll next where
  keeps_next := by
    intro writing result kept _
    cases result with
    | wouldBlock => exact kept
    | failed => exact kept
    | returned count => exact kept
  ready_again := by
    intro writing result _ again
    rcases short_of_again again with rfl | ⟨count, rfl, short⟩
    · rfl
    · simp only [await, WriteAwaiter.awaitReady, short, if_true, next]
  ready_done := by
    intro writing result kept done
    rcases full_of_done done with ⟨count, rfl, full⟩
    refine ⟨?_, ?_⟩
    · simp only [await, WriteAwaiter.awaitReady, full.not_gt, if_false, next,
        List.drop_of_length_le full]
    · simp [await, WriteAwaiter.awaitResume, next, kept]
  ready_raises := by
    intro writing result stop _ raises
    rcases failed_of_raises raises with ⟨rfl, rfl⟩
    rfl
  callback_again := by
    intro writing result _ again
    rcases short_of_again again with rfl | ⟨count, rfl, short⟩
    · rfl
    · simp only [await, WriteAwaiter.onWriteReady, short, if_true, next]
  callback_done := by
    intro writing result _ done
    rcases full_of_done done with ⟨count, rfl, full⟩
    simp only [await, WriteAwaiter.onWriteReady, full.not_gt, if_false, next,
      List.drop_of_length_le full]
  callback_raises := by
    intro writing result stop _ raises
    rcases failed_of_raises raises with ⟨rfl, rfl⟩
    exact ⟨rfl, rfl⟩

variable {data : Bytes} {results : ℕ → SystemCall ℕ}

/-- The first call loses no byte. -/
theorem awaitReady_remaining {writing : Writing}
    (partition : writing.accepted ++ writing.awaiter.data = data) (result : SystemCall ℕ) :
    (await.awaitReady writing result).2.accepted ++
      (await.awaitReady writing result).2.awaiter.data = data := by
  cases result with
  | wouldBlock => exact partition
  | failed => exact partition
  | returned count =>
      simp only [await, WriteAwaiter.awaitReady, accepts]
      split
      · simpa using partition
      · rename_i full
        simpa [List.take_of_length_le (Nat.not_lt.mp full)] using partition

/-- No call in the callback loses one either. -/
theorem callback_remaining {writing : Writing}
    (partition : writing.accepted ++ writing.awaiter.data = data) (result : SystemCall ℕ) :
    (await.callback writing result).2.accepted ++
      (await.callback writing result).2.awaiter.data = data := by
  have sameData : (await.callback writing result).2.awaiter.data =
      (await.awaitReady writing result).2.awaiter.data := by
    cases result with
    | wouldBlock => rfl
    | failed => rfl
    | returned count =>
        simp only [await, WriteAwaiter.onWriteReady, WriteAwaiter.awaitReady]
        split
        · rfl
        · rfl
  rw [sameData]
  exact awaitReady_remaining partition result

/-- Some calls have accepted as many bytes as they have returned, and the rest remains. -/
theorem polled_create (calls : ℕ) : polled next (create data) results calls =
    { awaiter := { data := data.drop (written results calls), err := false }
      accepted := data.take (written results calls) } := by
  induction calls with
  | zero => rfl
  | succ calls ih =>
      rw [polled, ih, written]
      cases results calls with
      | wouldBlock => rfl
      | failed => rfl
      | returned count =>
          simp only [next, accepts, List.drop_drop, List.take_add]

theorem poll_polled_returned {call count : ℕ} (returned : results call = .returned count) :
    poll (polled next (create data) results call) (results call) =
      if count < data.length - written results call then none else some (.ok ()) := by
  simp only [polled_create, returned, poll, List.length_drop]

/-- The awaiter makes another call after each one that has not failed or written the last byte. -/
theorem again_iff_made {call : ℕ} :
    (∀ earlier < call, poll (polled next (create data) results earlier) (results earlier) = none) ↔
      Made data results call := by
  constructor
  · intro again earlier before
    rcases short_of_again (again earlier before) with blocked | ⟨count, returned, short⟩
    · exact Or.inl blocked
    · rw [polled_create, List.length_drop] at short
      refine Or.inr ⟨count, returned, ?_⟩
      simp only [written, returned]
      omega
  · intro made earlier before
    rcases made earlier before with blocked | ⟨count, returned, short⟩
    · rw [blocked]
      rfl
    · simp only [written, returned] at short
      rw [poll_polled_returned returned, if_pos (by omega)]

end Writing

theorem write_remaining (data : Bytes) (results : ℕ → SystemCall ℕ) (turns : ℕ) :
    (write data results turns).awaiter.accepted ++
      (write data results turns).awaiter.awaiter.data = data := by
  apply @coAwait_preserves _ _ Writing.await (Writing.create data) results
    fun writing : Writing => writing.accepted ++ writing.awaiter.data = data
  · intro writing result partition
    exact Writing.awaitReady_remaining partition result
  · intro writing result partition
    exact Writing.callback_remaining partition result
  · rfl

/-- `write` is exact, whatever the results of the system calls are. -/
theorem writesExactly (data : Bytes) (results : ℕ → SystemCall ℕ) :
    WritesExactly data results := by
  refine ⟨write_remaining data results, ?_, ?_⟩
  · intro turns writing ended
    rcases Writing.polls.ends_of_coAwait rfl ended with ⟨call, _, _, done, last⟩
    rcases Writing.full_of_done done with ⟨count, returned, full⟩
    rw [Writing.polled_create, List.length_drop] at full
    rw [last rfl, Writing.polled_create]
    apply List.take_of_length_le
    simp only [written, returned]
    omega
  · intro turns
    constructor
    · rintro ⟨stop, writing, ended⟩
      rcases Writing.polls.ends_of_coAwait rfl ended with ⟨call, le, again, raises, _⟩
      exact ⟨call, le, Writing.again_iff_made.mp again, (Writing.failed_of_raises raises).1⟩
    · rintro ⟨call, le, made, failed⟩
      have ends : (polled Writing.next (Writing.create data) results call).poll (results call) =
          some (.error (.runtimeError "failed to write to fd")) := by
        rw [failed]
        rfl
      rcases Writing.polls.coAwait_of_ends rfl le (Writing.again_iff_made.mpr made) ends with
        ⟨writing, ended, _⟩
      exact ⟨_, writing, ended⟩

end Write

end Base

end EventAsync
