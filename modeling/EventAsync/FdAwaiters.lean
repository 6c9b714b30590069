import EventAsync.Buffer

/-!
# The callbacks of the awaiters of file descriptors

Seven awaiters wait for a descriptor to become ready and then make a system
call in a callback.  A coroutine that is suspended on one of them goes on only
if each of these callbacks either adds its event again or resumes the
coroutine.  `Base::RecvFromAwaiter` forgets both when `recvfrom` returns zero,
and `Base::AcceptAwaiter` forgets both when `accept` fails; the coroutine then
sleeps for ever.

The callbacks are followed through any sequence of results of the system call.
Those of `Buffer` have been given over a stream; here they are stated over the
result of `evbuffer_read` or `evbuffer_write_atmost` alone, which is negative
for a call that would block as well as for any other error.
-/

namespace EventAsync

open ByteCodec

/-- What a system call on a nonblocking descriptor returns. -/
inductive SystemCall (Value : Type) where
  | returned (value : Value)
  | wouldBlock
  | failed

namespace Base

/-- `Base::ReadAwaiter`; `filled` is what has been stored in front of `data`. -/
structure ReadAwaiter where
  filled : Bytes
  size : ℕ
  err : Bool
  eof : Bool

/-- `read` stores at most `size` bytes. -/
def ReadAwaiter.onReadReady (awaiter : ReadAwaiter) :
    SystemCall Bytes → List Action × ReadAwaiter
  | .wouldBlock => ([.eventAdd], awaiter)
  | .failed => ([.resume], { awaiter with err := true })
  | .returned bytes =>
      let stored := bytes.take awaiter.size
      if stored.length < awaiter.size then
        ([.eventAdd],
          { awaiter with
            filled := awaiter.filled ++ stored
            size := awaiter.size - stored.length })
      else ([.resume], { awaiter with filled := awaiter.filled ++ stored, size := 0 })

/-- `Base::WriteAwaiter`; `data` is what has not been written. -/
structure WriteAwaiter where
  data : Bytes
  err : Bool

/-- `write` takes at most the bytes it is given. -/
def WriteAwaiter.onWriteReady (awaiter : WriteAwaiter) :
    SystemCall ℕ → List Action × WriteAwaiter
  | .wouldBlock => ([.eventAdd], awaiter)
  | .failed => ([.resume], { awaiter with err := true })
  | .returned count =>
      if count < awaiter.data.length then
        ([.eventAdd], { awaiter with data := awaiter.data.drop count })
      else ([.resume], { awaiter with data := [] })

/-- A message and the address it came from. -/
structure Datagram where
  message : Bytes
  addr : Bytes

/-- `Base::RecvFromAwaiter` with its result. -/
structure RecvFromAwaiter where
  maxSize : ℕ
  data : Bytes
  dataAvailable : ℕ
  addr : Bytes
  err : Bool

/-- `recvfrom` stores at most `max_size` bytes; what `data` holds before a message has arrived is
read nowhere. -/
def RecvFromAwaiter.onReadReady (awaiter : RecvFromAwaiter) :
    SystemCall Datagram → List Action × RecvFromAwaiter
  | .wouldBlock => ([.eventAdd], awaiter)
  | .failed => ([.resume], { awaiter with err := true })
  | .returned datagram =>
      let stored := datagram.message.take awaiter.maxSize
      if stored.length = 0 then ([], { awaiter with err := true })
      else
        ([.resume],
          { awaiter with
            data := stored
            dataAvailable := stored.length
            addr := datagram.addr })

/-- `Base::AcceptAwaiter`. -/
structure AcceptAwaiter where
  acceptedFd : Option ℕ
  err : Bool

def AcceptAwaiter.onAcceptReady (awaiter : AcceptAwaiter) :
    SystemCall ℕ → List Action × AcceptAwaiter
  | .wouldBlock => ([.eventAdd], { awaiter with acceptedFd := none })
  | .failed => ([], { awaiter with acceptedFd := none, err := true })
  | .returned fd => ([.resume], { awaiter with acceptedFd := some fd })

end Base

/-- `Buffer::ReadAtMostAwaiter`. -/
structure ReadAtMostAwaiter where
  limit : ℕ
  bytesRead : ℕ
  err : Bool

/-- A negative result is stored in a `size_t`. -/
def ReadAtMostAwaiter.onReadReady (awaiter : ReadAtMostAwaiter) :
    Option ℕ → List Action × ReadAtMostAwaiter
  | none => ([.resume], { awaiter with bytesRead := 2 ^ 64 - 1, err := true })
  | some count => ([.resume], { awaiter with bytesRead := count, err := false })

/-- `ReadExactlyAwaiter.onReadReady`, given the result of `evbuffer_read`. -/
def ReadExactlyAwaiter.onReadResult (awaiter : ReadExactlyAwaiter) :
    Option ℕ → List Action × ReadExactlyAwaiter
  | none => ([.resume], { awaiter with err := true })
  | some count =>
      let counted := { awaiter with bytesRead := awaiter.bytesRead + count }
      if count = 0 then ([.resume], { counted with eof := true })
      else if counted.bytesRead ≠ counted.limit then ([.eventAdd], counted)
      else ([.resume], counted)

theorem ReadExactlyAwaiter.onReadReady_eq (awaiter : ReadExactlyAwaiter) (stream : Stream) :
    onReadReady (awaiter, stream) =
      ((awaiter.onReadResult
          (stream.evbufferRead (toInt32 (sizeSub awaiter.limit awaiter.bytesRead))).1).1,
        (awaiter.onReadResult
          (stream.evbufferRead (toInt32 (sizeSub awaiter.limit awaiter.bytesRead))).1).2,
        (stream.evbufferRead (toInt32 (sizeSub awaiter.limit awaiter.bytesRead))).2) := by
  simp only [onReadReady]
  cases stream.evbufferRead (toInt32 (sizeSub awaiter.limit awaiter.bytesRead)) with
  | mk result after =>
      cases result with
      | none => rfl
      | some count =>
          simp only [onReadResult]
          split
          · rfl
          · split <;> rfl

theorem ReadExactlyAwaiter.onReadResult_actions (awaiter : ReadExactlyAwaiter)
    (result : Option ℕ) : (awaiter.onReadResult result).1 = [.eventAdd] ∨
      (awaiter.onReadResult result).1 = [.resume] := by
  cases result with
  | none => exact Or.inr rfl
  | some count =>
      simp only [onReadResult]
      split
      · exact Or.inr rfl
      · split
        · exact Or.inl rfl
        · exact Or.inr rfl

/-- The limit of a write once its first callback has run. -/
def WriteAwaiter.limited (awaiter : WriteAwaiter) (length : ℕ) : WriteAwaiter :=
  if awaiter.limit < 0 then { awaiter with limit := length } else awaiter

/-- `WriteAwaiter.onWriteReady`, given the length of the buffer and the result of
`evbuffer_write_atmost`. -/
def WriteAwaiter.onWriteResult (length : ℕ) (awaiter : WriteAwaiter) :
    Option ℕ → List Action × WriteAwaiter
  | none => ([.resume], { awaiter.limited length with err := true })
  | some count =>
      let counted :=
        { awaiter.limited length with
          bytesWritten := (awaiter.limited length).bytesWritten + count }
      if (counted.bytesWritten : ℤ) ≠ counted.limit then ([.eventAdd], counted)
      else ([.resume], counted)

theorem WriteAwaiter.onWriteReady_eq (awaiter : WriteAwaiter) (stream : Stream) :
    onWriteReady (awaiter, stream) =
      ((awaiter.onWriteResult stream.buf.length
          (stream.evbufferWriteAtmost (awaiter.limited stream.buf.length).limit).1).1,
        (awaiter.onWriteResult stream.buf.length
          (stream.evbufferWriteAtmost (awaiter.limited stream.buf.length).limit).1).2,
        (stream.evbufferWriteAtmost (awaiter.limited stream.buf.length).limit).2) := by
  simp only [onWriteReady]
  rw [← limited]
  cases stream.evbufferWriteAtmost (awaiter.limited stream.buf.length).limit with
  | mk result after =>
      cases result with
      | none => rfl
      | some count =>
          simp only [onWriteResult]
          split <;> rfl

section Progress

variable {Awaiter Result : Type}

/-- A callback that is given the results of its system calls one after the other. -/
def answering (callback : Awaiter → Result → List Action × Awaiter)
    (state : Awaiter × (ℕ → Result)) : List Action × Awaiter × (ℕ → Result) :=
  ((callback state.1 (state.2 0)).1, (callback state.1 (state.2 0)).2,
    fun call => state.2 (call + 1))

/-- The coroutine after a number of turns of the event loop. -/
def turned (callback : Awaiter → Result → List Action × Awaiter) (awaiter : Awaiter)
    (results : ℕ → Result) (turns : ℕ) : Suspension (Awaiter × (ℕ → Result)) :=
  Suspension.fired (answering callback) turns (Suspension.start (awaiter, results))

/-- What the callback of an awaiter promises to the coroutine that waits. -/
structure MakesProgress (callback : Awaiter → Result → List Action × Awaiter)
    (awaiter : Awaiter) (results : ℕ → Result) : Prop where
  /-- Each invocation adds the event again or resumes the coroutine, and not both. -/
  oneAction : ∀ turns, (turned callback awaiter results turns).armed →
    (answering callback (turned callback awaiter results turns).state).1 = [.eventAdd] ∨
      (answering callback (turned callback awaiter results turns).state).1 = [.resume]
  atMostOnce : ∀ turns, (turned callback awaiter results turns).resumptions ≤ 1
  /-- A coroutine that has not been resumed has its event pending. -/
  neverStranded : ∀ turns, (turned callback awaiter results turns).resumptions = 0 →
    (turned callback awaiter results turns).armed

variable {callback : Awaiter → Result → List Action × Awaiter} {awaiter : Awaiter}
  {results : ℕ → Result}

theorem turned_succ (turns : ℕ) : turned callback awaiter results (turns + 1) =
    (turned callback awaiter results turns).fire (answering callback) :=
  Suspension.fired_succ turns _

/-- One action at each invocation is enough: the event is pending exactly until the coroutine is
resumed. -/
theorem makesProgress_of_oneAction
    (oneAction : ∀ turns, (turned callback awaiter results turns).armed →
      (answering callback (turned callback awaiter results turns).state).1 = [.eventAdd] ∨
        (answering callback (turned callback awaiter results turns).state).1 = [.resume]) :
    MakesProgress callback awaiter results := by
  have balance : ∀ turns,
      (turned callback awaiter results turns).armed ∧
          (turned callback awaiter results turns).resumptions = 0 ∨
        (turned callback awaiter results turns).armed = false ∧
          (turned callback awaiter results turns).resumptions = 1 := by
    intro turns
    induction turns with
    | zero => exact Or.inl ⟨rfl, rfl⟩
    | succ turns ih =>
        rw [turned_succ]
        rcases ih with ⟨armed, waiting⟩ | ⟨disarmed, resumed⟩
        · rcases oneAction turns armed with again | resume
          · simp [Suspension.fire, armed, again, waiting]
          · simp [Suspension.fire, armed, resume, waiting]
        · rw [Suspension.fire_of_disarmed disarmed]
          exact Or.inr ⟨disarmed, resumed⟩
  refine ⟨oneAction, ?_, ?_⟩
  · intro turns
    rcases balance turns with ⟨_, waiting⟩ | ⟨_, resumed⟩ <;> omega
  · intro turns waiting
    rcases balance turns with ⟨armed, _⟩ | ⟨_, resumed⟩
    · exact armed
    · omega

/-- A callback that always does one of the two. -/
theorem makesProgress_of_total
    (total : ∀ awaiter result, (callback awaiter result).1 = [.eventAdd] ∨
      (callback awaiter result).1 = [.resume]) :
    MakesProgress callback awaiter results :=
  makesProgress_of_oneAction fun _ _ => total _ _

/-- How an awaiter answers that tries again after some results of its call, drops the coroutine
after others and resumes it after the rest. -/
structure Retries (callback : Awaiter → Result → List Action × Awaiter)
    (retries strands : Result → Prop)
    (keeps : Awaiter → Prop) : Prop where
  again : ∀ awaiter result, keeps awaiter → retries result →
    (callback awaiter result).1 = [.eventAdd] ∧ keeps (callback awaiter result).2
  nothing : ∀ awaiter result, keeps awaiter → ¬retries result → strands result →
    (callback awaiter result).1 = []
  resume : ∀ awaiter result, keeps awaiter → ¬retries result → ¬strands result →
    (callback awaiter result).1 = [.resume]

variable {retries strands : Result → Prop} {keeps : Awaiter → Prop}

/-- The event is pending as long as all results so far made the awaiter try again. -/
theorem Retries.turned (answers : Retries callback retries strands keeps)
    (initially : keeps awaiter)
    (turns : ℕ) :
    (∀ earlier < turns, retries (results earlier)) ∧
        keeps (turned callback awaiter results turns).state.1 ∧
          turned callback awaiter results turns = Suspension.start
            ((turned callback awaiter results turns).state.1, fun call => results (call + turns)) ∨
      (∃ earlier < turns, ¬retries (results earlier)) ∧
        (turned callback awaiter results turns).armed = false := by
  induction turns with
  | zero => exact Or.inl ⟨by simp, initially, rfl⟩
  | succ turns ih =>
      rw [turned_succ]
      rcases ih with ⟨tried, kept, state⟩ | ⟨⟨earlier, before, other⟩, disarmed⟩
      · generalize (EventAsync.turned callback awaiter results turns).state.1 = current
          at kept state
        rw [state]
        by_cases again : retries (results turns)
        · have action := answers.again current (results turns) kept again
          left
          refine ⟨?_, ?_, ?_⟩
          · intro earlier before
            by_cases last : earlier = turns
            · exact last ▸ again
            · exact tried earlier (by omega)
          · simpa [Suspension.fire, Suspension.start, answering] using action.2
          · simp [Suspension.fire, Suspension.start, answering, action.1, Nat.add_comm 1,
              Nat.add_assoc]
        · right
          refine ⟨⟨turns, Nat.lt_succ_self turns, again⟩, ?_⟩
          by_cases strand : strands (results turns)
          · simp [Suspension.fire, Suspension.start, answering,
              answers.nothing current _ kept again strand]
          · simp [Suspension.fire, Suspension.start, answering,
              answers.resume current _ kept again strand]
      · right
        rw [Suspension.fire_of_disarmed disarmed]
        exact ⟨⟨earlier, Nat.lt_succ_of_lt before, other⟩, disarmed⟩

/-- Such an awaiter makes progress if and only if the first result after which it does not try
again is not one after which it does nothing. -/
theorem Retries.makesProgress_iff (answers : Retries callback retries strands keeps)
    (initially : keeps awaiter) :
    MakesProgress callback awaiter results ↔
      ∀ turns, (∀ earlier < turns, retries (results earlier)) → ¬retries (results turns) →
        ¬strands (results turns) := by
  constructor
  · intro progress turns tried other strand
    rcases answers.turned initially turns with ⟨_, kept, state⟩ | ⟨⟨earlier, before, gaveUp⟩, _⟩
    · have action := progress.oneAction turns (by rw [state]; rfl)
      rw [state] at action
      simp [answering, Suspension.start, answers.nothing _ _ kept other strand] at action
    · exact gaveUp (tried earlier before)
  · intro unstranded
    apply makesProgress_of_oneAction
    intro turns armed
    rcases answers.turned initially turns with ⟨tried, kept, state⟩ | ⟨_, disarmed⟩
    · rw [state]
      simp only [answering, Suspension.start, Nat.zero_add]
      by_cases again : retries (results turns)
      · exact Or.inl (answers.again _ _ kept again).1
      · exact Or.inr (answers.resume _ _ kept again (unstranded turns tried again))
    · simp [disarmed] at armed

end Progress

/-- An awaiter of a file descriptor, with the results that its system calls will have. -/
inductive FdAwaiter where
  | read (awaiter : Base.ReadAwaiter) (results : ℕ → SystemCall Bytes)
  | write (awaiter : Base.WriteAwaiter) (results : ℕ → SystemCall ℕ)
  | recvFrom (awaiter : Base.RecvFromAwaiter) (results : ℕ → SystemCall Base.Datagram)
  | accept (awaiter : Base.AcceptAwaiter) (results : ℕ → SystemCall ℕ)
  | bufferReadAtMost (awaiter : ReadAtMostAwaiter) (results : ℕ → Option ℕ)
  | bufferReadExactly (awaiter : ReadExactlyAwaiter) (results : ℕ → Option ℕ)
  | bufferWrite (awaiter : WriteAwaiter) (length : ℕ) (results : ℕ → Option ℕ)

namespace FdAwaiter

def Progresses : FdAwaiter → Prop
  | read awaiter results => MakesProgress Base.ReadAwaiter.onReadReady awaiter results
  | write awaiter results => MakesProgress Base.WriteAwaiter.onWriteReady awaiter results
  | recvFrom awaiter results => MakesProgress Base.RecvFromAwaiter.onReadReady awaiter results
  | accept awaiter results => MakesProgress Base.AcceptAwaiter.onAcceptReady awaiter results
  | bufferReadAtMost awaiter results =>
      MakesProgress ReadAtMostAwaiter.onReadReady awaiter results
  | bufferReadExactly awaiter results =>
      MakesProgress ReadExactlyAwaiter.onReadResult awaiter results
  | bufferWrite awaiter length results =>
      MakesProgress (WriteAwaiter.onWriteResult length) awaiter results

/-- The first call of `recvfrom` that does not block does not return zero, and the first call of
`accept` that does not block does not fail. -/
def Answered : FdAwaiter → Prop
  | recvFrom awaiter results => ∀ turns datagram,
      (∀ earlier < turns, results earlier = .wouldBlock) → results turns = .returned datagram →
        datagram.message.take awaiter.maxSize ≠ []
  | accept _ results => ∀ turns, (∀ earlier < turns, results earlier = .wouldBlock) →
      results turns ≠ .failed
  | _ => True

theorem recvFrom_retries (maxSize : ℕ) :
    Retries Base.RecvFromAwaiter.onReadReady (fun result => result = .wouldBlock)
      (fun result => ∃ datagram, result = .returned datagram ∧
        datagram.message.take maxSize = [])
      (fun awaiter => awaiter.maxSize = maxSize) where
  again := by
    rintro awaiter result kept rfl
    exact ⟨rfl, kept⟩
  nothing := by
    rintro awaiter result rfl _ ⟨datagram, rfl, empty⟩
    simp [Base.RecvFromAwaiter.onReadReady, empty]
  resume := by
    rintro awaiter result rfl other nonempty
    cases result with
    | wouldBlock => exact absurd rfl other
    | failed => rfl
    | returned datagram =>
        have stored : datagram.message.take awaiter.maxSize ≠ [] :=
          fun empty => nonempty ⟨datagram, rfl, empty⟩
        simp [Base.RecvFromAwaiter.onReadReady, List.length_eq_zero_iff, stored, -List.length_take,
          -List.take_eq_nil_iff]

theorem accept_retries :
    Retries Base.AcceptAwaiter.onAcceptReady (fun result => result = .wouldBlock)
      (fun result => result = .failed) (fun _ => True) where
  again := by
    rintro awaiter result _ rfl
    exact ⟨rfl, trivial⟩
  nothing := by
    rintro awaiter result _ _ rfl
    rfl
  resume := by
    intro awaiter result _ other succeeds
    cases result with
    | wouldBlock => exact absurd rfl other
    | failed => exact absurd rfl succeeds
    | returned fd => rfl

/-- Five of the awaiters always make progress; the other two do unless the result on which they
drop the coroutine is the first one that is not "would block". -/
theorem progresses_iff (awaiter : FdAwaiter) : awaiter.Progresses ↔ awaiter.Answered := by
  cases awaiter with
  | read awaiter results =>
      refine iff_of_true (makesProgress_of_total ?_) trivial
      intro awaiter result
      cases result with
      | wouldBlock => exact Or.inl rfl
      | failed => exact Or.inr rfl
      | returned bytes =>
          simp only [Base.ReadAwaiter.onReadReady]
          split
          · exact Or.inl rfl
          · exact Or.inr rfl
  | write awaiter results =>
      refine iff_of_true (makesProgress_of_total ?_) trivial
      intro awaiter result
      cases result with
      | wouldBlock => exact Or.inl rfl
      | failed => exact Or.inr rfl
      | returned count =>
          simp only [Base.WriteAwaiter.onWriteReady]
          split
          · exact Or.inl rfl
          · exact Or.inr rfl
  | recvFrom awaiter results =>
      refine ((recvFrom_retries awaiter.maxSize).makesProgress_iff rfl).trans ?_
      constructor
      · intro unstranded turns datagram tried returned empty
        exact unstranded turns tried (by simp [returned]) ⟨datagram, returned, empty⟩
      · rintro answered turns tried _ ⟨datagram, returned, empty⟩
        exact answered turns datagram tried returned empty
  | accept awaiter results =>
      refine (accept_retries.makesProgress_iff trivial).trans ?_
      constructor
      · intro unstranded turns tried failed
        exact unstranded turns tried (by simp [failed]) failed
      · intro answered turns tried _
        exact answered turns tried
  | bufferReadAtMost awaiter results =>
      refine iff_of_true (makesProgress_of_total ?_) trivial
      intro awaiter result
      cases result with
      | none => exact Or.inr rfl
      | some count => exact Or.inr rfl
  | bufferReadExactly awaiter results =>
      refine iff_of_true (makesProgress_of_total ?_) trivial
      exact ReadExactlyAwaiter.onReadResult_actions
  | bufferWrite awaiter length results =>
      refine iff_of_true (makesProgress_of_total ?_) trivial
      intro awaiter result
      cases result with
      | none => exact Or.inr rfl
      | some count =>
          simp only [WriteAwaiter.onWriteResult]
          split
          · exact Or.inl rfl
          · exact Or.inr rfl

/-- An empty datagram arrives. -/
def emptyDatagram : FdAwaiter :=
  .recvFrom { maxSize := 1500, data := [], dataAvailable := 0, addr := [], err := false }
    fun _ => .returned { message := [], addr := [127, 0, 0, 1] }

theorem not_progresses_emptyDatagram : ¬emptyDatagram.Progresses := by
  intro progress
  have armed := progress.neverStranded 1 rfl
  simp [turned, Suspension.fired, Suspension.fire, Suspension.start, answering,
    Base.RecvFromAwaiter.onReadReady] at armed

end FdAwaiter

end EventAsync
