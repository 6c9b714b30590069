import EventAsync.Lib.Transition
import EventAsync.WaitList

/-!
# Coroutines, channels and futures

The runtime of the library is one thread that executes coroutine bodies.  A
coroutine that resumes another one stays on the call stack until the other one
suspends or returns, so `Channel::write` and the loop of
`FutureBase::resume_awaiters` can be re-entered by the coroutines they wake.

`Channel` and `FutureBase` follow Channel.hh and Future.hh.  `Runtime` adds the
call stack, the frames of all coroutines with the `Task` objects that own them,
and a trace of what happened so far; the trace is read by no operation.  An
event is one choice of the program: what the innermost coroutine does next, or
which coroutine the event loop enters.  `Event.proceed` runs library code that
the program has no choice about.
-/

namespace EventAsync

universe u

/-- `EventAsync::Channel<ItemT>`. -/
structure Channel (Item : Type u) extends WaitList where
  queue : List Item

namespace Channel

variable {Item : Type u}

def init : Channel Item where
  toWaitList := .init
  queue := []

/-- `ReadAwaiter::await_ready`. -/
def awaitReady (channel : Channel Item) : Bool :=
  !channel.queue.isEmpty

/-- `ReadAwaiter::await_suspend`. -/
def awaitSuspend (channel : Channel Item) (awaitingCoro : CoroId) : Channel Item where
  toWaitList := channel.toWaitList.awaitSuspend awaitingCoro
  queue := channel.queue

/-- `ReadAwaiter::await_resume`; `front()` of an empty queue has no meaning. -/
def awaitResume (channel : Channel Item) : Option (Item × Channel Item) :=
  match channel.queue with
  | [] => none
  | item :: rest => some (item, { channel with queue := rest })

/-- `resume_awaiter` up to the call of `coro.resume()`: the handle to resume, if any. -/
def resumeAwaiter (channel : Channel Item) : Option CoroId × Channel Item :=
  match channel.awaitingCoros.front? with
  | none => (none, channel)
  | some coro => (some coro, { channel with toWaitList := channel.toWaitList.popFront })

/-- Both overloads of `write`. -/
def write (channel : Channel Item) (item : Item) : Option CoroId × Channel Item :=
  resumeAwaiter { channel with queue := channel.queue ++ [item] }

end Channel

/-- What a future can be resolved with besides a value. -/
inductive FutureException (Exc : Type u) where
  | thrown (exception : Exc)
  | canceledError
  deriving DecidableEq

/-- `EventAsync::FutureBase<ResultT>`; no value is `std::monostate`. -/
structure FutureBase (Result Exc : Type u) extends WaitList where
  value : Option (Except (FutureException Exc) Result)

/-- A call that resolves a future. -/
inductive Resolution (Result Exc : Type u) where
  | setResult (result : Result)
  | setException (exception : Exc)
  | cancel

namespace Resolution

variable {Result Exc : Type u}

def value : Resolution Result Exc → Except (FutureException Exc) Result
  | .setResult result => .ok result
  | .setException exception => .error (.thrown exception)
  | .cancel => .error .canceledError

/-- The text of the `logic_error` that the call raises on a future that is done. -/
def doneMessage : Resolution Result Exc → String
  | .setResult _ => "set_result called on done Future"
  | .setException _ => "set_exception called on done Future"
  | .cancel => "set_exception called on done Future"

end Resolution

namespace FutureBase

variable {Result Exc : Type u}

def init : FutureBase Result Exc where
  toWaitList := .init
  value := none

/-- `done`, which is also `await_ready`. -/
def done (future : FutureBase Result Exc) : Bool :=
  future.value.isSome

def awaitSuspend (future : FutureBase Result Exc) (awaitingCoro : CoroId) :
    FutureBase Result Exc where
  toWaitList := future.toWaitList.awaitSuspend awaitingCoro
  value := future.value

/-- `set_result`, `set_exception` and `cancel` up to the call of `resume_awaiters`. -/
def resolve (future : FutureBase Result Exc) (resolution : Resolution Result Exc) :
    Except String (FutureBase Result Exc) :=
  if future.done then .error resolution.doneMessage
  else .ok { future with value := some resolution.value }

/-- One iteration of the loop of `resume_awaiters` up to the call of `coro.resume()`. -/
def resumeNext (future : FutureBase Result Exc) : Option (CoroId × FutureBase Result Exc) :=
  match future.awaitingCoros.front? with
  | none => none
  | some coro => some (coro, { future with toWaitList := future.toWaitList.popFront })

end FutureBase

/-- What a coroutine can wait on by entering a wait list. -/
inductive WaitTarget where
  | channel (id : ℕ)
  | future (id : ℕ)
  deriving DecidableEq

/-- An entry of the call stack. -/
inductive Frame where
  /-- A coroutine executes its body. -/
  | body (coro : CoroId)
  /-- A coroutine is about to evaluate `await_resume`. -/
  | awaitResume (coro : CoroId) (target : WaitTarget)
  /-- The loop of `resume_awaiters` of a future. -/
  | resumeAwaiters (future : ℕ)
  deriving DecidableEq

def Frame.coro? : Frame → Option CoroId
  | .body coro => some coro
  | .awaitResume coro _ => some coro
  | .resumeAwaiters _ => none

/-- What the trace records. -/
inductive Observation (Item Result Exc : Type) where
  | suspended (coro : CoroId) (target : WaitTarget)
  | resumed (coro : CoroId) (target : WaitTarget)
  | written (channel : ℕ) (item : Item)
  | received (coro : CoroId) (channel : ℕ) (item : Item)
  | observed (coro : CoroId) (future : ℕ) (value : Except (FutureException Exc) Result)
  | badVariantAccess (coro : CoroId) (future : ℕ)
  | resolved (future : ℕ) (value : Except (FutureException Exc) Result)
  | logicError (future : ℕ) (message : String)
  | destroyed (coro : CoroId)

/-- One choice of the program. -/
inductive Event (Item Result Exc : Type) where
  /-- A coroutine function is called; its `Task` lives in the frame of `owner`, if any. -/
  | create (owner : Option CoroId)
  /-- The `Task` of a coroutine is moved into another frame, or out of all frames. -/
  | adopt (coro : CoroId) (owner : Option CoroId)
  /-- A coroutine that waits in no wait list is started or resumed. -/
  | enter (coro : CoroId)
  /-- The innermost coroutine returns, or suspends on something else. -/
  | leave
  | read (channel : ℕ)
  | write (channel : ℕ) (item : Item)
  | await (future : ℕ)
  | resolve (future : ℕ) (resolution : Resolution Result Exc)
  | proceed
  /-- `coro.destroy()` by `DetachedTask::cancel`, `~TaskBase` or `TaskBase::operator=`. -/
  | destroy (coro : CoroId)

/-- The state of the program. -/
structure Runtime (Item Result Exc : Type) where
  channels : ℕ → Channel Item
  futures : ℕ → FutureBase Result Exc
  stack : List Frame
  created : ℕ
  owner : CoroId → Option CoroId
  suspendedAt : CoroId → Option WaitTarget
  destroyed : List CoroId
  trace : List (Observation Item Result Exc)

namespace Runtime

variable {Item Result Exc : Type}

def init : Runtime Item Result Exc where
  channels := fun _ => .init
  futures := fun _ => .init
  stack := []
  created := 0
  owner := fun _ => none
  suspendedAt := fun _ => none
  destroyed := []
  trace := []

/-- The wait list of a channel or a future. -/
def waiters (runtime : Runtime Item Result Exc) : WaitTarget → WaitList
  | .channel id => (runtime.channels id).toWaitList
  | .future id => (runtime.futures id).toWaitList

def Alive (runtime : Runtime Item Result Exc) (coro : CoroId) : Prop :=
  coro < runtime.created ∧ coro ∉ runtime.destroyed

instance (runtime : Runtime Item Result Exc) (coro : CoroId) :
    Decidable (runtime.Alive coro) :=
  inferInstanceAs (Decidable (_ ∧ _))

def OnStack (runtime : Runtime Item Result Exc) (coro : CoroId) : Prop :=
  some coro ∈ runtime.stack.map Frame.coro?

instance (runtime : Runtime Item Result Exc) (coro : CoroId) :
    Decidable (runtime.OnStack coro) :=
  inferInstanceAs (Decidable (_ ∈ _))

/-- Coroutines are entered, channels written and futures resolved by a coroutine body or, with
an empty stack, by code outside of all coroutines. -/
def UserCodeRuns (runtime : Runtime Item Result Exc) : Bool :=
  match runtime.stack with
  | [] => true
  | .body _ :: _ => true
  | _ => false

/-- Whether the `Task` of `coro` lives, possibly through other frames, in the frame of `root`. -/
def ownedBy (runtime : Runtime Item Result Exc) (root : CoroId) : ℕ → CoroId → Bool
  | 0, coro => coro == root
  | fuel + 1, coro =>
      coro == root || match runtime.owner coro with
        | none => false
        | some owner => runtime.ownedBy root fuel owner

/-- The frames that `coro.destroy()` frees: destroying a frame destroys the `Task` objects in
it, and with them the frames they own. -/
def victims (runtime : Runtime Item Result Exc) (coro : CoroId) : List CoroId :=
  (List.range runtime.created).filter fun other =>
    other ∉ runtime.destroyed ∧ runtime.ownedBy coro runtime.created other

/-- `co_await channel.read()` in the body of `coro`. -/
def read (runtime : Runtime Item Result Exc) (channel : ℕ) (coro : CoroId)
    (below : List Frame) : Runtime Item Result Exc :=
  if (runtime.channels channel).awaitReady then
    { runtime with stack := .awaitResume coro (.channel channel) :: below }
  else
    { runtime with
      channels := Function.update runtime.channels channel
        ((runtime.channels channel).awaitSuspend coro)
      stack := below
      suspendedAt := Function.update runtime.suspendedAt coro (some (.channel channel))
      trace := runtime.trace ++ [.suspended coro (.channel channel)] }

/-- `channel.write(item)`; a woken reader continues on top of the stack. -/
def write (runtime : Runtime Item Result Exc) (channel : ℕ) (item : Item) :
    Runtime Item Result Exc :=
  match (runtime.channels channel).write item with
  | (none, after) =>
      { runtime with
        channels := Function.update runtime.channels channel after
        trace := runtime.trace ++ [.written channel item] }
  | (some coro, after) =>
      { runtime with
        channels := Function.update runtime.channels channel after
        stack := .awaitResume coro (.channel channel) :: runtime.stack
        suspendedAt := Function.update runtime.suspendedAt coro none
        trace := runtime.trace ++
          [.written channel item, .resumed coro (.channel channel)] }

/-- `co_await future` in the body of `coro`. -/
def await (runtime : Runtime Item Result Exc) (future : ℕ) (coro : CoroId)
    (below : List Frame) : Runtime Item Result Exc :=
  if (runtime.futures future).done then
    { runtime with stack := .awaitResume coro (.future future) :: below }
  else
    { runtime with
      futures := Function.update runtime.futures future
        ((runtime.futures future).awaitSuspend coro)
      stack := below
      suspendedAt := Function.update runtime.suspendedAt coro (some (.future future))
      trace := runtime.trace ++ [.suspended coro (.future future)] }

/-- A resolving call; the loop of `resume_awaiters` continues on top of the stack. -/
def resolve (runtime : Runtime Item Result Exc) (future : ℕ)
    (resolution : Resolution Result Exc) : Runtime Item Result Exc :=
  match (runtime.futures future).resolve resolution with
  | .error message =>
      { runtime with trace := runtime.trace ++ [.logicError future message] }
  | .ok after =>
      { runtime with
        futures := Function.update runtime.futures future after
        stack := .resumeAwaiters future :: runtime.stack
        trace := runtime.trace ++ [.resolved future resolution.value] }

/-- `await_resume` of the awaiter that `coro` was suspended on.  `result` of a future that holds no
outcome raises `bad_variant_access` in the body of `coro`. -/
def finishAwait (runtime : Runtime Item Result Exc) (coro : CoroId) (target : WaitTarget)
    (below : List Frame) : Option (Runtime Item Result Exc) :=
  match target with
  | .channel channel =>
      (runtime.channels channel).awaitResume.map fun (item, after) =>
        { runtime with
          channels := Function.update runtime.channels channel after
          stack := .body coro :: below
          trace := runtime.trace ++ [.received coro channel item] }
  | .future future =>
      match (runtime.futures future).value with
      | some value =>
          some { runtime with
            stack := .body coro :: below
            trace := runtime.trace ++ [.observed coro future value] }
      | none =>
          some { runtime with
            stack := .body coro :: below
            trace := runtime.trace ++ [.badVariantAccess coro future] }

/-- One iteration of the loop of `resume_awaiters`, or its end. -/
def resumeAwaiters (runtime : Runtime Item Result Exc) (future : ℕ) (below : List Frame) :
    Runtime Item Result Exc :=
  match (runtime.futures future).resumeNext with
  | none => { runtime with stack := below }
  | some (coro, after) =>
      { runtime with
        futures := Function.update runtime.futures future after
        stack := .awaitResume coro (.future future) :: runtime.stack
        suspendedAt := Function.update runtime.suspendedAt coro none
        trace := runtime.trace ++ [.resumed coro (.future future)] }

/-- Take one event, if the program can make that choice here. -/
def step (runtime : Runtime Item Result Exc) :
    Event Item Result Exc → Option (Runtime Item Result Exc)
  | .create owner =>
      some { runtime with
        created := runtime.created + 1
        owner := Function.update runtime.owner runtime.created owner }
  | .adopt coro owner =>
      some { runtime with owner := Function.update runtime.owner coro owner }
  | .enter coro =>
      if runtime.UserCodeRuns ∧ runtime.Alive coro ∧ ¬runtime.OnStack coro ∧
          runtime.suspendedAt coro = none then
        some { runtime with stack := .body coro :: runtime.stack }
      else none
  | .leave =>
      match runtime.stack with
      | .body _ :: below => some { runtime with stack := below }
      | _ => none
  | .read channel =>
      match runtime.stack with
      | .body coro :: below => some (runtime.read channel coro below)
      | _ => none
  | .write channel item =>
      if runtime.UserCodeRuns then some (runtime.write channel item) else none
  | .await future =>
      match runtime.stack with
      | .body coro :: below => some (runtime.await future coro below)
      | _ => none
  | .resolve future resolution =>
      if runtime.UserCodeRuns then some (runtime.resolve future resolution) else none
  | .proceed =>
      match runtime.stack with
      | .awaitResume coro target :: below =>
          if runtime.Alive coro then runtime.finishAwait coro target below else none
      | .resumeAwaiters future :: below => some (runtime.resumeAwaiters future below)
      | _ => none
  | .destroy coro =>
      if runtime.Alive coro ∧ ∀ victim ∈ runtime.victims coro, ¬runtime.OnStack victim then
        some { runtime with
          destroyed := runtime.destroyed ++ runtime.victims coro
          trace := runtime.trace ++ (runtime.victims coro).map .destroyed }
      else none

end Runtime

end EventAsync
