import EventAsync.Lib.ByteCodec

/-!
# Suspension on an event

An awaiter of a file descriptor suspends its coroutine and adds a one-shot
event.  The event loop calls the awaiter's callback once for every time the
event has been added; the callback adds the event again, resumes the
coroutine, or does neither.  `Suspension` counts the resumptions and keeps
track of whether the event is pending.

The file also fixes what a computation can end with besides a value: a C++
exception, an operation to which C++ gives no meaning, or, for a loop with a
bound on its iterations, the bound.
-/

namespace EventAsync

open ByteCodec

universe u

/-- The exceptions that the modelled code raises; `detail` is text appended at run time. -/
inductive Exception where
  | runtimeError (message : String) (detail : Bytes)
  | logicError (message : String)
  | outOfRange (message : String)
  | invalidArgument (message : String)
  | lengthError (message : String)
  deriving DecidableEq

/-- Why a computation ends without a value. -/
inductive Stop where
  | raised (exception : Exception)
  | undefined (operation : String)
  | outOfFuel
  deriving DecidableEq

def Stop.runtimeError (message : String) : Stop :=
  .raised (.runtimeError message [])

/-- What a callback does besides changing its awaiter. -/
inductive Action where
  | eventAdd
  | resume
  deriving DecidableEq

/-- A coroutine suspended on an event. -/
structure Suspension (State : Type u) where
  state : State
  armed : Bool
  resumptions : ℕ

namespace Suspension

variable {State : Type u}

/-- `await_suspend`: the event is added. -/
def start (state : State) : Suspension State where
  state := state
  armed := true
  resumptions := 0

/-- The event loop runs the callback if the event is pending. -/
def fire (callback : State → List Action × State) (suspension : Suspension State) :
    Suspension State :=
  if suspension.armed then
    { state := (callback suspension.state).2
      armed := (callback suspension.state).1.contains .eventAdd
      resumptions :=
        suspension.resumptions + (callback suspension.state).1.count .resume }
  else suspension

/-- The suspension after a number of turns of the event loop. -/
def fired (callback : State → List Action × State) : ℕ → Suspension State → Suspension State
  | 0, suspension => suspension
  | turns + 1, suspension => fired callback turns (suspension.fire callback)

variable {callback : State → List Action × State}

theorem fire_of_disarmed {suspension : Suspension State} (disarmed : suspension.armed = false) :
    suspension.fire callback = suspension := by
  simp [fire, disarmed]

theorem fired_of_disarmed {suspension : Suspension State} (disarmed : suspension.armed = false)
    (turns : ℕ) : fired callback turns suspension = suspension := by
  induction turns with
  | zero => rfl
  | succ turns ih => simp only [fired, fire_of_disarmed disarmed, ih]

theorem fired_add (first second : ℕ) (suspension : Suspension State) :
    fired callback (first + second) suspension =
      fired callback second (fired callback first suspension) := by
  induction first generalizing suspension with
  | zero => simp [fired]
  | succ first ih =>
      rw [Nat.add_right_comm]
      exact ih (suspension.fire callback)

theorem fired_succ (turns : ℕ) (suspension : Suspension State) :
    fired callback (turns + 1) suspension =
      (fired callback turns suspension).fire callback := by
  rw [fired_add]
  rfl

/-- Once the event is not pending, further turns of the event loop change nothing. -/
theorem fired_eq_of_le {suspension : Suspension State} {turns later : ℕ} (le : turns ≤ later)
    (disarmed : (fired callback turns suspension).armed = false) :
    fired callback later suspension = fired callback turns suspension := by
  rcases Nat.exists_eq_add_of_le le with ⟨extra, rfl⟩
  rw [fired_add, fired_of_disarmed disarmed]

/-- What a turn of the event loop preserves holds after any number of turns. -/
theorem fired_preserves {holds : Suspension State → Prop}
    (preserved : ∀ suspension, holds suspension → holds (suspension.fire callback)) (turns : ℕ)
    {suspension : Suspension State} (initial : holds suspension) :
    holds (fired callback turns suspension) := by
  induction turns generalizing suspension with
  | zero => exact initial
  | succ turns ih => exact ih (preserved suspension initial)

end Suspension

end EventAsync
