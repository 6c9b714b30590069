import EventAsync.Lib.Stateful

/-!
# Computations that agree

Two computations on one type of states agree if from every state they end in the
same way, with the same error or with related values, and in the same state.
The rules go through two computations part by part.
-/

namespace Stateful

universe u

variable {Error State Left Right First Second : Type u}

/-- From every state both computations end in the same state, with the same error or with related
values. -/
def Agrees (related : Left → Right → Prop) (left : EStateM Error State Left)
    (right : EStateM Error State Right) : Prop :=
  ∀ state,
    (∃ value other after, left state = .ok value after ∧ right state = .ok other after ∧
      related value other) ∨
    ∃ error after, left state = .error error after ∧ right state = .error error after

namespace Agrees

variable {related : Left → Right → Prop} {left : EStateM Error State Left}
  {right : EStateM Error State Right}

theorem refl (action : EStateM Error State Left) : Agrees Eq action action := by
  intro state
  cases ends : action state with
  | ok value after => exact Or.inl ⟨value, value, after, rfl, rfl, rfl⟩
  | error error after => exact Or.inr ⟨error, after, rfl, rfl⟩

theorem pure {value : Left} {other : Right} (holds : related value other) :
    Agrees related (Pure.pure value : EStateM Error State Left) (Pure.pure other) :=
  fun state => Or.inl ⟨value, other, state, rfl, rfl, holds⟩

theorem throw (error : Error) :
    Agrees related (MonadExcept.throw error : EStateM Error State Left)
      (MonadExcept.throw error) :=
  fun state => Or.inr ⟨error, state, rfl, rfl⟩

theorem bind {then' : First → Second → Prop} {next : Left → EStateM Error State First}
    {other : Right → EStateM Error State Second} (agrees : Agrees related left right)
    (later : ∀ value value', related value value' → Agrees then' (next value) (other value')) :
    Agrees then' (left >>= next) (right >>= other) := by
  intro state
  rcases agrees state with ⟨value, value', middle, ends, ends', holds⟩ | ⟨error, after, ends, ends'⟩
  · rw [bind_of_ok ends, bind_of_ok ends']
    exact later value value' holds middle
  · exact Or.inr ⟨error, after, bind_of_error ends, bind_of_error ends'⟩

/-- The same computation first, and then computations that agree for each of its values. -/
theorem bind_same {then' : First → Second → Prop} (action : EStateM Error State Left)
    {next : Left → EStateM Error State First} {other : Left → EStateM Error State Second}
    (later : ∀ value, Agrees then' (next value) (other value)) :
    Agrees then' (action >>= next) (action >>= other) := by
  apply bind (refl action)
  rintro value _ rfl
  exact later value

theorem zoom {Whole : Type u} {view : Whole → State} {put : State → Whole → Whole}
    (agrees : Agrees related left right) :
    Agrees related (Stateful.zoom view put left) (Stateful.zoom view put right) := by
  intro whole
  rcases agrees (view whole) with ⟨value, other, after, ends, ends', holds⟩ |
    ⟨error, after, ends, ends'⟩
  · exact Or.inl ⟨value, other, put after whole, zoom_of_ok ends, zoom_of_ok ends', holds⟩
  · exact Or.inr ⟨error, put after whole, zoom_of_error ends, zoom_of_error ends'⟩

end Agrees

end Stateful
