import EventAsync.Lib.ByteCodec
import EventAsync.Lib.Stateful

/-!
# Computations that decode bytes

A decoder is a computation whose state holds the bytes that are still to be
read, possibly with a count of those already read and with other data that it
leaves alone.  `place` builds such a state from the count and the bytes.  A
decoder is described by the encoding that it consumes and the value that it
returns, whatever bytes follow; descriptions compose along `>>=`.
-/

namespace Decoding

open ByteCodec

universe u

variable {Error State Value Output : Type} {Item : Type u} {place : ℕ → Bytes → State}

/-- The decoder consumes exactly `bytes` and returns `value`, whatever follows. -/
def Decodes (place : ℕ → Bytes → State) (action : EStateM Error State Value) (bytes : Bytes)
    (value : Value) : Prop :=
  ∀ offset rest, action (place offset (bytes ++ rest)) =
    .ok value (place (offset + bytes.length) rest)

namespace Decodes

/-- Two values cannot be decoded from the same bytes. -/
theorem unique {action : EStateM Error State Value} {bytes : Bytes} {value other : Value}
    (decodes : Decodes place action bytes value) (decodesOther : Decodes place action bytes other) :
    value = other := by
  have same := (decodes 0 []).symm.trans (decodesOther 0 [])
  injection same

theorem pure (value : Value) :
    Decodes place (Pure.pure value : EStateM Error State Value) [] value := by
  intro offset rest
  rfl

theorem bind {action : EStateM Error State Value} {next : Value → EStateM Error State Output}
    {first second : Bytes} {value : Value} {output : Output}
    (decodesFirst : Decodes place action first value)
    (decodesNext : Decodes place (next value) second output) :
    Decodes place (action >>= next) (first ++ second) output := by
  intro offset rest
  rw [List.append_assoc, Stateful.bind_of_ok (decodesFirst offset (second ++ rest))]
  rw [decodesNext, List.length_append, Nat.add_assoc]

theorem bind_pure {action : EStateM Error State Value} {result : Value → Output}
    {bytes : Bytes} {value : Value} (decodes : Decodes place action bytes value) :
    Decodes place (action >>= fun value => Pure.pure (result value)) bytes (result value) := by
  intro offset rest
  rw [Stateful.bind_of_ok (decodes offset rest)]
  rfl

/-- A decoder for each item of a list, one after the other. -/
theorem mapM_map {Source : Type} {decoder : Item → EStateM Error State Value}
    {item : Source → Item} {encode : Source → Bytes} {value : Source → Value}
    {sources : List Source}
    (each : ∀ source ∈ sources,
      Decodes place (decoder (item source)) (encode source) (value source)) :
    Decodes place ((sources.map item).mapM decoder) (sources.flatMap encode)
      (sources.map value) := by
  induction sources with
  | nil => exact pure []
  | cons source sources ih =>
      have first := each source List.mem_cons_self
      have others := ih fun later mem => each later (List.mem_cons_of_mem source mem)
      rw [List.map_cons, List.mapM_cons, List.flatMap_cons, List.map_cons]
      exact first.bind others.bind_pure

end Decodes

/-- The decoder consumes `bytes` and returns `value` if nothing follows. -/
def Exhausts (place : ℕ → Bytes → State) (action : EStateM Error State Value) (bytes : Bytes)
    (value : Value) : Prop :=
  ∀ offset, action (place offset bytes) = .ok value (place (offset + bytes.length) [])

theorem Decodes.bind_exhausts {action : EStateM Error State Value}
    {next : Value → EStateM Error State Output} {first second : Bytes} {value : Value}
    {output : Output} (decodes : Decodes place action first value)
    (exhausts : Exhausts place (next value) second output) :
    Exhausts place (action >>= next) (first ++ second) output := by
  intro offset
  rw [Stateful.bind_of_ok (decodes offset second), exhausts, List.length_append, Nat.add_assoc]

/-- What comes after the bytes inspects their value alone. -/
theorem Exhausts.bind_ok {action : EStateM Error State Value}
    {next : Value → EStateM Error State Output} {bytes : Bytes} {value : Value} {output : Output}
    (exhausts : Exhausts place action bytes value)
    (returns : ∀ state, next value state = .ok output state) :
    Exhausts place (action >>= next) bytes output := by
  intro offset
  rw [Stateful.bind_of_ok (exhausts offset), returns]

end Decoding
