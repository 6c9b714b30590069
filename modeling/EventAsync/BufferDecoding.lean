import EventAsync.BufferTransfers
import EventAsync.Lib.Decoding

/-!
# Decoding the front of a buffer

What the operations of `Buffer` take from the front of a buffer whose content
is known, for a buffer alone and for one that belongs to a stream.
-/

namespace EventAsync

open ByteCodec Decoding

variable {Value : Type} {bytes : Bytes} {value : Value}

/-- A buffer with the given content. -/
def front (_ : ℕ) (rest : Bytes) : Bytes := rest

theorem Stream.Holds.decode {stream : Stream} {rest incoming sent : Bytes}
    {action : BufferM Value} (holds : stream.Holds (bytes ++ rest) incoming sent)
    (decodes : Decodes front action bytes value) :
    ∃ after, (liftM action : StreamM Value) stream = .ok value after ∧
      after.Holds rest incoming sent := by
  refine ⟨{ stream with buf := rest }, ?_,
    ⟨rfl, holds.incoming_eq, holds.sent_eq, holds.healthy⟩⟩
  have ends := decodes 0 rest
  simp only [front, ← holds.buf_eq] at ends
  exact Stateful.zoom_of_ok ends

namespace Buffer

theorem toInt32_of_lt {size : ℕ} (small : size < 2 ^ 31) : toInt32 size = size := by
  simp only [toInt32]
  split <;> omega

theorem decodes_remove {size : ℕ} (length : bytes.length = size) (small : size < 2 ^ 31) :
    Decodes front (remove size) bytes bytes := by
  intro offset rest
  subst length
  have nonnegative : ¬(bytes.length : ℤ) < 0 := by omega
  simp [remove, front, toInt32_of_lt small, nonnegative]

theorem decodes_removeString (small : bytes.length < 2 ^ 31) :
    Decodes front (removeString bytes.length) bytes bytes := by
  have fits : ¬stringMaxSize < bytes.length := by
    simp only [stringMaxSize]
    omega
  simp only [removeString, fits, if_false]
  exact decodes_remove rfl small

theorem decodes_removeU8 (byte : UInt8) : Decodes front removeU8 [byte] byte := by
  have removed : Decodes front (remove 1) [byte] [byte] := decodes_remove rfl (by norm_num)
  exact removed.bind_pure

theorem copyoutU8_cons (byte : UInt8) (rest : Bytes) :
    copyoutU8 (byte :: rest) = .ok byte (byte :: rest) := by
  have converted : toInt32 1 = 1 := by decide
  simp [copyoutU8, copyout, converted, bind, EStateM.bind, pure, EStateM.pure]

theorem decodes_removeLe {width number : ℕ} (small : width < 2 ^ 31) (fits : number < 256 ^ width) :
    Decodes front (removeLe width) (leBytes width number) number := by
  have removed : Decodes front (removeLe width) (leBytes width number)
      (leNat (leBytes width number)) :=
    (decodes_remove (length_leBytes width number) small).bind_pure
  rwa [leNat_leBytes_of_lt fits] at removed

theorem decodes_removeBe {width number : ℕ} (small : width < 2 ^ 31) (fits : number < 256 ^ width) :
    Decodes front (removeBe width) (beBytes width number) number := by
  have removed : Decodes front (removeBe width) (beBytes width number)
      (beNat (beBytes width number)) :=
    (decodes_remove (length_beBytes width number) small).bind_pure
  rwa [beNat_beBytes_of_lt fits] at removed

theorem decodes_drain (bytes : Bytes) : Decodes front (drain bytes.length) bytes () := by
  intro offset rest
  simp [drain, front]

theorem decodes_readln {text : Bytes} (noNul : 0 ∉ text) :
    Decodes front readln (text ++ [0]) text := by
  intro offset rest
  have terminated : text ++ [0] ++ rest = text ++ 0 :: rest := by simp
  have holdsNul : (text ++ 0 :: rest).contains 0 = true := by simp
  simp only [front, terminated]
  rw [readln, if_pos holdsNul, takeWhile_terminated noNul, dropWhile_terminated noNul]
  rfl

end Buffer

end EventAsync
