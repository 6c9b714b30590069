import EventAsync.MySQL.ProtocolBuffer
import EventAsync.MySQL.StringReader

/-!
# The fields of the MySQL protocol

Sequences of fields are added to a `ProtocolBuffer` and taken from it again, or
from a `ProtocolStringReader` over the same bytes.

`Buffer::remove` stores the count that `evbuffer_remove` returns in an `int`,
where `copyout_atmost` uses an `ssize_t`.  A string or a run of zeroes of 2^31
bytes or more is added and cannot be removed, although it is in the buffer.
-/

namespace EventAsync.MySQL

open ByteCodec Decoding

/-- What the two sides agree on before a field is sent. -/
inductive FieldKind where
  | u24
  | u48
  | varint
  | varString
  | string0
  | zeroes (count : ℕ)

inductive FieldData where
  | number (value : ℕ)
  | string (str : Bytes)

/-- A field with a value that its encoding can hold; the sizes of strings are of type `size_t`. -/
inductive Field where
  | u24 (value : ℕ) (fits : value < 2 ^ 24)
  | u48 (value : ℕ) (fits : value < 2 ^ 48)
  | varint (value : ℕ) (fits : value < 2 ^ 64)
  | varString (str : Bytes) (fits : str.length < 2 ^ 64)
  | string0 (str : Bytes) (text : 0 ∉ str)
  | zeroes (count : ℕ)

namespace FieldKind

open Buffer ProtocolBuffer StringReader

/-- The matching function of the buffer. -/
def remove : FieldKind → BufferM FieldData
  | u24 => do return .number (← removeU24l)
  | u48 => do return .number (← removeU48l)
  | varint => do return .number (← removeVarint)
  | varString => do return .string (← removeVarString)
  | string0 => do return .string (← removeString0)
  | zeroes count => do return .string (← removeString count)

/-- The matching function of the reader. -/
def get : FieldKind → ReaderM FieldData
  | u24 => do return .number (← getU24l)
  | u48 => do return .number (← getU48l)
  | varint => do return .number (← getVarint)
  | varString => do return .string (← getVarString)
  | string0 => do return .string (← getString0)
  | zeroes count => do return .string (← read count)

end FieldKind

namespace Field

open Buffer ProtocolBuffer

def kind : Field → FieldKind
  | u24 _ _ => .u24
  | u48 _ _ => .u48
  | varint _ _ => .varint
  | varString _ _ => .varString
  | string0 _ _ => .string0
  | zeroes count => .zeroes count

def data : Field → FieldData
  | u24 value _ => .number value
  | u48 value _ => .number value
  | varint value _ => .number value
  | varString str _ => .string str
  | string0 str _ => .string str
  | zeroes count => .string (List.replicate count 0)

def add : Field → BufferM Unit
  | u24 value _ => addU24l value
  | u48 value _ => addU48l value
  | varint value _ => addVarint value
  | varString str _ => addVarString str
  | string0 str _ => addString0 str
  | zeroes count => addZeroes count

/-- The bytes of a field in the buffer. -/
def encode : Field → Bytes
  | u24 value _ => leBytes 3 value
  | u48 value _ => leBytes 6 value
  | varint value _ => varintBytes value
  | varString str _ => varStringBytes str
  | string0 str _ => str ++ [0]
  | zeroes count => List.replicate count 0

/-- The field is removed with a count below 2^31. -/
def Narrow : Field → Prop
  | varString str _ => str.length < 2 ^ 31
  | zeroes count => count < 2 ^ 31
  | _ => True

end Field

namespace ProtocolBuffer

open Buffer

variable {buf : Bytes}

theorem addVarint_eq (value : ℕ) (buf : Bytes) :
    addVarint value buf = .ok () (buf ++ varintBytes value) := by
  have tagged : ∀ (tag : UInt8) (bytes : Bytes),
      (do addU8 tag; add bytes : BufferM Unit) buf = .ok () (buf ++ tag :: bytes) := by
    intro tag bytes
    have added : addU8 tag buf = .ok () (buf ++ [tag]) := rfl
    rw [Stateful.bind_of_ok added]
    simp [add]
  simp only [addVarint, varintBytes]
  split
  · rfl
  · split
    · exact tagged 0xFC (leBytes 2 value)
    · split
      · exact tagged 0xFD (leBytes 3 value)
      · exact tagged 0xFE (leBytes 8 value)

theorem addVarString_eq (str buf : Bytes) :
    addVarString str buf = .ok () (buf ++ varStringBytes str) := by
  rw [addVarString, Stateful.bind_of_ok (addVarint_eq str.length buf), varStringBytes,
    ← List.append_assoc]
  rfl

/-- The loop of `add_zeroes`. -/
theorem addU64l_zero_forM (items : List ℕ) (buf : Bytes) :
    (items.forM fun _ => addU64l 0) buf =
      .ok () (buf ++ List.replicate (8 * items.length) 0) := by
  induction items generalizing buf with
  | nil => simp [List.forM_nil, pure, EStateM.pure]
  | cons item items ih =>
      have added : addU64l 0 buf = .ok () (buf ++ List.replicate 8 0) := rfl
      have unrolled : ((item :: items).forM fun _ => addU64l 0 : BufferM Unit) =
          addU64l 0 >>= fun _ => items.forM fun _ => addU64l 0 := rfl
      rw [unrolled, Stateful.bind_of_ok added, ih, List.append_assoc,
        ← List.replicate_add, List.length_cons, Nat.mul_succ, Nat.add_comm 8]

theorem add_if_bind {condition : Prop} [Decidable condition] (count : ℕ)
    (next : Unit → BufferM Unit) (buf : Bytes) :
    (if condition then add (List.replicate count 0) >>= next else next ()) buf =
      next () (buf ++ List.replicate (if condition then count else 0) 0) := by
  split
  · rfl
  · rw [List.replicate_zero, List.append_nil]

theorem ite_bit (bit width : ℕ) : (if bit % 2 = 1 then width else 0) = width * (bit % 2) := by
  rcases Nat.mod_two_eq_zero_or_one bit with isClear | isSet
  · rw [isClear, if_neg (Nat.zero_ne_one), Nat.mul_zero]
  · rw [isSet, if_pos rfl, Nat.mul_one]

/-- The widths of the zeroes that `add_zeroes` adds. -/
theorem sum_widths (count : ℕ) :
    8 * (count / 8) + ((if count &&& 4 ≠ 0 then 4 else 0) +
      ((if count &&& 2 ≠ 0 then 2 else 0) + if count &&& 1 ≠ 0 then 1 else 0)) = count := by
  have four : count &&& 4 ≠ 0 ↔ count / 4 % 2 = 1 := and_two_pow_ne_zero_iff count 2
  have two : count &&& 2 ≠ 0 ↔ count / 2 % 2 = 1 := and_two_pow_ne_zero_iff count 1
  have one : count &&& 1 ≠ 0 ↔ count / 1 % 2 = 1 := and_two_pow_ne_zero_iff count 0
  simp only [four, two, one, ite_bit]
  omega

theorem addZeroes_eq (count : ℕ) (buf : Bytes) :
    addZeroes count buf = .ok () (buf ++ List.replicate count 0) := by
  have loop := addU64l_zero_forM (List.range (count / 8)) buf
  have last : ∀ buf : Bytes, (if count &&& 1 ≠ 0 then addU8 0 else pure ()) buf =
      .ok () (buf ++ List.replicate (if count &&& 1 ≠ 0 then 1 else 0) 0) :=
    add_if_bind 1 fun _ => pure ()
  rw [addZeroes, Stateful.bind_of_ok loop]
  apply (add_if_bind 4 _ _).trans
  apply (add_if_bind 2 _ _).trans
  apply (last _).trans
  rw [List.append_assoc, List.append_assoc, List.append_assoc, ← List.replicate_add,
    ← List.replicate_add, ← List.replicate_add, List.length_range, sum_widths]

example : (do addVarint 0xFB; addVarString [0x61]; addZeroes 3 : BufferM Unit) [] =
    .ok () [0xFC, 0xFB, 0, 1, 0x61, 0, 0, 0] := rfl

/-- The count of so many bytes does not fit into the `int`. -/
theorem removeString_of_wide {str : Bytes} (wide : 2 ^ 31 ≤ str.length) (rest : Bytes) :
    ∃ stop after, removeString str.length (str ++ rest) = .error stop after := by
  have fewer : (toInt32 str.length).toNat < str.length := by
    simp only [toInt32]
    split <;> omega
  by_cases huge : stringMaxSize < str.length
  · refine ⟨.raised (.lengthError "basic_string::_M_create"), str ++ rest, ?_⟩
    rw [removeString, if_pos huge]
    rfl
  · rw [removeString, if_neg huge]
    by_cases negative : toInt32 str.length < 0
    · refine ⟨.runtimeError "evbuffer_remove", rest, ?_⟩
      simp [remove, negative]
    · refine ⟨.runtimeError "not enough data in buffer", rest, ?_⟩
      simp [remove, negative, fewer]

theorem removeVarString_of_wide {str : Bytes} (fits : str.length < 2 ^ 64)
    (wide : 2 ^ 31 ≤ str.length) (rest : Bytes) :
    ∃ stop after, removeVarString (varStringBytes str ++ rest) = .error stop after := by
  rcases removeString_of_wide wide rest with ⟨stop, after, raised⟩
  have length := decodes_removeVarint fits 0 (str ++ rest)
  refine ⟨stop, after, ?_⟩
  rw [removeVarString, varStringBytes, List.append_assoc]
  exact (Stateful.bind_of_ok length).trans raised

end ProtocolBuffer

namespace Field

open Buffer ProtocolBuffer StringReader

theorem add_eq (field : Field) (buf : Bytes) : field.add buf = .ok () (buf ++ field.encode) := by
  cases field with
  | u24 value fits => rfl
  | u48 value fits => rfl
  | varint value fits => exact addVarint_eq value buf
  | varString str fits => exact addVarString_eq str buf
  | string0 str text => rfl
  | zeroes count => exact addZeroes_eq count buf

theorem decodes_remove {field : Field} (narrow : field.Narrow) :
    Decodes front field.kind.remove field.encode field.data := by
  cases field with
  | u24 value fits => exact (decodes_removeLe (by norm_num) fits).bind_pure
  | u48 value fits => exact (decodes_removeLe (by norm_num) fits).bind_pure
  | varint value fits => exact (decodes_removeVarint fits).bind_pure
  | varString str fits => exact (decodes_removeVarString narrow).bind_pure
  | string0 str text => exact (decodes_readln text).bind_pure
  | zeroes count =>
      have short : (List.replicate count (0 : UInt8)).length < 2 ^ 31 := by
        rw [List.length_replicate]
        exact narrow
      have removed := decodes_removeString short
      rw [List.length_replicate] at removed
      exact removed.bind_pure

theorem remove_of_not_narrow {field : Field} (wide : ¬field.Narrow) (rest : Bytes) :
    ∃ stop after, field.kind.remove (field.encode ++ rest) = .error stop after := by
  cases field with
  | u24 value fits => exact absurd trivial wide
  | u48 value fits => exact absurd trivial wide
  | varint value fits => exact absurd trivial wide
  | varString str fits =>
      rcases removeVarString_of_wide fits (not_lt.mp wide) rest with ⟨stop, after, raised⟩
      exact ⟨stop, after, Stateful.bind_of_error raised⟩
  | string0 str text => exact absurd trivial wide
  | zeroes count =>
      have long : 2 ^ 31 ≤ (List.replicate count (0 : UInt8)).length := by
        rw [List.length_replicate]
        exact not_lt.mp wide
      rcases removeString_of_wide long rest with ⟨stop, after, raised⟩
      rw [List.length_replicate] at raised
      exact ⟨stop, after, Stateful.bind_of_error raised⟩

theorem decodes_get (field : Field) : Decodes mk field.kind.get field.encode field.data := by
  cases field with
  | u24 value fits => exact (decodes_getLe fits).bind_pure
  | u48 value fits => exact (decodes_getLe fits).bind_pure
  | varint value fits => exact (decodes_getVarint fits).bind_pure
  | varString str fits => exact (decodes_getVarString fits).bind_pure
  | string0 str text => exact (decodes_getString0 text).bind_pure
  | zeroes count => exact (decodes_read List.length_replicate).bind_pure

theorem forM_add_eq (fields : List Field) (buf : Bytes) :
    (fields.forM add : BufferM Unit) buf = .ok () (buf ++ fields.flatMap encode) := by
  induction fields generalizing buf with
  | nil =>
      rw [List.flatMap_nil, List.append_nil]
      rfl
  | cons field fields ih =>
      have unrolled : ((field :: fields).forM add : BufferM Unit) =
          field.add >>= fun _ => fields.forM add := rfl
      rw [unrolled, Stateful.bind_of_ok (field.add_eq buf), ih, List.append_assoc,
        List.flatMap_cons]

theorem decodes_mapM_remove {fields : List Field} (narrow : ∀ field ∈ fields, field.Narrow) :
    Decodes front ((fields.map kind).mapM FieldKind.remove) (fields.flatMap encode)
      (fields.map data) :=
  Decodes.mapM_map fun field mem => decodes_remove (narrow field mem)

/-- The first field that is not narrow is not removed. -/
theorem mapM_remove_of_not_narrow {fields : List Field}
    (wide : ∃ field ∈ fields, ¬field.Narrow) (rest : Bytes) :
    ∃ stop after, (fields.map kind).mapM FieldKind.remove (fields.flatMap encode ++ rest) =
      .error stop after := by
  induction fields with
  | nil => simp at wide
  | cons field fields ih =>
      rw [List.map_cons, List.mapM_cons, List.flatMap_cons, List.append_assoc]
      by_cases narrow : field.Narrow
      · have others : ∃ later ∈ fields, ¬later.Narrow := by
          rcases wide with ⟨later, mem, wideLater⟩
          rcases List.mem_cons.mp mem with rfl | mem
          · exact absurd narrow wideLater
          · exact ⟨later, mem, wideLater⟩
        have removed := decodes_remove narrow 0 (fields.flatMap encode ++ rest)
        rcases ih others with ⟨stop, after, raised⟩
        simp only [front] at removed
        refine ⟨stop, after, ?_⟩
        rw [Stateful.bind_of_ok removed, Stateful.bind_of_error raised]
      · rcases remove_of_not_narrow narrow (fields.flatMap encode ++ rest) with
          ⟨stop, after, raised⟩
        exact ⟨stop, after, Stateful.bind_of_error raised⟩

theorem decodes_mapM_get (fields : List Field) :
    Decodes mk ((fields.map kind).mapM FieldKind.get) (fields.flatMap encode)
      (fields.map data) :=
  Decodes.mapM_map fun field _ => decodes_get field

end Field

/-- The number of bytes behind the first byte of an integer. -/
def varintWidth (first : UInt8) : Option ℕ :=
  if first < 0xFB then some 0
  else if first = 0xFC then some 2
  else if first = 0xFD then some 3
  else if first = 0xFE then some 8
  else none

/-- The bytes begin with a complete integer, not necessarily in its shortest form. -/
def HoldsVarint (bytes : Bytes) : Prop :=
  ∃ first body rest, bytes = first :: body ++ rest ∧ varintWidth first = some body.length

theorem decodes_varint_of_width {State : Type} {u8 : EStateM Stop State UInt8}
    {u16l u24l u64l : EStateM Stop State ℕ} {place : ℕ → Bytes → State} {first : UInt8}
    {body : Bytes} (width : varintWidth first = some body.length)
    (decodesU8 : ∀ byte, Decodes place u8 [byte] byte)
    (decodesU16l : ∀ number < 256 ^ 2, Decodes place u16l (leBytes 2 number) number)
    (decodesU24l : ∀ number < 256 ^ 3, Decodes place u24l (leBytes 3 number) number)
    (decodesU64l : ∀ number < 256 ^ 8, Decodes place u64l (leBytes 8 number) number) :
    Decodes place (varint u8 u16l u24l u64l) (first :: body)
      (if first < 0xFB then first.toNat else leNat body) := by
  have fixed : ∀ (size : ℕ) (action : EStateM Stop State ℕ),
      (∀ number < 256 ^ size, Decodes place action (leBytes size number) number) →
      some size = some body.length → Decodes place action body (leNat body) := by
    intro size action decodes length
    have encoded := decodes (leNat body)
    rw [Option.some.inj length, leBytes_leNat] at encoded
    exact encoded (leNat_lt body)
  apply (decodesU8 first).bind
  simp only [varintWidth] at width
  split at width
  next small =>
    rw [if_pos small, if_pos small, List.length_eq_zero_iff.mp (Option.some.inj width).symm]
    exact Decodes.pure first.toNat
  next large =>
    split at width
    next two =>
      subst two
      exact fixed 2 u16l decodesU16l width
    next notTwo =>
      split at width
      next three =>
        subst three
        exact fixed 3 u24l decodesU24l width
      next notThree =>
        split at width
        next eight =>
          subst eight
          exact fixed 8 u64l decodesU64l width
        next none => cases width

/-- The two decoders of integers do the same with every complete integer, and both refuse the two
first bytes that are reserved. -/
structure VarintsAgree : Prop where
  complete : ∀ bytes offset, HoldsVarint bytes → ∃ value size,
    ProtocolBuffer.removeVarint bytes = .ok value (bytes.drop size) ∧
      StringReader.getVarint ⟨offset, bytes⟩ = .ok value ⟨offset + size, bytes.drop size⟩
  reserved : ∀ (first : UInt8) rest offset, first = 0xFB ∨ first = 0xFF → ∃ message,
    ProtocolBuffer.removeVarint (first :: rest) = .error (.runtimeError message) rest ∧
      StringReader.getVarint ⟨offset, first :: rest⟩ =
        .error (.runtimeError message) ⟨offset + 1, rest⟩

theorem varintsAgree : VarintsAgree where
  complete := by
    rintro bytes offset ⟨first, body, rest, rfl, width⟩
    have removed := decodes_varint_of_width width Buffer.decodes_removeU8
      (fun _ => Buffer.decodes_removeLe (by norm_num))
      (fun _ => Buffer.decodes_removeLe (by norm_num))
      (fun _ => Buffer.decodes_removeLe (by norm_num)) 0 rest
    have got := decodes_varint_of_width width StringReader.decodes_getU8
      (fun _ => StringReader.decodes_getLe) (fun _ => StringReader.decodes_getLe)
      (fun _ => StringReader.decodes_getLe) offset rest
    refine ⟨if first < 0xFB then first.toNat else leNat body, (first :: body).length, ?_, ?_⟩
    · rw [List.drop_left]
      exact removed
    · rw [List.drop_left]
      exact got
  reserved := by
    intro first rest offset isReserved
    have removed := Buffer.decodes_removeU8 first 0 rest
    have got := StringReader.decodes_getU8 first offset rest
    simp only [front, List.singleton_append] at removed got
    rcases isReserved with rfl | rfl
    · refine ⟨"length-encoded int is invalid (0xFB)", ?_, ?_⟩
      · exact Stateful.bind_of_ok removed
      · exact Stateful.bind_of_ok got
    · refine ⟨"length-encoded int is invalid (0xFF)", ?_, ?_⟩
      · exact Stateful.bind_of_ok removed
      · exact Stateful.bind_of_ok got

/-- What is added is removed and got again in the same order, to the last byte. -/
structure CodecHolds (fields : List Field) : Prop where
  removes : ∃ bytes, (fields.forM Field.add : BufferM Unit) [] = .ok () bytes ∧
    (fields.map Field.kind).mapM FieldKind.remove bytes = .ok (fields.map Field.data) []
  gets : ∃ bytes, (fields.forM Field.add : BufferM Unit) [] = .ok () bytes ∧
    (fields.map Field.kind).mapM FieldKind.get (StringReader.ofString bytes) =
      .ok (fields.map Field.data) ⟨bytes.length, []⟩
  varints : VarintsAgree

theorem not_codecHolds_of_wide {fields : List Field} (wide : ∃ field ∈ fields, ¬field.Narrow) :
    ¬CodecHolds fields := by
  intro holds
  rcases holds.removes with ⟨bytes, added, removed⟩
  rw [Field.forM_add_eq, List.nil_append] at added
  cases added
  rcases Field.mapM_remove_of_not_narrow wide [] with ⟨stop, after, raised⟩
  rw [List.append_nil, removed] at raised
  cases raised

/-- The codec fails exactly on sequences with a field that is removed with a wide count. -/
theorem codecHolds_iff (fields : List Field) :
    CodecHolds fields ↔ ∀ field ∈ fields, field.Narrow := by
  constructor
  · intro holds
    by_contra someWide
    push Not at someWide
    exact not_codecHolds_of_wide someWide holds
  · intro narrow
    have added := Field.forM_add_eq fields []
    have removed := Field.decodes_mapM_remove narrow 0 []
    have got := Field.decodes_mapM_get fields 0 []
    rw [List.nil_append] at added
    rw [List.append_nil] at removed got
    rw [Nat.zero_add] at got
    exact ⟨⟨_, added, removed⟩, ⟨_, added, got⟩, varintsAgree⟩

/-- A string with as many bytes as an `int` can no longer count. -/
def Field.wideString : Field :=
  .varString (List.replicate (2 ^ 31) 0)
    ((List.length_replicate).trans_lt (by norm_num : 2 ^ 31 < 2 ^ 64))

theorem Field.wideString_wide : ¬Field.wideString.Narrow := by
  rw [wideString, Narrow, List.length_replicate]
  exact lt_irrefl _

theorem not_codecHolds_wideString : ¬CodecHolds [.wideString] :=
  not_codecHolds_of_wide ⟨.wideString, List.mem_singleton_self _, Field.wideString_wide⟩

end EventAsync.MySQL
