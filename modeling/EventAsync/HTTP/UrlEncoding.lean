import EventAsync.HTTP.UrlDecoding
import Mathlib.Algebra.BigOperators.Group.Multiset.Defs
import Mathlib.Algebra.Order.BigOperators.Group.List

/-!
# Form-urlencoded parameters

A query that lists keys and encoded values is decoded to these values if every
plus stands before the first escape of its value.  Otherwise the decoder misses
one, and returns a plus sign more than the values have.
-/

namespace EventAsync.HTTP.Request

open ByteCodec

/-- How one byte of a value is written. -/
inductive EncodedByte where
  | literal (byte : UInt8) (plain : byte ∉ [0x00, 0x20, 0x25, 0x26, 0x2B])
  | plus
  | escape (highDigit lowDigit high low : UInt8) (highHex : hexValue highDigit = some high)
      (lowHex : hexValue lowDigit = some low) (nonzero : high <<< 4 ||| low ≠ 0)

namespace EncodedByte

def byte : EncodedByte → UInt8
  | literal byte _ => byte
  | plus => 0x20
  | escape _ _ high low _ _ _ => high <<< 4 ||| low

def text : EncodedByte → Bytes
  | literal byte _ => [byte]
  | plus => [0x2B]
  | escape highDigit lowDigit _ _ _ _ _ => [0x25, highDigit, lowDigit]

def token : EncodedByte → Token
  | literal byte _ => .character byte
  | plus => .character 0x2B
  | escape highDigit lowDigit _ _ _ _ _ => .escape highDigit lowDigit

def isPlus : EncodedByte → Bool
  | plus => true
  | _ => false

def isEscape : EncodedByte → Bool
  | escape .. => true
  | _ => false

/-- What the decoder writes, given the character of the value at the write offset. -/
def decoded : UInt8 × EncodedByte → UInt8
  | (overwritten, literal byte _) => if overwritten = 0x2B then 0x20 else byte
  | (overwritten, plus) => if overwritten = 0x2B then 0x20 else 0x2B
  | (_, escape _ _ high low _ _ _) => high <<< 4 ||| low

end EncodedByte

/-- A parameter of a query with the encoding of its value. -/
structure Param where
  key : Bytes
  amp_free : 0x26 ∉ key
  equals_free : 0x3D ∉ key
  value : List EncodedByte

namespace Param

def pair (param : Param) : Bytes × Bytes :=
  (param.key, param.value.map EncodedByte.byte)

def piece (param : Param) : Bytes :=
  param.key ++ 0x3D :: param.value.flatMap EncodedByte.text

end Param

/-- `key1=value1&key2=value2&...` -/
def formQuery (params : List Param) : Bytes :=
  List.intercalate [0x26] (params.map Param.piece)

/-- No plus stands behind an escape. -/
def PlusesFirst (value : List EncodedByte) : Prop :=
  value.Pairwise fun earlier later => earlier.isEscape → ¬later.isPlus

section Bytes

variable {phosg : Phosg}

theorem hexValue_ne {digit value other : UInt8} (hex : hexValue digit = some value)
    (none : hexValue other = none) : digit ≠ other := by
  rintro rfl
  rw [none] at hex
  simp at hex

/-- The characters that end a value or stand for something else are always escaped. -/
theorem EncodedByte.text_free (encoded : EncodedByte) :
    0x26 ∉ encoded.text ∧ (encoded.isPlus = false → 0x2B ∉ encoded.text) := by
  cases encoded with
  | literal byte plain =>
      simp only [List.mem_cons, List.not_mem_nil, or_false, not_or] at plain
      simp [text, Ne.symm plain.2.2.2.1, Ne.symm plain.2.2.2.2]
  | plus => simp [text, isPlus]
  | escape highDigit lowDigit high low highHex lowHex nonzero =>
      have highAmp := hexValue_ne highHex (show hexValue 0x26 = none by decide)
      have lowAmp := hexValue_ne lowHex (show hexValue 0x26 = none by decide)
      have highPlus := hexValue_ne highHex (show hexValue 0x2B = none by decide)
      have lowPlus := hexValue_ne lowHex (show hexValue 0x2B = none by decide)
      simp [text, highAmp.symm, lowAmp.symm, highPlus.symm, lowPlus.symm]

theorem tokenize_cons_of_ne {char : UInt8} (single : char ≠ 0x25) (rest : Bytes) :
    tokenize (char :: rest) = .character char :: tokenize rest := by
  rcases rest with _ | ⟨high, _ | ⟨low, rest⟩⟩
  · rfl
  · rfl
  · rw [tokenize, if_neg single]

theorem tokenize_text (value : List EncodedByte) :
    tokenize (value.flatMap EncodedByte.text) = value.map EncodedByte.token := by
  induction value with
  | nil => rfl
  | cons encoded value ih =>
      rw [List.flatMap_cons, List.map_cons, ← ih]
      cases encoded with
      | literal byte plain =>
          apply tokenize_cons_of_ne
          rintro rfl
          simp at plain
      | plus => exact tokenize_cons_of_ne (by decide) _
      | escape highDigit lowDigit high low highHex lowHex nonzero => exact if_pos rfl

theorem decodeToken_token (overwritten : UInt8) (encoded : EncodedByte) :
    decodeToken phosg (overwritten, encoded.token) =
      .ok (EncodedByte.decoded (overwritten, encoded)) := by
  cases encoded with
  | literal byte plain => rfl
  | plus => rfl
  | escape highDigit lowDigit high low highHex lowHex nonzero =>
      rw [EncodedByte.token, decodeToken, hexChar, hexChar,
        phosg.valueForHexChar_digit _ _ highHex, phosg.valueForHexChar_digit _ _ lowHex]
      rfl

/-- What the decoder writes for the rest of a value. -/
def decodedAll (ahead : Bytes) (value : List EncodedByte) : Bytes :=
  (ahead.zip value).map EncodedByte.decoded

theorem decodedAll_cons (overwritten : UInt8) (ahead : Bytes) (encoded : EncodedByte)
    (value : List EncodedByte) :
    decodedAll (overwritten :: ahead) (encoded :: value) =
      EncodedByte.decoded (overwritten, encoded) :: decodedAll ahead value := rfl

theorem mapM_of_forall {Value Other : Type} {next : Value → Except Stop Other}
    {output : Value → Other} {inputs : List Value}
    (all : ∀ input ∈ inputs, next input = .ok (output input)) :
    inputs.mapM next = .ok (inputs.map output) := by
  induction inputs with
  | nil => rfl
  | cons input inputs ih =>
      rw [List.mapM_cons, all input List.mem_cons_self, ok_bind,
        ih fun later mem => all later (List.mem_cons_of_mem _ mem), ok_bind]
      rfl

/-- The lone percent sign is not the encoding of a value. -/
theorem text_ne_percent (value : List EncodedByte) :
    value.flatMap EncodedByte.text ≠ [0x25] := by
  intro lone
  have tokens := tokenize_text value
  rw [lone] at tokens
  rcases value with _ | ⟨encoded, value⟩
  · simp [tokenize] at tokens
  · cases encoded with
    | literal byte plain =>
        have head := (List.cons.inj tokens).1
        injection head with same
        simp [← same] at plain
    | plus => simp [tokenize, EncodedByte.token] at tokens
    | escape highDigit lowDigit high low highHex lowHex nonzero =>
        simp [tokenize, EncodedByte.token] at tokens

theorem decodeValue_text {value : List EncodedByte}
    (small : (value.flatMap EncodedByte.text).length < 2 ^ 64) :
    decodeValue phosg (value.flatMap EncodedByte.text) =
      .ok (decodedAll (value.flatMap EncodedByte.text) value) := by
  rw [decodeValue_eq small (text_ne_percent value), tokenize_text, List.zip_map_right,
    List.mapM_map]
  exact mapM_of_forall fun pair _ => decodeToken_token pair.1 pair.2

end Bytes

section Pluses

/-- How many plus signs a value contains. -/
abbrev pluses (value : Bytes) : ℕ :=
  value.count 0x2B

theorem pluses_byte_le (overwritten : UInt8) (encoded : EncodedByte) :
    pluses [encoded.byte] ≤ pluses [EncodedByte.decoded (overwritten, encoded)] := by
  cases encoded with
  | literal byte plain =>
      have other : byte ≠ 0x2B := by
        rintro rfl
        simp at plain
      simp [EncodedByte.byte, pluses, List.count_cons, other]
  | plus => simp [EncodedByte.byte, pluses, List.count_cons]
  | escape highDigit lowDigit high low highHex lowHex nonzero => rfl

theorem pluses_cons (char : UInt8) (value : Bytes) :
    pluses (char :: value) = pluses [char] + pluses value := by
  rw [← List.singleton_append]
  exact List.count_append

theorem length_le_text (value : List EncodedByte) :
    value.length ≤ (value.flatMap EncodedByte.text).length := by
  induction value with
  | nil => exact Nat.zero_le _
  | cons encoded value ih =>
      have one : 1 ≤ encoded.text.length := by
        cases encoded <;> simp [EncodedByte.text]
      rw [List.flatMap_cons, List.length_append, List.length_cons]
      omega

/-- No plus sign of a value is lost. -/
theorem pluses_map_le {value : List EncodedByte} {ahead : Bytes}
    (enough : value.length ≤ ahead.length) :
    pluses (value.map EncodedByte.byte) ≤ pluses (decodedAll ahead value) := by
  induction value generalizing ahead with
  | nil => exact Nat.zero_le _
  | cons encoded value ih =>
      rcases ahead with _ | ⟨overwritten, ahead⟩
      · simp at enough
      · rw [decodedAll_cons, List.map_cons, pluses_cons, pluses_cons (EncodedByte.decoded _)]
        have here := pluses_byte_le overwritten encoded
        have later := ih (Nat.le_of_succ_le_succ enough)
        omega

/-- Where no plus is overwritten and none is meant, the decoder is right. -/
theorem decodedAll_of_no_plus {value : List EncodedByte} {ahead : Bytes}
    (enough : value.length ≤ ahead.length) (free : 0x2B ∉ ahead)
    (none : ∀ encoded ∈ value, encoded.isPlus = false) :
    decodedAll ahead value = value.map EncodedByte.byte := by
  induction value generalizing ahead with
  | nil => rw [decodedAll, List.zip_nil_right, List.map_nil, List.map_nil]
  | cons encoded value ih =>
      rcases ahead with _ | ⟨overwritten, ahead⟩
      · simp at enough
      · rw [List.mem_cons, not_or] at free
        have here : EncodedByte.decoded (overwritten, encoded) = encoded.byte := by
          have notPlus := none encoded List.mem_cons_self
          cases encoded with
          | literal byte plain => exact if_neg (Ne.symm free.1)
          | plus => simp [EncodedByte.isPlus] at notPlus
          | escape highDigit lowDigit high low highHex lowHex nonzero => rfl
        have later := ih (Nat.le_of_succ_le_succ enough) free.2
          fun other mem => none other (List.mem_cons_of_mem _ mem)
        rw [decodedAll_cons, List.map_cons, here, later]

/-- Once the write offset has fallen behind, the next plus is missed: no plus stands at the write
offset. -/
theorem pluses_map_lt {value : List EncodedByte} {gap : Bytes} (behind : gap ≠ [])
    (free : 0x2B ∉ gap) (plus : ∃ encoded ∈ value, encoded.isPlus) :
    pluses (value.map EncodedByte.byte) <
      pluses (decodedAll (gap ++ value.flatMap EncodedByte.text) value) := by
  induction value generalizing gap with
  | nil => simp at plus
  | cons encoded value ih =>
      rcases gap with _ | ⟨overwritten, gap⟩
      · exact absurd rfl behind
      · rw [List.mem_cons, not_or] at free
        rw [List.cons_append, decodedAll_cons, List.map_cons, pluses_cons,
          pluses_cons (EncodedByte.decoded _)]
        have here := pluses_byte_le overwritten encoded
        cases isPlus : encoded.isPlus with
        | true =>
            have missed : pluses [encoded.byte] <
                pluses [EncodedByte.decoded (overwritten, encoded)] := by
              cases encoded with
              | literal byte plain => simp [EncodedByte.isPlus] at isPlus
              | plus =>
                  have other : overwritten ≠ 0x2B := Ne.symm free.1
                  simp [EncodedByte.decoded, EncodedByte.byte, other, pluses]
              | escape highDigit lowDigit high low highHex lowHex nonzero =>
                  simp [EncodedByte.isPlus] at isPlus
            have enough : value.length ≤
                (gap ++ (encoded :: value).flatMap EncodedByte.text).length := by
              have text := length_le_text (encoded :: value)
              rw [List.length_append]
              rw [List.length_cons] at text
              omega
            have later := pluses_map_le enough
            omega
        | false =>
            have textFree := encoded.text_free.2 isPlus
            have nonempty : gap ++ encoded.text ≠ [] := by
              cases encoded <;> simp [EncodedByte.text]
            have gapFree : 0x2B ∉ gap ++ encoded.text := by
              rw [List.mem_append, not_or]
              exact ⟨free.2, textFree⟩
            have remains : ∃ other ∈ value, other.isPlus := by
              rcases plus with ⟨other, mem, isOther⟩
              rcases List.mem_cons.mp mem with rfl | later
              · rw [isPlus] at isOther
                simp at isOther
              · exact ⟨other, later, isOther⟩
            have later := ih nonempty gapFree remains
            rw [List.append_assoc, ← List.flatMap_cons] at later
            omega

theorem text_free_of_no_plus {value : List EncodedByte}
    (none : ∀ encoded ∈ value, encoded.isPlus = false) :
    0x2B ∉ value.flatMap EncodedByte.text := by
  rw [List.mem_flatMap]
  rintro ⟨encoded, mem, inText⟩
  exact encoded.text_free.2 (none encoded mem) inText

/-- A byte that is written in place is decoded before the rest of the value. -/
theorem decodedAll_single {encoded : EncodedByte} (single : encoded.isEscape = false)
    (value : List EncodedByte) :
    decodedAll ((encoded :: value).flatMap EncodedByte.text) (encoded :: value) =
      encoded.byte :: decodedAll (value.flatMap EncodedByte.text) value := by
  cases encoded with
  | literal byte plain =>
      have other : byte ≠ 0x2B := by
        rintro rfl
        simp at plain
      exact congrArg (· :: _) (if_neg other)
  | plus => rfl
  | escape highDigit lowDigit high low highHex lowHex nonzero =>
      simp [EncodedByte.isEscape] at single

theorem plusesFirst_of_no_plus {value : List EncodedByte}
    (none : ∀ encoded ∈ value, encoded.isPlus = false) : PlusesFirst value := by
  apply List.pairwise_of_forall_mem_list
  intro earlier _ later mem _ isPlus
  rw [none later mem] at isPlus
  simp at isPlus

/-- Once the write offset has fallen behind, a value is decoded as it should be exactly if it has no
plus. -/
theorem decodedAll_behind_cases {gap : Bytes} (behind : gap ≠ []) (free : 0x2B ∉ gap)
    (value : List EncodedByte) :
    ((∀ encoded ∈ value, encoded.isPlus = false) ∧
        decodedAll (gap ++ value.flatMap EncodedByte.text) value = value.map EncodedByte.byte) ∨
      (∃ encoded ∈ value, encoded.isPlus = true) ∧ pluses (value.map EncodedByte.byte) <
        pluses (decodedAll (gap ++ value.flatMap EncodedByte.text) value) := by
  by_cases plus : ∃ encoded ∈ value, encoded.isPlus = true
  · exact Or.inr ⟨plus, pluses_map_lt behind free plus⟩
  · have none : ∀ encoded ∈ value, encoded.isPlus = false := by simpa using plus
    refine Or.inl ⟨none, decodedAll_of_no_plus ?_ ?_ none⟩
    · have enough := length_le_text value
      rw [List.length_append]
      omega
    · rw [List.mem_append, not_or]
      exact ⟨free, text_free_of_no_plus none⟩

/-- A value is decoded as it should be, or the result has too many plus signs. -/
theorem decodedAll_cases (value : List EncodedByte) :
    (PlusesFirst value ∧ decodedAll (value.flatMap EncodedByte.text) value =
        value.map EncodedByte.byte) ∨
      ¬PlusesFirst value ∧ pluses (value.map EncodedByte.byte) <
        pluses (decodedAll (value.flatMap EncodedByte.text) value) := by
  induction value with
  | nil => exact Or.inl ⟨List.Pairwise.nil, rfl⟩
  | cons encoded value ih =>
      rw [PlusesFirst, List.pairwise_cons, ← PlusesFirst, List.map_cons]
      cases escaped : encoded.isEscape with
      | false =>
          have unbound : ∀ later ∈ value, false = true → ¬later.isPlus = true := by simp
          rw [decodedAll_single escaped, pluses_cons, pluses_cons encoded.byte (decodedAll _ _)]
          rcases ih with ⟨first, same⟩ | ⟨other, more⟩
          · exact Or.inl ⟨⟨unbound, first⟩, congrArg _ same⟩
          · exact Or.inr ⟨fun both => other both.2, by omega⟩
      | true =>
          cases encoded with
          | literal byte plain => simp [EncodedByte.isEscape] at escaped
          | plus => simp [EncodedByte.isEscape] at escaped
          | escape highDigit lowDigit high low highHex lowHex nonzero =>
              have digits := (EncodedByte.escape highDigit lowDigit high low highHex lowHex
                nonzero).text_free.2 rfl
              simp only [EncodedByte.text, List.mem_cons, not_or] at digits
              have gapFree : 0x2B ∉ [highDigit, lowDigit] := by simpa using digits.2
              rw [List.flatMap_cons, EncodedByte.text, List.cons_append, decodedAll_cons]
              rcases decodedAll_behind_cases (by simp) gapFree value with
                ⟨none, same⟩ | ⟨⟨later, mem, isPlus⟩, missed⟩
              · refine Or.inl ⟨⟨?_, plusesFirst_of_no_plus none⟩, ?_⟩
                · intro later mem _
                  simp [none later mem]
                · rw [same]
                  rfl
              · refine Or.inr ⟨fun first => first.1 later mem rfl isPlus, ?_⟩
                rw [pluses_cons, pluses_cons (EncodedByte.decoded _), EncodedByte.byte,
                  EncodedByte.decoded]
                omega

end Pluses

section Queries

variable {phosg : Phosg}

theorem Param.amp_free_piece (param : Param) : 0x26 ∉ param.piece := by
  rw [Param.piece, List.mem_append, List.mem_cons, List.mem_flatMap]
  rintro (inKey | equals | ⟨encoded, _, inText⟩)
  · exact param.amp_free inKey
  · exact absurd equals (by decide)
  · exact encoded.text_free.1 inText

/-- Key and value of a parameter as they are parsed. -/
def Param.parsed (param : Param) : Bytes × Bytes :=
  (param.key, decodedAll (param.value.flatMap EncodedByte.text) param.value)

theorem valueOf_piece (param : Param) :
    valueOf param.piece = some (param.value.flatMap EncodedByte.text) ∧
      param.piece.take (param.piece.idxOf 0x3D) = param.key := by
  have there : (0x3D : UInt8) ∈ param.piece := by simp [Param.piece]
  have position : param.piece.idxOf 0x3D = param.key.length := by
    rw [Param.piece, List.idxOf_append_of_notMem param.equals_free, List.idxOf_cons_self,
      Nat.add_zero]
  rw [valueOf, if_pos there, position]
  refine ⟨?_, List.take_left⟩
  simp [Param.piece]

theorem parseParam_piece {param : Param} (small : param.piece.length < 2 ^ 64) :
    parseParam phosg param.piece = .ok param.parsed := by
  have found := valueOf_piece param
  have short := (length_valueOf_le found.1).trans_lt small
  rw [parseParam_of_some found.1, decodeValue_text short, ok_bind, found.2]
  rfl

theorem parseUrlParams_formQuery {params : List Param} {query : CString}
    (encoded : query.bytes = formQuery params) :
    parseUrlParams phosg (some query) = .ok (params.map Param.parsed : List (Bytes × Bytes)) := by
  rcases params with _ | ⟨param, params⟩
  · exact parseUrlParams_nil encoded
  · have pieces : query.bytes.splitOn 0x26 = (param :: params).map Param.piece := by
      rw [encoded, formQuery]
      apply List.splitOn_intercalate
      · rw [List.forall_mem_map]
        intro other _
        exact other.amp_free_piece
      · simp
    have nonempty : query.bytes ≠ [] := by
      intro empty
      rw [empty, List.splitOn_nil, List.map_cons] at pieces
      have head := (List.cons.inj pieces).1
      simp [Param.piece] at head
    have parsed : ((param :: params).map Param.piece).mapM (parseParam phosg) =
        .ok ((param :: params).map Param.parsed) := by
      rw [List.mapM_map]
      apply mapM_of_forall
      intro other mem
      apply parseParam_piece
      apply (length_le_of_mem_splitOn _).trans_lt query.length_lt
      · exact 0x26
      · rw [pieces]
        exact List.mem_map_of_mem mem
    rw [parseUrlParams_cons nonempty, pieces, parsed, ok_bind]
    rfl

/-- How many plus signs the values contain. -/
def totalPluses (params : Multiset (Bytes × Bytes)) : ℕ :=
  (params.map fun param => pluses param.2).sum

theorem totalPluses_map (params : List Param) (parse : Param → Bytes × Bytes) :
    totalPluses (params.map parse : List (Bytes × Bytes)) =
      (params.map fun param => pluses (parse param).2).sum := by
  rw [totalPluses, Multiset.map_coe, Multiset.sum_coe, List.map_map]
  rfl

/-- If the parsed values have as many plus signs as they should, every one is right. -/
theorem plusesFirst_of_totalPluses {params : List Param}
    (same : totalPluses (params.map Param.parsed : List (Bytes × Bytes)) =
      totalPluses (params.map Param.pair : List (Bytes × Bytes))) {param : Param}
    (mem : param ∈ params) : PlusesFirst param.value := by
  by_contra other
  have le : ∀ param ∈ params, pluses param.pair.2 ≤ pluses param.parsed.2 := by
    intro param _
    exact pluses_map_le (length_le_text param.value)
  have lt : ∃ param ∈ params, pluses param.pair.2 < pluses param.parsed.2 := by
    rcases decodedAll_cases param.value with ⟨first, _⟩ | ⟨_, more⟩
    · exact absurd first other
    · exact ⟨param, mem, more⟩
  have more := List.sum_lt_sum _ _ le lt
  rw [totalPluses_map, totalPluses_map] at same
  omega

/-- Parsing a query yields its parameters exactly if no plus stands behind an escape of the same
value. -/
theorem parseUrlParams_eq_iff (phosg : Phosg) {params : List Param} {query : CString}
    (encoded : query.bytes = formQuery params) :
    parseUrlParams phosg (some query) = .ok (params.map Param.pair : List (Bytes × Bytes)) ↔
      ∀ param ∈ params, PlusesFirst param.value := by
  rw [parseUrlParams_formQuery encoded, Except.ok.injEq]
  constructor
  · intro same param mem
    exact plusesFirst_of_totalPluses (congrArg totalPluses same) mem
  · intro first
    congr 1
    apply List.map_congr_left
    intro param mem
    rcases decodedAll_cases param.value with ⟨_, same⟩ | ⟨other, _⟩
    · rw [Param.parsed, same, Param.pair]
    · exact absurd (first param mem) other

theorem amp_free_key : (0x26 : UInt8) ∉ [0x6B] := by decide

theorem equals_free_key : (0x3D : UInt8) ∉ [0x6B] := by decide

theorem escapedA_ne_zero : (4 : UInt8) <<< 4 ||| 1 ≠ 0 := by decide

/-- The letter A as an escape. -/
def escapedA : EncodedByte :=
  .escape 0x34 0x31 4 1 rfl rfl escapedA_ne_zero

def keyed (value : List EncodedByte) : Param where
  key := [0x6B]
  amp_free := amp_free_key
  equals_free := equals_free_key
  value := value

theorem nul_free_plusFirst : (0 : UInt8) ∉ [0x6B, 0x3D, 0x2B, 0x25, 0x34, 0x31] := by decide

theorem nul_free_plusLast : (0 : UInt8) ∉ [0x6B, 0x3D, 0x25, 0x34, 0x31, 0x2B] := by decide

theorem six_lt : 6 < 2 ^ 64 := by decide

/-- `k=+%41` -/
def plusFirst : CString where
  bytes := [0x6B, 0x3D, 0x2B, 0x25, 0x34, 0x31]
  nul_free := nul_free_plusFirst
  length_lt := six_lt

/-- `k=%41+` -/
def plusLast : CString where
  bytes := [0x6B, 0x3D, 0x25, 0x34, 0x31, 0x2B]
  nul_free := nul_free_plusLast
  length_lt := six_lt

/-- A space in front of an escape. -/
theorem parseUrlParams_plusFirst : parseUrlParams Phosg.reference (some plusFirst) =
    .ok ([keyed [.plus, escapedA]].map Param.pair : List (Bytes × Bytes)) := by
  apply (parseUrlParams_eq_iff Phosg.reference rfl).mpr
  simp [PlusesFirst, keyed, escapedA, EncodedByte.isEscape, EncodedByte.isPlus]

/-- The value is "A ", but "A+" is returned. -/
theorem parseUrlParams_plusLast : plusLast.bytes = formQuery [keyed [escapedA, .plus]] ∧
    parseUrlParams Phosg.reference (some plusLast) ≠
      .ok ([keyed [escapedA, .plus]].map Param.pair : List (Bytes × Bytes)) := by
  refine ⟨rfl, ?_⟩
  rw [@parseUrlParams_formQuery _ [keyed [escapedA, .plus]] plusLast rfl, Ne, Except.ok.injEq]
  intro same
  have first := plusesFirst_of_totalPluses (congrArg totalPluses same) (List.mem_singleton.mpr rfl)
  simp [PlusesFirst, keyed, escapedA, EncodedByte.isEscape, EncodedByte.isPlus] at first

end Queries

end EventAsync.HTTP.Request
