import EventAsync.HTTP.Request
import Mathlib.Data.List.TakeWhile

/-!
# Decoding the values of URL parameters

A value is a sequence of escapes and single characters.  As the read offset
never falls behind the write offset, every character that the decoder reads is
one of the original value.  A plus is looked for at the write offset, though,
and the test for the end of the value is wrong for values of one character.
-/

namespace EventAsync.HTTP.Request

open ByteCodec

/-- An escape or a single character of a value. -/
inductive Token where
  | escape (high low : UInt8)
  | character (char : UInt8)
  deriving DecidableEq

/-- A percent sign with fewer than two characters behind it is a single character. -/
def tokenize : Bytes → List Token
  | char :: high :: low :: rest =>
      if char = 0x25 then .escape high low :: tokenize rest
      else .character char :: tokenize (high :: low :: rest)
  | char :: rest => .character char :: tokenize rest
  | [] => []

def hexChar (phosg : Phosg) (char : UInt8) : Except Stop UInt8 :=
  (phosg.valueForHexChar char).mapError .raised

/-- What is written for a token, given the character of the value at the write offset. -/
def decodeToken (phosg : Phosg) : UInt8 × Token → Except Stop UInt8
  | (_, .escape high low) => do
      let high ← hexChar phosg high
      let low ← hexChar phosg low
      return high <<< 4 ||| low
  | (overwritten, .character char) => return if overwritten = 0x2B then 0x20 else char

variable {phosg : Phosg} {value : Bytes}

@[simp]
theorem ok_bind {Value Other : Type} (value : Value) (next : Value → Except Stop Other) :
    Except.ok value >>= next = next value :=
  rfl

@[simp]
theorem error_bind {Value Other : Type} (stop : Stop) (next : Value → Except Stop Other) :
    Except.error stop >>= next = Except.error stop :=
  rfl

section DecodeLoop

variable {written ahead rest : Bytes} {drift : ℕ}

theorem charAt_ahead (suffix : ahead.drop drift = rest) {offset : ℕ} {char : UInt8}
    (there : rest[offset]? = some char) :
    charAt (written ++ ahead) (written.length + drift + offset) = .ok char := by
  have same : (written ++ ahead)[written.length + drift + offset]? = rest[offset]? := by
    rw [List.getElem?_append_right (by omega), ← suffix, List.getElem?_drop]
    congr 1
    omega
  rw [charAt, same, there]

theorem hexCharAt_ahead (suffix : ahead.drop drift = rest) {offset : ℕ} {char : UInt8}
    (there : rest[offset]? = some char) :
    hexCharAt phosg (written ++ ahead) (written.length + drift + offset) = hexChar phosg char := by
  rw [hexCharAt, charAt_ahead suffix there]
  rfl

theorem charAt_overwritten {first : UInt8} {later : Bytes} :
    charAt (written ++ first :: later) written.length = .ok first := by
  simp [charAt]

theorem set_written {first char : UInt8} {later : Bytes} :
    (written ++ first :: later).set written.length char = written ++ [char] ++ later := by
  simp

/-- Two characters are left behind a percent sign, unless the value is shorter than two. -/
theorem escape_guard_iff {length : ℕ} (small : length < 2 ^ 64) (two : 2 ≤ length) (offset : ℕ) :
    offset < sizeSub length 2 ↔ offset + 2 < length := by
  have difference : sizeSub length 2 = length - 2 := by
    rw [sizeSub]
    omega
  rw [difference]
  omega

theorem decodeLoop_done (suffix : ahead.drop drift = []) :
    decodeLoop phosg (written ++ ahead) written.length (written.length + drift) = .ok written := by
  have read : ¬written.length + drift < (written ++ ahead).length := by
    have all := List.drop_eq_nil_iff.mp suffix
    simp only [List.length_append]
    omega
  rw [decodeLoop, if_neg read, List.take_left]
  rfl

theorem decodeLoop_escape {high low first : UInt8} {later : Bytes}
    (suffix : (first :: later).drop drift = 0x25 :: high :: low :: rest)
    (small : (written ++ first :: later).length < 2 ^ 64) :
    decodeLoop phosg (written ++ first :: later) written.length (written.length + drift) = (do
      let char ← decodeToken phosg (first, .escape high low)
      decodeLoop phosg (written ++ [char] ++ later) (written ++ [char]).length
        ((written ++ [char]).length + (drift + 2))) := by
  have length := congrArg List.length suffix
  simp only [List.length_drop, List.length_cons] at length
  have unread : written.length + drift < (written ++ first :: later).length := by
    simp only [List.length_append, List.length_cons]
    omega
  have guard : written.length + drift < sizeSub (written ++ first :: later).length 2 := by
    rw [escape_guard_iff small] <;> simp only [List.length_append, List.length_cons] <;> omega
  have percent := @charAt_ahead written _ _ _ suffix 0 _ rfl
  have highChar := @hexCharAt_ahead phosg written _ _ _ suffix 1 _ rfl
  have lowChar := @hexCharAt_ahead phosg written _ _ _ suffix 2 _ rfl
  rw [Nat.add_zero] at percent
  rw [decodeLoop, if_pos unread, percent]
  rw [ok_bind, if_pos ⟨rfl, guard⟩, highChar, lowChar, decodeToken]
  cases hexChar phosg high with
  | error stop => rfl
  | ok high =>
      cases hexChar phosg low with
      | error stop => rfl
      | ok low =>
          rw [ok_bind, ok_bind, set_written]
          have offset : (written ++ [high <<< 4 ||| low]).length = written.length + 1 := by
            rw [List.length_append, List.length_singleton]
          have next : written.length + drift + 3 = written.length + 1 + (drift + 2) := by omega
          rw [next, ← offset]
          rfl

theorem decodeLoop_character {char first : UInt8} {later : Bytes}
    (suffix : (first :: later).drop drift = char :: rest)
    (small : (written ++ first :: later).length < 2 ^ 64)
    (single : char ≠ 0x25 ∨ rest.length < 2 ∧ 2 ≤ (written ++ first :: later).length) :
    decodeLoop phosg (written ++ first :: later) written.length (written.length + drift) = (do
      let char ← decodeToken phosg (first, .character char)
      decodeLoop phosg (written ++ [char] ++ later) (written ++ [char]).length
        ((written ++ [char]).length + drift)) := by
  have length := congrArg List.length suffix
  simp only [List.length_drop, List.length_cons] at length
  have unread : written.length + drift < (written ++ first :: later).length := by
    simp only [List.length_append, List.length_cons]
    omega
  have guard : ¬(char = 0x25 ∧
      written.length + drift < sizeSub (written ++ first :: later).length 2) := by
    rintro ⟨percent, within⟩
    rcases single with other | ⟨short, two⟩
    · exact other percent
    · rw [escape_guard_iff small two, List.length_append, List.length_cons] at within
      omega
  have current := @charAt_ahead written _ _ _ suffix 0 _ rfl
  rw [Nat.add_zero] at current
  have offset : ∀ char : UInt8, (written ++ [char]).length = written.length + 1 := by
    intro char
    rw [List.length_append, List.length_singleton]
  have next : written.length + drift + 1 = written.length + 1 + drift := by omega
  rw [decodeLoop, if_pos unread, current, ok_bind, if_neg guard, charAt_overwritten, ok_bind,
    ok_bind, decodeToken]
  by_cases plus : first = 0x2B
  · rw [if_pos plus, if_pos plus, set_written, next, ← offset 0x20]
    rfl
  · rw [if_neg plus, if_neg plus, set_written, next, ← offset char]
    rfl

/-- One more token is decoded. -/
theorem decodeLoop_token {first : UInt8} {later : Bytes} {token : Token} {tokens : List Token}
    (ends : ∀ char, decodeLoop phosg (written ++ [char] ++ later) (written ++ [char]).length
      ((written ++ [char]).length + drift) =
        (written ++ [char] ++ ·) <$> (later.zip tokens).mapM (decodeToken phosg)) :
    (do
      let char ← decodeToken phosg (first, token)
      decodeLoop phosg (written ++ [char] ++ later) (written ++ [char]).length
        ((written ++ [char]).length + drift)) =
      (written ++ ·) <$> ((first :: later).zip (token :: tokens)).mapM (decodeToken phosg) := by
  rw [List.zip_cons_cons, List.mapM_cons]
  cases decodeToken phosg (first, token) with
  | error stop => rfl
  | ok char =>
      rw [ok_bind, ok_bind, ends]
      cases (later.zip tokens).mapM (decodeToken phosg) with
      | error stop => rfl
      | ok chars =>
          rw [ok_bind]
          simp [Functor.map, Except.map, pure, Except.pure]

theorem drop_of_drop_cons {char first : UInt8} {later : Bytes}
    (suffix : (first :: later).drop drift = char :: rest) : later.drop drift = rest := by
  have behind := congrArg (List.drop 1) suffix
  rw [List.drop_drop, List.drop_succ_cons] at behind
  exact behind

theorem length_shifted {first char : UInt8} {later : Bytes} :
    (written ++ [char] ++ later).length = (written ++ first :: later).length := by
  simp only [List.length_append, List.length_cons, List.length_nil]
  omega

/-- The loop has written the front of the value, and has read as much and some more. -/
theorem decodeLoop_eq (rest written ahead : Bytes) (drift : ℕ)
    (suffix : ahead.drop drift = rest) (small : (written ++ ahead).length < 2 ^ 64)
    (lone : (written ++ ahead).length = 1 → rest ≠ [0x25]) :
    decodeLoop phosg (written ++ ahead) written.length (written.length + drift) =
      (written ++ ·) <$> (ahead.zip (tokenize rest)).mapM (decodeToken phosg) := by
  induction rest using tokenize.induct generalizing written ahead drift with
  | case1 high low rest ih =>
      rcases ahead with _ | ⟨first, later⟩
      · simp at suffix
      · have length := congrArg List.length suffix
        simp only [List.length_drop, List.length_cons] at length
        have behind := congrArg (List.drop 2) (drop_of_drop_cons suffix)
        rw [List.drop_drop] at behind
        rw [decodeLoop_escape suffix small, tokenize, if_pos rfl]
        apply decodeLoop_token
        intro char
        apply ih (written ++ [char]) later (drift + 2) behind
        · rwa [@length_shifted written first char later]
        · simp only [List.length_append, List.length_cons]
          omega
  | case2 char high low rest other ih =>
      rcases ahead with _ | ⟨first, later⟩
      · simp at suffix
      · have length := congrArg List.length suffix
        simp only [List.length_drop, List.length_cons] at length
        rw [decodeLoop_character suffix small (Or.inl other), tokenize, if_neg other]
        apply decodeLoop_token
        intro char
        apply ih (written ++ [char]) later drift (drop_of_drop_cons suffix)
        · rwa [@length_shifted written first char later]
        · simp
  | case3 char rest short ih =>
      rcases ahead with _ | ⟨first, later⟩
      · simp at suffix
      · have length := congrArg List.length suffix
        simp only [List.length_drop, List.length_cons] at length
        have few : rest.length < 2 := by
          rcases rest with _ | ⟨high, _ | ⟨low, rest⟩⟩
          · simp
          · simp
          · exact absurd rfl (short high low rest)
        have single : char ≠ 0x25 ∨ rest.length < 2 ∧ 2 ≤ (written ++ first :: later).length := by
          by_cases percent : char = 0x25
          · refine Or.inr ⟨few, ?_⟩
            by_contra one
            rw [List.length_append, List.length_cons] at one
            apply lone
            · rw [List.length_append, List.length_cons]
              omega
            · rw [percent, List.length_eq_zero_iff.mp (show rest.length = 0 by omega)]
          · exact Or.inl percent
        have tokens : tokenize (char :: rest) = .character char :: tokenize rest := by
          rcases rest with _ | ⟨high, _ | ⟨low, rest⟩⟩
          · rfl
          · rfl
          · exact absurd rfl (short high low rest)
        rw [decodeLoop_character suffix small single, tokens]
        apply decodeLoop_token
        intro next
        apply ih (written ++ [next]) later drift (drop_of_drop_cons suffix)
        · rwa [@length_shifted written first next later]
        · intro one
          rw [@length_shifted written first next later, List.length_append, List.length_cons] at one
          rw [List.length_eq_zero_iff.mp (show rest.length = 0 by omega)]
          simp
  | case4 =>
      rw [decodeLoop_done suffix]
      simp [tokenize, Functor.map, Except.map, pure, Except.pure]

end DecodeLoop

/-- Every value but one is decoded token by token. -/
theorem decodeValue_eq (small : value.length < 2 ^ 64) (other : value ≠ [0x25]) :
    decodeValue phosg value = (value.zip (tokenize value)).mapM (decodeToken phosg) := by
  have decoded := @decodeLoop_eq phosg value [] value 0 rfl small fun _ => other
  rw [decodeValue]
  refine decoded.trans ?_
  cases (value.zip (tokenize value)).mapM (decodeToken phosg) with
  | error stop => rfl
  | ok chars => rfl

/-- Two characters are read behind the end of the other one. -/
theorem decodeValue_percent :
    decodeValue phosg [0x25] = .error (.undefined "value[offset]") := by
  have unread : 0 < ([0x25] : Bytes).length := Nat.one_pos
  have guard : 0 < sizeSub ([0x25] : Bytes).length 2 := by decide
  have current : charAt [0x25] 0 = .ok 0x25 := rfl
  have behind : hexCharAt phosg [0x25] (0 + 1) = .error (.undefined "value[offset]") := rfl
  rw [decodeValue, decodeLoop, if_pos unread, current, ok_bind, if_pos ⟨rfl, guard⟩, behind]
  rfl

section Outcomes

/-- `value_for_hex_char` returns for both digits of an escape. -/
def Token.accepted (phosg : Phosg) : Token → Bool
  | .escape high low => (phosg.valueForHexChar high).isOk && (phosg.valueForHexChar low).isOk
  | .character _ => true

/-- The decoder raises nothing on the escapes of a value. -/
def accepts (phosg : Phosg) (value : Bytes) : Bool :=
  (tokenize value).all (Token.accepted phosg)

theorem length_tokenize_le (value : Bytes) : (tokenize value).length ≤ value.length := by
  induction value using tokenize.induct with
  | case1 high low rest ih =>
      rw [tokenize, if_pos rfl]
      simp only [List.length_cons]
      omega
  | case2 char high low rest other ih =>
      rw [tokenize, if_neg other]
      simpa using ih
  | case3 char rest short ih =>
      rw [tokenize]
      · simpa using ih
      · exact short
  | case4 => simp [tokenize]

theorem decodeToken_cases (overwritten : UInt8) (token : Token) :
    (token.accepted phosg = true ∧ ∃ char, decodeToken phosg (overwritten, token) = .ok char) ∨
      token.accepted phosg = false ∧
        ∃ exception, decodeToken phosg (overwritten, token) = .error (.raised exception) := by
  cases token with
  | character char => exact Or.inl ⟨rfl, _, rfl⟩
  | escape high low =>
      simp only [Token.accepted, decodeToken, hexChar]
      cases phosg.valueForHexChar high with
      | error exception => exact Or.inr ⟨rfl, exception, rfl⟩
      | ok high =>
          cases phosg.valueForHexChar low with
          | error exception => exact Or.inr ⟨rfl, exception, rfl⟩
          | ok low => exact Or.inl ⟨rfl, _, rfl⟩

theorem decodeTokens_cases (tokens : List (UInt8 × Token)) :
    ((∀ token ∈ tokens, token.2.accepted phosg = true) ∧
        ∃ chars, tokens.mapM (decodeToken phosg) = .ok chars) ∨
      (¬∀ token ∈ tokens, token.2.accepted phosg = true) ∧
        ∃ exception, tokens.mapM (decodeToken phosg) = .error (.raised exception) := by
  induction tokens with
  | nil => exact Or.inl ⟨by simp, [], rfl⟩
  | cons token tokens ih =>
      rw [List.mapM_cons, List.forall_mem_cons]
      rcases @decodeToken_cases phosg token.1 token.2 with
        ⟨accepted, char, decoded⟩ | ⟨rejected, exception, raised⟩
      · rw [decoded, ok_bind]
        rcases ih with ⟨all, chars, rest⟩ | ⟨other, exception, rest⟩
        · rw [rest]
          exact Or.inl ⟨⟨accepted, all⟩, char :: chars, rfl⟩
        · rw [rest]
          exact Or.inr ⟨fun both => other both.2, exception, rfl⟩
      · rw [raised]
        exact Or.inr ⟨by simp [rejected], exception, rfl⟩

/-- A value is decoded, raises an exception of `value_for_hex_char` or is read behind its end. -/
theorem decodeValue_cases (small : value.length < 2 ^ 64) (other : value ≠ [0x25]) :
    (accepts phosg value = true ∧ ∃ decoded, decodeValue phosg value = .ok decoded) ∨
      accepts phosg value = false ∧
        ∃ exception, decodeValue phosg value = .error (.raised exception) := by
  have tokens : accepts phosg value = true ↔
      ∀ token ∈ value.zip (tokenize value), token.2.accepted phosg = true := by
    rw [accepts, List.all_eq_true, ← List.map_snd_zip (length_tokenize_le value),
      List.forall_mem_map]
    rw [List.map_snd_zip (length_tokenize_le value)]
  rw [decodeValue_eq small other, ← Bool.not_eq_true, tokens]
  exact decodeTokens_cases _

end Outcomes

section Parsing

/-- The value in a piece of the query. -/
def valueOf (it : Bytes) : Option Bytes :=
  if 0x3D ∈ it then some (it.drop (it.idxOf 0x3D + 1)) else none

/-- The values that are decoded, one after the other. -/
def values (query : CString) : List Bytes :=
  (query.bytes.splitOn 0x26).filterMap valueOf

theorem parseParam_of_none {it : Bytes} (none : valueOf it = none) :
    parseParam phosg it = .ok (it, []) := by
  rw [valueOf] at none
  split at none
  · simp at none
  · rename_i missing
    rw [parseParam, if_neg missing]
    rfl

theorem parseParam_of_some {it : Bytes} (some : valueOf it = some value) :
    parseParam phosg it = (do return (it.take (it.idxOf 0x3D), ← decodeValue phosg value)) := by
  rw [valueOf] at some
  split at some
  · rename_i there
    cases some
    rw [parseParam, if_pos there]
  · simp at some

theorem length_valueOf_le {it : Bytes} (some : valueOf it = some value) :
    value.length ≤ it.length := by
  rw [valueOf] at some
  split at some
  · cases some
    simp
  · simp at some

theorem length_le_of_mem_splitOn {str it : Bytes} {delim : UInt8} (mem : it ∈ str.splitOn delim) :
    it.length ≤ str.length := by
  induction str generalizing it with
  | nil => simpa using mem
  | cons char str ih =>
      rw [List.splitOn_cons_eq_if_modifyHead] at mem
      split at mem
      · rcases List.mem_cons.mp mem with rfl | later
        · exact Nat.zero_le _
        · exact (ih later).trans (Nat.le_succ _)
      · rcases pieces : str.splitOn delim with _ | ⟨first, pieces⟩
        · exact absurd pieces (List.splitOn_ne_nil delim str)
        · rw [pieces] at mem ih
          rcases List.mem_cons.mp mem with rfl | later
          · exact Nat.succ_le_succ (ih List.mem_cons_self)
          · exact (ih (List.mem_cons_of_mem _ later)).trans (Nat.le_succ _)

/-- How parsing ends, given the values in their order: all of them are decoded, one of them is
rejected with an exception, or one that is a lone percent sign is reached. -/
inductive Ends {Result : Type} (phosg : Phosg) (values : List Bytes) :
    Except Stop Result → Prop where
  | parsed (result : Result) (notReached : [0x25] ∉ values.takeWhile (accepts phosg))
      (accepted : ∀ value ∈ values, accepts phosg value = true) : Ends phosg values (.ok result)
  | raised (exception : Exception) (notReached : [0x25] ∉ values.takeWhile (accepts phosg))
      (rejected : ¬∀ value ∈ values, accepts phosg value = true) :
      Ends phosg values (.error (.raised exception))
  | undefined (operation : String) (reached : [0x25] ∈ values.takeWhile (accepts phosg)) :
      Ends phosg values (.error (.undefined operation))

namespace Ends

variable {Result Other : Type} {values : List Bytes} {result : Except Stop Result}

theorem map (ends : Ends phosg values result) (output : Result → Other) :
    Ends phosg values (do return output (← result)) := by
  cases ends with
  | parsed result notReached accepted => exact parsed (output result) notReached accepted
  | raised exception notReached rejected => exact raised exception notReached rejected
  | undefined operation reached => exact undefined operation reached

/-- A value in front that is decoded changes nothing. -/
theorem cons (accepted : accepts phosg value = true) (other : value ≠ [0x25])
    (ends : Ends phosg values result) : Ends phosg (value :: values) result := by
  have reached_iff : [0x25] ∈ (value :: values).takeWhile (accepts phosg) ↔
      [0x25] ∈ values.takeWhile (accepts phosg) := by
    rw [List.takeWhile_cons_of_pos accepted, List.mem_cons]
    exact or_iff_right other.symm
  have accepted_iff : (∀ each ∈ value :: values, accepts phosg each = true) ↔
      ∀ each ∈ values, accepts phosg each = true := by
    rw [List.forall_mem_cons]
    exact and_iff_right accepted
  cases ends with
  | parsed result notReached all =>
      exact parsed result (reached_iff.not.mpr notReached) (accepted_iff.mpr all)
  | raised exception notReached rejected =>
      exact raised exception (reached_iff.not.mpr notReached) (accepted_iff.not.mpr rejected)
  | undefined operation reached => exact undefined operation (reached_iff.mpr reached)

theorem of_rejected (rejected : accepts phosg value = false) (exception : Exception) :
    Ends phosg (value :: values) (.error (.raised exception) : Except Stop Result) := by
  apply raised
  · rw [List.takeWhile_cons_of_neg (by simp [rejected])]
    simp
  · simp [rejected]

theorem of_percent (operation : String) :
    Ends phosg ([0x25] :: values) (.error (.undefined operation) : Except Stop Result) := by
  apply undefined
  rw [List.takeWhile_cons_of_pos rfl]
  exact List.mem_cons_self

end Ends

theorem parseParams_ends (pieces : List Bytes) (small : ∀ it ∈ pieces, it.length < 2 ^ 64) :
    Ends phosg (pieces.filterMap valueOf) (pieces.mapM (parseParam phosg)) := by
  induction pieces with
  | nil => exact .parsed [] (by simp) (by simp)
  | cons it pieces ih =>
      have later := ih fun other mem => small other (List.mem_cons_of_mem _ mem)
      rw [List.mapM_cons]
      cases found : valueOf it with
      | none =>
          rw [parseParam_of_none found, ok_bind, List.filterMap_cons_none found]
          exact later.map ((it, []) :: ·)
      | some value =>
          have short : value.length < 2 ^ 64 :=
            (length_valueOf_le found).trans_lt (small it List.mem_cons_self)
          rw [parseParam_of_some found, List.filterMap_cons_some found]
          by_cases lone : value = [0x25]
          · subst lone
            rw [decodeValue_percent]
            exact .of_percent _
          · rcases @decodeValue_cases phosg value short lone with
              ⟨accepted, decoded, done⟩ | ⟨rejected, exception, raised⟩
            · rw [done]
              exact (later.map ((_, decoded) :: ·)).cons accepted lone
            · rw [raised]
              exact .of_rejected rejected exception

theorem parseUrlParams_nil {query : CString} (empty : query.bytes = []) :
    parseUrlParams phosg (some query) = .ok 0 := by
  rw [parseUrlParams, if_pos empty]
  rfl

theorem parseUrlParams_cons {query : CString} (nonempty : query.bytes ≠ []) :
    parseUrlParams phosg (some query) =
      (do return ((← (query.bytes.splitOn 0x26).mapM (parseParam phosg) :) : List _)) := by
  rw [parseUrlParams, if_neg nonempty, phosg.split_eq]

theorem values_nil {query : CString} (empty : query.bytes = []) : values query = [] := by
  rw [values, empty, List.splitOn_nil]
  rfl

theorem mapM_getElem {Value Other : Type} {next : Value → Except Stop Other}
    {inputs : List Value} {outputs : List Other} (mapped : inputs.mapM next = .ok outputs) {i : ℕ}
    {input : Value} (there : inputs[i]? = some input) :
    ∃ output, next input = .ok output ∧ outputs[i]? = some output := by
  induction inputs generalizing outputs i with
  | nil => simp at there
  | cons first inputs ih =>
      rw [List.mapM_cons] at mapped
      cases head : next first with
      | error stop =>
          rw [head, error_bind] at mapped
          simp at mapped
      | ok output =>
          rw [head, ok_bind] at mapped
          cases tail : inputs.mapM next with
          | error stop =>
              rw [tail, error_bind] at mapped
              simp at mapped
          | ok later =>
              rw [tail, ok_bind] at mapped
              cases mapped
              cases i with
              | zero =>
                  cases there
                  exact ⟨output, head, rfl⟩
              | succ i => exact ih tail there

/-- A percent sign that does not start an escape stays one. -/
def KeepsPercents (value decoded : Bytes) : Prop :=
  ∀ i : ℕ, (tokenize value)[i]? = some (.character 0x25) → decoded[i]? = some 0x25

/-- The decoder is not misled by a plus where it writes a percent sign. -/
def PercentsUntouched (value : Bytes) : Prop :=
  ∀ i : ℕ, (tokenize value)[i]? = some (.character 0x25) → value[i]? ≠ some 0x2B

theorem keepsPercents_iff (small : value.length < 2 ^ 64) (other : value ≠ [0x25]) {decoded : Bytes}
    (done : decodeValue phosg value = .ok decoded) :
    KeepsPercents value decoded ↔ PercentsUntouched value := by
  rw [decodeValue_eq small other] at done
  refine forall_congr' ?_
  intro i
  apply imp_congr_right
  intro percent
  have within : i < value.length := by
    have inTokens := (List.getElem?_eq_some_iff.mp percent).1
    exact inTokens.trans_le (length_tokenize_le value)
  have pair : (value.zip (tokenize value))[i]? = some (value[i], .character 0x25) :=
    List.getElem?_zip_eq_some.mpr ⟨List.getElem?_eq_getElem within, percent⟩
  rcases mapM_getElem done pair with ⟨char, written, there⟩
  rw [there, List.getElem?_eq_getElem within]
  by_cases plus : value[i] = 0x2B
  · have space : char = 0x20 := by
      simpa [decodeToken, plus, pure, Except.pure, eq_comm] using written
    simp [space, plus]
  · have same : char = 0x25 := by
      simpa [decodeToken, plus, pure, Except.pure, eq_comm] using written
    simp [same, plus]

/-- Parsing the parameters of a request reads only what is there, and loses no percent sign. -/
structure ParsesSafely (phosg : Phosg) (iteration : Iteration) (query : Option CString) : Prop where
  defined : ∀ operation, parseUrlParams phosg query ≠ .error (.undefined operation)
  uniqueDefined : ∀ operation,
    parseUrlParamsUnique phosg iteration query ≠ .error (.undefined operation)
  absent : query = none →
    parseUrlParams phosg query = .ok 0 ∧ parseUrlParamsUnique phosg iteration query = .ok []
  literal : ∀ text params, query = some text → parseUrlParams phosg query = .ok params →
    ∀ value ∈ values text, ∀ decoded, decodeValue phosg value = .ok decoded →
      KeepsPercents value decoded

theorem parseUrlParams_ends (phosg : Phosg) (text : CString) :
    Ends phosg (values text) (parseUrlParams phosg (some text)) := by
  by_cases empty : text.bytes = []
  · rw [parseUrlParams_nil empty, values_nil empty]
    exact .parsed 0 (by simp) (by simp)
  · rw [parseUrlParams_cons empty]
    have small : ∀ it ∈ text.bytes.splitOn 0x26, it.length < 2 ^ 64 := by
      intro it mem
      exact (length_le_of_mem_splitOn mem).trans_lt text.length_lt
    exact (parseParams_ends _ small).map fun params => (params : Multiset (Bytes × Bytes))

theorem parseUrlParamsUnique_eq_undefined {iteration : Iteration} {query : Option CString}
    {operation : String} :
    parseUrlParamsUnique phosg iteration query = .error (.undefined operation) ↔
      parseUrlParams phosg query = .error (.undefined operation) := by
  rw [parseUrlParamsUnique]
  cases parseUrlParams phosg query with
  | ok params => simp [pure, Except.pure]
  | error stop => simp

/-- The lengths of the values of a query fit a `size_t`. -/
theorem length_lt_of_mem_values {text : CString} (mem : value ∈ values text) :
    value.length < 2 ^ 64 := by
  rcases List.mem_filterMap.mp mem with ⟨it, inPieces, found⟩
  calc
    value.length ≤ it.length := length_valueOf_le found
    _ ≤ text.bytes.length := length_le_of_mem_splitOn inPieces
    _ < 2 ^ 64 := text.length_lt

/-- Parsing is safe exactly if there is a query, no value that is reached is a lone percent sign
and, unless an exception is raised, no value has a plus where a percent sign is written. -/
theorem parsesSafely_iff (phosg : Phosg) (iteration : Iteration) (query : Option CString) :
    ParsesSafely phosg iteration query ↔
      ∃ text, query = some text ∧ [0x25] ∉ (values text).takeWhile (accepts phosg) ∧
        ((∀ value ∈ values text, accepts phosg value = true) →
          ∀ value ∈ values text, PercentsUntouched value) := by
  cases query with
  | none =>
      refine iff_of_false ?_ (by simp)
      intro safely
      exact safely.defined _ rfl
  | some text =>
      have ends := parseUrlParams_ends phosg text
      generalize outcome : parseUrlParams phosg (some text) = result at ends
      cases ends with
      | parsed params notReached accepted =>
          have others : ∀ value ∈ values text, value ≠ [0x25] := by
            rw [List.takeWhile_eq_self_iff.mpr accepted] at notReached
            rintro value mem rfl
            exact notReached mem
          constructor
          · intro safely
            refine ⟨text, rfl, notReached, ?_⟩
            intro _ value mem
            have small := length_lt_of_mem_values mem
            rcases @decodeValue_cases phosg value small (others value mem) with
              ⟨_, decoded, done⟩ | ⟨rejected, _⟩
            · exact (keepsPercents_iff small (others value mem) done).mp
                (safely.literal text params rfl outcome value mem decoded done)
            · rw [accepted value mem] at rejected
              simp at rejected
          · rintro ⟨_, ⟨⟩, _, untouched⟩
            refine ⟨?_, ?_, nofun, ?_⟩
            · intro operation
              rw [outcome]
              simp
            · intro operation
              rw [Ne, parseUrlParamsUnique_eq_undefined, outcome]
              simp
            · rintro _ _ ⟨⟩ _ value mem decoded done
              exact (keepsPercents_iff (length_lt_of_mem_values mem) (others value mem) done).mpr
                (untouched accepted value mem)
      | raised exception notReached rejected =>
          refine iff_of_true ?_ ⟨text, rfl, notReached, fun accepted => absurd accepted rejected⟩
          refine ⟨?_, ?_, nofun, ?_⟩
          · intro operation
            rw [outcome]
            simp
          · intro operation
            rw [Ne, parseUrlParamsUnique_eq_undefined, outcome]
            simp
          · rintro _ params ⟨⟩ parsed
            rw [outcome] at parsed
            simp at parsed
      | undefined operation reached =>
          refine iff_of_false ?_ ?_
          · intro safely
            exact safely.defined operation outcome
          · rintro ⟨_, ⟨⟩, notReached, _⟩
            exact notReached reached

/-- A request whose URI has no query. -/
theorem not_parsesSafely_noQuery : ¬ParsesSafely Phosg.reference Iteration.any none := by
  intro safely
  exact safely.defined _ rfl

end Parsing

end EventAsync.HTTP.Request
