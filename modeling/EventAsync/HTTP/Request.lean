import EventAsync.Buffer
import Mathlib.Data.Multiset.Basic

/-!
# The URL parameters of a request

`Request::parse_url_params` cuts the query at every ampersand and each piece at
its first equals sign, and decodes the value behind it.  The decoder rewrites
the value in place: it reads at one offset and writes at another, which falls
behind it by two with every escape.

A read of a character behind the end of a string, and of the first character of
a query that does not exist, has no meaning in C++; here it ends the
computation with `Stop.undefined`.
-/

namespace EventAsync.HTTP

open ByteCodec

/-- A string that ends with a NUL character. -/
structure CString where
  bytes : Bytes
  nul_free : 0 ∉ bytes
  length_lt : bytes.length < 2 ^ 64

/-- The value of a hexadecimal digit. -/
def hexValue (digit : UInt8) : Option UInt8 :=
  if 0x30 ≤ digit ∧ digit ≤ 0x39 then some (digit - 0x30)
  else if 0x41 ≤ digit ∧ digit ≤ 0x46 then some (digit - 0x37)
  else if 0x61 ≤ digit ∧ digit ≤ 0x66 then some (digit - 0x57)
  else none

/-- The functions of the phosg library that are called, with what is known about them. -/
structure Phosg where
  split : Bytes → UInt8 → List Bytes
  valueForHexChar : UInt8 → Except Exception UInt8
  split_eq : ∀ str delim, split str delim = str.splitOn delim
  valueForHexChar_digit : ∀ digit value, hexValue digit = some value →
    valueForHexChar digit = .ok value

/-- `value_for_hex_char` refuses every other character. -/
def valueForHexChar (digit : UInt8) : Except Exception UInt8 :=
  match hexValue digit with
  | some value => .ok value
  | none => .error (.outOfRange "invalid hex character")

theorem valueForHexChar_of_hexValue (digit value : UInt8) (hex : hexValue digit = some value) :
    valueForHexChar digit = .ok value := by
  rw [valueForHexChar, hex]

/-- A library of this kind. -/
def Phosg.reference : Phosg where
  split str delim := str.splitOn delim
  valueForHexChar := HTTP.valueForHexChar
  split_eq _ _ := rfl
  valueForHexChar_digit := valueForHexChar_of_hexValue

namespace Request

/-- `value[offset]` -/
def charAt (value : Bytes) (offset : ℕ) : Except Stop UInt8 :=
  match value[offset]? with
  | some char => .ok char
  | none => .error (.undefined "value[offset]")

/-- The digit at an offset. -/
def hexCharAt (phosg : Phosg) (value : Bytes) (offset : ℕ) : Except Stop UInt8 := do
  (phosg.valueForHexChar (← charAt value offset)).mapError .raised

/-- The loop over a value. -/
def decodeLoop (phosg : Phosg) (value : Bytes) (writeOffset readOffset : ℕ) :
    Except Stop Bytes :=
  if readOffset < value.length then do
    if (← charAt value readOffset) = 0x25 ∧ readOffset < sizeSub value.length 2 then
      let high ← hexCharAt phosg value (readOffset + 1)
      let low ← hexCharAt phosg value (readOffset + 2)
      decodeLoop phosg (value.set writeOffset (high <<< 4 ||| low)) (writeOffset + 1)
        (readOffset + 3)
    else if (← charAt value writeOffset) = 0x2B then
      decodeLoop phosg (value.set writeOffset 0x20) (writeOffset + 1) (readOffset + 1)
    else
      decodeLoop phosg (value.set writeOffset (← charAt value readOffset)) (writeOffset + 1)
        (readOffset + 1)
  else return value.take writeOffset
termination_by value.length - readOffset
decreasing_by all_goals simp only [List.length_set]; omega

def decodeValue (phosg : Phosg) (value : Bytes) : Except Stop Bytes :=
  decodeLoop phosg value 0 0

/-- The key and the value of a piece of the query. -/
def parseParam (phosg : Phosg) (it : Bytes) : Except Stop (Bytes × Bytes) :=
  if 0x3D ∈ it then do
    let firstEquals := it.idxOf 0x3D
    return (it.take firstEquals, ← decodeValue phosg (it.drop (firstEquals + 1)))
  else return (it, [])

/-- `parse_url_params`, given the query of the URI; the pairs of an `unordered_multimap` have no
order. -/
def parseUrlParams (phosg : Phosg) (query : Option CString) :
    Except Stop (Multiset (Bytes × Bytes)) :=
  match query with
  | none => .error (.undefined "*query")
  | some query =>
      if query.bytes = [] then return 0
      else return ((← (phosg.split query.bytes 0x26).mapM (parseParam phosg) :) : List _)

/-- The order in which an `unordered_multimap` is visited. -/
structure Iteration where
  visit : Multiset (Bytes × Bytes) → List (Bytes × Bytes)
  visit_eq : ∀ params, (visit params : Multiset (Bytes × Bytes)) = params

/-- No order is prescribed. -/
noncomputable def Iteration.any : Iteration where
  visit := Multiset.toList
  visit_eq := Multiset.coe_toList

/-- `emplace`: a key that is there keeps its value. -/
def emplace (ret : List (Bytes × Bytes)) (param : Bytes × Bytes) : List (Bytes × Bytes) :=
  if ret.any (fun other => other.1 = param.1) then ret else ret ++ [param]

def parseUrlParamsUnique (phosg : Phosg) (iteration : Iteration) (query : Option CString) :
    Except Stop (List (Bytes × Bytes)) := do
  return (iteration.visit (← parseUrlParams phosg query)).foldl emplace []

end Request

end EventAsync.HTTP
