import BubllioCrm.Foundations.Digits
import Mathlib.Data.List.Sort

/-!
Owns decoded JSON values, the lookups of a `dict`, and `json.dumps` with sorted
keys, compact separators and ASCII escapes.

Text is made of Unicode scalar values. The keys of a decoded object are
distinct; a reader of a key that was repeated would find its first value.
-/

namespace BubllioCrm.Foundations

inductive Json where
  | null
  | bool (value : Bool)
  | int (value : Int)
  /-- A number with a fraction or an exponent, as it was written. -/
  | float (literal : String)
  | str (text : String)
  | arr (items : List Json)
  | obj (fields : List (String × Json))

namespace Json

/-- `dict.get`, where a missing key is `None`. -/
def get (key : String) (fields : List (String × Json)) : Json :=
  (fields.lookup key).getD .null

/-- `set(fields) == expected`. -/
def hasKeys (expected : List String) (fields : List (String × Json)) : Bool :=
  (fields.all fun field => field.1 ∈ expected) &&
    expected.all fun key => fields.any fun field => field.1 = key

/-- The value is a certain text. -/
def isText (expected : String) (value : Json) : Bool :=
  match value with
  | .str text => text = expected
  | _ => false

/-- A `dict` with a key set. -/
def set (key : String) (value : Json) (fields : List (String × Json)) : List (String × Json) :=
  (key, value) :: fields.filter fun field => field.1 ≠ key

/-! ### Text -/

/-- Four hexadecimal digits. -/
def hexUnit (unit : Nat) : String :=
  let digits := Nat.toDigits 16 unit
  String.ofList (List.replicate (4 - digits.length) '0' ++ digits)

/-- A character outside the basic plane is written as a surrogate pair. -/
def escapeChar (char : Char) : String :=
  if char = '"' then "\\\""
  else if char = '\\' then "\\\\"
  else if char = '\n' then "\\n"
  else if char = '\r' then "\\r"
  else if char = '\t' then "\\t"
  else if char.toNat = 8 then "\\b"
  else if char.toNat = 12 then "\\f"
  else if 32 ≤ char.toNat ∧ char.toNat ≤ 126 then String.singleton char
  else if char.toNat < 0x10000 then "\\u" ++ hexUnit char.toNat
  else
    let offset := char.toNat - 0x10000
    "\\u" ++ hexUnit (0xd800 + offset / 0x400) ++ "\\u" ++ hexUnit (0xdc00 + offset % 0x400)

def dumpsText (text : String) : String :=
  "\"" ++ String.join (text.toList.map escapeChar) ++ "\""

/-- `str` of an integer, which raises a `ValueError` where it has too many digits. -/
def dumpsInt (number : Int) : Option String :=
  if number.natAbs < 10 ^ maxStringDigits then some (toString number) else none

mutual

/-- `json.dumps(value, sort_keys=True, separators=(",", ":"))`. -/
def dumps : Json → Option String
  | .null => some "null"
  | .bool true => some "true"
  | .bool false => some "false"
  | .int number => dumpsInt number
  | .float literal => some literal
  | .str text => some (dumpsText text)
  | .arr items => (dumpsItems items).map fun texts => "[" ++ ",".intercalate texts ++ "]"
  | .obj fields => (dumpsFields fields).map fun texts =>
      "\x7b" ++ ",".intercalate ((texts.insertionSort fun first second => first.1 ≤ second.1).map
        fun field => dumpsText field.1 ++ ":" ++ field.2) ++ "\x7d"

def dumpsItems : List Json → Option (List String)
  | [] => some []
  | item :: rest => do
      let text ← dumps item
      let texts ← dumpsItems rest
      return text :: texts

def dumpsFields : List (String × Json) → Option (List (String × String))
  | [] => some []
  | (key, value) :: rest => do
      let text ← dumps value
      let texts ← dumpsFields rest
      return (key, text) :: texts

end

end Json

end BubllioCrm.Foundations
