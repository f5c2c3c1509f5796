import BubllioCrm.Foundations.CodePoints
import BubllioCrm.Foundations.Digits
import BubllioCrm.Foundations.Json
import Mathlib.Data.List.Lex
import Mathlib.Order.Fin.Basic

/-!
Owns decoded JSON whose texts may hold surrogates, and `json.dumps` of it with
sorted keys, compact separators and no ASCII escapes: what is written holds a
surrogate exactly when a text of the document does.
-/

namespace BubllioCrm.Foundations

/-- An integer that `int` and `str` convert. -/
abbrev ShortInt := { number : Int // number.natAbs < 10 ^ maxStringDigits }

inductive Document where
  | null
  | bool (value : Bool)
  | int (number : ShortInt)
  /-- A number with a fraction or an exponent, as it is shown. -/
  | float (shown : String)
  | str (text : Text)
  | arr (items : List Document)
  | obj (fields : List (Text × Document))

/-- The fields of a decoded object. -/
abbrev Fields := List (Text × Document)

/-- What the interpreter allows: the nesting of what is read and of what is
written, and how the float that a text denotes is shown. -/
structure Interpreter where
  readDepth : Nat
  writeDepth : Nat
  floatRepr : Text → String

/-- A `dict` with a key set: a key that is there keeps its place. -/
def setField (key : Text) (value : Document) : List (Text × Document) → List (Text × Document)
  | [] => [(key, value)]
  | field :: rest =>
      if field.1 = key then (key, value) :: rest else field :: setField key value rest

namespace Document

/-! ### Reading -/

/-- `dict.get`, where a missing key is `None`. -/
def get (key : String) (fields : Fields) : Document :=
  (fields.lookup (ofString key)).getD .null

/-- `set(fields) == expected`. -/
def hasKeys (expected : List String) (fields : Fields) : Bool :=
  (fields.all fun field => field.1 ∈ expected.map ofString) &&
    expected.all fun key => fields.any fun field => field.1 = ofString key

/-- The value is a certain text. -/
def isText (expected : String) : Document → Bool
  | .str text => text = ofString expected
  | _ => false

/-- The text that a value is, if a pattern of plain characters matches it. -/
def matchedText (pattern : String → Bool) : Document → Option String
  | .str text =>
      if !text.any isSurrogate && pattern (toText text) then some (toText text) else none
  | _ => none

mutual

/-- What is read back of a value that was written, where `none` stands for an
integer that cannot be. -/
def ofJson : Json → Option Document
  | .null => some .null
  | .bool value => some (.bool value)
  | .int number =>
      if short : number.natAbs < 10 ^ maxStringDigits then some (.int ⟨number, short⟩) else none
  | .float literal => some (.float literal)
  | .str text => some (.str (ofString text))
  | .arr items => (itemsOfJson items).map .arr
  | .obj fields => (fieldsOfJson fields).map .obj

def itemsOfJson : List Json → Option (List Document)
  | [] => some []
  | item :: rest => do
      let document ← ofJson item
      let documents ← itemsOfJson rest
      return document :: documents

def fieldsOfJson : List (String × Json) → Option Fields
  | [] => some []
  | (key, value) :: rest => do
      let document ← ofJson value
      let fields ← fieldsOfJson rest
      return (ofString key, document) :: fields

end

/-- A field that was written is read back under its name. -/
theorem lookup_fieldsOfJson {written : List (String × Json)} {fields : Fields}
    (isRead : fieldsOfJson written = some fields) (key : String) :
    fields.lookup (ofString key) = (written.lookup key).bind ofJson := by
  induction written generalizing fields with
  | nil =>
      rw [← Option.some.inj isRead]
      rfl
  | cons field rest inductionHypothesis =>
      obtain ⟨name, value⟩ := field
      simp only [fieldsOfJson, Option.bind_eq_bind, Option.bind_eq_some_iff] at isRead
      obtain ⟨document, isDocument, others, areOthers, isFields⟩ := isRead
      rw [← Option.some.inj isFields]
      by_cases isKey : key = name
      · rw [isKey, List.lookup_cons_self, List.lookup_cons_self, Option.bind_some, isDocument]
      · have otherText : (ofString key == ofString name) = false :=
          beq_false_of_ne fun same => isKey (ofString_injective same)
        rw [List.lookup_cons, otherText, List.lookup_cons, beq_false_of_ne isKey]
        exact inductionHypothesis areOthers

/-! ### Depth and surrogates -/

mutual

/-- The arrays and objects that are open at once. -/
def depth : Document → Nat
  | .null => 0
  | .bool _ => 0
  | .int _ => 0
  | .float _ => 0
  | .str _ => 0
  | .arr items => itemsDepth items + 1
  | .obj fields => fieldsDepth fields + 1

def itemsDepth : List Document → Nat
  | [] => 0
  | item :: rest => max (depth item) (itemsDepth rest)

def fieldsDepth : List (Text × Document) → Nat
  | [] => 0
  | (_, value) :: rest => max (depth value) (fieldsDepth rest)

end

mutual

/-- A key or a text has a surrogate that stands alone. -/
def hasSurrogate : Document → Bool
  | .null => false
  | .bool _ => false
  | .int _ => false
  | .float _ => false
  | .str text => text.any isSurrogate
  | .arr items => itemsHaveSurrogate items
  | .obj fields => fieldsHaveSurrogate fields

def itemsHaveSurrogate : List Document → Bool
  | [] => false
  | item :: rest => hasSurrogate item || itemsHaveSurrogate rest

def fieldsHaveSurrogate : List (Text × Document) → Bool
  | [] => false
  | (key, value) :: rest =>
      (key.any isSurrogate || hasSurrogate value) || fieldsHaveSurrogate rest

end

/-! ### Writing -/

def escapePoint (point : CodePoint) : Text :=
  if point = ofChar '"' then ofString "\\\""
  else if point = ofChar '\\' then ofString "\\\\"
  else if point = ofChar '\n' then ofString "\\n"
  else if point = ofChar '\r' then ofString "\\r"
  else if point = ofChar '\t' then ofString "\\t"
  else if point.val = 8 then ofString "\\b"
  else if point.val = 12 then ofString "\\f"
  else if point.val < 32 then ofString ("\\u" ++ Json.hexUnit point.val)
  else [point]

def quote (text : Text) : Text :=
  ofString "\"" ++ text.flatMap escapePoint ++ ofString "\""

/-- Items or fields with commas in between. -/
def separated : List Text → Text
  | [] => []
  | [text] => text
  | text :: rest => text ++ ofString "," ++ separated rest

/-- A field whose value has been written. -/
def writeField (field : Text × Text) : Text :=
  quote field.1 ++ ofString ":" ++ field.2

mutual

/-- `json.dumps(document, sort_keys=True, separators=(",", ":"), ensure_ascii=False)`. -/
def write : Document → Text
  | .null => ofString "null"
  | .bool true => ofString "true"
  | .bool false => ofString "false"
  | .int number => ofString (toString number.val)
  | .float shown => ofString shown
  | .str text => quote text
  | .arr items => ofString "[" ++ separated (writeItems items) ++ ofString "]"
  | .obj fields =>
      ofString "\x7b" ++ separated (((writeFields fields).insertionSort fun first second =>
        first.1 ≤ second.1).map writeField) ++ ofString "\x7d"

def writeItems : List Document → List Text
  | [] => []
  | item :: rest => write item :: writeItems rest

def writeFields : List (Text × Document) → List (Text × Text)
  | [] => []
  | (key, value) :: rest => (key, write value) :: writeFields rest

end

/-- Writing, where `none` is a `RecursionError`. -/
def dumps (interpreter : Interpreter) (document : Document) : Option Text :=
  if interpreter.writeDepth < document.depth then none else some document.write

/-! ### Surrogates in what is written -/

theorem escapePoint_surrogate (point : CodePoint) :
    (escapePoint point).any isSurrogate = isSurrogate point := by
  have small (bound : point.val < 0xd800) : isSurrogate point = false := by
    simp only [isSurrogate, Bool.and_eq_false_iff, decide_eq_false_iff_not]
    omega
  have named {char : Char} (isChar : point = ofChar char) : isSurrogate point = false :=
    isChar ▸ ofChar_not_surrogate char
  unfold escapePoint
  split_ifs with quoted backslash newline carriage tab backspace feed control
  · rw [ofString_no_surrogate, named quoted]
  · rw [ofString_no_surrogate, named backslash]
  · rw [ofString_no_surrogate, named newline]
  · rw [ofString_no_surrogate, named carriage]
  · rw [ofString_no_surrogate, named tab]
  · rw [ofString_no_surrogate, small (by omega)]
  · rw [ofString_no_surrogate, small (by omega)]
  · rw [ofString_no_surrogate, small (by omega)]
  · rw [List.any_cons, List.any_nil, Bool.or_false]

theorem quote_surrogate (text : Text) : (quote text).any isSurrogate = text.any isSurrogate := by
  have escaped : (text.flatMap escapePoint).any isSurrogate = text.any isSurrogate := by
    induction text with
    | nil => rfl
    | cons point rest inductionHypothesis =>
        rw [List.flatMap_cons, List.any_append, escapePoint_surrogate, inductionHypothesis,
          List.any_cons]
  rw [quote, List.any_append, List.any_append, ofString_no_surrogate, escaped, Bool.or_false,
    Bool.false_or]

theorem separated_surrogate (texts : List Text) :
    (separated texts).any isSurrogate = texts.any (·.any isSurrogate) := by
  induction texts with
  | nil => rfl
  | cons text rest inductionHypothesis =>
      cases rest with
      | nil => rw [separated, List.any_cons, List.any_nil, Bool.or_false]
      | cons next others =>
          rw [separated.eq_3 _ _ (List.cons_ne_nil _ _), List.any_append, List.any_append,
            ofString_no_surrogate, Bool.or_false, inductionHypothesis, List.any_cons, List.any_cons,
            List.any_cons]

theorem writeField_surrogate (field : Text × Text) :
    (writeField field).any isSurrogate = (field.1.any isSurrogate || field.2.any isSurrogate) := by
  rw [writeField, List.any_append, List.any_append, quote_surrogate, ofString_no_surrogate,
    Bool.or_false]

mutual

theorem write_surrogate : (document : Document) →
    document.write.any isSurrogate = document.hasSurrogate
  | .null => by rw [write, ofString_no_surrogate, hasSurrogate]
  | .bool true => by rw [write, ofString_no_surrogate, hasSurrogate]
  | .bool false => by rw [write, ofString_no_surrogate, hasSurrogate]
  | .int _ => by rw [write, ofString_no_surrogate, hasSurrogate]
  | .float _ => by rw [write, ofString_no_surrogate, hasSurrogate]
  | .str text => by rw [write, quote_surrogate, hasSurrogate]
  | .arr items => by
      rw [write, List.any_append, List.any_append, ofString_no_surrogate, ofString_no_surrogate,
        Bool.false_or, Bool.or_false, separated_surrogate, writeItems_surrogate items, hasSurrogate]
  | .obj fields => by
      rw [write, List.any_append, List.any_append, ofString_no_surrogate, ofString_no_surrogate,
        Bool.false_or, Bool.or_false, separated_surrogate, List.any_map, hasSurrogate,
        ← writeFields_surrogate fields, (List.perm_insertionSort _ (writeFields fields)).any_eq]
      exact congrArg _ (funext writeField_surrogate)

theorem writeItems_surrogate : (items : List Document) →
    (writeItems items).any (·.any isSurrogate) = itemsHaveSurrogate items
  | [] => by rw [writeItems, itemsHaveSurrogate, List.any_nil]
  | item :: rest => by
      rw [writeItems, List.any_cons, write_surrogate item, writeItems_surrogate rest,
        itemsHaveSurrogate]

theorem writeFields_surrogate : (fields : List (Text × Document)) →
    (writeFields fields).any (fun field => field.1.any isSurrogate || field.2.any isSurrogate) =
      fieldsHaveSurrogate fields
  | [] => by rw [writeFields, fieldsHaveSurrogate, List.any_nil]
  | (key, value) :: rest => by
      rw [writeFields, List.any_cons, write_surrogate value, writeFields_surrogate rest,
        fieldsHaveSurrogate]

end

/-! ### The start of an object -/

/-- An object starts with a brace and a quote, or with two braces. -/
theorem startsPlain_write_obj (fields : List (Text × Document)) :
    StartsPlain (write (.obj fields)) := by
  have second : ∃ second rest, separated (((writeFields fields).insertionSort fun first second =>
      first.1 ≤ second.1).map writeField) ++ ofString "\x7d" = second :: rest ∧
        0 < second.val ∧ second.val < 0x80 := by
    cases (writeFields fields).insertionSort fun first second => first.1 ≤ second.1 with
    | nil => exact ⟨ofChar '\x7d', [], rfl, by decide, by decide⟩
    | cons field others =>
        cases others with
        | nil => exact ⟨ofChar '"', _, rfl, by decide, by decide⟩
        | cons next others => exact ⟨ofChar '"', _, rfl, by decide, by decide⟩
  obtain ⟨next, rest, isRest, nextPlain⟩ := second
  rw [write, List.append_assoc, isRest]
  exact ⟨ofChar '\x7b', next, rest, rfl, by decide, nextPlain⟩

end Document

end BubllioCrm.Foundations
