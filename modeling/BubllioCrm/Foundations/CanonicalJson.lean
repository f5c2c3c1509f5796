import BubllioCrm.Foundations.Json

/-!
Owns `json.dumps` with compact separators and without ASCII escapes, and the
sorting of keys: sorting twice is sorting once, so a document that has been read
back is written as it was.
-/

namespace BubllioCrm.Foundations.Json

/-- A character of a text that is written with `ensure_ascii=False`. -/
def escapeControl (char : Char) : String :=
  if char = '"' then "\\\""
  else if char = '\\' then "\\\\"
  else if char = '\n' then "\\n"
  else if char = '\r' then "\\r"
  else if char = '\t' then "\\t"
  else if char.toNat = 8 then "\\b"
  else if char.toNat = 12 then "\\f"
  else if char.toNat < 32 then "\\u" ++ hexUnit char.toNat
  else String.singleton char

def quote (text : String) : String :=
  "\"" ++ String.join (text.toList.map escapeControl) ++ "\""

/-- Members or fields with commas in between. -/
def separated (texts : List String) : String :=
  ",".intercalate texts

/-- The order of fields by their keys. -/
def byKey (first second : String × Json) : Prop :=
  first.1 ≤ second.1

instance : DecidableRel byKey :=
  fun first second => inferInstanceAs (Decidable (first.1 ≤ second.1))

instance : Std.Total byKey :=
  ⟨fun first second => String.le_total first.1 second.1⟩

instance : IsTrans (String × Json) byKey :=
  ⟨fun _ _ _ => String.le_trans⟩

mutual

/-- `json.dumps(value, separators=(",", ":"), ensure_ascii=False)`. -/
def compact : Json → String
  | .null => "null"
  | .bool true => "true"
  | .bool false => "false"
  | .int number => toString number
  | .float literal => literal
  | .str text => quote text
  | .arr items => "[" ++ separated (compactItems items) ++ "]"
  | .obj fields => "\x7b" ++ separated (compactFields fields) ++ "\x7d"

def compactItems : List Json → List String
  | [] => []
  | item :: rest => compact item :: compactItems rest

def compactFields : List (String × Json) → List String
  | [] => []
  | (key, value) :: rest => (quote key ++ ":" ++ compact value) :: compactFields rest

end

mutual

/-- The value with the keys of every object in order. -/
def sortKeys : Json → Json
  | .null => .null
  | .bool value => .bool value
  | .int number => .int number
  | .float literal => .float literal
  | .str text => .str text
  | .arr items => .arr (sortItems items)
  | .obj fields => .obj ((sortFields fields).insertionSort byKey)

def sortItems : List Json → List Json
  | [] => []
  | item :: rest => sortKeys item :: sortItems rest

def sortFields : List (String × Json) → List (String × Json)
  | [] => []
  | (key, value) :: rest => (key, sortKeys value) :: sortFields rest

end

/-- `json.dumps(value, sort_keys=True, separators=(",", ":"), ensure_ascii=False)`. -/
def canonical (value : Json) : String :=
  compact (sortKeys value)

/-! ### Items and fields -/

theorem compactItems_eq_map (items : List Json) : compactItems items = items.map compact := by
  induction items with
  | nil => rfl
  | cons item rest inductionHypothesis =>
      rw [compactItems, List.map_cons, inductionHypothesis]

theorem compactFields_eq_map (fields : List (String × Json)) :
    compactFields fields = fields.map fun field => quote field.1 ++ ":" ++ compact field.2 := by
  induction fields with
  | nil => rfl
  | cons field rest inductionHypothesis =>
      rw [compactFields, List.map_cons, inductionHypothesis]

theorem sortItems_eq_map (items : List Json) : sortItems items = items.map sortKeys := by
  induction items with
  | nil => rfl
  | cons item rest inductionHypothesis =>
      rw [sortItems, List.map_cons, inductionHypothesis]

theorem sortFields_eq_map (fields : List (String × Json)) :
    sortFields fields = fields.map fun field => (field.1, sortKeys field.2) := by
  induction fields with
  | nil => rfl
  | cons field rest inductionHypothesis =>
      rw [sortFields, List.map_cons, inductionHypothesis]

theorem compact_str (text : String) : compact (.str text) = quote text := by
  rw [compact]

theorem compact_arr (items : List Json) :
    compact (.arr items) = "[" ++ separated (items.map compact) ++ "]" := by
  rw [compact, compactItems_eq_map]

theorem compact_obj (fields : List (String × Json)) :
    compact (.obj fields) =
      "\x7b" ++ separated (fields.map fun field => quote field.1 ++ ":" ++ compact field.2) ++
        "\x7d" := by
  rw [compact, compactFields_eq_map]

theorem sortKeys_arr (items : List Json) : sortKeys (.arr items) = .arr (items.map sortKeys) := by
  rw [sortKeys, sortItems_eq_map]

theorem separated_nil : separated [] = "" :=
  String.intercalate_nil

/-- What stands in front of one more text. -/
def leading (texts : List String) : String :=
  if texts = [] then "" else separated texts ++ ","

theorem leading_nil : leading [] = "" :=
  if_pos rfl

theorem leading_of_ne_nil {texts : List String} (more : texts ≠ []) :
    leading texts = separated texts ++ "," :=
  if_neg more

theorem separated_concat (texts : List String) (text : String) :
    separated (texts ++ [text]) = leading texts ++ text := by
  unfold leading
  split_ifs with isEmpty
  · rw [isEmpty, List.nil_append, separated, String.intercalate_singleton, String.empty_append]
  · unfold separated
    rw [String.intercalate_append_of_ne_nil isEmpty (List.cons_ne_nil _ _),
      String.intercalate_singleton]

/-! ### Sorting twice -/

theorem sortFields_insertionSort (fields : List (String × Json)) :
    sortFields (fields.insertionSort byKey) =
      (sortFields fields).insertionSort byKey := by
  rw [sortFields_eq_map, sortFields_eq_map]
  exact List.map_insertionSort _ _ _ _ fun _ _ _ _ => Iff.rfl

mutual

theorem sortKeys_sortKeys : (value : Json) → sortKeys (sortKeys value) = sortKeys value
  | .null => by simp only [sortKeys]
  | .bool _ => by simp only [sortKeys]
  | .int _ => by simp only [sortKeys]
  | .float _ => by simp only [sortKeys]
  | .str _ => by simp only [sortKeys]
  | .arr items => by rw [sortKeys, sortKeys, sortItems_sortItems items]
  | .obj fields => by
      rw [sortKeys, sortKeys, sortFields_insertionSort, sortFields_sortFields fields,
        (List.pairwise_insertionSort byKey (sortFields fields)).insertionSort_eq]

theorem sortItems_sortItems : (items : List Json) → sortItems (sortItems items) = sortItems items
  | [] => by simp only [sortItems]
  | item :: rest => by
      rw [sortItems, sortItems, sortKeys_sortKeys item, sortItems_sortItems rest]

theorem sortFields_sortFields :
    (fields : List (String × Json)) → sortFields (sortFields fields) = sortFields fields
  | [] => by simp only [sortFields]
  | (key, value) :: rest => by
      rw [sortFields, sortFields, sortKeys_sortKeys value, sortFields_sortFields rest]

end

/-- A list that has been read back from its canonical form is written the same. -/
theorem canonical_sortKeys (value : Json) : canonical (sortKeys value) = canonical value := by
  unfold canonical
  rw [sortKeys_sortKeys]

theorem canonical_str (text : String) : canonical (.str text) = quote text := by
  rw [canonical, sortKeys, compact_str]

theorem canonical_arr (items : List Json) :
    canonical (.arr items) = "[" ++ separated (items.map canonical) ++ "]" := by
  unfold canonical
  rw [sortKeys_arr, compact_arr, List.map_map]
  rfl

end BubllioCrm.Foundations.Json
