import BubllioCrm.Foundations.JsonRoundTrip

/-!
Owns texts that are written with ASCII escapes: a character outside the basic
plane is two units, and what the reader makes of the pieces is the text. Owns
objects of such texts in the default form of `json.dumps`, and that they are
read back from their bytes.
-/

namespace BubllioCrm.Foundations

/-! ### Pieces -/

/-- The pieces become the text, whatever stands behind them. -/
def Makes (pieces : List Piece) (text : Text) : Prop :=
  ∀ behind, joinPieces (pieces ++ behind) = text ++ joinPieces behind

theorem makes_nil : Makes [] [] :=
  fun _ => rfl

theorem Makes.append {pieces others : List Piece} {text back : Text} (makes : Makes pieces text)
    (makesOthers : Makes others back) : Makes (pieces ++ others) (text ++ back) := by
  intro behind
  rw [List.append_assoc, makes, makesOthers, List.append_assoc]

theorem Makes.joined {pieces : List Piece} {text : Text} (makes : Makes pieces text) :
    joinPieces pieces = text := by
  have alone := makes []
  rw [List.append_nil, joinPieces, List.append_nil] at alone
  exact alone

theorem makes_plain (point : CodePoint) : Makes [.plain point] [point] :=
  fun _ => rfl

/-- A unit that starts no pair is a code point. -/
theorem makes_unit {point : CodePoint} (single : isSurrogate point = false) :
    Makes [.unit point.val] [point] := by
  intro behind
  have isPoint : Fin.ofNat _ point.val = point := Fin.ofNat_val_eq_self point
  have notHigh : ¬ (0xd800 ≤ point.val ∧ point.val < 0xdc00) := by
    simp only [isSurrogate, Bool.and_eq_false_iff, decide_eq_false_iff_not] at single
    omega
  have point_cons : [point] ++ joinPieces behind = point :: joinPieces behind := rfl
  rw [List.singleton_append, point_cons]
  cases behind with
  | nil => rw [joinPieces.eq_4 _ _ (by simp), isPoint]
  | cons next rest =>
      cases next with
      | plain other => rw [joinPieces.eq_4 _ _ (by simp), isPoint]
      | unit low => rw [joinPieces, if_neg (by tauto), isPoint]

/-- The two units of a character outside the basic plane. -/
theorem makes_pair {point : CodePoint} (outside : 0x10000 ≤ point.val) :
    Makes [.unit (0xd800 + (point.val - 0x10000) / 0x400),
      .unit (0xdc00 + (point.val - 0x10000) % 0x400)] [point] := by
  intro behind
  have bound : point.val < 0x110000 := point.isLt
  have number : 0x10000 + (0xd800 + (point.val - 0x10000) / 0x400 - 0xd800) * 0x400 +
      (0xdc00 + (point.val - 0x10000) % 0x400 - 0xdc00) = point.val := by
    omega
  have isPoint : Fin.ofNat _ point.val = point := Fin.ofNat_val_eq_self point
  rw [List.cons_append, List.singleton_append, List.singleton_append, joinPieces,
    if_pos (by omega), number, isPoint]

/-! ### Hexadecimal units -/

theorem toDigits_sixteen {number : Nat} (large : 16 ≤ number) :
    Nat.toDigits 16 number = Nat.toDigits 16 (number / 16) ++ [(number % 16).digitChar] :=
  Nat.toDigits_of_base_le (by decide) large

/-- A unit is written with four digits, zeros in front. -/
theorem toList_hexUnit {number : Nat} (small : number < 0x10000) :
    (Json.hexUnit number).toList = [(number / 4096).digitChar, (number / 256 % 16).digitChar,
      (number / 16 % 16).digitChar, (number % 16).digitChar] := by
  have quotients : number / 16 / 16 = number / 256 ∧ number / 16 / 16 / 16 = number / 4096 := by
    omega
  unfold Json.hexUnit
  rw [String.toList_ofList]
  by_cases one : number < 16
  · have digits := Nat.toDigits_of_lt_base one
    have high : number / 4096 = 0 ∧ number / 256 % 16 = 0 ∧ number / 16 % 16 = 0 ∧
        number % 16 = number := by omega
    rw [digits, high.1, high.2.1, high.2.2.1, high.2.2.2]
    rfl
  · rw [toDigits_sixteen (not_lt.mp one)]
    by_cases two : number / 16 < 16
    · have high : number / 4096 = 0 ∧ number / 256 % 16 = 0 ∧
          number / 16 % 16 = number / 16 := by omega
      rw [Nat.toDigits_of_lt_base two, high.1, high.2.1, high.2.2]
      rfl
    · rw [toDigits_sixteen (not_lt.mp two)]
      by_cases three : number / 16 / 16 < 16
      · have high : number / 4096 = 0 ∧ number / 256 % 16 = number / 16 / 16 := by omega
        rw [Nat.toDigits_of_lt_base three, high.1, high.2]
        rfl
      · have last : number / 16 / 16 / 16 < 16 := by omega
        rw [toDigits_sixteen (not_lt.mp three), Nat.toDigits_of_lt_base last, quotients.2,
          quotients.1]
        rfl

theorem ofString_append (first second : String) :
    ofString (first ++ second) = ofString first ++ ofString second := by
  rw [ofString, String.toList_append, List.map_append]
  rfl

namespace JsonReader

theorem hexDigit_digitChar : ∀ digit < 16, hexDigit (ofChar digit.digitChar) = some digit := by
  decide

section

variable (interpreter : Interpreter) (stack : List Frame)
  (keyOf : Option (List (Text × Document))) (pieces : List Piece)

/-- The reader goes on behind a text where it stands then. -/
theorem run_behind {interpreter : Interpreter} {state next : State} {front back : Text}
    (ran : run interpreter state front = .ok next) :
    run interpreter state (front ++ back) = run interpreter next back := by
  rw [run_append, ran]
  rfl

/-- A unit is read back from its escape. -/
theorem run_hexUnit {number : Nat} (small : number < 0x10000) :
    run interpreter { stack, phase := .string keyOf pieces .none }
        (ofString ("\\u" ++ Json.hexUnit number)) =
      .ok { stack, phase := .string keyOf (pieces ++ [.unit number]) .none } := by
  have digits : [number / 4096, number / 256 % 16, number / 16 % 16, number % 16].foldl
      (fun code digit => 16 * code + digit) 0 = number := by
    simp only [List.foldl_cons, List.foldl_nil]
    omega
  have last : step interpreter
      { stack, phase := .string keyOf pieces
          (.unicode [number / 4096, number / 256 % 16, number / 16 % 16]) }
      (ofChar (number % 16).digitChar) =
      .ok { stack, phase := .string keyOf (pieces ++ [.unit number]) .none } := by
    unfold step stringStep
    dsimp only
    rw [hexDigit_digitChar _ (by omega)]
    dsimp only
    rw [if_neg (show ¬ List.length [_, _, _] < 3 by simp)]
    dsimp only [List.cons_append, List.nil_append]
    rw [digits]
  have opened : run interpreter { stack, phase := .string keyOf pieces .none } (ofString "\\u") =
      .ok { stack, phase := .string keyOf pieces (.unicode []) } := rfl
  have split : ofString ("\\u" ++ Json.hexUnit number) = ofString "\\u" ++
      [ofChar (number / 4096).digitChar, ofChar (number / 256 % 16).digitChar,
        ofChar (number / 16 % 16).digitChar, ofChar (number % 16).digitChar] := by
    rw [ofString, String.toList_append, List.map_append, toList_hexUnit small]
    rfl
  rw [split, run_behind opened,
    run_of_step (step_hex keyOf pieces (hexDigit_digitChar _ (by omega)) (by simp)),
    run_of_step (step_hex keyOf pieces (hexDigit_digitChar _ (by omega)) (by simp)),
    run_of_step (step_hex keyOf pieces (hexDigit_digitChar _ (by omega)) (by simp))]
  exact run_of_step last

theorem run_hexUnits {high low : Nat} (smallHigh : high < 0x10000) (smallLow : low < 0x10000) :
    run interpreter { stack, phase := .string keyOf pieces .none }
        (ofString ("\\u" ++ Json.hexUnit high ++ "\\u" ++ Json.hexUnit low)) =
      .ok { stack, phase := .string keyOf (pieces ++ [.unit high, .unit low]) .none } := by
  rw [String.append_assoc, ofString_append,
    run_behind (run_hexUnit interpreter stack keyOf pieces smallHigh),
    run_hexUnit interpreter stack keyOf _ smallLow, List.append_assoc, List.singleton_append]

/-- A character is read back from its escape. -/
theorem run_escapeChar (char : Char) : ∃ made, Makes made [ofChar char] ∧
    run interpreter { stack, phase := .string keyOf pieces .none }
        (ofString (Json.escapeChar char)) =
      .ok { stack, phase := .string keyOf (pieces ++ made) .none } := by
  have single := ofChar_not_surrogate char
  have isNat : (ofChar char).val = char.toNat := rfl
  have bound : char.toNat < 0x110000 := (ofChar char).isLt
  by_cases quoted : char = '"'
  · exact ⟨_, makes_plain _, quoted ▸ rfl⟩
  by_cases backslash : char = '\\'
  · exact ⟨_, makes_plain _, backslash ▸ rfl⟩
  by_cases newline : char = '\n'
  · exact ⟨_, makes_plain _, newline ▸ rfl⟩
  by_cases carriage : char = '\r'
  · exact ⟨_, makes_plain _, carriage ▸ rfl⟩
  by_cases tab : char = '\t'
  · exact ⟨_, makes_plain _, tab ▸ rfl⟩
  by_cases backspace : char.toNat = 8
  · have isChar : char = '\x08' := Char.toNat_inj.mp backspace
    exact ⟨_, makes_plain _, isChar ▸ rfl⟩
  by_cases feed : char.toNat = 12
  · have isChar : char = '\x0c' := Char.toNat_inj.mp feed
    exact ⟨_, makes_plain _, isChar ▸ rfl⟩
  rw [Json.escapeChar, if_neg quoted, if_neg backslash, if_neg newline, if_neg carriage,
    if_neg tab, if_neg backspace, if_neg feed]
  by_cases visible : 32 ≤ char.toNat ∧ char.toNat ≤ 126
  · rw [if_pos visible]
    refine ⟨_, makes_plain (ofChar char), ?_⟩
    have isText : ofString (String.singleton char) = [ofChar char] := by
      rw [ofString, String.toList_singleton]
      rfl
    rw [isText]
    apply run_of_step
    unfold step stringStep
    dsimp only
    rw [if_neg fun same => quoted (ofChar_injective same),
      if_neg fun same => backslash (ofChar_injective same), if_neg (by rw [isNat]; omega)]
  rw [if_neg visible]
  by_cases basic : char.toNat < 0x10000
  · have makes := makes_unit single
    rw [isNat] at makes
    rw [if_pos basic]
    exact ⟨_, makes, run_hexUnit interpreter stack keyOf pieces basic⟩
  · have makes := makes_pair (show 0x10000 ≤ (ofChar char).val by rw [isNat]; omega)
    rw [isNat] at makes
    rw [if_neg basic]
    exact ⟨_, makes, run_hexUnits interpreter stack keyOf pieces (by omega) (by omega)⟩

/-- What is read of the escapes of characters. -/
theorem run_escapedChars (chars : List Char) : ∃ made, Makes made (chars.map ofChar) ∧
    run interpreter { stack, phase := .string keyOf pieces .none }
        (ofString (String.join (chars.map Json.escapeChar))) =
      .ok { stack, phase := .string keyOf (pieces ++ made) .none } := by
  induction chars generalizing pieces with
  | nil => exact ⟨[], makes_nil, by rw [List.append_nil]; rfl⟩
  | cons char rest inductionHypothesis =>
      have ⟨first, makesFirst, ranFirst⟩ := run_escapeChar interpreter stack keyOf pieces char
      have ⟨others, makesOthers, ranOthers⟩ := inductionHypothesis (pieces ++ first)
      refine ⟨first ++ others, makesFirst.append makesOthers, ?_⟩
      rw [List.map_cons, String.join_cons, ofString_append, run_behind ranFirst, ranOthers,
        List.append_assoc]

/-- A text is read back behind the quote that opens it. -/
theorem run_dumpsText (text : String) {state : State}
    (opens : step interpreter state (ofChar '"') =
      .ok { stack, phase := .string keyOf [] .none }) :
    run interpreter state (ofString (Json.dumpsText text)) =
      .ok (closeString stack keyOf (ofString text)) := by
  have ⟨made, makes, ran⟩ := run_escapedChars interpreter stack keyOf [] text.toList
  have closed : step interpreter { stack, phase := .string keyOf made .none } (ofChar '"') =
      .ok (closeString stack keyOf (joinPieces made)) := rfl
  rw [makes.joined] at closed
  have opened : run interpreter state (ofString "\"") =
      .ok { stack, phase := .string keyOf [] .none } := run_of_step opens
  rw [Json.dumpsText, ofString_append, ofString_append, List.append_assoc, run_behind opened,
    run_behind ran]
  exact run_of_step closed

theorem ofString_dumpsText (text : String) :
    ∃ behind, ofString (Json.dumpsText text) = ofChar '"' :: behind := by
  rw [Json.dumpsText, ofString_append, ofString_append, List.append_assoc]
  exact ⟨_, rfl⟩

end

/-! ### Objects of texts -/

section

variable {interpreter : Interpreter} {stack : List Frame}

/-- Fields in the order they were set, with the separators of `json.dumps`. -/
def spaced : List Text → Text
  | [] => []
  | [text] => text
  | text :: rest => text ++ ofString ", " ++ spaced rest

def spacedField (field : String × String) : Text :=
  ofString (Json.dumpsText field.1) ++ ofString ": " ++ ofString (Json.dumpsText field.2)

/-- `json.dumps` of a `dict` of texts. -/
def dumpsTexts (fields : List (String × String)) : Text :=
  ofString "\x7b" ++ spaced (fields.map spacedField) ++ ofString "\x7d"

def textFields (fields : List (String × String)) : List (Text × Document) :=
  fields.map fun field => (ofString field.1, .str (ofString field.2))

theorem run_spacedField (field : String × String) {phase : Phase} {done : List (Text × Document)}
    (opens : step interpreter { stack, phase } (ofChar '"') =
      .ok { stack, phase := .string (some done) [] .none })
    (fresh : ofString field.1 ∉ done.map Prod.fst) :
    run interpreter { stack, phase } (spacedField field) =
      .ok { stack, phase := .memberEnd (done ++ textFields [field]) } := by
  have key := run_dumpsText interpreter stack (some done) field.1 opens
  have colon : run interpreter { stack, phase := .colon done (ofString field.1) }
      (ofString ": ") =
        .ok { stack := .object done (ofString field.1) :: stack, phase := .value } := rfl
  have value : run interpreter
      { stack := .object done (ofString field.1) :: stack, phase := .value } _ = _ :=
    run_dumpsText interpreter _ none field.2 rfl
  rw [spacedField, List.append_assoc, run_behind key]
  show run interpreter { stack, phase := .colon done (ofString field.1) } _ = _
  rw [run_behind colon, value]
  show Except.ok { stack, phase := Phase.memberEnd (setField _ _ done) : State } = _
  rw [setField_of_not_mem fresh]
  rfl

/-- Fields with distinct keys are read up to the brace behind them. -/
theorem run_spaced (fields : List (String × String)) {phase : Phase}
    {done : List (Text × Document)} (nonempty : fields ≠ [])
    (opens : step interpreter { stack, phase } (ofChar '"') =
      .ok { stack, phase := .string (some done) [] .none })
    (distinct : (done.map Prod.fst ++ fields.map fun field => ofString field.1).Nodup) :
    run interpreter { stack, phase } (spaced (fields.map spacedField) ++ ofString "\x7d") =
      .ok (complete stack (.obj (done ++ textFields fields))) := by
  induction fields generalizing done phase with
  | nil => exact absurd rfl nonempty
  | cons field rest inductionHypothesis =>
      have fresh : ofString field.1 ∉ done.map Prod.fst := fun member =>
        (List.nodup_append.mp distinct).2.2 _ member _ List.mem_cons_self rfl
      have ran := run_spacedField field opens fresh
      cases rest with
      | nil =>
          rw [List.map_cons, List.map_nil, spaced, run_behind ran]
          rfl
      | cons next others =>
          have separator : run interpreter
              { stack, phase := .memberEnd (done ++ textFields [field]) } (ofString ", ") =
                .ok { stack, phase := .key (done ++ textFields [field]) } := rfl
          have distinctRest : ((done ++ textFields [field]).map Prod.fst ++
              (next :: others).map fun field => ofString field.1).Nodup := by
            rwa [List.map_append, List.append_assoc]
          have ranRest := inductionHypothesis (List.cons_ne_nil next others)
            (show step interpreter { stack, phase := .key (done ++ textFields [field]) }
              (ofChar '"') = _ from rfl) distinctRest
          rw [List.map_cons, spaced.eq_3 _ _ (by simp), List.append_assoc, List.append_assoc,
            run_behind ran, run_behind separator, ranRest, List.append_assoc]
          rfl

/-- An object of texts is read back from what is written. -/
theorem read_dumpsTexts {fields : List (String × String)} (room : 0 < interpreter.readDepth)
    (distinct : (fields.map Prod.fst).Nodup) :
    read interpreter (dumpsTexts fields) = .ok (.obj (textFields fields)) := by
  have opened : run interpreter start (ofString "\x7b") =
      .ok { stack := [], phase := .objectStart } := by
    apply run_of_step
    show enter interpreter [] .objectStart = _
    exact if_pos room
  have keys : ((([] : List (Text × Document)).map Prod.fst) ++
      fields.map fun field => ofString field.1).Nodup := by
    have injective : Function.Injective ofString := fun first second same =>
      String.toList_injective (List.map_injective_iff.mpr ofChar_injective same)
    have mapped := distinct.map injective
    rw [List.map_map] at mapped
    exact mapped
  rw [read, dumpsTexts, List.append_assoc, run_behind opened]
  cases fields with
  | nil => rfl
  | cons field rest =>
      rw [run_spaced (field :: rest) (List.cons_ne_nil field rest) rfl keys]
      rfl

theorem startsPlain_dumpsTexts (fields : List (String × String)) :
    StartsPlain (dumpsTexts fields) := by
  cases fields with
  | nil => exact ⟨ofChar '\x7b', ofChar '\x7d', [], rfl, by decide, by decide⟩
  | cons field rest =>
      have ⟨behind, isKey⟩ := ofString_dumpsText field.1
      rw [dumpsTexts, List.map_cons]
      cases rest with
      | nil =>
          rw [List.map_nil, spaced, spacedField, isKey]
          exact ⟨ofChar '\x7b', ofChar '"', _, rfl, by decide, by decide⟩
      | cons next others =>
          rw [spaced.eq_3 _ _ (by simp), spacedField, isKey]
          exact ⟨ofChar '\x7b', ofChar '"', _, rfl, by decide, by decide⟩

/-- The bytes of an object of texts are loaded as that object. -/
theorem loads_dumpsTexts {fields : List (String × String)} (room : 0 < interpreter.readDepth)
    (distinct : (fields.map Prod.fst).Nodup) :
    loads interpreter ((dumpsTexts fields).flatMap encodePoint) =
      .ok (.obj (textFields fields)) := by
  rw [loads, decodeDetected_flatMap (startsPlain_dumpsTexts fields)]
  exact read_dumpsTexts room distinct

/-! ### The size of what is written -/

/-- The text has no character that is escaped. -/
def Unescaped (text : String) : Prop :=
  ∀ char ∈ text.toList, (32 ≤ char.toNat ∧ char.toNat ≤ 126) ∧ char ≠ '"' ∧ char ≠ '\\'

/-- The text takes as many bytes as it has characters. -/
def Ascii (text : Text) : Prop :=
  ∀ point ∈ text, point.val < 0x80

theorem Ascii.append {front back : Text} (ascii : Ascii front) (asciiBack : Ascii back) :
    Ascii (front ++ back) := by
  intro point member
  rcases List.mem_append.mp member with inFront | inBack
  · exact ascii point inFront
  · exact asciiBack point inBack

theorem Ascii.length_bytes {text : Text} (ascii : Ascii text) :
    (text.flatMap encodePoint).length = text.length := by
  induction text with
  | nil => rfl
  | cons point rest inductionHypothesis =>
      have single : (encodePoint point).length = 1 := by
        rw [encodePoint, if_pos (ascii point List.mem_cons_self)]
        rfl
      have others := inductionHypothesis fun other member =>
        ascii other (List.mem_cons_of_mem point member)
      rw [List.flatMap_cons, List.length_append, single, others, List.length_cons]
      omega

theorem escapeChar_unescaped {char : Char}
    (unescaped : (32 ≤ char.toNat ∧ char.toNat ≤ 126) ∧ char ≠ '"' ∧ char ≠ '\\') :
    Json.escapeChar char = String.singleton char := by
  have control {other : Char} (isControl : other.toNat < 32) : char ≠ other := by
    intro same
    rw [same] at unescaped
    omega
  rw [Json.escapeChar, if_neg unescaped.2.1, if_neg unescaped.2.2, if_neg (control (by decide)),
    if_neg (control (by decide)), if_neg (control (by decide)), if_neg (by omega),
    if_neg (by omega), if_pos unescaped.1]

/-- Such a text stands between its quotes as it is. -/
theorem dumpsText_unescaped {text : String} (unescaped : Unescaped text) :
    Json.dumpsText text = "\"" ++ text ++ "\"" := by
  have same : String.join (text.toList.map Json.escapeChar) = text := by
    apply String.toList_injective
    rw [String.toList_join, List.flatMap_map]
    have each : text.toList.flatMap (fun char => (Json.escapeChar char).toList) =
        text.toList.flatMap fun char => [char] := by
      apply List.flatMap_congr
      intro char member
      rw [escapeChar_unescaped (unescaped char member), String.toList_singleton]
    rw [each, List.flatMap_singleton']
  rw [Json.dumpsText, same]

theorem length_ofString (text : String) : (ofString text).length = text.length := by
  rw [ofString, List.length_map, String.length_toList]

theorem ascii_ofString {text : String} (small : ∀ char ∈ text.toList, char.toNat < 0x80) :
    Ascii (ofString text) := by
  intro point member
  have ⟨char, inText, isPoint⟩ := List.mem_map.mp member
  rw [← isPoint]
  exact small char inText

theorem ascii_dumpsText {text : String} (unescaped : Unescaped text) :
    Ascii (ofString (Json.dumpsText text)) := by
  have quote : Ascii (ofString "\"") := ascii_ofString (by simp)
  have inside : Ascii (ofString text) := ascii_ofString fun char member => by
    have bound := (unescaped char member).1
    omega
  rw [dumpsText_unescaped unescaped, ofString_append, ofString_append]
  exact (quote.append inside).append quote

theorem ascii_spacedField {field : String × String}
    (unescaped : Unescaped field.1 ∧ Unescaped field.2) : Ascii (spacedField field) := by
  have colon : Ascii (ofString ": ") := ascii_ofString (by simp)
  exact ((ascii_dumpsText unescaped.1).append colon).append (ascii_dumpsText unescaped.2)

theorem length_spacedField {field : String × String}
    (unescaped : Unescaped field.1 ∧ Unescaped field.2) :
    (spacedField field).length = field.1.length + field.2.length + 6 := by
  rw [spacedField, List.length_append, List.length_append, length_ofString, length_ofString,
    length_ofString, dumpsText_unescaped unescaped.1, dumpsText_unescaped unescaped.2]
  simp only [String.length_append]
  show 1 + field.1.length + 1 + 2 + (1 + field.2.length + 1) = _
  omega

theorem length_spaced {fields : List (String × String)}
    (unescaped : ∀ field ∈ fields, Unescaped field.1 ∧ Unescaped field.2) :
    Ascii (spaced (fields.map spacedField)) ∧ (spaced (fields.map spacedField)).length ≤
      (fields.map fun field => field.1.length + field.2.length + 8).sum := by
  induction fields with
  | nil => exact ⟨nofun, le_rfl⟩
  | cons field rest inductionHypothesis =>
      rw [List.forall_mem_cons] at unescaped
      have ⟨asciiRest, boundRest⟩ := inductionHypothesis unescaped.2
      have ascii := ascii_spacedField unescaped.1
      have length := length_spacedField unescaped.1
      rw [List.map_cons, List.map_cons, List.sum_cons]
      cases rest with
      | nil =>
          rw [List.map_nil, spaced, length]
          exact ⟨ascii, by simp⟩
      | cons next others =>
          have separator : Ascii (ofString ", ") := ascii_ofString (by simp)
          rw [List.map_cons, spaced.eq_3 _ _ (by simp), ← List.map_cons]
          refine ⟨(ascii.append separator).append asciiRest, ?_⟩
          rw [List.length_append, List.length_append, length]
          show _ + 2 + _ ≤ _
          omega

/-- An object takes at most eight bytes for each field beside its characters. -/
theorem length_dumpsTexts {fields : List (String × String)}
    (unescaped : ∀ field ∈ fields, Unescaped field.1 ∧ Unescaped field.2) :
    ((dumpsTexts fields).flatMap encodePoint).length ≤
      2 + (fields.map fun field => field.1.length + field.2.length + 8).sum := by
  have ⟨ascii, bound⟩ := length_spaced unescaped
  have opening : Ascii (ofString "\x7b") := ascii_ofString (by simp)
  have closing : Ascii (ofString "\x7d") := ascii_ofString (by simp)
  have whole : Ascii (dumpsTexts fields) := (opening.append ascii).append closing
  rw [whole.length_bytes, dumpsTexts, List.length_append, List.length_append]
  show 1 + _ + 1 ≤ _
  omega

end

end JsonReader

end BubllioCrm.Foundations
