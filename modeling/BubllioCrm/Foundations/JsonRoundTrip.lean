import BubllioCrm.Foundations.JsonReader

/-!
Owns the round trip of JSON: what the reader makes of a text that was written,
the documents that the reader makes at all, and that each of them is read back
from its written form, with the fields of its objects in the order of their keys.
-/

namespace BubllioCrm.Foundations

namespace Document

/-- The order of the fields that are written. -/
def byKey {Value : Type} (first second : Text × Value) : Prop :=
  first.1 ≤ second.1

instance {Value : Type} : DecidableRel (@byKey Value) :=
  fun first second => inferInstanceAs (Decidable (first.1 ≤ second.1))

mutual

/-- The document with the fields of its objects in the order of their keys. -/
def sorted : Document → Document
  | .null => .null
  | .bool value => .bool value
  | .int number => .int number
  | .float shown => .float shown
  | .str text => .str text
  | .arr items => .arr (sortedItems items)
  | .obj fields => .obj ((sortedFields fields).insertionSort byKey)

def sortedItems : List Document → List Document
  | [] => []
  | item :: rest => sorted item :: sortedItems rest

def sortedFields : List (Text × Document) → List (Text × Document)
  | [] => []
  | (key, value) :: rest => (key, sorted value) :: sortedFields rest

end

/-! ### Items and fields -/

theorem writeItems_eq_map (items : List Document) : writeItems items = items.map write := by
  induction items with
  | nil => rfl
  | cons item rest inductionHypothesis => rw [writeItems, inductionHypothesis, List.map_cons]

theorem writeFields_eq_map (fields : List (Text × Document)) :
    writeFields fields = fields.map fun field => (field.1, write field.2) := by
  induction fields with
  | nil => rfl
  | cons field rest inductionHypothesis => rw [writeFields, inductionHypothesis, List.map_cons]

theorem sortedItems_eq_map (items : List Document) : sortedItems items = items.map sorted := by
  induction items with
  | nil => rfl
  | cons item rest inductionHypothesis => rw [sortedItems, inductionHypothesis, List.map_cons]

theorem sortedFields_eq_map (fields : List (Text × Document)) :
    sortedFields fields = fields.map fun field => (field.1, sorted field.2) := by
  induction fields with
  | nil => rfl
  | cons field rest inductionHypothesis => rw [sortedFields, inductionHypothesis, List.map_cons]

theorem itemsDepth_le_iff {items : List Document} {bound : Nat} :
    itemsDepth items ≤ bound ↔ ∀ item ∈ items, item.depth ≤ bound := by
  induction items with
  | nil => simp [itemsDepth]
  | cons item rest inductionHypothesis =>
      rw [itemsDepth, max_le_iff, inductionHypothesis, List.forall_mem_cons]

theorem fieldsDepth_le_iff {fields : List (Text × Document)} {bound : Nat} :
    fieldsDepth fields ≤ bound ↔ ∀ field ∈ fields, field.2.depth ≤ bound := by
  induction fields with
  | nil => simp [fieldsDepth]
  | cons field rest inductionHypothesis =>
      rw [fieldsDepth, max_le_iff, inductionHypothesis, List.forall_mem_cons]

/-- Changing the values of fields does not change their order. -/
theorem insertionSort_map {First Second : Type} (change : First → Second)
    (fields : List (Text × First)) :
    (fields.map fun field => (field.1, change field.2)).insertionSort byKey =
      (fields.insertionSort byKey).map fun field => (field.1, change field.2) :=
  (List.map_insertionSort byKey byKey (fun field => (field.1, change field.2)) fields
    fun _ _ _ _ => Iff.rfl).symm

/-- The written fields of an object, in the order of their keys. -/
theorem write_obj (fields : List (Text × Document)) : write (.obj fields) =
    ofString "\x7b" ++ separated ((fields.insertionSort byKey).map fun field =>
      writeField (field.1, write field.2)) ++ ofString "\x7d" := by
  have order : (writeFields fields).insertionSort (fun first second => first.1 ≤ second.1) =
      (fields.insertionSort byKey).map fun field => (field.1, write field.2) := by
    rw [writeFields_eq_map]
    exact insertionSort_map write fields
  rw [write, order, List.map_map]
  rfl

theorem sorted_obj (fields : List (Text × Document)) : sorted (.obj fields) =
    .obj ((fields.insertionSort byKey).map fun field => (field.1, sorted field.2)) := by
  rw [sorted, sortedFields_eq_map, insertionSort_map]

/-- Fields that are in order stay there. -/
theorem insertionSort_insertionSort {Value : Type} (fields : List (Text × Value)) :
    (fields.insertionSort byKey).insertionSort byKey = fields.insertionSort byKey := by
  have : Std.Total (@byKey Value) := ⟨fun first second => le_total first.1 second.1⟩
  have : IsTrans _ (@byKey Value) := ⟨fun _ _ _ => le_trans⟩
  exact (List.pairwise_insertionSort byKey fields).insertionSort_eq

mutual

/-- The order of the fields does not change what is written. -/
theorem write_sorted : (document : Document) → document.sorted.write = document.write
  | .null => rfl
  | .bool _ => rfl
  | .int _ => rfl
  | .float _ => rfl
  | .str _ => rfl
  | .arr items => by
      rw [sorted, write, write, writeItems_eq_map, writeItems_eq_map, sortedItems_eq_map,
        List.map_map]
      exact congrArg (fun written => ofString "[" ++ separated written ++ ofString "]")
        (List.map_congr_left (items_write_sorted items))
  | .obj fields => by
      have order := List.perm_insertionSort byKey fields
      have same (field : Text × Document) (member : field ∈ fields.insertionSort byKey) :
          writeField (field.1, field.2.sorted.write) = writeField (field.1, field.2.write) := by
        rw [fields_write_sorted fields field (order.mem_iff.mp member)]
      rw [sorted_obj, write_obj, write_obj, insertionSort_map sorted, insertionSort_insertionSort,
        List.map_map]
      exact congrArg (fun written => ofString "\x7b" ++ separated written ++ ofString "\x7d")
        (List.map_congr_left same)

theorem items_write_sorted : (items : List Document) →
    ∀ item ∈ items, item.sorted.write = item.write
  | [] => fun _ member => absurd member List.not_mem_nil
  | item :: rest => by
      rw [List.forall_mem_cons]
      exact ⟨write_sorted item, items_write_sorted rest⟩

theorem fields_write_sorted : (fields : List (Text × Document)) →
    ∀ field ∈ fields, field.2.sorted.write = field.2.write
  | [] => fun _ member => absurd member List.not_mem_nil
  | (_, value) :: rest => by
      rw [List.forall_mem_cons]
      exact ⟨write_sorted value, fields_write_sorted rest⟩

end

theorem hasSurrogate_sorted (document : Document) :
    document.sorted.hasSurrogate = document.hasSurrogate := by
  rw [← write_surrogate, ← write_surrogate, write_sorted]

mutual

theorem depth_sorted : (document : Document) → document.sorted.depth = document.depth
  | .null => rfl
  | .bool _ => rfl
  | .int _ => rfl
  | .float _ => rfl
  | .str _ => rfl
  | .arr items => by rw [sorted, depth, depth, itemsDepth_sorted items]
  | .obj fields => by
      have order (bound : Nat) : fieldsDepth ((sortedFields fields).insertionSort byKey) ≤ bound ↔
          fieldsDepth (sortedFields fields) ≤ bound := by
        rw [fieldsDepth_le_iff, fieldsDepth_le_iff]
        simp only [(List.perm_insertionSort byKey (sortedFields fields)).mem_iff]
      rw [sorted, depth, depth, eq_of_forall_ge_iff order, fieldsDepth_sorted fields]

theorem itemsDepth_sorted : (items : List Document) →
    itemsDepth (sortedItems items) = itemsDepth items
  | [] => rfl
  | item :: rest => by
      rw [sortedItems, itemsDepth, itemsDepth, depth_sorted item, itemsDepth_sorted rest]

theorem fieldsDepth_sorted : (fields : List (Text × Document)) →
    fieldsDepth (sortedFields fields) = fieldsDepth fields
  | [] => rfl
  | (_, value) :: rest => by
      rw [sortedFields, fieldsDepth, fieldsDepth, depth_sorted value, fieldsDepth_sorted rest]

end

end Document

namespace JsonReader

section

variable {interpreter : Interpreter} {stack : List Frame} {token : Text} {number : Nat}

/-! ### Integers -/

theorem isDigit_ofChar {char : Char} (digit : char.isDigit = true) :
    isDigit (ofChar char) = true := by
  have range : 48 ≤ char.toNat ∧ char.toNat ≤ 57 := Char.isDigit_iff_toNat.mp digit
  have isNat : (ofChar char).val = char.toNat := rfl
  simp [isDigit, isNat, range]

/-- The digits of a natural number. -/
def digitsOf (number : Nat) : Text :=
  (Nat.toDigits 10 number).map ofChar

theorem isDigit_of_mem {point : CodePoint} (member : point ∈ digitsOf number) :
    isDigit point = true := by
  obtain ⟨char, isDigitChar, rfl⟩ := List.mem_map.mp member
  exact isDigit_ofChar (Nat.isDigit_of_mem_toDigits (by decide) (by decide) isDigitChar)

theorem digitsOf_ne_nil : digitsOf number ≠ [] := by
  rw [digitsOf, ne_eq, List.map_eq_nil_iff]
  exact Nat.toDigits_ne_nil

/-- Only zero has a digit zero in front. -/
theorem toDigits_leading (number : Nat)
    (leading : (Nat.toDigits 10 number).head? = some '0') : number = 0 := by
  induction number using Nat.strong_induction_on with
  | h number inductionHypothesis =>
      by_cases small : number < 10
      · rw [Nat.toDigits_of_lt_base small] at leading
        have isZero : number.digitChar.toNat = 48 := congrArg Char.toNat (Option.some.inj leading)
        rw [Nat.toNat_digitChar_of_lt_ten small] at isZero
        omega
      · rw [Nat.toDigits_of_base_le (by decide) (not_lt.mp small),
          List.head?_append_of_ne_nil _ Nat.toDigits_ne_nil] at leading
        have isZero := inductionHypothesis (number / 10) (by omega) leading
        omega

theorem ofChar_injective : Function.Injective ofChar := by
  intro first second same
  have sameNat : first.toNat = second.toNat := congrArg (fun point : CodePoint => point.val) same
  exact Char.toNat_inj.mp sameNat

theorem digitsOf_leading (leading : (digitsOf number).head? = some (ofChar '0')) :
    digitsOf number = [ofChar '0'] := by
  rw [digitsOf, List.head?_map] at leading
  obtain ⟨char, isHead, isZero⟩ := Option.map_eq_some_iff.mp leading
  rw [toDigits_leading number (isHead.trans (congrArg some (ofChar_injective isZero)))]
  rfl

theorem takeWhile_digits {digits : Text} (areDigits : ∀ point ∈ digits, isDigit point = true) :
    digits.takeWhile isDigit = digits ∧ digits.dropWhile isDigit = [] :=
  ⟨List.takeWhile_eq_self_iff.mpr areDigits, List.dropWhile_eq_nil_iff.mpr areDigits⟩

/-- The digits of a number are all of its whole part. -/
theorem wholePart_digitsOf (number : Nat) :
    wholePart (digitsOf number) = (digitsOf number, []) := by
  have digits : ∀ point ∈ digitsOf number, isDigit point = true := fun _ => isDigit_of_mem
  have leading : (digitsOf number).head? = some (ofChar '0') → digitsOf number = [ofChar '0'] :=
    digitsOf_leading
  cases isDigits : digitsOf number with
  | nil => rfl
  | cons first rest =>
      rw [isDigits] at digits leading
      have ⟨taken, dropped⟩ := takeWhile_digits fun point member =>
        digits point (List.mem_cons_of_mem first member)
      unfold wholePart
      dsimp only
      split_ifs with zero digit
      · rw [zero] at leading ⊢
        rw [(List.cons.inj (leading rfl)).2]
      · rw [taken, dropped]
      · exact absurd (digits first List.mem_cons_self) digit

/-- The value of a run of digits. -/
theorem foldl_digitsOf (number : Nat) :
    (digitsOf number).foldl (fun (value : Int) digit => 10 * value + (digit.val - 0x30)) 0 =
      number := by
  have general : ∀ (chars : List Char) (initial : Nat), (∀ char ∈ chars, char.isDigit = true) →
      (chars.map ofChar).foldl (fun (value : Int) digit => 10 * value + (digit.val - 0x30))
        initial = Nat.ofDigitChars 10 chars initial := by
    intro chars
    induction chars with
    | nil => exact fun _ _ => rfl
    | cons char rest inductionHypothesis =>
        intro initial all
        have range := Char.isDigit_iff_toNat.mp (all char List.mem_cons_self)
        have isNat : (ofChar char).val = char.toNat := rfl
        have next : (10 * (initial : Int) + ((ofChar char).val - 0x30)) =
            ((10 * initial + (char.toNat - '0'.toNat) : Nat) : Int) := by
          have zero : '0'.toNat = 48 := rfl
          rw [isNat, zero]
          omega
        rw [List.map_cons, List.foldl_cons, next, Nat.ofDigitChars_cons]
        exact inductionHypothesis _ fun other member => all other (List.mem_cons_of_mem _ member)
  have whole := general (Nat.toDigits 10 number) 0
    fun char member => Nat.isDigit_of_mem_toDigits (by decide) (by decide) member
  rwa [Nat.ofDigitChars_ten_toDigits] at whole

theorem wholePart_ne_nil_iff {unsigned : Text} : (wholePart unsigned).1 ≠ [] ↔
    ∃ first rest, unsigned = first :: rest ∧ isDigit first = true := by
  cases unsigned with
  | nil => simp [wholePart]
  | cons first rest =>
      unfold wholePart
      dsimp only
      split_ifs with zero digit
      · simp [zero, show isDigit (ofChar '0') = true from rfl]
      · simp [digit]
      · simp [digit]

theorem matchNumber_of_parts {negative : Bool} {unsigned whole : Text}
    (sign : signPart token = (negative, unsigned)) (isWhole : wholePart unsigned = (whole, [])) :
    matchNumber token = { negative, whole, fraction := [], exponent := [], rest := [] } := by
  unfold matchNumber
  rw [sign]
  dsimp only
  rw [isWhole]
  rfl

theorem signPart_digitsOf (number : Nat) :
    signPart (digitsOf number) = (false, digitsOf number) := by
  have digits : ∀ point ∈ digitsOf number, isDigit point = true := fun _ => isDigit_of_mem
  cases isDigits : digitsOf number with
  | nil => rfl
  | cons first rest =>
      rw [isDigits] at digits
      unfold signPart
      dsimp only
      rw [if_neg]
      rintro rfl
      exact absurd (digits _ List.mem_cons_self) (by decide)

theorem ofString_toString (number : Int) : ofString (toString number) =
    if 0 ≤ number then digitsOf number.natAbs else ofChar '-' :: digitsOf number.natAbs := by
  rw [Int.toString_eq_repr, Int.repr_eq_if]
  split_ifs with nonnegative
  · have isAbs : number.toNat = number.natAbs := by omega
    rw [ofString, isAbs, Nat.toList_repr, digitsOf]
  · have isAbs : (-number).toNat = number.natAbs := by omega
    have text : ("-" ++ number.natAbs.repr).toList = '-' :: Nat.toDigits 10 number.natAbs := by
      simp
    rw [ofString, isAbs, text, List.map_cons, digitsOf]

theorem matchNumber_toString (number : Int) : matchNumber (ofString (toString number)) =
    { negative := decide (number < 0), whole := digitsOf number.natAbs, fraction := [],
      exponent := [], rest := [] } := by
  rw [ofString_toString]
  split_ifs with nonnegative
  · rw [matchNumber_of_parts (signPart_digitsOf _) (wholePart_digitsOf _),
      decide_eq_false (not_lt.mpr nonnegative)]
  · rw [matchNumber_of_parts (by rfl : signPart _ = (true, _)) (wholePart_digitsOf _),
      decide_eq_true (not_le.mp nonnegative)]

/-- The text of an integer is read as that integer. -/
theorem readNumber_int (number : ShortInt) :
    readNumber interpreter (ofString (toString number.val)) = .ok (.int number) := by
  have parts := matchNumber_toString number.val
  have isNumber : (matchNumber (ofString (toString number.val))).number = number.val := by
    rw [parts, NumberMatch.number, foldl_digitsOf]
    split_ifs with negative
    · rw [decide_eq_true_eq] at negative
      omega
    · rw [decide_eq_true_eq] at negative
      omega
  have short : (matchNumber (ofString (toString number.val))).number.natAbs <
      10 ^ maxStringDigits := by
    rw [isNumber]
    exact number.property
  have same : (⟨_, short⟩ : ShortInt) = number := Subtype.ext isNumber
  unfold readNumber
  dsimp only
  rw [if_neg (by rw [parts]; exact digitsOf_ne_nil), if_pos (by rw [parts]; exact ⟨rfl, rfl⟩),
    dif_pos short, if_pos (by rw [parts]), same]

/-! ### Number tokens -/

/-- A part of a number is taken from the front of a text. -/
structure Taken (text part rest : Text) : Prop where
  split : text = part ++ rest
  parts : ∀ point ∈ part, isNumberPart point = true

theorem isNumberPart_of_isDigit {point : CodePoint} (digit : isDigit point = true) :
    isNumberPart point = true := by
  rw [isNumberPart, digit, Bool.true_or]

theorem taken_nil (text : Text) : Taken text [] text :=
  ⟨rfl, fun _ member => absurd member List.not_mem_nil⟩

theorem taken_digits (text : Text) :
    Taken text (text.takeWhile isDigit) (text.dropWhile isDigit) :=
  ⟨List.takeWhile_append_dropWhile.symm,
    fun _ member => isNumberPart_of_isDigit (List.mem_takeWhile_imp member)⟩

theorem Taken.cons {text part rest : Text} {point : CodePoint} (taken : Taken text part rest)
    (isPart : isNumberPart point = true) : Taken (point :: text) (point :: part) rest := by
  refine ⟨by rw [taken.split, List.cons_append], fun other member => ?_⟩
  rcases List.mem_cons.mp member with rfl | member
  · exact isPart
  · exact taken.parts other member

theorem wholePart_taken (text : Text) : Taken text (wholePart text).1 (wholePart text).2 := by
  cases text with
  | nil => exact taken_nil []
  | cons first rest =>
      unfold wholePart
      dsimp only
      split_ifs with zero digit
      · exact (taken_nil rest).cons (zero ▸ rfl)
      · exact (taken_digits rest).cons (isNumberPart_of_isDigit digit)
      · exact taken_nil _

theorem fractionPart_taken (text : Text) :
    Taken text (fractionPart text).1 (fractionPart text).2 := by
  unfold fractionPart
  split
  · split_ifs with point
    · exact ((taken_digits _).cons (isNumberPart_of_isDigit point.2)).cons (point.1 ▸ rfl)
    · exact taken_nil _
  · exact taken_nil _

theorem exponentSign_taken (text : Text) :
    Taken text (exponentSign text).1 (exponentSign text).2 := by
  cases text with
  | nil => exact taken_nil []
  | cons first rest =>
      unfold exponentSign
      dsimp only
      split_ifs with sign
      · rcases sign with rfl | rfl
        · exact (taken_nil rest).cons rfl
        · exact (taken_nil rest).cons rfl
      · exact taken_nil _

theorem exponentPart_taken (text : Text) :
    Taken text (exponentPart text).1 (exponentPart text).2 := by
  cases text with
  | nil => exact taken_nil []
  | cons mark rest =>
      have sign := exponentSign_taken rest
      have digits := taken_digits (exponentSign rest).2
      unfold exponentPart
      dsimp only
      split_ifs with exponent
      · constructor
        · rw [List.cons_append, List.cons_append, List.append_assoc, ← digits.split, ← sign.split]
        · intro point member
          rcases List.mem_append.mp member with inFront | inDigits
          · rcases List.mem_cons.mp inFront with rfl | inSign
            · rcases exponent.1 with rfl | rfl
              · rfl
              · rfl
            · exact sign.parts point inSign
          · exact digits.parts point inDigits
      · exact taken_nil _

theorem signPart_split (text : Text) :
    (signPart text).1 = true ∧ text = ofChar '-' :: (signPart text).2 ∨
      (signPart text).1 = false ∧ text = (signPart text).2 := by
  cases text with
  | nil => exact .inr ⟨rfl, rfl⟩
  | cons first rest =>
      unfold signPart
      dsimp only
      split_ifs with minus
      · exact .inl ⟨rfl, by rw [minus]⟩
      · exact .inr ⟨rfl, rfl⟩

/-- What is read as a number starts with a digit or a sign. -/
structure NumberToken (token : Text) : Prop where
  start : ∃ first rest, token = first :: rest ∧ (isDigit first = true ∨ first = ofChar '-')
  parts : ∀ point ∈ token, isNumberPart point = true

theorem numberToken_unsigned {unsigned : Text}
    (isWhole : (wholePart unsigned).1 ≠ [])
    (ends : (exponentPart (fractionPart (wholePart unsigned).2).2).2 = []) :
    NumberToken unsigned := by
  have whole := wholePart_taken unsigned
  have fraction := fractionPart_taken (wholePart unsigned).2
  have exponent := exponentPart_taken (fractionPart (wholePart unsigned).2).2
  obtain ⟨first, rest, isFirst, digit⟩ := wholePart_ne_nil_iff.mp isWhole
  refine ⟨⟨first, rest, isFirst, .inl digit⟩, fun point member => ?_⟩
  rw [whole.split, fraction.split, exponent.split, ends, List.append_nil] at member
  rcases List.mem_append.mp member with inWhole | member
  · exact whole.parts point inWhole
  · rcases List.mem_append.mp member with inFraction | inExponent
    · exact fraction.parts point inFraction
    · exact exponent.parts point inExponent

theorem numberToken_of_read {document : Document}
    (isRead : readNumber interpreter token = .ok document) : NumberToken token := by
  have ends : (matchNumber token).whole ≠ [] ∧ (matchNumber token).rest = [] := by
    unfold readNumber at isRead
    dsimp only at isRead
    split_ifs at isRead with noWhole integer short ended ended
    · exact ⟨noWhole, ended⟩
    · exact ⟨noWhole, ended⟩
  have unsigned : NumberToken (signPart token).2 := numberToken_unsigned ends.1 ends.2
  rcases signPart_split token with ⟨-, isToken⟩ | ⟨-, isToken⟩
  · rw [isToken]
    refine ⟨⟨_, _, rfl, .inr rfl⟩, fun point member => ?_⟩
    rcases List.mem_cons.mp member with rfl | member
    · rfl
    · exact unsigned.parts point member
  · rw [isToken]
    exact unsigned

/-! ### Values that are read -/

theorem run_of_step {state next : State} {char : CodePoint} {text : Text}
    (stepped : step interpreter state char = .ok next) :
    run interpreter state (char :: text) = run interpreter next text := by
  rw [run_cons, stepped]
  rfl

/-- The reader has the value, or it has it as soon as the number ends. -/
inductive Reads (interpreter : Interpreter) (stack : List Frame) (document : Document) :
    State → Prop
  | completed : Reads interpreter stack document (complete stack document)
  | number {token : Text} (isRead : readNumber interpreter token = .ok document) :
      Reads interpreter stack document { stack, phase := .number token }

/-- The text is read as the document wherever there is room for it. -/
def ReadsAs (interpreter : Interpreter) (text : Text) (document : Document) : Prop :=
  ∀ stack : List Frame, stack.length + document.depth ≤ interpreter.readDepth →
    ∃ state, run interpreter { stack, phase := .value } text = .ok state ∧
      Reads interpreter stack document state

/-- The start of a value. -/
def StartsValue (text : Text) : Prop :=
  ∃ first rest, text = first :: rest ∧ isSpace first = false ∧ first ≠ ofChar ']'

theorem run_word (word : Word) :
    run interpreter { stack, phase := .value } (word.spelling.map ofChar) =
      .ok (complete stack word.document) := by
  cases word <;> rfl

theorem step_number {point : CodePoint} (isPart : isNumberPart point = true) :
    step interpreter { stack, phase := .number token } point =
      .ok { stack, phase := .number (token ++ [point]) } := by
  unfold step
  dsimp only
  rw [if_neg (by simp [endsNumber, isPart]), if_pos isPart]

theorem run_numberParts {rest : Text} (parts : ∀ point ∈ rest, isNumberPart point = true) :
    run interpreter { stack, phase := .number token } rest =
      .ok { stack, phase := .number (token ++ rest) } := by
  induction rest generalizing token with
  | nil => rw [List.append_nil]; rfl
  | cons point rest inductionHypothesis =>
      rw [List.forall_mem_cons] at parts
      rw [run_of_step (step_number parts.1)]
      rw [inductionHypothesis parts.2, List.append_assoc, List.singleton_append]

/-- A digit or a sign is no other mark. -/
theorem ne_of_startsNumber {point : CodePoint}
    (starts : isDigit point = true ∨ point = ofChar '-') {other : Char}
    (notDigit : isDigit (ofChar other) = false) (notMinus : other ≠ '-') :
    point ≠ ofChar other := by
  rintro rfl
  rcases starts with digit | minus
  · rw [notDigit] at digit
    cases digit
  · exact notMinus (ofChar_injective minus)

theorem isSpace_of_startsNumber {point : CodePoint}
    (starts : isDigit point = true ∨ point = ofChar '-') : isSpace point = false := by
  rcases starts with digit | rfl
  · rw [isDigit, Bool.and_eq_true, decide_eq_true_eq, decide_eq_true_eq] at digit
    rw [isSpace, List.contains_eq_mem, decide_eq_false_iff_not]
    intro member
    have small : ∀ space ∈ [0x20, 0x09, 0x0a, 0x0d], space < 0x30 := by decide
    exact absurd digit.1 (not_le.mpr (small _ member))
  · rfl

theorem NumberToken.startsValue (isToken : NumberToken token) : StartsValue token := by
  obtain ⟨first, rest, same, starts⟩ := isToken.start
  exact ⟨first, rest, same, isSpace_of_startsNumber starts,
    ne_of_startsNumber starts rfl (by decide)⟩

theorem run_numberToken (isToken : NumberToken token) :
    run interpreter { stack, phase := .value } token = .ok { stack, phase := .number token } := by
  obtain ⟨first, rest, rfl, starts⟩ := isToken.start
  have first_step : step interpreter { stack, phase := .value } first =
      .ok { stack, phase := .number [first] } := by
    show between interpreter _ first = _
    rw [between, isSpace_of_startsNumber starts, if_neg Bool.false_ne_true]
    show startValue interpreter stack first = _
    rw [startValue, if_neg (ne_of_startsNumber starts rfl (by decide)),
      if_neg (ne_of_startsNumber starts rfl (by decide)),
      if_neg (ne_of_startsNumber starts rfl (by decide)), if_pos starts]
  rw [run_of_step first_step]
  exact run_numberParts fun point member => isToken.parts point (List.mem_cons_of_mem first member)

theorem Word.startsValue (word : Word) : StartsValue (word.spelling.map ofChar) := by
  cases word <;> exact ⟨_, _, rfl, rfl, by decide⟩

theorem readsAs_word (word : Word) :
    ReadsAs interpreter (word.spelling.map ofChar) word.document :=
  fun _ _ => ⟨_, run_word word, .completed⟩

theorem readsAs_number {document : Document}
    (isRead : readNumber interpreter token = .ok document) : ReadsAs interpreter token document :=
  fun _ _ => ⟨_, run_numberToken (numberToken_of_read isRead), .number isRead⟩

/-! ### Texts -/

/-- The piece of a text that stands for a code point. -/
def StandsFor (piece : Piece) (point : CodePoint) : Prop :=
  piece = .plain point ∨ piece = .unit point.val ∧ point.val < 0xd800

/-- Pieces that stand for single code points are not joined. -/
theorem joinPieces_standFor {pieces : List Piece} {text : Text}
    (standFor : List.Forall₂ StandsFor pieces text) : joinPieces pieces = text := by
  induction standFor with
  | nil => rfl
  | cons stands rest inductionHypothesis =>
      rename_i piece point pieces text
      rcases stands with rfl | ⟨rfl, small⟩
      · rw [joinPieces, inductionHypothesis]
      · have isPoint : Fin.ofNat _ point.val = point := Fin.ofNat_val_eq_self point
        cases rest with
        | nil => rw [joinPieces.eq_4 _ _ (by simp), isPoint, inductionHypothesis]
        | cons next others =>
            rename_i second _ _ _
            cases second with
            | plain other => rw [joinPieces.eq_4 _ _ (by simp), isPoint, inductionHypothesis]
            | unit low =>
                rw [joinPieces, if_neg (by omega), isPoint, inductionHypothesis]

variable (keyOf : Option (List (Text × Document))) (pieces : List Piece)

theorem hexUnit_small : ∀ number < 32,
    (Json.hexUnit number).toList.map (fun char => hexDigit (ofChar char)) =
      [some 0, some 0, some (number / 16), some (number % 16)] := by
  decide

theorem step_hex {digits : List Nat} {char : CodePoint} {digit : Nat}
    (isHex : hexDigit char = some digit) (room : digits.length < 3) :
    step interpreter { stack, phase := .string keyOf pieces (.unicode digits) } char =
      .ok { stack, phase := .string keyOf pieces (.unicode (digits ++ [digit])) } := by
  unfold step stringStep
  dsimp only
  rw [isHex]
  dsimp only
  rw [if_pos room]

theorem run_unit {first second third fourth : CodePoint} {high low : Nat}
    (isFirst : hexDigit first = some 0) (isSecond : hexDigit second = some 0)
    (isThird : hexDigit third = some high) (isFourth : hexDigit fourth = some low) :
    run interpreter { stack, phase := .string keyOf pieces .none }
        (ofString "\\u" ++ [first, second, third, fourth]) =
      .ok { stack, phase := .string keyOf (pieces ++ [.unit (16 * high + low)]) .none } := by
  have opened : run interpreter { stack, phase := .string keyOf pieces .none } (ofString "\\u") =
      .ok { stack, phase := .string keyOf pieces (.unicode []) } := rfl
  have last : step interpreter { stack, phase := .string keyOf pieces (.unicode [0, 0, high]) }
      fourth =
        .ok { stack, phase := .string keyOf (pieces ++ [.unit (16 * high + low)]) .none } := by
    unfold step stringStep
    dsimp only
    rw [isFourth]
    simp
  rw [run_append, opened]
  show run interpreter _ [first, second, third, fourth] = _
  rw [run_of_step (step_hex keyOf pieces isFirst (by decide)),
    run_of_step (step_hex keyOf pieces isSecond (by decide)),
    run_of_step (step_hex keyOf pieces isThird (by decide))]
  exact run_of_step last

/-- A code point is read back from its escape. -/
theorem run_escapePoint (point : CodePoint) : ∃ piece, StandsFor piece point ∧
    run interpreter { stack, phase := .string keyOf pieces .none } (Document.escapePoint point) =
      .ok { stack, phase := .string keyOf (pieces ++ [piece]) .none } := by
  unfold Document.escapePoint
  split_ifs with quoted backslash newline carriage tab backspace feed control
  · exact ⟨.plain point, .inl rfl, quoted ▸ rfl⟩
  · exact ⟨.plain point, .inl rfl, backslash ▸ rfl⟩
  · exact ⟨.plain point, .inl rfl, newline ▸ rfl⟩
  · exact ⟨.plain point, .inl rfl, carriage ▸ rfl⟩
  · exact ⟨.plain point, .inl rfl, tab ▸ rfl⟩
  · have isPoint : point = ofChar '\x08' := Fin.ext backspace
    exact ⟨.plain point, .inl rfl, isPoint ▸ rfl⟩
  · have isPoint : point = ofChar '\x0c' := Fin.ext feed
    exact ⟨.plain point, .inl rfl, isPoint ▸ rfl⟩
  · refine ⟨.unit point.val, .inr ⟨rfl, by omega⟩, ?_⟩
    have digits := hexUnit_small point.val control
    obtain ⟨first, second, third, fourth, chars⟩ : ∃ first second third fourth,
        (Json.hexUnit point.val).toList = [first, second, third, fourth] := by
      have length := congrArg List.length digits
      rw [List.length_map] at length
      exact List.length_eq_four.mp length
    rw [chars] at digits
    simp only [List.map_cons, List.map_nil, List.cons.injEq, and_true] at digits
    have split : ofString ("\\u" ++ Json.hexUnit point.val) =
        ofString "\\u" ++ [ofChar first, ofChar second, ofChar third, ofChar fourth] := by
      rw [ofString, String.toList_append, List.map_append, chars]
      rfl
    have number : 16 * (point.val / 16) + point.val % 16 = point.val := by omega
    rw [split, run_unit keyOf pieces digits.1 digits.2.1 digits.2.2.1 digits.2.2.2, number]
  · refine ⟨.plain point, .inl rfl, ?_⟩
    apply run_of_step
    unfold step stringStep
    dsimp only
    rw [if_neg quoted, if_neg backslash, if_neg control]

/-- What is read of a text behind the quote that opens it. -/
theorem run_escaped (text : Text) {front : Text} (standFor : List.Forall₂ StandsFor pieces front) :
    ∃ read, List.Forall₂ StandsFor read (front ++ text) ∧
      run interpreter { stack, phase := .string keyOf pieces .none }
        (text.flatMap Document.escapePoint) = .ok { stack, phase := .string keyOf read .none } := by
  induction text generalizing pieces front with
  | nil => exact ⟨pieces, (List.append_nil front).symm ▸ standFor, rfl⟩
  | cons point rest inductionHypothesis =>
      obtain ⟨piece, stands, ran⟩ := run_escapePoint keyOf pieces point
      obtain ⟨read, readStands, ranRest⟩ := inductionHypothesis (pieces ++ [piece])
        (List.rel_append standFor (.cons stands .nil))
      rw [List.append_assoc] at readStands
      refine ⟨read, readStands, ?_⟩
      rw [List.flatMap_cons, run_append, ran]
      exact ranRest

/-- A text is read back from its quoted form. -/
theorem run_quoted (text : Text) :
    run interpreter { stack, phase := .string keyOf [] .none }
        (text.flatMap Document.escapePoint ++ ofString "\"") =
      .ok (closeString stack keyOf text) := by
  obtain ⟨read, standFor, ran⟩ := run_escaped keyOf [] text .nil
  rw [run_append, ran]
  have closed : step interpreter { stack, phase := .string keyOf read .none } (ofChar '"') =
      .ok (closeString stack keyOf (joinPieces read)) := rfl
  rw [joinPieces_standFor standFor] at closed
  exact run_of_step closed

theorem readsAs_quote (text : Text) :
    ReadsAs interpreter (Document.quote text) (.str text) := by
  intro stack _
  refine ⟨complete stack (.str text), ?_, .completed⟩
  have opened : step interpreter { stack, phase := .value } (ofChar '"') =
      .ok { stack, phase := .string none [] .none } := rfl
  rw [Document.quote, List.append_assoc]
  show run interpreter _ (ofChar '"' :: _) = _
  rw [run_of_step opened]
  exact run_quoted none text

/-! ### Arrays and objects -/

/-- A character that ends a number and is no part of a word. -/
def EndsValue (char : CodePoint) : Prop :=
  isNumberPart char = false ∧ char ≠ ofChar 'I'

theorem step_complete {document : Document} (char : CodePoint) :
    step interpreter (complete stack document) char =
      between interpreter (complete stack document) char := by
  cases stack with
  | nil => rfl
  | cons frame rest =>
      cases frame with
      | array items => rfl
      | object fields key => rfl

/-- The character behind a value finds it completed. -/
theorem Reads.step {document : Document} {state : State} {char : CodePoint}
    (reads : Reads interpreter stack document state) (ends : EndsValue char) :
    step interpreter state char = step interpreter (complete stack document) char := by
  cases reads with
  | completed => rfl
  | number isRead =>
      have endsToken (token : Text) : endsNumber token char = true := by
        simp [endsNumber, ends.1, ends.2]
      rw [step_complete, JsonReader.step]
      dsimp only
      rw [if_pos (endsToken _), isRead]
      rfl

/-- Items are read up to the bracket behind them. -/
theorem run_items {items : List (Text × Document)} (done : List Document) (nonempty : items ≠ [])
    (readsItems : ∀ item ∈ items, ReadsAs interpreter item.1 item.2 ∧
      stack.length + 1 + item.2.depth ≤ interpreter.readDepth) :
    run interpreter { stack := .array done :: stack, phase := .value }
        (Document.separated (items.map Prod.fst) ++ ofString "]") =
      .ok (complete stack (.arr (done ++ items.map Prod.snd))) := by
  induction items generalizing done with
  | nil => exact absurd rfl nonempty
  | cons item rest inductionHypothesis =>
      rw [List.forall_mem_cons] at readsItems
      obtain ⟨state, ran, reads⟩ := readsItems.1.1 (.array done :: stack) readsItems.1.2
      cases rest with
      | nil =>
          have closed : step interpreter state (ofChar ']') =
              .ok (complete stack (.arr (done ++ [item.2]))) := by
            rw [reads.step ⟨rfl, by decide⟩]
            rfl
          show run interpreter _ (item.1 ++ [ofChar ']']) = _
          rw [run_append, ran]
          exact run_of_step closed
      | cons next others =>
          have separator : step interpreter state (ofChar ',') =
              .ok { stack := .array (done ++ [item.2]) :: stack, phase := .value } := by
            rw [reads.step ⟨rfl, by decide⟩]
            rfl
          have ranRest := inductionHypothesis (done ++ [item.2]) (List.cons_ne_nil _ _) readsItems.2
          rw [List.append_assoc, List.singleton_append] at ranRest
          rw [List.map_cons, Document.separated.eq_3 _ _ (by simp), List.append_assoc,
            List.append_assoc, run_append, ran]
          exact (run_of_step separator).trans ranRest

theorem setField_of_not_mem {key : Text} {value : Document} {fields : List (Text × Document)}
    (fresh : key ∉ fields.map Prod.fst) : setField key value fields = fields ++ [(key, value)] := by
  induction fields with
  | nil => rfl
  | cons field rest inductionHypothesis =>
      rw [List.map_cons, List.mem_cons, not_or] at fresh
      rw [setField, if_neg (Ne.symm fresh.1), inductionHypothesis fresh.2, List.cons_append]

/-- A field that has been written, with its key and its value. -/
structure WrittenField where
  key : Text
  text : Text
  value : Document

/-- A field is read up to the end of its value. -/
theorem run_member {field : WrittenField} {phase : Phase} {done : List (Text × Document)}
    (starts : step interpreter { stack, phase } (ofChar '"') =
      .ok { stack, phase := .string (some done) [] .none })
    (readsValue : ReadsAs interpreter field.text field.value)
    (room : stack.length + 1 + field.value.depth ≤ interpreter.readDepth) :
    ∃ state, run interpreter { stack, phase } (Document.writeField (field.key, field.text)) =
      .ok state ∧ Reads interpreter (.object done field.key :: stack) field.value state := by
  obtain ⟨state, ran, reads⟩ := readsValue (.object done field.key :: stack) room
  refine ⟨state, ?_, reads⟩
  have colon : step interpreter { stack, phase := .colon done field.key } (ofChar ':') =
      .ok { stack := .object done field.key :: stack, phase := .value } := rfl
  have key : run interpreter { stack, phase } (Document.quote field.key) =
      .ok { stack, phase := .colon done field.key } := by
    rw [Document.quote, List.append_assoc]
    exact (run_of_step starts).trans (run_quoted (some done) field.key)
  rw [Document.writeField, List.append_assoc, run_append, key]
  exact (run_of_step colon).trans ran

/-- Fields with distinct keys are read up to the brace behind them. -/
theorem run_members {fields : List WrittenField} {phase : Phase}
    (done : List (Text × Document)) (nonempty : fields ≠ [])
    (starts : step interpreter { stack, phase } (ofChar '"') =
      .ok { stack, phase := .string (some done) [] .none })
    (distinct : (done.map Prod.fst ++ fields.map WrittenField.key).Nodup)
    (readsFields : ∀ field ∈ fields, ReadsAs interpreter field.text field.value ∧
      stack.length + 1 + field.value.depth ≤ interpreter.readDepth) :
    run interpreter { stack, phase } (Document.separated
        (fields.map fun field => Document.writeField (field.key, field.text)) ++ ofString "\x7d") =
      .ok (complete stack (.obj (done ++ fields.map fun field => (field.key, field.value)))) := by
  induction fields generalizing done phase with
  | nil => exact absurd rfl nonempty
  | cons field rest inductionHypothesis =>
      rw [List.forall_mem_cons] at readsFields
      obtain ⟨state, ran, reads⟩ := run_member starts readsFields.1.1 readsFields.1.2
      have fresh : field.key ∉ done.map Prod.fst := fun member =>
        (List.nodup_append.mp distinct).2.2 _ member _ List.mem_cons_self rfl
      have completed : complete (.object done field.key :: stack) field.value =
          { stack, phase := .memberEnd (done ++ [(field.key, field.value)]) } := by
        rw [← setField_of_not_mem fresh]
        rfl
      cases rest with
      | nil =>
          have closed : step interpreter state (ofChar '\x7d') =
              .ok (complete stack (.obj (done ++ [(field.key, field.value)]))) := by
            rw [reads.step ⟨rfl, by decide⟩, completed]
            rfl
          show run interpreter _ (Document.writeField _ ++ [ofChar '\x7d']) = _
          rw [run_append, ran]
          exact run_of_step closed
      | cons next others =>
          have separator : step interpreter state (ofChar ',') =
              .ok { stack, phase := .key (done ++ [(field.key, field.value)]) } := by
            rw [reads.step ⟨rfl, by decide⟩, completed]
            rfl
          have distinctRest : ((done ++ [(field.key, field.value)]).map Prod.fst ++
              (next :: others).map WrittenField.key).Nodup := by
            rwa [List.map_append, List.append_assoc]
          have nextKey : step interpreter
              { stack, phase := .key (done ++ [(field.key, field.value)]) } (ofChar '"') =
                .ok {
                  stack
                  phase := .string (some (done ++ [(field.key, field.value)])) [] .none } :=
            rfl
          have ranRest := inductionHypothesis (done ++ [(field.key, field.value)])
            (List.cons_ne_nil _ _) nextKey distinctRest readsFields.2
          rw [List.append_assoc, List.singleton_append] at ranRest
          rw [List.map_cons, Document.separated.eq_3 _ _ (by simp), List.append_assoc,
            List.append_assoc, run_append, ran]
          exact (run_of_step separator).trans ranRest

theorem StartsValue.append {text : Text} (starts : StartsValue text) (back : Text) :
    StartsValue (text ++ back) := by
  obtain ⟨first, rest, rfl, notSpace, notBracket⟩ := starts
  exact ⟨first, rest ++ back, rfl, notSpace, notBracket⟩

/-- The first item of an array is read like any other. -/
theorem run_firstItem {text : Text} (starts : StartsValue text) :
    run interpreter { stack, phase := .arrayStart } text =
      run interpreter { stack := .array [] :: stack, phase := .value } text := by
  obtain ⟨first, rest, rfl, notSpace, notBracket⟩ := starts
  have same : step interpreter { stack, phase := .arrayStart } first =
      step interpreter { stack := .array [] :: stack, phase := .value } first := by
    show between interpreter _ first = between interpreter _ first
    rw [between, between, notSpace, if_neg Bool.false_ne_true, if_neg Bool.false_ne_true]
    show (if first = ofChar ']' then _ else _) = _
    rw [if_neg notBracket]
    rfl
  rw [run_cons, run_cons, same]

theorem readsAs_items {items : List (Text × Document)} {document : Document}
    (isArray : document = .arr (items.map Prod.snd))
    (starts : ∀ item ∈ items, StartsValue item.1)
    (readsItems : ∀ item ∈ items, ReadsAs interpreter item.1 item.2 ∧
      item.2.depth + 1 ≤ document.depth) :
    ReadsAs interpreter (ofString "[" ++ Document.separated (items.map Prod.fst) ++ ofString "]")
      document := by
  intro stack room
  have positive : 0 < document.depth := by
    rw [isArray, Document.depth]
    omega
  have opened : step interpreter { stack, phase := .value } (ofChar '[') =
      .ok { stack, phase := .arrayStart } := by
    show enter interpreter stack .arrayStart = _
    rw [enter, if_pos (by omega)]
  have bracket (text : Text) : ofString "[" ++ text = ofChar '[' :: text := rfl
  refine ⟨_, ?_, .completed⟩
  rw [List.append_assoc, bracket, run_of_step opened]
  cases items with
  | nil =>
      rw [isArray]
      rfl
  | cons item rest =>
      have nonempty : item :: rest ≠ [] := List.cons_ne_nil item rest
      have first : StartsValue (Document.separated ((item :: rest).map Prod.fst)) := by
        have startsItem := starts item List.mem_cons_self
        cases rest with
        | nil => exact startsItem
        | cons next others =>
            rw [List.map_cons, Document.separated.eq_3 _ _ (by simp), List.append_assoc]
            exact startsItem.append _
      rw [run_firstItem (first.append _), run_items [] nonempty, List.nil_append, isArray]
      intro member isMember
      have bound := (readsItems member isMember).2
      exact ⟨(readsItems member isMember).1, by omega⟩

theorem readsAs_members {fields : List WrittenField} {document : Document}
    (isObject : document = .obj (fields.map fun field => (field.key, field.value)))
    (distinct : (fields.map WrittenField.key).Nodup)
    (readsFields : ∀ field ∈ fields, ReadsAs interpreter field.text field.value ∧
      field.value.depth + 1 ≤ document.depth) :
    ReadsAs interpreter (ofString "\x7b" ++ Document.separated
      (fields.map fun field => Document.writeField (field.key, field.text)) ++ ofString "\x7d")
      document := by
  intro stack room
  have positive : 0 < document.depth := by
    rw [isObject, Document.depth]
    omega
  have opened : step interpreter { stack, phase := .value } (ofChar '\x7b') =
      .ok { stack, phase := .objectStart } := by
    show enter interpreter stack .objectStart = _
    rw [enter, if_pos (by omega)]
  have brace (text : Text) : ofString "\x7b" ++ text = ofChar '\x7b' :: text := rfl
  have firstKey : step interpreter { stack, phase := .objectStart } (ofChar '"') =
      .ok { stack, phase := .string (some []) [] .none } := rfl
  refine ⟨_, ?_, .completed⟩
  rw [List.append_assoc, brace, run_of_step opened]
  cases fields with
  | nil =>
      rw [isObject]
      rfl
  | cons field rest =>
      rw [run_members [] (List.cons_ne_nil field rest) firstKey distinct, List.nil_append, isObject]
      intro member isMember
      have bound := (readsFields member isMember).2
      exact ⟨(readsFields member isMember).1, by omega⟩

/-! ### Documents that are read back -/

/-- The text of a float: a word, or a number that is read as that float. -/
inductive ShownFloat (interpreter : Interpreter) (shown : String) : Prop
  | word (word : Word) (isFloat : word.document = .float shown)
  | number (isRead : readNumber interpreter (ofString shown) = .ok (.float shown))

mutual

/-- The keys of every object are distinct, and floats are shown as they are read. -/
def Readable (interpreter : Interpreter) : Document → Prop
  | .null => True
  | .bool _ => True
  | .int _ => True
  | .float shown => ShownFloat interpreter shown
  | .str _ => True
  | .arr items => ItemsReadable interpreter items
  | .obj fields => (fields.map Prod.fst).Nodup ∧ FieldsReadable interpreter fields

def ItemsReadable (interpreter : Interpreter) : List Document → Prop
  | [] => True
  | item :: rest => Readable interpreter item ∧ ItemsReadable interpreter rest

def FieldsReadable (interpreter : Interpreter) : List (Text × Document) → Prop
  | [] => True
  | (_, value) :: rest => Readable interpreter value ∧ FieldsReadable interpreter rest

end

/-- The text is the start of a value, and it is read as the document. -/
structure ReadsBack (interpreter : Interpreter) (text : Text) (document : Document) : Prop where
  starts : StartsValue text
  reads : ReadsAs interpreter text document

theorem readsBack_word (word : Word) :
    ReadsBack interpreter (word.spelling.map ofChar) word.document :=
  ⟨word.startsValue, readsAs_word word⟩

theorem readsBack_number {document : Document}
    (isRead : readNumber interpreter token = .ok document) :
    ReadsBack interpreter token document :=
  ⟨(numberToken_of_read isRead).startsValue, readsAs_number isRead⟩

theorem Word.spelling_of_float {word : Word} {shown : String}
    (isFloat : word.document = .float shown) : ofString shown = word.spelling.map ofChar := by
  cases word with
  | null => cases isFloat
  | true => cases isFloat
  | false => cases isFloat
  | nan => rw [← Document.float.inj isFloat]; rfl
  | infinity => rw [← Document.float.inj isFloat]; rfl
  | negativeInfinity => rw [← Document.float.inj isFloat]; rfl

theorem readsBack_float {shown : String} (isShown : ShownFloat interpreter shown) :
    ReadsBack interpreter (ofString shown) (.float shown) := by
  cases isShown with
  | number isRead => exact readsBack_number isRead
  | word word isFloat =>
      rw [Word.spelling_of_float isFloat, ← isFloat]
      exact readsBack_word word

mutual

theorem readsBack_write : (document : Document) → Readable interpreter document →
    ReadsBack interpreter document.write document.sorted
  | .null, _ => readsBack_word .null
  | .bool true, _ => readsBack_word .true
  | .bool false, _ => readsBack_word .false
  | .int number, _ => readsBack_number (readNumber_int number)
  | .float _, isShown => readsBack_float isShown
  | .str text, _ => ⟨⟨_, _, rfl, rfl, by decide⟩, readsAs_quote text⟩
  | .arr items, readable => by
      have readsItems := readsBack_items items readable
      refine ⟨⟨_, _, rfl, rfl, by decide⟩, ?_⟩
      have written : Document.write (.arr items) = ofString "[" ++ Document.separated
          ((items.map fun item => (item.write, item.sorted)).map Prod.fst) ++ ofString "]" := by
        rw [Document.write, Document.writeItems_eq_map, List.map_map]
        rfl
      have isArray : Document.sorted (.arr items) =
          .arr ((items.map fun item => (item.write, item.sorted)).map Prod.snd) := by
        rw [Document.sorted, Document.sortedItems_eq_map, List.map_map]
        rfl
      rw [written]
      apply readsAs_items isArray
      · intro pair member
        obtain ⟨item, isItem, rfl⟩ := List.mem_map.mp member
        exact (readsItems item isItem).starts
      · intro pair member
        obtain ⟨item, isItem, rfl⟩ := List.mem_map.mp member
        refine ⟨(readsItems item isItem).reads, ?_⟩
        have bound := Document.itemsDepth_le_iff.mp le_rfl item isItem
        rw [Document.depth_sorted, Document.depth_sorted, Document.depth]
        omega
  | .obj fields, readable => by
      have readsFields := readsBack_fields fields readable.2
      have order := List.perm_insertionSort Document.byKey fields
      refine ⟨⟨_, _, rfl, rfl, by decide⟩, ?_⟩
      have written : Document.write (.obj fields) = ofString "\x7b" ++ Document.separated
          (((fields.insertionSort Document.byKey).map fun field =>
            (⟨field.1, field.2.write, field.2.sorted⟩ : WrittenField)).map fun field =>
              Document.writeField (field.key, field.text)) ++ ofString "\x7d" := by
        rw [Document.write_obj, List.map_map]
        rfl
      have isObject : Document.sorted (.obj fields) =
          .obj (((fields.insertionSort Document.byKey).map fun field =>
            (⟨field.1, field.2.write, field.2.sorted⟩ : WrittenField)).map fun field =>
              (field.key, field.value)) := by
        rw [Document.sorted_obj, List.map_map]
        rfl
      rw [written]
      apply readsAs_members isObject
      · rw [List.map_map]
        exact (order.map Prod.fst).nodup_iff.mpr readable.1
      · intro writtenField member
        obtain ⟨field, isField, rfl⟩ := List.mem_map.mp member
        have isMember := order.mem_iff.mp isField
        refine ⟨(readsFields field isMember).reads, ?_⟩
        have bound := Document.fieldsDepth_le_iff.mp le_rfl field isMember
        rw [Document.depth_sorted, Document.depth_sorted, Document.depth]
        omega

theorem readsBack_items : (items : List Document) → ItemsReadable interpreter items →
    ∀ item ∈ items, ReadsBack interpreter item.write item.sorted
  | [], _ => fun _ member => absurd member List.not_mem_nil
  | item :: rest, readable => by
      rw [List.forall_mem_cons]
      exact ⟨readsBack_write item readable.1, readsBack_items rest readable.2⟩

theorem readsBack_fields : (fields : List (Text × Document)) → FieldsReadable interpreter fields →
    ∀ field ∈ fields, ReadsBack interpreter field.2.write field.2.sorted
  | [], _ => fun _ member => absurd member List.not_mem_nil
  | (_, value) :: rest, readable => by
      rw [List.forall_mem_cons]
      exact ⟨readsBack_write value readable.1, readsBack_fields rest readable.2⟩

end

/-- The reader inverts the writer, up to the order of the fields. -/
theorem read_write {document : Document} (readable : Readable interpreter document)
    (room : document.depth ≤ interpreter.readDepth) :
    read interpreter document.write = .ok document.sorted := by
  have depth := Document.depth_sorted document
  obtain ⟨state, ran, reads⟩ := (readsBack_write document readable).reads []
    (by rw [List.length_nil]; omega)
  rw [read, start, ran]
  show finish interpreter state = _
  cases reads with
  | completed => rfl
  | number isRead =>
      rw [finish]
      dsimp only
      rw [isRead]
      rfl

/-! ### Documents that are read -/

/-- Every float is shown as a text that is read as it, like `repr` does. -/
def ShowsFloats (interpreter : Interpreter) : Prop :=
  ∀ token shown, readNumber interpreter token = .ok (.float shown) → ShownFloat interpreter shown

/-- The document is read back where that many arrays and objects are open. -/
structure Fits (interpreter : Interpreter) (level : Nat) (document : Document) : Prop where
  readable : Readable interpreter document
  room : level + document.depth ≤ interpreter.readDepth

structure ItemsFit (interpreter : Interpreter) (level : Nat) (items : List Document) : Prop where
  items : ∀ item ∈ items, Fits interpreter level item
  room : level ≤ interpreter.readDepth

structure FieldsFit (interpreter : Interpreter) (level : Nat) (fields : List (Text × Document)) :
    Prop where
  distinct : (fields.map Prod.fst).Nodup
  values : ∀ field ∈ fields, Fits interpreter level field.2
  room : level ≤ interpreter.readDepth

def Frame.Sound (interpreter : Interpreter) (level : Nat) : Frame → Prop
  | .array items => ItemsFit interpreter level items
  | .object fields _ => FieldsFit interpreter level fields

/-- What has been read of every open array and object fits there. -/
def StackSound (interpreter : Interpreter) : List Frame → Prop
  | [] => True
  | frame :: rest => frame.Sound interpreter (rest.length + 1) ∧ StackSound interpreter rest

def Phase.Sound (interpreter : Interpreter) (level : Nat) : Phase → Prop
  | .value => True
  | .arrayStart => ItemsFit interpreter (level + 1) []
  | .objectStart => FieldsFit interpreter (level + 1) []
  | .key fields => FieldsFit interpreter (level + 1) fields
  | .colon fields _ => FieldsFit interpreter (level + 1) fields
  | .itemEnd items => ItemsFit interpreter (level + 1) items
  | .memberEnd fields => FieldsFit interpreter (level + 1) fields
  | .done document => Fits interpreter 0 document
  | .string keyOf _ _ => ∀ fields ∈ keyOf, FieldsFit interpreter (level + 1) fields
  | .number _ => True
  | .word _ _ => True

structure State.Sound (interpreter : Interpreter) (state : State) : Prop where
  stack : StackSound interpreter state.stack
  phase : state.phase.Sound interpreter state.stack.length

theorem itemsReadable_iff {items : List Document} :
    ItemsReadable interpreter items ↔ ∀ item ∈ items, Readable interpreter item := by
  induction items with
  | nil => simp [ItemsReadable]
  | cons item rest inductionHypothesis =>
      rw [ItemsReadable, inductionHypothesis, List.forall_mem_cons]

theorem fieldsReadable_iff {fields : List (Text × Document)} :
    FieldsReadable interpreter fields ↔ ∀ field ∈ fields, Readable interpreter field.2 := by
  induction fields with
  | nil => simp [FieldsReadable]
  | cons field rest inductionHypothesis =>
      rw [FieldsReadable, inductionHypothesis, List.forall_mem_cons]

variable {level : Nat}

theorem ItemsFit.fits {items : List Document} (fit : ItemsFit interpreter (level + 1) items) :
    Fits interpreter level (.arr items) := by
  constructor
  · exact itemsReadable_iff.mpr fun item member => (fit.items item member).readable
  · have bound : Document.itemsDepth items ≤ interpreter.readDepth - (level + 1) := by
      rw [Document.itemsDepth_le_iff]
      intro item member
      have room := (fit.items item member).room
      omega
    have room := fit.room
    rw [Document.depth]
    omega

theorem FieldsFit.fits {fields : List (Text × Document)}
    (fit : FieldsFit interpreter (level + 1) fields) : Fits interpreter level (.obj fields) := by
  constructor
  · exact ⟨fit.distinct, fieldsReadable_iff.mpr fun field member =>
      (fit.values field member).readable⟩
  · have bound : Document.fieldsDepth fields ≤ interpreter.readDepth - (level + 1) := by
      rw [Document.fieldsDepth_le_iff]
      intro field member
      have room := (fit.values field member).room
      omega
    have room := fit.room
    rw [Document.depth]
    omega

theorem ItemsFit.append {items : List Document} {document : Document}
    (fit : ItemsFit interpreter level items) (fits : Fits interpreter level document) :
    ItemsFit interpreter level (items ++ [document]) := by
  refine ⟨fun item member => ?_, fit.room⟩
  rcases List.mem_append.mp member with inFront | isLast
  · exact fit.items item inFront
  · rw [List.mem_singleton.mp isLast]
    exact fits

theorem mem_setField {key : Text} {value : Document} {fields : List (Text × Document)}
    {field : Text × Document} (member : field ∈ setField key value fields) :
    field = (key, value) ∨ field ∈ fields := by
  induction fields with
  | nil => exact .inl (List.mem_singleton.mp member)
  | cons first rest inductionHypothesis =>
      unfold setField at member
      split_ifs at member with same
      · rcases List.mem_cons.mp member with isNew | inRest
        · exact .inl isNew
        · exact .inr (List.mem_cons_of_mem first inRest)
      · rcases List.mem_cons.mp member with isFirst | inRest
        · exact .inr (isFirst ▸ List.mem_cons_self)
        · exact (inductionHypothesis inRest).imp id (List.mem_cons_of_mem first)

theorem setField_distinct {key : Text} {value : Document} {fields : List (Text × Document)}
    (distinct : (fields.map Prod.fst).Nodup) :
    ((setField key value fields).map Prod.fst).Nodup := by
  induction fields with
  | nil => exact List.nodup_singleton key
  | cons first rest inductionHypothesis =>
      rw [List.map_cons, List.nodup_cons] at distinct
      unfold setField
      split_ifs with same
      · rw [List.map_cons, List.nodup_cons, ← same]
        exact distinct
      · rw [List.map_cons, List.nodup_cons]
        refine ⟨fun member => ?_, inductionHypothesis distinct.2⟩
        obtain ⟨field, isField, sameKey⟩ := List.mem_map.mp member
        rcases mem_setField isField with rfl | inRest
        · exact same sameKey.symm
        · exact distinct.1 (List.mem_map.mpr ⟨field, inRest, sameKey⟩)

theorem FieldsFit.set {fields : List (Text × Document)} {key : Text} {value : Document}
    (fit : FieldsFit interpreter level fields) (fits : Fits interpreter level value) :
    FieldsFit interpreter level (setField key value fields) := by
  refine ⟨setField_distinct fit.distinct, fun field member => ?_, fit.room⟩
  rcases mem_setField member with rfl | inFields
  · exact fits
  · exact fit.values field inFields

/-- A completed value fits into what it is part of. -/
theorem complete_sound {document : Document} (sound : StackSound interpreter stack)
    (fits : Fits interpreter stack.length document) :
    (complete stack document).Sound interpreter := by
  cases stack with
  | nil => exact ⟨trivial, fits⟩
  | cons frame rest =>
      cases frame with
      | array items => exact ⟨sound.2, ItemsFit.append sound.1 fits⟩
      | object fields key => exact ⟨sound.2, FieldsFit.set sound.1 fits⟩

theorem StackSound.room (sound : StackSound interpreter stack) :
    stack.length ≤ interpreter.readDepth := by
  cases stack with
  | nil => exact Nat.zero_le _
  | cons frame rest =>
      cases frame with
      | array items => exact ItemsFit.room sound.1
      | object fields key => exact FieldsFit.room sound.1

theorem Word.fits (word : Word) (room : level ≤ interpreter.readDepth) :
    Fits interpreter level word.document := by
  cases word with
  | null => exact ⟨trivial, room⟩
  | true => exact ⟨trivial, room⟩
  | false => exact ⟨trivial, room⟩
  | nan => exact ⟨.word .nan rfl, room⟩
  | infinity => exact ⟨.word .infinity rfl, room⟩
  | negativeInfinity => exact ⟨.word .negativeInfinity rfl, room⟩

theorem readNumber_fits (shows : ShowsFloats interpreter) {document : Document}
    (isRead : readNumber interpreter token = .ok document)
    (room : level ≤ interpreter.readDepth) : Fits interpreter level document := by
  have isNumber : (∃ number, document = .int number) ∨ ∃ shown, document = .float shown := by
    unfold readNumber at isRead
    dsimp only at isRead
    split_ifs at isRead
    · exact .inl ⟨_, (Except.ok.inj isRead).symm⟩
    · exact .inr ⟨_, (Except.ok.inj isRead).symm⟩
  rcases isNumber with ⟨number, rfl⟩ | ⟨shown, rfl⟩
  · exact ⟨trivial, room⟩
  · exact ⟨shows token shown isRead, room⟩

variable {state next : State} {char : CodePoint} {text : Text}

theorem enter_sound {phase : Phase} (sound : StackSound interpreter stack)
    (fit : stack.length + 1 ≤ interpreter.readDepth → phase.Sound interpreter stack.length)
    (entered : enter interpreter stack phase = .ok next) : next.Sound interpreter := by
  unfold enter at entered
  split_ifs at entered with room
  cases entered
  exact ⟨sound, fit room⟩

theorem itemsFit_nil (room : level ≤ interpreter.readDepth) : ItemsFit interpreter level [] :=
  ⟨fun _ member => absurd member List.not_mem_nil, room⟩

theorem fieldsFit_nil (room : level ≤ interpreter.readDepth) : FieldsFit interpreter level [] :=
  ⟨List.nodup_nil, fun _ member => absurd member List.not_mem_nil, room⟩

theorem startValue_sound (sound : StackSound interpreter stack)
    (started : startValue interpreter stack char = .ok next) : next.Sound interpreter := by
  unfold startValue at started
  split_ifs at started with quoted bracket brace number
  · cases started
    exact ⟨sound, fun _ member => absurd member (Option.not_mem_none _)⟩
  · exact enter_sound sound itemsFit_nil started
  · exact enter_sound sound fieldsFit_nil started
  · cases started
    exact ⟨sound, trivial⟩
  · cases isWord : wordOf char with
    | none => simp [isWord] at started
    | some word =>
        simp only [isWord] at started
        cases started
        exact ⟨sound, trivial⟩

theorem startKey_sound {fields : List (Text × Document)} (sound : StackSound interpreter stack)
    (fit : FieldsFit interpreter (stack.length + 1) fields)
    (started : startKey stack fields char = .ok next) : next.Sound interpreter := by
  unfold startKey at started
  split_ifs at started
  cases started
  refine ⟨sound, fun other member => ?_⟩
  cases member
  exact fit

theorem mark_sound (sound : state.Sound interpreter)
    (marked : mark interpreter state char = .ok next) : next.Sound interpreter := by
  obtain ⟨stack, phase⟩ := state
  obtain ⟨stackSound, phaseSound⟩ := sound
  unfold mark at marked
  cases phase with
  | value => exact startValue_sound stackSound marked
  | arrayStart =>
      dsimp only at marked
      split_ifs at marked
      · cases marked
        exact complete_sound stackSound (ItemsFit.fits phaseSound)
      · have inside : StackSound interpreter (.array [] :: stack) := ⟨phaseSound, stackSound⟩
        exact startValue_sound inside marked
  | objectStart =>
      dsimp only at marked
      split_ifs at marked
      · cases marked
        exact complete_sound stackSound (FieldsFit.fits phaseSound)
      · exact startKey_sound stackSound phaseSound marked
  | key fields => exact startKey_sound stackSound phaseSound marked
  | colon fields key =>
      dsimp only at marked
      split_ifs at marked
      cases marked
      exact ⟨⟨phaseSound, stackSound⟩, trivial⟩
  | itemEnd items =>
      dsimp only at marked
      split_ifs at marked
      · cases marked
        exact ⟨⟨phaseSound, stackSound⟩, trivial⟩
      · cases marked
        exact complete_sound stackSound (ItemsFit.fits phaseSound)
  | memberEnd fields =>
      dsimp only at marked
      split_ifs at marked
      · cases marked
        exact ⟨stackSound, phaseSound⟩
      · cases marked
        exact complete_sound stackSound (FieldsFit.fits phaseSound)
  | done document => cases marked
  | string keyOf pieces escape => cases marked
  | number token => cases marked
  | word word matched => cases marked

theorem between_sound (sound : state.Sound interpreter)
    (stepped : between interpreter state char = .ok next) : next.Sound interpreter := by
  unfold between at stepped
  split_ifs at stepped
  · cases stepped
    exact sound
  · exact mark_sound sound stepped

theorem stringStep_sound {keyOf : Option (List (Text × Document))} {pieces : List Piece}
    {escape : Escape} (sound : StackSound interpreter stack)
    (fit : ∀ fields ∈ keyOf, FieldsFit interpreter (stack.length + 1) fields)
    (stepped : stringStep stack keyOf pieces escape char = .ok next) : next.Sound interpreter := by
  have continued (others : List Piece) (escape : Escape) :
      State.Sound interpreter { stack, phase := .string keyOf others escape } := ⟨sound, fit⟩
  cases escape with
  | none =>
      unfold stringStep at stepped
      dsimp only at stepped
      split_ifs at stepped
      · cases stepped
        cases keyOf with
        | none => exact complete_sound sound ⟨trivial, sound.room⟩
        | some fields => exact ⟨sound, fit fields rfl⟩
      · cases stepped
        exact continued _ _
      · cases stepped
        exact continued _ _
  | backslash =>
      unfold stringStep at stepped
      dsimp only at stepped
      split_ifs at stepped
      · cases stepped
        exact continued _ _
      · cases isEscape : simpleEscape char with
        | none => simp [isEscape] at stepped
        | some point =>
            simp only [isEscape] at stepped
            cases stepped
            exact continued _ _
  | unicode digits =>
      unfold stringStep at stepped
      cases isHex : hexDigit char with
      | none => simp [isHex] at stepped
      | some digit =>
          simp only [isHex] at stepped
          split_ifs at stepped
          · cases stepped
            exact continued _ _
          · cases stepped
            exact continued _ _

/-- Every character keeps what is read readable and within the depth. -/
theorem step_sound (shows : ShowsFloats interpreter) (sound : state.Sound interpreter)
    (stepped : step interpreter state char = .ok next) : next.Sound interpreter := by
  unfold step at stepped
  cases isPhase : state.phase with
  | string keyOf pieces escape =>
      have fit := sound.phase
      rw [isPhase] at fit stepped
      exact stringStep_sound sound.stack fit stepped
  | number token =>
      rw [isPhase] at stepped
      dsimp only at stepped
      split_ifs at stepped
      · obtain ⟨document, isRead, stepped⟩ := bind_eq_ok.mp stepped
        have fits := readNumber_fits shows isRead sound.stack.room
        exact between_sound (complete_sound sound.stack fits) stepped
      · cases stepped
        exact ⟨sound.stack, trivial⟩
      · cases stepped
        exact ⟨sound.stack, trivial⟩
  | word word matched =>
      rw [isPhase] at stepped
      dsimp only at stepped
      split_ifs at stepped
      · cases stepped
        exact complete_sound sound.stack (word.fits sound.stack.room)
      · cases stepped
        exact ⟨sound.stack, trivial⟩
  | _ =>
      rw [isPhase] at stepped
      exact between_sound sound stepped

theorem run_sound (shows : ShowsFloats interpreter) (sound : state.Sound interpreter)
    (ran : run interpreter state text = .ok next) : next.Sound interpreter := by
  induction text generalizing state with
  | nil =>
      cases ran
      exact sound
  | cons char rest inductionHypothesis =>
      rw [run_cons] at ran
      obtain ⟨middle, stepped, ranRest⟩ := bind_eq_ok.mp ran
      exact inductionHypothesis (step_sound shows sound stepped) ranRest

/-- Everything that is read can be read back, and is not nested too deep for that. -/
theorem read_fits (shows : ShowsFloats interpreter) {document : Document}
    (isRead : read interpreter text = .ok document) : Fits interpreter 0 document := by
  obtain ⟨last, ran, finished⟩ := bind_eq_ok.mp isRead
  have fresh : start.Sound interpreter := ⟨trivial, trivial⟩
  have sound := run_sound shows fresh ran
  unfold finish at finished
  cases isPhase : last.phase with
  | done value =>
      have fits := sound.phase
      rw [isPhase] at finished fits
      cases finished
      exact fits
  | number token =>
      rw [isPhase] at finished
      obtain ⟨value, isNumber, finished⟩ := bind_eq_ok.mp finished
      split_ifs at finished
      cases finished
      exact readNumber_fits shows isNumber (Nat.zero_le _)
  | _ =>
      rw [isPhase] at finished
      cases finished

/-- What was read is read again from its written form, with its fields in order. -/
theorem read_write_of_read (shows : ShowsFloats interpreter) {document : Document}
    (isRead : read interpreter text = .ok document) :
    read interpreter document.write = .ok document.sorted := by
  have fits := read_fits shows isRead
  have room := fits.room
  rw [Nat.zero_add] at room
  exact read_write fits.readable room

/-! ### Spaces around a text -/

/-- A blank behind what can be over finds it over. -/
theorem step_finished {document : Document} (blank : char.val ≤ 0x20)
    (finished : finish interpreter state = .ok document) :
    ∃ stack, step interpreter state char =
      between interpreter { stack, phase := .done document } char := by
  obtain ⟨stack, phase⟩ := state
  cases phase with
  | done value =>
      cases finished
      exact ⟨stack, rfl⟩
  | number token =>
      obtain ⟨value, isRead, finished⟩ := bind_eq_ok.mp finished
      split_ifs at finished with isTop
      cases finished
      have noStack : stack = [] := List.isEmpty_iff.mp isTop
      refine ⟨[], ?_⟩
      unfold step
      dsimp only
      rw [if_pos (endsNumber_blank blank), isRead, noStack]
      rfl
  | _ => cases finished

/-- Behind what can be over, blanks are read exactly when they are spaces. -/
theorem finish_behind {back : Text} {document : Document}
    (blank : ∀ point ∈ back, point.val ≤ 0x20)
    (finished : finish interpreter state = .ok document) :
    run interpreter state back >>= finish interpreter = .ok document ↔
      ∀ point ∈ back, isSpace point = true := by
  induction back generalizing state with
  | nil => exact iff_of_true finished fun _ member => absurd member List.not_mem_nil
  | cons point rest inductionHypothesis =>
      rw [List.forall_mem_cons] at blank
      obtain ⟨stack, stepped⟩ := step_finished blank.1 finished
      rw [List.forall_mem_cons, run_cons, stepped, between]
      cases space : isSpace point with
      | true =>
          have behind : run interpreter ⟨stack, .done document⟩ rest >>= finish interpreter =
              .ok document ↔ ∀ point ∈ rest, isSpace point = true :=
            inductionHypothesis blank.2 rfl
          rw [if_pos rfl, ← behind]
          exact (and_iff_right rfl).symm
      | false =>
          rw [if_neg Bool.false_ne_true, mark_blank blank.1]
          simp [bind, Except.bind]

/-- In front of a value, blanks are read exactly when they are spaces. -/
theorem run_front {front : Text} (blank : ∀ point ∈ front, point.val ≤ 0x20) :
    (∃ next, run interpreter start front = .ok next) ↔ ∀ point ∈ front, isSpace point = true := by
  induction front with
  | nil => exact iff_of_true ⟨start, rfl⟩ fun _ member => absurd member List.not_mem_nil
  | cons point rest inductionHypothesis =>
      rw [List.forall_mem_cons] at blank
      have isBetween : step interpreter start point = between interpreter start point := rfl
      rw [List.forall_mem_cons, run_cons, isBetween, between]
      cases space : isSpace point with
      | true =>
          rw [if_pos rfl, ← inductionHypothesis blank.2]
          exact (and_iff_right rfl).symm
      | false =>
          rw [if_neg Bool.false_ne_true, mark_blank blank.1]
          simp [bind, Except.bind]

/-- With blanks around it, a text is read as before exactly when they are spaces. -/
theorem read_surrounded {front back : Text} {document : Document}
    (frontBlank : ∀ point ∈ front, point.val ≤ 0x20)
    (backBlank : ∀ point ∈ back, point.val ≤ 0x20) :
    read interpreter (front ++ text ++ back) = .ok document ↔
      (∀ point ∈ front ++ back, isSpace point = true) ∧ read interpreter text = .ok document := by
  have whole : read interpreter (front ++ text ++ back) =
      run interpreter start front >>= fun first => run interpreter first text >>= fun middle =>
        run interpreter middle back >>= finish interpreter := by
    rw [read, run_append, run_append, bind_assoc, bind_assoc]
  constructor
  · intro isRead
    have trimmed := read_trimmed frontBlank backBlank isRead
    rw [whole] at isRead
    obtain ⟨first, ranFront, isRead⟩ := bind_eq_ok.mp isRead
    obtain ⟨middle, ranText, isRead⟩ := bind_eq_ok.mp isRead
    rw [run_blank_start frontBlank ranFront] at ranText
    have finished : finish interpreter middle = .ok document := by
      rw [read, ranText] at trimmed
      exact trimmed
    have frontSpaces := (run_front frontBlank).mp ⟨first, ranFront⟩
    have backSpaces := (finish_behind backBlank finished).mp isRead
    exact ⟨List.forall_mem_append.mpr ⟨frontSpaces, backSpaces⟩, trimmed⟩
  · rintro ⟨spaces, isRead⟩
    obtain ⟨frontSpaces, backSpaces⟩ := List.forall_mem_append.mp spaces
    obtain ⟨first, ranFront⟩ := (run_front frontBlank).mpr frontSpaces
    obtain ⟨middle, ranText, finished⟩ := bind_eq_ok.mp isRead
    rw [run_blank_start frontBlank ranFront] at ranFront
    rw [whole]
    exact bind_eq_ok.mpr ⟨start, ranFront, bind_eq_ok.mpr ⟨middle, ranText,
      (finish_behind backBlank finished).mpr backSpaces⟩⟩

/-! ### Characters that are written -/

def Visible (text : Text) : Prop :=
  ∀ point ∈ text, 0x20 ≤ point.val

theorem visible_append {front back : Text} : Visible (front ++ back) ↔
    Visible front ∧ Visible back :=
  List.forall_mem_append

theorem visible_ofString {string : String} (visible : ∀ char ∈ string.toList, 0x20 ≤ char.toNat) :
    Visible (ofString string) := by
  intro point member
  obtain ⟨char, isChar, rfl⟩ := List.mem_map.mp member
  exact visible char isChar

theorem hexDigit_visible {point : CodePoint} {digit : Nat} (isHex : hexDigit point = some digit) :
    0x20 ≤ point.val := by
  unfold hexDigit isDigit at isHex
  simp only [Bool.and_eq_true, decide_eq_true_eq] at isHex
  split_ifs at isHex <;> omega

theorem visible_hexUnit {number : Nat} (small : number < 32) :
    ∀ char ∈ (Json.hexUnit number).toList, 0x20 ≤ char.toNat := by
  intro char member
  have isDigits := hexUnit_small number small
  have isDigit : hexDigit (ofChar char) ∈
      [some 0, some 0, some (number / 16), some (number % 16)] :=
    isDigits ▸ List.mem_map_of_mem member
  obtain ⟨digit, isHex⟩ : ∃ digit, hexDigit (ofChar char) = some digit := by
    simp only [List.mem_cons, List.not_mem_nil, or_false] at isDigit
    rcases isDigit with isHex | isHex | isHex | isHex <;> exact ⟨_, isHex⟩
  exact hexDigit_visible isHex

theorem visible_escapePoint (point : CodePoint) : Visible (Document.escapePoint point) := by
  unfold Document.escapePoint
  split_ifs with quoted backslash newline carriage tab backspace feed control
  · exact visible_ofString (by simp)
  · exact visible_ofString (by simp)
  · exact visible_ofString (by simp)
  · exact visible_ofString (by simp)
  · exact visible_ofString (by simp)
  · exact visible_ofString (by simp)
  · exact visible_ofString (by simp)
  · apply visible_ofString
    rw [String.toList_append, List.forall_mem_append]
    exact ⟨by simp, visible_hexUnit control⟩
  · intro other member
    rw [List.mem_singleton.mp member]
    omega

theorem visible_quote (text : Text) : Visible (Document.quote text) := by
  rw [Document.quote, visible_append, visible_append]
  refine ⟨⟨visible_ofString (by simp), fun point member => ?_⟩, visible_ofString (by simp)⟩
  obtain ⟨source, -, isEscape⟩ := List.mem_flatMap.mp member
  exact visible_escapePoint source point isEscape

theorem visible_separated {texts : List Text} (visible : ∀ text ∈ texts, Visible text) :
    Visible (Document.separated texts) := by
  induction texts with
  | nil => exact fun _ member => absurd member List.not_mem_nil
  | cons text rest inductionHypothesis =>
      rw [List.forall_mem_cons] at visible
      cases rest with
      | nil => exact visible.1
      | cons next others =>
          rw [Document.separated.eq_3 _ _ (by simp), visible_append, visible_append]
          exact ⟨⟨visible.1, visible_ofString (by simp)⟩, inductionHypothesis visible.2⟩

theorem isNumberPart_visible {point : CodePoint} (isPart : isNumberPart point = true) :
    0x20 ≤ point.val := by
  by_contra small
  have blank : point.val ≤ 0x20 := by omega
  have ends : endsNumber [] point = true := endsNumber_blank blank
  rw [endsNumber, isPart] at ends
  cases ends

theorem NumberToken.visible (isToken : NumberToken token) : Visible token :=
  fun point member => isNumberPart_visible (isToken.parts point member)

theorem visible_word (word : Word) : Visible (word.spelling.map ofChar) := by
  intro point member
  obtain ⟨letter, isLetter, rfl⟩ := List.mem_map.mp member
  exact (word.visible letter isLetter).le

mutual

/-- What is written of a readable document has no control characters. -/
theorem visible_write : (document : Document) → Readable interpreter document →
    Visible document.write
  | .null, _ => visible_word .null
  | .bool true, _ => visible_word .true
  | .bool false, _ => visible_word .false
  | .int number, _ => (numberToken_of_read (@readNumber_int interpreter number)).visible
  | .float shown, isShown => by
      cases isShown with
      | number isRead => exact (numberToken_of_read isRead).visible
      | word word isFloat =>
          have spelled : Document.write (.float shown) = word.spelling.map ofChar :=
            Word.spelling_of_float isFloat
          rw [spelled]
          exact visible_word word
  | .str text, _ => visible_quote text
  | .arr items, readable => by
      rw [Document.write, visible_append, visible_append, Document.writeItems_eq_map]
      refine ⟨⟨visible_ofString (by simp), visible_separated fun text member => ?_⟩,
        visible_ofString (by simp)⟩
      obtain ⟨item, isItem, rfl⟩ := List.mem_map.mp member
      exact visible_items items readable item isItem
  | .obj fields, readable => by
      rw [Document.write_obj, visible_append, visible_append]
      refine ⟨⟨visible_ofString (by simp), visible_separated fun text member => ?_⟩,
        visible_ofString (by simp)⟩
      obtain ⟨field, isField, rfl⟩ := List.mem_map.mp member
      have isMember := (List.perm_insertionSort Document.byKey fields).mem_iff.mp isField
      rw [Document.writeField, visible_append, visible_append]
      exact ⟨⟨visible_quote field.1, visible_ofString (by simp)⟩,
        visible_fields fields readable.2 field isMember⟩

theorem visible_items : (items : List Document) → ItemsReadable interpreter items →
    ∀ item ∈ items, Visible item.write
  | [], _ => fun _ member => absurd member List.not_mem_nil
  | item :: rest, readable => by
      rw [List.forall_mem_cons]
      exact ⟨visible_write item readable.1, visible_items rest readable.2⟩

theorem visible_fields : (fields : List (Text × Document)) → FieldsReadable interpreter fields →
    ∀ field ∈ fields, Visible field.2.write
  | [], _ => fun _ member => absurd member List.not_mem_nil
  | (_, value) :: rest, readable => by
      rw [List.forall_mem_cons]
      exact ⟨visible_write value readable.1, visible_fields rest readable.2⟩

end

end

end JsonReader

end BubllioCrm.Foundations
