import Mathlib.Data.List.DropRight

/-!
Owns text of code points that may be surrogates, its UTF-8 form, and the
decoding of bytes whose encoding is found from their first four: what has been
encoded is read back, and text that starts with two ASCII characters is taken
for UTF-8.
-/

namespace BubllioCrm.Foundations

/-- A character of a `str`. -/
abbrev CodePoint := Fin 0x110000

/-- A `str`, in which a surrogate may stand alone. -/
abbrev Text := List CodePoint

def ofChar (char : Char) : CodePoint :=
  ⟨char.toNat, by
    have valid : char.toNat < 0xd800 ∨ 0xdfff < char.toNat ∧ char.toNat < 0x110000 := char.valid
    omega⟩

def ofString (text : String) : Text :=
  text.toList.map ofChar

def isSurrogate (point : CodePoint) : Bool :=
  0xd800 ≤ point.val && point.val ≤ 0xdfff

theorem ofChar_not_surrogate (char : Char) : isSurrogate (ofChar char) = false := by
  have valid : char.toNat < 0xd800 ∨ 0xdfff < char.toNat ∧ char.toNat < 0x110000 := char.valid
  have isNat : (ofChar char).val = char.toNat := rfl
  simp only [isSurrogate, isNat, Bool.and_eq_false_iff, decide_eq_false_iff_not]
  omega

theorem ofString_no_surrogate (text : String) : (ofString text).any isSurrogate = false := by
  rw [ofString, List.any_map]
  exact List.any_eq_false.mpr fun char _ => by simp [ofChar_not_surrogate]

/-! ### Texts without surrogates -/

/-- The characters of a text without surrogates. -/
def toText (text : Text) : String :=
  String.ofList (text.map fun point => Char.ofNat point.val)

/-- A code point that is no surrogate is the one of its character. -/
theorem ofChar_ofNat {point : CodePoint} (noSurrogate : isSurrogate point = false) :
    ofChar (Char.ofNat point.val) = point := by
  have bound := point.isLt
  have valid : point.val.isValidChar := by
    simp only [isSurrogate, Bool.and_eq_false_iff, decide_eq_false_iff_not] at noSurrogate
    unfold Nat.isValidChar
    omega
  apply Fin.ext
  show (Char.ofNat point.val).toNat = point.val
  rw [Char.ofNat, dif_pos valid]
  rfl

theorem ofString_toText {text : Text} (noSurrogate : text.any isSurrogate = false) :
    ofString (toText text) = text := by
  rw [toText, ofString, String.toList_ofList, List.map_map, List.map_congr_left, List.map_id]
  intro point member
  exact ofChar_ofNat (Bool.eq_false_iff.mpr (List.any_eq_false.mp noSurrogate point member))

theorem toText_ofString (text : String) : toText (ofString text) = text := by
  rw [toText, ofString, List.map_map, List.map_congr_left, List.map_id, String.ofList_toList]
  intro char _
  exact Char.ofNat_toNat char

theorem ofString_injective : Function.Injective ofString :=
  Function.LeftInverse.injective toText_ofString

/-! ### UTF-8 -/

def encodePoint (point : CodePoint) : List UInt8 :=
  if point.val < 0x80 then [.ofNat point.val]
  else if point.val < 0x800 then
    [.ofNat (0xc0 + point.val / 64), .ofNat (0x80 + point.val % 64)]
  else if point.val < 0x10000 then
    [.ofNat (0xe0 + point.val / 4096), .ofNat (0x80 + point.val / 64 % 64),
      .ofNat (0x80 + point.val % 64)]
  else
    [.ofNat (0xf0 + point.val / 262144), .ofNat (0x80 + point.val / 4096 % 64),
      .ofNat (0x80 + point.val / 64 % 64), .ofNat (0x80 + point.val % 64)]

/-- `str.encode`, where `none` is a `UnicodeEncodeError`. -/
def encode (text : Text) : Option (List UInt8) :=
  if text.any isSurrogate then none else some (text.flatMap encodePoint)

/-- The number of a lead byte's bits followed by the bits of continuation bytes. -/
def joined (lead : Nat) (bytes : List UInt8) : Option Nat :=
  bytes.foldlM (fun number byte =>
    if 0x80 ≤ byte.toNat ∧ byte.toNat < 0xc0 then some (number * 64 + (byte.toNat - 0x80))
    else none) lead

/-- The code point of a number that is not below what its form is for. -/
def pointFrom (least number : Nat) : Option CodePoint :=
  if bound : number < 0x110000 then if least ≤ number then some ⟨number, bound⟩ else none
  else none

/-- A decoded code point in front of the decoding of the rest. -/
def prepend (point : Option CodePoint) (rest : Option Text) : Option Text := do
  let point ← point
  let text ← rest
  return point :: text

/-- UTF-8 with `surrogatepass`, where `none` is a `UnicodeDecodeError`. -/
def decodeUtf8 : List UInt8 → Option Text
  | [] => some []
  | first :: rest =>
      if first.toNat < 0x80 then prepend (pointFrom 0 first.toNat) (decodeUtf8 rest)
      else if first.toNat < 0xc0 then none
      else if first.toNat < 0xe0 then
        match rest with
        | second :: rest =>
            prepend ((joined (first.toNat - 0xc0) [second]).bind (pointFrom 0x80))
              (decodeUtf8 rest)
        | _ => none
      else if first.toNat < 0xf0 then
        match rest with
        | second :: third :: rest =>
            prepend ((joined (first.toNat - 0xe0) [second, third]).bind (pointFrom 0x800))
              (decodeUtf8 rest)
        | _ => none
      else if first.toNat < 0xf8 then
        match rest with
        | second :: third :: fourth :: rest =>
            prepend
              ((joined (first.toNat - 0xf0) [second, third, fourth]).bind (pointFrom 0x10000))
              (decodeUtf8 rest)
        | _ => none
      else none

theorem prepend_some (point : CodePoint) (rest : Option Text) :
    prepend (some point) rest = rest.map (point :: ·) := by
  cases rest with
  | none => rfl
  | some text => rfl

theorem pointFrom_val {least : Nat} {point : CodePoint} (fits : least ≤ point.val) :
    pointFrom least point.val = some point := by
  rw [pointFrom, dif_pos point.isLt, if_pos fits]

theorem toNat_ofNat_byte {number : Nat} (small : number < 256) :
    (UInt8.ofNat number).toNat = number :=
  UInt8.toNat_ofNat_of_lt' small

theorem joined_cons {lead bits : Nat} (small : bits < 64) (rest : List UInt8) :
    joined lead (.ofNat (0x80 + bits) :: rest) = joined (lead * 64 + bits) rest := by
  have isNat : (UInt8.ofNat (0x80 + bits)).toNat = 0x80 + bits := toNat_ofNat_byte (by omega)
  unfold joined
  rw [List.foldlM_cons, isNat, if_pos (by omega), Nat.add_sub_cancel_left]
  rfl

theorem joined_nil (lead : Nat) : joined lead [] = some lead :=
  rfl

/-- The bytes of one code point are read back, whatever stands behind them. -/
theorem decodeUtf8_encodePoint (point : CodePoint) (rest : List UInt8) :
    decodeUtf8 (encodePoint point ++ rest) = (decodeUtf8 rest).map (point :: ·) := by
  have bound : point.val < 0x110000 := point.isLt
  unfold encodePoint
  split_ifs with one two three
  · rw [List.singleton_append, decodeUtf8.eq_def]
    dsimp only
    rw [toNat_ofNat_byte (by omega), if_pos one, pointFrom_val (Nat.zero_le _), prepend_some]
  · have lead : (UInt8.ofNat (0xc0 + point.val / 64)).toNat = 0xc0 + point.val / 64 :=
      toNat_ofNat_byte (by omega)
    have value : point.val / 64 * 64 + point.val % 64 = point.val := by omega
    rw [List.cons_append, List.singleton_append, decodeUtf8.eq_def]
    dsimp only
    rw [lead, if_neg (by omega), if_neg (by omega), if_pos (by omega), Nat.add_sub_cancel_left,
      joined_cons (by omega), joined_nil, value, Option.bind_some, pointFrom_val (by omega),
      prepend_some]
  · have lead : (UInt8.ofNat (0xe0 + point.val / 4096)).toNat = 0xe0 + point.val / 4096 :=
      toNat_ofNat_byte (by omega)
    have value : (point.val / 4096 * 64 + point.val / 64 % 64) * 64 + point.val % 64 =
        point.val := by omega
    rw [List.cons_append, List.cons_append, List.singleton_append, decodeUtf8.eq_def]
    dsimp only
    rw [lead, if_neg (by omega), if_neg (by omega), if_neg (by omega), if_pos (by omega),
      Nat.add_sub_cancel_left, joined_cons (by omega), joined_cons (by omega), joined_nil, value,
      Option.bind_some, pointFrom_val (by omega), prepend_some]
  · have lead : (UInt8.ofNat (0xf0 + point.val / 262144)).toNat = 0xf0 + point.val / 262144 :=
      toNat_ofNat_byte (by omega)
    have value : ((point.val / 262144 * 64 + point.val / 4096 % 64) * 64 +
        point.val / 64 % 64) * 64 + point.val % 64 = point.val := by omega
    rw [List.cons_append, List.cons_append, List.cons_append, List.singleton_append,
      decodeUtf8.eq_def]
    dsimp only
    rw [lead, if_neg (by omega), if_neg (by omega), if_neg (by omega), if_neg (by omega),
      if_pos (by omega), Nat.add_sub_cancel_left, joined_cons (by omega), joined_cons (by omega),
      joined_cons (by omega), joined_nil, value, Option.bind_some, pointFrom_val (by omega),
      prepend_some]

/-- Text is read back from its bytes. -/
theorem decodeUtf8_flatMap (text : Text) : decodeUtf8 (text.flatMap encodePoint) = some text := by
  induction text with
  | nil => rfl
  | cons point rest inductionHypothesis =>
      rw [List.flatMap_cons, decodeUtf8_encodePoint, inductionHypothesis, Option.map_some]

/-! ### Surrogate pairs -/

/-- A part of a text: a code point that stands for itself, or a unit of UTF-16. -/
inductive Piece where
  | plain (point : CodePoint)
  | unit (code : Nat)
deriving DecidableEq

/-- Two units that follow each other and are a pair become one code point. -/
def joinPieces : List Piece → Text
  | [] => []
  | .plain point :: rest => point :: joinPieces rest
  | .unit high :: .unit low :: rest =>
      if 0xd800 ≤ high ∧ high < 0xdc00 ∧ 0xdc00 ≤ low ∧ low < 0xe000 then
        .ofNat _ (0x10000 + (high - 0xd800) * 0x400 + (low - 0xdc00)) :: joinPieces rest
      else .ofNat _ high :: joinPieces (.unit low :: rest)
  | .unit code :: rest => .ofNat _ code :: joinPieces rest

/-! ### Encodings -/

/-- UTF-16 with `surrogatepass`. -/
def units16 (bigEndian : Bool) : List UInt8 → Option (List Piece)
  | [] => some []
  | first :: second :: rest =>
      (units16 bigEndian rest).map fun units =>
        .unit (if bigEndian then first.toNat * 256 + second.toNat
          else second.toNat * 256 + first.toNat) :: units
  | _ => none

def decodeUtf16 (bigEndian : Bool) (bytes : List UInt8) : Option Text :=
  (units16 bigEndian bytes).map joinPieces

/-- UTF-32 with `surrogatepass`. -/
def decodeUtf32 (bigEndian : Bool) : List UInt8 → Option Text
  | [] => some []
  | first :: second :: third :: fourth :: rest =>
      let number := (if bigEndian then [first, second, third, fourth]
        else [fourth, third, second, first]).foldl (fun number byte =>
          number * 256 + byte.toNat) 0
      prepend (pointFrom 0 number) (decodeUtf32 bigEndian rest)
  | _ => none

inductive Encoding where
  | utf8
  | utf8Sig
  | utf16 (bigEndian : Bool)
  | utf16Sig (bigEndian : Bool)
  | utf32 (bigEndian : Bool)
  | utf32Sig (bigEndian : Bool)
deriving DecidableEq

/-- `json.detect_encoding`. -/
def detectEncoding (bytes : List UInt8) : Encoding :=
  if [0x00, 0x00, 0xfe, 0xff].isPrefixOf bytes then .utf32Sig true
  else if [0xff, 0xfe, 0x00, 0x00].isPrefixOf bytes then .utf32Sig false
  else if [0xfe, 0xff].isPrefixOf bytes then .utf16Sig true
  else if [0xff, 0xfe].isPrefixOf bytes then .utf16Sig false
  else if [0xef, 0xbb, 0xbf].isPrefixOf bytes then .utf8Sig
  else match bytes with
    | first :: second :: third :: fourth :: _ =>
        if first = 0 then if second ≠ 0 then .utf16 true else .utf32 true
        else if second = 0 then if third ≠ 0 ∨ fourth ≠ 0 then .utf16 false else .utf32 false
        else .utf8
    | [first, second] =>
        if first = 0 then .utf16 true else if second = 0 then .utf16 false else .utf8
    | _ => .utf8

/-- `bytes.decode(json.detect_encoding(bytes), "surrogatepass")`. -/
def decodeDetected (bytes : List UInt8) : Option Text :=
  match detectEncoding bytes with
  | .utf8 => decodeUtf8 bytes
  | .utf8Sig => decodeUtf8 (bytes.drop 3)
  | .utf16 bigEndian => decodeUtf16 bigEndian bytes
  | .utf16Sig bigEndian => decodeUtf16 bigEndian (bytes.drop 2)
  | .utf32 bigEndian => decodeUtf32 bigEndian bytes
  | .utf32Sig bigEndian => decodeUtf32 bigEndian (bytes.drop 4)

/-- An ASCII character other than NUL. -/
def IsPlain (byte : UInt8) : Prop :=
  0 < byte.toNat ∧ byte.toNat < 0x80

instance (byte : UInt8) : Decidable (IsPlain byte) :=
  inferInstanceAs (Decidable (_ ∧ _))

theorem not_bom {mark first : UInt8} (marks rest : List UInt8) (notPlain : ¬ IsPlain mark)
    (plain : IsPlain first) : ¬ (mark :: marks).isPrefixOf (first :: rest) = true := by
  rw [List.isPrefixOf_cons_cons, Bool.and_eq_true, beq_iff_eq]
  intro same
  rw [same.1] at notPlain
  exact notPlain plain

/-- Two ASCII characters in front are taken for UTF-8. -/
theorem detectEncoding_plain {first second : UInt8} (rest : List UInt8)
    (firstPlain : IsPlain first) (secondPlain : IsPlain second) :
    detectEncoding (first :: second :: rest) = .utf8 := by
  have notPlain : ¬ IsPlain 0 := by decide
  have firstZero : first ≠ 0 := fun isZero => notPlain (isZero ▸ firstPlain)
  have secondZero : second ≠ 0 := fun isZero => notPlain (isZero ▸ secondPlain)
  unfold detectEncoding
  rw [if_neg (not_bom _ _ (by decide) firstPlain), if_neg (not_bom _ _ (by decide) firstPlain),
    if_neg (not_bom _ _ (by decide) firstPlain), if_neg (not_bom _ _ (by decide) firstPlain),
    if_neg (not_bom _ _ (by decide) firstPlain)]
  cases rest with
  | nil => exact (if_neg firstZero).trans (if_neg secondZero)
  | cons third rest =>
      cases rest with
      | nil => rfl
      | cons fourth rest => exact (if_neg firstZero).trans (if_neg secondZero)

/-! ### ASCII -/

/-- The character of a byte. -/
def asPoint (byte : UInt8) : CodePoint :=
  .ofNat _ byte.toNat

theorem asPoint_val (byte : UInt8) : (asPoint byte).val = byte.toNat := by
  have bound := byte.toNat_lt
  exact Nat.mod_eq_of_lt (by omega)

/-- ASCII bytes are the bytes of their characters. -/
theorem flatMap_asPoint {bytes : List UInt8} (ascii : ∀ byte ∈ bytes, byte.toNat < 0x80) :
    (bytes.map asPoint).flatMap encodePoint = bytes := by
  induction bytes with
  | nil => rfl
  | cons first rest inductionHypothesis =>
      have firstAscii : first.toNat < 0x80 := ascii first List.mem_cons_self
      have others :=
        inductionHypothesis fun byte member => ascii byte (List.mem_cons_of_mem _ member)
      rw [List.map_cons, List.flatMap_cons, others, encodePoint, asPoint_val, if_pos firstAscii,
        UInt8.ofNat_toNat, List.singleton_append]

/-! ### Text that is taken for UTF-8 -/

/-- The text starts with two ASCII characters other than NUL. -/
def StartsPlain (text : Text) : Prop :=
  ∃ first second rest, text = first :: second :: rest ∧
    (0 < first.val ∧ first.val < 0x80) ∧ 0 < second.val ∧ second.val < 0x80

theorem isPlain_ofNat {number : Nat} (plain : 0 < number ∧ number < 0x80) :
    IsPlain (.ofNat number) := by
  rw [IsPlain, toNat_ofNat_byte (by omega)]
  exact plain

/-- Its bytes are decoded as what they encode. -/
theorem decodeDetected_flatMap {text : Text} (plain : StartsPlain text) :
    decodeDetected (text.flatMap encodePoint) = some text := by
  have decoded := decodeUtf8_flatMap text
  obtain ⟨first, second, rest, isText, firstPlain, secondPlain⟩ := plain
  have detected : detectEncoding (text.flatMap encodePoint) = .utf8 := by
    rw [isText, List.flatMap_cons, List.flatMap_cons, encodePoint, if_pos firstPlain.2,
      encodePoint, if_pos secondPlain.2]
    exact detectEncoding_plain _ (isPlain_ofNat firstPlain) (isPlain_ofNat secondPlain)
  rw [decodeDetected, detected]
  exact decoded

theorem StartsPlain.append {text : Text} (plain : StartsPlain text) (back : Text) :
    StartsPlain (text ++ back) := by
  obtain ⟨first, second, rest, isText, bounds⟩ := plain
  exact ⟨first, second, rest ++ back, by rw [isText]; rfl, bounds⟩

/-- ASCII characters in front change nothing about that. -/
theorem StartsPlain.prepend {front text : Text}
    (ascii : ∀ point ∈ front, 0 < point.val ∧ point.val < 0x80) (plain : StartsPlain text) :
    StartsPlain (front ++ text) := by
  cases front with
  | nil => exact plain
  | cons point others =>
      have pointPlain := ascii point List.mem_cons_self
      cases others with
      | nil =>
          obtain ⟨first, second, rest, isText, firstPlain, _⟩ := plain
          exact ⟨point, first, second :: rest, by rw [isText]; rfl, pointPlain, firstPlain⟩
      | cons next others =>
          exact ⟨point, next, others ++ text, rfl, pointPlain, ascii next (by simp)⟩

end BubllioCrm.Foundations
