import BubllioCrm.Foundations.Patterns
import Mathlib.Logic.Function.Basic

/-!
Owns an idealised digest and an idealised message authentication code, texts of
five lines, and what a set of signatures made by the holders of a secret says
about a signature that somebody presents.

Does not own the computation of either function: both are injective here, and
a code that nobody computed is not presented. That such functions exist is
shown by hexadecimal text.
-/

namespace BubllioCrm.Foundations

/-! ### Texts of lines -/

/-- A text without a line break. -/
def IsLine (text : String) : Prop :=
  '\n' ∉ text.toList

instance (text : String) : Decidable (IsLine text) :=
  inferInstanceAs (Decidable (¬ _))

def fiveLines (first second third fourth fifth : String) : String :=
  first ++ "\n" ++ second ++ "\n" ++ third ++ "\n" ++ fourth ++ "\n" ++ fifth

theorem split_at_first {Item : Type*} {item : Item} {before before' after after' : List Item}
    (absent : item ∉ before) (absent' : item ∉ before')
    (same : before ++ item :: after = before' ++ item :: after') :
    before = before' ∧ after = after' := by
  induction before generalizing before' with
  | nil =>
      cases before' with
      | nil => exact ⟨rfl, (List.cons.inj same).2⟩
      | cons first rest =>
          exact absurd ((List.cons.inj same).1 ▸ List.mem_cons_self) absent'
  | cons first rest inductionHypothesis =>
      cases before' with
      | nil => exact absurd ((List.cons.inj same).1 ▸ List.mem_cons_self) absent
      | cons first' rest' =>
          have ⟨isFirst, tails⟩ := List.cons.inj same
          have ⟨isRest, isAfter⟩ := inductionHypothesis
            (fun member => absent (List.mem_cons_of_mem _ member))
            (fun member => absent' (List.mem_cons_of_mem _ member)) tails
          exact ⟨by rw [isFirst, isRest], isAfter⟩

theorem split_at_last {Item : Type*} {item : Item} {before before' after after' : List Item}
    (absent : item ∉ after) (absent' : item ∉ after')
    (same : before ++ item :: after = before' ++ item :: after') :
    before = before' ∧ after = after' := by
  have reversed := congrArg List.reverse same
  simp only [List.reverse_append, List.reverse_cons, List.append_assoc,
    List.singleton_append] at reversed
  have ⟨isAfter, isBefore⟩ := split_at_first (fun member => absent (List.mem_reverse.mp member))
    (fun member => absent' (List.mem_reverse.mp member)) reversed
  exact ⟨List.reverse_injective isBefore, List.reverse_injective isAfter⟩

/-- The third part may hold line breaks: the two parts on each side of it are
found from the ends. -/
theorem fiveLines_injective
    {first second third fourth fifth first' second' third' fourth' fifth' : String}
    (lines : IsLine first ∧ IsLine second ∧ IsLine fourth ∧ IsLine fifth)
    (lines' : IsLine first' ∧ IsLine second' ∧ IsLine fourth' ∧ IsLine fifth')
    (same : fiveLines first second third fourth fifth =
      fiveLines first' second' third' fourth' fifth') :
    first = first' ∧ second = second' ∧ third = third' ∧ fourth = fourth' ∧ fifth = fifth' := by
  have isBreak : "\n".toList = ['\n'] := rfl
  have chars := congrArg String.toList same
  simp only [fiveLines, String.toList_append, isBreak, List.append_assoc,
    List.singleton_append] at chars
  obtain ⟨isFirst, chars⟩ := split_at_first lines.1 lines'.1 chars
  obtain ⟨isSecond, chars⟩ := split_at_first lines.2.1 lines'.2.1 chars
  have grouped : (third.toList ++ '\n' :: fourth.toList) ++ '\n' :: fifth.toList =
      (third'.toList ++ '\n' :: fourth'.toList) ++ '\n' :: fifth'.toList := by
    simpa using chars
  obtain ⟨chars, isFifth⟩ := split_at_last lines.2.2.2 lines'.2.2.2 grouped
  obtain ⟨isThird, isFourth⟩ := split_at_last lines.2.2.1 lines'.2.2.1 chars
  exact ⟨String.toList_injective isFirst, String.toList_injective isSecond,
    String.toList_injective isThird, String.toList_injective isFourth,
    String.toList_injective isFifth⟩

/-! ### Idealised signatures -/

/-- `str.isascii`. -/
def isAscii (text : String) : Bool :=
  text.toList.all fun char => char.toNat < 128

/-- A digest and a keyed code, both as hexadecimal text. -/
structure Signing where
  digest : ByteArray → String
  code : ByteArray → ByteArray → String
  digest_injective : Function.Injective digest
  digest_line : ∀ bytes, IsLine (digest bytes)
  code_injective : ∀ secret, Function.Injective (code secret)
  code_ascii : ∀ secret message, isAscii (code secret message) = true

namespace Signing

variable (signing : Signing) (secret : ByteArray)

/-- A presented text that is the code of a message is a code that a holder of
the secret computed for that message. -/
def Unforged (signed : List ByteArray) (presented : Option String) : Prop :=
  ∀ message, presented = some (signing.code secret message) → message ∈ signed

/-- The digest and the code of the five lines of a message. -/
def signLines (first second third fourth : String) (body : ByteArray) : String :=
  signing.code secret (fiveLines first second third fourth (signing.digest body)).toByteArray

variable {signing secret}

theorem message_injective {first second third fourth first' second' third' fourth' : String}
    {body body' : ByteArray} (lines : IsLine first ∧ IsLine second ∧ IsLine fourth)
    (lines' : IsLine first' ∧ IsLine second' ∧ IsLine fourth')
    (same : (fiveLines first second third fourth (signing.digest body)).toByteArray =
      (fiveLines first' second' third' fourth' (signing.digest body')).toByteArray) :
    first = first' ∧ second = second' ∧ third = third' ∧ fourth = fourth' ∧ body = body' := by
  obtain ⟨isFirst, isSecond, isThird, isFourth, isDigest⟩ := fiveLines_injective
    ⟨lines.1, lines.2.1, lines.2.2, signing.digest_line body⟩
    ⟨lines'.1, lines'.2.1, lines'.2.2, signing.digest_line body'⟩ (String.toByteArray_inj.mp same)
  exact ⟨isFirst, isSecond, isThird, isFourth, signing.digest_injective isDigest⟩

/-- Equal signatures are of equal messages. -/
theorem signLines_injective {first second third fourth first' second' third' fourth' : String}
    {body body' : ByteArray} (lines : IsLine first ∧ IsLine second ∧ IsLine fourth)
    (lines' : IsLine first' ∧ IsLine second' ∧ IsLine fourth')
    (same : signing.signLines secret first second third fourth body =
      signing.signLines secret first' second' third' fourth' body') :
    first = first' ∧ second = second' ∧ third = third' ∧ fourth = fourth' ∧ body = body' :=
  message_injective lines lines' (signing.code_injective secret same)

end Signing

/-! ### Hexadecimal text -/

def hexPair (byte : UInt8) : List Char :=
  [Nat.digitChar (byte.toNat / 16), Nat.digitChar (byte.toNat % 16)]

/-- `bytes.hex()`. -/
def hexText (bytes : ByteArray) : String :=
  String.ofList (bytes.data.toList.flatMap hexPair)

theorem digitChar_injective :
    ∀ first < 16, ∀ second < 16, Nat.digitChar first = Nat.digitChar second → first = second := by
  decide

theorem hexPair_injective : Function.Injective hexPair := by
  intro first second same
  have chars := List.cons.inj same
  have high := digitChar_injective _ (Nat.div_lt_of_lt_mul first.toNat_lt) _
    (Nat.div_lt_of_lt_mul second.toNat_lt) chars.1
  have low := digitChar_injective _ (Nat.mod_lt _ (by decide)) _ (Nat.mod_lt _ (by decide))
    (List.cons.inj chars.2).1
  apply UInt8.toNat_inj.mp
  omega

theorem flatMap_hexPair_injective : ∀ {first second : List UInt8},
    first.flatMap hexPair = second.flatMap hexPair → first = second
  | [], [], _ => rfl
  | [], _ :: _, same => by cases same
  | _ :: _, [], same => by cases same
  | byte :: rest, byte' :: rest', same => by
      rw [List.flatMap_cons, List.flatMap_cons] at same
      have parts := List.append_inj same rfl
      rw [hexPair_injective parts.1, flatMap_hexPair_injective parts.2]

theorem hexText_injective : Function.Injective hexText := by
  intro first second same
  have chars := congrArg String.toList same
  simp only [hexText, String.toList_ofList] at chars
  exact ByteArray.ext (Array.toList_inj.mp (flatMap_hexPair_injective chars))

theorem isLowerHex_of_mem_hexText {bytes : ByteArray} {char : Char}
    (member : char ∈ (hexText bytes).toList) : isLowerHex char = true := by
  have digits : ∀ number < 16, isLowerHex (Nat.digitChar number) = true := by decide
  rw [hexText, String.toList_ofList] at member
  obtain ⟨byte, -, isDigit⟩ := List.mem_flatMap.mp member
  have high : byte.toNat / 16 < 16 := Nat.div_lt_of_lt_mul byte.toNat_lt
  have low : byte.toNat % 16 < 16 := Nat.mod_lt _ (by decide)
  rcases List.mem_cons.mp isDigit with rfl | isLow
  · exact digits _ high
  · rw [List.mem_singleton.mp isLow]
    exact digits _ low

/-- A digest and a code that are injective because they spell out the message. -/
def plainSigning : Signing where
  digest := hexText
  code := fun _ message => hexText message
  digest_injective := hexText_injective
  digest_line := fun _ member => absurd (isLowerHex_of_mem_hexText member) (by decide)
  code_injective := fun _ => hexText_injective
  code_ascii := by
    intro secret message
    rw [isAscii, List.all_eq_true]
    intro char member
    exact decide_eq_true (isLowerHex_ascii (isLowerHex_of_mem_hexText member))

end BubllioCrm.Foundations
