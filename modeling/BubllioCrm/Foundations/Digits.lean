import Mathlib.Algebra.Order.Ring.Nat
import Mathlib.Data.List.Basic
import Mathlib.Data.List.Induction

/-!
Owns decimal digits of Unicode text and the integers that text denotes: the
digit classes of `\d`, the value of a run of digits, and `int()` of a string
with its whitespace, sign and underscores.
-/

namespace BubllioCrm.Foundations

/-- The code points of the zeros of the decimal digits, Unicode 15. -/
def decimalZeros : List Nat := [
  0x30, 0x660, 0x6f0, 0x7c0, 0x966, 0x9e6, 0xa66, 0xae6, 0xb66, 0xbe6, 0xc66, 0xce6, 0xd66, 0xde6,
  0xe50, 0xed0, 0xf20, 0x1040, 0x1090, 0x17e0, 0x1810, 0x1946, 0x19d0, 0x1a80, 0x1a90, 0x1b50,
  0x1bb0, 0x1c40, 0x1c50, 0xa620, 0xa8d0, 0xa900, 0xa9d0, 0xa9f0, 0xaa50, 0xabf0, 0xff10, 0x104a0,
  0x10d30, 0x11066, 0x110f0, 0x11136, 0x111d0, 0x112f0, 0x11450, 0x114d0, 0x11650, 0x116c0,
  0x11730, 0x118e0, 0x11950, 0x11c50, 0x11d50, 0x11da0, 0x11f50, 0x16a60, 0x16ac0, 0x16b50,
  0x1d7ce, 0x1d7d8, 0x1d7e2, 0x1d7ec, 0x1d7f6, 0x1e140, 0x1e2f0, 0x1e4f0, 0x1e950, 0x1fbf0]

def decimalValue (char : Char) : Option Nat :=
  (decimalZeros.find? fun first => first ≤ char.toNat && char.toNat < first + 10).map
    (char.toNat - ·)

/-- `\d`. -/
def isDecimal (char : Char) : Bool :=
  (decimalValue char).isSome

def decimalNumber (digits : List Char) : Nat :=
  digits.foldl (fun number digit => 10 * number + (decimalValue digit).getD 0) 0

/-- The digits that `int()` accepts at most. -/
def maxStringDigits : Nat := 4300

/-- `int()` of digits alone. -/
def digitsInt (digits : List Char) : Option Nat :=
  if maxStringDigits < digits.length then none else some (decimalNumber digits)

/-- The whitespace around the digits. It is less than what `str.isspace` knows. -/
def isIntSpace (char : Char) : Bool :=
  char.toNat ∈ [
    0x9, 0xa, 0xb, 0xc, 0xd, 0x20, 0x85, 0xa0, 0x1680, 0x2000, 0x2001, 0x2002, 0x2003, 0x2004,
    0x2005, 0x2006, 0x2007, 0x2008, 0x2009, 0x200a, 0x2028, 0x2029, 0x202f, 0x205f, 0x3000]

/-- Digits in which single underscores may stand between two of them. -/
def unsignedInt (text : List Char) : Option Nat :=
  let groups := text.splitOn '_'
  if groups.all fun group => group ≠ [] && group.all isDecimal then digitsInt groups.flatten
  else none

def signedInt (text : List Char) : Option Int :=
  match text with
  | '-' :: digits => (unsignedInt digits).map fun number : Nat => -(number : Int)
  | '+' :: digits => (unsignedInt digits).map fun number : Nat => (number : Int)
  | digits => (unsignedInt digits).map fun number : Nat => (number : Int)

/-- `int()` of a string, where `none` is a `ValueError`. -/
def parseInt (text : String) : Option Int :=
  signedInt ((((text.toList.dropWhile isIntSpace).reverse).dropWhile isIntSpace).reverse)

/-! ### Canonical decimals -/

theorem decimalValue_of_isDigit {char : Char} (digit : char.isDigit = true) :
    decimalValue char = some (char.toNat - 48) := by
  have range : 48 ≤ char.toNat ∧ char.toNat < 58 := by
    have bounds : 48 ≤ char.toNat ∧ char.toNat ≤ 57 := Char.isDigit_iff_toNat.mp digit
    omega
  unfold decimalValue decimalZeros
  rw [List.find?_cons_of_pos (by simp [range])]
  rfl

/-- Runs of ASCII digits have the value that the standard library gives them. -/
theorem decimalNumber_eq {digits : List Char} (ascii : ∀ char ∈ digits, char.isDigit = true) :
    decimalNumber digits = Nat.ofDigitChars 10 digits 0 := by
  have same : ∀ (chars : List Char) (initial : Nat), (∀ char ∈ chars, char.isDigit = true) →
      chars.foldl (fun number digit => 10 * number + (decimalValue digit).getD 0) initial =
        Nat.ofDigitChars 10 chars initial := by
    intro chars
    induction chars with
    | nil => exact fun _ _ => rfl
    | cons char rest inductionHypothesis =>
        intro initial all
        have first := decimalValue_of_isDigit (all char List.mem_cons_self)
        rw [List.foldl_cons, first, Option.getD_some, Nat.ofDigitChars_cons]
        exact inductionHypothesis _ fun other member => all other (List.mem_cons_of_mem _ member)
  exact same digits 0 ascii

theorem decimalNumber_toDigits (number : Nat) :
    decimalNumber (Nat.toDigits 10 number) = number := by
  have digits : ∀ char ∈ Nat.toDigits 10 number, char.isDigit = true :=
    fun char member => Nat.isDigit_of_mem_toDigits (by decide) (by decide) member
  rw [decimalNumber_eq digits, Nat.ofDigitChars_ten_toDigits]

theorem decimalNumber_concat (digits : List Char) (last : Char) :
    decimalNumber (digits ++ [last]) =
      10 * decimalNumber digits + (decimalValue last).getD 0 := by
  rw [decimalNumber, List.foldl_concat]
  rfl

/-- ASCII digits without a leading zero are the text of their number. -/
theorem toDigits_decimalNumber {digits : List Char} (nonempty : digits ≠ [])
    (ascii : ∀ char ∈ digits, char.isDigit = true)
    (leading : digits.head? = some '0' → digits = ['0']) :
    Nat.toDigits 10 (decimalNumber digits) = digits := by
  induction digits using List.reverseRecOn with
  | nil => exact absurd rfl nonempty
  | append_singleton front last inductionHypothesis =>
      have isDigit : last.isDigit = true := ascii last (List.mem_append_right _ List.mem_cons_self)
      have range : 48 ≤ last.toNat ∧ last.toNat ≤ 57 := Char.isDigit_iff_toNat.mp isDigit
      have below : last.toNat - 48 < 10 := by omega
      have lastDigit : (last.toNat - 48).digitChar = last := by
        apply Char.toNat_inj.mp
        rw [Nat.toNat_digitChar_of_lt_ten below]
        omega
      rw [decimalNumber_concat, decimalValue_of_isDigit isDigit, Option.getD_some]
      cases front with
      | nil =>
          have number : 10 * decimalNumber [] + (last.toNat - 48) = last.toNat - 48 := by
            simp [decimalNumber]
          rw [number, Nat.toDigits_of_lt_base below, lastDigit]
          rfl
      | cons first rest =>
          have notZero : first ≠ '0' := by
            intro isZero
            have single := congrArg List.length (leading (by rw [isZero]; rfl))
            simp at single
          have front : Nat.toDigits 10 (decimalNumber (first :: rest)) = first :: rest := by
            apply inductionHypothesis (List.cons_ne_nil first rest)
            · exact fun char member => ascii char (List.mem_append_left _ member)
            · intro isZero
              exact absurd (Option.some.inj isZero) notZero
          have positive : 0 < decimalNumber (first :: rest) := by
            rw [Nat.pos_iff_ne_zero]
            intro isZero
            rw [isZero, Nat.toDigits_zero] at front
            exact notZero (List.cons.inj front).1.symm
          rw [← Nat.toDigits_append_toDigits (by decide) positive below, front,
            Nat.toDigits_of_lt_base below, lastDigit]

theorem isDecimal_of_isDigit {char : Char} (digit : char.isDigit = true) :
    isDecimal char = true := by
  rw [isDecimal, decimalValue_of_isDigit digit]
  rfl

/-- The canonical text of a number that is not too long is read back. -/
theorem unsignedInt_toDigits {number : Nat} (short : number < 10 ^ maxStringDigits) :
    unsignedInt (Nat.toDigits 10 number) = some number := by
  have digits : ∀ char ∈ Nat.toDigits 10 number, char.isDigit = true :=
    fun char member => Nat.isDigit_of_mem_toDigits (by decide) (by decide) member
  have noUnderscore : '_' ∉ Nat.toDigits 10 number := by
    intro member
    exact absurd (digits _ member) (by decide)
  have oneGroup : (Nat.toDigits 10 number).splitOn '_' = [Nat.toDigits 10 number] :=
    List.splitOn_eq_singleton noUnderscore
  have decimal : (Nat.toDigits 10 number).all isDecimal = true :=
    List.all_eq_true.mpr fun char member => isDecimal_of_isDigit (digits char member)
  have nonempty : Nat.toDigits 10 number ≠ [] := List.ne_nil_of_length_pos Nat.length_toDigits_pos
  have length : (Nat.toDigits 10 number).length ≤ maxStringDigits :=
    (Nat.length_toDigits_le_iff (by decide) (by decide)).mpr short
  unfold unsignedInt
  simp only [oneGroup, List.all_cons, List.all_nil, decimal, Bool.and_true, List.flatten_cons,
    List.flatten_nil, List.append_nil, decide_eq_true_eq]
  rw [if_pos nonempty, digitsInt, if_neg (Nat.not_lt.mpr length), decimalNumber_toDigits]

theorem dropWhile_eq_self {chars : List Char} {drops : Char → Bool}
    (kept : ∀ char ∈ chars, drops char = false) : chars.dropWhile drops = chars := by
  cases chars with
  | nil => rfl
  | cons first rest =>
      rw [List.dropWhile_cons_of_neg]
      simp [kept first List.mem_cons_self]

theorem parseInt_of_noSpace {text : String}
    (noSpace : ∀ char ∈ text.toList, isIntSpace char = false) :
    parseInt text = signedInt text.toList := by
  unfold parseInt
  rw [dropWhile_eq_self noSpace, dropWhile_eq_self, List.reverse_reverse]
  intro char member
  exact noSpace char (List.mem_reverse.mp member)

theorem isIntSpace_of_isDigit {char : Char} (digit : char.isDigit = true) :
    isIntSpace char = false := by
  have range : 48 ≤ char.toNat ∧ char.toNat ≤ 57 := Char.isDigit_iff_toNat.mp digit
  rw [isIntSpace, decide_eq_false_iff_not]
  intro member
  simp only [List.mem_cons, List.not_mem_nil, or_false] at member
  omega

theorem signedInt_toDigits {number : Nat} (short : number < 10 ^ maxStringDigits) :
    signedInt (Nat.toDigits 10 number) = some (number : Int) := by
  have digits : ∀ char ∈ Nat.toDigits 10 number, char.isDigit = true :=
    fun char member => Nat.isDigit_of_mem_toDigits (by decide) (by decide) member
  have parsed := unsignedInt_toDigits short
  cases chars : Nat.toDigits 10 number with
  | nil => exact absurd chars (List.ne_nil_of_length_pos Nat.length_toDigits_pos)
  | cons first rest =>
      rw [chars] at digits parsed
      have isDigit := digits first List.mem_cons_self
      unfold signedInt
      split
      next digits sign =>
          injection sign with isSign
          rw [isSign] at isDigit
          exact absurd isDigit (by decide)
      next digits sign =>
          injection sign with isSign
          rw [isSign] at isDigit
          exact absurd isDigit (by decide)
      next =>
          rw [parsed]
          rfl

theorem mem_toString {number : Int} {char : Char} (member : char ∈ (toString number).toList) :
    char = '-' ∨ char.isDigit = true := by
  have digits : ∀ natural : Nat, char ∈ Nat.toDigits 10 natural → char.isDigit = true :=
    fun natural => Nat.isDigit_of_mem_toDigits (by decide) (by decide)
  rw [Int.toString_eq_repr, Int.repr_eq_if] at member
  by_cases nonnegative : 0 ≤ number
  · rw [if_pos nonnegative, Nat.toList_repr] at member
    exact Or.inr (digits _ member)
  · rw [if_neg nonnegative, String.toList_append, Nat.toList_repr, List.mem_append] at member
    rcases member with sign | isDigit
    · exact Or.inl (by simpa using sign)
    · exact Or.inr (digits _ isDigit)

theorem repr_injective {first second : Nat} (same : first.repr = second.repr) : first = second := by
  have numbers := congrArg (fun text => decimalNumber text.toList) same
  simpa only [Nat.toList_repr, decimalNumber_toDigits] using numbers

theorem sign_not_mem_repr (number : Nat) : '-' ∉ number.repr.toList := by
  rw [Nat.toList_repr]
  intro member
  have digit : ('-').isDigit = true :=
    Nat.isDigit_of_mem_toDigits (by decide) (by decide) member
  exact absurd digit (by decide)

theorem toString_injective {first second : Int} (same : toString first = toString second) :
    first = second := by
  have signed : ∀ number : Nat, '-' ∈ ("-" ++ number.repr).toList := by
    intro number
    rw [String.toList_append]
    exact List.mem_append_left _ (by decide)
  rw [Int.toString_eq_repr, Int.toString_eq_repr, Int.repr_eq_if, Int.repr_eq_if] at same
  by_cases nonnegative : 0 ≤ first
  · by_cases nonnegative' : 0 ≤ second
    · rw [if_pos nonnegative, if_pos nonnegative'] at same
      have numbers := repr_injective same
      omega
    · rw [if_pos nonnegative, if_neg nonnegative'] at same
      have member := signed (-second).toNat
      rw [← same] at member
      exact absurd member (sign_not_mem_repr _)
  · by_cases nonnegative' : 0 ≤ second
    · rw [if_neg nonnegative, if_pos nonnegative'] at same
      have member := signed (-first).toNat
      rw [same] at member
      exact absurd member (sign_not_mem_repr _)
    · rw [if_neg nonnegative, if_neg nonnegative'] at same
      have chars := congrArg String.toList same
      rw [String.toList_append, String.toList_append] at chars
      have numbers := repr_injective (String.toList_injective (List.append_cancel_left chars))
      omega

/-- `int()` reads what `str()` writes. -/
theorem parseInt_toString {number : Int} (short : number.natAbs < 10 ^ maxStringDigits) :
    parseInt (toString number) = some number := by
  have digits : ∀ char ∈ Nat.toDigits 10 number.natAbs, char.isDigit = true :=
    fun char member => Nat.isDigit_of_mem_toDigits (by decide) (by decide) member
  rw [Int.toString_eq_repr, Int.repr_eq_if]
  by_cases nonnegative : 0 ≤ number
  · have isAbs : number.toNat = number.natAbs := by omega
    rw [if_pos nonnegative, isAbs, parseInt_of_noSpace, Nat.toList_repr, signedInt_toDigits short,
      Option.some.injEq]
    · omega
    · rw [Nat.toList_repr]
      exact fun char member => isIntSpace_of_isDigit (digits char member)
  · have isAbs : (-number).toNat = number.natAbs := by omega
    have text : ("-" ++ number.natAbs.repr).toList = '-' :: Nat.toDigits 10 number.natAbs := by
      simp
    rw [if_neg nonnegative, isAbs, parseInt_of_noSpace, text]
    · show ((unsignedInt (Nat.toDigits 10 number.natAbs)).map _ : Option Int) = _
      rw [unsignedInt_toDigits short]
      simp only [Option.map_some]
      rw [Option.some.injEq]
      omega
    · rw [text]
      intro char member
      rcases List.mem_cons.mp member with rfl | isDigit
      · decide
      · exact isIntSpace_of_isDigit (digits char isDigit)

end BubllioCrm.Foundations
