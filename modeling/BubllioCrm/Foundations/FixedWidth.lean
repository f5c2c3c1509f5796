import BubllioCrm.Foundations.Calendar
import Mathlib.Data.Fin.Basic
import Mathlib.Data.List.Lex
import Mathlib.Data.Prod.Lex
import Mathlib.Data.String.Basic
import Mathlib.Order.Fin.Basic
import Mathlib.Order.Lattice

/-!
Owns texts of a fixed width, which sort as what they denote: UUIDs in their
canonical form, numbers with leading zeros, and dates and times in the ISO
format.
-/

namespace BubllioCrm.Foundations

/-- A UUID by its canonical text. Its bytes sort as the text does. -/
structure Uuid where
  text : String
  length : text.length = 36
deriving DecidableEq

namespace Uuid

theorem text_injective : Function.Injective text := by
  intro first second same
  cases first
  cases second
  cases same
  rfl

instance : LinearOrder Uuid := LinearOrder.lift' text text_injective

theorem lt_iff_text {first second : Uuid} : first < second ↔ first.text < second.text :=
  Iff.rfl

end Uuid

/-! ### Texts one behind the other -/

section Sequences

variable {Front Back : Type*}

theorem append_lt_append {first second rest other : List Char}
    (sameLength : first.length = second.length)
    (less : first < second ∨ first = second ∧ rest < other) : first ++ rest < second ++ other := by
  induction first generalizing second with
  | nil =>
      have isNil : second = [] := List.length_eq_zero_iff.mp sameLength.symm
      subst isNil
      simpa using less
  | cons char chars inductionHypothesis =>
      cases second with
      | nil => simp at sameLength
      | cons otherChar otherChars =>
          simp only [List.cons_append, List.cons_lt_cons_iff, List.cons.injEq] at less ⊢
          have lengths : chars.length = otherChars.length := Nat.succ.inj sameLength
          rcases less with (isLess | ⟨isSame, isLess⟩) | ⟨⟨isSame, sameRest⟩, isLess⟩
          · exact Or.inl isLess
          · exact Or.inr ⟨isSame, inductionHypothesis lengths (Or.inl isLess)⟩
          · exact Or.inr ⟨isSame, inductionHypothesis lengths (Or.inr ⟨sameRest, isLess⟩)⟩

/-- All texts have one length. -/
def SameWidth (text : Front → List Char) : Prop :=
  ∀ first second, (text first).length = (text second).length

/-- Pairs sort as their texts if the first texts have one length. -/
theorem strictMono_append [LinearOrder Front] [LinearOrder Back] {front : Front → List Char}
    {back : Back → List Char} (width : SameWidth front) (frontSorts : StrictMono front)
    (backSorts : StrictMono back) :
    StrictMono fun pair : Front ×ₗ Back => front (ofLex pair).1 ++ back (ofLex pair).2 := by
  intro first second less
  apply append_lt_append (width _ _)
  rcases Prod.Lex.lt_iff.mp less with isLess | ⟨isSame, isLess⟩
  · exact Or.inl (frontSorts isLess)
  · exact Or.inr ⟨congrArg front isSame, backSorts isLess⟩

/-- Texts of one length between two others sort as they do alone. -/
theorem strictMono_surround [LinearOrder Front] {text : Front → List Char} (width : SameWidth text)
    (sorts : StrictMono text) (before after : List Char) :
    StrictMono fun value => before ++ (text value ++ after) := by
  intro first second less
  exact append_lt_append rfl
    (Or.inr ⟨rfl, append_lt_append (width first second) (Or.inl (sorts less))⟩)

end Sequences

/-- A UUID between two texts sorts as it does alone. -/
theorem Uuid.strictMono_surround (before after : String) :
    StrictMono fun id : Uuid => before ++ (id.text ++ after) := by
  have width : SameWidth fun id : Uuid => id.text.toList := by
    intro first second
    dsimp only
    rw [String.length_toList, String.length_toList, first.length, second.length]
  have sorts : StrictMono fun id : Uuid => id.text.toList :=
    fun _ _ less => String.lt_iff_toList_lt.mp less
  intro first second less
  show before ++ (first.text ++ after) < before ++ (second.text ++ after)
  rw [String.lt_iff_toList_lt]
  simp only [String.toList_append]
  exact Foundations.strictMono_surround width sorts before.toList after.toList less

/-! ### Numbers -/

/-- The last digits of a number, with leading zeros: `f"{number:0{width}d}"` of a
number that has no more digits. -/
def padded : Nat → Nat → List Char
  | 0, _ => []
  | width + 1, number => padded width (number / 10) ++ [Nat.digitChar (number % 10)]

theorem length_padded (width number : Nat) : (padded width number).length = width := by
  induction width generalizing number with
  | zero => rfl
  | succ width inductionHypothesis =>
      rw [padded, List.length_append, inductionHypothesis, List.length_singleton]

theorem digitChar_lt {first second : Nat} (less : first < second) (isDigit : second < 10) :
    first.digitChar < second.digitChar := by
  have all : ∀ second : Fin 10, ∀ first : Fin 10, first < second →
      first.val.digitChar < second.val.digitChar := by decide
  exact all ⟨second, isDigit⟩ ⟨first, less.trans isDigit⟩ less

theorem padded_lt {width first second : Nat} (less : first < second)
    (bound : second < 10 ^ width) : padded width first < padded width second := by
  induction width generalizing first second with
  | zero =>
      rw [Nat.pow_zero] at bound
      omega
  | succ width inductionHypothesis =>
      rw [padded, padded]
      apply append_lt_append (by rw [length_padded, length_padded])
      rw [Nat.pow_succ] at bound
      rcases Nat.lt_or_ge (first / 10) (second / 10) with isLess | isNotLess
      · left
        exact inductionHypothesis isLess (by omega)
      · right
        have same : first / 10 = second / 10 := by omega
        have digits : (first % 10).digitChar < (second % 10).digitChar :=
          digitChar_lt (by omega) (Nat.mod_lt _ (by decide))
        rw [same, List.cons_lt_cons_iff]
        exact ⟨rfl, Or.inl digits⟩

/-! ### Dates and times -/

/-- `date.isoformat()`. -/
def Date.isoformat (date : Date) : List Char :=
  padded 4 date.year ++ ('-' :: (padded 2 date.month ++ '-' :: padded 2 date.day))

theorem Date.sameWidth_isoformat : SameWidth isoformat := by
  intro first second
  simp only [isoformat, List.length_append, List.length_cons, length_padded]

theorem Date.strictMono_isoformat : StrictMono isoformat := by
  intro first second less
  obtain ⟨-, yearLe, -, monthLe, -, -⟩ := second.valid
  have dayLe := second.day_le
  have lengths (width number other : Nat) :
      (padded width number).length = (padded width other).length := by
    rw [length_padded, length_padded]
  apply append_lt_append (lengths 4 _ _)
  rcases lt_iff_triple.mp less with year | ⟨sameYear, month | ⟨sameMonth, day⟩⟩
  · exact Or.inl (padded_lt year (by omega))
  · right
    refine ⟨congrArg (padded 4) sameYear, List.cons_lt_cons_iff.mpr (Or.inr ⟨rfl, ?_⟩)⟩
    exact append_lt_append (lengths 2 _ _) (Or.inl (padded_lt month (by omega)))
  · right
    refine ⟨congrArg (padded 4) sameYear, List.cons_lt_cons_iff.mpr (Or.inr ⟨rfl, ?_⟩)⟩
    apply append_lt_append (lengths 2 _ _)
    right
    refine ⟨congrArg (padded 2) sameMonth, List.cons_lt_cons_iff.mpr (Or.inr ⟨rfl, ?_⟩)⟩
    exact padded_lt day (by omega)

/-- A `datetime` in UTC. -/
structure DateTime where
  date : Date
  hour : Fin 24
  minute : Fin 60
  second : Fin 60
  microsecond : Fin 1000000
deriving DecidableEq

namespace DateTime

/-- The columns in the order in which times compare. -/
def columns (time : DateTime) : Date ×ₗ Fin 24 ×ₗ Fin 60 ×ₗ Fin 60 ×ₗ Fin 1000000 :=
  toLex (time.date, toLex (time.hour, toLex (time.minute, toLex (time.second, time.microsecond))))

theorem columns_injective : Function.Injective columns := by
  intro first second same
  cases first
  cases second
  simp only [columns, toLex_inj, Prod.mk.injEq] at same
  obtain ⟨rfl, rfl, rfl, rfl, rfl⟩ := same
  rfl

instance : LinearOrder DateTime := LinearOrder.lift' columns columns_injective

/-- Microseconds are written where there are some. -/
def fraction (microsecond : Fin 1000000) : List Char :=
  if microsecond.val = 0 then "+00:00".toList
  else '.' :: (padded 6 microsecond ++ "+00:00".toList)

/-- Two digits behind a separator. -/
def field (separator : Char) {bound : Nat} (number : Fin bound) : List Char :=
  separator :: padded 2 number

/-- `datetime.isoformat()`. -/
def isoformat (time : DateTime) : List Char :=
  time.date.isoformat ++ (field 'T' time.hour ++ (field ':' time.minute ++
    (field ':' time.second ++ fraction time.microsecond)))

theorem strictMono_fraction : StrictMono fraction := by
  intro first second less
  have notZero : second.val ≠ 0 := Nat.ne_zero_of_lt less
  unfold fraction
  rw [if_neg notZero]
  split
  · rw [show "+00:00".toList = '+' :: "00:00".toList from rfl, List.cons_lt_cons_iff]
    exact Or.inl (by decide)
  · rw [List.cons_lt_cons_iff]
    refine Or.inr ⟨rfl, append_lt_append ?_ (Or.inl (padded_lt less second.isLt))⟩
    rw [length_padded, length_padded]

theorem sameWidth_field (separator : Char) (bound : Nat) :
    SameWidth fun number : Fin bound => field separator number := by
  intro first second
  simp only [field, List.length_cons, length_padded]

theorem strictMono_field (separator : Char) {bound : Nat} (fits : bound ≤ 10 ^ 2) :
    StrictMono fun number : Fin bound => field separator number := by
  intro first second less
  exact List.cons_lt_cons_iff.mpr (Or.inr ⟨rfl, padded_lt less (second.isLt.trans_le fits)⟩)

/-- Times sort as their texts. -/
theorem strictMono_isoformat : StrictMono isoformat := by
  have seconds := strictMono_append (sameWidth_field ':' 60)
    (strictMono_field ':' (by decide)) strictMono_fraction
  have minutes := strictMono_append (sameWidth_field ':' 60)
    (strictMono_field ':' (by decide)) seconds
  have hours := strictMono_append (sameWidth_field 'T' 24)
    (strictMono_field 'T' (by decide)) minutes
  have times := strictMono_append Date.sameWidth_isoformat Date.strictMono_isoformat hours
  intro first second less
  have columnsLess : columns first < columns second := less
  have texts := times columnsLess
  simp only [columns, ofLex_toLex] at texts
  exact texts

end DateTime

end BubllioCrm.Foundations
