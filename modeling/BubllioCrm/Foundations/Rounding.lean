import Mathlib.Data.Rat.Cast.Order
import Mathlib.Tactic.Linarith
import Mathlib.Tactic.FieldSimp
import Mathlib.Tactic.Positivity
import Mathlib.Tactic.NormNum

/-!
Owns rounding to the nearest unit with ties away from zero, the mode
`ROUND_HALF_UP` of decimal arithmetic, and its specification over the
rationals.
-/

namespace BubllioCrm.Foundations

/-- The exact quotient of the arguments rounded half up to a whole number. -/
def quantizeHalfUp (numerator : Int) (denominator : Nat) : Int :=
  if 0 ≤ numerator then (2 * numerator + denominator) / (2 * denominator)
  else -((2 * -numerator + denominator) / (2 * denominator))

/-- `rounded` is the nearest whole number to a non-negative value, the upper
one on a tie. -/
def IsHalfUp (rounded : Int) (value : ℚ) : Prop :=
  (rounded : ℚ) - 1 / 2 ≤ value ∧ value < rounded + 1 / 2

theorem IsHalfUp.unique {first second : Int} {value : ℚ}
    (firstRounds : IsHalfUp first value) (secondRounds : IsHalfUp second value) :
    first = second := by
  have below : (first : ℚ) < second + 1 := by linarith [firstRounds.1, secondRounds.2]
  have above : (second : ℚ) < first + 1 := by linarith [firstRounds.2, secondRounds.1]
  have below' : first < second + 1 := by exact_mod_cast below
  have above' : second < first + 1 := by exact_mod_cast above
  omega

theorem quantizeHalfUp_isHalfUp (numerator : Int) (denominator : Nat)
    (nonneg : 0 ≤ numerator) (positive : 0 < denominator) :
    IsHalfUp (quantizeHalfUp numerator denominator) ((numerator : ℚ) / denominator) := by
  unfold quantizeHalfUp
  rw [if_pos nonneg]
  set quotient := (2 * numerator + denominator) / (2 * denominator : Int) with quotientEq
  have widthPos : (0 : Int) < 2 * denominator := by omega
  have lower : 2 * (denominator : Int) * quotient ≤ 2 * numerator + denominator :=
    Int.mul_ediv_self_le widthPos.ne'
  have upper : 2 * numerator + denominator < 2 * (denominator : Int) * quotient + 2 * denominator :=
    Int.lt_mul_ediv_self_add widthPos
  have lowerRat : 2 * (denominator : ℚ) * quotient ≤ 2 * numerator + denominator := by
    exact_mod_cast lower
  have upperRat :
      2 * (numerator : ℚ) + denominator < 2 * denominator * quotient + 2 * denominator := by
    exact_mod_cast upper
  have denominatorPos : (0 : ℚ) < denominator := by exact_mod_cast positive
  constructor
  · rw [le_div_iff₀ denominatorPos]
    linarith
  · rw [div_lt_iff₀ denominatorPos]
    linarith

theorem quantizeHalfUp_nonneg {numerator : Int} {denominator : Nat} (nonneg : 0 ≤ numerator) :
    0 ≤ quantizeHalfUp numerator denominator := by
  unfold quantizeHalfUp
  rw [if_pos nonneg]
  exact Int.ediv_nonneg (by omega) (by omega)

/-- Rounding half up treats both signs alike. -/
theorem quantizeHalfUp_neg (numerator : Int) {denominator : Nat} (positive : 0 < denominator) :
    quantizeHalfUp (-numerator) denominator = -quantizeHalfUp numerator denominator := by
  have small : (denominator : Int) / (2 * denominator) = 0 :=
    Int.ediv_eq_zero_of_lt (by omega) (by omega)
  unfold quantizeHalfUp
  rcases lt_trichotomy numerator 0 with negative | rfl | above
  · rw [if_pos (by omega), if_neg (by omega), neg_neg]
  · simp [small]
  · rw [if_neg (by omega), if_pos (by omega), neg_neg]

/-! ### Rational values -/

/-- A value rounded half up to a whole number. -/
def roundHalfUp (value : ℚ) : Int :=
  quantizeHalfUp value.num value.den

theorem roundHalfUp_isHalfUp {value : ℚ} (nonneg : 0 ≤ value) :
    IsHalfUp (roundHalfUp value) value := by
  have rounded :=
    quantizeHalfUp_isHalfUp value.num value.den (Rat.num_nonneg.mpr nonneg) value.den_pos
  rw [Rat.num_div_den] at rounded
  exact rounded

theorem roundHalfUp_neg (value : ℚ) : roundHalfUp (-value) = -roundHalfUp value := by
  unfold roundHalfUp
  rw [Rat.num_neg_eq_neg_num, Rat.den_neg_eq_den, quantizeHalfUp_neg _ value.den_pos]

theorem roundHalfUp_nonneg {value : ℚ} (nonneg : 0 ≤ value) : 0 ≤ roundHalfUp value :=
  quantizeHalfUp_nonneg (Rat.num_nonneg.mpr nonneg)

/-- A quotient need not be in lowest terms. -/
theorem roundHalfUp_div (numerator : Int) {denominator : Nat} (positive : 0 < denominator) :
    roundHalfUp ((numerator : ℚ) / denominator) = quantizeHalfUp numerator denominator := by
  have ofNonneg (numerator : Int) (nonneg : 0 ≤ numerator) :
      roundHalfUp ((numerator : ℚ) / denominator) = quantizeHalfUp numerator denominator := by
    have quotientNonneg : (0 : ℚ) ≤ (numerator : ℚ) / denominator := by positivity
    exact (roundHalfUp_isHalfUp quotientNonneg).unique
      (quantizeHalfUp_isHalfUp numerator denominator nonneg positive)
  rcases le_total 0 numerator with nonneg | negative
  · exact ofNonneg numerator nonneg
  · have mirrored := ofNonneg (-numerator) (by omega)
    rw [quantizeHalfUp_neg _ positive, Int.cast_neg, neg_div, roundHalfUp_neg] at mirrored
    omega

theorem roundHalfUp_intCast (number : Int) : roundHalfUp (number : ℚ) = number := by
  have whole := roundHalfUp_div number Nat.one_pos
  rw [Nat.cast_one, div_one] at whole
  rw [whole, quantizeHalfUp]
  split <;> omega

theorem roundHalfUp_le {value : ℚ} {bound : Int} (nonneg : 0 ≤ value) (below : value ≤ bound) :
    roundHalfUp value ≤ bound := by
  have rounded := (roundHalfUp_isHalfUp nonneg).1
  have less : (roundHalfUp value : ℚ) < bound + 1 := by linarith
  exact Int.lt_add_one_iff.mp (by exact_mod_cast less)

theorem roundHalfUp_between {value : ℚ} {bound : Int}
    (between : 0 ≤ value ∧ value ≤ bound ∨ bound ≤ value ∧ value ≤ 0) :
    0 ≤ roundHalfUp value ∧ roundHalfUp value ≤ bound ∨
      bound ≤ roundHalfUp value ∧ roundHalfUp value ≤ 0 := by
  rcases between with ⟨nonneg, below⟩ | ⟨above, nonpos⟩
  · left
    exact ⟨roundHalfUp_nonneg nonneg, roundHalfUp_le nonneg below⟩
  · right
    have mirroredNonneg : 0 ≤ -value := by linarith
    have mirroredLe : roundHalfUp (-value) ≤ -bound :=
      roundHalfUp_le mirroredNonneg (by push_cast; linarith)
    have nonneg := roundHalfUp_nonneg mirroredNonneg
    rw [roundHalfUp_neg] at nonneg mirroredLe
    omega

theorem abs_roundHalfUp (value : ℚ) : |roundHalfUp value| = roundHalfUp |value| := by
  rcases le_total 0 value with nonneg | nonpos
  · rw [abs_of_nonneg nonneg, abs_of_nonneg (roundHalfUp_nonneg nonneg)]
  · have mirrored := roundHalfUp_nonneg (neg_nonneg.mpr nonpos)
    rw [roundHalfUp_neg] at mirrored
    rw [abs_of_nonpos nonpos, roundHalfUp_neg, abs_of_nonpos (by omega)]

/-- A value rounds below a whole number when it lies below the half before it. -/
theorem abs_roundHalfUp_lt_iff {value : ℚ} {bound : Int} :
    |roundHalfUp value| < bound ↔ |value| < bound - 1 / 2 := by
  have ⟨lower, upper⟩ := roundHalfUp_isHalfUp (abs_nonneg value)
  rw [abs_roundHalfUp]
  constructor
  · intro less
    have lessRat : ((roundHalfUp |value| + 1 : Int) : ℚ) ≤ bound := by exact_mod_cast less
    push_cast at lessRat
    linarith
  · intro less
    have lessRat : ((roundHalfUp |value| : Int) : ℚ) < bound := by linarith
    exact_mod_cast lessRat

theorem abs_roundHalfUp_sub_le (value : ℚ) : |(roundHalfUp value : ℚ) - value| ≤ 1 / 2 := by
  have ofNonneg {value : ℚ} (nonneg : 0 ≤ value) : |(roundHalfUp value : ℚ) - value| ≤ 1 / 2 := by
    have ⟨lower, upper⟩ := roundHalfUp_isHalfUp nonneg
    exact abs_le.mpr ⟨by linarith, by linarith⟩
  rcases le_total 0 value with nonneg | nonpos
  · exact ofNonneg nonneg
  · have mirrored := ofNonneg (neg_nonneg.mpr nonpos)
    rw [roundHalfUp_neg, Int.cast_neg, neg_sub_neg, abs_sub_comm] at mirrored
    exact mirrored

end BubllioCrm.Foundations
