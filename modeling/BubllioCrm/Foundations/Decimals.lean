import BubllioCrm.Foundations.Rounding
import Mathlib.Data.Int.Log
import Mathlib.Data.Rat.Floor
import Mathlib.Algebra.Order.Round

/-!
Owns decimal arithmetic with a bounded number of significant digits: the unit in
the last place of a value, rounding to it with ties to even, and what that
rounding keeps.

A value is the rational number that a decimal denotes. Which digits are
significant does not depend on the place of the point, so a user may count in
any decimal unit.
-/

namespace BubllioCrm.Foundations

/-- The nearest whole number, the even one on a tie. -/
def roundHalfEven (value : ℚ) : Int :=
  if Int.fract value < 1 / 2 then ⌊value⌋
  else if 1 / 2 < Int.fract value then ⌊value⌋ + 1
  else if Even ⌊value⌋ then ⌊value⌋
  else ⌊value⌋ + 1

/-- The digits of a coefficient, the precision of the default context. -/
def precision : Int := 28

/-- The unit in the last place of a coefficient of full length. -/
def ulp (value : ℚ) : ℚ :=
  10 ^ (Int.log 10 |value| + 1 - precision)

/-- The value that an operation with the exact result `value` returns. -/
def roundSignificant (value : ℚ) : ℚ :=
  roundHalfEven (value / ulp value) * ulp value

/-- The signal that decimal arithmetic raises. -/
inductive DecimalError where
  | invalidOperation
deriving DecidableEq, Repr

/-- `quantize(Decimal("0.01"), rounding=ROUND_HALF_UP)` of a value in cents. -/
def quantize (value : ℚ) : Except DecimalError Int :=
  if |roundHalfUp value| < 10 ^ precision.toNat then .ok (roundHalfUp value)
  else .error .invalidOperation

/-- A coefficient of that many digits holds the amount. -/
def FitsDigits (digits : Nat) (amount : Int) : Prop :=
  |amount| < 10 ^ digits

instance (digits : Nat) : DecidablePred (FitsDigits digits) :=
  fun amount => inferInstanceAs (Decidable (|amount| < 10 ^ digits))

/-- `DecimalField.to_representation` of an amount in units of the last place: the
context of the field has its `max_digits` for precision. -/
def toRepresentation (digits : Nat) (amount : Int) : Except DecimalError Int :=
  if FitsDigits digits amount then .ok amount else .error .invalidOperation

theorem ulp_pos (value : ℚ) : 0 < ulp value :=
  zpow_pos (by norm_num) _

theorem quantize_eq_ok_iff {value : ℚ} {amount : Int} :
    quantize value = .ok amount ↔
      roundHalfUp value = amount ∧ |roundHalfUp value| < 10 ^ precision.toNat := by
  unfold quantize
  split
  · rename_i fits
    rw [Except.ok.injEq, and_iff_left fits]
  · rename_i large
    simp [large]

theorem toRepresentation_eq_ok_iff {digits : Nat} {amount shown : Int} :
    toRepresentation digits amount = .ok shown ↔ FitsDigits digits amount ∧ amount = shown := by
  unfold toRepresentation
  split
  · rename_i fits
    rw [Except.ok.injEq, and_iff_right fits]
  · rename_i large
    simp [large]

/-! ### Rounding to a whole number -/

theorem abs_sub_roundHalfEven_le (value : ℚ) : |(roundHalfEven value : ℚ) - value| ≤ 1 / 2 := by
  have split := Int.floor_add_fract value
  have nonneg := Int.fract_nonneg value
  have below := Int.fract_lt_one value
  unfold roundHalfEven
  rw [abs_le]
  split_ifs with low high even
  · constructor <;> linarith
  · push_cast
    constructor <;> linarith
  · constructor <;> linarith
  · push_cast
    constructor <;> linarith

theorem roundHalfEven_le {value : ℚ} {bound : Int} (below : value ≤ bound) :
    roundHalfEven value ≤ bound := by
  have near := (abs_le.mp (abs_sub_roundHalfEven_le value)).2
  have less : (roundHalfEven value : ℚ) < bound + 1 := by linarith
  exact Int.lt_add_one_iff.mp (by exact_mod_cast less)

theorem le_roundHalfEven {value : ℚ} {bound : Int} (above : bound ≤ value) :
    bound ≤ roundHalfEven value := by
  have near := (abs_le.mp (abs_sub_roundHalfEven_le value)).1
  have less : (bound : ℚ) < roundHalfEven value + 1 := by linarith
  exact Int.lt_add_one_iff.mp (by exact_mod_cast less)

theorem roundHalfEven_le_of_lt {value : ℚ} {bound : Int} (near : value < bound + 1 / 2) :
    roundHalfEven value ≤ bound := by
  have below := (abs_le.mp (abs_sub_roundHalfEven_le value)).2
  have less : (roundHalfEven value : ℚ) < bound + 1 := by linarith
  exact Int.lt_add_one_iff.mp (by exact_mod_cast less)

theorem le_roundHalfEven_of_lt {value : ℚ} {bound : Int} (near : bound - 1 / 2 < value) :
    bound ≤ roundHalfEven value := by
  have above := (abs_le.mp (abs_sub_roundHalfEven_le value)).1
  have less : (bound : ℚ) < roundHalfEven value + 1 := by linarith
  exact Int.lt_add_one_iff.mp (by exact_mod_cast less)

theorem roundHalfEven_intCast (number : Int) : roundHalfEven (number : ℚ) = number :=
  le_antisymm (roundHalfEven_le le_rfl) (le_roundHalfEven le_rfl)

/-! ### Rounding to significant digits -/

/-- A value is off by half a unit in the last place at most. -/
theorem abs_sub_roundSignificant_le (value : ℚ) :
    |roundSignificant value - value| ≤ ulp value / 2 := by
  have positive := ulp_pos value
  have near := abs_sub_roundHalfEven_le (value / ulp value)
  have scaled : roundSignificant value - value =
      ((roundHalfEven (value / ulp value) : ℚ) - value / ulp value) * ulp value := by
    rw [roundSignificant, sub_mul, div_mul_cancel₀ _ positive.ne']
  rw [scaled, abs_mul, abs_of_pos positive]
  nlinarith

theorem roundSignificant_zero : roundSignificant 0 = 0 := by
  have whole := roundHalfEven_intCast 0
  rw [Int.cast_zero] at whole
  rw [roundSignificant, zero_div, whole, Int.cast_zero, zero_mul]

/-- A bound with few digits bounds the rounded value too. -/
theorem roundSignificant_le {value bound : ℚ} {steps : Int} (below : value ≤ bound)
    (onGrid : bound = steps * ulp value) : roundSignificant value ≤ bound := by
  have positive := ulp_pos value
  rw [onGrid] at below ⊢
  have inSteps : value / ulp value ≤ steps := (div_le_iff₀ positive).mpr below
  exact mul_le_mul_of_nonneg_right (by exact_mod_cast roundHalfEven_le inSteps) positive.le

theorem le_roundSignificant {value bound : ℚ} {steps : Int} (above : bound ≤ value)
    (onGrid : bound = steps * ulp value) : bound ≤ roundSignificant value := by
  have positive := ulp_pos value
  rw [onGrid] at above ⊢
  have inSteps : (steps : ℚ) ≤ value / ulp value := (le_div_iff₀ positive).mpr above
  exact mul_le_mul_of_nonneg_right (by exact_mod_cast le_roundHalfEven inSteps) positive.le

/-- A value that is less than half a unit from a bound is not rounded past it. -/
theorem roundSignificant_le_of_lt {value bound : ℚ} {steps : Int}
    (near : value < bound + ulp value / 2) (onGrid : bound = steps * ulp value) :
    roundSignificant value ≤ bound := by
  have positive := ulp_pos value
  rw [onGrid] at near ⊢
  have inSteps : value / ulp value < steps + 1 / 2 := by
    rw [div_lt_iff₀ positive]
    linarith
  exact mul_le_mul_of_nonneg_right (by exact_mod_cast roundHalfEven_le_of_lt inSteps) positive.le

theorem le_roundSignificant_of_lt {value bound : ℚ} {steps : Int}
    (near : bound - ulp value / 2 < value) (onGrid : bound = steps * ulp value) :
    bound ≤ roundSignificant value := by
  have positive := ulp_pos value
  rw [onGrid] at near ⊢
  have inSteps : (steps : ℚ) - 1 / 2 < value / ulp value := by
    rw [lt_div_iff₀ positive]
    linarith
  exact mul_le_mul_of_nonneg_right (by exact_mod_cast le_roundHalfEven_of_lt inSteps) positive.le

theorem roundSignificant_nonneg {value : ℚ} (nonneg : 0 ≤ value) : 0 ≤ roundSignificant value := by
  have onGrid : (0 : ℚ) = ((0 : Int) : ℚ) * ulp value := by simp
  exact le_roundSignificant nonneg onGrid

theorem roundSignificant_nonpos {value : ℚ} (nonpos : value ≤ 0) : roundSignificant value ≤ 0 := by
  have onGrid : (0 : ℚ) = ((0 : Int) : ℚ) * ulp value := by simp
  exact roundSignificant_le nonpos onGrid

/-- A value with few digits is kept. -/
theorem roundSignificant_of_onGrid {value : ℚ} {steps : Int} (onGrid : value = steps * ulp value) :
    roundSignificant value = value :=
  le_antisymm (roundSignificant_le le_rfl onGrid) (le_roundSignificant le_rfl onGrid)

/-- Numbers that end at a place are multiples of a unit at or behind it. -/
theorem onGrid_of_place {value : ℚ} {place : Int} (number : Int)
    (behind : Int.log 10 |value| + 1 - precision ≤ place) :
    ∃ steps : Int, (number : ℚ) * 10 ^ place = steps * ulp value := by
  obtain ⟨shift, isShift⟩ := Int.le.dest behind
  refine ⟨number * 10 ^ shift, ?_⟩
  rw [← isShift, ulp, zpow_add₀ (by norm_num), zpow_natCast]
  push_cast
  ring

theorem log_lt_of_lt {value : ℚ} {place : Int} (small : |value| < 10 ^ place) :
    Int.log 10 |value| < place ∨ value = 0 := by
  by_cases isZero : value = 0
  · exact Or.inr isZero
  · left
    apply (Int.lt_zpow_iff_log_lt (by decide) (abs_pos.mpr isZero)).mp
    exact_mod_cast small

theorem log_behind {value : ℚ} {place : Int} (small : |value| < 10 ^ (place + precision))
    (lowPlace : -precision < place) : Int.log 10 |value| + 1 - precision ≤ place := by
  unfold precision at *
  rcases log_lt_of_lt small with below | isZero
  · omega
  · rw [isZero, abs_zero, Int.log_zero_right]
    omega

/-- Whole numbers are multiples of the unit of a value that is not too large. -/
theorem intCast_onGrid {value : ℚ} (small : |value| < 10 ^ precision) (number : Int) :
    ∃ steps : Int, (number : ℚ) = steps * ulp value := by
  have behind := log_behind (by rwa [zero_add]) (by decide)
  obtain ⟨steps, onGrid⟩ := onGrid_of_place number behind
  exact ⟨steps, by rw [← onGrid, zpow_zero, mul_one]⟩

/-- A value between zero and a whole number stays there. -/
theorem roundSignificant_between {value : ℚ} {bound : Int} (small : |(bound : ℚ)| < 10 ^ precision)
    (between : 0 ≤ value ∧ value ≤ bound ∨ bound ≤ value ∧ value ≤ 0) :
    0 ≤ roundSignificant value ∧ roundSignificant value ≤ bound ∨
      bound ≤ roundSignificant value ∧ roundSignificant value ≤ 0 := by
  rw [abs_lt] at small
  have valueSmall : |value| < 10 ^ precision := by
    rw [abs_lt]
    rcases between with ⟨nonneg, below⟩ | ⟨above, nonpos⟩
    · constructor <;> linarith
    · constructor <;> linarith
  obtain ⟨steps, onGrid⟩ := intCast_onGrid valueSmall bound
  rcases between with ⟨nonneg, below⟩ | ⟨above, nonpos⟩
  · exact Or.inl ⟨roundSignificant_nonneg nonneg, roundSignificant_le below onGrid⟩
  · exact Or.inr ⟨le_roundSignificant above onGrid, roundSignificant_nonpos nonpos⟩

/-- A number that ends at a place is kept when it is not too large. -/
theorem roundSignificant_of_place {number place : Int}
    (small : |(number : ℚ) * 10 ^ place| < 10 ^ (place + precision))
    (lowPlace : -precision < place) :
    roundSignificant ((number : ℚ) * 10 ^ place) = number * 10 ^ place := by
  obtain ⟨steps, onGrid⟩ := onGrid_of_place number (log_behind small lowPlace)
  exact roundSignificant_of_onGrid onGrid

theorem roundSignificant_intCast {number : Int} (small : |(number : ℚ)| < 10 ^ precision) :
    roundSignificant number = number := by
  obtain ⟨steps, onGrid⟩ := intCast_onGrid small number
  exact roundSignificant_of_onGrid onGrid

/-- The powers of ten around a value bound what it is rounded to. -/
theorem abs_roundSignificant_le (value : ℚ) :
    |roundSignificant value| ≤ 10 ^ (Int.log 10 |value| + 1) := by
  have below : |value| < 10 ^ (Int.log 10 |value| + 1) := by
    exact_mod_cast Int.lt_zpow_succ_log_self (by decide : 1 < 10) |value|
  have behind : Int.log 10 |value| + 1 - precision ≤ Int.log 10 |value| + 1 := by
    unfold precision
    omega
  have ⟨steps, onGrid⟩ := onGrid_of_place 1 behind
  rw [Int.cast_one, one_mul] at onGrid
  have mirrored : -(10 : ℚ) ^ (Int.log 10 |value| + 1) = ((-steps : Int) : ℚ) * ulp value := by
    rw [onGrid, Int.cast_neg, neg_mul]
  rw [abs_lt] at below
  exact abs_le.mpr ⟨le_roundSignificant below.1.le mirrored, roundSignificant_le below.2.le onGrid⟩

/-- A rounded value is not rounded again. -/
theorem roundSignificant_idem (value : ℚ) :
    roundSignificant (roundSignificant value) = roundSignificant value := by
  rcases (abs_roundSignificant_le value).lt_or_eq with below | same
  · rcases log_lt_of_lt below with shorter | isZero
    · have behind : Int.log 10 |roundSignificant value| + 1 - precision ≤
          Int.log 10 |value| + 1 - precision := by omega
      have ⟨steps, onGrid⟩ := onGrid_of_place (roundHalfEven (value / ulp value)) behind
      exact roundSignificant_of_onGrid onGrid
    · rw [isZero]
      exact roundSignificant_zero
  · have length : Int.log 10 |roundSignificant value| = Int.log 10 |value| + 1 := by
      rw [same]
      exact_mod_cast Int.log_zpow (R := ℚ) (by decide : 1 < 10) (Int.log 10 |value| + 1)
    have behind : Int.log 10 |roundSignificant value| + 1 - precision ≤
        Int.log 10 |value| + 1 := by
      unfold precision
      omega
    rcases eq_or_eq_neg_of_abs_eq same with isPower | isPower
    · have ⟨steps, onGrid⟩ := onGrid_of_place 1 behind
      rw [Int.cast_one, one_mul, ← isPower] at onGrid
      exact roundSignificant_of_onGrid onGrid
    · have ⟨steps, onGrid⟩ := onGrid_of_place (-1) behind
      rw [Int.cast_neg, Int.cast_one, neg_one_mul, ← isPower] at onGrid
      exact roundSignificant_of_onGrid onGrid

/-! ### Rounding a quotient twice -/

theorem ulp_le {value : ℚ} {place : Int} (small : |value| < 10 ^ place) (positive : 0 < place) :
    ulp value ≤ 10 ^ (place - precision) := by
  apply zpow_le_zpow_right₀ (by norm_num)
  rcases log_lt_of_lt small with below | isZero
  · omega
  · rw [isZero, abs_zero, Int.log_zero_right]
    omega

/-- The half between two whole numbers is a multiple of the unit. -/
theorem half_onGrid {value : ℚ} (small : |value| < 10 ^ (-1 + precision)) (number : Int) :
    ∃ steps : Int, (number : ℚ) + 1 / 2 = steps * ulp value := by
  obtain ⟨steps, onGrid⟩ := onGrid_of_place (10 * number + 5) (log_behind small (by decide))
  refine ⟨steps, ?_⟩
  rw [← onGrid]
  push_cast
  norm_num
  ring

/-- A quotient that is not a half keeps further away from it than the rounding moves it. -/
theorem roundSignificant_lt_half {number bound : Int} {divisor : Nat} (positive : 0 < divisor)
    (short : ulp ((number : ℚ) / divisor) * divisor < 1)
    (below : (number : ℚ) / divisor < bound + 1 / 2) :
    roundSignificant ((number : ℚ) / divisor) < bound + 1 / 2 := by
  have divisorPos : (0 : ℚ) < divisor := by exact_mod_cast positive
  have near := (abs_le.mp (abs_sub_roundSignificant_le ((number : ℚ) / divisor))).2
  have less : 2 * (number : ℚ) < (2 * bound + 1) * divisor := by
    rw [div_lt_iff₀ divisorPos] at below
    linarith
  have lessInt : 2 * number < (2 * bound + 1) * divisor := by exact_mod_cast less
  have gap : 2 * (number : ℚ) + 1 ≤ (2 * bound + 1) * divisor := by exact_mod_cast lessInt
  have split : (number : ℚ) = (number : ℚ) / divisor * divisor := by
    rw [div_mul_cancel₀ _ divisorPos.ne']
  nlinarith

theorem half_lt_roundSignificant {number bound : Int} {divisor : Nat} (positive : 0 < divisor)
    (short : ulp ((number : ℚ) / divisor) * divisor < 1)
    (above : (bound : ℚ) + 1 / 2 < (number : ℚ) / divisor) :
    (bound : ℚ) + 1 / 2 < roundSignificant ((number : ℚ) / divisor) := by
  have divisorPos : (0 : ℚ) < divisor := by exact_mod_cast positive
  have near := (abs_le.mp (abs_sub_roundSignificant_le ((number : ℚ) / divisor))).1
  have less : (2 * bound + 1) * divisor < 2 * (number : ℚ) := by
    rw [lt_div_iff₀ divisorPos] at above
    linarith
  have lessInt : (2 * bound + 1) * divisor < 2 * number := by exact_mod_cast less
  have gap : (2 * (bound : ℚ) + 1) * divisor + 1 ≤ 2 * number := by exact_mod_cast lessInt
  have split : (number : ℚ) = (number : ℚ) / divisor * divisor := by
    rw [div_mul_cancel₀ _ divisorPos.ne']
  nlinarith

/-- A quotient with few digits before the point is rounded half up to the same whole
number whether or not it is rounded to significant digits first. -/
theorem roundHalfUp_roundSignificant {number : Int} {divisor : Nat} (positive : 0 < divisor)
    (small : |(number : ℚ) / divisor| < 10 ^ (-1 + precision))
    (short : ulp ((number : ℚ) / divisor) * divisor < 1) :
    roundHalfUp (roundSignificant ((number : ℚ) / divisor)) =
      roundHalfUp ((number : ℚ) / divisor) := by
  rcases le_total 0 ((number : ℚ) / divisor) with nonneg | nonpos
  · have ⟨lower, upper⟩ := roundHalfUp_isHalfUp nonneg
    have ⟨steps, onGrid⟩ := half_onGrid small (roundHalfUp ((number : ℚ) / divisor) - 1)
    push_cast at onGrid
    have lowerKept := le_roundSignificant (by linarith) onGrid
    have upperKept := roundSignificant_lt_half positive short upper
    have rounded : IsHalfUp (roundHalfUp ((number : ℚ) / divisor))
        (roundSignificant ((number : ℚ) / divisor)) := ⟨by linarith, upperKept⟩
    exact (roundHalfUp_isHalfUp (roundSignificant_nonneg nonneg)).unique rounded
  · have mirroredNonneg : 0 ≤ -((number : ℚ) / divisor) := by linarith
    have ⟨lower, upper⟩ := roundHalfUp_isHalfUp mirroredNonneg
    rw [roundHalfUp_neg] at lower upper
    push_cast at lower upper
    have ⟨steps, onGrid⟩ := half_onGrid small (roundHalfUp ((number : ℚ) / divisor))
    have upperKept := roundSignificant_le (by linarith) onGrid
    have above : ((roundHalfUp ((number : ℚ) / divisor) - 1 : Int) : ℚ) + 1 / 2 <
        (number : ℚ) / divisor := by
      push_cast
      linarith
    have lowerKept := half_lt_roundSignificant positive short above
    push_cast at lowerKept
    have rounded : IsHalfUp (-roundHalfUp ((number : ℚ) / divisor))
        (-roundSignificant ((number : ℚ) / divisor)) := by
      constructor
      · push_cast
        linarith
      · push_cast
        linarith
    have roundedNonneg : 0 ≤ -roundSignificant ((number : ℚ) / divisor) := by
      have below := roundSignificant_nonpos nonpos
      linarith
    have same := (roundHalfUp_isHalfUp roundedNonneg).unique rounded
    rw [roundHalfUp_neg] at same
    omega

/-! ### Quotients and digits -/

/-- A value does not fall below a power of ten. -/
theorem le_abs_roundSignificant {value : ℚ} {place : Int} (large : 10 ^ place ≤ |value|) :
    10 ^ place ≤ |roundSignificant value| := by
  have nonzero : |value| ≠ 0 := (lt_of_lt_of_le (zpow_pos (by norm_num) place) large).ne'
  have lower : (10 : ℚ) ^ Int.log 10 |value| ≤ |value| := by
    exact_mod_cast Int.zpow_log_le_self (by decide : 1 < 10) (abs_pos.mpr (abs_ne_zero.mp nonzero))
  have placeLe : place ≤ Int.log 10 |value| := by
    apply (Int.zpow_le_iff_le_log (by decide) (abs_pos.mpr (abs_ne_zero.mp nonzero))).mp
    exact_mod_cast large
  have behind : Int.log 10 |value| + 1 - precision ≤ Int.log 10 |value| := by
    unfold precision
    omega
  have ⟨steps, onGrid⟩ := onGrid_of_place 1 behind
  rw [Int.cast_one, one_mul] at onGrid
  calc
    (10 : ℚ) ^ place ≤ 10 ^ Int.log 10 |value| := zpow_le_zpow_right₀ (by norm_num) placeLe
    _ ≤ |roundSignificant value| := by
      rcases le_total 0 value with nonneg | nonpos
      · rw [abs_of_nonneg nonneg] at lower onGrid ⊢
        exact (le_roundSignificant lower onGrid).trans (le_abs_self _)
      · rw [abs_of_nonpos nonpos] at lower onGrid ⊢
        have mirrored : -(10 : ℚ) ^ Int.log 10 (-value) = ((-steps : Int) : ℚ) * ulp value := by
          rw [onGrid, Int.cast_neg, neg_mul]
        have kept := roundSignificant_le (by linarith) mirrored
        exact (le_neg.mpr kept).trans (neg_le_abs _)

/-- A quotient with a short divisor is shown in as many digits as its exact value has
after rounding. -/
theorem quotient_fits_iff {number : Int} {divisor digits : Nat} (positive : 0 < divisor)
    (short : divisor < 10 ^ 14) (fewDigits : digits ≤ 12) :
    (∃ amount, quantize (roundSignificant ((number : ℚ) / divisor)) = .ok amount ∧
      FitsDigits digits amount) ↔ 2 * |number| < (2 * 10 ^ digits - 1) * divisor := by
  have divisorPos : (0 : ℚ) < divisor := by exact_mod_cast positive
  have shortRat : (divisor : ℚ) < 10 ^ 14 := by exact_mod_cast short
  have powerLe : (10 : ℚ) ^ digits ≤ 10 ^ 12 := pow_le_pow_right₀ (by norm_num) fewDigits
  have powerLeInt : (10 : Int) ^ digits ≤ 10 ^ 12 := pow_le_pow_right₀ (by norm_num) fewDigits
  have crossed : |(number : ℚ) / divisor| < 10 ^ digits - 1 / 2 ↔
      2 * |number| < (2 * 10 ^ digits - 1) * divisor := by
    rw [abs_div, abs_of_pos divisorPos, div_lt_iff₀ divisorPos, ← Int.cast_lt (R := ℚ)]
    push_cast
    constructor
    · intro less
      linarith
    · intro less
      linarith
  have inCents (value : ℚ) :
      FitsDigits digits (roundHalfUp value) ↔ |value| < 10 ^ digits - 1 / 2 := by
    have bound : |roundHalfUp value| < 10 ^ digits ↔ |value| < ((10 ^ digits : Int) : ℚ) - 1 / 2 :=
      abs_roundHalfUp_lt_iff
    push_cast at bound
    exact bound
  rw [← crossed]
  rcases lt_or_ge |(number : ℚ) / divisor| (10 ^ (13 : Int)) with small | large
  · have unitLe := ulp_le small (by norm_num)
    have unitShort : ulp ((number : ℚ) / divisor) * divisor < 1 := by
      calc
        _ ≤ (10 : ℚ) ^ (13 - precision) * 10 ^ 14 :=
          mul_le_mul unitLe shortRat.le divisorPos.le (zpow_nonneg (by norm_num) _)
        _ < 1 := by norm_num [precision]
    have wider : |(number : ℚ) / divisor| < 10 ^ (-1 + precision) :=
      small.trans (by norm_num [precision])
    have once := roundHalfUp_roundSignificant positive wider unitShort
    constructor
    · rintro ⟨amount, isAmount, fits⟩
      have ⟨rounded, _⟩ := quantize_eq_ok_iff.mp isAmount
      rw [once] at rounded
      exact (inCents _).mp (rounded ▸ fits)
    · intro less
      have fits := (inCents _).mpr less
      refine ⟨_, quantize_eq_ok_iff.mpr ⟨once, ?_⟩, fits⟩
      rw [once]
      have wide : (10 : Int) ^ 12 < 10 ^ precision.toNat := by decide
      exact (lt_of_lt_of_le fits powerLeInt).trans wide
  · constructor
    · rintro ⟨amount, isAmount, fits⟩
      have ⟨rounded, _⟩ := quantize_eq_ok_iff.mp isAmount
      have below := (inCents _).mp (rounded ▸ fits)
      have above := le_abs_roundSignificant large
      norm_num at above
      linarith
    · intro less
      norm_num at large
      linarith

/-! ### Amounts with a tax added -/

theorem fitsDigits_of_between {digits : Nat} {amount bound : Int} (fits : FitsDigits digits bound)
    (between : 0 ≤ amount ∧ amount ≤ bound ∨ bound ≤ amount ∧ amount ≤ 0) :
    FitsDigits digits amount := by
  unfold FitsDigits at *
  rw [abs_lt] at *
  omega

theorem gross_fits_of_nonneg (digits : Nat) {value rate : Int} (valueNonneg : 0 ≤ value)
    (rateNonneg : 0 ≤ rate) :
    FitsDigits digits (value + quantizeHalfUp (value * rate) 10000) ↔
      value * (10000 + rate) < 10 ^ (digits + 4) - 5000 := by
  have productNonneg : 0 ≤ value * rate := mul_nonneg valueNonneg rateNonneg
  have taxNonneg : 0 ≤ quantizeHalfUp (value * rate) 10000 := quantizeHalfUp_nonneg productNonneg
  unfold FitsDigits
  rw [abs_of_nonneg (by omega), quantizeHalfUp, if_pos productNonneg, mul_add, pow_add]
  omega

theorem tax_between (value : Int) {rate : Int} (rateNonneg : 0 ≤ rate) (rateLe : rate ≤ 10000) :
    0 ≤ quantizeHalfUp (value * rate) 10000 ∧ quantizeHalfUp (value * rate) 10000 ≤ value ∨
      value ≤ quantizeHalfUp (value * rate) 10000 ∧
        quantizeHalfUp (value * rate) 10000 ≤ 0 := by
  unfold quantizeHalfUp
  rcases le_total 0 value with nonneg | nonpos
  · have productNonneg : 0 ≤ value * rate := mul_nonneg nonneg rateNonneg
    have productLe : value * rate ≤ value * 10000 := mul_le_mul_of_nonneg_left rateLe nonneg
    rw [if_pos productNonneg]
    omega
  · have productNonpos : value * rate ≤ 0 := mul_nonpos_of_nonpos_of_nonneg nonpos rateNonneg
    have leProduct : value * 10000 ≤ value * rate := mul_le_mul_of_nonpos_left rateLe nonpos
    split <;> omega

/-- The gross amount has the digits of its field as long as it rounds to a smaller
number. -/
theorem gross_fits_iff {digits : Nat} {value rate : Int} (rateNonneg : 0 ≤ rate) :
    FitsDigits digits (value + quantizeHalfUp (value * rate) 10000) ↔
      |value| * (10000 + rate) < 10 ^ (digits + 4) - 5000 := by
  rcases le_total 0 value with nonneg | nonpos
  · rw [abs_of_nonneg nonneg]
    exact gross_fits_of_nonneg digits nonneg rateNonneg
  · have mirrored := gross_fits_of_nonneg digits (neg_nonneg.mpr nonpos) rateNonneg
    rw [neg_mul, quantizeHalfUp_neg _ (by norm_num), ← neg_add, FitsDigits, abs_neg] at mirrored
    rw [abs_of_nonpos nonpos, FitsDigits, mirrored, neg_mul]

end BubllioCrm.Foundations
