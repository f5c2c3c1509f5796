import BubllioCrm.Foundations.Decimals

/-!
Owns sums of twelfths in decimal arithmetic: each term is rounded to the
precision, and so is the sum after each addition. A sum that is shown with no
decimals may change only where the exact sum ends in a half.

A number of twelfths is a third of a unit in the last place away from what it is
rounded to, or none at all. The remainder by three tells which.
-/

namespace BubllioCrm.Foundations

def twelfths (number : Int) : ℚ :=
  number / 12

/-- The unit in the last place of a number of twelfths, and none for zero. -/
def unit (number : Int) : ℚ :=
  if number = 0 then 0 else ulp (twelfths number)

/-- How many thirds of a unit a number of twelfths is moved by when it is rounded. -/
def shift (number : Int) : Int :=
  if number % 3 = 1 then -1 else if number % 3 = 2 then 1 else 0

/-- The rounded terms, added one after the other. -/
def roundedSum (terms : List Int) : ℚ :=
  terms.foldl (fun amount term =>
    roundSignificant (amount + roundSignificant (twelfths term))) 0

variable {number sum term : Int} {terms : List Int}

/-! ### The unit in the last place -/

theorem twelfths_add (first second : Int) :
    twelfths (first + second) = twelfths first + twelfths second := by
  unfold twelfths
  push_cast
  ring

@[simp] theorem twelfths_zero : twelfths 0 = 0 := by
  simp [twelfths]

@[simp] theorem unit_zero : unit 0 = 0 :=
  rfl

theorem twelfths_pos (positive : 0 < number) : 0 < twelfths number := by
  have positiveRat : (0 : ℚ) < number := by exact_mod_cast positive
  unfold twelfths
  positivity

theorem unit_of_pos (positive : 0 < number) : unit number = ulp (twelfths number) :=
  if_neg positive.ne'

/-- Numbers below 10 ^ 26 have a unit of a hundredth or less. -/
theorem unit_eq_zpow (positive : 0 < number) (small : twelfths number < 10 ^ 26) :
    ∃ digits : Nat, Int.log 10 (twelfths number) = 25 - digits ∧
      unit number * (100 * 10 ^ digits) = 1 := by
  have valuePos := twelfths_pos positive
  have below : Int.log 10 (twelfths number) < 26 := by
    apply (Int.lt_zpow_iff_log_lt (by decide : 1 < 10) valuePos).mp
    exact_mod_cast small
  refine ⟨(25 - Int.log 10 (twelfths number)).toNat, by omega, ?_⟩
  have exponent : Int.log 10 (twelfths number) + 1 - precision =
      -2 - ((25 - Int.log 10 (twelfths number)).toNat : Int) := by
    unfold precision
    omega
  rw [unit_of_pos positive, ulp, abs_of_pos valuePos, exponent, zpow_sub₀ (by norm_num),
    zpow_natCast]
  field_simp
  norm_num

theorem unit_nonneg (number : Int) : 0 ≤ unit number := by
  unfold unit
  split
  · exact le_rfl
  · exact (ulp_pos _).le

theorem unit_pos (positive : 0 < number) : 0 < unit number := by
  rw [unit_of_pos positive]
  exact ulp_pos _

/-- The unit of a smaller number is the same, or a tenth of it at most. -/
theorem unit_eq_or_le (sumNonneg : 0 ≤ sum) (ordered : sum ≤ number) :
    unit sum = unit number ∨ unit sum ≤ unit number / 10 := by
  rcases sumNonneg.eq_or_lt with zero | sumPos
  · right
    rw [← zero, unit, if_pos rfl]
    have nonneg := unit_nonneg number
    positivity
  · have numberPos : 0 < number := by omega
    have valuesOrdered : twelfths sum ≤ twelfths number := by
      unfold twelfths
      gcongr
    have exponents := Int.log_mono_right (b := 10) (twelfths_pos sumPos) valuesOrdered
    rw [unit_of_pos sumPos, unit_of_pos numberPos, ulp, ulp, abs_of_pos (twelfths_pos sumPos),
      abs_of_pos (twelfths_pos numberPos)]
    rcases exponents.eq_or_lt with same | less
    · exact Or.inl (by rw [same])
    · right
      have shorter : Int.log 10 (twelfths sum) + 1 - precision ≤
          Int.log 10 (twelfths number) + 1 - precision - 1 := by omega
      calc
        (10 : ℚ) ^ (Int.log 10 (twelfths sum) + 1 - precision)
          ≤ 10 ^ (Int.log 10 (twelfths number) + 1 - precision - 1) :=
            zpow_le_zpow_right₀ (by norm_num) shorter
        _ = 10 ^ (Int.log 10 (twelfths number) + 1 - precision) / 10 := by
            rw [zpow_sub_one₀ (by norm_num), div_eq_mul_inv]

theorem unit_le (sumNonneg : 0 ≤ sum) (ordered : sum ≤ number) : unit sum ≤ unit number := by
  have nonneg := unit_nonneg number
  rcases unit_eq_or_le sumNonneg ordered with same | less
  · exact same.le
  · linarith

/-- A number of twelfths lies on the thirds of its unit. -/
theorem twelfths_onThirds (positive : 0 < number) (small : twelfths number < 10 ^ 26) :
    ∃ whole : Int, twelfths number = whole * unit number + number * unit number / 3 := by
  have ⟨digits, _, isUnit⟩ := unit_eq_zpow positive small
  have remainder : 25 * 10 ^ digits % 3 = 1 := by
    rw [Nat.mul_mod, Nat.pow_mod]
    norm_num
  have ⟨third, split⟩ : ∃ third, 25 * 10 ^ digits = 3 * third + 1 :=
    ⟨25 * 10 ^ digits / 3, by omega⟩
  have splitRat : (25 : ℚ) * 10 ^ digits = 3 * third + 1 := by exact_mod_cast split
  refine ⟨third * number, ?_⟩
  calc twelfths number
      = number / 12 * (unit number * (100 * 10 ^ digits)) := by rw [isUnit, mul_one]; rfl
    _ = number * unit number * (25 * 10 ^ digits) / 3 := by ring
    _ = _ := by
      rw [splitRat]
      push_cast
      ring

/-- A value at the right remainder by three is a whole number of units. -/
theorem onGrid_of_thirds (positive : 0 < number) (small : twelfths number < 10 ^ 26)
    {target : Int} (right : (number + target) % 3 = 0) :
    ∃ steps : Int, twelfths number + target * unit number / 3 = steps * unit number := by
  have ⟨whole, isSum⟩ := twelfths_onThirds positive small
  have third : number + target = 3 * ((number + target) / 3) := by omega
  have thirdRat : (number : ℚ) + target = 3 * ((number + target) / 3 : Int) := by
    exact_mod_cast third
  refine ⟨whole + (number + target) / 3, ?_⟩
  calc twelfths number + target * unit number / 3
      = whole * unit number + (number + target) * unit number / 3 := by
        rw [isSum]
        ring
    _ = _ := by
        rw [thirdRat]
        push_cast
        ring

theorem shift_right (number : Int) : (number + shift number) % 3 = 0 := by
  unfold shift
  split_ifs <;> omega

theorem shift_of_whole (third : number % 3 = 0) : shift number = 0 := by
  rw [shift, if_neg (by omega), if_neg (by omega)]

theorem shift_of_one (third : number % 3 = 1) : shift number = -1 := by
  rw [shift, if_pos third]

theorem shift_of_two (third : number % 3 = 2) : shift number = 1 := by
  rw [shift, if_neg (by omega), if_pos third]

theorem shift_cases (number : Int) :
    number % 3 = 0 ∧ shift number = 0 ∨ number % 3 = 1 ∧ shift number = -1 ∨
      number % 3 = 2 ∧ shift number = 1 := by
  rcases (by omega : number % 3 = 0 ∨ number % 3 = 1 ∨ number % 3 = 2) with whole | one | two
  · exact .inl ⟨whole, shift_of_whole whole⟩
  · exact .inr (.inl ⟨one, shift_of_one one⟩)
  · exact .inr (.inr ⟨two, shift_of_two two⟩)

/-- A number of twelfths is rounded to the nearest whole number of units. -/
theorem roundSignificant_twelfths (nonneg : 0 ≤ number) (small : twelfths number < 10 ^ 26) :
    roundSignificant (twelfths number) = twelfths number + shift number * unit number / 3 := by
  rcases nonneg.eq_or_lt with zero | positive
  · rw [← zero]
    simp [twelfths, unit, roundSignificant_zero]
  · have ⟨steps, onGrid⟩ := onGrid_of_thirds positive small (shift_right number)
    have unitPos := unit_pos positive
    have isUlp := unit_of_pos positive
    have shiftBound : |(shift number : ℚ)| ≤ 1 := by
      rcases shift_cases number with ⟨-, isShift⟩ | ⟨-, isShift⟩ | ⟨-, isShift⟩ <;>
        simp [isShift]
    rw [abs_le] at shiftBound
    rw [isUlp] at onGrid unitPos ⊢
    apply le_antisymm
    · exact roundSignificant_le_of_lt (by nlinarith) onGrid
    · exact le_roundSignificant_of_lt (by nlinarith) onGrid

/-! ### Powers of ten -/

def IsPower (number : Int) : Prop :=
  ∃ exponent : Int, twelfths number = 10 ^ exponent

/-- A power of ten is a whole number here. -/
theorem IsPower.mod (isPower : IsPower number) : number % 12 = 0 := by
  have ⟨exponent, same⟩ := isPower
  have scaled : (number : ℚ) = 12 * 10 ^ exponent := by
    rw [← same, twelfths]
    ring
  rcases le_or_gt 0 exponent with nonneg | negative
  · have ⟨digits, isDigits⟩ := Int.eq_ofNat_of_zero_le nonneg
    rw [isDigits, zpow_natCast] at scaled
    have whole : number = 12 * 10 ^ digits := by exact_mod_cast scaled
    omega
  · have positive : (0 : ℚ) < 10 ^ exponent := zpow_pos (by norm_num) _
    rcases (by omega : exponent = -1 ∨ exponent ≤ -2) with isTenth | lower
    · rw [isTenth] at scaled
      have tenfold : (number : ℚ) * 10 = 12 := by
        rw [scaled]
        norm_num
      have whole : number * 10 = 12 := by exact_mod_cast tenfold
      omega
    · have bound : (10 : ℚ) ^ exponent ≤ 10 ^ (-2 : Int) :=
        zpow_le_zpow_right₀ (by norm_num) lower
      norm_num at bound
      have below : (number : ℚ) < 1 := by linarith
      have above : (0 : ℚ) < number := by linarith
      have belowInt : number < 1 := by exact_mod_cast below
      have aboveInt : 0 < number := by exact_mod_cast above
      omega

/-- The gaps around a power of ten, from the largest power below a number. -/
def Gaps (number exponent : Int) : Prop :=
  twelfths number + 8 * unit number ≤ 10 ^ (exponent + 1) ∧
    (twelfths number = 10 ^ exponent ∨ 10 ^ exponent + 8 * unit number ≤ twelfths number)

/-- From one on, a power of ten is a whole number of twelfths. -/
theorem gaps_of_whole {length : Nat} (lower : (10 : ℚ) ^ length ≤ twelfths number)
    (upper : twelfths number < 10 ^ length * 10) (unitSmall : unit number ≤ 1 / 100) :
    Gaps number length := by
  have lowerInt : 12 * (10 : Int) ^ length ≤ number := by
    have scaled : 12 * (10 : ℚ) ^ length ≤ number := by
      unfold twelfths at lower
      linarith
    exact_mod_cast scaled
  have upperInt : number < 120 * (10 : Int) ^ length := by
    have scaled : (number : ℚ) < 120 * 10 ^ length := by
      unfold twelfths at upper
      linarith
    exact_mod_cast scaled
  have upperRat : (number : ℚ) + 1 ≤ 120 * 10 ^ length := by exact_mod_cast upperInt
  rw [Gaps, zpow_add_one₀ (by norm_num), zpow_natCast]
  unfold twelfths
  constructor
  · linarith
  · rcases lowerInt.eq_or_lt with same | more
    · left
      have sameRat : 12 * (10 : ℚ) ^ length = number := by exact_mod_cast same
      linarith
    · right
      have moreRat : 12 * (10 : ℚ) ^ length + 1 ≤ number := by exact_mod_cast more
      linarith

theorem gaps_of_tenths (lower : (10 : ℚ) ^ (-1 : Int) ≤ twelfths number)
    (upper : twelfths number < 10 ^ (-1 + 1 : Int)) (unitSmall : unit number ≤ 1 / 10 ^ 28) :
    Gaps number (-1) := by
  norm_num [Gaps, twelfths] at lower upper unitSmall ⊢
  have two : 1 < number := by
    have more : (1 : ℚ) < number := by linarith
    exact_mod_cast more
  have twelve : number < 12 := by
    have less : (number : ℚ) < 12 := by linarith
    exact_mod_cast less
  have twoRat : (2 : ℚ) ≤ number := by exact_mod_cast two
  have elevenRat : (number : ℚ) + 1 ≤ 12 := by exact_mod_cast twelve
  constructor
  · linarith
  · right
    linarith

theorem gaps_of_hundredths (positive : 0 < number)
    (upper : twelfths number < 10 ^ (-2 + 1 : Int)) (unitSmall : unit number ≤ 1 / 10 ^ 28) :
    Gaps number (-2) := by
  norm_num [Gaps, twelfths] at upper unitSmall ⊢
  have one : number < 2 := by
    have less : (number : ℚ) < 2 := by linarith
    exact_mod_cast less
  have oneRat : (number : ℚ) + 1 ≤ 2 := by exact_mod_cast one
  have positiveRat : (1 : ℚ) ≤ number := by exact_mod_cast positive
  constructor
  · linarith
  · right
    linarith

/-- Twelfths keep away from the powers of ten around them that they do not hit. -/
theorem power_gaps (positive : 0 < number) (small : twelfths number < 10 ^ 26) :
    Gaps number (Int.log 10 (twelfths number)) := by
  have ⟨digits, exponent, isUnit⟩ := unit_eq_zpow positive small
  have valuePos := twelfths_pos positive
  have lower : (10 : ℚ) ^ Int.log 10 (twelfths number) ≤ twelfths number := by
    exact_mod_cast Int.zpow_log_le_self (by decide : 1 < 10) valuePos
  have upper : twelfths number < 10 ^ (Int.log 10 (twelfths number) + 1) := by
    exact_mod_cast Int.lt_zpow_succ_log_self (by decide : 1 < 10) (twelfths number)
  have hundredth : -2 ≤ Int.log 10 (twelfths number) := by
    apply (Int.zpow_le_iff_le_log (by decide : 1 < 10) valuePos).mp
    have one : (1 : ℚ) ≤ number := by exact_mod_cast positive
    norm_num [twelfths]
    linarith
  rcases le_or_gt 0 (Int.log 10 (twelfths number)) with whole | fraction
  · have ⟨length, isLength⟩ := Int.eq_ofNat_of_zero_le whole
    have large : (1 : ℚ) ≤ 10 ^ digits := one_le_pow₀ (by norm_num)
    have unitSmall : unit number ≤ 1 / 100 := by
      rw [le_div_iff₀ (by norm_num)]
      nlinarith [unit_nonneg number]
    rw [isLength, zpow_natCast] at lower
    rw [isLength, zpow_add_one₀ (by norm_num), zpow_natCast] at upper
    rw [isLength]
    exact gaps_of_whole lower upper unitSmall
  · have large : (10 : ℚ) ^ 26 ≤ 10 ^ digits := pow_le_pow_right₀ (by norm_num) (by omega)
    have unitSmall : unit number ≤ 1 / 10 ^ 28 := by
      rw [le_div_iff₀ (by norm_num)]
      nlinarith [unit_nonneg number]
    rcases (by omega : Int.log 10 (twelfths number) = -1 ∨ Int.log 10 (twelfths number) = -2)
      with tenths | hundredths
    · rw [tenths] at lower upper ⊢
      exact gaps_of_tenths lower upper unitSmall
    · rw [hundredths] at upper ⊢
      exact gaps_of_hundredths positive upper unitSmall

theorem log_eq_of_between {value : ℚ} {exponent : Int} (lower : 10 ^ exponent ≤ value)
    (upper : value < 10 ^ (exponent + 1)) : Int.log 10 value = exponent := by
  have positive : 0 < value := lt_of_lt_of_le (zpow_pos (by norm_num) _) lower
  have atLeast :=
    (Int.zpow_le_iff_le_log (by decide : 1 < 10) positive).mp (by exact_mod_cast lower)
  have below := (Int.lt_zpow_iff_log_lt (by decide : 1 < 10) positive).mp (by exact_mod_cast upper)
  omega

/-- A value near a number of twelfths is rounded at the same place. Only below a
power of ten it is rounded at the place behind. -/
theorem ulp_near {value : ℚ} (positive : 0 < number) (small : twelfths number < 10 ^ 26)
    (near : |value - twelfths number| < 8 * unit number) :
    ulp value = unit number ∨
      IsPower number ∧ value < twelfths number ∧ ulp value = unit number / 10 := by
  have ⟨digits, exponent, isUnit⟩ := unit_eq_zpow positive small
  have ⟨upperGap, lowerGap⟩ := power_gaps positive small
  have unitPos := unit_pos positive
  rw [abs_lt] at near
  have scale : (10 : ℚ) ^ Int.log 10 (twelfths number) = unit number * 10 ^ 27 := by
    rw [unit_of_pos positive, ulp, abs_of_pos (twelfths_pos positive), ← zpow_natCast,
      ← zpow_add₀ (by norm_num)]
    congr 1
    unfold precision
    omega
  by_cases within : 10 ^ Int.log 10 (twelfths number) ≤ value
  · left
    have valuePos : 0 < value := lt_of_lt_of_le (zpow_pos (by norm_num) _) within
    rw [ulp, abs_of_pos valuePos, log_eq_of_between within (by linarith), unit_of_pos positive, ulp,
      abs_of_pos (twelfths_pos positive)]
  · right
    have isPower : twelfths number = 10 ^ Int.log 10 (twelfths number) := by
      rcases lowerGap with same | gap
      · exact same
      · linarith
    have lower : (10 : ℚ) ^ (Int.log 10 (twelfths number) - 1) ≤ value := by
      rw [zpow_sub_one₀ (by norm_num), scale]
      linarith
    have valuePos : 0 < value := lt_of_lt_of_le (zpow_pos (by norm_num) _) lower
    refine ⟨⟨_, isPower⟩, by linarith, ?_⟩
    rw [ulp, abs_of_pos valuePos, log_eq_of_between lower (by rw [sub_add_cancel]; linarith),
      unit_of_pos positive, ulp, abs_of_pos (twelfths_pos positive), sub_add_cancel, div_eq_mul_inv,
      ← zpow_sub_one₀ (by norm_num)]
    congr 1
    omega

/-! ### Rounding near a number of twelfths -/

/-- A value is rounded to one of the next values at the right remainder or above,
and just below a power of ten it keeps near. -/
theorem le_roundSignificant_near {value : ℚ} {target : Int} (positive : 0 < number)
    (small : twelfths number < 10 ^ 26) (near : |value - twelfths number| < 8 * unit number)
    (right : (number + target) % 3 = 0)
    (above : twelfths number + (target - 3 / 2) * unit number / 3 < value)
    (atPower : IsPower number → twelfths number - 7 / 60 * unit number ≤ value) :
    twelfths number + target * unit number / 3 ≤ roundSignificant value ∨
      IsPower number ∧ twelfths number - unit number / 6 ≤ roundSignificant value := by
  have ⟨steps, onGrid⟩ := onGrid_of_thirds positive small right
  rcases ulp_near positive small near with same | ⟨isPower, below, tenth⟩
  · left
    rw [← same] at onGrid above ⊢
    exact le_roundSignificant_of_lt (by linarith) onGrid
  · right
    have rounded := (abs_le.mp (abs_sub_roundSignificant_le value)).1
    have bound := atPower isPower
    rw [tenth] at rounded
    exact ⟨isPower, by linarith⟩

/-- A value is rounded to one of the values at the right remainder or below. -/
theorem roundSignificant_near_le {value : ℚ} {target : Int} (positive : 0 < number)
    (small : twelfths number < 10 ^ 26) (near : |value - twelfths number| < 8 * unit number)
    (right : (number + target) % 3 = 0) (noPower : ¬ IsPower number)
    (below : value < twelfths number + (target + 3 / 2) * unit number / 3) :
    roundSignificant value ≤ twelfths number + target * unit number / 3 := by
  have ⟨steps, onGrid⟩ := onGrid_of_thirds positive small right
  rcases ulp_near positive small near with same | ⟨isPower, -, -⟩
  · rw [← same] at onGrid below ⊢
    exact roundSignificant_le_of_lt (by linarith) onGrid
  · exact absurd isPower noPower

/-! ### Adding a term -/

/-- Four terms at most of which three have a rounded quotient, in the range of
amounts that leaves two decimals. -/
structure Modest (terms : List Int) : Prop where
  nonneg : ∀ term ∈ terms, 0 ≤ term
  small : twelfths terms.sum < 10 ^ 26
  few : terms.length ≤ 4
  inexact : terms.countP (· % 3 ≠ 0) ≤ 3

theorem sum_append_single (terms : List Int) (term : Int) :
    (terms ++ [term]).sum = terms.sum + term := by
  simp

theorem roundedSum_append (terms : List Int) (term : Int) :
    roundedSum (terms ++ [term]) =
      roundSignificant (roundedSum terms + roundSignificant (twelfths term)) := by
  simp [roundedSum]

theorem twelfths_mono {first second : Int} (ordered : first ≤ second) :
    twelfths first ≤ twelfths second := by
  unfold twelfths
  gcongr

theorem Modest.sum_nonneg (modest : Modest terms) : 0 ≤ terms.sum :=
  List.sum_nonneg modest.nonneg

theorem Modest.last_nonneg (modest : Modest (terms ++ [term])) : 0 ≤ term :=
  modest.nonneg term (by simp)

theorem Modest.init (modest : Modest (terms ++ [term])) : Modest terms := by
  have lastNonneg := modest.last_nonneg
  have small := modest.small
  have few := modest.few
  have inexact := modest.inexact
  rw [sum_append_single] at small
  rw [List.length_append] at few
  rw [List.countP_append] at inexact
  constructor
  · intro other member
    exact modest.nonneg other (List.mem_append_left _ member)
  · exact lt_of_le_of_lt (twelfths_mono (by omega)) small
  · omega
  · omega

/-- How far the value before the rounding is from the exact sum. -/
theorem add_error (termNonneg : 0 ≤ term) (termSmall : twelfths term < 10 ^ 26) (amount : ℚ)
    (sum : Int) :
    amount + roundSignificant (twelfths term) - twelfths (sum + term) =
      amount - twelfths sum + shift term * unit term / 3 := by
  rw [roundSignificant_twelfths termNonneg termSmall, twelfths_add]
  ring

theorem abs_shift_le (number : Int) : |(shift number : ℚ)| ≤ 1 := by
  rcases shift_cases number with ⟨-, isShift⟩ | ⟨-, isShift⟩ | ⟨-, isShift⟩ <;> simp [isShift]

theorem add_near {amount : ℚ} {count : Nat} (sumNonneg : 0 ≤ sum) (termNonneg : 0 ≤ term)
    (small : twelfths (sum + term) < 10 ^ 26)
    (near : |amount - twelfths sum| ≤ count * unit sum) :
    |amount + roundSignificant (twelfths term) - twelfths (sum + term)| ≤
      (count + 1 / 3) * unit (sum + term) := by
  have termSmall : twelfths term < 10 ^ 26 := lt_of_le_of_lt (twelfths_mono (by omega)) small
  have sumUnit : unit sum ≤ unit (sum + term) := unit_le sumNonneg (by omega)
  have termUnit : unit term ≤ unit (sum + term) := unit_le termNonneg (by omega)
  have shifted := abs_shift_le term
  have termUnitNonneg := unit_nonneg term
  have countNonneg : (0 : ℚ) ≤ count := Nat.cast_nonneg count
  rw [add_error termNonneg termSmall]
  rw [abs_le] at near shifted ⊢
  constructor <;> nlinarith

theorem within_of_near {value : ℚ} {count : Nat} (positive : 0 < number) (few : count ≤ 3)
    (near : |value - twelfths number| ≤ (count + 1 / 3) * unit number) :
    |value - twelfths number| < 8 * unit number := by
  have unitPos := unit_pos positive
  have fewRat : (count : ℚ) ≤ 3 := by exact_mod_cast few
  nlinarith

/-- After each step the sum is off by a unit for each term at most. -/
theorem roundedSum_near (modest : Modest terms) :
    |roundedSum terms - twelfths terms.sum| ≤ terms.length * unit terms.sum := by
  induction terms using List.reverseRecOn with
  | nil => simp [roundedSum, twelfths]
  | append_singleton terms term inductionHypothesis =>
      have termNonneg := modest.last_nonneg
      have sumNonneg := modest.init.sum_nonneg
      have small := modest.small
      have few := modest.few
      rw [sum_append_single] at small
      rw [List.length_append, List.length_singleton] at few
      rw [roundedSum_append, sum_append_single, List.length_append, List.length_singleton]
      have near := add_near sumNonneg termNonneg small (inductionHypothesis modest.init)
      rcases (add_nonneg sumNonneg termNonneg).eq_or_lt with zero | positive
      · rw [← zero, unit_zero, mul_zero, abs_nonpos_iff, twelfths_zero, sub_zero] at near
        rw [← zero, near, roundSignificant_zero]
        simp
      · have unitPos := unit_pos positive
        have within := within_of_near positive (by omega) near
        have rounded := abs_sub_roundSignificant_le
          (roundedSum terms + roundSignificant (twelfths term))
        have ulpLe : ulp (roundedSum terms + roundSignificant (twelfths term)) ≤
            unit (terms.sum + term) := by
          rcases ulp_near positive small within with same | ⟨-, -, tenth⟩
          · exact same.le
          · linarith
        rw [abs_le] at rounded near ⊢
        push_cast
        constructor <;> linarith

/-! ### Sums that are not rounded below a half -/

def error (terms : List Int) : ℚ :=
  roundedSum terms - twelfths terms.sum

/-- A partial sum and the term after it each lose a third of a unit, and the whole
sum has no more digits than the larger of the two. -/
def DropsThirds (terms : List Int) : Prop :=
  ∃ front term back, terms = front ++ term :: back ∧ front.sum % 3 = 1 ∧ term % 3 = 1 ∧
    unit (max front.sum term) = unit terms.sum

theorem DropsThirds.append (drops : DropsThirds terms)
    (same : unit terms.sum = unit (terms.sum + term)) : DropsThirds (terms ++ [term]) := by
  obtain ⟨front, dropped, back, split, frontThird, third, noCarry⟩ := drops
  refine ⟨front, dropped, back ++ [term], ?_, frontThird, third, ?_⟩
  · rw [split, List.append_assoc, List.cons_append]
  · rw [sum_append_single, noCarry, same]

/-- The sum ends no lower than the exact sum rounded once, or it is short by the
thirds that were dropped. -/
inductive Reached (terms : List Int) : Prop where
  | kept (above : shift terms.sum * unit terms.sum / 3 ≤ error terms ∨
      IsPower terms.sum ∧ -unit terms.sum / 6 ≤ error terms)
  | once (drops : DropsThirds terms) (third : terms.sum % 3 = 2)
      (inexact : 2 ≤ terms.countP (· % 3 ≠ 0)) (above : -5 / 2 * unit terms.sum / 3 ≤ error terms)
  | twice (drops : DropsThirds terms) (third : terms.sum % 3 = 0)
      (inexact : 3 ≤ terms.countP (· % 3 ≠ 0)) (above : -7 / 2 * unit terms.sum / 3 ≤ error terms)

theorem slack_of_kept (above : shift number * unit number / 3 ≤ error terms ∨
    IsPower number ∧ -unit number / 6 ≤ error terms) :
    (shift number - 1 / 2) * unit number / 3 ≤ error terms := by
  have unitNonneg := unit_nonneg number
  rcases above with above | ⟨isPower, above⟩
  · linarith
  · have whole := isPower.mod
    rw [shift_of_whole (by omega)]
    push_cast
    linarith

/-- Below a power of ten a unit is a tenth. -/
theorem unit_le_of_isPower (isPower : IsPower number) (sumNonneg : 0 ≤ sum) (less : sum < number) :
    unit sum ≤ unit number / 10 := by
  rcases unit_eq_or_le sumNonneg less.le with same | tenth
  · exfalso
    have numberPos : 0 < number := by omega
    have numberUnit := unit_pos numberPos
    have sumPos : 0 < sum := by
      rcases sumNonneg.eq_or_lt with zero | positive
      · rw [← zero, unit_zero] at same
        linarith
      · exact positive
    have valuePos := twelfths_pos sumPos
    have ⟨exponent, isExponent⟩ := isPower
    have below : twelfths sum < 10 ^ exponent := by
      rw [← isExponent]
      unfold twelfths
      gcongr
    have logLess := (Int.lt_zpow_iff_log_lt (by decide : 1 < 10) valuePos).mp
      (by exact_mod_cast below)
    have numberLog : Int.log 10 (twelfths number) = exponent := by
      rw [isExponent]
      exact_mod_cast Int.log_zpow (R := ℚ) (by decide : 1 < 10) exponent
    rw [unit_of_pos sumPos, unit_of_pos numberPos, ulp, ulp, abs_of_pos valuePos,
      abs_of_pos (twelfths_pos numberPos), numberLog] at same
    have sameExponent := zpow_right_injective₀ (by norm_num : (0 : ℚ) < 10) (by norm_num) same
    omega
  · exact tenth

/-- What one addition leaves of a lower bound. -/
theorem add_lower (bound : ℚ) (target : Int) (modest : Modest (terms ++ [term]))
    (termPos : 0 < term) (below : bound * unit terms.sum / 3 ≤ error terms)
    (right : (terms.sum + term + target) % 3 = 0)
    (clear : (target - 3 / 2) * unit (terms.sum + term) <
      bound * unit terms.sum + shift term * unit term)
    (carried : unit terms.sum ≤ unit (terms.sum + term) / 10 →
      unit term ≤ unit (terms.sum + term) / 10 →
      -7 / 20 * unit (terms.sum + term) ≤ bound * unit terms.sum + shift term * unit term) :
    target * unit (terms ++ [term]).sum / 3 ≤ error (terms ++ [term]) ∨
      IsPower (terms ++ [term]).sum ∧
        -unit (terms ++ [term]).sum / 6 ≤ error (terms ++ [term]) := by
  have sumNonneg := modest.init.sum_nonneg
  have small := modest.small
  have few := modest.few
  rw [sum_append_single] at small
  rw [List.length_append, List.length_singleton] at few
  have positive : 0 < terms.sum + term := by omega
  have unitPos := unit_pos positive
  have near := add_near sumNonneg termPos.le small (roundedSum_near modest.init)
  have within := within_of_near positive (by omega) near
  have termSmall : twelfths term < 10 ^ 26 := lt_of_le_of_lt (twelfths_mono (by omega)) small
  have offset := add_error termPos.le termSmall (roundedSum terms) terms.sum
  unfold error at below ⊢
  rw [sum_append_single, roundedSum_append]
  have rounded := le_roundSignificant_near positive small within right (by linarith) (by
    intro isPower
    rcases sumNonneg.eq_or_lt with zero | sumPos
    · have whole := isPower.mod
      have noShift : shift term = 0 := shift_of_whole (by omega)
      have noUnit : unit terms.sum = 0 := by rw [← zero, unit_zero]
      rw [noUnit] at below
      rw [noShift] at offset
      push_cast at offset
      linarith
    · have bound := carried (unit_le_of_isPower isPower sumNonneg (by omega))
        (unit_le_of_isPower isPower termPos.le (by omega))
      linarith)
  rcases rounded with above | ⟨isPower, above⟩
  · left
    linarith
  · right
    exact ⟨isPower, by linarith⟩

theorem roundSignificant_roundedSum (terms : List Int) :
    roundSignificant (roundedSum terms) = roundedSum terms := by
  induction terms using List.reverseRecOn with
  | nil => exact roundSignificant_zero
  | append_singleton terms term _ => rw [roundedSum_append, roundSignificant_idem]

theorem countP_append_single (third : term % 3 ≠ 0) :
    (terms ++ [term]).countP (· % 3 ≠ 0) = terms.countP (· % 3 ≠ 0) + 1 := by
  rw [List.countP_append, List.countP_singleton, if_pos (decide_eq_true third)]

theorem countP_append_third (third : term % 3 = 0) :
    (terms ++ [term]).countP (· % 3 ≠ 0) = terms.countP (· % 3 ≠ 0) := by
  have exact : ¬ decide (term % 3 ≠ 0) = true := by
    rw [decide_eq_true_iff, not_not]
    exact third
  rw [List.countP_append, List.countP_singleton, if_neg exact, add_zero]

theorem error_append_zero (terms : List Int) : error (terms ++ [0]) = error terms := by
  have sameSum : (terms ++ [0]).sum = terms.sum := by simp
  unfold error
  rw [sameSum, roundedSum_append, twelfths_zero, roundSignificant_zero, add_zero,
    roundSignificant_roundedSum]

/-- A term that is zero changes nothing. -/
theorem Reached.append_zero (reached : Reached terms) : Reached (terms ++ [0]) := by
  have sameSum : (terms ++ [0]).sum = terms.sum := by simp
  have sameError := error_append_zero terms
  have sameCount : (terms ++ [0]).countP (· % 3 ≠ 0) = terms.countP (· % 3 ≠ 0) :=
    countP_append_third rfl
  have sameUnit : unit terms.sum = unit (terms.sum + 0) := by rw [add_zero]
  cases reached with
  | kept above => exact .kept (by rwa [sameSum, sameError])
  | once drops third inexact above =>
      exact .once (drops.append sameUnit) (by rwa [sameSum]) (by rwa [sameCount])
        (by rwa [sameSum, sameError])
  | twice drops third inexact above =>
      exact .twice (drops.append sameUnit) (by rwa [sameSum]) (by rwa [sameCount])
        (by rwa [sameSum, sameError])

theorem sum_mod_of_countP_eq_zero (none : terms.countP (· % 3 ≠ 0) = 0) : terms.sum % 3 = 0 := by
  induction terms with
  | nil => rfl
  | cons first rest inductionHypothesis =>
      rw [List.countP_cons] at none
      have firstThird : first % 3 = 0 := by
        by_contra differs
        rw [if_pos (decide_eq_true differs)] at none
        omega
      have restThird := inductionHypothesis (by omega)
      rw [List.sum_cons]
      omega

/-- The larger addend has the unit of the sum, or both have smaller ones. -/
theorem carries_of_ne (sumNonneg : 0 ≤ sum) (termNonneg : 0 ≤ term)
    (carries : unit (max sum term) ≠ unit (sum + term)) :
    unit sum ≤ unit (sum + term) / 10 ∧ unit term ≤ unit (sum + term) / 10 := by
  have larger := (unit_eq_or_le (le_max_of_le_left sumNonneg)
    (max_le (by omega) (by omega) : max sum term ≤ sum + term)).resolve_left carries
  exact ⟨(unit_le sumNonneg (le_max_left _ _)).trans larger,
    (unit_le termNonneg (le_max_right _ _)).trans larger⟩

theorem slack_of_added (target : Int)
    (above : target * unit number / 3 ≤ error terms ∨
      IsPower number ∧ -unit number / 6 ≤ error terms) (low : target ≤ 0) :
    (target - 1 / 2) * unit number / 3 ≤ error terms := by
  have unitNonneg := unit_nonneg number
  have lowRat : (target : ℚ) ≤ 0 := by exact_mod_cast low
  rcases above with above | ⟨-, above⟩
  · linarith
  · nlinarith

/-- A sum that is rounded no lower than the exact one stays so, unless both
addends lose a third and none of them is carried. -/
theorem shift_clear {sumUnit termUnit wholeUnit : ℚ} (sumNonneg : 0 ≤ sumUnit)
    (sumLe : sumUnit ≤ wholeUnit) (termPos : 0 < termUnit) (termLe : termUnit ≤ wholeUnit)
    (carries : sum % 3 = 1 → term % 3 = 1 →
      sumUnit ≤ wholeUnit / 10 ∧ termUnit ≤ wholeUnit / 10) :
    (shift (sum + term) - 3 / 2) * wholeUnit <
        (shift sum - 1 / 2) * sumUnit + shift term * termUnit ∧
      (sumUnit ≤ wholeUnit / 10 → termUnit ≤ wholeUnit / 10 →
        -7 / 20 * wholeUnit ≤ (shift sum - 1 / 2) * sumUnit + shift term * termUnit) := by
  have whole := shift_cases (sum + term)
  rcases shift_cases sum with ⟨sumThird, sumShift⟩ | ⟨sumThird, sumShift⟩ | ⟨sumThird, sumShift⟩ <;>
    rcases shift_cases term with ⟨third, termShift⟩ | ⟨third, termShift⟩ | ⟨third, termShift⟩ <;>
    rw [sumShift, termShift]
  · have wholeShift : shift (sum + term) = 0 := by omega
    rw [wholeShift]
    push_cast
    constructor <;> intros <;> linarith
  · have wholeShift : shift (sum + term) = -1 := by omega
    rw [wholeShift]
    push_cast
    constructor <;> intros <;> linarith
  · have wholeShift : shift (sum + term) = 1 := by omega
    rw [wholeShift]
    push_cast
    constructor <;> intros <;> linarith
  · have wholeShift : shift (sum + term) = -1 := by omega
    rw [wholeShift]
    push_cast
    constructor <;> intros <;> linarith
  · have ⟨sumTenth, termTenth⟩ := carries sumThird third
    have wholeShift : shift (sum + term) = 1 := by omega
    rw [wholeShift]
    push_cast
    constructor <;> intros <;> linarith
  · have wholeShift : shift (sum + term) = 0 := by omega
    rw [wholeShift]
    push_cast
    constructor <;> intros <;> linarith
  · have wholeShift : shift (sum + term) = 1 := by omega
    rw [wholeShift]
    push_cast
    constructor <;> intros <;> linarith
  · have wholeShift : shift (sum + term) = 0 := by omega
    rw [wholeShift]
    push_cast
    constructor <;> intros <;> linarith
  · have wholeShift : shift (sum + term) = -1 := by omega
    rw [wholeShift]
    push_cast
    constructor <;> intros <;> linarith

section Append

variable (modest : Modest (terms ++ [term])) (termPos : 0 < term)
include modest termPos

theorem units_of_append :
    0 < unit (terms.sum + term) ∧ 0 ≤ unit terms.sum ∧ unit terms.sum ≤ unit (terms.sum + term) ∧
      0 < unit term ∧ unit term ≤ unit (terms.sum + term) := by
  have sumNonneg := modest.init.sum_nonneg
  exact ⟨unit_pos (by omega), unit_nonneg _, unit_le sumNonneg (by omega), unit_pos termPos,
    unit_le termPos.le (by omega)⟩

theorem Reached.append_kept (above : shift terms.sum * unit terms.sum / 3 ≤ error terms ∨
    IsPower terms.sum ∧ -unit terms.sum / 6 ≤ error terms) : Reached (terms ++ [term]) := by
  have ⟨wholePos, sumNonneg, sumLe, termUnitPos, termLe⟩ := units_of_append modest termPos
  have slack := slack_of_kept above
  by_cases drops : terms.sum % 3 = 1 ∧ term % 3 = 1 ∧
      unit (max terms.sum term) = unit (terms.sum + term)
  · obtain ⟨sumThird, third, noCarry⟩ := drops
    have sumShift := shift_of_one sumThird
    have termShift := shift_of_one third
    have inexact : terms.countP (· % 3 ≠ 0) ≠ 0 := by
      intro none
      have whole := sum_mod_of_countP_eq_zero none
      omega
    rw [sumShift] at slack
    push_cast at slack
    have added := add_lower (-3 / 2) (-2) modest termPos (by linarith) (by omega)
      (by rw [termShift]; push_cast; linarith) (by rw [termShift]; push_cast; intros; linarith)
    have low := slack_of_added (-2) added (by norm_num)
    apply Reached.once
    · exact ⟨terms, term, [], rfl, sumThird, third, by rw [sum_append_single, noCarry]⟩
    · rw [sum_append_single]
      omega
    · rw [countP_append_single (by omega)]
      omega
    · push_cast at low
      linarith
  · have carries (sumThird : terms.sum % 3 = 1) (third : term % 3 = 1) :=
      carries_of_ne modest.init.sum_nonneg termPos.le fun same => drops ⟨sumThird, third, same⟩
    have ⟨clear, carried⟩ := shift_clear sumNonneg sumLe termUnitPos termLe carries
    have added := add_lower (shift terms.sum - 1 / 2) (shift (terms.sum + term)) modest termPos
      slack (shift_right _) clear carried
    apply Reached.kept
    rwa [sum_append_single] at added ⊢

/-- Once two thirds are dropped, a carry makes up for them, a third term drops
another one, and a term that is rounded up makes up for one. -/
theorem Reached.append_once (drops : DropsThirds terms) (third : terms.sum % 3 = 2)
    (inexact : 2 ≤ terms.countP (· % 3 ≠ 0)) (above : -5 / 2 * unit terms.sum / 3 ≤ error terms) :
    Reached (terms ++ [term]) := by
  have ⟨wholePos, sumNonneg, sumLe, termUnitPos, termLe⟩ := units_of_append modest termPos
  have carries := unit_eq_or_le modest.init.sum_nonneg (by omega : terms.sum ≤ terms.sum + term)
  rcases shift_cases term with ⟨termThird, termShift⟩ | ⟨termThird, termShift⟩ |
    ⟨termThird, termShift⟩
  · rcases carries with same | tenth
    · have added := add_lower (-5 / 2) (-2) modest termPos above (by omega)
        (by rw [termShift]; push_cast; linarith) (by rw [termShift]; push_cast; intros; linarith)
      have low := slack_of_added (-2) added (by norm_num)
      apply Reached.once (drops.append same)
      · rw [sum_append_single]
        omega
      · rw [List.countP_append]
        omega
      · push_cast at low
        linarith
    · have added := add_lower (-5 / 2) 1 modest termPos above (by omega)
        (by rw [termShift]; push_cast; linarith) (by rw [termShift]; push_cast; intros; linarith)
      have wholeShift : shift (terms ++ [term]).sum = 1 := by
        rw [sum_append_single, shift_of_two (by omega)]
      apply Reached.kept
      rwa [wholeShift]
  · rcases carries with same | tenth
    · have added := add_lower (-5 / 2) (-3) modest termPos above (by omega)
        (by rw [termShift]; push_cast; linarith) (by rw [termShift]; push_cast; intros; linarith)
      have low := slack_of_added (-3) added (by norm_num)
      apply Reached.twice (drops.append same)
      · rw [sum_append_single]
        omega
      · rw [countP_append_single (by omega)]
        omega
      · push_cast at low
        linarith
    · have added := add_lower (-5 / 2) 0 modest termPos above (by omega)
        (by rw [termShift]; push_cast; linarith) (by rw [termShift]; push_cast; intros; linarith)
      have wholeShift : shift (terms ++ [term]).sum = 0 := by
        rw [sum_append_single, shift_of_whole (by omega)]
      apply Reached.kept
      rwa [wholeShift]
  · have added := add_lower (-5 / 2) (-1) modest termPos above (by omega)
      (by rw [termShift]; push_cast; linarith) (by rw [termShift]; push_cast; intros; linarith)
    have wholeShift : shift (terms ++ [term]).sum = -1 := by
      rw [sum_append_single, shift_of_one (by omega)]
    apply Reached.kept
    rwa [wholeShift]

theorem Reached.append_twice (drops : DropsThirds terms) (third : terms.sum % 3 = 0)
    (inexact : 3 ≤ terms.countP (· % 3 ≠ 0)) (above : -7 / 2 * unit terms.sum / 3 ≤ error terms) :
    Reached (terms ++ [term]) := by
  have ⟨wholePos, sumNonneg, sumLe, termUnitPos, termLe⟩ := units_of_append modest termPos
  have carries := unit_eq_or_le modest.init.sum_nonneg (by omega : terms.sum ≤ terms.sum + term)
  have exact : term % 3 = 0 := by
    by_contra differs
    have more := modest.inexact
    rw [countP_append_single differs] at more
    omega
  have termShift := shift_of_whole exact
  rcases carries with same | tenth
  · have added := add_lower (-7 / 2) (-3) modest termPos above (by omega)
      (by rw [termShift]; push_cast; linarith) (by rw [termShift]; push_cast; intros; linarith)
    have low := slack_of_added (-3) added (by norm_num)
    apply Reached.twice (drops.append same)
    · rw [sum_append_single]
      omega
    · rw [List.countP_append]
      omega
    · push_cast at low
      linarith
  · have added := add_lower (-7 / 2) 0 modest termPos above (by omega)
      (by rw [termShift]; push_cast; linarith) (by rw [termShift]; push_cast; intros; linarith)
    have wholeShift : shift (terms ++ [term]).sum = 0 := by
      rw [sum_append_single, shift_of_whole (by omega)]
    apply Reached.kept
    rwa [wholeShift]

end Append

/-- What the sum of any number of terms has reached. -/
theorem reached (modest : Modest terms) : Reached terms := by
  induction terms using List.reverseRecOn with
  | nil => exact .kept (Or.inl (by simp [error, roundedSum]))
  | append_singleton terms term inductionHypothesis =>
      rcases modest.last_nonneg.eq_or_lt with zero | termPos
      · rw [← zero]
        exact (inductionHypothesis modest.init).append_zero
      · cases inductionHypothesis modest.init with
        | kept above => exact Reached.append_kept modest termPos above
        | once drops third inexact above =>
            exact Reached.append_once modest termPos drops third inexact above
        | twice drops third inexact above =>
            exact Reached.append_twice modest termPos drops third inexact above

/-! ### Sums that are rounded below a half -/

/-- What one addition leaves of an upper bound. -/
theorem add_upper (bound : ℚ) (target : Int) (modest : Modest (terms ++ [term]))
    (termPos : 0 < term) (above : error terms ≤ bound * unit terms.sum / 3)
    (right : (terms.sum + term + target) % 3 = 0) (noPower : ¬ IsPower (terms.sum + term))
    (clear : bound * unit terms.sum + shift term * unit term <
      (target + 3 / 2) * unit (terms.sum + term)) :
    error (terms ++ [term]) ≤ target * unit (terms ++ [term]).sum / 3 := by
  have sumNonneg := modest.init.sum_nonneg
  have small := modest.small
  have few := modest.few
  rw [sum_append_single] at small
  rw [List.length_append, List.length_singleton] at few
  have positive : 0 < terms.sum + term := by omega
  have unitPos := unit_pos positive
  have near := add_near sumNonneg termPos.le small (roundedSum_near modest.init)
  have within := within_of_near positive (by omega) near
  have termSmall : twelfths term < 10 ^ 26 := lt_of_le_of_lt (twelfths_mono (by omega)) small
  have offset := add_error termPos.le termSmall (roundedSum terms) terms.sum
  unfold error at above ⊢
  rw [sum_append_single, roundedSum_append]
  have rounded := roundSignificant_near_le positive small within right noPower (by linarith)
  linarith

/-- Quotients that are not rounded add up to the exact sum. -/
theorem error_of_exact (modest : Modest terms) (none : terms.countP (· % 3 ≠ 0) = 0) :
    error terms = 0 := by
  induction terms using List.reverseRecOn with
  | nil => simp [error, roundedSum]
  | append_singleton terms term inductionHypothesis =>
      have small := modest.small
      have termNonneg := modest.last_nonneg
      have sumNonneg := modest.init.sum_nonneg
      have third := sum_mod_of_countP_eq_zero none
      have termThird : term % 3 = 0 := by
        by_contra differs
        rw [countP_append_single differs] at none
        omega
      rw [countP_append_third termThird] at none
      have before := inductionHypothesis modest.init none
      rw [sum_append_single] at small third
      have termSmall : twelfths term < 10 ^ 26 := lt_of_le_of_lt (twelfths_mono (by omega)) small
      have whole := roundSignificant_twelfths (add_nonneg sumNonneg termNonneg) small
      rw [shift_of_whole third] at whole
      have quotient := roundSignificant_twelfths termNonneg termSmall
      rw [shift_of_whole termThird] at quotient
      unfold error at before ⊢
      rw [sum_append_single, roundedSum_append, quotient, sub_eq_zero.mp before, Int.cast_zero,
        zero_mul, zero_div, add_zero, ← twelfths_add, whole]
      simp

/-- One quotient that is rounded down leaves the sum a third short. -/
theorem error_of_single (modest : Modest terms) (single : terms.countP (· % 3 ≠ 0) = 1)
    (third : terms.sum % 3 = 1) : error terms ≤ -1 * unit terms.sum / 3 := by
  induction terms using List.reverseRecOn with
  | nil => simp at third
  | append_singleton terms term inductionHypothesis =>
      rw [sum_append_single] at third
      have noPower : ¬ IsPower (terms.sum + term) := by
        intro isPower
        have whole := isPower.mod
        omega
      rcases modest.last_nonneg.eq_or_lt with zero | termPos
      · rw [← zero, error_append_zero, sum_append_single, add_zero]
        rw [← zero] at single third
        exact inductionHypothesis modest.init (by simpa using single) (by simpa using third)
      · have ⟨wholePos, sumNonneg, sumLe, termUnitPos, termLe⟩ := units_of_append modest termPos
        by_cases termThird : term % 3 = 0
        · rw [countP_append_third termThird] at single
          have bound := inductionHypothesis modest.init single (by omega)
          have noShift := shift_of_whole termThird
          have added := add_upper (-1) (-1) modest termPos bound (by omega) noPower
            (by rw [noShift]; push_cast; linarith)
          exact_mod_cast added
        · rw [countP_append_single termThird] at single
          have none : terms.countP (· % 3 ≠ 0) = 0 := by omega
          have before := error_of_exact modest.init none
          have sumThird := sum_mod_of_countP_eq_zero none
          have termShift : shift term = -1 := shift_of_one (by omega)
          have added := add_upper 0 (-1) modest termPos (by rw [before]; simp) (by omega) noPower
            (by rw [termShift]; push_cast; linarith)
          exact_mod_cast added

theorem not_isPower_of_unit_eq (same : unit sum = unit number) (sumNonneg : 0 ≤ sum)
    (less : sum < number) : ¬ IsPower number := by
  intro isPower
  have tenth := unit_le_of_isPower isPower sumNonneg less
  have positive := unit_pos (by omega : 0 < number)
  linarith

/-- Without a carry, the thirds that are dropped add up. -/
theorem error_of_split {front back : List Int} (modest : Modest (front ++ term :: back))
    (single : front.countP (· % 3 ≠ 0) = 1) (frontThird : front.sum % 3 = 1)
    (third : term % 3 = 1)
    (noCarry : unit (max front.sum term) = unit (front ++ term :: back).sum) :
    (back.countP (· % 3 ≠ 0) = 0 →
        error (front ++ term :: back) ≤ -2 * unit (front ++ term :: back).sum / 3) ∧
      (back.countP (· % 3 ≠ 0) = 1 → back.sum % 3 = 1 →
        error (front ++ term :: back) ≤ -3 * unit (front ++ term :: back).sum / 3) := by
  induction back using List.reverseRecOn with
  | nil =>
      have termNonneg := modest.last_nonneg
      have termPos : 0 < term := by omega
      have ⟨wholePos, sumNonneg, sumLe, termUnitPos, termLe⟩ := units_of_append modest termPos
      have bound := error_of_single modest.init single frontThird
      have termShift : shift term = -1 := by rw [shift, if_pos third]
      have noPower : ¬ IsPower (front.sum + term) := by
        intro isPower
        have whole := isPower.mod
        omega
      rw [sum_append_single] at noCarry
      have clear : -1 * unit front.sum + (shift term : ℚ) * unit term <
          ((-2 : Int) + 3 / 2) * unit (front.sum + term) := by
        rw [termShift]
        push_cast
        rcases max_choice front.sum term with isMax | isMax
        · rw [isMax] at noCarry
          linarith
        · rw [isMax] at noCarry
          linarith
      have added := add_upper (-1) (-2) modest termPos bound (by omega) noPower clear
      constructor
      · intro _
        exact_mod_cast added
      · intro impossible
        simp at impossible
  | append_singleton back last inductionHypothesis =>
      have split : front ++ term :: (back ++ [last]) = (front ++ term :: back) ++ [last] := by simp
      rw [split] at modest noCarry ⊢
      have initNonneg := modest.init.sum_nonneg
      have lastNonneg := modest.last_nonneg
      have termNonneg : 0 ≤ term := modest.init.nonneg term (by simp)
      have largerLe : max front.sum term ≤ (front ++ term :: back).sum := by
        have frontNonneg : 0 ≤ front.sum :=
          List.sum_nonneg fun other member => modest.init.nonneg other (by simp [member])
        have backNonneg : 0 ≤ back.sum :=
          List.sum_nonneg fun other member => modest.init.nonneg other (by simp [member])
        rw [List.sum_append, List.sum_cons]
        exact max_le (by omega) (by omega)
      have largerNonneg : 0 ≤ max front.sum term := le_max_of_le_right termNonneg
      rw [sum_append_single] at noCarry
      have sameInit : unit (max front.sum term) = unit (front ++ term :: back).sum := by
        apply le_antisymm (unit_le largerNonneg largerLe)
        rw [noCarry]
        exact unit_le initNonneg (by omega)
      have ⟨two, three⟩ := inductionHypothesis modest.init sameInit
      have same := sameInit.symm.trans noCarry
      rcases lastNonneg.eq_or_lt with zero | lastPos
      · rw [← zero, error_append_zero, sum_append_single, add_zero]
        simpa using And.intro two three
      · have ⟨wholePos, sumNonneg, sumLe, lastUnitPos, lastLe⟩ := units_of_append modest lastPos
        have noPower := not_isPower_of_unit_eq same initNonneg (by omega)
        have wholeSum : (front ++ term :: back).sum = front.sum + term + back.sum := by
          rw [List.sum_append, List.sum_cons]
          omega
        by_cases lastThird : last % 3 = 0
        · have noShift := shift_of_whole lastThird
          rw [countP_append_third lastThird]
          constructor
          · intro none
            have backThird := sum_mod_of_countP_eq_zero none
            have added := add_upper (-2) (-2) modest lastPos (two none) (by omega) noPower
              (by rw [noShift, same]; push_cast; linarith)
            exact_mod_cast added
          · intro single backThird
            rw [sum_append_single] at backThird
            have added := add_upper (-3) (-3) modest lastPos (three single (by omega)) (by omega)
              noPower (by rw [noShift, same]; push_cast; linarith)
            exact_mod_cast added
        · rw [countP_append_single lastThird]
          constructor
          · intro impossible
            omega
          · intro single backThird
            have none : back.countP (· % 3 ≠ 0) = 0 := by omega
            have initThird := sum_mod_of_countP_eq_zero none
            rw [sum_append_single] at backThird
            have lastShift : shift last = -1 := shift_of_one (by omega)
            have added := add_upper (-2) (-3) modest lastPos (two none) (by omega) noPower
              (by rw [lastShift, same]; push_cast; linarith)
            exact_mod_cast added

theorem countP_pos_of_sum (third : terms.sum % 3 ≠ 0) : 0 < terms.countP (· % 3 ≠ 0) := by
  by_contra none
  exact third (sum_mod_of_countP_eq_zero (by omega))

/-- A sum that loses three thirds is a unit short. -/
theorem error_of_dropsThirds (modest : Modest terms) (drops : DropsThirds terms)
    (whole : terms.sum % 3 = 0) : error terms ≤ -unit terms.sum := by
  obtain ⟨front, term, back, split, frontThird, third, noCarry⟩ := drops
  have wholeSum : terms.sum = front.sum + term + back.sum := by
    rw [split, List.sum_append, List.sum_cons]
    omega
  have counts : terms.countP (· % 3 ≠ 0) =
      front.countP (· % 3 ≠ 0) + (1 + back.countP (· % 3 ≠ 0)) := by
    rw [split, List.countP_append, List.countP_cons]
    simp [third, add_comm]
  have inexact := modest.inexact
  have frontPos : 0 < front.countP (· % 3 ≠ 0) := countP_pos_of_sum (by omega)
  have backPos : 0 < back.countP (· % 3 ≠ 0) := countP_pos_of_sum (by omega)
  subst split
  have bound := (error_of_split modest (by omega) frontThird third noCarry).2 (by omega) (by omega)
  linarith

/-- A sum that ends in a half is rounded to a half or more unless it loses three
thirds. -/
theorem twelfths_le_roundedSum_iff (modest : Modest terms) (tie : terms.sum % 12 = 6) :
    twelfths terms.sum ≤ roundedSum terms ↔ ¬ DropsThirds terms := by
  have positive : 0 < terms.sum := by
    have nonneg := modest.sum_nonneg
    omega
  have unitPos := unit_pos positive
  constructor
  · intro above drops
    have short := error_of_dropsThirds modest drops (by omega)
    unfold error at short
    linarith
  · intro keeps
    cases reached modest with
    | kept above =>
        have noShift : shift terms.sum = 0 := by rw [shift, if_neg (by omega), if_neg (by omega)]
        unfold error at above
        rcases above with above | ⟨isPower, -⟩
        · rw [noShift] at above
          push_cast at above
          linarith
        · have whole := isPower.mod
          omega
    | once drops third inexact above => exact absurd drops keeps
    | twice drops third inexact above => exact absurd drops keeps

theorem roundedSum_nonneg (nonneg : ∀ term ∈ terms, 0 ≤ term) : 0 ≤ roundedSum terms := by
  induction terms using List.reverseRecOn with
  | nil => exact le_rfl
  | append_singleton terms term inductionHypothesis =>
      have before := inductionHypothesis fun other member => nonneg other (by simp [member])
      have termNonneg : 0 ≤ term := nonneg term (by simp)
      have quotientNonneg := twelfths_mono termNonneg
      rw [twelfths_zero] at quotientNonneg
      rw [roundedSum_append]
      exact roundSignificant_nonneg (add_nonneg before (roundSignificant_nonneg quotientNonneg))

/-- What is added and rounded stays within half a twelfth of the exact sum. -/
theorem abs_error_lt (modest : Modest terms) : |error terms| < 1 / 24 := by
  have near := roundedSum_near modest
  have few : (terms.length : ℚ) ≤ 4 := by exact_mod_cast modest.few
  rcases modest.sum_nonneg.eq_or_lt with zero | positive
  · have noUnit : unit terms.sum = 0 := by rw [← zero, unit_zero]
    rw [noUnit, mul_zero] at near
    unfold error
    linarith
  · have ⟨digits, _, isUnit⟩ := unit_eq_zpow positive modest.small
    have large : (1 : ℚ) ≤ 10 ^ digits := one_le_pow₀ (by norm_num)
    have unitPos := unit_pos positive
    have unitSmall : unit terms.sum ≤ 1 / 100 := by
      rw [le_div_iff₀ (by norm_num)]
      nlinarith
    unfold error
    nlinarith

/-- The sum rounded to a whole number is the exact sum rounded, unless that ends in a
half and loses three thirds. -/
theorem roundHalfUp_roundedSum_iff (modest : Modest terms) :
    roundHalfUp (roundedSum terms) = roundHalfUp (twelfths terms.sum) ↔
      ¬ (terms.sum % 12 = 6 ∧ DropsThirds terms) := by
  have valueNonneg := twelfths_mono modest.sum_nonneg
  rw [twelfths_zero] at valueNonneg
  have sumNonneg := roundedSum_nonneg modest.nonneg
  have exact := roundHalfUp_isHalfUp valueNonneg
  have rounded := roundHalfUp_isHalfUp sumNonneg
  have close := abs_lt.mp (abs_error_lt modest)
  set whole := roundHalfUp (twelfths terms.sum)
  have lower : 12 * whole - 6 ≤ terms.sum := by
    have scaled : 12 * (whole : ℚ) - 6 ≤ terms.sum := by
      have below := exact.1
      unfold twelfths at below
      linarith
    exact_mod_cast scaled
  have upper : terms.sum + 1 ≤ 12 * whole + 6 := by
    have scaled : (terms.sum : ℚ) < 12 * whole + 6 := by
      have above := exact.2
      unfold twelfths at above
      linarith
    exact_mod_cast scaled
  have upperRat : (terms.sum : ℚ) + 1 ≤ 12 * whole + 6 := by exact_mod_cast upper
  unfold error at close
  have below : roundedSum terms < whole + 1 / 2 := by
    unfold twelfths at close
    linarith
  have same : roundHalfUp (roundedSum terms) = whole ↔ (whole : ℚ) - 1 / 2 ≤ roundedSum terms := by
    constructor
    · intro same
      exact same ▸ rounded.1
    · intro above
      exact rounded.unique ⟨above, below⟩
  rw [same]
  by_cases tie : terms.sum % 12 = 6
  · have half : terms.sum = 12 * whole - 6 := by omega
    have halfRat : (terms.sum : ℚ) = 12 * whole - 6 := by exact_mod_cast half
    have isHalf : twelfths terms.sum = whole - 1 / 2 := by
      rw [twelfths, halfRat]
      ring
    rw [← isHalf, twelfths_le_roundedSum_iff modest tie]
    simp [tie]
  · have more : 12 * whole - 5 ≤ terms.sum := by omega
    have moreRat : 12 * (whole : ℚ) - 5 ≤ terms.sum := by exact_mod_cast more
    simp only [tie, false_and, not_false_eq_true, iff_true]
    unfold twelfths at close
    linarith

end BubllioCrm.Foundations
