import BubllioCrm.Deals.Amounts

/-!
Owns the split of the value of a deal into a net amount and a tax: the amounts
add up, and each is the exact rational amount rounded half up, although the
program divides with a bounded number of digits before it rounds to cents.
-/

namespace BubllioCrm.Deals

open BubllioCrm.Foundations

/-- The amounts of a deal in cents, beside the exact amounts they stand for. -/
structure SplitsInto (deal : Deal) (net tax gross : Int) : Prop where
  netValue : deal.netValue = .ok net
  taxValue : deal.taxValue = .ok tax
  grossValue : deal.grossValue = .ok gross
  sum : net + tax = gross
  excluded : ¬ deal.amountIncludesTax →
    tax = roundHalfUp ((deal.value : ℚ) * (deal.taxRate / 10000))
  included : deal.amountIncludesTax →
    net = roundHalfUp ((deal.value : ℚ) / (1 + deal.taxRate / 10000))
  near : deal.amountIncludesTax → |(tax : ℚ) - net * (deal.taxRate / 10000)| ≤ 1

variable {deal : Deal}

/-! ### The divisor -/

/-- The divisor has few digits, so it is exact. -/
theorem divisor_eq (inRange : deal.InRange) :
    roundSignificant (1 + roundSignificant ((deal.taxRate : ℚ) / 10000)) =
      ((10000 + deal.taxRate.toNat : Nat) : ℚ) / 10000 := by
  have nonneg := inRange.rateNonneg
  have le := inRange.rateLe
  have inTenThousandths (number : Int) : (number : ℚ) / 10000 = number * 10 ^ (-4 : Int) := by
    norm_num [div_eq_mul_inv]
  have kept {number : Int} (numberNonneg : 0 ≤ number) (numberLe : number ≤ 20000) :
      roundSignificant ((number : ℚ) / 10000) = number / 10000 := by
    have nonnegRat : (0 : ℚ) ≤ number := by exact_mod_cast numberNonneg
    have leRat : (number : ℚ) ≤ 20000 := by exact_mod_cast numberLe
    have small : |(number : ℚ) * 10 ^ (-4 : Int)| < 10 ^ (-4 + precision) := by
      rw [← inTenThousandths, abs_of_nonneg (by positivity)]
      norm_num [precision]
      linarith
    rw [inTenThousandths, roundSignificant_of_place small (by decide)]
  have isNat : ((10000 + deal.taxRate.toNat : Nat) : ℚ) = ((10000 + deal.taxRate : Int) : ℚ) := by
    have isInt : ((10000 + deal.taxRate.toNat : Nat) : Int) = 10000 + deal.taxRate := by omega
    exact_mod_cast congrArg (Int.cast : Int → ℚ) isInt
  have sum : 1 + (deal.taxRate : ℚ) / 10000 = ((10000 + deal.taxRate : Int) : ℚ) / 10000 := by
    push_cast
    ring
  rw [kept nonneg (by omega), sum, kept (by omega) (by omega), isNat]

/-! ### Amounts that include the tax -/

/-- The quotient is a fraction whose denominator is small. -/
theorem quotient_eq (value : Int) (divisor : Nat) :
    (value : ℚ) / ((divisor : ℚ) / 10000) = ((value * 10000 : Int) : ℚ) / divisor := by
  push_cast
  rw [div_div_eq_mul_div]

theorem exact_eq (inRange : deal.InRange) :
    (deal.value : ℚ) / (1 + deal.taxRate / 10000) =
      ((deal.value * 10000 : Int) : ℚ) / (10000 + deal.taxRate.toNat : Nat) := by
  have isInt : ((deal.taxRate.toNat : Nat) : Int) = deal.taxRate :=
    Int.toNat_of_nonneg inRange.rateNonneg
  have isRat : ((deal.taxRate.toNat : Nat) : ℚ) = deal.taxRate := by exact_mod_cast isInt
  rw [← quotient_eq]
  push_cast
  rw [isRat]
  congr 1
  ring

theorem abs_quotient_lt (inRange : deal.InRange) :
    |((deal.value * 10000 : Int) : ℚ) / (10000 + deal.taxRate.toNat : Nat)| < 10 ^ (14 : Int) := by
  have digits : |(deal.value : ℚ)| < 10 ^ 14 := by exact_mod_cast inRange.digits
  have divisorLe : (10000 : ℚ) ≤ (10000 + deal.taxRate.toNat : Nat) := by
    exact_mod_cast Nat.le_add_right 10000 _
  have divisorPos : (0 : ℚ) < (10000 + deal.taxRate.toNat : Nat) := by linarith
  rw [abs_div, abs_of_pos divisorPos, div_lt_iff₀ divisorPos, Int.cast_mul, abs_mul]
  calc
    |(deal.value : ℚ)| * |((10000 : Int) : ℚ)| < 10 ^ 14 * 10000 := by
      rw [Int.cast_ofNat, abs_of_pos (by norm_num : (0 : ℚ) < 10000)]
      linarith
    _ ≤ 10 ^ (14 : Int) * (10000 + deal.taxRate.toNat : Nat) := by
      norm_num at divisorLe ⊢
      linarith

/-- No quotient of the range lies so close to half a cent that the digits decide. -/
theorem netValue_of_included (inRange : deal.InRange) (included : deal.amountIncludesTax) :
    deal.netValue = .ok (roundHalfUp ((deal.value : ℚ) / (1 + deal.taxRate / 10000))) := by
  have ⟨net, isNet, _⟩ := netValue_between inRange included
  have small := abs_quotient_lt inRange
  have wider : |((deal.value * 10000 : Int) : ℚ) / (10000 + deal.taxRate.toNat : Nat)| <
      10 ^ (-1 + precision) := small.trans (by norm_num [precision])
  have short : ulp (((deal.value * 10000 : Int) : ℚ) / (10000 + deal.taxRate.toNat : Nat)) *
      (10000 + deal.taxRate.toNat : Nat) < 1 := by
    have unitLe := ulp_le small (by norm_num)
    have rateLe := inRange.rateLe
    have divisorLe : ((10000 + deal.taxRate.toNat : Nat) : ℚ) ≤ 20000 := by
      exact_mod_cast (by omega : 10000 + deal.taxRate.toNat ≤ 20000)
    calc
      _ ≤ (10 : ℚ) ^ (14 - precision) * 20000 :=
        mul_le_mul unitLe divisorLe (Nat.cast_nonneg _) (zpow_nonneg (by norm_num) _)
      _ < 1 := by norm_num [precision]
  have once := roundHalfUp_roundSignificant (by omega) wider short
  have returned := isNet
  unfold Deal.netValue at isNet
  rw [if_neg (not_not_intro included)] at isNet
  dsimp only at isNet
  rw [divisor_eq inRange, quotient_eq, quantize_eq_ok_iff, once] at isNet
  rw [returned, exact_eq inRange, isNet.1]

/-- The tax is what the net amount leaves: it is off by the rounding of the net amount
and by the tax on that, which is not more. -/
theorem tax_near (inRange : deal.InRange) (value : ℚ) :
    |value - roundHalfUp (value / (1 + deal.taxRate / 10000)) -
      roundHalfUp (value / (1 + deal.taxRate / 10000)) * (deal.taxRate / 10000)| ≤ 1 := by
  have rateNonneg : (0 : ℚ) ≤ deal.taxRate := by exact_mod_cast inRange.rateNonneg
  have rateLe : (deal.taxRate : ℚ) ≤ 10000 := by exact_mod_cast inRange.rateLe
  set divisor : ℚ := 1 + deal.taxRate / 10000 with isDivisor
  have divisorPos : 0 < divisor := by positivity
  have divisorLe : divisor ≤ 2 := by linarith
  have off := abs_roundHalfUp_sub_le (value / divisor)
  have exact : value = value / divisor * divisor := (div_mul_cancel₀ _ divisorPos.ne').symm
  have scaled : value - roundHalfUp (value / divisor) -
      roundHalfUp (value / divisor) * (deal.taxRate / 10000) =
        -((roundHalfUp (value / divisor) - value / divisor) * divisor) := by
    rw [sub_mul, ← exact, isDivisor]
    ring
  rw [scaled, abs_neg, abs_mul, abs_of_pos divisorPos]
  calc
    _ ≤ 1 / 2 * 2 := mul_le_mul off divisorLe divisorPos.le (by norm_num)
    _ = 1 := by norm_num

/-! ### Amounts without the tax -/

theorem taxValue_ok_of_not_included (inRange : deal.InRange) (apart : ¬ deal.amountIncludesTax) :
    deal.taxValue = .ok (roundHalfUp ((deal.value : ℚ) * (deal.taxRate / 10000))) := by
  have between := tax_between deal.value inRange.rateNonneg inRange.rateLe
  have taxFits := fitsDigits_of_between inRange.digits between
  have rounded : roundHalfUp (((deal.value * deal.taxRate : Int) : ℚ) / 10000) =
      quantizeHalfUp (deal.value * deal.taxRate) 10000 :=
    roundHalfUp_div (deal.value * deal.taxRate) (by norm_num : 0 < 10000)
  rw [taxValue_of_not_included inRange apart, quantize_of_fits (by rwa [rounded]), ← mul_div_assoc,
    Int.cast_mul]

/-! ### The split -/

/-- The exact net amount, rounded half up to cents. -/
def Deal.netAmount (deal : Deal) : Int :=
  if deal.amountIncludesTax then roundHalfUp ((deal.value : ℚ) / (1 + deal.taxRate / 10000))
  else deal.value

theorem netValue_eq (inRange : deal.InRange) :
    deal.netValue = .ok deal.netAmount ∧ FitsDigits 14 deal.netAmount := by
  unfold Deal.netAmount
  by_cases included : deal.amountIncludesTax
  · have isNet := netValue_of_included inRange included
    have ⟨net, isBetween, between⟩ := netValue_between inRange included
    rw [isNet, Except.ok.injEq] at isBetween
    rw [if_pos included, isBetween]
    exact ⟨isBetween ▸ isNet, fitsDigits_of_between inRange.digits between⟩
  · rw [if_neg included]
    exact ⟨if_pos included, inRange.digits⟩

/-- The amounts add up, and each is rounded once. -/
theorem tax_split (deal : Deal) (inRange : deal.InRange) :
    ∃ net tax gross, SplitsInto deal net tax gross := by
  by_cases included : deal.amountIncludesTax
  · have isNet := netValue_of_included inRange included
    refine ⟨_, _, deal.value, isNet, ?_, if_pos included, add_sub_cancel _ _, absurd included,
      fun _ => rfl, fun _ => ?_⟩
    · unfold Deal.taxValue
      rw [if_pos included, isNet]
      rfl
    · push_cast
      exact tax_near inRange deal.value
  · have isTax := taxValue_ok_of_not_included inRange included
    refine ⟨deal.value, _, _, if_pos included, isTax, ?_, rfl, fun _ => rfl,
      fun isIncluded => absurd isIncluded included, fun isIncluded => absurd isIncluded included⟩
    unfold Deal.grossValue
    rw [if_neg included, isTax]
    rfl

theorem tax_split_included : ∃ net tax gross,
    SplitsInto { savedDeal 62000 with amountIncludesTax := true } net tax gross :=
  tax_split _ ⟨by decide, by decide, by decide⟩

end BubllioCrm.Deals
