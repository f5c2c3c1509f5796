import BubllioCrm.Deals.Locking
import BubllioCrm.Foundations.Decimals
import BubllioCrm.Foundations.Fallible

/-!
Owns the amounts that a deal derives from its value and its tax rate, the fields
of `DealSerializer` that show them, and which accepted deals they fit.

Amounts are cents. A sum of two stored amounts is exact, as it stays far below
the precision.
-/

namespace BubllioCrm.Deals

open BubllioCrm.Companies BubllioCrm.Foundations

namespace Deal

def netValue (deal : Deal) : Except DecimalError Int :=
  if ¬ deal.amountIncludesTax then .ok deal.value
  else
    let divisor := roundSignificant (1 + roundSignificant ((deal.taxRate : ℚ) / 10000))
    quantize (roundSignificant (deal.value / divisor))

def taxValue (deal : Deal) : Except DecimalError Int :=
  if deal.amountIncludesTax then do
    let net ← deal.netValue
    return deal.value - net
  else
    let product := roundSignificant ((deal.value : ℚ) * deal.taxRate)
    quantize (roundSignificant (product / 10000))

def grossValue (deal : Deal) : Except DecimalError Int :=
  if deal.amountIncludesTax then .ok deal.value
  else do
    let tax ← deal.taxValue
    return deal.value + tax

end Deal

/-- What the serializer shows of the amounts of a deal. -/
structure Amounts where
  value : Int
  taxRate : Int
  netValue : Int
  taxValue : Int
  grossValue : Int
deriving DecidableEq

def represent (deal : Deal) : Except DecimalError Amounts := do
  let value ← toRepresentation 14 deal.value
  let taxRate ← toRepresentation 5 deal.taxRate
  let netValue ← deal.netValue >>= toRepresentation 14
  let taxValue ← deal.taxValue >>= toRepresentation 14
  let grossValue ← deal.grossValue >>= toRepresentation 14
  return ⟨value, taxRate, netValue, taxValue, grossValue⟩

/-- `DealSerializer(deals, many=True).data`. -/
def representAll (deals : List Deal) : Except DecimalError (List Amounts) :=
  deals.mapM represent

def Deal.Serialises (deal : Deal) : Prop :=
  ∃ amounts, represent deal = .ok amounts

/-- The deal serialises, and so does every list that adds it to deals that do. -/
structure Deal.ReadsBack (deal : Deal) : Prop where
  alone : deal.Serialises
  listed : ∀ deals : List Deal, (∀ other ∈ deals, other ≠ deal → other.Serialises) →
    ∃ amounts, representAll deals = .ok amounts

/-- The deals that a create or a PATCH request saves once the serializer has
accepted its payload. -/
inductive Accepted (related : Related) (organization : Nat) : Deal → Prop where
  | created {attrs : DealAttrs} {id now : Nat} {deal : Deal}
      (digits : attrs.value.all (FitsDigits 14 ·))
      (valid : validate related organization none attrs = .ok attrs)
      (isRow : attrs.toRow id organization now = some deal) :
      Accepted related organization deal
  | patched {attrs : DealAttrs} {stored : Deal}
      (digits : attrs.value.all (FitsDigits 14 ·))
      (valid : validate related organization (some stored) attrs = .ok attrs)
      (storedDigits : FitsDigits 14 stored.value) :
      Accepted related organization (attrs.setOn stored)

variable {related : Related} {organization : Nat} {deal : Deal}

/-! ### Accepted deals -/

theorem rate_of_validate {stored : Option Deal} {attrs accepted : DealAttrs}
    (valid : validate related organization stored attrs = .ok accepted) :
    0 ≤ attrs.taxRate.getD ((stored.map Deal.taxRate).getD 2400) ∧
      attrs.taxRate.getD ((stored.map Deal.taxRate).getD 2400) ≤ 10000 := by
  unfold validate at valid
  dsimp only at valid
  split_ifs at valid with company contact owner rate currency reason
  omega

theorem toRow_amounts {attrs : DealAttrs} {id now : Nat}
    (isRow : attrs.toRow id organization now = some deal) :
    deal.value = attrs.value.getD 0 ∧ deal.taxRate = attrs.taxRate.getD 2400 := by
  simp only [DealAttrs.toRow, Option.bind_eq_bind, Option.bind_eq_some_iff, Option.pure_def,
    Option.some.injEq] at isRow
  obtain ⟨company, -, title, -, rfl⟩ := isRow
  exact ⟨rfl, rfl⟩

theorem fitsDigits_getD {value : Option Int} {stored : Int}
    (digits : value.all (FitsDigits 14 ·)) (storedDigits : FitsDigits 14 stored) :
    FitsDigits 14 (value.getD stored) := by
  cases value with
  | none => exact storedDigits
  | some value => exact of_decide_eq_true digits

/-- What the model relies on: the value has the digits of its column, and the
rate is a percentage. -/
structure Deal.InRange (deal : Deal) : Prop where
  digits : FitsDigits 14 deal.value
  rateNonneg : 0 ≤ deal.taxRate
  rateLe : deal.taxRate ≤ 10000

theorem Accepted.inRange (accepted : Accepted related organization deal) : deal.InRange := by
  cases accepted with
  | created digits valid isRow =>
      have rate := rate_of_validate valid
      have amounts := toRow_amounts isRow
      constructor
      · rw [amounts.1]
        exact fitsDigits_getD digits (by decide)
      · exact amounts.2 ▸ rate.1
      · exact amounts.2 ▸ rate.2
  | patched digits valid storedDigits =>
      have rate := rate_of_validate valid
      exact ⟨fitsDigits_getD digits storedDigits, rate.1, rate.2⟩

theorem Deal.InRange.rateFits (inRange : deal.InRange) : FitsDigits 5 deal.taxRate := by
  have nonneg := inRange.rateNonneg
  have le := inRange.rateLe
  unfold FitsDigits
  rw [abs_lt]
  omega

/-! ### Amounts that include the tax -/

theorem quantize_of_fits {value : ℚ} (fits : FitsDigits 14 (roundHalfUp value)) :
    quantize value = .ok (roundHalfUp value) := by
  unfold FitsDigits at fits
  have large : (10 : Int) ^ 14 < 10 ^ precision.toNat := by decide
  exact if_pos (fits.trans large)

/-- The divisor does not fall below one. -/
theorem one_le_divisor (inRange : deal.InRange) :
    1 ≤ roundSignificant (1 + roundSignificant ((deal.taxRate : ℚ) / 10000)) := by
  have rateNonneg : (0 : ℚ) ≤ (deal.taxRate : ℚ) / 10000 := by
    have nonneg : (0 : ℚ) ≤ deal.taxRate := by exact_mod_cast inRange.rateNonneg
    positivity
  have rateLe : (deal.taxRate : ℚ) / 10000 ≤ 1 := by
    have le : (deal.taxRate : ℚ) ≤ 10000 := by exact_mod_cast inRange.rateLe
    linarith
  set rate := (deal.taxRate : ℚ) / 10000
  have shareNonneg : 0 ≤ roundSignificant rate := roundSignificant_nonneg rateNonneg
  have small : |rate| < 10 ^ precision := by
    rw [abs_of_nonneg rateNonneg]
    exact lt_of_le_of_lt rateLe (by norm_num [precision])
  have shareLe : roundSignificant rate ≤ 1 := by
    obtain ⟨steps, onGrid⟩ := intCast_onGrid small 1
    exact roundSignificant_le rateLe (by exact_mod_cast onGrid)
  have sumSmall : |1 + roundSignificant rate| < 10 ^ precision := by
    have le : 1 + roundSignificant rate ≤ 2 := by linarith
    rw [abs_of_nonneg (by linarith)]
    exact lt_of_le_of_lt le (by norm_num [precision])
  obtain ⟨steps, onGrid⟩ := intCast_onGrid sumSmall 1
  exact le_roundSignificant (by linarith) (by exact_mod_cast onGrid)

/-- The quotient lies between zero and the value. -/
theorem netValue_between (inRange : deal.InRange) (included : deal.amountIncludesTax) :
    ∃ net, deal.netValue = .ok net ∧
      (0 ≤ net ∧ net ≤ deal.value ∨ deal.value ≤ net ∧ net ≤ 0) := by
  have divisorLarge := one_le_divisor inRange
  unfold Deal.netValue
  rw [if_neg (not_not_intro included)]
  dsimp only
  set divisor := roundSignificant (1 + roundSignificant ((deal.taxRate : ℚ) / 10000))
  have divisorPos : 0 < divisor := by linarith
  have digits : |(deal.value : ℚ)| < 10 ^ precision := by
    have fits : |(deal.value : ℚ)| < 10 ^ 14 := by exact_mod_cast inRange.digits
    exact fits.trans (by norm_num [precision])
  have quotientBetween : (0 : ℚ) ≤ deal.value / divisor ∧ deal.value / divisor ≤ deal.value ∨
      deal.value ≤ deal.value / divisor ∧ deal.value / divisor ≤ 0 := by
    rcases le_total 0 deal.value with nonneg | nonpos
    · left
      have valueNonneg : (0 : ℚ) ≤ deal.value := by exact_mod_cast nonneg
      exact ⟨div_nonneg valueNonneg divisorPos.le, div_le_self valueNonneg divisorLarge⟩
    · right
      have valueNonpos : (deal.value : ℚ) ≤ 0 := by exact_mod_cast nonpos
      refine ⟨?_, div_nonpos_of_nonpos_of_nonneg valueNonpos divisorPos.le⟩
      rw [le_div_iff₀ divisorPos]
      nlinarith
  have between := roundHalfUp_between (roundSignificant_between digits quotientBetween)
  exact ⟨_, quantize_of_fits (fitsDigits_of_between inRange.digits between), between⟩

/-- A deal whose value includes the tax shows no amount beyond its value. -/
theorem serialises_of_included (inRange : deal.InRange) (included : deal.amountIncludesTax) :
    deal.Serialises := by
  obtain ⟨net, isNet, between⟩ := netValue_between inRange included
  have rateFits := inRange.rateFits
  have netFits := fitsDigits_of_between inRange.digits between
  have taxFits : FitsDigits 14 (deal.value - net) := fitsDigits_of_between inRange.digits (by omega)
  refine ⟨⟨deal.value, deal.taxRate, net, deal.value - net, deal.value⟩, ?_⟩
  simp [represent, toRepresentation, Deal.taxValue, Deal.grossValue, included, isNet, bind,
    Except.bind, pure, Except.pure, inRange.digits, rateFits, netFits, taxFits]

/-! ### Amounts without the tax -/

/-- The tax is the exact product, rounded once. -/
theorem taxValue_of_not_included (inRange : deal.InRange)
    (apart : ¬ deal.amountIncludesTax) :
    deal.taxValue = quantize (((deal.value * deal.taxRate : Int) : ℚ) / 10000) := by
  have bound : |deal.value * deal.taxRate| ≤ 10 ^ 14 * 10000 := by
    rw [abs_mul]
    exact mul_le_mul (le_of_lt inRange.digits)
      (abs_le.mpr ⟨by have := inRange.rateNonneg; omega, inRange.rateLe⟩) (abs_nonneg _)
      (by norm_num)
  have boundRat : |((deal.value * deal.taxRate : Int) : ℚ)| ≤ 10 ^ 14 * 10000 := by
    exact_mod_cast bound
  have productSmall : |((deal.value * deal.taxRate : Int) : ℚ)| < 10 ^ precision :=
    lt_of_le_of_lt boundRat (by norm_num [precision])
  have inTenThousandths : ((deal.value * deal.taxRate : Int) : ℚ) / 10000 =
      ((deal.value * deal.taxRate : Int) : ℚ) * 10 ^ (-4 : Int) := by
    norm_num [div_eq_mul_inv]
  have quotientSmall : |((deal.value * deal.taxRate : Int) : ℚ) * 10 ^ (-4 : Int)| <
      10 ^ (-4 + precision) := by
    rw [abs_mul]
    calc
      _ ≤ (10 ^ 14 * 10000 : ℚ) * |10 ^ (-4 : Int)| :=
        mul_le_mul_of_nonneg_right boundRat (abs_nonneg _)
      _ < 10 ^ (-4 + precision) := by norm_num [precision]
  unfold Deal.taxValue
  rw [if_neg apart]
  dsimp only
  rw [← Int.cast_mul, roundSignificant_intCast productSmall, inTenThousandths,
    roundSignificant_of_place quotientSmall (by decide)]

theorem serialises_iff_of_not_included (inRange : deal.InRange)
    (apart : ¬ deal.amountIncludesTax) :
    deal.Serialises ↔ |deal.value| * (10000 + deal.taxRate) < 10 ^ 18 - 5000 := by
  have rateFits := inRange.rateFits
  have between := tax_between deal.value inRange.rateNonneg inRange.rateLe
  have taxFits := fitsDigits_of_between inRange.digits between
  have rounded : roundHalfUp (((deal.value * deal.taxRate : Int) : ℚ) / 10000) =
      quantizeHalfUp (deal.value * deal.taxRate) 10000 :=
    roundHalfUp_div (deal.value * deal.taxRate) (by norm_num : 0 < 10000)
  have isTax : deal.taxValue = .ok (quantizeHalfUp (deal.value * deal.taxRate) 10000) := by
    rw [taxValue_of_not_included inRange apart, ← rounded]
    exact quantize_of_fits (by rwa [rounded])
  rw [← gross_fits_iff inRange.rateNonneg]
  by_cases grossFits : FitsDigits 14 (deal.value + quantizeHalfUp (deal.value * deal.taxRate) 10000)
  · simp [Deal.Serialises, represent, toRepresentation, Deal.netValue, Deal.grossValue, apart, isTax,
      bind, Except.bind, pure, Except.pure, inRange.digits, rateFits, taxFits,
      grossFits]
  · simp [Deal.Serialises, represent, toRepresentation, Deal.netValue, Deal.grossValue, apart, isTax,
      bind, Except.bind, pure, Except.pure, inRange.digits, rateFits, taxFits,
      grossFits]

/-- A deal reads back as long as it serialises. -/
theorem readsBack_iff : deal.ReadsBack ↔ deal.Serialises := by
  constructor
  · intro readsBack
    exact readsBack.alone
  · intro serialises
    constructor
    · exact serialises
    · intro deals others
      unfold representAll
      rw [mapM_isOk]
      intro other member
      by_cases same : other = deal
      · exact same ▸ serialises
      · exact others other member same

/-- An accepted deal reads back exactly when its value includes the tax, or when
the value with the tax rounds to an amount of fourteen digits. -/
theorem accepted_readsBack_iff (accepted : Accepted related organization deal) :
    deal.ReadsBack ↔
      deal.amountIncludesTax ∨ |deal.value| * (10000 + deal.taxRate) < 10 ^ 18 - 5000 := by
  have inRange := accepted.inRange
  rw [readsBack_iff]
  by_cases included : deal.amountIncludesTax
  · simp only [included, true_or, iff_true]
    exact serialises_of_included inRange included
  · rw [serialises_iff_of_not_included inRange included, or_iff_right included]

/-- What a request for an ordinary deal or for a large one names. -/
def dealOf (value : Int) : DealAttrs where
  company := some 1
  title := some "Website"
  value := some value

def savedDeal (value : Int) : Deal where
  id := 1
  organization := 1
  company := 1
  title := "Website"
  value := value
  createdAt := 0

theorem accepted_dealOf (value : Int) (digits : FitsDigits 14 value) :
    Accepted openWorkspace 1 (savedDeal value) := by
  have valueDigits : (dealOf value).value.all (FitsDigits 14 ·) := decide_eq_true digits
  have valid : validate openWorkspace 1 none (dealOf value) = .ok (dealOf value) := rfl
  have isRow : (dealOf value).toRow 1 1 0 = some (savedDeal value) := rfl
  exact Accepted.created valueDigits valid isRow

theorem accepted_readsBack_iff_ordinary :
    (savedDeal 150000).ReadsBack ↔ (savedDeal 150000).amountIncludesTax ∨
      |(savedDeal 150000).value| * (10000 + (savedDeal 150000).taxRate) < 10 ^ 18 - 5000 :=
  accepted_readsBack_iff (accepted_dealOf 150000 (by decide))

/-- The largest value of the column, to which the default rate of tax is added. -/
theorem largest_value_unreadable :
    ¬ ∀ deal, Accepted openWorkspace 1 deal → deal.ReadsBack := by
  intro readsBack
  have failed : represent (savedDeal 99999999999999) = .error .invalidOperation := by
    decide +kernel
  have serialises := (readsBack _ (accepted_dealOf 99999999999999 (by decide))).alone
  simp [Deal.Serialises, failed] at serialises

end BubllioCrm.Deals
