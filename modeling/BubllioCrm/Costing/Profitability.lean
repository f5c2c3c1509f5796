import BubllioCrm.Costing.Snapshots
import BubllioCrm.Deals.TaxSplit
import BubllioCrm.Foundations.Fallible

/-!
Owns the profitability of a deal: the totals of its cost lines, its profit and
its margin, the fields of `DealProfitabilitySerializer` that show them, when
they fit, and when the totals are the sums of what the lines show.

Amounts are cents, an exact cost is a number of hundredths of a cent, and a
margin is a number of hundredths of a percent. A sum in the database keeps all
decimals of its products.
-/

namespace BubllioCrm.Costing

open BubllioCrm.Foundations
open BubllioCrm.Companies (Related)
open BubllioCrm.Deals (Deal)

namespace DealCostLine

def exactCost (line : DealCostLine) : Int :=
  line.quantity * line.unitCost

def totalCost (line : DealCostLine) : Except DecimalError Int :=
  quantize (roundSignificant ((line.quantity : ℚ) * line.unitCost) / 100)

end DealCostLine

def activeLines (lines : List DealCostLine) : List DealCostLine :=
  lines.filter (·.status ≠ .cancelled)

def committedLines (lines : List DealCostLine) : List DealCostLine :=
  (activeLines lines).filter fun line => line.status = .committed ∨ line.status = .paid

/-- `aggregate(total=Coalesce(Sum(line_total), zero))`, quantized. -/
def aggregateCost (lines : List DealCostLine) : Except DecimalError Int :=
  quantize (((lines.map DealCostLine.exactCost).sum : Int) / 100)

structure Profitability where
  deal : Nat
  currency : String
  netRevenue : Int
  estimatedCostTotal : Int
  committedCostTotal : Int
  estimatedGrossProfit : ℚ
  estimatedMarginPercent : Option Int
deriving DecidableEq

def dealProfitability (deal : Deal) (lines : List DealCostLine) :
    Except DecimalError Profitability := do
  let estimatedCost ← aggregateCost (activeLines lines)
  let committedCost ← aggregateCost (committedLines lines)
  let netValue ← deal.netValue
  let revenue ← quantize netValue
  let estimatedProfit := roundSignificant (revenue - estimatedCost)
  if revenue ≠ 0 then
    let product := roundSignificant (estimatedProfit * 100)
    let margin ← quantize (roundSignificant (product * 100 / revenue))
    return ⟨deal.id, deal.currency, revenue, estimatedCost, committedCost, estimatedProfit,
      some margin⟩
  else
    return ⟨deal.id, deal.currency, revenue, estimatedCost, committedCost, estimatedProfit, none⟩

/-- `DealProfitabilitySerializer(profitability).data`. -/
def Profitability.represent (profitability : Profitability) : Except DecimalError Profitability := do
  let netRevenue ← toRepresentation 14 profitability.netRevenue
  let estimatedCostTotal ← toRepresentation 26 profitability.estimatedCostTotal
  let committedCostTotal ← toRepresentation 26 profitability.committedCostTotal
  let estimatedGrossProfit ← toRepresentation 26
    (roundHalfEven profitability.estimatedGrossProfit)
  let estimatedMarginPercent ← profitability.estimatedMarginPercent.mapM (toRepresentation 12)
  return { profitability with
    netRevenue := netRevenue
    estimatedCostTotal := estimatedCostTotal
    committedCostTotal := committedCostTotal
    estimatedGrossProfit := estimatedGrossProfit
    estimatedMarginPercent := estimatedMarginPercent }

/-! ### Accepted lines -/

def validateQuantity (value : Int) : Except String Int :=
  if value ≤ 0 then .error "Enter an amount greater than zero." else .ok value

/-- The check of `unit_cost`, and that of `default_cost`. -/
def validateCost (value : Int) : Except String Int :=
  if value < 0 then .error "Enter an amount of zero or greater." else .ok value

/-- The fields of a request have passed their own checks. -/
structure LineAttrs.FieldsPass (attrs : LineAttrs) : Prop where
  quantity : ∀ value ∈ attrs.quantity, validateQuantity value = .ok value ∧ FitsDigits 12 value
  unitCost : ∀ value ∈ attrs.unitCost, validateCost value = .ok value ∧ FitsDigits 14 value

/-- The default costs of the catalogue have passed theirs. -/
def Catalog.CostsPass (catalog : Catalog) : Prop :=
  ∀ id service, catalog.services id = some service →
    validateCost service.defaultCost = .ok service.defaultCost ∧
      FitsDigits 14 service.defaultCost

/-- The cost lines that create and PATCH requests have led to. -/
inductive AcceptedLine (casing : Casing) : DealCostLine → Prop where
  | created {catalog : Catalog} {organization deal id : Nat} {dealCurrency : String}
      {attrs accepted : LineAttrs} {line : DealCostLine}
      (fields : attrs.FieldsPass) (costs : catalog.CostsPass)
      (valid : validateLine casing catalog organization dealCurrency none attrs = .ok accepted)
      (isRow : accepted.toRow casing id organization deal = some line) : AcceptedLine casing line
  | patched {catalog : Catalog} {organization : Nat} {dealCurrency : String}
      {attrs accepted : LineAttrs} {stored : DealCostLine}
      (fields : attrs.FieldsPass) (costs : catalog.CostsPass)
      (valid : validateLine casing catalog organization dealCurrency (some stored) attrs =
        .ok accepted)
      (before : AcceptedLine casing stored) : AcceptedLine casing (accepted.setOn casing stored)

/-- What the columns of a line hold. -/
structure DealCostLine.InRange (line : DealCostLine) : Prop where
  quantityPos : 0 < line.quantity
  quantityDigits : FitsDigits 12 line.quantity
  unitCostNonneg : 0 ≤ line.unitCost
  unitCostDigits : FitsDigits 14 line.unitCost

variable {casing : Casing} {catalog : Catalog} {stored : Option DealCostLine} {line : DealCostLine}
  {attrs : LineAttrs}

theorem quantity_of_validate {value : Int} (valid : validateQuantity value = .ok value) :
    0 < value := by
  unfold validateQuantity at valid
  split_ifs at valid with refused
  omega

theorem cost_of_validate {value : Int} (valid : validateCost value = .ok value) : 0 ≤ value := by
  unfold validateCost at valid
  split_ifs at valid with refused
  omega

/-- The defaults of a service are not checked again. -/
theorem LineAttrs.FieldsPass.takeDefaults (fields : attrs.FieldsPass) (costs : catalog.CostsPass) :
    (takeDefaults catalog stored attrs).FieldsPass := by
  unfold Costing.takeDefaults
  dsimp only
  split
  · exact fields
  · rename_i service isService
    have ⟨id, _, found⟩ := Option.bind_eq_some_iff.mp isService
    split_ifs
    · constructor
      · exact fields.quantity
      · intro value isValue
        cases named : attrs.unitCost with
        | none =>
            have isDefault : service.defaultCost = value := by
              simpa [LineAttrs.withDefaults, named] using isValue
            exact isDefault ▸ costs id service found
        | some cost =>
            have isCost : cost = value := by
              simpa [LineAttrs.withDefaults, named] using isValue
            exact fields.unitCost value (named.trans (congrArg some isCost))
    · exact fields

theorem nameCollaborator_amounts :
    (nameCollaborator catalog stored attrs).quantity = attrs.quantity ∧
      (nameCollaborator catalog stored attrs).unitCost = attrs.unitCost := by
  unfold nameCollaborator
  split
  · exact ⟨rfl, rfl⟩
  · split_ifs
    · exact ⟨rfl, rfl⟩
    · exact ⟨rfl, rfl⟩

theorem fieldsPass_of_validateLine {organization : Nat} {dealCurrency : String}
    {accepted : LineAttrs} (fields : attrs.FieldsPass) (costs : catalog.CostsPass)
    (valid : validateLine casing catalog organization dealCurrency stored attrs = .ok accepted) :
    accepted.FieldsPass := by
  have defaulted : (takeDefaults catalog stored attrs).FieldsPass := fields.takeDefaults costs
  have ⟨_, _, isAccepted⟩ := validateLine_eq valid
  rw [isAccepted]
  constructor
  · rw [nameCollaborator_amounts.1]
    exact defaulted.quantity
  · rw [nameCollaborator_amounts.2]
    exact defaulted.unitCost

theorem LineAttrs.FieldsPass.setOn (fields : attrs.FieldsPass) (inRange : line.InRange) :
    (attrs.setOn casing line).InRange := by
  have quantity : 0 < attrs.quantity.getD line.quantity ∧
      FitsDigits 12 (attrs.quantity.getD line.quantity) := by
    cases named : attrs.quantity with
    | none => exact ⟨inRange.quantityPos, inRange.quantityDigits⟩
    | some value =>
        have passes := fields.quantity value named
        exact ⟨quantity_of_validate passes.1, passes.2⟩
  have unitCost : 0 ≤ attrs.unitCost.getD line.unitCost ∧
      FitsDigits 14 (attrs.unitCost.getD line.unitCost) := by
    cases named : attrs.unitCost with
    | none => exact ⟨inRange.unitCostNonneg, inRange.unitCostDigits⟩
    | some value =>
        have passes := fields.unitCost value named
        exact ⟨cost_of_validate passes.1, passes.2⟩
  exact ⟨quantity.1, quantity.2, unitCost.1, unitCost.2⟩

theorem LineAttrs.FieldsPass.toRow {id organization deal : Nat} (fields : attrs.FieldsPass)
    (isRow : attrs.toRow casing id organization deal = some line) : line.InRange := by
  unfold LineAttrs.toRow at isRow
  simp only [Option.bind_eq_bind, Option.bind_eq_some_iff, Option.pure_def,
    Option.some.injEq] at isRow
  obtain ⟨collaborator, -, name, -, service, -, unitCost, isCost, currency, -, rfl⟩ := isRow
  have passes := fields.unitCost unitCost isCost
  apply fields.setOn
  exact ⟨show (0 : Int) < 100 by decide, show FitsDigits 12 100 by decide,
    cost_of_validate passes.1, passes.2⟩

theorem AcceptedLine.inRange (accepted : AcceptedLine casing line) : line.InRange := by
  induction accepted with
  | created fields costs valid isRow =>
      exact (fieldsPass_of_validateLine fields costs valid).toRow isRow
  | patched fields costs valid before inductionHypothesis =>
      exact (fieldsPass_of_validateLine fields costs valid).setOn inductionHypothesis

/-! ### Totals and lines -/

/-- The exact costs of the lines, in hundredths of a cent. -/
def exactCosts (lines : List DealCostLine) : Int :=
  (lines.map DealCostLine.exactCost).sum

/-- What the rounding of a line to cents leaves over, in hundredths of a cent. -/
def DealCostLine.leftOver (line : DealCostLine) : Int :=
  (line.exactCost + 50) % 100 - 50

def leftOvers (lines : List DealCostLine) : Int :=
  (lines.map DealCostLine.leftOver).sum

/-- The total is the sum of what the lines show. -/
def MatchesLines (lines : List DealCostLine) : Prop :=
  ∃ shown, lines.mapM DealCostLine.totalCost = .ok shown ∧ aggregateCost lines = .ok shown.sum

/-- What the lines leave over stays within half a cent, on the side that is
rounded the same way, and the total has digits to be rounded with. -/
structure RoundsAlike (lines : List DealCostLine) : Prop where
  lower : -50 ≤ leftOvers lines
  upper : leftOvers lines < 50
  digits : exactCosts lines < 10 ^ 30 - 50

variable {lines : List DealCostLine}

theorem DealCostLine.InRange.exactCost_nonneg (inRange : line.InRange) : 0 ≤ line.exactCost :=
  mul_nonneg inRange.quantityPos.le inRange.unitCostNonneg

theorem DealCostLine.InRange.exactCost_lt (inRange : line.InRange) : line.exactCost < 10 ^ 26 := by
  have quantityLt := (abs_lt.mp inRange.quantityDigits).2
  have unitCostLt := (abs_lt.mp inRange.unitCostDigits).2
  calc
    line.exactCost < 10 ^ 12 * 10 ^ 14 :=
      mul_lt_mul'' quantityLt unitCostLt inRange.quantityPos.le inRange.unitCostNonneg
    _ = 10 ^ 26 := by norm_num

theorem quantizeHalfUp_hundredths {number : Int} (nonneg : 0 ≤ number) :
    quantizeHalfUp number 100 = (number + 50) / 100 := by
  unfold quantizeHalfUp
  rw [if_pos nonneg]
  omega

theorem roundHalfUp_hundredths {number : Int} (nonneg : 0 ≤ number) :
    roundHalfUp ((number : ℚ) / 100) = (number + 50) / 100 := by
  rw [← quantizeHalfUp_hundredths nonneg]
  exact roundHalfUp_div number (by norm_num : 0 < 100)

theorem totalCost_eq (inRange : line.InRange) :
    line.totalCost = .ok ((line.exactCost + 50) / 100) := by
  have nonneg := inRange.exactCost_nonneg
  have less := inRange.exactCost_lt
  have small : |(line.exactCost : ℚ)| < 10 ^ precision := by
    have lessRat : |(line.exactCost : ℚ)| < 10 ^ 26 := by
      rw [← Int.cast_abs, abs_of_nonneg nonneg]
      exact_mod_cast less
    exact lessRat.trans (by norm_num [precision])
  have product : (line.quantity : ℚ) * line.unitCost = line.exactCost := (Int.cast_mul _ _).symm
  unfold DealCostLine.totalCost
  rw [product, roundSignificant_intCast small, quantize_eq_ok_iff, roundHalfUp_hundredths nonneg]
  refine ⟨rfl, ?_⟩
  have wide : (10 : Int) ^ precision.toNat = 10 ^ 28 := rfl
  rw [wide, abs_of_nonneg (by omega)]
  show (line.exactCost + 50) / 100 < 10 ^ 28
  omega

theorem exactCosts_nonneg (inRange : ∀ line ∈ lines, line.InRange) : 0 ≤ exactCosts lines := by
  induction lines with
  | nil => exact le_rfl
  | cons line rest inductionHypothesis =>
      rw [List.forall_mem_cons] at inRange
      have first := inRange.1.exactCost_nonneg
      have others := inductionHypothesis inRange.2
      show 0 ≤ line.exactCost + exactCosts rest
      omega

theorem aggregateCost_eq_ok_iff (inRange : ∀ line ∈ lines, line.InRange) {total : Int} :
    aggregateCost lines = .ok total ↔
      (exactCosts lines + 50) / 100 = total ∧ exactCosts lines < 10 ^ 30 - 50 := by
  have nonneg := exactCosts_nonneg inRange
  have wide : (10 : Int) ^ precision.toNat = 10 ^ 28 := rfl
  have isSum : aggregateCost lines = quantize ((exactCosts lines : ℚ) / 100) := rfl
  rw [isSum, quantize_eq_ok_iff, roundHalfUp_hundredths nonneg, wide, abs_of_nonneg (by omega)]
  apply and_congr_right
  intro _
  omega

/-- Rounding line by line keeps the exact costs up to what is left over. -/
theorem exactCosts_eq (lines : List DealCostLine) :
    exactCosts lines =
      100 * (lines.map fun line => (line.exactCost + 50) / 100).sum + leftOvers lines := by
  induction lines with
  | nil => rfl
  | cons line rest inductionHypothesis =>
      have isExact : exactCosts (line :: rest) = line.exactCost + exactCosts rest := rfl
      have isLeft : leftOvers (line :: rest) = line.leftOver + leftOvers rest := rfl
      rw [isExact, isLeft, List.map_cons, List.sum_cons, inductionHypothesis]
      unfold DealCostLine.leftOver
      omega

theorem matchesLines_iff (inRange : ∀ line ∈ lines, line.InRange) :
    MatchesLines lines ↔ RoundsAlike lines := by
  have shown : lines.mapM DealCostLine.totalCost =
      .ok (lines.map fun line => (line.exactCost + 50) / 100) :=
    mapM_eq_ok fun line member => totalCost_eq (inRange line member)
  have split := exactCosts_eq lines
  constructor
  · rintro ⟨amounts, isShown, isTotal⟩
    rw [shown, Except.ok.injEq] at isShown
    rw [aggregateCost_eq_ok_iff inRange, ← isShown] at isTotal
    constructor <;> omega
  · rintro ⟨lower, upper, digits⟩
    refine ⟨_, shown, (aggregateCost_eq_ok_iff inRange).mpr ⟨?_, digits⟩⟩
    omega

theorem inRange_active (inRange : ∀ line ∈ lines, line.InRange) :
    ∀ line ∈ activeLines lines, line.InRange :=
  fun line member => inRange line (List.mem_of_mem_filter member)

theorem inRange_committed (inRange : ∀ line ∈ lines, line.InRange) :
    ∀ line ∈ committedLines lines, line.InRange :=
  fun line member => inRange_active inRange line (List.mem_of_mem_filter member)

variable {deal : Deal}

/-- The totals that are returned are those of the lines. -/
theorem dealProfitability_totals {result : Profitability}
    (returned : dealProfitability deal lines = .ok result) :
    aggregateCost (activeLines lines) = .ok result.estimatedCostTotal ∧
      aggregateCost (committedLines lines) = .ok result.committedCostTotal := by
  simp only [dealProfitability, bind_eq_ok] at returned
  obtain ⟨estimated, isEstimated, committed, isCommitted, netValue, -, revenue, -, rest⟩ := returned
  split_ifs at rest
  · simp only [bind_eq_ok, pure_eq_ok] at rest
    obtain ⟨margin, -, rfl⟩ := rest
    exact ⟨isEstimated, isCommitted⟩
  · rw [pure_eq_ok] at rest
    rw [← rest]
    exact ⟨isEstimated, isCommitted⟩

/-- The totals that a profitability has are the sums of what the lines show
exactly when the lines leave less than half a cent over. -/
theorem totals_match_iff (deal : Deal) (lines : List DealCostLine)
    (inRange : ∀ line ∈ lines, line.InRange) :
    (∀ result, dealProfitability deal lines = .ok result →
      aggregateCost (activeLines lines) = .ok result.estimatedCostTotal ∧
        aggregateCost (committedLines lines) = .ok result.committedCostTotal) ∧
    (MatchesLines (activeLines lines) ∧ MatchesLines (committedLines lines) ↔
      RoundsAlike (activeLines lines) ∧ RoundsAlike (committedLines lines)) :=
  ⟨fun _ => dealProfitability_totals, and_congr (matchesLines_iff (inRange_active inRange))
    (matchesLines_iff (inRange_committed inRange))⟩

/-- A line over half a cent. -/
def halfCent (id : Nat) : DealCostLine where
  id := id
  organization := 1
  deal := 1
  collaborator := 1
  collaboratorName := "Kostas"
  serviceName := "Printing"
  quantity := 50
  unitCost := 1
  currency := "EUR"

theorem inRange_halfCent (id : Nat) : (halfCent id).InRange :=
  ⟨show (0 : Int) < 50 by decide, show FitsDigits 12 50 by decide, show (0 : Int) ≤ 1 by decide,
    show FitsDigits 14 1 by decide⟩

theorem totals_match_iff_halfCent :
    MatchesLines (activeLines [halfCent 1]) ∧ MatchesLines (committedLines [halfCent 1]) ↔
      RoundsAlike (activeLines [halfCent 1]) ∧ RoundsAlike (committedLines [halfCent 1]) :=
  (totals_match_iff (Deals.savedDeal 150000) [halfCent 1]
    (List.forall_mem_singleton.mpr (inRange_halfCent 1))).2

/-- Two lines show a cent each, and the total is one cent. -/
theorem halfCents_unmatched : ¬ ∀ (deal : Deal) (lines : List DealCostLine), deal.InRange →
    (∀ line ∈ lines, line.InRange) → ∀ result, dealProfitability deal lines = .ok result →
      ∃ shown, (activeLines lines).mapM DealCostLine.totalCost = .ok shown ∧
        result.estimatedCostTotal = shown.sum := by
  intro always
  have inRange : (Deals.savedDeal 150000).InRange := ⟨by decide, by decide, by decide⟩
  have linesInRange : ∀ line ∈ [halfCent 1, halfCent 2], line.InRange := by
    intro line member
    rcases List.mem_pair.mp member with rfl | rfl
    · exact inRange_halfCent 1
    · exact inRange_halfCent 2
  have returned : dealProfitability (Deals.savedDeal 150000) [halfCent 1, halfCent 2] =
      .ok ⟨1, "EUR", 150000, 1, 0, 149999, some 10000⟩ := by decide +kernel
  have shows : (activeLines [halfCent 1, halfCent 2]).mapM DealCostLine.totalCost = .ok [1, 1] := by
    decide +kernel
  have ⟨shown, isShown, isSum⟩ := always _ _ inRange linesInRange _ returned
  rw [shows, Except.ok.injEq] at isShown
  rw [← isShown] at isSum
  revert isSum
  decide

/-! ### Digits -/

/-- The costs stay below what the fields hold, and below some hundred million
times the net amount when that is not zero. -/
structure CostsFit (net costs : Int) : Prop where
  total : costs < 10 ^ 28 - 50
  profit : costs < 10 ^ 28 + 100 * net - 50
  margin : net ≠ 0 → costs < 100 * ((20000 * net + (2 * 10 ^ 12 - 1) * |net| - 1) / 20000) + 50

/-- The profitability is computed, and every field shows it. -/
def IsShown (deal : Deal) (lines : List DealCostLine) : Prop :=
  ∃ shown, (dealProfitability deal lines >>= Profitability.represent) = .ok shown

/-- The margin is computed, and its field shows it. -/
def MarginFits (revenue : Int) (profit : ℚ) : Prop :=
  ∃ margin, quantize (roundSignificant (roundSignificant (profit * 100) * 100 / revenue)) =
    .ok margin ∧ FitsDigits 12 margin

theorem represent_isOk_iff {profitability : Profitability} :
    (∃ shown, profitability.represent = .ok shown) ↔ FitsDigits 14 profitability.netRevenue ∧
      FitsDigits 26 profitability.estimatedCostTotal ∧
      FitsDigits 26 profitability.committedCostTotal ∧
      FitsDigits 26 (roundHalfEven profitability.estimatedGrossProfit) ∧
      ∀ margin ∈ profitability.estimatedMarginPercent, FitsDigits 12 margin := by
  have optional (margin : Option Int) : (∃ shown, margin.mapM (toRepresentation 12) = .ok shown) ↔
      ∀ value ∈ margin, FitsDigits 12 value := by
    cases margin with
    | none => exact iff_of_true ⟨none, rfl⟩ nofun
    | some margin =>
        simp only [Option.mapM_some, map_eq_pure_bind, bind_eq_ok, pure_eq_ok,
          toRepresentation_eq_ok_iff, Option.mem_some_iff, forall_eq']
        constructor
        · rintro ⟨shown, amount, ⟨fits, -⟩, -⟩
          exact fits
        · intro fits
          exact ⟨some margin, margin, ⟨fits, rfl⟩, rfl⟩
  rw [← optional]
  simp only [Profitability.represent, bind_eq_ok, toRepresentation_eq_ok_iff, pure_eq_ok]
  constructor
  · rintro ⟨shown, net, ⟨netFits, -⟩, estimated, ⟨estimatedFits, -⟩, committed, ⟨committedFits, -⟩,
      profit, ⟨profitFits, -⟩, margin, isMargin, -⟩
    exact ⟨netFits, estimatedFits, committedFits, profitFits, margin, isMargin⟩
  · rintro ⟨netFits, estimatedFits, committedFits, profitFits, margin, isMargin⟩
    exact ⟨_, _, ⟨netFits, rfl⟩, _, ⟨estimatedFits, rfl⟩, _, ⟨committedFits, rfl⟩, _,
      ⟨profitFits, rfl⟩, margin, isMargin, rfl⟩

section Shown

variable {estimated committed revenue : Int}
  (isEstimated : aggregateCost (activeLines lines) = .ok estimated)
  (isCommitted : aggregateCost (committedLines lines) = .ok committed)
  (isRevenue : (deal.netValue >>= fun net => quantize net) = .ok revenue)

include isEstimated isCommitted isRevenue

theorem dealProfitability_eq :
    dealProfitability deal lines =
      let profit := roundSignificant ((revenue : ℚ) - estimated)
      if revenue ≠ 0 then
        (quantize (roundSignificant (roundSignificant (profit * 100) * 100 / revenue))).map
          fun margin =>
            ⟨deal.id, deal.currency, revenue, estimated, committed, profit, some margin⟩
      else .ok ⟨deal.id, deal.currency, revenue, estimated, committed, profit, none⟩ := by
  have ⟨net, isNet, isQuantized⟩ := bind_eq_ok.mp isRevenue
  unfold dealProfitability
  simp only [isEstimated, isCommitted, isNet, isQuantized, bind, Except.bind]
  split
  · cases quantize (roundSignificant (roundSignificant
        (roundSignificant ((revenue : ℚ) - estimated) * 100) * 100 / revenue)) <;> rfl
  · rfl

theorem isShown_iff :
    IsShown deal lines ↔ FitsDigits 14 revenue ∧ FitsDigits 26 estimated ∧
      FitsDigits 26 committed ∧
      FitsDigits 26 (roundHalfEven (roundSignificant ((revenue : ℚ) - estimated))) ∧
      (revenue ≠ 0 → MarginFits revenue (roundSignificant ((revenue : ℚ) - estimated))) := by
  have swapped : IsShown deal lines ↔ ∃ result, dealProfitability deal lines = .ok result ∧
      ∃ shown, result.represent = .ok shown := by
    unfold IsShown
    simp only [bind_eq_ok]
    exact exists_comm.trans (exists_congr fun _ => exists_and_left)
  rw [swapped, dealProfitability_eq isEstimated isCommitted isRevenue]
  simp only [represent_isOk_iff]
  by_cases isZero : revenue = 0
  · simp [isZero]
  · rw [if_pos isZero]
    simp only [map_eq_ok]
    constructor
    · rintro ⟨result, ⟨margin, isMargin, rfl⟩, netFits, estimatedFits, committedFits, profitFits,
        marginFits⟩
      exact ⟨netFits, estimatedFits, committedFits, profitFits,
        fun _ => ⟨margin, isMargin, marginFits margin rfl⟩⟩
    · rintro ⟨netFits, estimatedFits, committedFits, profitFits, marginFits⟩
      have ⟨margin, isMargin, fits⟩ := marginFits isZero
      refine ⟨_, ⟨margin, isMargin, rfl⟩, netFits, estimatedFits, committedFits, profitFits, ?_⟩
      intro other isOther
      rw [← Option.some.inj isOther]
      exact fits

end Shown

/-! ### When the digits suffice -/

/-- The committed lines are some of those that are not cancelled. -/
theorem exactCosts_filter_le (selected : DealCostLine → Bool)
    (inRange : ∀ line ∈ lines, line.InRange) :
    exactCosts (lines.filter selected) ≤ exactCosts lines := by
  induction lines with
  | nil => exact le_rfl
  | cons line rest inductionHypothesis =>
      rw [List.forall_mem_cons] at inRange
      have first := inRange.1.exactCost_nonneg
      have others := inductionHypothesis inRange.2
      have isSum (line : DealCostLine) (rest : List DealCostLine) :
          exactCosts (line :: rest) = line.exactCost + exactCosts rest := rfl
      rw [List.filter_cons]
      split
      · rw [isSum, isSum]
        omega
      · rw [isSum]
        omega

/-- The profit is exact, and its margin a quotient of whole numbers. -/
theorem marginFits_iff {revenue profit : Int} (nonzero : revenue ≠ 0)
    (revenueFits : FitsDigits 14 revenue) (profitFits : FitsDigits 26 profit) :
    MarginFits revenue profit ↔ 20000 * |profit| < (2 * 10 ^ 12 - 1) * |revenue| := by
  have profitRat : |(profit : ℚ)| < 10 ^ 26 := by exact_mod_cast profitFits
  have productSmall : |(profit : ℚ) * 10 ^ (2 : Int)| < 10 ^ (2 + precision) := by
    rw [abs_mul, abs_of_pos (by norm_num : (0 : ℚ) < 10 ^ (2 : Int))]
    calc
      |(profit : ℚ)| * 10 ^ (2 : Int) < 10 ^ 26 * 10 ^ (2 : Int) := by
        exact mul_lt_mul_of_pos_right profitRat (by norm_num)
      _ < 10 ^ (2 + precision) := by norm_num [precision]
  have product : roundSignificant ((profit : ℚ) * 100) = profit * 100 := by
    have kept := roundSignificant_of_place productSmall (by decide)
    norm_num at kept
    exact kept
  have positive : 0 < revenue.natAbs := Int.natAbs_pos.mpr nonzero
  have short : revenue.natAbs < 10 ^ 14 := by
    unfold FitsDigits at revenueFits
    rw [abs_lt] at revenueFits
    omega
  have sameSize : |profit * 10000 * revenue.sign| = 10000 * |profit| := by
    rw [abs_mul, abs_mul, Int.abs_sign_of_ne_zero nonzero, mul_one, mul_comm]
    rfl
  have quotient : (profit : ℚ) * 100 * 100 / revenue =
      ((profit * 10000 * revenue.sign : Int) : ℚ) / revenue.natAbs := by
    rcases lt_or_gt_of_ne nonzero with negative | isPositive
    · have size : ((revenue.natAbs : Int) : ℚ) = ((-revenue : Int) : ℚ) := congrArg _ (by omega)
      rw [Int.sign_eq_neg_one_of_neg negative, ← Int.cast_natCast, size]
      push_cast
      ring
    · have size : ((revenue.natAbs : Int) : ℚ) = (revenue : ℚ) := congrArg _ (by omega)
      rw [Int.sign_eq_one_of_pos isPositive, ← Int.cast_natCast, size]
      push_cast
      ring
  unfold MarginFits
  rw [product, quotient, quotient_fits_iff positive short le_rfl, sameSize, Int.natCast_natAbs,
    ← mul_assoc]
  rfl

/-- The bounds on the rounded costs are bounds on the exact ones. -/
theorem costsFit_iff {net costs : Int} (nonneg : 0 ≤ costs) (netFits : FitsDigits 14 net) :
    CostsFit net costs ↔ FitsDigits 26 ((costs + 50) / 100) ∧
      FitsDigits 26 (net - (costs + 50) / 100) ∧
      (net ≠ 0 → 20000 * |net - (costs + 50) / 100| < (2 * 10 ^ 12 - 1) * |net|) := by
  unfold FitsDigits at *
  have roundedNonneg : 0 ≤ (costs + 50) / 100 := by omega
  rw [abs_lt] at netFits
  rw [abs_lt, abs_lt]
  constructor
  · rintro ⟨total, profit, margin⟩
    refine ⟨by omega, by omega, fun nonzero => ?_⟩
    have less := margin nonzero
    rcases abs_cases net with ⟨isAbs, _⟩ | ⟨isAbs, _⟩ <;>
    rcases abs_cases (net - (costs + 50) / 100) with ⟨isSize, _⟩ | ⟨isSize, _⟩ <;>
    rw [isAbs] at less ⊢ <;> rw [isSize] <;> omega
  · rintro ⟨total, profit, margin⟩
    refine ⟨by omega, by omega, fun nonzero => ?_⟩
    have less := margin nonzero
    rcases abs_cases net with ⟨isAbs, _⟩ | ⟨isAbs, _⟩ <;>
    rcases abs_cases (net - (costs + 50) / 100) with ⟨isSize, _⟩ | ⟨isSize, _⟩ <;>
    rw [isAbs] at less ⊢ <;> rw [isSize] at less <;> omega

theorem isShown_iff_costsFit (dealInRange : deal.InRange)
    (inRange : ∀ line ∈ lines, line.InRange) :
    IsShown deal lines ↔ CostsFit deal.netAmount (exactCosts (activeLines lines)) := by
  have activeInRange := inRange_active inRange
  have nonneg := exactCosts_nonneg activeInRange
  have committedNonneg := exactCosts_nonneg (inRange_committed inRange)
  have committedLe : exactCosts (committedLines lines) ≤ exactCosts (activeLines lines) :=
    exactCosts_filter_le _ activeInRange
  obtain ⟨isNet, netFits⟩ := Deals.netValue_eq dealInRange
  by_cases digits : exactCosts (activeLines lines) < 10 ^ 30 - 50
  · have isEstimated := (aggregateCost_eq_ok_iff activeInRange).mpr ⟨rfl, digits⟩
    have isCommitted := (aggregateCost_eq_ok_iff (inRange_committed inRange)).mpr
      ⟨rfl, lt_of_le_of_lt committedLe digits⟩
    have isRevenue : (deal.netValue >>= fun net => quantize net) = .ok deal.netAmount := by
      have kept : roundHalfUp (deal.netAmount : ℚ) = deal.netAmount := roundHalfUp_intCast _
      have quantized : quantize (deal.netAmount : ℚ) = .ok (roundHalfUp (deal.netAmount : ℚ)) :=
        Deals.quantize_of_fits (by rwa [kept])
      rw [kept] at quantized
      exact bind_eq_ok.mpr ⟨_, isNet, quantized⟩
    rw [isShown_iff isEstimated isCommitted isRevenue, costsFit_iff nonneg netFits]
    by_cases estimatedFits : FitsDigits 26 ((exactCosts (activeLines lines) + 50) / 100)
    · have committedFits : FitsDigits 26 ((exactCosts (committedLines lines) + 50) / 100) := by
        unfold FitsDigits at *
        rw [abs_lt] at *
        omega
      have difference : ((deal.netAmount : ℚ) -
          ((exactCosts (activeLines lines) + 50) / 100 : Int)) =
            ((deal.netAmount - (exactCosts (activeLines lines) + 50) / 100 : Int) : ℚ) :=
        (Int.cast_sub _ _).symm
      have small : |((deal.netAmount - (exactCosts (activeLines lines) + 50) / 100 : Int) : ℚ)| <
          10 ^ precision := by
        have bound : |deal.netAmount - (exactCosts (activeLines lines) + 50) / 100| < 10 ^ 27 := by
          unfold FitsDigits at *
          rw [abs_lt] at *
          omega
        have boundRat : |((deal.netAmount - (exactCosts (activeLines lines) + 50) / 100 : Int) : ℚ)|
            < 10 ^ 27 := by exact_mod_cast bound
        exact boundRat.trans (by norm_num [precision])
      rw [difference, roundSignificant_intCast small, roundHalfEven_intCast, and_iff_right netFits,
        and_iff_right estimatedFits, and_iff_right committedFits, and_iff_right estimatedFits]
      apply and_congr_right
      intro profitFits
      exact forall_congr' fun nonzero => marginFits_iff nonzero netFits profitFits
    · exact iff_of_false (fun shown => estimatedFits shown.2.1) fun fits => estimatedFits fits.1
  · refine iff_of_false ?_ fun fits => ?_
    · rintro ⟨shown, isShown⟩
      obtain ⟨result, returned, -⟩ := bind_eq_ok.mp isShown
      exact digits ((aggregateCost_eq_ok_iff activeInRange).mp
        (dealProfitability_totals returned).1).2
    · have total := fits.total
      omega

/-- An accepted deal with accepted cost lines shows its profitability exactly when
the costs keep below these bounds. -/
theorem accepted_isShown_iff {related : Related} {organization : Nat}
    (acceptedDeal : Deals.Accepted related organization deal)
    (acceptedLines : ∀ line ∈ lines, AcceptedLine casing line) :
    IsShown deal lines ↔ CostsFit deal.netAmount (exactCosts (activeLines lines)) :=
  isShown_iff_costsFit acceptedDeal.inRange fun line member => (acceptedLines line member).inRange

/-- A catalogue with one collaborator and no services. -/
def printShop : Catalog where
  collaborators id := if id = 1 then some ⟨1, 1, "Kostas", true⟩ else none
  services _ := none

def printingAttrs (unitCost : Int) : LineAttrs where
  collaborator := some 1
  serviceName := some "Printing"
  unitCost := some unitCost
  currency := some "EUR"

def printing (unitCost : Int) : DealCostLine where
  id := 1
  organization := 1
  deal := 1
  collaborator := 1
  collaboratorName := "Kostas"
  serviceName := "Printing"
  unitCost := unitCost
  currency := "EUR"

/-- The attributes with the name of the collaborator. -/
def acceptedAttrs (unitCost : Int) : LineAttrs :=
  { printingAttrs unitCost with collaboratorName := some "Kostas" }

theorem accepted_printing {unitCost : Int} (cost : validateCost unitCost = .ok unitCost)
    (digits : FitsDigits 14 unitCost)
    (valid : validateLine Tenancy.asciiCasing printShop 1 "EUR" none (printingAttrs unitCost) =
      .ok (acceptedAttrs unitCost))
    (isRow : (acceptedAttrs unitCost).toRow Tenancy.asciiCasing 1 1 1 = some (printing unitCost)) :
    AcceptedLine Tenancy.asciiCasing (printing unitCost) := by
  have fields : (printingAttrs unitCost).FieldsPass := by
    constructor
    · nofun
    · intro value isValue
      rw [← Option.some.inj isValue]
      exact ⟨cost, digits⟩
  have costs : printShop.CostsPass := by
    intro id service isService
    exact (Option.some_ne_none service isService.symm).elim
  exact AcceptedLine.created fields costs valid isRow

theorem accepted_isShown_iff_ordinary :
    IsShown (Deals.savedDeal 150000) [printing 30000] ↔
      CostsFit (Deals.savedDeal 150000).netAmount (exactCosts (activeLines [printing 30000])) := by
  have line : AcceptedLine Tenancy.asciiCasing (printing 30000) :=
    accepted_printing (by decide) (by decide) (by decide +kernel) (by decide +kernel)
  exact accepted_isShown_iff (Deals.accepted_dealOf 150000 (by decide))
    (List.forall_mem_singleton.mpr line)

/-- A deal over a cent with costs over a million. -/
theorem cent_with_costs_not_shown : ¬ ∀ (deal : Deal) (lines : List DealCostLine),
    Deals.Accepted Deals.openWorkspace 1 deal →
      (∀ line ∈ lines, AcceptedLine Tenancy.asciiCasing line) → IsShown deal lines := by
  intro always
  have line : AcceptedLine Tenancy.asciiCasing (printing 100000001) :=
    accepted_printing (by decide) (by decide) (by decide +kernel) (by decide +kernel)
  have ⟨shown, isShown⟩ := always _ _ (Deals.accepted_dealOf 1 (by decide))
    (List.forall_mem_singleton.mpr line)
  have failed : (dealProfitability (Deals.savedDeal 1) [printing 100000001] >>=
      Profitability.represent) = .error .invalidOperation := by decide +kernel
  rw [failed] at isShown
  cases isShown

end BubllioCrm.Costing
