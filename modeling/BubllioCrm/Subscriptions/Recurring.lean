import BubllioCrm.Foundations.Twelfths
import BubllioCrm.Subscriptions.Overview
import Mathlib.Algebra.BigOperators.Ring.List

/-!
Owns the monthly recurring revenue of the billing overview: the totals of each
currency and billing interval, their quotients in decimal arithmetic, and when the
rounded sum of the quotients is the exact revenue.

Amounts are cents. The database sums a column exactly, and returns the groups of a
query in any order.
-/

namespace BubllioCrm.Subscriptions

open BubllioCrm.Foundations

/-! ### The query -/

/-- `active.exclude(billing_interval=ONE_OFF)`. -/
def recurring (today : Date) (accounts : List Account) : List Account :=
  (activeAccounts today accounts).filter (·.subscription.billingInterval ≠ .oneOff)

/-- A row of `values("currency", "billing_interval").annotate(total=Sum("net_price"))`. -/
structure RevenueRow where
  currency : String
  billingInterval : BillingInterval
  total : Int
deriving DecidableEq

def Account.revenueKey (account : Account) : String × BillingInterval :=
  (account.subscription.currency, account.subscription.billingInterval)

def revenueRow (group : (String × BillingInterval) × List Account) : RevenueRow where
  currency := group.1.1
  billingInterval := group.1.2
  total := (group.2.map (·.subscription.netPrice)).sum

def revenueRows (accounts : List Account) : List RevenueRow :=
  (groupBy Account.revenueKey accounts).map revenueRow

/-! ### The loop -/

/-- One turn of the loop. The query leaves no row of an interval without months. -/
def visitRevenue (revenue : String → Option ℚ) (row : RevenueRow) : String → Option ℚ :=
  match row.billingInterval.months with
  | none => revenue
  | some months =>
      let monthly := roundSignificant ((row.total : ℚ) / months)
      assign revenue (row.currency, roundSignificant ((revenue row.currency).getD 0 + monthly))

/-- The entries of `recurring_revenue`, where a failing one fails the overview. -/
def recurringRevenue (rows : List RevenueRow) (currency : String) :
    Option (Except DecimalError Int) :=
  (rows.foldl visitRevenue (fun _ => none) currency).map quantize

/-! ### The definition -/

/-- The price of an agreement for one month. -/
def Account.monthlyPrice (account : Account) : ℚ :=
  match account.subscription.billingInterval.months with
  | none => 0
  | some months => (account.subscription.netPrice : ℚ) / months

/-- The exact sum of the monthly prices rounded half up to cents, for a currency
that is in use. -/
def exactRevenue (accounts : List Account) (currency : String) : Option Int :=
  let inCurrency := accounts.filter (·.subscription.currency = currency)
  if inCurrency = [] then none
  else some (roundHalfUp (inCurrency.map Account.monthlyPrice).sum)

/-- Twelfths of a cent for each cent of a price in one month. -/
def BillingInterval.monthlyTwelfths (interval : BillingInterval) : Int :=
  match interval.months with
  | none => 0
  | some months => 12 / months

/-- The quotient of a row in twelfths of a cent. -/
def RevenueRow.monthlyTwelfths (row : RevenueRow) : Int :=
  row.billingInterval.monthlyTwelfths * row.total

def Account.monthlyTwelfths (account : Account) : Int :=
  account.subscription.billingInterval.monthlyTwelfths * account.subscription.netPrice

/-- The quotients that the loop adds up for a currency, in its order. -/
def termsOf (rows : List RevenueRow) (currency : String) : List Int :=
  (rows.filter (·.currency = currency)).map RevenueRow.monthlyTwelfths

/-- No quotient and no partial sum has more digits than the precision. -/
def Short (terms : List Int) : Prop :=
  (∀ term ∈ terms, roundSignificant (twelfths term) = twelfths term) ∧
    ∀ front back, terms = front ++ back →
      roundSignificant (twelfths front.sum) = twelfths front.sum

/-- The exact sum ends in half a cent and loses three thirds. -/
def LosesHalf (terms : List Int) : Prop :=
  terms.sum % 12 = 6 ∧ DropsThirds terms

/-- The digits that the loop rounds away do not decide about a cent. -/
def KeepsCents (terms : List Int) : Prop :=
  twelfths terms.sum < 10 ^ 26 ∧ ¬ LosesHalf terms ∨
    Short terms ∧ twelfths terms.sum + 1 / 2 < 10 ^ 28

variable {today : Date} {accounts : List Account} {rows : List RevenueRow} {currency : String}
  {terms : List Int}

/-! ### The loop for one currency -/

theorem div_months {interval : BillingInterval} {months : Nat}
    (recurs : interval.months = some months) (total : Int) :
    (total : ℚ) / months = twelfths (interval.monthlyTwelfths * total) := by
  unfold twelfths BillingInterval.monthlyTwelfths
  rw [recurs]
  cases interval with
  | oneOff => cases recurs
  | monthly =>
      obtain rfl := Option.some.inj recurs
      push_cast
      ring
  | quarterly =>
      obtain rfl := Option.some.inj recurs
      norm_num
      ring
  | semiannual =>
      obtain rfl := Option.some.inj recurs
      norm_num
      ring
  | annual =>
      obtain rfl := Option.some.inj recurs
      norm_num

theorem months_of_recurs {interval : BillingInterval} (recurs : interval ≠ .oneOff) :
    ∃ months, interval.months = some months := by
  cases interval with
  | oneOff => exact absurd rfl recurs
  | _ => exact ⟨_, rfl⟩

/-- A turn of the loop adds the quotient to the entry of its currency. -/
theorem visitRevenue_eq {row : RevenueRow} (recurs : row.billingInterval ≠ .oneOff)
    (revenue : String → Option ℚ) :
    visitRevenue revenue row =
      assign revenue (row.currency, roundSignificant ((revenue row.currency).getD 0 +
        roundSignificant (twelfths row.monthlyTwelfths))) := by
  have ⟨months, isMonths⟩ := months_of_recurs recurs
  unfold visitRevenue RevenueRow.monthlyTwelfths
  rw [isMonths]
  dsimp only
  rw [div_months isMonths]

theorem foldl_visitRevenue (recurs : ∀ row ∈ rows, row.billingInterval ≠ .oneOff)
    (revenue : String → Option ℚ) :
    rows.foldl visitRevenue revenue currency =
      if rows.filter (·.currency = currency) = [] then revenue currency
      else some ((termsOf rows currency).foldl (fun amount term =>
        roundSignificant (amount + roundSignificant (twelfths term)))
          ((revenue currency).getD 0)) := by
  induction rows generalizing revenue with
  | nil => rfl
  | cons row rest inductionHypothesis =>
      have ⟨first, others⟩ := List.forall_mem_cons.mp recurs
      rw [List.foldl_cons, inductionHypothesis others, visitRevenue_eq first]
      by_cases hit : row.currency = currency
      · have terms : termsOf (row :: rest) currency =
            row.monthlyTwelfths :: termsOf rest currency := by
          simp [termsOf, hit]
        rw [terms, List.foldl_cons]
        by_cases last : rest.filter (·.currency = currency) = []
        · have none : termsOf rest currency = [] := by rw [termsOf, last, List.map_nil]
          rw [if_pos last, none]
          simp [hit, assign]
        · rw [if_neg last]
          simp [hit, assign]
      · have sameTerms : termsOf (row :: rest) currency = termsOf rest currency := by
          simp [termsOf, hit]
        have sameRows : (row :: rest).filter (·.currency = currency) =
            rest.filter (·.currency = currency) := by
          simp [hit]
        have sameEntry (amount : ℚ) : assign revenue (row.currency, amount) currency =
            revenue currency := Function.update_of_ne (Ne.symm hit) _ _
        rw [sameTerms, sameRows, sameEntry]

/-- The loop leaves the rounded sum of the quotients of each currency. -/
theorem recurringRevenue_eq (recurs : ∀ row ∈ rows, row.billingInterval ≠ .oneOff) :
    recurringRevenue rows currency =
      if rows.filter (·.currency = currency) = [] then none
      else some (quantize (roundedSum (termsOf rows currency))) := by
  unfold recurringRevenue
  rw [foldl_visitRevenue recurs]
  split
  · rfl
  · rfl

/-! ### The rows of the query -/

section Rows

variable {stored : List Account} (order : rows.Perm (revenueRows stored))

theorem mem_recurring {account : Account} (member : account ∈ recurring today accounts) :
    account ∈ accounts ∧ account.subscription.billingInterval ≠ .oneOff := by
  simp only [recurring, activeAccounts, List.mem_filter, decide_eq_true_eq] at member
  exact ⟨member.1.1.1, member.2⟩

include order

/-- Every row has an agreement behind it. -/
theorem exists_of_mem_rows {row : RevenueRow} (member : row ∈ rows) :
    ∃ account ∈ stored, account.subscription.currency = row.currency ∧
      account.subscription.billingInterval = row.billingInterval := by
  have listed := order.mem_iff.mp member
  obtain ⟨group, grouped, rfl⟩ := List.mem_map.mp listed
  have ⟨account, kept, isKey⟩ := List.mem_map.mp (mem_groupBy grouped).1
  refine ⟨account, kept, ?_, ?_⟩
  · exact congrArg Prod.fst isKey
  · exact congrArg Prod.snd isKey

theorem total_nonneg (nonneg : ∀ account ∈ stored, 0 ≤ account.subscription.netPrice)
    {row : RevenueRow} (member : row ∈ rows) : 0 ≤ row.total := by
  have listed := order.mem_iff.mp member
  obtain ⟨group, grouped, rfl⟩ := List.mem_map.mp listed
  apply List.sum_nonneg
  intro price isPrice
  obtain ⟨account, inGroup, rfl⟩ := List.mem_map.mp isPrice
  rw [(mem_groupBy grouped).2] at inGroup
  exact nonneg account (List.mem_filter.mp inGroup).1

/-- No two rows of a currency have the same interval. -/
theorem intervals_nodup :
    ((rows.filter (·.currency = currency)).map RevenueRow.billingInterval).Nodup := by
  have keys : (rows.map fun row => (row.currency, row.billingInterval)).Nodup := by
    have same : (revenueRows stored).map (fun row => (row.currency, row.billingInterval)) =
        (groupBy Account.revenueKey stored).map Prod.fst := List.map_map
    rw [(order.map _).nodup_iff, same, groupBy_keys]
    exact List.nodup_dedup _
  have filtered := keys.sublist (List.filter_sublist.map _ :
    ((rows.filter (·.currency = currency)).map fun row =>
      (row.currency, row.billingInterval)).Sublist _)
  rw [List.Nodup, List.pairwise_map] at filtered ⊢
  apply filtered.imp_of_mem
  intro first second firstMember secondMember differs same
  have firstCurrency := of_decide_eq_true (List.mem_filter.mp firstMember).2
  have secondCurrency := of_decide_eq_true (List.mem_filter.mp secondMember).2
  exact differs (Prod.ext (firstCurrency.trans secondCurrency.symm) same)

theorem length_termsOf_le (recurs : ∀ account ∈ stored,
    account.subscription.billingInterval ≠ .oneOff) : (termsOf rows currency).length ≤ 4 := by
  have listed : (rows.filter (·.currency = currency)).map RevenueRow.billingInterval ⊆
      [.monthly, .quarterly, .semiannual, .annual] := by
    intro interval member
    obtain ⟨row, kept, rfl⟩ := List.mem_map.mp member
    have ⟨account, isStored, _, sameInterval⟩ :=
      exists_of_mem_rows order (List.mem_filter.mp kept).1
    have notOnce := recurs account isStored
    rw [sameInterval] at notOnce
    cases interval : row.billingInterval with
    | oneOff => exact absurd interval notOnce
    | _ => simp
  have intervals : ((rows.filter (·.currency = currency)).map RevenueRow.billingInterval).Nodup :=
    intervals_nodup order
  have bound := (intervals.subperm listed).length_le
  simpa [termsOf] using bound

/-- Totals of monthly agreements have no remainder. -/
theorem countP_termsOf_le : (termsOf rows currency).countP (· % 3 ≠ 0) ≤ 3 := by
  have listed : ((rows.filter (·.currency = currency)).filter (·.monthlyTwelfths % 3 ≠ 0)).map
      RevenueRow.billingInterval ⊆ [.quarterly, .semiannual, .annual] := by
    intro interval member
    obtain ⟨row, kept, rfl⟩ := List.mem_map.mp member
    have inexact : row.monthlyTwelfths % 3 ≠ 0 := of_decide_eq_true (List.mem_filter.mp kept).2
    unfold RevenueRow.monthlyTwelfths BillingInterval.monthlyTwelfths at inexact
    cases interval : row.billingInterval with
    | oneOff => simp [interval, BillingInterval.months] at inexact
    | monthly =>
        simp only [interval, BillingInterval.months] at inexact
        omega
    | _ => simp
  have intervals : ((rows.filter (·.currency = currency)).map RevenueRow.billingInterval).Nodup :=
    intervals_nodup order
  have bound := ((intervals.sublist (List.filter_sublist.map _)).subperm listed).length_le
  rw [List.length_map, ← List.countP_eq_length_filter] at bound
  rw [termsOf, List.countP_map]
  exact bound

/-- The quotients add up to those of the agreements. -/
theorem sum_termsOf : (termsOf rows currency).sum =
    ((stored.filter (·.subscription.currency = currency)).map Account.monthlyTwelfths).sum := by
  have permuted := ((order.filter (·.currency = currency)).map RevenueRow.monthlyTwelfths).sum_eq
  have groups := sum_groupBy Account.revenueKey (fun key => key.1 = currency)
    Account.monthlyTwelfths stored
  unfold termsOf
  refine permuted.trans (Eq.trans ?_ groups)
  rw [revenueRows, List.filter_map, List.map_map]
  apply congrArg List.sum
  apply List.map_congr_left
  intro group kept
  have ofGroup := (mem_groupBy (List.mem_filter.mp kept).1).2
  have prices : group.2.map Account.monthlyTwelfths =
      group.2.map fun account =>
        group.1.2.monthlyTwelfths * account.subscription.netPrice := by
    apply List.map_congr_left
    intro account member
    rw [ofGroup] at member
    have isKey : account.revenueKey = group.1 := of_decide_eq_true (List.mem_filter.mp member).2
    rw [← isKey]
    rfl
  rw [prices, List.sum_map_mul_left]
  rfl

/-- The query has a row for each currency that is in use. -/
theorem rows_eq_nil_iff (currency : String) : rows.filter (·.currency = currency) = [] ↔
    stored.filter (·.subscription.currency = currency) = [] := by
  rw [List.filter_eq_nil_iff, List.filter_eq_nil_iff]
  constructor
  · intro none account member isCurrency
    have grouped : (account.revenueKey, stored.filter (·.revenueKey = account.revenueKey)) ∈
        groupBy Account.revenueKey stored :=
      List.mem_map.mpr ⟨_, List.mem_dedup.mpr (List.mem_map_of_mem member), rfl⟩
    have listed := order.mem_iff.mpr (List.mem_map_of_mem (f := revenueRow) grouped)
    exact none _ listed isCurrency
  · intro none row member isCurrency
    have ⟨account, isStored, sameCurrency, _⟩ := exists_of_mem_rows order member
    rw [← sameCurrency] at isCurrency
    exact none account isStored isCurrency

theorem termsOf_nonneg (nonneg : ∀ account ∈ stored, 0 ≤ account.subscription.netPrice) :
    ∀ term ∈ termsOf rows currency, 0 ≤ term := by
  intro term member
  obtain ⟨row, kept, rfl⟩ := List.mem_map.mp member
  have total := total_nonneg order nonneg (List.mem_filter.mp kept).1
  have share : 0 ≤ row.billingInterval.monthlyTwelfths := by
    cases row.billingInterval <;> decide
  exact mul_nonneg share total

theorem modest_termsOf (recurs : ∀ account ∈ stored,
      account.subscription.billingInterval ≠ .oneOff)
    (nonneg : ∀ account ∈ stored, 0 ≤ account.subscription.netPrice)
    (small : twelfths (termsOf rows currency).sum < 10 ^ 26) : Modest (termsOf rows currency) where
  nonneg := termsOf_nonneg order nonneg
  small := small
  few := length_termsOf_le order recurs
  inexact := countP_termsOf_le order

end Rows

/-! ### The revenue -/

theorem sum_monthlyPrice {stored : List Account}
    (recurs : ∀ account ∈ stored, account.subscription.billingInterval ≠ .oneOff) :
    (stored.map Account.monthlyPrice).sum = twelfths (stored.map Account.monthlyTwelfths).sum := by
  induction stored with
  | nil => simp
  | cons account rest inductionHypothesis =>
      have ⟨first, others⟩ := List.forall_mem_cons.mp recurs
      have ⟨months, isMonths⟩ := months_of_recurs first
      have price : account.monthlyPrice = twelfths account.monthlyTwelfths := by
        unfold Account.monthlyPrice Account.monthlyTwelfths
        rw [isMonths]
        exact div_months isMonths _
      rw [List.map_cons, List.map_cons, List.sum_cons, List.sum_cons, twelfths_add, price,
        inductionHypothesis others]

/-- A value below the precision is shown rounded. -/
theorem quantize_of_lt {value : ℚ} {amount : Int} (nonneg : 0 ≤ value)
    (below : value + 1 / 2 < 10 ^ 28) (same : roundHalfUp value = amount) :
    quantize value = .ok amount := by
  have roundedNonneg := roundHalfUp_nonneg nonneg
  have lower := (roundHalfUp_isHalfUp nonneg).1
  have less : (roundHalfUp value : ℚ) < 10 ^ precision.toNat := by
    have limit : (10 : ℚ) ^ precision.toNat = 10 ^ 28 := by rfl
    rw [limit]
    linarith
  refine quantize_eq_ok_iff.mpr ⟨same, ?_⟩
  rw [abs_of_nonneg roundedNonneg]
  exact_mod_cast less

theorem roundedSum_of_short (short : Short terms) : roundedSum terms = twelfths terms.sum := by
  induction terms using List.reverseRecOn with
  | nil => simp [roundedSum]
  | append_singleton terms term inductionHypothesis =>
      have before := inductionHypothesis ⟨fun other member => short.1 other (by simp [member]),
        fun front back split => short.2 front (back ++ [term]) (by rw [split, List.append_assoc])⟩
      have whole := short.2 (terms ++ [term]) [] (by simp)
      rw [sum_append_single] at whole ⊢
      rw [roundedSum_append, before, short.1 term (by simp), ← twelfths_add, whole]

/-- What the loop shows for sums of the usual size. -/
theorem quantize_roundedSum_iff (modest : Modest terms) :
    quantize (roundedSum terms) = .ok (roundHalfUp (twelfths terms.sum)) ↔ ¬ LosesHalf terms := by
  rw [quantize_eq_ok_iff, LosesHalf, ← roundHalfUp_roundedSum_iff modest]
  apply and_iff_left_of_imp
  intro _
  have close := (abs_lt.mp (abs_error_lt modest)).2
  have small := modest.small
  have nonneg := roundedSum_nonneg modest.nonneg
  unfold error at close
  have below : roundedSum terms + 1 / 2 < 10 ^ 28 := by linarith
  exact (quantize_eq_ok_iff.mp (quantize_of_lt nonneg below rfl)).2

/-- For each currency and any order of the query, the overview has the exact revenue
when the rounded digits decide about no cent, and for sums below 10 ^ 26 cents only
then. -/
theorem recurringRevenue_exact
    (valid : ∀ account ∈ accounts, account.subscription.checkRow = .ok ())
    (order : rows.Perm (revenueRows (recurring today accounts))) (currency : String) :
    (KeepsCents (termsOf rows currency) →
        recurringRevenue rows currency =
          (exactRevenue (recurring today accounts) currency).map .ok) ∧
      (recurringRevenue rows currency =
          (exactRevenue (recurring today accounts) currency).map .ok →
        twelfths (termsOf rows currency).sum < 10 ^ 26 →
        ¬ LosesHalf (termsOf rows currency)) := by
  have recurs : ∀ account ∈ recurring today accounts,
      account.subscription.billingInterval ≠ .oneOff :=
    fun account member => (mem_recurring member).2
  have nonneg : ∀ account ∈ recurring today accounts, 0 ≤ account.subscription.netPrice := by
    intro account member
    have checked := valid account (mem_recurring member).1
    unfold CustomerSubscription.checkRow at checked
    simp only [guard_eq_ok, not_not] at checked
    exact checked.2.2.1
  have rowsRecur : ∀ row ∈ rows, row.billingInterval ≠ .oneOff := by
    intro row member
    have ⟨account, stored, _, sameInterval⟩ := exists_of_mem_rows order member
    exact sameInterval ▸ recurs account stored
  have exactSum : (((recurring today accounts).filter
      (·.subscription.currency = currency)).map Account.monthlyPrice).sum =
        twelfths (termsOf rows currency).sum := by
    rw [sum_monthlyPrice fun account member => recurs account (List.mem_filter.mp member).1,
      sum_termsOf order]
  have emptied := rows_eq_nil_iff order currency
  rw [recurringRevenue_eq rowsRecur, exactRevenue]
  by_cases unused : rows.filter (·.currency = currency) = []
  · rw [if_pos unused, if_pos (emptied.mp unused)]
    constructor
    · intro _
      rfl
    · rintro _ _ ⟨tie, -⟩
      rw [termsOf, unused] at tie
      cases tie
  · rw [if_neg unused, if_neg (mt emptied.mpr unused), exactSum, Option.map_some,
      Option.some.injEq]
    constructor
    · rintro (⟨small, keeps⟩ | ⟨short, below⟩)
      · exact (quantize_roundedSum_iff (modest_termsOf order recurs nonneg small)).mpr keeps
      · have sumNonneg : 0 ≤ twelfths (termsOf rows currency).sum := by
          rw [← roundedSum_of_short short]
          exact roundedSum_nonneg (termsOf_nonneg order nonneg)
        rw [roundedSum_of_short short]
        exact quantize_of_lt sumNonneg below rfl
    · intro same small
      exact (quantize_roundedSum_iff (modest_termsOf order recurs nonneg small)).mp same

/-! ### Samples -/

def agreement (netPrice : Int) (billingInterval : BillingInterval) : Account where
  subscription := { hosting.subscription with
    netPrice := netPrice
    billingInterval := billingInterval }
  charges := []

def october : Date :=
  ⟨2026, 10, 19, by decide⟩

/-- Agreements over 100.00 a month and 100.00 a quarter. -/
def ordinaryAgreements : List Account :=
  [agreement 10000 .monthly, agreement 10000 .quarterly]

theorem keepsCents_ordinary :
    KeepsCents (termsOf (revenueRows (recurring october ordinaryAgreements)) "EUR") := by
  have terms : termsOf (revenueRows (recurring october ordinaryAgreements)) "EUR" =
      [120000, 40000] := by decide +kernel
  rw [terms]
  left
  constructor
  · norm_num [twelfths]
  · rintro ⟨tie, -⟩
    exact absurd tie (by decide)

theorem recurringRevenue_exact_ordinary :
    recurringRevenue (revenueRows (recurring october ordinaryAgreements)) "EUR" =
      (exactRevenue (recurring october ordinaryAgreements) "EUR").map .ok := by
  have valid : ∀ account ∈ ordinaryAgreements, account.subscription.checkRow = .ok () := by decide
  exact (recurringRevenue_exact valid (List.Perm.refl _) "EUR").1 keepsCents_ordinary

/-- Prices of 0.10, 0.08 and 0.22 that amount to exactly 6.5 cents a month. -/
def smallAgreements : List Account :=
  [agreement 10 .quarterly, agreement 8 .semiannual, agreement 22 .annual]

theorem half_cent_lost :
    (∀ account ∈ smallAgreements, account.subscription.checkRow = .ok ()) ∧
      recurringRevenue (revenueRows (recurring october smallAgreements)) "EUR" = some (.ok 6) ∧
      exactRevenue (recurring october smallAgreements) "EUR" = some 7 := by
  refine ⟨by decide, ?_, ?_⟩
  · decide +kernel
  · decide +kernel

end BubllioCrm.Subscriptions
