import BubllioCrm.Foundations.Aggregates
import BubllioCrm.Subscriptions.Reachable

/-!
Owns the billing overview of a workspace: the aggregates the database computes
over the rows of subscriptions, charges and payments, and that they agree with
the properties of the rows.

Every charge and payment belongs to the workspace of its subscription, so the
accounts of the workspace hold them all. The renewals of the next 30 days and
the recurring revenue are not owned here.
-/

namespace BubllioCrm.Subscriptions

open BubllioCrm.Foundations

/-! ### The query -/

/-- `today.replace(day=1)`. -/
def monthStart (today : Date) : Date where
  year := today.year
  month := today.month
  day := 1
  valid := by
    obtain ⟨yearPos, yearLe, monthPos, monthLe, -, -⟩ := today.valid
    exact ⟨yearPos, yearLe, monthPos, monthLe, le_rfl, monthLength_pos _ _⟩

/-- A sum of a query for each currency. -/
abbrev Totals := String → Option (Option Int)

structure Overview where
  activeSubscriptions : Nat
  scheduledCancellations : Nat
  overdueCharges : Nat
  openBalances : Totals
  overdueBalances : Totals
  collectedThisMonth : Totals

/-- The two filters of `active`. A comparison with null is not true. -/
def activeAccounts (today : Date) (accounts : List Account) : List Account :=
  (accounts.filter fun account =>
    account.subscription.status = .active ∨ account.subscription.status = .cancelling ∧
      account.subscription.cancellationEffectiveDate.any (today ≤ ·)).filter
    fun account => account.subscription.endDate.all (today ≤ ·)

/-- `Charge.objects.filter(organization=organization)`. -/
def chargeRows (accounts : List Account) : List Charge :=
  accounts.flatMap Account.charges

/-- A payment joined with its charge. -/
def paymentRows (accounts : List Account) : List (Charge × Payment) :=
  (chargeRows accounts).flatMap fun charge => charge.payments.map fun payment => (charge, payment)

/-- `Greatest(gross_amount - Coalesce(Subquery(paid), 0), 0)`. -/
def balance (charge : Charge) : Int :=
  max (charge.grossAmount - (sumOf (charge.payments.map Payment.amount)).getD 0) 0

/-- A row of `balances`. -/
structure BalanceRow where
  currency : String
  total : Option Int
  overdue : Option Int
  overdueCount : Nat

def balanceRow (today : Date) (group : String × List Charge) : BalanceRow where
  currency := group.1
  total := sumOf (group.2.map balance)
  overdue := sumOf ((group.2.filter (·.dueDate < today)).map balance)
  overdueCount := group.2.countP (·.dueDate < today)

def balances (today : Date) (charges : List Charge) : List BalanceRow :=
  (groupBy Charge.currency (charges.filter (0 < balance ·))).map (balanceRow today)

/-- The variables of the loop over `balances`. -/
structure BalanceTotals where
  openBalances : Totals := fun _ => none
  overdueBalances : Totals := fun _ => none
  overdueCount : Nat := 0

def BalanceTotals.visit (totals : BalanceTotals) (row : BalanceRow) : BalanceTotals where
  openBalances := assign totals.openBalances (row.currency, row.total)
  overdueBalances :=
    if row.overdueCount ≠ 0 then assign totals.overdueBalances (row.currency, row.overdue)
    else totals.overdueBalances
  overdueCount := totals.overdueCount + row.overdueCount

/-- `payments.values("charge__currency").annotate(total=Sum("amount"))`. -/
def collected (payments : List (Charge × Payment)) : List (String × Option Int) :=
  (groupBy (fun row => row.1.currency) payments).map fun group =>
    (group.1, sumOf (group.2.map fun row => row.2.amount))

def subscriptionOverview (today : Date) (accounts : List Account) : Overview :=
  let active := activeAccounts today accounts
  let charges := (chargeRows accounts).filter (·.state = .open)
  let payments := (paymentRows accounts).filter fun row =>
    monthStart today ≤ row.2.paidDate ∧ row.2.paidDate ≤ today
  let totals := (balances today charges).foldl BalanceTotals.visit {}
  { activeSubscriptions := active.length
    scheduledCancellations := (active.filter (·.subscription.status = .cancelling)).length
    overdueCharges := totals.overdueCount
    openBalances := totals.openBalances
    overdueBalances := totals.overdueBalances
    collectedThisMonth := (collected payments).foldl assign fun _ => none }

/-! ### The definition -/

/-- The sum of a column, absent without a row. -/
def totalOf {Row : Type} (value : Row → Int) (rows : List Row) : Option (Option Int) :=
  if rows = [] then none else some (some (rows.map value).sum)

/-- An open charge with a balance. -/
def Charge.Owed (charge : Charge) : Prop :=
  charge.state = .open ∧ 0 < charge.outstandingAmount

instance : DecidablePred Charge.Owed := fun charge => by
  unfold Charge.Owed
  infer_instance

/-- A payment of the month of `today` that is not later than `today`. -/
def Payment.InMonth (payment : Payment) (today : Date) : Prop :=
  payment.paidDate.year = today.year ∧ payment.paidDate.month = today.month ∧
    payment.paidDate ≤ today

instance (payment : Payment) (today : Date) : Decidable (payment.InMonth today) := by
  unfold Payment.InMonth
  infer_instance

/-- What the overview is to say about the accounts of a workspace. -/
structure Overview.Describes (overview : Overview) (today : Date) (accounts : List Account) :
    Prop where
  activeSubscriptions : overview.activeSubscriptions =
    accounts.countP fun account =>
      account.subscription.effectiveStatus today ∈ [Status.active, Status.cancelling]
  scheduledCancellations : overview.scheduledCancellations =
    accounts.countP fun account => account.subscription.effectiveStatus today = .cancelling
  openBalances : ∀ currency, overview.openBalances currency =
    totalOf Charge.outstandingAmount ((chargeRows accounts).filter fun charge =>
      charge.Owed ∧ charge.currency = currency)
  overdueBalances : ∀ currency, overview.overdueBalances currency =
    totalOf Charge.outstandingAmount ((chargeRows accounts).filter fun charge =>
      charge.Owed ∧ charge.dueDate < today ∧ charge.currency = currency)
  overdueCharges : overview.overdueCharges =
    (chargeRows accounts).countP fun charge => charge.Owed ∧ charge.dueDate < today
  collectedThisMonth : ∀ currency, overview.collectedThisMonth currency =
    totalOf (fun row => row.2.amount) ((paymentRows accounts).filter fun row =>
      row.2.InMonth today ∧ row.1.currency = currency)

variable {today : Date} {account : Account} {accounts : List Account}

/-! ### Subscriptions -/

/-- A subscription that is stored as cancelling has its effective date. -/
def Account.Dated (account : Account) : Prop :=
  account.subscription.status = .cancelling →
    ∃ date, account.subscription.cancellationEffectiveDate = some date

theorem all_le_iff_not_any_lt {date : Option Date} :
    date.all (today ≤ ·) = true ↔ ¬ date.any (· < today) = true := by
  cases date <;> simp

/-- The filters of the query and the property of the row agree. -/
theorem effectiveStatus_active_iff (dated : account.Dated) :
    account.subscription.effectiveStatus today ∈ [Status.active, Status.cancelling] ↔
      (account.subscription.status = .active ∨ account.subscription.status = .cancelling ∧
        account.subscription.cancellationEffectiveDate.any (today ≤ ·) = true) ∧
      account.subscription.endDate.all (today ≤ ·) = true := by
  rw [all_le_iff_not_any_lt]
  unfold CustomerSubscription.effectiveStatus
  cases status : account.subscription.status with
  | cancelling =>
      have ⟨date, stored⟩ := dated status
      rw [stored]
      by_cases past : account.subscription.endDate.any (· < today) = true
      · simp [past]
      · by_cases ended : date < today
        · simp [past, ended]
        · simp [past, ended, not_lt.mp ended]
  | active => by_cases past : account.subscription.endDate.any (· < today) = true <;> simp [past]
  | paused => by_cases past : account.subscription.endDate.any (· < today) = true <;> simp [past]
  | cancelled => simp
  | expired => simp

theorem activeAccounts_eq (dated : ∀ account ∈ accounts, account.Dated) :
    activeAccounts today accounts = accounts.filter fun account =>
      account.subscription.effectiveStatus today ∈ [Status.active, Status.cancelling] := by
  unfold activeAccounts
  rw [List.filter_filter]
  apply List.filter_congr
  intro account member
  rw [← Bool.decide_coe (_ && _), decide_eq_decide,
    effectiveStatus_active_iff (dated account member), Bool.and_eq_true, decide_eq_true_eq]
  exact and_comm

/-- An agreement that counts as active and is stored as cancelling is
cancelling. -/
theorem effectiveStatus_cancelling_iff :
    account.subscription.effectiveStatus today = .cancelling ↔
      account.subscription.effectiveStatus today ∈ [Status.active, Status.cancelling] ∧
        account.subscription.status = .cancelling := by
  unfold CustomerSubscription.effectiveStatus
  split_ifs with past ended
  · simp
  · simp
  · simp only [List.mem_cons, List.not_mem_nil, or_false]
    exact ⟨fun cancelling => ⟨Or.inr cancelling, cancelling⟩, And.right⟩

/-! ### Balances -/

theorem balance_eq (charge : Charge) : balance charge = charge.outstandingAmount := by
  unfold balance Charge.outstandingAmount Charge.paidAmount
  rw [sumOf_getD]

/-- The loop fills the dictionaries row by row and adds up the counts. -/
theorem foldl_visit (rows : List BalanceRow) (totals : BalanceTotals) :
    rows.foldl BalanceTotals.visit totals =
      { openBalances :=
          (rows.map fun row => (row.currency, row.total)).foldl assign totals.openBalances
        overdueBalances :=
          ((rows.filter (·.overdueCount ≠ 0)).map fun row => (row.currency, row.overdue)).foldl
            assign totals.overdueBalances
        overdueCount := totals.overdueCount + (rows.map BalanceRow.overdueCount).sum } := by
  induction rows generalizing totals with
  | nil => rfl
  | cons row rest inductionHypothesis =>
      rw [List.foldl_cons, inductionHypothesis]
      by_cases none : row.overdueCount = 0
      · simp [BalanceTotals.visit, none]
      · simp [BalanceTotals.visit, none, Nat.add_assoc]

/-- The open charges with a balance, as the query and as the rows have them. -/
theorem filter_owed (charges : List Charge) :
    (charges.filter (·.state = .open)).filter (0 < balance ·) =
      charges.filter fun charge => charge.Owed := by
  rw [List.filter_filter]
  apply List.filter_congr
  intro charge _
  rw [balance_eq, Bool.and_comm, ← Bool.decide_and]
  rfl

theorem totalOf_eq {Row : Type} (value : Row → Int) (rows : List Row) :
    totalOf value rows = if rows ≠ [] then some (sumOf (rows.map value)) else none := by
  unfold totalOf
  by_cases empty : rows = []
  · simp [empty]
  · have notEmpty : rows.map value ≠ [] := by simpa using empty
    rw [if_neg empty, if_pos empty, sumOf_of_ne_nil notEmpty]

section Balances

variable (today : Date) (owed : List Charge) (currency : String)

/-- The rows of the query for the charges with a balance. -/
def owedRows (today : Date) (owed : List Charge) : List BalanceRow :=
  (groupBy Charge.currency owed).map (balanceRow today)

theorem foldl_owedRows_open :
    ((owedRows today owed).foldl BalanceTotals.visit {}).openBalances currency =
      totalOf Charge.outstandingAmount (owed.filter (·.currency = currency)) := by
  have rows : (owedRows today owed).map (fun row => (row.currency, row.total)) =
      (groupBy Charge.currency owed).map fun group => (group.1, sumOf (group.2.map balance)) :=
    List.map_map
  have distinct : (((groupBy Charge.currency owed).map fun group =>
      (group.1, sumOf (group.2.map balance))).map Prod.fst).Nodup := by
    rw [List.map_map]
    exact groupBy_keys Charge.currency owed ▸ List.nodup_dedup _
  rw [foldl_visit]
  dsimp only
  rw [rows, foldl_assign distinct, Option.or_none, totalOf_eq,
    lookup_groupBy Charge.currency fun rows => sumOf (rows.map balance), funext balance_eq]

theorem foldl_owedRows_overdue :
    ((owedRows today owed).foldl BalanceTotals.visit {}).overdueBalances currency =
      totalOf Charge.outstandingAmount ((owed.filter (·.currency = currency)).filter
        (·.dueDate < today)) := by
  have rows : ((owedRows today owed).filter (·.overdueCount ≠ 0)).map
        (fun row => (row.currency, row.overdue)) =
      ((groupBy Charge.currency owed).filter fun group =>
        group.2.countP (·.dueDate < today) ≠ 0).map fun group =>
          (group.1, sumOf ((group.2.filter (·.dueDate < today)).map balance)) := by
    unfold owedRows
    rw [List.filter_map, List.map_map]
    rfl
  have distinct : ((((groupBy Charge.currency owed).filter fun group =>
        group.2.countP (·.dueDate < today) ≠ 0).map fun group =>
          (group.1, sumOf ((group.2.filter (·.dueDate < today)).map balance))).map
      Prod.fst).Nodup := by
    rw [List.map_map]
    exact List.Nodup.sublist (List.filter_sublist.map _)
      (groupBy_keys Charge.currency owed ▸ List.nodup_dedup _)
  rw [foldl_visit]
  dsimp only
  rw [rows, foldl_assign distinct, Option.or_none, totalOf_eq]
  refine Eq.trans (lookup_filter_groupBy Charge.currency
    (fun rows => rows.countP (·.dueDate < today) ≠ 0)
    (fun rows => sumOf ((rows.filter (·.dueDate < today)).map balance)) owed currency) ?_
  generalize owed.filter (·.currency = currency) = part
  have counted : part.countP (·.dueDate < today) ≠ 0 ↔ part.filter (·.dueDate < today) ≠ [] := by
    rw [List.countP_eq_length_filter, ne_eq, List.length_eq_zero_iff]
  by_cases overdue : part.filter (·.dueDate < today) = []
  · have uncounted : ¬ (part ≠ [] ∧ decide (part.countP (·.dueDate < today) ≠ 0) = true) :=
      fun counts => counted.mp (of_decide_eq_true counts.2) overdue
    rw [if_neg (not_not.mpr overdue), if_neg uncounted]
  · have someRow : part ≠ [] := by
      rintro rfl
      exact overdue rfl
    rw [if_pos overdue, if_pos ⟨someRow, decide_eq_true (counted.mpr overdue)⟩, funext balance_eq]

theorem foldl_owedRows_count :
    ((owedRows today owed).foldl BalanceTotals.visit {}).overdueCount =
      owed.countP (·.dueDate < today) := by
  have rows : (owedRows today owed).map BalanceRow.overdueCount =
      (groupBy Charge.currency owed).map fun group => group.2.countP (·.dueDate < today) :=
    List.map_map
  rw [foldl_visit]
  dsimp only
  rw [rows, sum_countP_groupBy, Nat.zero_add]

end Balances

/-! ### Payments -/

/-- The dates from the first of the month to today are those of the month up to
today. -/
theorem inMonth_iff {payment : Payment} :
    monthStart today ≤ payment.paidDate ∧ payment.paidDate ≤ today ↔ payment.InMonth today := by
  have paidDay := payment.paidDate.day_le
  have todayDay := today.day_le
  obtain ⟨-, -, paidMonth, paidMonth', paidPos, -⟩ := payment.paidDate.valid
  obtain ⟨-, -, todayMonth, todayMonth', todayPos, -⟩ := today.valid
  unfold Payment.InMonth
  rw [Date.le_iff_rank, Date.le_iff_rank]
  simp only [Date.rank, monthStart]
  omega

theorem collected_eq (payments : List (Charge × Payment)) (currency : String) :
    (collected payments).foldl assign (fun _ => none) currency =
      totalOf (fun row => row.2.amount) (payments.filter (·.1.currency = currency)) := by
  have distinct : ((collected payments).map Prod.fst).Nodup := by
    unfold collected
    rw [List.map_map]
    exact groupBy_keys (fun row : Charge × Payment => row.1.currency) payments ▸ List.nodup_dedup _
  rw [foldl_assign distinct, Option.or_none, totalOf_eq, collected,
    lookup_groupBy (fun row : Charge × Payment => row.1.currency) fun rows =>
      sumOf (rows.map fun row => row.2.amount)]

/-! ### The overview -/

/-- The overview of accounts whose cancellations are dated is what it is to
be. -/
theorem subscriptionOverview_describes (today : Date)
    (dated : ∀ account ∈ accounts, account.Dated) :
    (subscriptionOverview today accounts).Describes today accounts where
  activeSubscriptions := by
    unfold subscriptionOverview
    dsimp only
    rw [activeAccounts_eq dated, List.countP_eq_length_filter]
  scheduledCancellations := by
    unfold subscriptionOverview
    dsimp only
    rw [activeAccounts_eq dated, List.filter_filter, List.countP_eq_length_filter]
    congr 1
    apply List.filter_congr
    intro account _
    rw [← Bool.decide_and, decide_eq_decide, effectiveStatus_cancelling_iff, and_comm]
  openBalances := by
    intro currency
    unfold subscriptionOverview balances
    dsimp only
    rw [filter_owed]
    refine (foldl_owedRows_open today _ currency).trans ?_
    rw [List.filter_filter]
    simp only [Bool.decide_and, Bool.and_comm]
  overdueBalances := by
    intro currency
    unfold subscriptionOverview balances
    dsimp only
    rw [filter_owed]
    refine (foldl_owedRows_overdue today _ currency).trans ?_
    rw [List.filter_filter, List.filter_filter]
    simp only [Bool.decide_and, Bool.and_comm]
  overdueCharges := by
    unfold subscriptionOverview balances
    dsimp only
    rw [filter_owed]
    refine (foldl_owedRows_count today _).trans ?_
    rw [List.countP_filter]
    simp only [Bool.decide_and, Bool.and_comm]
  collectedThisMonth := by
    intro currency
    unfold subscriptionOverview
    dsimp only
    rw [collected_eq, List.filter_filter]
    simp only [inMonth_iff, Bool.decide_and, Bool.and_comm]

/-- For every state that any interleaving of requests reaches, the overview of
any of its subscriptions on any day is what it is to be. -/
theorem overview_correct (actions : List LedgerAction) (ids : List Nat) (today : Date) :
    (subscriptionOverview today
      (ids.filterMap (run Ledger.step Ledger.empty actions).accounts)).Describes today
      (ids.filterMap (run Ledger.step Ledger.empty actions).accounts) := by
  apply subscriptionOverview_describes
  intro account member cancelling
  have ⟨id, _, stored⟩ := List.mem_filterMap.mp member
  exact Account.Reachable.cancelling ⟨actions, id, stored⟩ cancelling

end BubllioCrm.Subscriptions
