import BubllioCrm.Foundations.Decimals
import BubllioCrm.Subscriptions.Continuity

/-!
Owns what a create request of a customer service stores: the agreement, then its
first charge, then the timeline event, with no transaction around them, and
whether the list of the workspace still serialises afterwards.

The timeline event goes to another table and undoes neither write, so it is left
out.
-/

namespace BubllioCrm.Subscriptions

open BubllioCrm.Foundations

/-! ### The list of the workspace -/

/-- What the serializer shows of the terms of an agreement. -/
structure Prices where
  netPrice : Int
  taxRate : Int
  taxAmount : Int
  grossPrice : Int
deriving DecidableEq

def CustomerSubscription.represent (subscription : CustomerSubscription) :
    Except DecimalError Prices := do
  let netPrice ← toRepresentation 14 subscription.netPrice
  let taxRate ← toRepresentation 5 subscription.taxRate
  let taxAmount ← toRepresentation 14 subscription.taxAmount
  let grossPrice ← toRepresentation 14 subscription.grossPrice
  return ⟨netPrice, taxRate, taxAmount, grossPrice⟩

/-- `CustomerSubscriptionSerializer(subscriptions, many=True).data`. -/
def representAll (accounts : List Account) : Except DecimalError (List Prices) :=
  accounts.mapM fun account => account.subscription.represent

/-! ### The create request -/

/-- `CustomerSubscriptionSerializer.create`, where `admits` is whether the text
columns of the table take the row. -/
def create (admits : CustomerSubscription → Bool) (validatedData : SubscriptionAttrs)
    (accounts : List Account) : List Account :=
  match createSubscription validatedData with
  | .ok account => if admits account.subscription then accounts ++ [account] else accounts
  | .error _ => accounts

/-- Both rows are stored or none is, and a list that serialises goes on to. -/
structure AllOrNothing (row : CustomerSubscription) (before after : List Account) : Prop where
  stored : after = before ∨ ∃ charge, charge.dueDate = row.nextBillingDate ∧
    after = before ++ [{ subscription := row, charges := [charge] }]
  listed : (∃ prices, representAll before = .ok prices) →
    ∃ prices, representAll after = .ok prices

/-- The net price with the tax rounds to an amount of fourteen digits, and the
month after the first period is one of the supported years. -/
def CustomerSubscription.FirstChargeFits (row : CustomerSubscription) : Prop :=
  row.netPrice * (10000 + row.taxRate) < 10 ^ 18 - 5000 ∧
    ∀ months, row.billingInterval.months = some months →
      row.nextBillingDate.year * 12 + row.nextBillingDate.month + months ≤ 9999 * 12 + 12

variable {row : CustomerSubscription} {attrs validated : SubscriptionAttrs} {account : Account}
  {accounts : List Account}

/-! ### The validated row -/

theorem fitsColumn_iff {amount : Int} : FitsColumn amount ↔ FitsDigits 14 amount :=
  abs_lt.symm

/-- A payload that misses no field has a value for each column. -/
theorem toRow_of_complete {startDate nextBillingDate : Date}
    (complete : ¬ missingFields none attrs ≠ []) (starts : attrs.startDate = some startDate)
    (bills : attrs.nextBillingDate = some nextBillingDate) (upper : String → String) :
    ∃ row, SubscriptionAttrs.toRow { attrs with currency := attrs.currency.map upper } = some row ∧
      attrs.netPrice = some row.netPrice ∧ attrs.taxRate = some row.taxRate ∧
      row.startDate = startDate ∧ row.endDate = attrs.endDate.join := by
  unfold missingFields at complete
  unfold SubscriptionAttrs.toRow
  cases name : attrs.name with
  | none => simp [name] at complete
  | some _ =>
      cases netPrice : attrs.netPrice with
      | none => simp [netPrice] at complete
      | some _ =>
          cases currency : attrs.currency with
          | none => simp [currency] at complete
          | some _ =>
              cases taxRate : attrs.taxRate with
              | none => simp [taxRate] at complete
              | some _ =>
                  cases interval : attrs.billingInterval with
                  | none => simp [interval] at complete
                  | some _ =>
                      rw [starts, bills]
                      exact ⟨_, rfl, rfl, rfl, rfl, rfl⟩

/-- What passes the checks of the serializer passes those of the table. -/
theorem insertSubscription_validated {upper : String → String} {today : Date}
    {catalogItem : Option ServiceCatalogItem}
    (digits : attrs.netPrice.all (FitsDigits 14 ·))
    (catalogDigits : catalogItem.all (FitsDigits 14 ·.defaultNetPrice))
    (accepted : validate upper today none catalogItem attrs = .ok validated) :
    ∃ row, validated.toRow = some row ∧ insertSubscription validated = .ok row := by
  unfold validate at accepted
  simp only [Option.isSome_none, Bool.false_eq_true, if_false, guard_eq_ok,
    Except.ok.injEq] at accepted
  obtain ⟨complete, netPrice, taxRate, endsEarly, -, rfl⟩ := accepted
  obtain ⟨row, isRow, isNet, isRate, isStart, isEnd⟩ :=
    toRow_of_complete complete rfl rfl upper
  refine ⟨row, isRow, ?_⟩
  have netFits : FitsColumn row.netPrice := by
    rw [fitsColumn_iff]
    have chosen : (attrs.netPrice <|> catalogItem.map ServiceCatalogItem.defaultNetPrice) =
      some row.netPrice := isNet
    cases named : attrs.netPrice with
    | none =>
        cases item : catalogItem with
        | none => simp [named, item] at chosen
        | some item => simp_all
    | some price => simp_all
  have netNonneg : 0 ≤ row.netPrice := by simpa [isNet] using netPrice
  have rate : 0 ≤ row.taxRate ∧ row.taxRate ≤ 10000 := by
    simp only [isRate, Option.map_none, Option.orElse_eq_orElse] at taxRate
    simpa using taxRate
  have ends : row.endDate.all (row.startDate ≤ ·) := by
    rw [isEnd, isStart, Option.all_eq_true]
    intro last isLast
    have named : attrs.endDate.getD none = some last := by
      have joined : attrs.endDate.join = some last := isLast
      rw [← joined]
      cases attrs.endDate <;> rfl
    have within : ¬ endsBefore (some last) (some (attrs.startDate.getD today)) := by
      rw [← named]
      exact endsEarly
    simpa [endsBefore] using within
  have checked : row.checkRow = .ok () := by
    unfold CustomerSubscription.checkRow
    simp only [guard_eq_ok, not_not]
    exact ⟨netFits, rate, netNonneg, ends, trivial⟩
  unfold insertSubscription
  rw [isRow]
  dsimp only
  rw [checked]
  rfl

/-! ### The first charge -/

theorem periodEnd_isOk_iff {start : Date} :
    (∃ last, periodEnd row start = .ok last) ↔
      ∀ months, row.billingInterval.months = some months →
        start.year * 12 + start.month + months ≤ 9999 * 12 + 12 := by
  unfold periodEnd
  cases recurs : row.billingInterval.months with
  | none => simp
  | some months =>
      simp only [Option.some.injEq, forall_eq']
      rw [← Date.addMonths_isSome_iff]
      constructor
      · rintro ⟨last, ended⟩
        cases added : start.addMonths months with
        | none => simp [added] at ended
        | some later => exact ⟨later, rfl⟩
      · rintro ⟨later, added⟩
        obtain ⟨last, before⟩ := Date.previousDay_of_lt
          (Date.lt_addMonths (BillingInterval.months_pos recurs) added)
        exact ⟨last, by rw [added, Option.bind_some, before]⟩

theorem firstPeriodWritable_iff (inserted : insertSubscription validated = .ok row) :
    FirstPeriodWritable row ↔ row.FirstChargeFits := by
  obtain ⟨-, ⟨rateNonneg, -⟩, netNonneg⟩ := insertSubscription_checked inserted
  have gross : FitsDigits 14 row.grossPrice ↔
      |row.netPrice| * (10000 + row.taxRate) < 10 ^ 18 - 5000 := gross_fits_iff rateNonneg
  rw [abs_of_nonneg netNonneg] at gross
  unfold FirstPeriodWritable CustomerSubscription.FirstChargeFits
  rw [periodEnd_isOk_iff, fitsColumn_iff, and_comm]
  exact and_congr_left' gross

/-- The list shows an agreement whose gross price has the digits of its field. -/
theorem represent_isOk (inserted : insertSubscription validated = .ok row)
    (grossFits : FitsColumn row.grossPrice) : ∃ prices, row.represent = .ok prices := by
  obtain ⟨netFits, ⟨rateNonneg, rateLe⟩, netNonneg⟩ := insertSubscription_checked inserted
  rw [fitsColumn_iff] at netFits grossFits
  have rateFits : FitsDigits 5 row.taxRate := by
    unfold FitsDigits
    rw [abs_lt]
    omega
  have taxFits : FitsDigits 14 row.taxAmount :=
    fitsDigits_of_between netFits (tax_between row.netPrice rateNonneg rateLe)
  unfold CustomerSubscription.represent toRepresentation
  rw [if_pos netFits, if_pos rateFits, if_pos taxFits, if_pos grossFits]
  exact ⟨_, rfl⟩

theorem created_listed (inserted : insertSubscription validated = .ok row)
    (grossFits : FitsColumn row.grossPrice) (charges : List Charge)
    (listed : ∃ prices, representAll accounts = .ok prices) :
    ∃ prices, representAll (accounts ++ [{ subscription := row, charges := charges }]) =
      .ok prices := by
  unfold representAll at *
  rw [mapM_isOk] at *
  intro account member
  rcases List.mem_append.mp member with earlier | last
  · exact listed account earlier
  · rw [List.mem_singleton] at last
    rw [last]
    exact represent_isOk inserted grossFits

theorem createSubscription_of_insert (inserted : insertSubscription validated = .ok row) :
    createSubscription validated = .ok { subscription := row, charges := firstCharge row [] } := by
  unfold createSubscription
  rw [inserted]
  rfl

/-- A create request stores both rows or none, and leaves a list that serialises,
exactly when the text columns refuse the agreement or its first charge fits. -/
theorem create_allOrNothing_iff {upper : String → String} {today : Date}
    {catalogItem : Option ServiceCatalogItem} (admits : CustomerSubscription → Bool)
    (accounts : List Account)
    (digits : attrs.netPrice.all (FitsDigits 14 ·))
    (catalogDigits : catalogItem.all (FitsDigits 14 ·.defaultNetPrice))
    (accepted : validate upper today none catalogItem attrs = .ok validated) :
    ∃ row, validated.toRow = some row ∧
      (AllOrNothing row accounts (create admits validated accounts) ↔
        (admits row → row.FirstChargeFits)) := by
  obtain ⟨row, isRow, inserted⟩ := insertSubscription_validated digits catalogDigits accepted
  refine ⟨row, isRow, ?_⟩
  have created := createSubscription_of_insert inserted
  have charged := created_charges_iff created
  unfold create
  rw [created, ← firstPeriodWritable_iff inserted]
  dsimp only
  by_cases admitted : admits row
  · rw [if_pos admitted, imp_iff_right admitted]
    constructor
    · intro complete
      rcases complete.stored with nothing | ⟨charge, -, both⟩
      · simp at nothing
      · rw [← charged]
        simp_all
    · intro writable
      rcases (createSubscription_opened created).charges with none | ⟨last, -, -, single⟩
      · exact absurd none (charged.mpr writable)
      · constructor
        · right
          have charges : firstCharge row [] = _ := single
          rw [charges]
          exact ⟨_, rfl, rfl⟩
        · exact created_listed inserted writable.2 _
  · rw [if_neg admitted]
    constructor
    · intro _ impossible
      exact absurd impossible admitted
    · intro _
      exact ⟨Or.inl rfl, id⟩

/-! ### Samples -/

/-- A request that is billed from its first day on. -/
def monthlyAttrs (netPrice : Int) (startDate : Date) : SubscriptionAttrs where
  name := some "Support"
  netPrice := some netPrice
  currency := some "EUR"
  taxRate := some 2400
  billingInterval := some .monthly
  startDate := some startDate
  nextBillingDate := some startDate

theorem validate_monthly (netPrice : Int) (startDate : Date) (nonneg : 0 ≤ netPrice) :
    validate id startDate none none (monthlyAttrs netPrice startDate) =
      .ok (monthlyAttrs netPrice startDate) := by
  have notNegative : ¬ netPrice < 0 := by omega
  simp [validate, SubscriptionAttrs.withDefaults, missingFields, endsBefore, monthlyAttrs,
    notNegative]

def firstDay : Date :=
  ⟨2026, 11, 2, by decide⟩

/-- A day in the last month of the supported years. -/
def lastDecember : Date :=
  ⟨9999, 12, 1, by decide⟩

theorem create_allOrNothing_iff_ordinary :
    ∃ row, (monthlyAttrs 10000 firstDay).toRow = some row ∧
      (AllOrNothing row [] (create (fun _ => true) (monthlyAttrs 10000 firstDay) []) ↔
        (true → row.FirstChargeFits)) :=
  create_allOrNothing_iff (fun _ => true) [] (by decide) (by decide)
    (validate_monthly 10000 firstDay (by decide))

/-- The largest price of the column stores an agreement that has no charge and that
no list shows, and a start in the last month one that has no charge. -/
theorem agreement_without_charge :
    ¬ (∀ row, validate id firstDay none none (monthlyAttrs 99999999999999 firstDay) =
          .ok (monthlyAttrs 99999999999999 firstDay) →
        (monthlyAttrs 99999999999999 firstDay).toRow = some row →
        AllOrNothing row []
          (create (fun _ => true) (monthlyAttrs 99999999999999 firstDay) [])) ∧
      ¬ (∀ row, validate id lastDecember none none (monthlyAttrs 10000 lastDecember) =
          .ok (monthlyAttrs 10000 lastDecember) →
        (monthlyAttrs 10000 lastDecember).toRow = some row →
        AllOrNothing row [] (create (fun _ => true) (monthlyAttrs 10000 lastDecember) [])) := by
  constructor
  · intro complete
    have listed := (complete _ (validate_monthly _ _ (by decide)) rfl).listed ⟨[], rfl⟩
    obtain ⟨prices, shown⟩ := listed
    have failed : representAll (create (fun _ => true) (monthlyAttrs 99999999999999 firstDay) []) =
        .error .invalidOperation := by decide +kernel
    rw [failed] at shown
    cases shown
  · intro complete
    rcases (complete _ (validate_monthly _ _ (by decide)) rfl).stored with nothing | both
    · cases nothing
    · obtain ⟨charge, -, both⟩ := both
      cases both

end BubllioCrm.Subscriptions
