import BubllioCrm.Foundations.Fallible
import BubllioCrm.Subscriptions.Services

/-!
Owns what a successful service call says about the account it found and the
account it left: one inversion lemma for each service, with every guard the
service took. No later module unfolds a service.
-/

namespace BubllioCrm.Subscriptions

open BubllioCrm.Foundations

/-! ### Row checks -/

/-- What the charge table accepts. -/
structure Charge.RowValid (charge : Charge) : Prop where
  netFits : FitsColumn charge.netAmount
  taxFits : FitsColumn charge.taxAmount
  grossFits : FitsColumn charge.grossAmount
  net_nonneg : 0 ≤ charge.netAmount
  tax_nonneg : 0 ≤ charge.taxAmount
  gross_nonneg : 0 ≤ charge.grossAmount
  rate_nonneg : 0 ≤ charge.taxRate
  rate_le : charge.taxRate ≤ 10000
  coverage : charge.coverageStart ≤ charge.coverageEnd

theorem Charge.checkRow_ok {charge : Charge} : charge.checkRow = .ok () ↔ charge.RowValid := by
  unfold Charge.checkRow
  simp only [guard_eq_ok, not_not, and_true]
  constructor
  · rintro ⟨netFits, taxFits, grossFits, ⟨net, tax, gross⟩, ⟨rate, rateLe⟩, coverage⟩
    exact ⟨netFits, taxFits, grossFits, net, tax, gross, rate, rateLe, coverage⟩
  · rintro ⟨netFits, taxFits, grossFits, net, tax, gross, rate, rateLe, coverage⟩
    exact ⟨netFits, taxFits, grossFits, ⟨net, tax, gross⟩, ⟨rate, rateLe⟩, coverage⟩

/-! ### The first and every later charge -/

theorem periodEnd_ok {subscription : CustomerSubscription} {start last : Date}
    (ended : periodEnd subscription start = .ok last) :
    subscription.billingInterval.months = none ∧ last = start ∨
      ∃ months next, subscription.billingInterval.months = some months ∧
        start.addMonths months = some next ∧ next.previousDay = some last := by
  unfold periodEnd at ended
  cases recurs : subscription.billingInterval.months with
  | none =>
      rw [recurs] at ended
      exact Or.inl ⟨rfl, (Except.ok.inj ended).symm⟩
  | some months =>
      rw [recurs] at ended
      cases found : (start.addMonths months).bind Date.previousDay with
      | none => simp [found] at ended
      | some date =>
          simp only [found, Except.ok.injEq] at ended
          obtain ⟨next, added, before⟩ := Option.bind_eq_some_iff.mp found
          exact Or.inr ⟨months, next, rfl, added, ended ▸ before⟩

/-- A period never ends before it starts. -/
theorem le_periodEnd {subscription : CustomerSubscription} {start last : Date}
    (ended : periodEnd subscription start = .ok last) : start ≤ last := by
  rcases periodEnd_ok ended with ⟨-, rfl⟩ | ⟨months, next, recurs, added, before⟩
  · exact le_rfl
  · exact (Date.le_previousDay_iff before).mpr
      (Date.lt_addMonths (BillingInterval.months_pos recurs) added)

theorem ensureCharge_ok {subscription : CustomerSubscription} {charges next : List Charge}
    {dueDate : Date} (ensured : ensureCharge subscription charges dueDate = .ok next) :
    (∃ charge ∈ charges, charge.dueDate = dueDate) ∧ next = charges ∨
      ∃ coverageEnd, periodEnd subscription dueDate = .ok coverageEnd ∧
        (∀ charge ∈ charges, charge.dueDate ≠ dueDate) ∧
        (newCharge subscription charges.length dueDate coverageEnd).RowValid ∧
        next = charges ++ [newCharge subscription charges.length dueDate coverageEnd] := by
  unfold ensureCharge at ensured
  obtain ⟨coverageEnd, ended, rest⟩ := bind_eq_ok.mp ensured
  split_ifs at rest with present
  · left
    simp only [List.any_eq_true, decide_eq_true_eq] at present
    exact ⟨present, (pure_eq_ok.mp rest).symm⟩
  · right
    obtain ⟨⟨⟩, checked, built⟩ := bind_eq_ok.mp rest
    refine ⟨coverageEnd, ended, ?_, Charge.checkRow_ok.mp checked, (pure_eq_ok.mp built).symm⟩
    intro charge member same
    exact present (by simpa using ⟨charge, member, same⟩)

/-! ### Editing the agreement -/

/-- The two refusals of an edit did not apply. -/
theorem checkEditable_ok {newGrossAmount : Int} {newCurrency : String} {charge : Charge} :
    checkEditable newGrossAmount newCurrency charge = .ok () ↔
      charge.paidAmount ≤ newGrossAmount ∧
        (0 < charge.paidAmount → charge.currency = newCurrency) := by
  unfold checkEditable
  simp only [guard_eq_ok, not_lt, and_true, not_and, not_not]

/-- The outcome of an edit that passed its checks. -/
theorem updateSubscription_ok {attrs : SubscriptionAttrs} {account next : Account}
    (updated : updateSubscription attrs account = .ok next) :
    next.subscription = attrs.applyTo account.subscription ∧
      (attrs.isCommercial = false ∧ next.charges = account.charges ∨
        attrs.isCommercial = true ∧
        (∀ charge ∈ account.charges, charge.Editable →
          charge.paidAmount ≤ next.subscription.grossPrice ∧
          (0 < charge.paidAmount → charge.currency = next.subscription.currency) ∧
          (charge.reprice next.subscription).RowValid) ∧
        next.charges =
          updateWhere Charge.Editable (Charge.reprice next.subscription) account.charges) := by
  unfold updateSubscription at updated
  split_ifs at updated with commercial
  · obtain ⟨⟨⟩, allowed, rest⟩ := bind_eq_ok.mp updated
    obtain ⟨⟨⟩, -, rest⟩ := bind_eq_ok.mp rest
    obtain ⟨⟨⟩, valid, built⟩ := bind_eq_ok.mp rest
    obtain rfl := pure_eq_ok.mp built
    refine ⟨rfl, Or.inr ⟨commercial, ?_, rfl⟩⟩
    intro charge member editable
    have selected : charge ∈ account.charges.filter (fun charge => charge.Editable) := by
      simpa using ⟨member, editable⟩
    have accepted := checkEditable_ok.mp (forM_eq_ok.mp allowed charge selected)
    exact ⟨accepted.1, accepted.2, Charge.checkRow_ok.mp (forM_eq_ok.mp valid charge selected)⟩
  · obtain ⟨⟨⟩, checked, built⟩ := bind_eq_ok.mp updated
    obtain rfl := pure_eq_ok.mp built
    exact ⟨rfl, Or.inl ⟨by simpa using commercial, rfl⟩⟩

/-! ### Payments -/

/-- A settled `charge` of `subscription` is to be followed by one due on
`nextDate`. -/
structure RenewalDue (subscription : CustomerSubscription) (charge : Charge) (nextDate : Date) :
    Prop where
  settled : charge.outstandingAmount = 0
  active : subscription.status = .active
  autoRenew : subscription.autoRenew = true
  next : ∃ months, subscription.billingInterval.months = some months ∧
    charge.dueDate.addMonths months = some nextDate
  withinEnd : ∀ last, subscription.endDate = some last → nextDate ≤ last

private theorem all_le_iff {last : Option Date} {date : Date} :
    last.all (date ≤ ·) = true ↔ ∀ bound, last = some bound → date ≤ bound := by
  cases last <;> simp

theorem renewAfterPayment_ok {charge : Charge} {account next : Account}
    (renewed : renewAfterPayment charge account = .ok next) :
    next = account ∧ (∀ nextDate, ¬ RenewalDue account.subscription charge nextDate) ∨
      ∃ nextDate, RenewalDue account.subscription charge nextDate ∧
        next.subscription = { account.subscription with nextBillingDate := nextDate } ∧
        ensureCharge next.subscription account.charges nextDate = .ok next.charges := by
  unfold renewAfterPayment at renewed
  cases recurs : account.subscription.billingInterval.months with
  | none =>
      simp only [recurs, Except.ok.injEq] at renewed
      refine Or.inl ⟨renewed.symm, fun nextDate due => ?_⟩
      obtain ⟨months, some, -⟩ := due.next
      simp [recurs] at some
  | some months =>
      simp only [recurs] at renewed
      split_ifs at renewed with ready
      · obtain ⟨settled, active, autoRenew⟩ := ready
        cases added : charge.dueDate.addMonths months with
        | none => simp [added] at renewed
        | some nextDate =>
            simp only [added] at renewed
            split_ifs at renewed with within
            · obtain ⟨charges, ensured, built⟩ := bind_eq_ok.mp renewed
              obtain rfl := pure_eq_ok.mp built
              refine Or.inr ⟨nextDate, ⟨settled, active, by simpa using autoRenew,
                ⟨months, recurs, added⟩, all_le_iff.mp within⟩, rfl, ensured⟩
            · refine Or.inl ⟨(Except.ok.inj renewed).symm, fun other due => within ?_⟩
              obtain ⟨otherMonths, otherRecurs, otherAdded⟩ := due.next
              obtain rfl : months = otherMonths := by
                rw [recurs] at otherRecurs
                exact Option.some.inj otherRecurs
              obtain rfl : nextDate = other := by
                rw [added] at otherAdded
                exact Option.some.inj otherAdded
              exact all_le_iff.mpr due.withinEnd
      · refine Or.inl ⟨(Except.ok.inj renewed).symm, fun nextDate due => ready ?_⟩
        exact ⟨due.settled, due.active, by simpa using due.autoRenew⟩

/-- A payment that settles a charge of an endless agreement fails unless the
next date exists. -/
theorem renewAfterPayment_due {charge : Charge} {account next : Account} {months : Nat}
    (renewed : renewAfterPayment charge account = .ok next)
    (settled : charge.outstandingAmount = 0) (active : account.subscription.status = .active)
    (autoRenew : account.subscription.autoRenew = true)
    (endless : account.subscription.endDate = none)
    (recurs : account.subscription.billingInterval.months = some months) :
    ∃ nextDate, RenewalDue account.subscription charge nextDate := by
  cases added : charge.dueDate.addMonths months with
  | none =>
      unfold renewAfterPayment at renewed
      simp [recurs, settled, active, autoRenew, added] at renewed
  | some nextDate =>
      exact ⟨nextDate, settled, active, autoRenew, ⟨months, recurs, added⟩, by simp [endless]⟩

/-- What an accepted payment requires of the charge and its amount. -/
structure Charge.Accepts (charge : Charge) (payment : Payment) : Prop where
  isOpen : charge.state = .open
  positive : 0 < payment.amount
  within : payment.amount ≤ charge.outstandingAmount

theorem recordPayment_ok {chargeId : Nat} {payment : Payment} {account next : Account}
    (recorded : recordPayment chargeId payment account = .ok next) :
    ∃ charge ∈ account.charges, charge.id = chargeId ∧ charge.Accepts payment ∧
      renewAfterPayment (charge.addPayment payment)
        { account with charges :=
            updateWhere (·.id = chargeId) (Charge.addPayment payment) account.charges } =
        .ok next := by
  unfold recordPayment at recorded
  cases found : account.charges.find? (·.id = chargeId) with
  | none => simp [found] at recorded
  | some charge =>
      simp only [found, guard_eq_ok, not_not, not_le, not_lt] at recorded
      obtain ⟨isOpen, positive, within, renewed⟩ := recorded
      have isFound : charge.id = chargeId := by simpa using List.find?_some found
      exact ⟨charge, List.mem_of_find?_eq_some found, isFound, ⟨isOpen, positive, within⟩, renewed⟩

/-! ### Resuming -/

/-- The request date at which a stored status can be resumed. -/
def CustomerSubscription.Resumable (subscription : CustomerSubscription) (today : Date) : Prop :=
  subscription.effectiveStatus today = .cancelling ∨ subscription.effectiveStatus today = .paused

/-- A subscription that can be resumed is stored as cancelling or paused. -/
theorem CustomerSubscription.Resumable.status {subscription : CustomerSubscription} {today : Date}
    (resumable : subscription.Resumable today) :
    subscription.status = .cancelling ∨ subscription.status = .paused := by
  unfold CustomerSubscription.Resumable CustomerSubscription.effectiveStatus at resumable
  split_ifs at resumable <;> simp_all

/-- The latest kept `charge` is settled and its successor is due on
`nextDate`. -/
structure ContinuationDue (account : Account) (charge : Charge) (nextDate : Date) : Prop where
  latest : latestCharge account.charges = some charge
  settled : charge.outstandingAmount = 0
  next : ∃ months, account.subscription.billingInterval.months = some months ∧
    charge.dueDate.addMonths months = some nextDate

theorem continueCharges_ok {account next : Account}
    (continued : continueCharges account = .ok next) :
    next = account ∧ (∀ charge nextDate, ¬ ContinuationDue account charge nextDate) ∨
      ∃ charge nextDate, ContinuationDue account charge nextDate ∧
        next.subscription = { account.subscription with nextBillingDate := nextDate } ∧
        (reopenDue nextDate account.charges = some next.charges ∨
          reopenDue nextDate account.charges = none ∧
          ensureCharge next.subscription account.charges nextDate = .ok next.charges) := by
  unfold continueCharges at continued
  cases latest : latestCharge account.charges with
  | none =>
      simp only [latest, Except.ok.injEq] at continued
      refine Or.inl ⟨continued.symm, fun charge nextDate due => ?_⟩
      have some := due.latest
      simp [latest] at some
  | some charge =>
      simp only [latest] at continued
      split_ifs at continued with unsettled
      · refine Or.inl ⟨(Except.ok.inj continued).symm, fun other nextDate due => unsettled ?_⟩
        obtain rfl : charge = other := Option.some.inj (latest.symm.trans due.latest)
        exact due.settled
      · cases recurs : account.subscription.billingInterval.months with
        | none =>
            simp only [recurs, Except.ok.injEq] at continued
            refine Or.inl ⟨continued.symm, fun other nextDate due => ?_⟩
            obtain ⟨months, some, -⟩ := due.next
            simp [recurs] at some
        | some months =>
            simp only [recurs] at continued
            cases added : charge.dueDate.addMonths months with
            | none => simp [added] at continued
            | some nextDate =>
                simp only [added] at continued
                refine Or.inr ⟨charge, nextDate,
                  ⟨latest, not_not.mp unsettled, months, recurs, added⟩, ?_⟩
                cases reopened : reopenDue nextDate account.charges with
                | some charges =>
                    simp only [reopened, pure_eq_ok] at continued
                    exact continued ▸ ⟨rfl, Or.inl rfl⟩
                | none =>
                    simp only [reopened] at continued
                    obtain ⟨charges, ensured, built⟩ := bind_eq_ok.mp continued
                    exact pure_eq_ok.mp built ▸ ⟨rfl, Or.inr ⟨rfl, ensured⟩⟩

/-- A resumption behind a settled charge fails unless the next date exists. -/
theorem continueCharges_due {charge : Charge} {account next : Account} {months : Nat}
    (continued : continueCharges account = .ok next)
    (latest : latestCharge account.charges = some charge)
    (settled : charge.outstandingAmount = 0)
    (recurs : account.subscription.billingInterval.months = some months) :
    ∃ nextDate, ContinuationDue account charge nextDate := by
  cases added : charge.dueDate.addMonths months with
  | none =>
      unfold continueCharges at continued
      simp [latest, settled, recurs, added] at continued
  | some nextDate => exact ⟨nextDate, latest, settled, months, recurs, added⟩

/-- The row a resumption writes before it looks at the charges. -/
def CustomerSubscription.activated (subscription : CustomerSubscription) : CustomerSubscription :=
  { subscription with
    status := .active
    cancellationEffectiveDate := none
    cancelledAt := none }

theorem resumeSubscription_ok {clock : Clock} {account next : Account}
    (resumed : resumeSubscription clock account = .ok next) :
    account.subscription.Resumable clock.today ∧
      continueCharges { account with subscription := account.subscription.activated } =
        .ok next := by
  unfold resumeSubscription at resumed
  simp only [guard_eq_ok, not_not, List.mem_cons, List.not_mem_nil, or_false] at resumed
  exact resumed

end BubllioCrm.Subscriptions
