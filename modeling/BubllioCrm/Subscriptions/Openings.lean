import BubllioCrm.Subscriptions.Runs

/-!
Owns the converse of the effect relations: when exactly a request creates or
reopens a charge, in terms of the account it finds.

A charge is opened on the date that follows a settled charge, either because
no charge is due then and the new row can be written, or because a resumption
finds a cancelled charge there.
-/

namespace BubllioCrm.Subscriptions

open BubllioCrm.Foundations

variable {account next : Account} {request : Request}

/-! ### The latest charge -/

theorem latestCharge_eq_some {charges : List Charge} {latest : Charge}
    (found : latestCharge charges = some latest) :
    latest ∈ charges ∧ latest.state ≠ .cancelled ∧
      ∀ charge ∈ charges, charge.state ≠ .cancelled → charge.dueDate ≤ latest.dueDate := by
  have isMax : latest ∈ (keptCharges charges).argmax Charge.dueDate := found
  have member : latest ∈ keptCharges charges := List.argmax_mem isMax
  simp only [keptCharges, List.mem_filter, decide_eq_true_eq] at member
  refine ⟨member.1, member.2, fun charge stored kept => ?_⟩
  exact List.le_of_mem_argmax (by simpa [keptCharges] using ⟨stored, kept⟩) isMax

theorem latestCharge_eq_none {charges : List Charge} :
    latestCharge charges = none ↔ ∀ charge ∈ charges, charge.state = .cancelled := by
  unfold latestCharge keptCharges
  rw [List.argmax_eq_none, List.filter_eq_nil_iff]
  simp

/-- A new charge has a balance where its gross price is positive. -/
theorem newCharge_payable {subscription : CustomerSubscription} {id : Nat}
    {dueDate coverageEnd : Date} :
    0 < (newCharge subscription id dueDate coverageEnd).outstandingAmount ↔
      0 < subscription.grossPrice := by
  unfold CustomerSubscription.grossPrice
  simp only [Charge.outstandingAmount, Charge.paidAmount, newCharge, List.map_nil, List.sum_nil,
    sub_zero, lt_max_iff, lt_irrefl, or_false]

/-! ### Calls that get through -/

/-- A new charge due on `date` can be written. -/
def Chargeable (subscription : CustomerSubscription) (charges : List Charge) (date : Date) :
    Prop :=
  (∀ charge ∈ charges, charge.dueDate ≠ date) ∧
    ∃ coverageEnd, periodEnd subscription date = .ok coverageEnd ∧
      (newCharge subscription charges.length date coverageEnd).RowValid

theorem Chargeable.ensureCharge {subscription : CustomerSubscription} {charges : List Charge}
    {date : Date} (chargeable : Chargeable subscription charges date) :
    ∃ coverageEnd, ensureCharge subscription charges date =
      .ok (charges ++ [newCharge subscription charges.length date coverageEnd]) := by
  obtain ⟨fresh, coverageEnd, ended, valid⟩ := chargeable
  refine ⟨coverageEnd, ?_⟩
  have absent : ¬ charges.any (·.dueDate = date) = true := by simpa using fresh
  unfold Subscriptions.ensureCharge
  rw [ended]
  simp only [bind, Except.bind, absent, Charge.checkRow_ok.mpr valid]
  rfl

/-- A charge table of the same length and due dates takes the same new charge. -/
theorem Chargeable.updateWhere {subscription : CustomerSubscription} {charges : List Charge}
    {date : Date} {selected : Charge → Prop} [DecidablePred selected] {change : Charge → Charge}
    (keeps : ∀ charge, (change charge).dueDate = charge.dueDate)
    (chargeable : Chargeable subscription charges date) :
    Chargeable subscription (updateWhere selected change charges) date := by
  obtain ⟨fresh, coverageEnd, ended, valid⟩ := chargeable
  refine ⟨fun charge member => ?_, coverageEnd, ended, by simpa using valid⟩
  obtain ⟨before, stored, ⟨-, rfl⟩ | ⟨-, rfl⟩⟩ := mem_updateWhere.mp member
  · exact keeps before ▸ fresh before stored
  · exact fresh charge stored

theorem RenewalDue.renewAfterPayment {subscription : CustomerSubscription} {charge : Charge}
    {date : Date} (due : RenewalDue subscription charge date) (charges : List Charge) :
    renewAfterPayment charge { subscription := subscription, charges := charges } = (do
      let renewed := { subscription with nextBillingDate := date }
      let ensured ← ensureCharge renewed charges date
      return { subscription := renewed, charges := ensured }) := by
  obtain ⟨months, recurs, added⟩ := due.next
  have within : subscription.endDate.all (date ≤ ·) = true := by
    cases last : subscription.endDate with
    | none => rfl
    | some bound => simpa using due.withinEnd bound last
  unfold Subscriptions.renewAfterPayment
  simp only [recurs, due.settled, due.active, due.autoRenew, added, within]
  rfl

theorem Charge.Accepts.recordPayment {charge : Charge} {payment : Payment}
    (keyed : account.Keyed) (member : charge ∈ account.charges)
    (accepts : charge.Accepts payment) :
    recordPayment charge.id payment account = renewAfterPayment (charge.addPayment payment)
      { account with charges :=
          updateWhere (·.id = charge.id) (Charge.addPayment payment) account.charges } := by
  obtain ⟨found, isFound⟩ : ∃ found, account.charges.find? (·.id = charge.id) = some found :=
    Option.isSome_iff_exists.mp (List.find?_isSome.mpr ⟨charge, member, by simp⟩)
  have sameId : found.id = charge.id := by simpa using List.find?_some isFound
  obtain rfl : found = charge :=
    eq_of_key_eq keyed (List.mem_of_find?_eq_some isFound) member sameId
  unfold Subscriptions.recordPayment
  simp [isFound, accepts.isOpen, not_le.mpr accepts.positive, not_lt.mpr accepts.within]

theorem CustomerSubscription.Resumable.resumeSubscription {clock : Clock}
    (resumable : account.subscription.Resumable clock.today) :
    resumeSubscription clock account =
      continueCharges { account with subscription := account.subscription.activated } := by
  unfold Subscriptions.resumeSubscription
  have listed : account.subscription.effectiveStatus clock.today ∈
      [Status.cancelling, Status.paused] := by
    simpa [CustomerSubscription.Resumable] using resumable
  simp only [listed, not_true_eq_false, if_false]
  rfl

theorem ContinuationDue.continueCharges {charge : Charge} {date : Date}
    (due : ContinuationDue account charge date) :
    continueCharges account = (do
      let subscription := { account.subscription with nextBillingDate := date }
      match reopenDue date account.charges with
      | some reopened => return { subscription := subscription, charges := reopened }
      | none =>
          let charges ← ensureCharge subscription account.charges date
          return { subscription := subscription, charges := charges }) := by
  obtain ⟨months, recurs, added⟩ := due.next
  unfold Subscriptions.continueCharges
  simp only [due.latest, due.settled, recurs, added]
  rfl

/-! ### When a charge is opened -/

/-- The request opens a charge due on `date` behind `source`. -/
structure Opening (account : Account) (request : Request) (source : Charge) (date : Date) :
    Prop where
  extended : Extends account request source date
  possible : Chargeable account.subscription account.charges date ∨
    request.operation = .resume ∧
      ∃ charge ∈ account.charges, charge.dueDate = date ∧ charge.state = .cancelled

theorem Opens.isOpen {charge : Charge} (keyed : account.Keyed)
    (opens : Opens account (step account request) charge) : charge.state = .open := by
  obtain ⟨member, new | ⟨isOpen, -⟩⟩ := opens
  · rcases (step_charges keyed request).origin charge member with ⟨old, stored, effect⟩ | created
    · exact absurd effect.id_eq.symm (new old stored)
    · obtain ⟨coverageEnd, -, row⟩ := created.row
      rw [row]
      rfl
  · exact isOpen

/-- A charge that a request opens is one it could open. -/
theorem Opens.opening {charge : Charge} (keyed : account.Keyed)
    (opens : Opens account (step account request) charge) :
    ∃ source, Opening account request source charge.dueDate := by
  obtain ⟨source, extended⟩ := opens.extends keyed
  refine ⟨source, extended, ?_⟩
  obtain ⟨member, how⟩ := opens
  rcases (step_charges keyed request).origin charge member with ⟨old, stored, effect⟩ | created
  · rcases how with new | ⟨isOpen, other, otherStored, sameId, wasCancelled⟩
    · exact absurd effect.id_eq.symm (new old stored)
    · obtain rfl : other = old :=
        eq_of_key_eq keyed otherStored stored (sameId.trans effect.id_eq)
      cases effect with
      | same => simp [wasCancelled] at isOpen
      | repriced isUpdate commercial editable => simp [editable.1] at wasCancelled
      | paid isPayment accepts => simp [accepts.isOpen] at wasCancelled
      | cancelled => simp [Charge.setState] at isOpen
      | reopened isResume extended isCancelled =>
          exact Or.inr ⟨isResume, other, stored, rfl, isCancelled⟩
  · obtain ⟨coverageEnd, ended, row⟩ := created.row
    exact Or.inl ⟨created.fresh, coverageEnd, ended, row ▸ created.valid⟩

/-! ### Outcomes of the two extensions -/

/-- The outcome of a payment that settles `source` and creates its successor. -/
theorem payment_step {source : Charge} {payment : Payment} {date : Date} (keyed : account.Keyed)
    (isPayment : request.operation = .recordPayment source.id payment)
    (member : source ∈ account.charges) (accepts : source.Accepts payment)
    (due : RenewalDue account.subscription (source.addPayment payment) date)
    (chargeable : Chargeable account.subscription account.charges date) :
    ∃ coverageEnd, step account request =
      { subscription := { account.subscription with nextBillingDate := date }
        charges :=
          updateWhere (·.id = source.id) (Charge.addPayment payment) account.charges ++
            [newCharge account.subscription account.charges.length date coverageEnd] } := by
  have paid : Chargeable account.subscription
      (updateWhere (·.id = source.id) (Charge.addPayment payment) account.charges) date :=
    chargeable.updateWhere fun _ => rfl
  obtain ⟨coverageEnd, ensured⟩ := paid.ensureCharge
  rw [length_updateWhere] at ensured
  have sameTable : ensureCharge { account.subscription with nextBillingDate := date } =
      ensureCharge account.subscription := rfl
  refine ⟨coverageEnd, ?_⟩
  unfold step perform
  rw [isPayment]
  simp only [accepts.recordPayment keyed member, due.renewAfterPayment, sameTable, ensured]
  rfl

/-- The outcome of a resumption that finds cancelled charges due on `date`. -/
theorem reopening_step {source : Charge} {date : Date}
    (isResume : request.operation = .resume)
    (resumable : account.subscription.Resumable request.clock.today)
    (due : ContinuationDue account source date)
    (found : ∃ charge ∈ account.charges, charge.dueDate = date ∧ charge.state = .cancelled) :
    step account request =
      { subscription := { account.subscription.activated with nextBillingDate := date }
        charges := updateWhere (fun charge => charge.dueDate = date ∧ charge.state = .cancelled)
          (Charge.setState .open) account.charges } := by
  have activatedDue : ContinuationDue
      { account with subscription := account.subscription.activated } source date :=
    ⟨due.latest, due.settled, due.next⟩
  unfold step perform
  rw [isResume]
  simp only [resumable.resumeSubscription, activatedDue.continueCharges,
    reopenDue_eq_some.mpr ⟨found, rfl⟩]
  rfl

/-- The outcome of a resumption that creates the charge due on `date`. -/
theorem creating_step {source : Charge} {date : Date}
    (isResume : request.operation = .resume)
    (resumable : account.subscription.Resumable request.clock.today)
    (due : ContinuationDue account source date)
    (chargeable : Chargeable account.subscription account.charges date) :
    ∃ coverageEnd, step account request =
      { subscription := { account.subscription.activated with nextBillingDate := date }
        charges := account.charges ++
          [newCharge account.subscription account.charges.length date coverageEnd] } := by
  have activatedDue : ContinuationDue
      { account with subscription := account.subscription.activated } source date :=
    ⟨due.latest, due.settled, due.next⟩
  have notFound : reopenDue date account.charges = none := by
    cases reopened : reopenDue date account.charges with
    | none => rfl
    | some charges =>
        obtain ⟨⟨charge, stored, sameDate, -⟩, -⟩ := reopenDue_eq_some.mp reopened
        exact absurd sameDate (chargeable.1 charge stored)
  obtain ⟨coverageEnd, ensured⟩ := chargeable.ensureCharge
  have sameTable : ensureCharge { account.subscription.activated with nextBillingDate := date } =
      ensureCharge account.subscription := rfl
  refine ⟨coverageEnd, ?_⟩
  unfold step perform
  rw [isResume]
  simp only [resumable.resumeSubscription, activatedDue.continueCharges, notFound, sameTable,
    ensured]
  rfl

/-- An appended charge with the next id is opened. -/
private theorem opens_append {charges : List Charge} {row : CustomerSubscription}
    {date coverageEnd : Date} (keyed : account.Keyed) :
    Opens account
      { subscription := row
        charges := charges ++
          [newCharge account.subscription account.charges.length date coverageEnd] }
      (newCharge account.subscription account.charges.length date coverageEnd) := by
  refine ⟨List.mem_append_right _ List.mem_cons_self, Or.inl fun old stored sameId => ?_⟩
  have below := key_lt_length keyed stored
  simp only [newCharge] at sameId
  omega

/-- A request opens a charge wherever it can. -/
theorem Opening.opens {source : Charge} {date : Date} (keyed : account.Keyed)
    (opening : Opening account request source date) :
    ∃ charge, Opens account (step account request) charge ∧ charge.dueDate = date := by
  obtain ⟨extended, possible⟩ := opening
  cases extended with
  | payment payment isPayment member accepts due =>
      rcases possible with chargeable | ⟨isResume, -⟩
      · obtain ⟨coverageEnd, stepped⟩ := payment_step keyed isPayment member accepts due chargeable
        exact ⟨_, stepped ▸ opens_append keyed, rfl⟩
      · simp [isPayment] at isResume
  | resume isResume resumable due =>
      rcases possible with chargeable | ⟨-, found⟩
      · obtain ⟨coverageEnd, stepped⟩ := creating_step isResume resumable due chargeable
        exact ⟨_, stepped ▸ opens_append keyed, rfl⟩
      · have stepped := reopening_step isResume resumable due found
        obtain ⟨charge, stored, sameDate, isCancelled⟩ := found
        refine ⟨charge.setState .open, ?_, sameDate⟩
        rw [stepped]
        exact ⟨mem_updateWhere_of_selected stored ⟨sameDate, isCancelled⟩,
          Or.inr ⟨rfl, charge, stored, rfl, isCancelled⟩⟩

/-! ### The charge that is followed -/

theorem Extends.member {source : Charge} {date : Date}
    (extended : Extends account request source date) :
    source ∈ account.charges ∧ source.state ≠ .cancelled := by
  cases extended with
  | payment payment isPayment member accepts due => exact ⟨member, by simp [accepts.isOpen]⟩
  | resume isResume resumable due =>
      obtain ⟨member, kept, -⟩ := latestCharge_eq_some due.latest
      exact ⟨member, kept⟩

/-- The successor is due later. -/
theorem Extends.lt {source : Charge} {date : Date}
    (extended : Extends account request source date) : source.dueDate < date := by
  cases extended with
  | payment payment isPayment member accepts due =>
      obtain ⟨months, recurs, added⟩ := due.next
      exact Date.lt_addMonths (BillingInterval.months_pos recurs) added
  | resume isResume resumable due =>
      obtain ⟨months, recurs, added⟩ := due.next
      exact Date.lt_addMonths (BillingInterval.months_pos recurs) added

/-- A request extends the chain at one place only. -/
theorem Extends.unique {source other : Charge} {date otherDate : Date} (keyed : account.Keyed)
    (extended : Extends account request source date)
    (otherwise : Extends account request other otherDate) :
    source = other ∧ date = otherDate := by
  have sameDate : ∀ {charge : Charge} {first second : Date},
      (∃ months, account.subscription.billingInterval.months = some months ∧
        charge.dueDate.addMonths months = some first) →
      (∃ months, account.subscription.billingInterval.months = some months ∧
        charge.dueDate.addMonths months = some second) → first = second := by
    rintro charge first second ⟨months, recurs, added⟩ ⟨months', recurs', added'⟩
    obtain rfl : months = months' := Option.some.inj (recurs.symm.trans recurs')
    exact Option.some.inj (added.symm.trans added')
  cases extended with
  | payment payment isPayment member accepts due =>
      cases otherwise with
      | payment payment' isPayment' member' accepts' due' =>
          have sameId : source.id = other.id := by
            have same := isPayment.symm.trans isPayment'
            simp only [Operation.recordPayment.injEq] at same
            exact same.1
          obtain rfl := eq_of_key_eq keyed member member' sameId
          exact ⟨rfl, sameDate due.next due'.next⟩
      | resume isResume => simp [isPayment] at isResume
  | resume isResume resumable due =>
      cases otherwise with
      | payment payment' isPayment' => simp [isResume] at isPayment'
      | resume isResume' resumable' due' =>
          obtain rfl := Option.some.inj (due.latest.symm.trans due'.latest)
          exact ⟨rfl, sameDate due.next due'.next⟩

/-- A request that extends the chain cancels nothing. -/
theorem Extends.cutoff_eq_none {source : Charge} {date : Date}
    (extended : Extends account request source date) : cutoff account request = none := by
  cases extended with
  | payment payment isPayment => simp [cutoff, isPayment]
  | resume isResume => simp [cutoff, isResume]

/-- A settled charge stays settled. -/
theorem ChargeEffect.settled {before after : Charge}
    (effect : ChargeEffect account request before after)
    (settled : before.outstandingAmount = 0) : after.outstandingAmount = 0 := by
  cases effect with
  | same => exact settled
  | repriced isUpdate commercial editable => exact absurd settled editable.2.ne'
  | paid isPayment accepts =>
      have positive := accepts.positive
      have within := accepts.within
      omega
  | cancelled => exact settled
  | reopened => exact settled

/-- A charge that is kept after a request was kept before or has been opened. -/
theorem kept_origin {after : Charge} (keyed : account.Keyed)
    (member : after ∈ (step account request).charges) (kept : after.state ≠ .cancelled) :
    (∃ before ∈ account.charges, before.state ≠ .cancelled ∧
      ChargeEffect account request before after) ∨
      Opens account (step account request) after := by
  rcases (step_charges keyed request).origin after member with ⟨before, stored, effect⟩ | created
  · by_cases wasKept : before.state ≠ .cancelled
    · exact Or.inl ⟨before, stored, wasKept, effect⟩
    · right
      refine ⟨member, Or.inr ⟨?_, before, stored, effect.id_eq.symm, not_not.mp wasKept⟩⟩
      cases effect with
      | same => exact absurd kept wasKept
      | repriced isUpdate commercial editable => exact editable.1
      | paid isPayment accepts => exact accepts.isOpen
      | cancelled => exact absurd rfl kept
      | reopened => rfl
  · right
    refine ⟨member, Or.inl fun old stored sameId => ?_⟩
    have below := key_lt_length keyed stored
    rw [created.id_eq] at sameId
    omega

/-- The charge that is followed is settled when its successor is opened. -/
theorem Opening.source_settled {source after : Charge} {date : Date} (keyed : account.Keyed)
    (opening : Opening account request source date)
    (member : after ∈ (step account request).charges) (sameId : after.id = source.id) :
    after.outstandingAmount = 0 := by
  obtain ⟨extended, possible⟩ := opening
  cases extended with
  | payment payment isPayment stored accepts due =>
      rcases possible with chargeable | ⟨isResume, -⟩
      · obtain ⟨coverageEnd, stepped⟩ := payment_step keyed isPayment stored accepts due chargeable
        have paid : source.addPayment payment ∈ (step account request).charges := by
          rw [stepped]
          exact List.mem_append_left _ (mem_updateWhere_of_selected stored rfl)
        rw [eq_of_key_eq (step_keyed keyed request) member paid sameId]
        exact due.settled
      · simp [isPayment] at isResume
  | resume isResume resumable due =>
      have stored := (latestCharge_eq_some due.latest).1
      rcases (step_charges keyed request).origin after member with ⟨before, was, effect⟩ | created
      · obtain rfl := eq_of_key_eq keyed was stored (effect.id_eq.symm.trans sameId)
        exact effect.settled due.settled
      · have below := key_lt_length keyed stored
        rw [created.id_eq] at sameId
        omega

end BubllioCrm.Subscriptions
