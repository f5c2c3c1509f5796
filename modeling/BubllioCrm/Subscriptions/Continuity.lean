import BubllioCrm.Subscriptions.Openings

/-!
Owns the continuity of billing: when an active, endless agreement always has
an open charge with a balance, so that a next payment can be recorded and
bring the charge after it.

The due dates of such an agreement form a chain without gaps, in which only
the last charge can have a balance. A resumption looks at the kept charges
alone and takes the charge behind them as it finds it.
-/

namespace BubllioCrm.Subscriptions

open BubllioCrm.Foundations

variable {account : Account} {request : Request} {attrs : SubscriptionAttrs} {months : Nat}

/-- An active agreement has an open charge with a balance. -/
def PayableWhileActive (account : Account) : Prop :=
  account.subscription.status = .active →
    ∃ charge ∈ account.charges, charge.state = .open ∧ 0 < charge.outstandingAmount

instance : DecidablePred PayableWhileActive := fun account => by
  unfold PayableWhileActive
  infer_instance

/-- Payments, pauses, cancellations at the period end and resumptions. -/
def Operation.IsRoutine : Operation → Prop
  | .recordPayment _ _ => True
  | .pause => True
  | .cancel immediate => immediate = false
  | .resume => True
  | .update _ => False
  | .expire => False

/-- A resumption that is accepted finds a kept charge, and a cancelled charge
that it opens behind the latest kept one has a balance. -/
def ResumesPayable (account : Account) (request : Request) : Prop :=
  request.operation = .resume → account.subscription.Resumable request.clock.today →
    (∃ charge ∈ account.charges, charge.state ≠ .cancelled) ∧
      ∀ source, ∀ charge ∈ account.charges, ContinuationDue account source charge.dueDate →
        charge.state = .cancelled → 0 < charge.outstandingAmount

/-! ### The chain of due dates -/

/-- From every due date but the last the next one is the date a period later,
and every charge but the last is settled. -/
structure Chain (months : Nat) (charges : List Charge) : Prop where
  next : ∀ first ∈ charges, ∀ second ∈ charges, first.dueDate < second.dueDate →
    ∃ follower ∈ charges, first.dueDate.addMonths months = some follower.dueDate ∧
      follower.dueDate ≤ second.dueDate
  settled : ∀ first ∈ charges, ∀ second ∈ charges, first.dueDate < second.dueDate →
    first.outstandingAmount = 0

/-- A bulk update that keeps due dates and settled charges keeps the chain. -/
theorem Chain.updated {charges : List Charge} {selected : Charge → Prop}
    [DecidablePred selected] {change : Charge → Charge} (chain : Chain months charges)
    (keeps : ∀ charge, (change charge).dueDate = charge.dueDate)
    (staysSettled : ∀ charge ∈ charges, selected charge → charge.outstandingAmount = 0 →
      (change charge).outstandingAmount = 0) :
    Chain months (updateWhere selected change charges) := by
  have origin : ∀ after ∈ updateWhere selected change charges, ∃ before ∈ charges,
      after.dueDate = before.dueDate ∧
        (before.outstandingAmount = 0 → after.outstandingAmount = 0) := by
    intro after member
    obtain ⟨before, stored, ⟨hit, rfl⟩ | ⟨-, rfl⟩⟩ := mem_updateWhere.mp member
    · exact ⟨before, stored, keeps before, staysSettled before stored hit⟩
    · exact ⟨after, stored, rfl, id⟩
  have kept : ∀ before ∈ charges, ∃ after ∈ updateWhere selected change charges,
      after.dueDate = before.dueDate := by
    intro before stored
    by_cases hit : selected before
    · exact ⟨change before, mem_updateWhere_of_selected stored hit, keeps before⟩
    · exact ⟨before, mem_updateWhere_of_not_selected stored hit, rfl⟩
  constructor
  · intro first firstMember second secondMember before
    obtain ⟨oldFirst, firstStored, firstDue, -⟩ := origin first firstMember
    obtain ⟨oldSecond, secondStored, secondDue, -⟩ := origin second secondMember
    rw [firstDue, secondDue] at before ⊢
    obtain ⟨follower, followerStored, added, within⟩ :=
      chain.next oldFirst firstStored oldSecond secondStored before
    obtain ⟨after, member, sameDue⟩ := kept follower followerStored
    exact ⟨after, member, sameDue.symm ▸ added, sameDue.symm ▸ within⟩
  · intro first firstMember second secondMember before
    obtain ⟨oldFirst, firstStored, firstDue, staysSettled⟩ := origin first firstMember
    obtain ⟨oldSecond, secondStored, secondDue, -⟩ := origin second secondMember
    rw [firstDue, secondDue] at before
    exact staysSettled (chain.settled oldFirst firstStored oldSecond secondStored before)

/-- A charge due a period after the settled last one extends the chain. -/
theorem Chain.append {charges : List Charge} {last created : Charge}
    (chain : Chain months charges) (member : last ∈ charges)
    (isLast : ∀ charge ∈ charges, charge = last ∨ charge.dueDate < last.dueDate)
    (settled : last.outstandingAmount = 0)
    (added : last.dueDate.addMonths months = some created.dueDate)
    (later : last.dueDate < created.dueDate) : Chain months (charges ++ [created]) := by
  have below : ∀ charge ∈ charges, charge.dueDate < created.dueDate := by
    intro charge stored
    rcases isLast charge stored with rfl | before
    · exact later
    · exact before.trans later
  constructor
  · intro first firstMember second secondMember before
    rcases List.mem_append.mp firstMember with firstStored | firstNew
    · rcases List.mem_append.mp secondMember with secondStored | secondNew
      · obtain ⟨follower, stored, followed, within⟩ :=
          chain.next first firstStored second secondStored before
        exact ⟨follower, List.mem_append_left _ stored, followed, within⟩
      · obtain rfl := List.mem_singleton.mp secondNew
        rcases isLast first firstStored with rfl | earlier
        · exact ⟨second, List.mem_append_right _ secondNew, added, le_rfl⟩
        · obtain ⟨follower, stored, followed, within⟩ :=
            chain.next first firstStored last member earlier
          exact ⟨follower, List.mem_append_left _ stored, followed, within.trans later.le⟩
    · obtain rfl := List.mem_singleton.mp firstNew
      rcases List.mem_append.mp secondMember with secondStored | secondNew
      · exact absurd before (not_lt.mpr (below second secondStored).le)
      · obtain rfl := List.mem_singleton.mp secondNew
        exact absurd before (lt_irrefl _)
  · intro first firstMember second secondMember before
    rcases List.mem_append.mp firstMember with firstStored | firstNew
    · rcases isLast first firstStored with rfl | earlier
      · exact settled
      · exact chain.settled first firstStored last member earlier
    · obtain rfl := List.mem_singleton.mp firstNew
      rcases List.mem_append.mp secondMember with secondStored | secondNew
      · exact absurd before (not_lt.mpr (below second secondStored).le)
      · obtain rfl := List.mem_singleton.mp secondNew
        exact absurd before (lt_irrefl _)

/-! ### The invariant -/

/-- A recurring agreement without an end, with automatic renewal and a positive
price. -/
structure CustomerSubscription.Endless (months : Nat) (subscription : CustomerSubscription) :
    Prop where
  recurs : subscription.billingInterval.months = some months
  autoRenew : subscription.autoRenew = true
  noEnd : subscription.endDate = none
  priced : 0 < subscription.grossPrice

structure Continuous (months : Nat) (account : Account) : Prop where
  formed : account.WellFormed
  endless : account.subscription.Endless months
  chain : Chain months account.charges
  payable : PayableWhileActive account

/-- Routine requests keep the terms of the agreement. -/
theorem step_endless (routine : request.operation.IsRoutine)
    (endless : account.subscription.Endless months) :
    (step account request).subscription.Endless months := by
  obtain ⟨recurs, autoRenew, noEnd, priced⟩ := endless
  have row := step_subscription account request
  generalize (step account request).subscription = next at row
  cases row with
  | same => exact ⟨recurs, autoRenew, noEnd, priced⟩
  | updated isUpdate => simp [isUpdate, Operation.IsRoutine] at routine
  | renewed => exact ⟨recurs, autoRenew, noEnd, priced⟩
  | cancelled => exact ⟨recurs, autoRenew, noEnd, priced⟩
  | paused => exact ⟨recurs, autoRenew, noEnd, priced⟩
  | expired => exact ⟨recurs, autoRenew, noEnd, priced⟩
  | resumed => exact ⟨recurs, autoRenew, noEnd, priced⟩

/-- The charge a payment is recorded against is the last of the chain. -/
theorem Chain.accepts_last {charges : List Charge} {charge : Charge} {payment : Payment}
    (chain : Chain months charges) (member : charge ∈ charges)
    (accepts : charge.Accepts payment) :
    ∀ other ∈ charges, other.dueDate ≤ charge.dueDate := by
  intro other stored
  by_contra later
  have settled := chain.settled charge member other stored (not_le.mp later)
  have positive := accepts.positive
  have within := accepts.within
  omega

/-- The charge that is ensured a period behind the settled last one is new: it
extends the chain and has a balance. -/
theorem Chain.ensured {charges result : List Charge} {last : Charge} {nextDate : Date}
    {subscription : CustomerSubscription} (chain : Chain months charges) (member : last ∈ charges)
    (isLast : ∀ charge ∈ charges, charge = last ∨ charge.dueDate < last.dueDate)
    (settled : last.outstandingAmount = 0) (positive : 0 < months)
    (added : last.dueDate.addMonths months = some nextDate)
    (priced : 0 < subscription.grossPrice)
    (ensured : ensureCharge subscription charges nextDate = .ok result) :
    Chain months result ∧
      ∃ charge ∈ result, charge.state = .open ∧ 0 < charge.outstandingAmount := by
  have later := Date.lt_addMonths positive added
  rcases ensureCharge_ok ensured with ⟨⟨charge, stored, sameDue⟩, -⟩ |
    ⟨coverageEnd, -, -, -, appended⟩
  · rcases isLast charge stored with rfl | before
    · exact absurd sameDue later.ne
    · exact absurd sameDue (before.trans later).ne
  · rw [appended]
    refine ⟨chain.append member isLast settled added later, ?_⟩
    exact ⟨_, List.mem_append_right _ List.mem_cons_self, rfl, newCharge_payable.mpr priced⟩

/-- A payment keeps a balance, or settles the last charge and creates the next
one while the agreement is active. -/
theorem payment_continuous {chargeId : Nat} {payment : Payment} {next : Account}
    (continuous : Continuous months account)
    (recorded : recordPayment chargeId payment account = .ok next) :
    Chain months next.charges ∧ PayableWhileActive next := by
  obtain ⟨formed, endless, chain, payable⟩ := continuous
  obtain ⟨source, stored, rfl, accepts, renewed⟩ := recordPayment_ok recorded
  have paidMember : source.addPayment payment ∈
      updateWhere (·.id = source.id) (Charge.addPayment payment) account.charges :=
    mem_updateWhere_of_selected stored rfl
  have paidChain : Chain months
      (updateWhere (·.id = source.id) (Charge.addPayment payment) account.charges) := by
    refine chain.updated (fun _ => rfl) fun charge member sameId settled => ?_
    obtain rfl := eq_of_key_eq formed.keyed member stored sameId
    have positive := accepts.positive
    have within := accepts.within
    omega
  have isLast : ∀ charge ∈
      updateWhere (·.id = source.id) (Charge.addPayment payment) account.charges,
      charge = source.addPayment payment ∨
        charge.dueDate < (source.addPayment payment).dueDate := by
    intro charge member
    obtain ⟨before, was, ⟨sameId, rfl⟩ | ⟨otherId, rfl⟩⟩ := mem_updateWhere.mp member
    · exact Or.inl (by rw [eq_of_key_eq formed.keyed was stored sameId])
    · right
      refine lt_of_le_of_ne (chain.accepts_last stored accepts charge was) fun sameDue => otherId ?_
      exact congrArg Charge.id (formed.dueDates charge was source stored sameDue)
  rcases renewAfterPayment_ok renewed with ⟨rfl, notDue⟩ | ⟨nextDate, due, row, ensured⟩
  · refine ⟨paidChain, fun active => ⟨source.addPayment payment, paidMember, accepts.isOpen, ?_⟩⟩
    by_contra settled
    have nonneg : 0 ≤ (source.addPayment payment).outstandingAmount := le_max_right _ _
    obtain ⟨nextDate, due⟩ := renewAfterPayment_due renewed (by omega) active endless.autoRenew
      endless.noEnd endless.recurs
    exact notDue nextDate due
  · obtain ⟨dueMonths, recurs, added⟩ := due.next
    obtain rfl : dueMonths = months := Option.some.inj (recurs.symm.trans endless.recurs)
    have priced : 0 < next.subscription.grossPrice := by
      rw [row]
      exact endless.priced
    obtain ⟨extended, payable⟩ := paidChain.ensured paidMember isLast due.settled
      (BillingInterval.months_pos recurs) added priced ensured
    exact ⟨extended, fun _ => payable⟩

/-- The latest kept charge is the last one, where no cancelled charge waits on
the date after it. -/
theorem Chain.latest_last {source : Charge} {nextDate : Date} (formed : account.WellFormed)
    (chain : Chain months account.charges) (positive : 0 < months)
    (latest : latestCharge account.charges = some source)
    (added : source.dueDate.addMonths months = some nextDate)
    (notFound : reopenDue nextDate account.charges = none) :
    ∀ charge ∈ account.charges, charge = source ∨ charge.dueDate < source.dueDate := by
  obtain ⟨sourceMember, -, isMax⟩ := latestCharge_eq_some latest
  have later := Date.lt_addMonths positive added
  intro charge member
  rcases lt_trichotomy charge.dueDate source.dueDate with before | same | after
  · exact Or.inr before
  · exact Or.inl (formed.dueDates charge member source sourceMember same)
  -- A charge behind the latest kept one brings one due on the next date,
  -- which is kept or would have been reopened.
  · obtain ⟨follower, stored, followed, -⟩ := chain.next source sourceMember charge member after
    have onDate : nextDate = follower.dueDate := Option.some.inj (added.symm.trans followed)
    by_cases followerCancelled : follower.state = .cancelled
    · have found := reopenDue_eq_some.mpr ⟨⟨follower, stored, onDate.symm, followerCancelled⟩, rfl⟩
      simp [notFound] at found
    · exact absurd (isMax follower stored followerCancelled) (not_le.mpr (onDate ▸ later))

/-- A resumption that leaves the charges alone has found a latest charge with a
balance. -/
private theorem latest_payable {kept : Charge} (formed : account.WellFormed)
    (recurs : account.subscription.billingInterval.months = some months)
    (keptMember : kept ∈ account.charges) (isKept : kept.state ≠ .cancelled)
    (continued : continueCharges account = .ok account)
    (notDue : ∀ charge nextDate, ¬ ContinuationDue account charge nextDate) :
    ∃ charge ∈ account.charges, charge.state = .open ∧ 0 < charge.outstandingAmount := by
  cases latest : latestCharge account.charges with
  | none => exact absurd (latestCharge_eq_none.mp latest kept keptMember) isKept
  | some last =>
      obtain ⟨lastMember, lastKept, -⟩ := latestCharge_eq_some latest
      refine ⟨last, lastMember, ?_, ?_⟩
      · have notWaived := (formed.charges last lastMember).notWaived
        cases state : last.state with
        | «open» => rfl
        | waived => exact absurd state notWaived
        | cancelled => exact absurd state lastKept
      · by_contra settled
        have nonneg : 0 ≤ last.outstandingAmount := le_max_right _ _
        obtain ⟨nextDate, due⟩ := continueCharges_due continued latest (by omega) recurs
        exact notDue last nextDate due

/-- An accepted resumption under the condition leaves a balance to pay. -/
theorem resume_continuous {next : Account} (continuous : Continuous months account)
    (guard : ResumesPayable account request) (isResume : request.operation = .resume)
    (resumed : resumeSubscription request.clock account = .ok next) :
    Chain months next.charges ∧ PayableWhileActive next := by
  obtain ⟨formed, endless, chain, -⟩ := continuous
  obtain ⟨resumable, continued⟩ := resumeSubscription_ok resumed
  obtain ⟨⟨kept, keptMember, isKept⟩, hasBalance⟩ := guard isResume resumable
  rcases continueCharges_ok continued with ⟨rfl, notDue⟩ | ⟨source, nextDate, due, row, taken⟩
  · have activatedFormed : ({ account with
        subscription := account.subscription.activated } : Account).WellFormed :=
      ⟨formed.keyed, formed.dueDates, formed.charges⟩
    exact ⟨chain, fun _ =>
      latest_payable activatedFormed endless.recurs keptMember isKept continued notDue⟩
  obtain ⟨dueMonths, recurs, added⟩ := due.next
  obtain rfl : dueMonths = months := Option.some.inj (recurs.symm.trans endless.recurs)
  rcases taken with reopened | ⟨notFound, ensured⟩
  · have dueNow : ContinuationDue account source nextDate := ⟨due.latest, due.settled, due.next⟩
    obtain ⟨⟨charge, member, sameDue, isCancelled⟩, rewritten⟩ := reopenDue_eq_some.mp reopened
    rw [rewritten]
    refine ⟨chain.updated (fun _ => rfl) fun _ _ _ settled => settled, fun _ => ?_⟩
    rw [rewritten]
    exact ⟨charge.setState .open, mem_updateWhere_of_selected member ⟨sameDue, isCancelled⟩, rfl,
      hasBalance source charge member (sameDue ▸ dueNow) isCancelled⟩
  · have positive := BillingInterval.months_pos recurs
    have isLast := chain.latest_last formed positive due.latest added notFound
    have priced : 0 < next.subscription.grossPrice := by
      rw [row]
      exact endless.priced
    obtain ⟨extended, payable⟩ := chain.ensured (latestCharge_eq_some due.latest).1 isLast
      due.settled positive added priced ensured
    exact ⟨extended, fun _ => payable⟩

theorem step_continuous (continuous : Continuous months account)
    (routine : request.operation.IsRoutine) (guard : ResumesPayable account request) :
    Continuous months (step account request) := by
  rcases step_eq account request with performed | ⟨-, same⟩
  swap
  · exact same.symm ▸ continuous
  suffices linked : Chain months (step account request).charges ∧
      PayableWhileActive (step account request) from
    ⟨step_wellFormed continuous.formed request, step_endless routine continuous.endless,
      linked.1, linked.2⟩
  generalize step account request = next at performed
  unfold perform at performed
  cases operation : request.operation with
  | update attrs => simp [operation, Operation.IsRoutine] at routine
  | expire => simp [operation, Operation.IsRoutine] at routine
  | recordPayment chargeId payment =>
      rw [operation] at performed
      exact payment_continuous continuous performed
  | cancel immediate =>
      rw [operation] at performed
      obtain rfl := Except.ok.inj performed
      refine ⟨continuous.chain.updated (fun _ => rfl) fun _ _ _ settled => settled, ?_⟩
      intro active
      cases immediate <;> simp [cancelSubscription] at active
  | pause =>
      rw [operation] at performed
      obtain rfl := Except.ok.inj performed
      refine ⟨continuous.chain.updated (fun _ => rfl) fun _ _ _ settled => settled, ?_⟩
      intro active
      simp [pauseSubscription] at active
  | resume =>
      rw [operation] at performed
      exact resume_continuous continuous guard operation performed

/-- A resumption that leaves a balance to pay meets the condition. -/
theorem resumesPayable_of_payable (continuous : Continuous months account)
    (payable : PayableWhileActive (step account request)) : ResumesPayable account request := by
  obtain ⟨formed, endless, chain, -⟩ := continuous
  intro isResume resumable
  constructor
  · by_contra noneKept
    have cancelled : ∀ charge ∈ account.charges, charge.state = .cancelled := by
      simpa using noneKept
    have stepped : step account request =
        { account with subscription := account.subscription.activated } := by
      unfold step perform
      rw [isResume]
      simp only [resumable.resumeSubscription, continueCharges,
        latestCharge_eq_none.mpr cancelled]
    rw [stepped] at payable
    obtain ⟨charge, member, isOpen, -⟩ := payable rfl
    simp [cancelled charge member] at isOpen
  · intro source charge stored due isCancelled
    have stepped := reopening_step isResume resumable due ⟨charge, stored, rfl, isCancelled⟩
    rw [stepped] at payable
    obtain ⟨payableCharge, member, isOpen, balance⟩ := payable rfl
    obtain ⟨before, was, ⟨⟨sameDue, -⟩, rfl⟩ | ⟨-, rfl⟩⟩ := mem_updateWhere.mp member
    · rw [← formed.dueDates before was charge stored sameDue]
      exact balance
    -- A charge that was open all along is not behind the settled latest one.
    · obtain ⟨sourceMember, -, isMax⟩ := latestCharge_eq_some due.latest
      have within := isMax payableCharge was (by simp [isOpen])
      rcases within.lt_or_eq with earlier | same
      · exact absurd (chain.settled payableCharge was source sourceMember earlier) balance.ne'
      · rw [formed.dueDates payableCharge was source sourceMember same] at balance
        exact absurd due.settled balance.ne'

/-! ### The first period -/

/-- The first charge of the agreement can be written: its period ends within
the supported years and its amounts fit the columns. -/
def FirstPeriodWritable (subscription : CustomerSubscription) : Prop :=
  (∃ last, periodEnd subscription subscription.nextBillingDate = .ok last) ∧
    FitsColumn subscription.grossPrice

theorem insertSubscription_checked {row : CustomerSubscription}
    (inserted : insertSubscription attrs = .ok row) :
    FitsColumn row.netPrice ∧ (0 ≤ row.taxRate ∧ row.taxRate ≤ 10000) ∧ 0 ≤ row.netPrice := by
  unfold insertSubscription at inserted
  cases made : attrs.toRow with
  | none => simp [made] at inserted
  | some other =>
      simp only [made] at inserted
      obtain ⟨⟨⟩, checked, same⟩ := bind_eq_ok.mp inserted
      obtain rfl := pure_eq_ok.mp same
      unfold CustomerSubscription.checkRow at checked
      simp only [guard_eq_ok, not_not] at checked
      exact ⟨checked.1, checked.2.1, checked.2.2.1⟩

theorem created_charges_iff (created : createSubscription attrs = .ok account) :
    account.charges ≠ [] ↔ FirstPeriodWritable account.subscription := by
  constructor
  · intro charged
    rcases (createSubscription_opened created).charges with none | ⟨last, ended, valid, -⟩
    · exact absurd none charged
    · exact ⟨⟨last, ended⟩, valid.grossFits⟩
  · rintro ⟨⟨last, ended⟩, fits⟩
    unfold createSubscription at created
    obtain ⟨row, inserted, built⟩ := bind_eq_ok.mp created
    obtain rfl := pure_eq_ok.mp built
    obtain ⟨netFits, ⟨rateNonneg, rateLe⟩, netNonneg⟩ := insertSubscription_checked inserted
    have taxNonneg : 0 ≤ row.taxAmount :=
      quantizeHalfUp_nonneg (mul_nonneg netNonneg rateNonneg)
    have grossFits : FitsColumn (row.netPrice + row.taxAmount) := fits
    have valid : (newCharge row 0 row.nextBillingDate last).RowValid := by
      refine ⟨netFits, ?_, grossFits, netNonneg, taxNonneg, ?_, rateNonneg, rateLe,
        le_periodEnd ended⟩
      · unfold FitsColumn at grossFits ⊢
        simp only [newCharge]
        omega
      · simp only [newCharge]
        omega
    obtain ⟨coverageEnd, ensured⟩ := Chargeable.ensureCharge
      (⟨by simp, last, ended, valid⟩ : Chargeable row [] row.nextBillingDate)
    simp [firstCharge, ensured]

/-! ### Runs -/

theorem Opened.chain (opened : Opened account) : Chain months account.charges := by
  constructor
  · intro first firstMember second secondMember before
    exact absurd (congrArg Charge.dueDate (opened.single firstMember secondMember)) before.ne
  · intro first firstMember second secondMember before
    exact absurd (congrArg Charge.dueDate (opened.single firstMember secondMember)) before.ne

theorem Opened.payable_iff (opened : Opened account)
    (priced : 0 < account.subscription.grossPrice) :
    PayableWhileActive account ↔ account.charges ≠ [] := by
  constructor
  · intro payable
    obtain ⟨charge, member, -⟩ := payable opened.active
    exact List.ne_nil_of_mem member
  · intro charged _
    rcases opened.charges with none | ⟨coverageEnd, -, -, row⟩
    · exact absurd none charged
    · rw [row]
      exact ⟨_, List.mem_singleton_self _, rfl, newCharge_payable.mpr priced⟩

/-- In a run of payments, pauses, cancellations at the period end and
resumptions on a recurring agreement without an end, with automatic renewal
and a positive price, an active agreement always has an open charge with a
balance exactly when its first charge could be written and every accepted
resumption finds a kept charge and opens no settled one. -/
theorem never_stalls_iff (created : createSubscription attrs = .ok account)
    (recurs : account.subscription.billingInterval ≠ .oneOff)
    (autoRenew : account.subscription.autoRenew = true)
    (noEnd : account.subscription.endDate = none)
    (priced : 0 < account.subscription.grossPrice) (requests : List Request)
    (routine : ∀ request ∈ requests, request.operation.IsRoutine) :
    Always step PayableWhileActive account requests ↔
      FirstPeriodWritable account.subscription ∧
        EveryStep step ResumesPayable account requests := by
  have opened := createSubscription_opened created
  obtain ⟨months, recursEvery⟩ : ∃ months,
      account.subscription.billingInterval.months = some months := by
    cases interval : account.subscription.billingInterval with
    | oneOff => exact absurd interval recurs
    | monthly => exact ⟨1, rfl⟩
    | quarterly => exact ⟨3, rfl⟩
    | semiannual => exact ⟨6, rfl⟩
    | annual => exact ⟨12, rfl⟩
  have run : PayableWhileActive account → (Always step PayableWhileActive account requests ↔
      EveryStep step ResumesPayable account requests) := fun payable =>
    always_iff_guarded (Continuous months) (fun request => request.operation.IsRoutine)
      (fun _ continuous => continuous.payable)
      (fun _ _ continuous routine guard => step_continuous continuous routine guard)
      (fun _ _ continuous _ payable => resumesPayable_of_payable continuous payable)
      ⟨opened.wellFormed, ⟨recursEvery, autoRenew, noEnd, priced⟩, opened.chain, payable⟩ routine
  rw [← created_charges_iff created, ← opened.payable_iff priced]
  constructor
  · intro payable
    have first : PayableWhileActive account := by
      cases requests with
      | nil => exact payable
      | cons request rest => exact payable.1
    exact ⟨first, (run first).mp payable⟩
  · rintro ⟨first, guarded⟩
    exact (run first).mpr guarded

/-- A prepaid month, a pause and a resumption after its period has begun. -/
theorem never_stalls_hosting :
    FirstPeriodWritable hosting.subscription ∧
      EveryStep step ResumesPayable hosting
        [paying ⟨2026, 10, 1, by decide⟩ 0 12400, onDay ⟨2026, 10, 6, by decide⟩ .pause,
          onDay ⟨2026, 10, 7, by decide⟩ .resume] :=
  (never_stalls_iff createSubscription_hosting (by decide) rfl rfl (by decide) _
    (by simp [paying, onDay, Operation.IsRoutine])).mp (by decide)

/-- A pause before the first period cancels the only charge, and the
resumption leaves an active agreement with nothing to pay. -/
theorem resume_before_first_period_stalls :
    createSubscription hostingAttrs = .ok hosting ∧
      ¬ Always step PayableWhileActive hosting
        [onDay ⟨2026, 10, 2, by decide⟩ .pause, onDay ⟨2026, 10, 3, by decide⟩ .resume] :=
  ⟨createSubscription_hosting, by decide⟩

end BubllioCrm.Subscriptions
