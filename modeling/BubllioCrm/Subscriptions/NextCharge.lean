import BubllioCrm.Subscriptions.Reachable

/-!
Owns the charge that follows a settled one: when a payment that settles a charge
leaves exactly one open charge for the next period.

The next charge is looked up by its due date before it is made, so a cancelled
charge that an earlier pause or cancellation left on that date takes its place.
-/

namespace BubllioCrm.Subscriptions

open BubllioCrm.Foundations

variable {account next : Account} {request : Request} {charge : Charge} {payment : Payment}
  {nextDate : Date}

/-! ### The effect of a settling payment -/

/-- The request has recorded a payment that settles `charge`, and the agreement
goes on with a charge due on `nextDate`. -/
structure Settles (account : Account) (request : Request) (next : Account) (charge : Charge)
    (payment : Payment) (nextDate : Date) : Prop where
  isPayment : request.operation = .recordPayment charge.id payment
  member : charge ∈ account.charges
  accepted : perform account request = .ok next
  due : RenewalDue account.subscription (charge.addPayment payment) nextDate

/-- There is exactly one charge for the next period and it is open, the row
names its date, and the request has created one charge at most. -/
structure OneNextCharge (account next : Account) (nextDate : Date) : Prop where
  single : ∃ created ∈ next.charges, created.dueDate = nextDate ∧ created.state = .open ∧
    ∀ other ∈ next.charges, other.dueDate = nextDate → other = created
  nextBillingDate : next.subscription.nextBillingDate = nextDate
  created : next.charges.length ≤ account.charges.length + 1

theorem RenewalDue.unique {subscription : CustomerSubscription} {first second : Date}
    (firstDue : RenewalDue subscription charge first)
    (secondDue : RenewalDue subscription charge second) : first = second := by
  have ⟨months, recurs, added⟩ := firstDue.next
  have ⟨otherMonths, otherRecurs, otherAdded⟩ := secondDue.next
  rw [recurs] at otherRecurs
  rw [← Option.some.inj otherRecurs, added] at otherAdded
  exact Option.some.inj otherAdded

/-- A settling payment adds itself to its charge, moves the next billing date
and makes sure of the next charge. -/
theorem Settles.ensured (formed : account.WellFormed)
    (settles : Settles account request next charge payment nextDate) :
    next.subscription = { account.subscription with nextBillingDate := nextDate } ∧
      ensureCharge next.subscription
        (updateWhere (·.id = charge.id) (Charge.addPayment payment) account.charges) nextDate =
        .ok next.charges := by
  have accepted := settles.accepted
  unfold perform at accepted
  rw [settles.isPayment] at accepted
  obtain ⟨stored, member, sameId, -, renewed⟩ := recordPayment_ok accepted
  have same : stored = charge := eq_of_key_eq formed.keyed member settles.member sameId
  rw [same] at renewed
  rcases renewAfterPayment_ok renewed with ⟨-, notDue⟩ | ⟨otherDate, due, row, ensured⟩
  · exact absurd settles.due (notDue nextDate)
  · rw [← due.unique settles.due]
    exact ⟨row, ensured⟩

/-- The charge that another charge follows is due before it. -/
theorem Settles.dueDate_lt (settles : Settles account request next charge payment nextDate) :
    charge.dueDate < nextDate := by
  have ⟨months, recurs, added⟩ := settles.due.next
  exact Date.lt_addMonths (BillingInterval.months_pos recurs) added

/-- The payment leaves the charges of the next date as they are. -/
theorem Settles.mem_dueNext (formed : account.WellFormed)
    (settles : Settles account request next charge payment nextDate) {other : Charge}
    (isNext : other.dueDate = nextDate) :
    other ∈ updateWhere (·.id = charge.id) (Charge.addPayment payment) account.charges ↔
      other ∈ account.charges := by
  have earlier := settles.dueDate_lt
  constructor
  · intro member
    obtain ⟨before, stored, ⟨hit, rfl⟩ | ⟨-, rfl⟩⟩ := mem_updateWhere.mp member
    · have same : before = charge := eq_of_key_eq formed.keyed stored settles.member hit
      rw [same] at isNext
      exact absurd isNext earlier.ne
    · exact stored
  · intro member
    refine mem_updateWhere_of_not_selected member fun sameId => ?_
    have same : other = charge := eq_of_key_eq formed.keyed member settles.member sameId
    exact earlier.ne (same ▸ isNext)

/-! ### The next charge -/

/-- No cancelled charge is due on the date. -/
def NoneCancelledOn (date : Date) (charges : List Charge) : Prop :=
  ∀ charge ∈ charges, charge.dueDate = date → charge.state ≠ .cancelled

/-- One charge at most is due on the date. -/
def UniqueOn (date : Date) (charges : List Charge) : Prop :=
  ∀ first ∈ charges, ∀ second ∈ charges, first.dueDate = date → second.dueDate = date →
    first = second

/-- A settling payment leaves exactly one open charge for the next period,
unless a cancelled one is in its place. -/
theorem Settles.oneNextCharge_iff (formed : account.WellFormed)
    (settles : Settles account request next charge payment nextDate) :
    OneNextCharge account next nextDate ↔ NoneCancelledOn nextDate account.charges := by
  obtain ⟨row, ensured⟩ := settles.ensured formed
  have nextBillingDate : next.subscription.nextBillingDate = nextDate := by
    rw [row]
  have sameLength :
      (updateWhere (·.id = charge.id) (Charge.addPayment payment) account.charges).length =
        account.charges.length := length_updateWhere _
  rcases ensureCharge_ok ensured with ⟨⟨found, listed, isNext⟩, same⟩ | ⟨last, -, fresh, -, made⟩
  · -- the charge of the next date was there before
    have stored : found ∈ account.charges := (settles.mem_dueNext formed isNext).mp listed
    have single : ∀ other ∈ next.charges, other.dueDate = nextDate → other = found := by
      intro other member otherNext
      rw [same] at member
      have otherStored := (settles.mem_dueNext formed otherNext).mp member
      exact formed.dueDates other otherStored found stored (otherNext.trans isNext.symm)
    constructor
    · intro one old oldStored oldNext
      obtain ⟨created, member, createdNext, isOpen, -⟩ := one.single
      have sameRow : old = created := by
        rw [single created member createdNext]
        exact formed.dueDates old oldStored found stored (oldNext.trans isNext.symm)
      rw [sameRow, isOpen]
      exact nofun
    · intro noneCancelled
      have isOpen : found.state = .open := by
        have notCancelled := noneCancelled found stored isNext
        have notWaived := (formed.charges found stored).notWaived
        cases state : found.state with
        | «open» => rfl
        | waived => exact absurd state notWaived
        | cancelled => exact absurd state notCancelled
      refine ⟨⟨found, same ▸ listed, isNext, isOpen, single⟩, nextBillingDate, ?_⟩
      rw [same, sameLength]
      omega
  · -- no charge of the next date was there, and an open one is made
    apply iff_of_true
    · refine ⟨⟨_, made ▸ List.mem_concat_self, rfl, rfl, ?_⟩, nextBillingDate, ?_⟩
      · intro other member otherNext
        rw [made] at member
        rcases List.mem_append.mp member with old | new
        · exact absurd otherNext (fresh other old)
        · exact List.mem_singleton.mp new
      · rw [made, List.length_append, sameLength]
        exact le_rfl
    · intro old stored oldNext
      exact absurd oldNext (fresh old ((settles.mem_dueNext formed oldNext).mpr stored))

theorem Ledger.AllAccounts.uniqueOn {ledger : Ledger}
    (formed : ledger.AllAccounts Account.WellFormed) (id : Nat) (date : Date) :
    UniqueOn date (ledger.chargesOf id) := by
  intro first firstMember second secondMember firstDue secondDue
  unfold Ledger.chargesOf at firstMember secondMember
  cases stored : ledger.accounts id with
  | none =>
      rw [stored] at firstMember
      cases firstMember
  | some account =>
      rw [stored] at firstMember secondMember
      exact (formed id account stored).dueDates first firstMember second secondMember
        (firstDue.trans secondDue.symm)

/-- In every state that any interleaving of requests reaches: a payment that
settles a charge of an active, renewing agreement before its end leaves exactly
one open charge for the next period, and no later request ever adds a second
one, exactly when no cancelled charge is due on the next date. -/
theorem one_next_charge_iff {actions : List LedgerAction} {id : Nat}
    (stored : (run Ledger.step Ledger.empty actions).accounts id = some account)
    (settles : Settles account request next charge payment nextDate) :
    (OneNextCharge account next nextDate ∧
      ∀ later, Always Ledger.step (fun ledger => UniqueOn nextDate (ledger.chargesOf id))
        ((run Ledger.step Ledger.empty actions).step (.serve id request)) later) ↔
      NoneCancelledOn nextDate account.charges := by
  have formed : (run Ledger.step Ledger.empty actions).AllAccounts Account.WellFormed :=
    run_invariant _ Ledger.step_wellFormed (Ledger.empty_allAccounts _) actions
  rw [settles.oneNextCharge_iff (formed id account stored)]
  constructor
  · exact fun one => one.1
  · intro noneCancelled
    refine ⟨noneCancelled, fun later => ?_⟩
    have unique := always_invariant _ Ledger.step_wellFormed
      (Ledger.step_wellFormed _ (.serve id request) formed) later
    exact Always.imp (fun _ formed => formed.uniqueOn id nextDate) unique

/-- The first month is paid in full, and the November charge follows it. -/
theorem one_next_charge_hosting :
    OneNextCharge hosting
      (step hosting (paying ⟨2026, 10, 5, by decide⟩ 0 12400)) ⟨2026, 11, 5, by decide⟩ := by
  have stored : (run Ledger.step Ledger.empty [.insert 0 hostingAttrs, .chargeFirst 0]).accounts 0 =
      some hosting := rfl
  have settles : Settles hosting (paying ⟨2026, 10, 5, by decide⟩ 0 12400)
      (step hosting (paying ⟨2026, 10, 5, by decide⟩ 0 12400)) (hosting.charges.head (by decide))
      { amount := 12400, paidDate := ⟨2026, 10, 5, by decide⟩ } ⟨2026, 11, 5, by decide⟩ :=
    ⟨rfl, by decide, rfl, by decide, rfl, rfl, ⟨1, rfl, by decide⟩, nofun⟩
  have noneCancelled : NoneCancelledOn ⟨2026, 11, 5, by decide⟩ hosting.charges := by
    intro charge member
    rw [List.mem_singleton.mp member]
    decide
  exact ((one_next_charge_iff stored settles).mpr noneCancelled).1

/-- The sample agreement with a charge for every quarter. -/
def quarterlyHosting : Account where
  subscription := { hosting.subscription with billingInterval := .quarterly }
  charges := hosting.charges.map fun charge =>
    { charge with coverageEnd := ⟨2027, 1, 4, by decide⟩ }

theorem createSubscription_quarterlyHosting :
    createSubscription { hostingAttrs with billingInterval := some .quarterly } =
      .ok quarterlyHosting := rfl

/-- The quarterly agreement is paid, paused, made monthly, resumed and paid for
November. -/
def madeMonthly : Account :=
  run step quarterlyHosting [
    paying ⟨2026, 10, 9, by decide⟩ 0 12400,
    onDay ⟨2026, 10, 10, by decide⟩ .pause,
    onDay ⟨2026, 10, 11, by decide⟩ (.update { billingInterval := some .monthly }),
    onDay ⟨2026, 10, 12, by decide⟩ .resume,
    paying ⟨2026, 11, 9, by decide⟩ 2 12400]

/-- The payment of December finds the January charge of the quarterly agreement,
which the pause has cancelled, and no open charge is left. -/
theorem payment_finds_cancelled_charge :
    madeMonthly.Reachable ∧
      ∃ charge, Settles madeMonthly (paying ⟨2026, 12, 5, by decide⟩ 3 12400)
        (step madeMonthly (paying ⟨2026, 12, 5, by decide⟩ 3 12400)) charge
        { amount := 12400, paidDate := ⟨2026, 12, 5, by decide⟩ } ⟨2027, 1, 5, by decide⟩ ∧
      ¬ OneNextCharge madeMonthly (step madeMonthly (paying ⟨2026, 12, 5, by decide⟩ 3 12400))
        ⟨2027, 1, 5, by decide⟩ := by
  refine ⟨.of_run createSubscription_quarterlyHosting _,
    madeMonthly.charges.getLast (by decide), ?_, ?_⟩
  · exact ⟨rfl, by decide, rfl, by decide, rfl, rfl, ⟨1, rfl, by decide⟩, nofun⟩
  · intro one
    have ⟨created, member, isNext, isOpen, _⟩ := one.single
    have noneOpen : ∀ charge ∈
        (step madeMonthly (paying ⟨2026, 12, 5, by decide⟩ 3 12400)).charges,
        charge.dueDate = ⟨2027, 1, 5, by decide⟩ → charge.state = .cancelled := by
      decide
    rw [noneOpen created member isNext] at isOpen
    cases isOpen

end BubllioCrm.Subscriptions
