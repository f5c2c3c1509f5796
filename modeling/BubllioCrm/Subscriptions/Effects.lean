import BubllioCrm.Subscriptions.Transitions

/-!
Owns the effect of one request on single rows: what can become of a charge,
where a new charge comes from, and what becomes of the subscription row. Every
invariant of the billing tables is derived from these relations.

The relations hold for a request that is refused too, which changes nothing.
-/

namespace BubllioCrm.Subscriptions

open BubllioCrm.Foundations

/-- The row ids number the charges, so they are distinct. -/
def Account.Keyed (account : Account) : Prop :=
  account.charges.map Charge.id = List.range account.charges.length

/-- The request extends the chain of charges from `source` to one due on
`nextDate`. The full payment and the resumption are the only two ways. -/
inductive Extends (account : Account) (request : Request) (source : Charge) (nextDate : Date) :
    Prop where
  | payment (payment : Payment)
      (isPayment : request.operation = .recordPayment source.id payment)
      (member : source ∈ account.charges)
      (accepts : source.Accepts payment)
      (due : RenewalDue account.subscription (source.addPayment payment) nextDate)
  | resume
      (isResume : request.operation = .resume)
      (resumable : account.subscription.Resumable request.clock.today)
      (due : ContinuationDue account source nextDate)

/-- The date after which a request cancels the open charges. -/
def cutoff (account : Account) (request : Request) : Option Date :=
  match request.operation with
  | .cancel immediate => some (cancellationDate immediate request.clock.today account.charges)
  | .pause => some request.clock.today
  | .expire => some request.clock.today
  | .update _ => none
  | .recordPayment _ _ => none
  | .resume => none

/-- What one request can make of one stored charge. -/
inductive ChargeEffect (account : Account) (request : Request) : Charge → Charge → Prop where
  | same {charge : Charge} : ChargeEffect account request charge charge
  | repriced {charge : Charge} {attrs : SubscriptionAttrs}
      (isUpdate : request.operation = .update attrs)
      (commercial : attrs.isCommercial = true)
      (editable : charge.Editable)
      (covered : charge.paidAmount ≤ (attrs.applyTo account.subscription).grossPrice)
      (sameCurrency : 0 < charge.paidAmount →
        charge.currency = (attrs.applyTo account.subscription).currency)
      (valid : (charge.reprice (attrs.applyTo account.subscription)).RowValid) :
      ChargeEffect account request charge (charge.reprice (attrs.applyTo account.subscription))
  | paid {charge : Charge} {payment : Payment}
      (isPayment : request.operation = .recordPayment charge.id payment)
      (accepts : charge.Accepts payment) :
      ChargeEffect account request charge (charge.addPayment payment)
  | cancelled {charge : Charge} {date : Date}
      (cut : cutoff account request = some date)
      (isOpen : charge.state = .open)
      (later : date < charge.coverageStart) :
      ChargeEffect account request charge (charge.setState .cancelled)
  | reopened {charge source : Charge}
      (isResume : request.operation = .resume)
      (extended : Extends account request source charge.dueDate)
      (isCancelled : charge.state = .cancelled) :
      ChargeEffect account request charge (charge.setState .open)

/-- The request has created `charge`. -/
structure Creation (account : Account) (request : Request) (charge : Charge) : Prop where
  extended : ∃ source, Extends account request source charge.dueDate
  fresh : ∀ other ∈ account.charges, other.dueDate ≠ charge.dueDate
  valid : charge.RowValid
  row : ∃ coverageEnd, periodEnd account.subscription charge.dueDate = .ok coverageEnd ∧
    charge = newCharge account.subscription account.charges.length charge.dueDate coverageEnd

/-- Every charge after the request comes from one before it or was created,
every charge before it is still there, and the ids stay distinct. -/
structure ChargesEffect (account : Account) (request : Request) (charges : List Charge) :
    Prop where
  origin : ∀ after ∈ charges,
    (∃ before ∈ account.charges, ChargeEffect account request before after) ∨
      Creation account request after
  kept : ∀ before ∈ account.charges, ∃ after ∈ charges, ChargeEffect account request before after
  keyed : charges.map Charge.id = List.range charges.length

variable {account next : Account} {request : Request} {before after : Charge}

@[simp] theorem ChargeEffect.id_eq (effect : ChargeEffect account request before after) :
    after.id = before.id := by
  cases effect <;> rfl

@[simp] theorem ChargeEffect.dueDate_eq (effect : ChargeEffect account request before after) :
    after.dueDate = before.dueDate := by
  cases effect <;> rfl

theorem ChargeEffect.coverage_eq (effect : ChargeEffect account request before after) :
    after.coverageStart = before.coverageStart ∧ after.coverageEnd = before.coverageEnd := by
  cases effect <;> exact ⟨rfl, rfl⟩

theorem Creation.id_eq {charge : Charge} (created : Creation account request charge) :
    charge.id = account.charges.length := by
  obtain ⟨coverageEnd, -, row⟩ := created.row
  rw [row]
  rfl

/-! ### Lists of charges -/

theorem ChargesEffect.unchanged (keyed : account.Keyed) :
    ChargesEffect account request account.charges where
  origin := fun after member => Or.inl ⟨after, member, .same⟩
  kept := fun before member => ⟨before, member, .same⟩
  keyed := keyed

/-- A bulk update is an effect on charges when it is one on each row. -/
theorem ChargesEffect.updateWhere {selected : Charge → Prop} [DecidablePred selected]
    {change : Charge → Charge} (keyed : account.Keyed)
    (keeps : ∀ charge, (change charge).id = charge.id)
    (effect : ∀ charge ∈ account.charges, selected charge →
      ChargeEffect account request charge (change charge)) :
    ChargesEffect account request (updateWhere selected change account.charges) where
  origin := by
    intro after member
    obtain ⟨before, stored, ⟨hit, rfl⟩ | ⟨-, rfl⟩⟩ := mem_updateWhere.mp member
    · exact Or.inl ⟨before, stored, effect before stored hit⟩
    · exact Or.inl ⟨after, stored, .same⟩
  kept := by
    intro before stored
    by_cases hit : selected before
    · exact ⟨change before, mem_updateWhere_of_selected stored hit, effect before stored hit⟩
    · exact ⟨before, mem_updateWhere_of_not_selected stored hit, .same⟩
  keyed := by
    rw [map_updateWhere keeps, length_updateWhere]
    exact keyed

/-- A charge made sure of after an effect that keeps due dates was there
before, or is a creation. -/
theorem ChargesEffect.ensured {subscription : CustomerSubscription} {charges ensured : List Charge}
    {source : Charge} {nextDate : Date} (effect : ChargesEffect account request charges)
    (sameLength : charges.length = account.charges.length)
    (sameTerms : newCharge subscription = newCharge account.subscription)
    (samePeriod : periodEnd subscription = periodEnd account.subscription)
    (extended : Extends account request source nextDate)
    (made : ensureCharge subscription charges nextDate = .ok ensured) :
    ChargesEffect account request ensured := by
  rcases ensureCharge_ok made with ⟨-, rfl⟩ | ⟨coverageEnd, ended, fresh, valid, rfl⟩
  · exact effect
  rw [sameTerms, sameLength] at valid ⊢
  have created : Creation account request
      (newCharge account.subscription account.charges.length nextDate coverageEnd) := by
    refine ⟨⟨source, extended⟩, fun other stored => ?_, valid,
      ⟨coverageEnd, samePeriod ▸ ended, rfl⟩⟩
    obtain ⟨later, member, became⟩ := effect.kept other stored
    exact became.dueDate_eq ▸ fresh later member
  constructor
  · intro after member
    rcases List.mem_append.mp member with member | member
    · exact effect.origin after member
    · obtain rfl := List.mem_singleton.mp member
      exact Or.inr created
  · intro before stored
    obtain ⟨later, member, became⟩ := effect.kept before stored
    exact ⟨later, List.mem_append_left _ member, became⟩
  · rw [List.map_append, effect.keyed, List.length_append, sameLength]
    simp [List.range_succ, newCharge]

/-! ### One service after the other -/

private theorem update_charges {attrs : SubscriptionAttrs} (keyed : account.Keyed)
    (isUpdate : request.operation = .update attrs)
    (updated : updateSubscription attrs account = .ok next) :
    ChargesEffect account request next.charges := by
  obtain ⟨row, ⟨-, same⟩ | ⟨commercial, allowed, rewritten⟩⟩ := updateSubscription_ok updated
  · exact same ▸ ChargesEffect.unchanged keyed
  · rw [rewritten]
    refine ChargesEffect.updateWhere keyed (fun _ => rfl) fun charge stored editable => ?_
    obtain ⟨covered, sameCurrency, valid⟩ := allowed charge stored editable
    rw [row] at covered sameCurrency valid ⊢
    exact .repriced isUpdate commercial editable covered sameCurrency valid

private theorem payment_charges {chargeId : Nat} {payment : Payment} (keyed : account.Keyed)
    (isPayment : request.operation = .recordPayment chargeId payment)
    (recorded : recordPayment chargeId payment account = .ok next) :
    ChargesEffect account request next.charges := by
  obtain ⟨charge, stored, rfl, accepts, renewed⟩ := recordPayment_ok recorded
  have paid : ChargesEffect account request
      (updateWhere (·.id = charge.id) (Charge.addPayment payment) account.charges) := by
    refine ChargesEffect.updateWhere keyed (fun _ => rfl) fun other otherStored sameId => ?_
    obtain rfl : other = charge := eq_of_key_eq keyed otherStored stored sameId
    exact .paid isPayment accepts
  rcases renewAfterPayment_ok renewed with ⟨rfl, -⟩ | ⟨nextDate, due, row, ensured⟩
  · exact paid
  · rw [row] at ensured
    exact paid.ensured (length_updateWhere _) rfl rfl
      (.payment payment isPayment stored accepts due) ensured

private theorem cut_charges {date : Date} (keyed : account.Keyed)
    (cut : cutoff account request = some date) :
    ChargesEffect account request (cancelOpenAfter date account.charges) :=
  ChargesEffect.updateWhere keyed (fun _ => rfl)
    fun _ _ selected => .cancelled cut selected.1 selected.2

theorem reopenDue_eq_some {date : Date} {charges reopened : List Charge} :
    reopenDue date charges = some reopened ↔
      (∃ charge ∈ charges, charge.dueDate = date ∧ charge.state = .cancelled) ∧
        reopened = updateWhere (fun charge => charge.dueDate = date ∧ charge.state = .cancelled)
          (Charge.setState .open) charges := by
  unfold reopenDue
  split_ifs with found
  · simp only [List.any_eq_true, decide_eq_true_eq] at found
    rw [Option.some.injEq]
    exact ⟨fun same => ⟨found, same.symm⟩, fun taken => taken.2.symm⟩
  · simp only [List.any_eq_true, decide_eq_true_eq] at found
    simp [found]

private theorem resume_charges (keyed : account.Keyed)
    (isResume : request.operation = .resume)
    (resumed : resumeSubscription request.clock account = .ok next) :
    ChargesEffect account request next.charges := by
  obtain ⟨resumable, continued⟩ := resumeSubscription_ok resumed
  rcases continueCharges_ok continued with ⟨rfl, -⟩ | ⟨source, nextDate, due, row, taken⟩
  · exact ChargesEffect.unchanged keyed
  have extended : Extends account request source nextDate :=
    .resume isResume resumable ⟨due.latest, due.settled, due.next⟩
  rcases taken with reopened | ⟨-, ensured⟩
  · rw [(reopenDue_eq_some.mp reopened).2]
    refine ChargesEffect.updateWhere keyed (fun _ => rfl) fun charge stored selected => ?_
    exact .reopened isResume (selected.1 ▸ extended) selected.2
  · rw [row] at ensured
    exact (ChargesEffect.unchanged keyed).ensured rfl rfl rfl extended ensured

theorem perform_charges (keyed : account.Keyed) (performed : perform account request = .ok next) :
    ChargesEffect account request next.charges := by
  unfold perform at performed
  cases operation : request.operation with
  | update attrs =>
      rw [operation] at performed
      exact update_charges keyed operation performed
  | recordPayment chargeId payment =>
      rw [operation] at performed
      exact payment_charges keyed operation performed
  | cancel immediate =>
      rw [operation] at performed
      obtain rfl := Except.ok.inj performed
      exact cut_charges keyed (by simp [cutoff, operation])
  | pause =>
      rw [operation] at performed
      obtain rfl := Except.ok.inj performed
      exact cut_charges keyed (by simp [cutoff, operation])
  | expire =>
      rw [operation] at performed
      obtain rfl := Except.ok.inj performed
      exact cut_charges keyed (by simp [cutoff, operation])
  | resume =>
      rw [operation] at performed
      exact resume_charges keyed operation performed

/-- A request is performed, or refused without a trace. -/
theorem step_eq (account : Account) (request : Request) :
    perform account request = .ok (step account request) ∨
      (∃ error, perform account request = .error error) ∧ step account request = account := by
  unfold step
  cases perform account request with
  | ok next => exact Or.inl rfl
  | error error => exact Or.inr ⟨⟨error, rfl⟩, rfl⟩

theorem step_charges (keyed : account.Keyed) (request : Request) :
    ChargesEffect account request (step account request).charges := by
  rcases step_eq account request with performed | ⟨-, same⟩
  · exact perform_charges keyed performed
  · rw [same]
    exact ChargesEffect.unchanged keyed

theorem step_keyed (keyed : account.Keyed) (request : Request) :
    (step account request).Keyed :=
  (step_charges keyed request).keyed

/-! ### Created and reopened charges -/

/-- The step from `before` to `after` has created the charge, or has turned it
from cancelled to open. -/
def Opens (before after : Account) (charge : Charge) : Prop :=
  charge ∈ after.charges ∧
    ((∀ old ∈ before.charges, old.id ≠ charge.id) ∨
      charge.state = .open ∧ ∃ old ∈ before.charges, old.id = charge.id ∧ old.state = .cancelled)

instance (before after : Account) (charge : Charge) : Decidable (Opens before after charge) := by
  unfold Opens
  infer_instance

/-- Charges are created and reopened only where the chain is extended to their
due date. -/
theorem Opens.extends {charge : Charge} (keyed : account.Keyed)
    (opens : Opens account (step account request) charge) :
    ∃ source, Extends account request source charge.dueDate := by
  obtain ⟨member, how⟩ := opens
  rcases (step_charges keyed request).origin charge member with ⟨old, stored, effect⟩ | created
  · rcases how with new | ⟨isOpen, other, otherStored, sameId, wasCancelled⟩
    · exact absurd effect.id_eq.symm (new old stored)
    · obtain rfl : other = old :=
        eq_of_key_eq keyed otherStored stored (sameId.trans effect.id_eq)
      cases effect with
      | same => simp [wasCancelled] at isOpen
      | repriced isUpdate commercial editable => simp [editable.1] at wasCancelled
      | paid isPayment accepts => simp [accepts.isOpen] at wasCancelled
      | cancelled => simp [Charge.setState] at isOpen
      | @reopened source isResume extended isCancelled => exact ⟨source, extended⟩
  · exact created.extended

/-- Only an active agreement is extended by a payment, and only a paused or
cancelling one by a resumption. -/
theorem Extends.status {source : Charge} {nextDate : Date}
    (extended : Extends account request source nextDate) :
    account.subscription.status = .active ∨
      request.operation = .resume ∧ (account.subscription.status = .cancelling ∨
        account.subscription.status = .paused) := by
  cases extended with
  | payment payment isPayment member accepts due => exact Or.inl due.active
  | resume isResume resumable due => exact Or.inr ⟨isResume, resumable.status⟩

/-! ### The subscription row -/

/-- What one request can make of the subscription row. -/
inductive SubscriptionEffect (account : Account) (request : Request) :
    CustomerSubscription → Prop where
  | same : SubscriptionEffect account request account.subscription
  | updated {attrs : SubscriptionAttrs} (isUpdate : request.operation = .update attrs) :
      SubscriptionEffect account request (attrs.applyTo account.subscription)
  | renewed {chargeId : Nat} {payment : Payment} {nextDate : Date}
      (isPayment : request.operation = .recordPayment chargeId payment) :
      SubscriptionEffect account request
        { account.subscription with nextBillingDate := nextDate }
  | cancelled {immediate : Bool} (isCancel : request.operation = .cancel immediate) :
      SubscriptionEffect account request
        { account.subscription with
          status := if immediate then .cancelled else .cancelling
          cancellationEffectiveDate :=
            some (cancellationDate immediate request.clock.today account.charges)
          cancelledAt := some request.clock.now }
  | paused (isPause : request.operation = .pause) :
      SubscriptionEffect account request { account.subscription with status := .paused }
  | expired (isExpire : request.operation = .expire) :
      SubscriptionEffect account request { account.subscription with status := .expired }
  | resumed {nextDate : Date} (isResume : request.operation = .resume)
      (resumable : account.subscription.Resumable request.clock.today) :
      SubscriptionEffect account request
        { account.subscription.activated with nextBillingDate := nextDate }

theorem perform_subscription (performed : perform account request = .ok next) :
    SubscriptionEffect account request next.subscription := by
  unfold perform at performed
  cases operation : request.operation with
  | update attrs =>
      rw [operation] at performed
      exact (updateSubscription_ok performed).1 ▸ .updated operation
  | recordPayment chargeId payment =>
      rw [operation] at performed
      obtain ⟨charge, -, -, -, renewed⟩ := recordPayment_ok performed
      rcases renewAfterPayment_ok renewed with ⟨rfl, -⟩ | ⟨nextDate, -, row, -⟩
      · exact .same
      · exact row ▸ .renewed operation
  | cancel immediate =>
      rw [operation] at performed
      obtain rfl := Except.ok.inj performed
      exact .cancelled operation
  | pause =>
      rw [operation] at performed
      obtain rfl := Except.ok.inj performed
      exact .paused operation
  | expire =>
      rw [operation] at performed
      obtain rfl := Except.ok.inj performed
      exact .expired operation
  | resume =>
      rw [operation] at performed
      obtain ⟨resumable, continued⟩ := resumeSubscription_ok performed
      rcases continueCharges_ok continued with ⟨rfl, -⟩ | ⟨source, nextDate, -, row, -⟩
      · exact .resumed operation resumable
      · exact row ▸ .resumed operation resumable

theorem step_subscription (account : Account) (request : Request) :
    SubscriptionEffect account request (step account request).subscription := by
  rcases step_eq account request with performed | ⟨-, same⟩
  · exact perform_subscription performed
  · rw [same]
    exact .same

end BubllioCrm.Subscriptions
