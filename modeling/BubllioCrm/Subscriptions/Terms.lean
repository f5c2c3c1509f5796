import BubllioCrm.Subscriptions.Openings

/-!
Owns the commercial terms of open balances: when every open charge with a
balance carries the price, tax and currency the agreement has now.

An edit rewrites the open charges only. A charge that a pause or a
cancellation has put aside keeps its terms, and a resumption opens it again
as it is.
-/

namespace BubllioCrm.Subscriptions

open BubllioCrm.Foundations

variable {account : Account} {request : Request} {attrs : SubscriptionAttrs}

/-- The charge has the amounts, the tax rate and the currency of the agreement. -/
structure Charge.Carries (charge : Charge) (subscription : CustomerSubscription) : Prop where
  net : charge.netAmount = subscription.netPrice
  rate : charge.taxRate = subscription.taxRate
  tax : charge.taxAmount = subscription.taxAmount
  gross : charge.grossAmount = subscription.grossPrice
  currency : charge.currency = subscription.currency

instance (charge : Charge) (subscription : CustomerSubscription) :
    Decidable (charge.Carries subscription) :=
  decidable_of_iff
    (charge.netAmount = subscription.netPrice ∧ charge.taxRate = subscription.taxRate ∧
      charge.taxAmount = subscription.taxAmount ∧ charge.grossAmount = subscription.grossPrice ∧
      charge.currency = subscription.currency)
    ⟨fun ⟨net, rate, tax, gross, currency⟩ => ⟨net, rate, tax, gross, currency⟩,
      fun ⟨net, rate, tax, gross, currency⟩ => ⟨net, rate, tax, gross, currency⟩⟩

/-- Every open charge with a balance carries the current terms. -/
def FollowsAgreement (account : Account) : Prop :=
  ∀ charge ∈ account.charges, charge.state = .open → 0 < charge.outstandingAmount →
    charge.Carries account.subscription

instance : DecidablePred FollowsAgreement := fun account => by
  unfold FollowsAgreement
  infer_instance

/-- A cancelled charge with a balance that a resumption opens again carries the
current terms. -/
def ReopensOnTerms (account : Account) (request : Request) : Prop :=
  request.operation = .resume → ∀ source, ∀ charge ∈ account.charges,
    Extends account request source charge.dueDate → charge.state = .cancelled →
    0 < charge.outstandingAmount → charge.Carries account.subscription

/-! ### Terms of the subscription row -/

/-- The columns that fix price, tax and currency agree. -/
structure CustomerSubscription.SameTerms (first second : CustomerSubscription) : Prop where
  net : first.netPrice = second.netPrice
  rate : first.taxRate = second.taxRate
  currency : first.currency = second.currency

theorem Charge.Carries.congr {charge : Charge} {first second : CustomerSubscription}
    (same : first.SameTerms second) (carries : charge.Carries first) :
    charge.Carries second := by
  obtain ⟨sameNet, sameRate, sameCurrency⟩ := same
  obtain ⟨net, rate, tax, gross, currency⟩ := carries
  have sameTax : first.taxAmount = second.taxAmount := by
    unfold CustomerSubscription.taxAmount
    rw [sameNet, sameRate]
  have sameGross : first.grossPrice = second.grossPrice := by
    unfold CustomerSubscription.grossPrice
    rw [sameNet, sameTax]
  exact ⟨net.trans sameNet, rate.trans sameRate, tax.trans sameTax, gross.trans sameGross,
    currency.trans sameCurrency⟩

theorem CustomerSubscription.SameTerms.symm {first second : CustomerSubscription}
    (same : first.SameTerms second) : second.SameTerms first :=
  ⟨same.net.symm, same.rate.symm, same.currency.symm⟩

/-- An edit that names none of the commercial fields keeps the terms. -/
theorem applyTo_sameTerms (notCommercial : attrs.isCommercial = false)
    (subscription : CustomerSubscription) :
    subscription.SameTerms (attrs.applyTo subscription) := by
  unfold SubscriptionAttrs.isCommercial at notCommercial
  simp only [Bool.or_eq_false_iff, Option.isSome_eq_false_iff, Option.isNone_iff_eq_none]
    at notCommercial
  obtain ⟨⟨net, rate⟩, currency⟩ := notCommercial
  constructor <;> simp [SubscriptionAttrs.applyTo, net, rate, currency]

/-- Only an edit changes the terms. -/
theorem step_sameTerms (notUpdate : ∀ attrs, request.operation ≠ .update attrs) :
    account.subscription.SameTerms (step account request).subscription := by
  have row := step_subscription account request
  generalize (step account request).subscription = next at row
  cases row with
  | updated isUpdate => exact absurd isUpdate (notUpdate _)
  | same => exact ⟨rfl, rfl, rfl⟩
  | renewed => exact ⟨rfl, rfl, rfl⟩
  | cancelled => exact ⟨rfl, rfl, rfl⟩
  | paused => exact ⟨rfl, rfl, rfl⟩
  | expired => exact ⟨rfl, rfl, rfl⟩
  | resumed => exact ⟨rfl, rfl, rfl⟩

theorem newCharge_carries (subscription : CustomerSubscription) (id : Nat)
    (dueDate coverageEnd : Date) :
    (newCharge subscription id dueDate coverageEnd).Carries subscription :=
  ⟨rfl, rfl, rfl, rfl, rfl⟩

theorem reprice_carries (subscription : CustomerSubscription) (charge : Charge) :
    (charge.reprice subscription).Carries subscription :=
  ⟨rfl, rfl, rfl, rfl, rfl⟩

/-! ### Steps -/

/-- An edit brings every open balance to the new terms. -/
theorem update_followsAgreement {next : Account} (follows : FollowsAgreement account)
    (updated : updateSubscription attrs account = .ok next) : FollowsAgreement next := by
  intro charge member isOpen balance
  obtain ⟨row, ⟨notCommercial, same⟩ | ⟨-, -, rewritten⟩⟩ := updateSubscription_ok updated
  · rw [row]
    exact (follows charge (same ▸ member) isOpen balance).congr
      (applyTo_sameTerms notCommercial account.subscription)
  · rw [rewritten] at member
    obtain ⟨before, -, ⟨-, rfl⟩ | ⟨untouched, rfl⟩⟩ := mem_updateWhere.mp member
    · exact reprice_carries next.subscription before
    · exact absurd ⟨isOpen, balance⟩ untouched

theorem step_followsAgreement (keyed : account.Keyed) (follows : FollowsAgreement account)
    (guard : ReopensOnTerms account request) : FollowsAgreement (step account request) := by
  rcases step_eq account request with performed | ⟨-, same⟩
  swap
  · exact same.symm ▸ follows
  by_cases isUpdate : ∃ attrs, request.operation = .update attrs
  · obtain ⟨attrs, isUpdate⟩ := isUpdate
    unfold perform at performed
    rw [isUpdate] at performed
    exact update_followsAgreement follows performed
  have notUpdate : ∀ attrs, request.operation ≠ .update attrs := by simpa using isUpdate
  have sameTerms : account.subscription.SameTerms (step account request).subscription :=
    step_sameTerms notUpdate
  intro charge member isOpen balance
  apply Charge.Carries.congr sameTerms
  rcases (step_charges keyed request).origin charge member with ⟨before, stored, effect⟩ | created
  · cases effect with
    | same => exact follows charge stored isOpen balance
    | repriced isUpdate => exact absurd isUpdate (notUpdate _)
    | paid isPayment accepts =>
        have positive := accepts.positive
        have within := accepts.within
        obtain ⟨net, rate, tax, gross, currency⟩ := follows before stored accepts.isOpen (by omega)
        exact ⟨net, rate, tax, gross, currency⟩
    | cancelled => simp [Charge.setState] at isOpen
    | reopened isResume extended isCancelled =>
        obtain ⟨net, rate, tax, gross, currency⟩ :=
          guard isResume _ before stored extended isCancelled balance
        exact ⟨net, rate, tax, gross, currency⟩
  · obtain ⟨coverageEnd, -, row⟩ := created.row
    rw [row]
    exact newCharge_carries _ _ _ _

/-- A charge reopened on other terms breaks the agreement. -/
theorem reopensOnTerms_of_followsAgreement (follows : FollowsAgreement (step account request)) :
    ReopensOnTerms account request := by
  intro isResume source charge stored extended isCancelled balance
  have sameTerms : account.subscription.SameTerms (step account request).subscription :=
    step_sameTerms (by simp [isResume])
  cases extended with
  | payment payment isPayment => simp [isResume] at isPayment
  | resume _ resumable due =>
      have stepped := reopening_step isResume resumable due ⟨charge, stored, rfl, isCancelled⟩
      have reopened : charge.setState .open ∈ (step account request).charges := by
        rw [stepped]
        exact mem_updateWhere_of_selected stored ⟨rfl, isCancelled⟩
      obtain ⟨net, rate, tax, gross, currency⟩ := follows _ reopened rfl balance
      exact Charge.Carries.congr sameTerms.symm ⟨net, rate, tax, gross, currency⟩

/-! ### Runs -/

/-- In a run of requests on a created subscription every open balance carries
the current terms exactly when every charge with a balance that a resumption
opens again does. -/
theorem follows_agreement_iff (created : createSubscription attrs = .ok account)
    (requests : List Request) :
    Always step FollowsAgreement account requests ↔
      EveryStep step ReopensOnTerms account requests := by
  have opened := createSubscription_opened created
  refine always_iff_guarded (fun account => account.Keyed ∧ FollowsAgreement account)
    (fun _ => True) (fun _ sound => sound.2)
    (fun _ request sound _ guard =>
      ⟨step_keyed sound.1 request, step_followsAgreement sound.1 sound.2 guard⟩)
    (fun _ _ _ _ follows => reopensOnTerms_of_followsAgreement follows)
    ⟨opened.keyed, ?_⟩ (fun _ _ => trivial)
  exact opened.forall_charge fun coverageEnd _ _ _ _ => newCharge_carries _ _ _ _

/-- A pause and a resumption without an edit between them meet the condition. -/
theorem follows_agreement_hosting :
    EveryStep step ReopensOnTerms hosting
      [paying ⟨2026, 10, 5, by decide⟩ 0 12400,
        onDay ⟨2026, 10, 6, by decide⟩ .pause,
        onDay ⟨2026, 10, 7, by decide⟩ .resume] :=
  (follows_agreement_iff createSubscription_hosting _).mp (by decide)

/-- A price edit during a pause misses the next charge, and the resumption
opens it at the old price. -/
theorem resume_reopens_old_price :
    createSubscription hostingAttrs = .ok hosting ∧
      ¬ Always step FollowsAgreement hosting
        [paying ⟨2026, 10, 5, by decide⟩ 0 12400,
          onDay ⟨2026, 10, 6, by decide⟩ .pause,
          onDay ⟨2026, 10, 7, by decide⟩ (.update { netPrice := some 20000 }),
          onDay ⟨2026, 10, 8, by decide⟩ .resume] :=
  ⟨createSubscription_hosting, by decide⟩

end BubllioCrm.Subscriptions
