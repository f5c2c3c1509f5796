import BubllioCrm.Subscriptions.Openings

/-!
Owns the renewal limits: no charge is opened after the end of the agreement,
and none behind the latest kept one while automatic renewal is off.

A payment checks both before it renews, and a create request checks the end
date. A resumption checks neither, so what it may open is the condition.
-/

namespace BubllioCrm.Subscriptions

open BubllioCrm.Foundations

variable {account : Account} {request : Request} {attrs raw : SubscriptionAttrs}
  {row : CustomerSubscription}

/-- Every charge that the request creates or reopens is due by the end date,
and, while automatic renewal is off, not after the latest kept charge. -/
def RespectsLimits (account : Account) (request : Request) : Prop :=
  ∀ charge, Opens account (step account request) charge →
    (∀ last, account.subscription.endDate = some last → charge.dueDate ≤ last) ∧
      (account.subscription.autoRenew = false →
        ∀ latest, latestCharge account.charges = some latest → charge.dueDate ≤ latest.dueDate)

/-- A resumption that can open a charge finds automatic renewal on and the
charge due by the end date. -/
def ResumesWithinLimits (account : Account) (request : Request) : Prop :=
  request.operation = .resume → ∀ source date, Opening account request source date →
    account.subscription.autoRenew = true ∧
      ∀ last, account.subscription.endDate = some last → date ≤ last

theorem respectsLimits_iff (keyed : account.Keyed) :
    RespectsLimits account request ↔ ResumesWithinLimits account request := by
  constructor
  · intro respects isResume source date opening
    obtain ⟨charge, opens, rfl⟩ := opening.opens keyed
    obtain ⟨withinEnd, notRenewing⟩ := respects charge opens
    refine ⟨?_, withinEnd⟩
    by_contra off
    have later := opening.extended.lt
    cases opening.extended with
    | payment payment isPayment => simp [isPayment] at isResume
    | resume _ resumable due =>
        exact absurd (notRenewing (by simpa using off) source due.latest) (not_le.mpr later)
  · intro within charge opens
    obtain ⟨source, opening⟩ := opens.opening keyed
    cases opening.extended with
    | payment payment isPayment member accepts due =>
        exact ⟨due.withinEnd, fun off => by simp [due.autoRenew] at off⟩
    | resume isResume resumable due =>
        obtain ⟨autoRenew, withinEnd⟩ := within isResume source charge.dueDate opening
        exact ⟨withinEnd, fun off => by simp [autoRenew] at off⟩

/-! ### The first charge -/

theorem toRow_dates (made : attrs.toRow = some row) :
    row.endDate = attrs.endDate.join ∧ attrs.nextBillingDate = some row.nextBillingDate := by
  unfold SubscriptionAttrs.toRow at made
  simp only [Option.bind_eq_bind, Option.bind_eq_some_iff, Option.pure_def,
    Option.some.injEq] at made
  obtain ⟨name, -, net, -, currency, -, rate, -, interval, -, start, -, next, nextEq, rfl⟩ := made
  exact ⟨rfl, nextEq⟩

/-- A create request that passes validation is first billed by its end date. -/
theorem validate_create_dates {upper : String → String} {today : Date}
    {catalogItem : Option ServiceCatalogItem}
    (validated : validate upper today none catalogItem raw = .ok attrs) {last next : Date}
    (ends : attrs.endDate.join = some last) (bills : attrs.nextBillingDate = some next) :
    next ≤ last := by
  unfold validate at validated
  simp only [Option.isSome_none, Bool.false_eq_true, if_false, guard_eq_ok,
    Except.ok.injEq] at validated
  obtain ⟨-, -, -, -, notBefore, rfl⟩ := validated
  have ends' : ((raw.withDefaults today catalogItem).endDate).join = some last := ends
  have bills' : (raw.withDefaults today catalogItem).nextBillingDate = some next := bills
  by_contra before
  refine notBefore ?_
  cases endDate : (raw.withDefaults today catalogItem).endDate with
  | none => simp [endDate] at ends'
  | some stored =>
      rw [endDate] at ends'
      obtain rfl : stored = some last := ends'
      simpa [endsBefore, bills'] using before

theorem created_withinEnd {upper : String → String} {today : Date}
    {catalogItem : Option ServiceCatalogItem}
    (validated : validate upper today none catalogItem raw = .ok attrs)
    (created : createSubscription attrs = .ok account) :
    ∀ charge ∈ account.charges, ∀ last, account.subscription.endDate = some last →
      charge.dueDate ≤ last := by
  refine (createSubscription_opened created).forall_charge fun coverageEnd _ _ last ends => ?_
  unfold createSubscription at created
  obtain ⟨row, inserted, built⟩ := bind_eq_ok.mp created
  obtain rfl := pure_eq_ok.mp built
  obtain ⟨endEq, nextEq⟩ := toRow_dates (insertSubscription_ok inserted)
  exact validate_create_dates validated (endEq ▸ ends) nextEq

/-! ### Runs -/

/-- The first charge of a validated create request is within the end date, and
a run of requests respects the limits exactly when every resumption that can
open a charge finds automatic renewal on and the charge due by the end date. -/
theorem renewal_limits_iff {upper : String → String} {today : Date}
    {catalogItem : Option ServiceCatalogItem}
    (validated : validate upper today none catalogItem raw = .ok attrs)
    (created : createSubscription attrs = .ok account) (requests : List Request) :
    (∀ charge ∈ account.charges, ∀ last, account.subscription.endDate = some last →
        charge.dueDate ≤ last) ∧
      (EveryStep step RespectsLimits account requests ↔
        EveryStep step ResumesWithinLimits account requests) :=
  ⟨created_withinEnd validated created,
    everyStep_congr Account.Keyed (fun _ request keyed => step_keyed keyed request)
      (fun _ _ keyed => respectsLimits_iff keyed) (createSubscription_opened created).keyed
      requests⟩

theorem validate_hosting :
    validate id ⟨2026, 10, 1, by decide⟩ none none hostingAttrs = .ok hostingAttrs := by
  rfl

/-- A pause and a resumption under automatic renewal and without an end. -/
theorem renewal_limits_hosting :
    EveryStep step RespectsLimits hosting
      [paying ⟨2026, 10, 5, by decide⟩ 0 12400, onDay ⟨2026, 10, 6, by decide⟩ .pause,
        onDay ⟨2026, 10, 7, by decide⟩ .resume] := by
  refine (renewal_limits_iff validate_hosting createSubscription_hosting _).2.mpr
    ⟨?_, ?_, ?_, trivial⟩
  · intro isResume
    cases isResume
  · intro isResume
    cases isResume
  · intro _ source date opening
    exact ⟨rfl, fun last ends => by cases ends⟩

/-- The charge of November that follows the first one. -/
def hostingNovember : Charge where
  id := 1
  coverageStart := ⟨2026, 11, 5, by decide⟩
  coverageEnd := ⟨2026, 12, 4, by decide⟩
  dueDate := ⟨2026, 11, 5, by decide⟩
  netAmount := 10000
  taxRate := 2400
  taxAmount := 2400
  grossAmount := 12400
  currency := "EUR"

/-- A resumption creates the next charge although automatic renewal is off. -/
theorem resume_renews_without_autoRenew :
    validate id ⟨2026, 10, 1, by decide⟩ none none hostingAttrs = .ok hostingAttrs ∧
      createSubscription hostingAttrs = .ok hosting ∧
      ¬ EveryStep step RespectsLimits hosting
        [onDay ⟨2026, 10, 5, by decide⟩ (.update { autoRenew := some false }),
          paying ⟨2026, 10, 5, by decide⟩ 0 12400,
          onDay ⟨2026, 10, 6, by decide⟩ .pause,
          onDay ⟨2026, 10, 7, by decide⟩ .resume] := by
  refine ⟨validate_hosting, createSubscription_hosting, fun respects => ?_⟩
  obtain ⟨-, -, -, resumed, -⟩ := respects
  have notLater := (resumed hostingNovember (by decide)).2 rfl _ rfl
  exact absurd notLater (by decide)

end BubllioCrm.Subscriptions
