import BubllioCrm.Subscriptions.Limits
import BubllioCrm.Subscriptions.Reachable
import BubllioCrm.Subscriptions.Terms

/-!
Owns the renewal limits and the terms of open balances over the ledger, where
other requests may come between the two writes of a create request.

The second write opens the first charge by the row that the request still holds
in memory, so it has a condition of its own.
-/

namespace BubllioCrm.Subscriptions

open BubllioCrm.Foundations

variable {ledger : Ledger} {action : LedgerAction} {account : Account} {request : Request}
  {row : CustomerSubscription} {charge : Charge}

/-! ### Conditions on the accounts of a ledger -/

section Meets

variable {invariant holds : Account → Prop} {charges other : CustomerSubscription → Account → Prop}
  {serves another : Account → Request → Prop}

/-- Conditions that agree on the accounts of a ledger agree on its actions. -/
theorem Ledger.Meets.congr (all : ledger.AllAccounts invariant)
    (charged : ∀ row account, invariant account → (charges row account ↔ other row account))
    (served : ∀ account request, invariant account →
      (serves account request ↔ another account request)) :
    ledger.Meets charges serves action ↔ ledger.Meets other another action := by
  cases action with
  | insert id validatedData => exact Iff.rfl
  | chargeFirst id =>
      exact forall₂_congr fun account stored =>
        forall₂_congr fun row _ => charged row account (all id account stored)
  | serve id request =>
      exact forall₂_congr fun account stored => served account request (all id account stored)

/-- An action whose outcome has the property has met the conditions. -/
theorem Ledger.meets_of_step (all : ledger.AllAccounts invariant)
    (after : (ledger.step action).AllAccounts holds)
    (charged : ∀ row account, invariant account → holds (account.chargeFirst row) →
      charges row account)
    (served : ∀ account request, invariant account →
      holds (Subscriptions.step account request) → serves account request) :
    ledger.Meets charges serves action := by
  cases action with
  | insert id validatedData => trivial
  | chargeFirst id =>
      intro account stored row held
      apply charged row account (all id account stored)
      apply after id
      simp [Ledger.step, stored, held, Account.chargeFirst]
  | serve id request =>
      intro account stored
      apply served account request (all id account stored)
      apply after id
      simp [Ledger.step, stored]

end Meets

/-! ### The first charge -/

/-- The first charge is a new row due on the first billing date, if it is made. -/
theorem opens_chargeFirst (keyed : account.Keyed)
    (opens : Opens account (account.chargeFirst row) charge) :
    charge.dueDate = row.nextBillingDate ∧ firstCharge row account.charges ≠ account.charges := by
  obtain ⟨member, new⟩ := opens
  have notOld : charge ∉ account.charges := by
    intro stored
    rcases new with isNew | ⟨isOpen, old, wasStored, sameId, wasCancelled⟩
    · exact isNew charge stored rfl
    · rw [eq_of_key_eq keyed wasStored stored sameId, isOpen] at wasCancelled
      cases wasCancelled
  unfold Account.chargeFirst at member
  dsimp only at member
  rcases firstCharge_cases row account.charges with same | ⟨coverageEnd, -, -, -, made⟩
  · rw [same] at member
    exact absurd member notOld
  · refine ⟨?_, fun same => notOld (same ▸ member)⟩
    rw [made] at member
    rcases List.mem_append.mp member with old | isFirst
    · exact absurd old notOld
    · rw [List.mem_singleton.mp isFirst]
      rfl

theorem exists_opens_chargeFirst (keyed : account.Keyed)
    (made : firstCharge row account.charges ≠ account.charges) :
    ∃ coverageEnd, Opens account (account.chargeFirst row)
      (newCharge row account.charges.length row.nextBillingDate coverageEnd) := by
  rcases firstCharge_cases row account.charges with same | ⟨coverageEnd, -, -, -, isMade⟩
  · exact absurd same made
  · refine ⟨coverageEnd, ?_, Or.inl fun old stored => ?_⟩
    · unfold Account.chargeFirst
      rw [isMade]
      exact List.mem_append_right _ List.mem_cons_self
    · exact (key_lt_length keyed stored).ne

/-! ### The renewal limits -/

/-- The first charge is due by the end date, and not behind a kept charge while
automatic renewal is off. -/
def RespectsLimitsFirst (row : CustomerSubscription) (account : Account) : Prop :=
  ∀ charge, Opens account (account.chargeFirst row) charge →
    (∀ last, account.subscription.endDate = some last → charge.dueDate ≤ last) ∧
      (account.subscription.autoRenew = false →
        ∀ latest, latestCharge account.charges = some latest → charge.dueDate ≤ latest.dueDate)

/-- The row in memory has a first billing date within the limits of the stored
row, or its charge is not made. -/
def ChargesWithinLimits (row : CustomerSubscription) (account : Account) : Prop :=
  firstCharge row account.charges ≠ account.charges →
    (∀ last, account.subscription.endDate = some last → row.nextBillingDate ≤ last) ∧
      (account.subscription.autoRenew = false →
        ∀ latest, latestCharge account.charges = some latest →
          row.nextBillingDate ≤ latest.dueDate)

theorem respectsLimitsFirst_iff (keyed : account.Keyed) :
    RespectsLimitsFirst row account ↔ ChargesWithinLimits row account := by
  constructor
  · intro respects made
    obtain ⟨coverageEnd, opens⟩ := exists_opens_chargeFirst keyed made
    have within := respects _ opens
    exact within
  · intro within charge opens
    obtain ⟨due, made⟩ := opens_chargeFirst keyed opens
    rw [due]
    exact within made

/-- Whatever comes between the two writes of the create requests, no charge is
opened beyond the limits exactly when every resumption that can open a charge is
within them, and every first charge by the row in memory. -/
theorem Ledger.everyStep_respectsLimits_iff (actions : List LedgerAction) :
    EveryStep Ledger.step (Ledger.Meets RespectsLimitsFirst RespectsLimits) Ledger.empty actions ↔
      EveryStep Ledger.step (Ledger.Meets ChargesWithinLimits ResumesWithinLimits) Ledger.empty
        actions :=
  everyStep_congr (Ledger.AllAccounts Account.WellFormed) Ledger.step_wellFormed
    (fun _ _ formed => Ledger.Meets.congr formed
      (fun _ _ formed => respectsLimitsFirst_iff formed.keyed)
      fun _ _ formed => respectsLimits_iff formed.keyed)
    (Ledger.empty_allAccounts _) actions

/-! ### The terms of open balances -/

/-- The row in memory has the terms of the stored row, or its charge is not made
or has no balance. -/
def ChargesOnTerms (row : CustomerSubscription) (account : Account) : Prop :=
  firstCharge row account.charges ≠ account.charges → 0 < row.grossPrice →
    row.SameTerms account.subscription

theorem chargeFirst_followsAgreement (follows : FollowsAgreement account)
    (onTerms : ChargesOnTerms row account) : FollowsAgreement (account.chargeFirst row) := by
  intro charge member isOpen balance
  unfold Account.chargeFirst at member ⊢
  dsimp only at member
  rcases firstCharge_cases row account.charges with same | ⟨coverageEnd, -, -, -, made⟩
  · exact follows charge (same ▸ member) isOpen balance
  · have isMade : firstCharge row account.charges ≠ account.charges := by
      rw [made]
      simp
    rw [made] at member
    rcases List.mem_append.mp member with old | new
    · exact follows charge old isOpen balance
    · rw [List.mem_singleton.mp new] at balance ⊢
      exact (newCharge_carries row _ _ _).congr (onTerms isMade (newCharge_payable.mp balance))

theorem chargesOnTerms_of_followsAgreement (follows : FollowsAgreement (account.chargeFirst row)) :
    ChargesOnTerms row account := by
  intro isMade balance
  rcases firstCharge_cases row account.charges with same | ⟨coverageEnd, -, -, -, made⟩
  · exact absurd same isMade
  · have member : newCharge row account.charges.length row.nextBillingDate coverageEnd ∈
        (account.chargeFirst row).charges := by
      unfold Account.chargeFirst
      rw [made]
      exact List.mem_append_right _ List.mem_cons_self
    obtain ⟨net, rate, -, -, currency⟩ := follows _ member rfl (newCharge_payable.mpr balance)
    exact ⟨net, rate, currency⟩

/-- Whatever comes between the two writes of the create requests, every open
balance carries the current terms exactly when what a resumption opens again
does, and every first charge is opened by a row that has them. -/
theorem Ledger.always_followsAgreement_iff (actions : List LedgerAction) :
    Always Ledger.step (Ledger.AllAccounts FollowsAgreement) Ledger.empty actions ↔
      EveryStep Ledger.step (Ledger.Meets ChargesOnTerms ReopensOnTerms) Ledger.empty actions := by
  refine always_iff_guarded
    (Ledger.AllAccounts fun account => account.WellFormed ∧ FollowsAgreement account)
    (fun _ => True) (fun _ all id account stored => (all id account stored).2) ?_ ?_
    (Ledger.empty_allAccounts _) (fun _ _ => trivial)
  · intro ledger action all _ meets
    refine meets.step all (fun _ _ _ => ⟨⟨rfl, by simp, by simp⟩, by simp [FollowsAgreement]⟩) ?_ ?_
    · rintro row account ⟨formed, follows⟩ onTerms
      exact ⟨formed.firstCharge row, chargeFirst_followsAgreement follows onTerms⟩
    · rintro account request ⟨formed, follows⟩ onTerms
      exact ⟨Subscriptions.step_wellFormed formed request,
        step_followsAgreement formed.keyed follows onTerms⟩
  · intro ledger action all _ after
    exact Ledger.meets_of_step all after
      (fun _ _ _ follows => chargesOnTerms_of_followsAgreement follows)
      fun _ _ _ follows => reopensOnTerms_of_followsAgreement follows

/-- A price that is edited between the two writes is missed by the first charge. -/
example : ∃ account, (run Ledger.step Ledger.empty
      [.insert 0 hostingAttrs,
        .serve 0 (onDay ⟨2026, 10, 1, by decide⟩ (.update { netPrice := some 20000 })),
        .chargeFirst 0]).accounts 0 = some account ∧ ¬ FollowsAgreement account :=
  ⟨_, rfl, by decide⟩

end BubllioCrm.Subscriptions
