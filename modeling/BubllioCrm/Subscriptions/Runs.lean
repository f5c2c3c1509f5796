import BubllioCrm.Foundations.Execution
import BubllioCrm.Subscriptions.Effects
import BubllioCrm.Subscriptions.Serializers

/-!
Owns the accounts a create request leaves behind and the facts every later
request keeps: distinct ids, coverage that starts on the due date and does not
end before it, and no waived charge.
-/

namespace BubllioCrm.Subscriptions

open BubllioCrm.Foundations

variable {account : Account} {request : Request} {attrs : SubscriptionAttrs}
  {row : CustomerSubscription}

/-! ### The create request -/

/-- A row made from request data is active and has never been cancelled. -/
theorem toRow_fresh (made : attrs.toRow = some row) :
    row.status = .active ∧ row.cancellationEffectiveDate = none := by
  unfold SubscriptionAttrs.toRow at made
  simp only [Option.bind_eq_bind, Option.bind_eq_some_iff, Option.pure_def,
    Option.some.injEq] at made
  obtain ⟨name, -, net, -, currency, -, rate, -, interval, -, start, -, next, -, rfl⟩ := made
  exact ⟨rfl, rfl⟩

theorem insertSubscription_ok (inserted : insertSubscription attrs = .ok row) :
    attrs.toRow = some row := by
  unfold insertSubscription at inserted
  cases made : attrs.toRow with
  | none => simp [made] at inserted
  | some other =>
      simp only [made] at inserted
      obtain ⟨⟨⟩, -, same⟩ := bind_eq_ok.mp inserted
      rw [pure_eq_ok.mp same]

/-- The first charge is in place, or the write failed and the charges are as
they were. -/
theorem firstCharge_cases (row : CustomerSubscription) (charges : List Charge) :
    firstCharge row charges = charges ∨
      ∃ coverageEnd, periodEnd row row.nextBillingDate = .ok coverageEnd ∧
        (newCharge row charges.length row.nextBillingDate coverageEnd).RowValid ∧
        (∀ charge ∈ charges, charge.dueDate ≠ row.nextBillingDate) ∧
        firstCharge row charges =
          charges ++ [newCharge row charges.length row.nextBillingDate coverageEnd] := by
  unfold firstCharge
  cases ensured : ensureCharge row charges row.nextBillingDate with
  | error error => exact Or.inl rfl
  | ok charged =>
      rcases ensureCharge_ok ensured with ⟨-, rfl⟩ | ⟨coverageEnd, ended, fresh, valid, rfl⟩
      · exact Or.inl rfl
      · exact Or.inr ⟨coverageEnd, ended, valid, fresh, rfl⟩

/-- An account right after its create request: an active row with its first
charge, or with none where the second write failed. -/
structure Opened (account : Account) : Prop where
  active : account.subscription.status = .active
  uncancelled : account.subscription.cancellationEffectiveDate = none
  charges : account.charges = [] ∨ ∃ coverageEnd,
    periodEnd account.subscription account.subscription.nextBillingDate = .ok coverageEnd ∧
    (newCharge account.subscription 0 account.subscription.nextBillingDate coverageEnd).RowValid ∧
    account.charges =
      [newCharge account.subscription 0 account.subscription.nextBillingDate coverageEnd]

theorem createSubscription_opened (created : createSubscription attrs = .ok account) :
    Opened account := by
  unfold createSubscription at created
  obtain ⟨row, inserted, built⟩ := bind_eq_ok.mp created
  obtain rfl := pure_eq_ok.mp built
  obtain ⟨active, uncancelled⟩ := toRow_fresh (insertSubscription_ok inserted)
  refine ⟨active, uncancelled, ?_⟩
  rcases firstCharge_cases row [] with none | ⟨coverageEnd, ended, valid, -, made⟩
  · exact Or.inl none
  · exact Or.inr ⟨coverageEnd, ended, valid, made⟩

/-- A property of every possible first charge holds of every charge of an
opened account. -/
theorem Opened.forall_charge {holds : Charge → Prop} (opened : Opened account)
    (first : ∀ coverageEnd,
      periodEnd account.subscription account.subscription.nextBillingDate = .ok coverageEnd →
      (newCharge account.subscription 0 account.subscription.nextBillingDate
        coverageEnd).RowValid →
      holds (newCharge account.subscription 0 account.subscription.nextBillingDate coverageEnd)) :
    ∀ charge ∈ account.charges, holds charge := by
  intro charge member
  rcases opened.charges with none | ⟨coverageEnd, ended, valid, single⟩
  · simp [none] at member
  · rw [single, List.mem_singleton] at member
    exact member ▸ first coverageEnd ended valid

/-- An opened account has one charge at most. -/
theorem Opened.single (opened : Opened account) {first second : Charge}
    (firstMember : first ∈ account.charges) (secondMember : second ∈ account.charges) :
    first = second := by
  rcases opened.charges with none | ⟨coverageEnd, -, -, row⟩
  · simp [none] at firstMember
  · rw [row, List.mem_singleton] at firstMember secondMember
    rw [firstMember, secondMember]

theorem Opened.keyed (opened : Opened account) : account.Keyed := by
  unfold Account.Keyed
  rcases opened.charges with none | ⟨coverageEnd, -, -, single⟩
  · simp [none]
  · simp [single, newCharge, List.range_succ]

/-! ### Facts of every run -/

/-- Coverage starts when the charge is due and does not end before, and no
billing operation waives a charge. -/
structure Charge.WellFormed (charge : Charge) : Prop where
  startsDue : charge.coverageStart = charge.dueDate
  ordered : charge.coverageStart ≤ charge.coverageEnd
  notWaived : charge.state ≠ .waived

theorem newCharge_wellFormed {subscription : CustomerSubscription} {id : Nat}
    {dueDate coverageEnd : Date}
    (valid : (newCharge subscription id dueDate coverageEnd).RowValid) :
    (newCharge subscription id dueDate coverageEnd).WellFormed where
  startsDue := rfl
  ordered := valid.coverage
  notWaived := by simp [newCharge]

theorem ChargeEffect.wellFormed {before after : Charge}
    (effect : ChargeEffect account request before after) (formed : before.WellFormed) :
    after.WellFormed := by
  obtain ⟨startsDue, ordered, notWaived⟩ := formed
  cases effect with
  | same => exact ⟨startsDue, ordered, notWaived⟩
  | repriced => exact ⟨startsDue, ordered, notWaived⟩
  | paid => exact ⟨startsDue, ordered, notWaived⟩
  | cancelled => exact ⟨startsDue, ordered, by simp [Charge.setState]⟩
  | reopened => exact ⟨startsDue, ordered, by simp [Charge.setState]⟩

theorem Creation.wellFormed {charge : Charge} (created : Creation account request charge) :
    charge.WellFormed := by
  obtain ⟨coverageEnd, -, row⟩ := created.row
  have valid := created.valid
  rw [row] at valid ⊢
  exact newCharge_wellFormed valid

/-- A well-formed account: distinct ids, one charge for each due date, and
well-formed charges. -/
structure Account.WellFormed (account : Account) : Prop where
  keyed : account.Keyed
  dueDates : ∀ first ∈ account.charges, ∀ second ∈ account.charges,
    first.dueDate = second.dueDate → first = second
  charges : ∀ charge ∈ account.charges, charge.WellFormed

theorem Opened.wellFormed (opened : Opened account) : account.WellFormed where
  keyed := opened.keyed
  dueDates := fun _ firstMember _ secondMember _ => opened.single firstMember secondMember
  charges := opened.forall_charge fun _ _ valid => newCharge_wellFormed valid

theorem step_wellFormed (formed : account.WellFormed) (request : Request) :
    (step account request).WellFormed := by
  have effect := step_charges formed.keyed request
  refine ⟨effect.keyed, ?_, ?_⟩
  · intro first firstMember second secondMember same
    apply eq_of_key_eq effect.keyed firstMember secondMember
    rcases effect.origin first firstMember with ⟨before, stored, became⟩ | created
    · rcases effect.origin second secondMember with ⟨other, otherStored, otherBecame⟩ | created
      · have sameRow : before = other := formed.dueDates before stored other otherStored
          (by rw [← became.dueDate_eq, ← otherBecame.dueDate_eq, same])
        rw [became.id_eq, otherBecame.id_eq, sameRow]
      · exact absurd (became.dueDate_eq ▸ same) (created.fresh before stored)
    · rcases effect.origin second secondMember with ⟨other, otherStored, otherBecame⟩ | otherCreated
      · exact absurd (otherBecame.dueDate_eq ▸ same.symm) (created.fresh other otherStored)
      · rw [created.id_eq, otherCreated.id_eq]
  · intro charge member
    rcases effect.origin charge member with ⟨before, stored, became⟩ | created
    · exact became.wellFormed (formed.charges before stored)
    · exact created.wellFormed

/-- Every account that requests lead to is well formed. -/
theorem run_wellFormed (created : createSubscription attrs = .ok account)
    (requests : List Request) : (run step account requests).WellFormed :=
  run_invariant Account.WellFormed (fun _ request formed => step_wellFormed formed request)
    (createSubscription_opened created).wellFormed requests

/-! ### A sample agreement -/

/-- Monthly hosting for 100.00 EUR and 24 % tax, first due on 5 October 2026. -/
def hostingAttrs : SubscriptionAttrs where
  name := some "Managed hosting"
  netPrice := some 10000
  currency := some "EUR"
  taxRate := some 2400
  billingInterval := some .monthly
  startDate := some ⟨2026, 10, 5, by decide⟩
  nextBillingDate := some ⟨2026, 10, 5, by decide⟩

/-- The account its create request leaves behind. -/
def hosting : Account where
  subscription := {
    name := "Managed hosting"
    netPrice := 10000
    currency := "EUR"
    taxRate := 2400
    billingInterval := .monthly
    startDate := ⟨2026, 10, 5, by decide⟩
    nextBillingDate := ⟨2026, 10, 5, by decide⟩ }
  charges := [{
    id := 0
    coverageStart := ⟨2026, 10, 5, by decide⟩
    coverageEnd := ⟨2026, 11, 4, by decide⟩
    dueDate := ⟨2026, 10, 5, by decide⟩
    netAmount := 10000
    taxRate := 2400
    taxAmount := 2400
    grossAmount := 12400
    currency := "EUR" }]

theorem createSubscription_hosting : createSubscription hostingAttrs = .ok hosting := by
  rfl

/-- A request of one operation on a day of October 2026, as the samples use. -/
def onDay (day : Date) (operation : Operation) : Request where
  clock := { today := day }
  operation := operation

/-- A payment of `amount` cents on `day`. -/
def paying (day : Date) (chargeId : Nat) (amount : Int) : Request :=
  onDay day (.recordPayment chargeId { amount := amount, paidDate := day })

end BubllioCrm.Subscriptions
