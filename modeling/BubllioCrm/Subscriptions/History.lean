import BubllioCrm.Subscriptions.Openings

/-!
Owns the immutability of fully paid charges: which requests rewrite one.

An edit passes over charges without a balance and a payment refuses them, but
the bulk updates of a suspension and of a resumption select by state and date
alone.
-/

namespace BubllioCrm.Subscriptions

open BubllioCrm.Foundations

variable {account : Account} {request : Request} {attrs : SubscriptionAttrs}

/-- The payments add up to a positive gross amount. -/
def Charge.FullyPaid (charge : Charge) : Prop :=
  0 < charge.grossAmount ∧ charge.paidAmount = charge.grossAmount

instance : DecidablePred Charge.FullyPaid := fun charge => by
  unfold Charge.FullyPaid
  infer_instance

/-- Every fully paid charge is still there, with every field as it was. -/
def KeepsPaid (account : Account) (request : Request) : Prop :=
  ∀ charge ∈ account.charges, charge.FullyPaid → charge ∈ (step account request).charges

instance (account : Account) (request : Request) : Decidable (KeepsPaid account request) := by
  unfold KeepsPaid
  infer_instance

/-- The charge is open and starts after the date from which the request
cancels, or it is cancelled and due where a resumption continues the chain. -/
inductive Rewrites (account : Account) (request : Request) (charge : Charge) : Prop where
  | cancels {date : Date} (cut : cutoff account request = some date)
      (isOpen : charge.state = .open) (later : date < charge.coverageStart)
  | reopens {source : Charge} (isResume : request.operation = .resume)
      (extended : Extends account request source charge.dueDate)
      (isCancelled : charge.state = .cancelled)

/-- No fully paid charge is in the reach of the request. -/
def SparesPaid (account : Account) (request : Request) : Prop :=
  ∀ charge ∈ account.charges, charge.FullyPaid → ¬ Rewrites account request charge

theorem Charge.FullyPaid.settled {charge : Charge} (paid : charge.FullyPaid) :
    charge.outstandingAmount = 0 := by
  unfold Charge.outstandingAmount
  rw [paid.2, sub_self]
  rfl

/-- A suspension cancels the open charges after its date and no others. -/
theorem cutoff_step {date : Date} (cut : cutoff account request = some date) :
    (step account request).charges = cancelOpenAfter date account.charges := by
  unfold cutoff at cut
  unfold step perform
  cases operation : request.operation with
  | cancel immediate =>
      simp only [operation, Option.some.injEq] at cut
      subst cut
      rfl
  | pause =>
      simp only [operation, Option.some.injEq] at cut
      subst cut
      rfl
  | expire =>
      simp only [operation, Option.some.injEq] at cut
      subst cut
      rfl
  | update validatedData => simp [operation] at cut
  | recordPayment chargeId payment => simp [operation] at cut
  | resume => simp [operation] at cut

/-- A charge in the reach of a request changes its state. -/
theorem Rewrites.not_mem {charge : Charge} (keyed : account.Keyed)
    (stored : charge ∈ account.charges) (rewrites : Rewrites account request charge) :
    charge ∉ (step account request).charges := by
  have replaced : ∀ state, charge.state ≠ state →
      charge.setState state ∈ (step account request).charges →
      charge ∉ (step account request).charges := by
    intro state differs member unchanged
    have same := eq_of_key_eq (step_keyed keyed request) unchanged member rfl
    exact differs (congrArg Charge.state same)
  cases rewrites with
  | cancels cut isOpen later =>
      apply replaced .cancelled (by simp [isOpen])
      rw [cutoff_step cut]
      exact mem_updateWhere_of_selected stored ⟨isOpen, later⟩
  | reopens isResume extended isCancelled =>
      apply replaced .open (by simp [isCancelled])
      cases extended with
      | payment payment isPayment => simp [isResume] at isPayment
      | resume _ resumable due =>
          rw [reopening_step isResume resumable due ⟨charge, stored, rfl, isCancelled⟩]
          exact mem_updateWhere_of_selected stored ⟨rfl, isCancelled⟩

theorem keepsPaid_iff (keyed : account.Keyed) :
    KeepsPaid account request ↔ SparesPaid account request := by
  constructor
  · intro keeps charge stored paid rewrites
    exact rewrites.not_mem keyed stored (keeps charge stored paid)
  · intro spares charge stored paid
    have settled := paid.settled
    obtain ⟨after, member, effect⟩ := (step_charges keyed request).kept charge stored
    cases effect with
    | same => exact member
    | repriced isUpdate commercial editable => exact absurd settled editable.2.ne'
    | paid isPayment accepts =>
        have positive := accepts.positive
        have within := accepts.within
        omega
    | cancelled cut isOpen later =>
        exact absurd (.cancels cut isOpen later) (spares charge stored paid)
    | reopened isResume extended isCancelled =>
        exact absurd (.reopens isResume extended isCancelled) (spares charge stored paid)

/-- In a run of requests on a created subscription every fully paid charge
keeps every field exactly when no request has one in its reach: no suspension
while it is open and starts after the date of the suspension, and no
resumption that continues at its due date while it is cancelled. -/
theorem paid_history_iff (created : createSubscription attrs = .ok account)
    (requests : List Request) :
    EveryStep step KeepsPaid account requests ↔ EveryStep step SparesPaid account requests :=
  everyStep_congr Account.Keyed (fun _ request keyed => step_keyed keyed request)
    (fun _ _ keyed => keepsPaid_iff keyed) (createSubscription_opened created).keyed requests

/-- A pause after the paid period has begun spares it. -/
theorem paid_history_hosting :
    EveryStep step SparesPaid hosting
      [paying ⟨2026, 10, 5, by decide⟩ 0 12400, onDay ⟨2026, 10, 6, by decide⟩ .pause,
        onDay ⟨2026, 10, 7, by decide⟩ .resume] :=
  (paid_history_iff createSubscription_hosting _).mp (by decide)

/-- A pause before the period of a prepaid charge cancels the charge. -/
theorem pause_cancels_prepaid :
    createSubscription hostingAttrs = .ok hosting ∧
      ¬ EveryStep step KeepsPaid hosting
        [paying ⟨2026, 10, 1, by decide⟩ 0 12400, onDay ⟨2026, 10, 2, by decide⟩ .pause] :=
  ⟨createSubscription_hosting, by decide⟩

end BubllioCrm.Subscriptions
