import BubllioCrm.Subscriptions.Runs

/-!
Owns the effect of a suspension: no charge is created or reopened while the
agreement is not active, except by a resumption, and after a cancellation no
open charge starts later than the stored effective date.

The results hold for service calls in any order at any dates, because each
call is judged on the row it has locked.
-/

namespace BubllioCrm.Subscriptions

open BubllioCrm.Foundations

variable {account : Account} {request : Request}

/-- While the agreement is not active, only a resumption creates or reopens
charges. -/
def ExtendsOnlyWhenActive (account : Account) (request : Request) : Prop :=
  account.subscription.status ≠ .active → request.operation ≠ .resume →
    ∀ charge, ¬ Opens account (step account request) charge

theorem extendsOnlyWhenActive (keyed : account.Keyed) (request : Request) :
    ExtendsOnlyWhenActive account request := by
  intro inactive notResume charge opens
  obtain ⟨source, extended⟩ := opens.extends keyed
  rcases extended.status with active | ⟨isResume, -⟩
  · exact inactive active
  · exact notResume isResume

/-- An effective date is stored and no open charge starts after it. -/
def ClosedAfterCancellation (account : Account) : Prop :=
  ∃ date, account.subscription.cancellationEffectiveDate = some date ∧
    ∀ charge ∈ account.charges, charge.state = .open → charge.coverageStart ≤ date

/-- The request is not a resumption that succeeds. -/
def NotResumed (account : Account) (request : Request) : Prop :=
  request.operation = .resume → ∃ error, perform account request = .error error

/-- The invariant between a cancellation and the next resumption. -/
structure Suspended (account : Account) : Prop where
  keyed : account.Keyed
  inactive : account.subscription.status ≠ .active
  closed : ClosedAfterCancellation account

private theorem notOpen_after_cancelOpenAfter {date : Date} {charges : List Charge}
    {charge : Charge} (member : charge ∈ cancelOpenAfter date charges)
    (isOpen : charge.state = .open) : charge.coverageStart ≤ date := by
  obtain ⟨before, -, ⟨-, rfl⟩ | ⟨kept, rfl⟩⟩ := mem_updateWhere.mp member
  · simp [Charge.setState] at isOpen
  · exact not_lt.mp fun later => kept ⟨isOpen, later⟩

/-- A cancellation suspends the agreement, whatever state it finds. -/
theorem cancel_suspends (keyed : account.Keyed) {immediate : Bool}
    (isCancel : request.operation = .cancel immediate) : Suspended (step account request) := by
  have performed : step account request = cancelSubscription immediate request.clock account := by
    unfold step perform
    rw [isCancel]
  refine ⟨step_keyed keyed request, ?_, ?_⟩
  · rw [performed]
    cases immediate <;> simp [cancelSubscription]
  · rw [performed]
    exact ⟨_, rfl, fun charge member isOpen => notOpen_after_cancelOpenAfter member isOpen⟩

/-- The open charges of a suspended agreement were open before, with the same
coverage. -/
private theorem Suspended.closed_charges (suspended : Suspended account)
    (notResume : request.operation ≠ .resume) {date : Date}
    (closed : ∀ charge ∈ account.charges, charge.state = .open → charge.coverageStart ≤ date) :
    ∀ charge ∈ (step account request).charges, charge.state = .open →
      charge.coverageStart ≤ date := by
  intro charge member isOpen
  rcases (step_charges suspended.keyed request).origin charge member with
    ⟨old, stored, effect⟩ | created
  · have wasOpen : old.state = .open := by
      cases effect with
      | same => exact isOpen
      | repriced isUpdate commercial editable => exact editable.1
      | paid isPayment accepts => exact accepts.isOpen
      | cancelled => simp [Charge.setState] at isOpen
      | reopened isResume => exact absurd isResume notResume
    exact effect.coverage_eq.1 ▸ closed old stored wasOpen
  · obtain ⟨source, extended⟩ := created.extended
    rcases extended.status with active | ⟨isResume, -⟩
    · exact absurd active suspended.inactive
    · exact absurd isResume notResume

/-- Every request but a successful resumption keeps the agreement suspended:
a repeated cancellation moves the date and cuts the charges again. -/
theorem step_suspended (suspended : Suspended account) (notResumed : NotResumed account request) :
    Suspended (step account request) := by
  by_cases isResume : request.operation = .resume
  · obtain ⟨error, refused⟩ := notResumed isResume
    have same : step account request = account := by simp [step, refused]
    exact same.symm ▸ suspended
  obtain ⟨date, stored, closed⟩ := suspended.closed
  have charges := suspended.closed_charges isResume closed
  have keyed := step_keyed suspended.keyed request
  have inactive := suspended.inactive
  have row := step_subscription account request
  generalize rowEq : (step account request).subscription = next at row
  cases row with
  | same => exact ⟨keyed, rowEq ▸ inactive, date, rowEq ▸ stored, charges⟩
  | updated isUpdate => exact ⟨keyed, rowEq ▸ inactive, date, rowEq ▸ stored, charges⟩
  | renewed isPayment => exact ⟨keyed, rowEq ▸ inactive, date, rowEq ▸ stored, charges⟩
  | cancelled isCancel => exact cancel_suspends suspended.keyed isCancel
  | paused isPause => exact ⟨keyed, by simp [rowEq], date, rowEq ▸ stored, charges⟩
  | expired isExpire => exact ⟨keyed, by simp [rowEq], date, rowEq ▸ stored, charges⟩
  | resumed resumes => exact absurd resumes isResume

/-- In every run of service calls on an account: while the agreement is not
active only a resumption creates or reopens a charge, and from a cancellation
to the next successful resumption no open charge starts after the stored
effective date. -/
theorem suspension_effective {attrs : SubscriptionAttrs}
    (created : createSubscription attrs = .ok account) :
    (∀ requests, EveryStep step ExtendsOnlyWhenActive account requests) ∧
      ∀ (before after : List Request) (cancellation : Request) (immediate : Bool),
        cancellation.operation = .cancel immediate →
        EveryStep step NotResumed (step (run step account before) cancellation) after →
        Always step ClosedAfterCancellation (step (run step account before) cancellation)
          after := by
  have opened := createSubscription_opened created
  constructor
  · exact everyStep_invariant Account.Keyed (fun _ request keyed => step_keyed keyed request)
      (fun _ request keyed => extendsOnlyWhenActive keyed request) opened.keyed
  · intro before after cancellation immediate isCancel notResumed
    have keyed : (run step account before).Keyed :=
      run_invariant Account.Keyed (fun _ request keyed => step_keyed keyed request)
        opened.keyed before
    exact Always.imp (fun _ suspended => suspended.closed)
      (always_guarded Suspended (fun _ _ suspended guard => step_suspended suspended guard)
        (cancel_suspends keyed isCancel) notResumed)

/-- After a paid month and a cancellation at its end, a payment for the next
month is refused and a pause leaves nothing open beyond the effective date. -/
theorem suspension_hosting :
    Always step ClosedAfterCancellation
      (step (run step hosting [paying ⟨2026, 10, 5, by decide⟩ 0 12400])
        (onDay ⟨2026, 10, 6, by decide⟩ (.cancel false)))
      [paying ⟨2026, 10, 7, by decide⟩ 1 12400, onDay ⟨2026, 10, 8, by decide⟩ .pause] :=
  (suspension_effective createSubscription_hosting).2 _ _ _ false rfl
    (by simp [EveryStep, NotResumed, paying, onDay])

end BubllioCrm.Subscriptions
