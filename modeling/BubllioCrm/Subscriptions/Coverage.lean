import BubllioCrm.Subscriptions.Openings
import Mathlib.Order.CompletePartialOrder
import Mathlib.Order.Interval.Set.Basic

/-!
Owns the periods of one subscription: when the closed coverage intervals of
its kept charges stay disjoint.

Coverage takes its length from the interval at the creation of a charge, and
the next due date from the interval at the payment or the resumption, so the
successor can be due inside the period it follows.
-/

namespace BubllioCrm.Subscriptions

open BubllioCrm.Foundations

variable {account : Account} {request : Request}

/-- One of the two periods is over before the other begins. -/
def Charge.Apart (first second : Charge) : Prop :=
  first.coverageEnd < second.coverageStart ∨ second.coverageEnd < first.coverageStart

instance (first second : Charge) : Decidable (first.Apart second) := by
  unfold Charge.Apart
  infer_instance

/-- The closed coverage intervals of kept charges are pairwise disjoint. -/
def BilledOnce (account : Account) : Prop :=
  ∀ first ∈ account.charges, ∀ second ∈ account.charges, first.id ≠ second.id →
    first.state ≠ .cancelled → second.state ≠ .cancelled →
    Disjoint (Set.Icc first.coverageStart first.coverageEnd)
      (Set.Icc second.coverageStart second.coverageEnd)

/-- The order of the periods that stands for their disjointness. -/
def KeptApart (account : Account) : Prop :=
  ∀ first ∈ account.charges, ∀ second ∈ account.charges, first.id ≠ second.id →
    first.state ≠ .cancelled → second.state ≠ .cancelled → first.Apart second

instance : DecidablePred KeptApart := fun account => by
  unfold KeptApart
  infer_instance

theorem Charge.Apart.symm {first second : Charge} (apart : first.Apart second) :
    second.Apart first :=
  Or.symm apart

theorem Charge.Apart.disjoint {first second : Charge} (apart : first.Apart second) :
    Disjoint (Set.Icc first.coverageStart first.coverageEnd)
      (Set.Icc second.coverageStart second.coverageEnd) := by
  rw [Set.disjoint_left]
  rintro day ⟨firstLow, firstHigh⟩ ⟨secondLow, secondHigh⟩
  rcases apart with before | after
  · exact absurd (secondLow.trans firstHigh) (not_le.mpr before)
  · exact absurd (firstLow.trans secondHigh) (not_le.mpr after)

theorem KeptApart.billedOnce (apart : KeptApart account) : BilledOnce account :=
  fun first firstMember second secondMember distinct firstKept secondKept =>
    (apart first firstMember second secondMember distinct firstKept secondKept).disjoint

/-- A day that two kept charges cover is billed twice. -/
theorem not_billedOnce (day : Date)
    (twice : ∃ first ∈ account.charges, ∃ second ∈ account.charges, first.id ≠ second.id ∧
      first.state ≠ .cancelled ∧ second.state ≠ .cancelled ∧
      (first.coverageStart ≤ day ∧ day ≤ first.coverageEnd) ∧
      (second.coverageStart ≤ day ∧ day ≤ second.coverageEnd)) : ¬ BilledOnce account := by
  obtain ⟨first, firstMember, second, secondMember, distinct, firstKept, secondKept, inFirst,
    inSecond⟩ := twice
  intro billed
  exact Set.disjoint_left.mp
    (billed first firstMember second secondMember distinct firstKept secondKept) inFirst inSecond

/-! ### The invariant -/

/-- Only the last kept charge can have a balance. -/
def SettledInOrder (account : Account) : Prop :=
  ∀ first ∈ account.charges, ∀ second ∈ account.charges,
    first.state ≠ .cancelled → second.state ≠ .cancelled →
    first.dueDate < second.dueDate → first.outstandingAmount = 0

/-- The charge that is followed is the last kept one. -/
theorem Extends.last {source charge : Charge} {date : Date} (ordered : SettledInOrder account)
    (extended : Extends account request source date) (member : charge ∈ account.charges)
    (kept : charge.state ≠ .cancelled) : charge.dueDate ≤ source.dueDate := by
  cases extended with
  | payment payment isPayment stored accepts due =>
      by_contra later
      have settled := ordered source stored charge member (by simp [accepts.isOpen]) kept
        (not_le.mp later)
      have positive := accepts.positive
      have within := accepts.within
      omega
  | resume isResume resumable due => exact (latestCharge_eq_some due.latest).2.2 charge member kept

/-- Every request keeps the order: a successor is opened behind the last kept
charge, which is settled by then. -/
theorem step_settledInOrder (formed : account.WellFormed) (ordered : SettledInOrder account)
    (request : Request) : SettledInOrder (step account request) := by
  intro first firstMember second secondMember firstKept secondKept before
  rcases kept_origin formed.keyed firstMember firstKept with
    ⟨oldFirst, firstStored, firstWas, firstEffect⟩ | firstOpens
  · rcases kept_origin formed.keyed secondMember secondKept with
      ⟨oldSecond, secondStored, secondWas, secondEffect⟩ | secondOpens
    · rw [firstEffect.dueDate_eq, secondEffect.dueDate_eq] at before
      exact firstEffect.settled
        (ordered oldFirst firstStored oldSecond secondStored firstWas secondWas before)
    · obtain ⟨source, opening⟩ := secondOpens.opening formed.keyed
      obtain ⟨sourceStored, sourceKept⟩ := opening.extended.member
      rcases (opening.extended.last ordered firstStored firstWas).lt_or_eq with earlier | same
      · exact firstEffect.settled
          (ordered oldFirst firstStored source sourceStored firstWas sourceKept earlier)
      · have sameRow := formed.dueDates oldFirst firstStored source sourceStored same
        exact opening.source_settled formed.keyed firstMember (sameRow ▸ firstEffect.id_eq)
  · obtain ⟨source, opening⟩ := firstOpens.opening formed.keyed
    rcases kept_origin formed.keyed secondMember secondKept with
      ⟨oldSecond, secondStored, secondWas, secondEffect⟩ | secondOpens
    · have last := opening.extended.last ordered secondStored secondWas
      have later := opening.extended.lt
      rw [secondEffect.dueDate_eq] at before
      exact absurd (before.trans_le last) (not_lt.mpr later.le)
    · obtain ⟨other, otherwise⟩ := secondOpens.opening formed.keyed
      have same := (opening.extended.unique formed.keyed otherwise.extended).2
      exact absurd same before.ne

/-- The successor that a request opens is due after the coverage of the charge
it follows. -/
def OpensAfterCoverage (account : Account) (request : Request) : Prop :=
  ∀ source date, Opening account request source date → source.coverageEnd < date

structure Periodic (account : Account) : Prop where
  formed : account.WellFormed
  ordered : SettledInOrder account
  apart : KeptApart account

/-- An opened charge is apart from every charge that was kept before. -/
private theorem Periodic.apart_opened (periodic : Periodic account)
    (guard : OpensAfterCoverage account request) {opened : Charge}
    (opens : Opens account (step account request) opened) {before after : Charge}
    (stored : before ∈ account.charges) (kept : before.state ≠ .cancelled)
    (effect : ChargeEffect account request before after) : after.Apart opened := by
  obtain ⟨formed, ordered, apart⟩ := periodic
  obtain ⟨source, opening⟩ := opens.opening formed.keyed
  obtain ⟨sourceStored, sourceKept⟩ := opening.extended.member
  have later : source.coverageEnd < opened.coverageStart := by
    rw [((step_wellFormed formed request).charges opened opens.1).startsDue]
    exact guard source opened.dueDate opening
  left
  rw [effect.coverage_eq.2]
  rcases (opening.extended.last ordered stored kept).lt_or_eq with earlier | same
  · have sourceFormed := formed.charges source sourceStored
    have distinct : before.id ≠ source.id := by
      intro sameId
      rw [eq_of_key_eq formed.keyed stored sourceStored sameId] at earlier
      exact lt_irrefl _ earlier
    rcases apart before stored source sourceStored distinct kept sourceKept with ended | ended
    · exact ended.trans (sourceFormed.ordered.trans_lt later)
    · have starts := (formed.charges before stored).startsDue
      have sourceStarts := sourceFormed.startsDue
      have ordered' := sourceFormed.ordered
      rw [starts] at ended
      rw [sourceStarts] at ordered'
      exact absurd (ordered'.trans_lt ended) (not_lt.mpr earlier.le)
  · rw [formed.dueDates before stored source sourceStored same]
    exact later

theorem step_periodic (periodic : Periodic account)
    (guard : OpensAfterCoverage account request) : Periodic (step account request) := by
  have nextFormed := step_wellFormed periodic.formed request
  refine ⟨nextFormed, step_settledInOrder periodic.formed periodic.ordered request, ?_⟩
  intro first firstMember second secondMember distinct firstKept secondKept
  have keyed := periodic.formed.keyed
  rcases kept_origin keyed firstMember firstKept with
    ⟨oldFirst, firstStored, firstWas, firstEffect⟩ | firstOpens
  · rcases kept_origin keyed secondMember secondKept with
      ⟨oldSecond, secondStored, secondWas, secondEffect⟩ | secondOpens
    · unfold Charge.Apart
      rw [firstEffect.coverage_eq.1, firstEffect.coverage_eq.2, secondEffect.coverage_eq.1,
        secondEffect.coverage_eq.2]
      refine periodic.apart oldFirst firstStored oldSecond secondStored ?_ firstWas secondWas
      rw [← firstEffect.id_eq, ← secondEffect.id_eq]
      exact distinct
    · exact periodic.apart_opened guard secondOpens firstStored firstWas firstEffect
  · rcases kept_origin keyed secondMember secondKept with
      ⟨oldSecond, secondStored, secondWas, secondEffect⟩ | secondOpens
    · exact (periodic.apart_opened guard firstOpens secondStored secondWas secondEffect).symm
    · obtain ⟨source, opening⟩ := firstOpens.opening keyed
      obtain ⟨other, otherwise⟩ := secondOpens.opening keyed
      have same := (opening.extended.unique keyed otherwise.extended).2
      exact absurd (congrArg Charge.id (nextFormed.dueDates first firstMember second secondMember
        same)) distinct

/-- A successor opened inside the coverage it follows overlaps with it. -/
theorem opensAfterCoverage_of_billedOnce (formed : account.WellFormed)
    (billed : BilledOnce (step account request)) : OpensAfterCoverage account request := by
  intro source date opening
  obtain ⟨opened, opens, rfl⟩ := opening.opens formed.keyed
  obtain ⟨sourceStored, sourceKept⟩ := opening.extended.member
  have nextFormed := step_wellFormed formed request
  obtain ⟨after, member, effect⟩ := (step_charges formed.keyed request).kept source sourceStored
  have kept : after.state ≠ .cancelled := by
    cases effect with
    | same => exact sourceKept
    | repriced isUpdate commercial editable => exact sourceKept
    | paid isPayment accepts => exact sourceKept
    | cancelled cut => simp [opening.extended.cutoff_eq_none] at cut
    | reopened => simp [Charge.setState]
  have later := opening.extended.lt
  have distinct : after.id ≠ opened.id := by
    intro sameId
    have sameRow := eq_of_key_eq nextFormed.keyed member opens.1 sameId
    rw [← effect.dueDate_eq, sameRow] at later
    exact lt_irrefl _ later
  have openedFormed := nextFormed.charges opened opens.1
  have openedKept : opened.state ≠ .cancelled := by simp [opens.isOpen formed.keyed]
  by_contra inside
  refine not_billedOnce opened.dueDate ⟨after, member, opened, opens.1, distinct, kept,
    openedKept, ⟨?_, ?_⟩, ?_, ?_⟩ billed
  · rw [(nextFormed.charges after member).startsDue, effect.dueDate_eq]
    exact later.le
  · rw [effect.coverage_eq.2]
    exact not_lt.mp inside
  · exact openedFormed.startsDue.le
  · exact openedFormed.startsDue ▸ openedFormed.ordered

theorem Opened.periodic (opened : Opened account) : Periodic account := by
  refine ⟨opened.wellFormed, ?_, ?_⟩
  · intro first firstMember second secondMember _ _ before
    exact absurd (congrArg Charge.dueDate (opened.single firstMember secondMember)) before.ne
  · intro first firstMember second secondMember distinct
    exact absurd (congrArg Charge.id (opened.single firstMember secondMember)) distinct

/-- In a run of requests on a created subscription no day is covered by two
kept charges exactly when every successor that a request opens is due after
the coverage of the charge it follows. -/
theorem billed_once_iff {attrs : SubscriptionAttrs}
    (created : createSubscription attrs = .ok account) (requests : List Request) :
    Always step BilledOnce account requests ↔
      EveryStep step OpensAfterCoverage account requests :=
  always_iff_guarded Periodic (fun _ => True)
    (fun _ periodic => periodic.apart.billedOnce)
    (fun _ _ periodic _ guard => step_periodic periodic guard)
    (fun _ _ periodic _ billed => opensAfterCoverage_of_billedOnce periodic.formed billed)
    (createSubscription_opened created).periodic (fun _ _ => trivial)

/-- Two monthly payments of the sample agreement meet the condition. -/
theorem billed_once_hosting :
    EveryStep step OpensAfterCoverage hosting
      [paying ⟨2026, 10, 5, by decide⟩ 0 12400, paying ⟨2026, 11, 5, by decide⟩ 1 12400] :=
  (billed_once_iff createSubscription_hosting _).mp
    (Always.imp (fun _ apart => KeptApart.billedOnce apart) (by decide))

/-- The year that a payment under the annual interval has opened is billed
again by the month after the interval has gone back to monthly. -/
theorem interval_edit_bills_twice :
    createSubscription hostingAttrs = .ok hosting ∧
      ¬ Always step BilledOnce hosting
        [onDay ⟨2026, 10, 5, by decide⟩ (.update { billingInterval := some .annual }),
          paying ⟨2026, 10, 5, by decide⟩ 0 12400,
          onDay ⟨2026, 10, 6, by decide⟩ (.update { billingInterval := some .monthly }),
          paying ⟨2026, 10, 6, by decide⟩ 1 12400] := by
  refine ⟨createSubscription_hosting, fun billed => ?_⟩
  obtain ⟨-, -, -, -, last⟩ := billed
  exact not_billedOnce ⟨2027, 11, 5, by decide⟩ (by decide) last

end BubllioCrm.Subscriptions
