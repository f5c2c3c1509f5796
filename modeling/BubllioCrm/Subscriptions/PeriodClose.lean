import BubllioCrm.Subscriptions.Reachable

/-!
Owns the end at period close: when the effective date it stores leaves the
agreement in force on the day of the request.

The date is the coverage end of the newest charge that has started. Charges
advance only when they are paid, so that coverage can be over while the
agreement is still active.
-/

namespace BubllioCrm.Subscriptions

open BubllioCrm.Foundations

variable {account : Account} {clock : Clock} {today : Date}

/-! ### The current charge -/

/-- A charge that is not cancelled and whose coverage has started. -/
structure Charge.Started (charge : Charge) (today : Date) : Prop where
  kept : charge.state ≠ .cancelled
  started : charge.coverageStart ≤ today

theorem mem_started {charges : List Charge} {charge : Charge} :
    charge ∈ (keptCharges charges).filter (·.coverageStart ≤ today) ↔
      charge ∈ charges ∧ charge.Started today := by
  simp only [keptCharges, List.mem_filter, decide_eq_true_eq, and_assoc]
  constructor
  · intro ⟨member, kept, started⟩
    exact ⟨member, by simpa using kept, started⟩
  · intro ⟨member, kept, started⟩
    exact ⟨member, by simpa using kept, started⟩

/-- The newest charge of the account that has started. -/
structure Newest (account : Account) (today : Date) (charge : Charge) : Prop where
  member : charge ∈ account.charges
  started : charge.Started today
  last : ∀ other ∈ account.charges, other.Started today →
    other.coverageStart ≤ charge.coverageStart

theorem newest_of_argmax {charge : Charge}
    (found : charge ∈ ((keptCharges account.charges).filter (·.coverageStart ≤ today)).argmax
      Charge.coverageStart) : Newest account today charge := by
  have ⟨member, started⟩ := mem_started.mp (List.argmax_mem found)
  refine ⟨member, started, fun other stored otherStarted => ?_⟩
  exact List.le_of_mem_argmax (mem_started.mpr ⟨stored, otherStarted⟩) found

/-- Two newest charges start on one date, so they are one row. -/
theorem Newest.unique {first second : Charge} (formed : account.WellFormed)
    (firstNewest : Newest account today first) (secondNewest : Newest account today second) :
    first = second := by
  apply formed.dueDates first firstNewest.member second secondNewest.member
  rw [← (formed.charges first firstNewest.member).startsDue,
    ← (formed.charges second secondNewest.member).startsDue]
  exact le_antisymm (secondNewest.last first firstNewest.member firstNewest.started)
    (firstNewest.last second secondNewest.member secondNewest.started)

/-- The current charge is the newest one that has started. Where none has, it
lies in the future. -/
theorem currentCharge_cases (account : Account) (today : Date) :
    (∃ charge, currentCharge today account.charges = some charge ∧ Newest account today charge) ∨
      (∀ charge ∈ account.charges, ¬ charge.Started today) ∧
        ∀ charge, currentCharge today account.charges = some charge →
          charge ∈ account.charges ∧ today < charge.coverageStart := by
  cases found : ((keptCharges account.charges).filter (·.coverageStart ≤ today)).argmax
      Charge.coverageStart with
  | some charge =>
      left
      refine ⟨charge, ?_, newest_of_argmax found⟩
      simp [currentCharge, found]
  | none =>
      right
      have none : ∀ charge ∈ account.charges, ¬ charge.Started today := by
        intro charge member started
        have listed := mem_started.mpr ⟨member, started⟩
        rw [List.argmax_eq_none.mp found] at listed
        exact absurd listed List.not_mem_nil
      refine ⟨none, fun charge current => ?_⟩
      have first : charge ∈ (keptCharges account.charges).argmin Charge.coverageStart := by
        simpa [currentCharge, found] using current
      have ⟨member, kept⟩ := List.mem_filter.mp (List.argmin_mem first)
      refine ⟨member, not_le.mp fun started => none charge member ⟨?_, started⟩⟩
      simpa using kept

/-! ### The effective date -/

/-- The newest charge that has started, if there is one, still covers the
day. -/
def CoversToday (account : Account) (today : Date) : Prop :=
  ∀ charge, Newest account today charge → today ≤ charge.coverageEnd

/-- The effective date of an end at period close lies before the request
exactly when the newest charge that has started has run out. -/
theorem le_cancellationDate_iff (formed : account.WellFormed) :
    today ≤ cancellationDate false today account.charges ↔ CoversToday account today := by
  unfold cancellationDate
  rcases currentCharge_cases account today with ⟨charge, current, newest⟩ | ⟨none, later⟩
  · rw [current]
    dsimp only
    constructor
    · intro covers other otherNewest
      rwa [← newest.unique formed otherNewest]
    · intro covers
      exact covers charge newest
  · apply iff_of_true
    · cases current : currentCharge today account.charges with
      | none => exact le_rfl
      | some charge =>
          have ⟨member, future⟩ := later charge current
          exact future.le.trans (formed.charges charge member).ordered
    · intro charge newest
      exact absurd newest.started (none charge newest.member)

/-! ### The agreement after the request -/

/-- The account after `cancel_subscription(immediate=False)`. -/
def endAtPeriodClose (clock : Clock) (account : Account) : Account :=
  step account { clock := clock, operation := .cancel false }

/-- The end at period close leaves the agreement in force on the day of the
request: the effective date is not over, the agreement is on its way out, and
a resumption on that day does not find it ended. -/
structure StaysInForce (account : Account) (clock : Clock) : Prop where
  effectiveDate : ∃ date,
    (endAtPeriodClose clock account).subscription.cancellationEffectiveDate = some date ∧
      clock.today ≤ date
  status : (endAtPeriodClose clock account).subscription.effectiveStatus clock.today = .cancelling
  resumable : ∀ later : Clock, later.today = clock.today →
    resumeSubscription later (endAtPeriodClose clock account) ≠ .error
      (.valueError "Only a paused subscription or pending cancellation can be resumed.")

theorem endAtPeriodClose_effectiveDate (clock : Clock) (account : Account) :
    (endAtPeriodClose clock account).subscription.cancellationEffectiveDate =
      some (cancellationDate false clock.today account.charges) := rfl

/-- An agreement in force has not reached its end date. -/
theorem endDate_of_live
    (live : account.subscription.effectiveStatus today ∈ [Status.active, Status.paused]) :
    account.subscription.endDate.any (· < today) = false := by
  by_contra past
  have isOver : account.subscription.endDate.any (· < today) = true := by simpa using past
  unfold CustomerSubscription.effectiveStatus at live
  cases status : account.subscription.status <;> simp [isOver, status] at live

theorem endAtPeriodClose_status
    (live : account.subscription.effectiveStatus clock.today ∈ [Status.active, Status.paused]) :
    (endAtPeriodClose clock account).subscription.effectiveStatus clock.today =
      if cancellationDate false clock.today account.charges < clock.today then .cancelled
      else .cancelling := by
  have notOver := endDate_of_live live
  have sameEnd : (endAtPeriodClose clock account).subscription.endDate =
      account.subscription.endDate := rfl
  have isCancelling : (endAtPeriodClose clock account).subscription.status = .cancelling := rfl
  unfold CustomerSubscription.effectiveStatus
  rw [sameEnd, isCancelling, endAtPeriodClose_effectiveDate, notOver]
  simp

section Errors

variable {message : String}

theorem periodEnd_ne_valueError {subscription : CustomerSubscription} {start : Date} :
    periodEnd subscription start ≠ .error (.valueError message) := by
  unfold periodEnd
  cases subscription.billingInterval.months with
  | none => exact nofun
  | some months =>
      dsimp only
      cases (start.addMonths months).bind Date.previousDay with
      | none => exact nofun
      | some last => exact nofun

theorem Charge.checkRow_ne_valueError {charge : Charge} :
    charge.checkRow ≠ .error (.valueError message) := by
  unfold Charge.checkRow
  split_ifs <;> exact nofun

theorem ensureCharge_ne_valueError {subscription : CustomerSubscription} {charges : List Charge}
    {dueDate : Date} :
    ensureCharge subscription charges dueDate ≠ .error (.valueError message) := by
  unfold ensureCharge
  intro raised
  rcases bind_eq_error.mp raised with notEnded | ⟨coverageEnd, -, rest⟩
  · exact periodEnd_ne_valueError notEnded
  split_ifs at rest with present
  · cases rest
  · rcases bind_eq_error.mp rest with invalid | ⟨⟨⟩, -, built⟩
    · exact Charge.checkRow_ne_valueError invalid
    · cases built

/-- A continued chain of charges is never refused with a message. -/
theorem continueCharges_ne_valueError :
    continueCharges account ≠ .error (.valueError message) := by
  unfold continueCharges
  cases latestCharge account.charges with
  | none => exact nofun
  | some latest =>
      dsimp only
      split_ifs with unsettled
      · exact nofun
      cases account.subscription.billingInterval.months with
      | none => exact nofun
      | some months =>
          dsimp only
          cases latest.dueDate.addMonths months with
          | none => exact nofun
          | some nextDate =>
              dsimp only
              cases reopenDue nextDate account.charges with
              | some reopened => exact nofun
              | none =>
                  intro raised
                  rcases bind_eq_error.mp raised with notEnsured | ⟨charges, -, built⟩
                  · exact ensureCharge_ne_valueError notEnsured
                  · cases built

end Errors

/-- For every state of every subscription that is in force: an end at period
close keeps it in force on the day of the request exactly when the newest
charge that has started has not run out. -/
theorem period_close_iff (reachable : account.Reachable)
    (live : account.subscription.effectiveStatus clock.today ∈ [Status.active, Status.paused]) :
    StaysInForce account clock ↔ CoversToday account clock.today := by
  have status := endAtPeriodClose_status live
  rw [← le_cancellationDate_iff reachable.wellFormed]
  constructor
  · intro stays
    have ⟨date, stored, notOver⟩ := stays.effectiveDate
    rw [endAtPeriodClose_effectiveDate] at stored
    exact Option.some.inj stored ▸ notOver
  · intro notOver
    have cancelling : (endAtPeriodClose clock account).subscription.effectiveStatus clock.today =
        .cancelling := by
      rw [status, if_neg (not_lt.mpr notOver)]
    refine ⟨⟨_, endAtPeriodClose_effectiveDate clock account, notOver⟩, cancelling, ?_⟩
    intro later sameDay refused
    unfold resumeSubscription at refused
    rw [sameDay, cancelling] at refused
    simp at refused
    exact continueCharges_ne_valueError refused

/-- On the last covered day of an unpaid month the end at period close keeps
the agreement in force. -/
theorem period_close_hosting :
    StaysInForce hosting { today := ⟨2026, 11, 4, by decide⟩ } := by
  have reachable : hosting.Reachable := .of_run createSubscription_hosting []
  have covers : CoversToday hosting ⟨2026, 11, 4, by decide⟩ := by
    intro charge newest
    rw [List.mem_singleton.mp newest.member]
  exact (period_close_iff reachable (by decide)).mpr covers

/-- In December, with the October charge still unpaid, the agreement is active,
and an end at period close ends it four weeks ago. -/
theorem overdue_period_close_ends :
    hosting.Reachable ∧
      hosting.subscription.effectiveStatus ⟨2026, 12, 1, by decide⟩ = .active ∧
      ¬ StaysInForce hosting { today := ⟨2026, 12, 1, by decide⟩ } := by
  refine ⟨.of_run createSubscription_hosting [], by decide, fun stays => ?_⟩
  have status := stays.status
  revert status
  decide

end BubllioCrm.Subscriptions
