import BubllioCrm.Subscriptions.Openings

/-!
Owns the billing day of an agreement: the dates a chain of renewals goes
through, and when they are the dates counted from the first due date.

A renewal adds one interval to the date of the charge before it, so a day that
one short month has clipped stays clipped in every month that follows.
-/

namespace BubllioCrm.Subscriptions

open BubllioCrm.Foundations

variable {account : Account} {request : Request} {requests : List Request} {months : Nat}
  {first date next : Date}

/-! ### One renewal -/

/-- The request pays the charge due on `date` in full, and that creates the
charge due on `next`, in an agreement billed every `months` months. -/
structure Renewal (account : Account) (request : Request) (months : Nat) (date next : Date) :
    Prop where
  interval : account.subscription.billingInterval.months = some months
  paid : ∃ source ∈ account.charges, source.dueDate = date ∧ ∃ payment,
    request.operation = .recordPayment source.id payment ∧
      payment.amount = source.outstandingAmount
  created : ∃ charge, Opens account (step account request) charge ∧ charge.dueDate = next

/-- A renewal adds the interval to the date before it. -/
theorem Renewal.addMonths_eq (formed : account.WellFormed)
    (renewal : Renewal account request months date next) : date.addMonths months = some next := by
  obtain ⟨source, stored, isDate, payment, isPayment, -⟩ := renewal.paid
  obtain ⟨charge, opens, isNext⟩ := renewal.created
  obtain ⟨followed, opening⟩ := opens.opening formed.keyed
  cases opening.extended with
  | payment other otherPayment member accepts due =>
      have sameId : followed.id = source.id := by
        rw [isPayment] at otherPayment
        injection otherPayment with sameId
        exact sameId.symm
      have same : followed = source := eq_of_key_eq formed.keyed member stored sameId
      obtain ⟨otherMonths, otherInterval, added⟩ := due.next
      rw [renewal.interval] at otherInterval
      rw [← Option.some.inj otherInterval, isNext] at added
      rw [← isDate, ← same]
      exact added
  | resume isResume resumable due =>
      rw [isPayment] at isResume
      cases isResume

/-! ### A chain of renewals -/

/-- In the run of `requests`, the charge number `count` behind one due on
`first` is due on the given date: each is created by full payment of the charge
before it. -/
inductive RenewedTo (account : Account) (requests : List Request) (months : Nat) (first : Date) :
    Nat → Date → Prop where
  | first (stored : ∃ charge ∈ account.charges, charge.dueDate = first) :
      RenewedTo account requests months first 0 first
  | renewed {count : Nat} {date next : Date} {before after : List Request} {request : Request}
      (reached : RenewedTo account requests months first count date)
      (split : requests = before ++ request :: after)
      (renewal : Renewal (run step account before) request months date next) :
      RenewedTo account requests months first (count + 1) next

/-- The chain of dates is one of repeated additions. -/
theorem RenewedTo.step_back {attrs : SubscriptionAttrs} {count : Nat}
    (created : createSubscription attrs = .ok account)
    (reached : RenewedTo account requests months first (count + 1) next) :
    ∃ date, RenewedTo account requests months first count date ∧
      date.addMonths months = some next := by
  cases reached with
  | renewed reached split renewal =>
      exact ⟨_, reached, renewal.addMonths_eq (run_wellFormed created _)⟩

theorem RenewedTo.eq_first (reached : RenewedTo account requests months first 0 date) :
    date = first := by
  cases reached with
  | first stored => rfl

/-- The charge number `index` is due `index` intervals after the first one, on
its day wherever the month has that day. -/
def OnBillingDay (first : Date) (months index : Nat) (date : Date) : Prop :=
  first.addMonths (index * months) = some date ∧
    (date.day ≠ first.day → monthLength date.year date.month < first.day)

instance (first : Date) (months index : Nat) (date : Date) :
    Decidable (OnBillingDay first months index date) := by
  unfold OnBillingDay
  infer_instance

theorem onBillingDay_iff {index : Nat} :
    OnBillingDay first months index date ↔ first.addMonths (index * months) = some date := by
  refine ⟨fun on => on.1, fun added => ⟨added, fun moved => ?_⟩⟩
  obtain ⟨index, day⟩ := Date.addMonths_eq_some_iff.mp added
  rw [Date.monthLength_eq_lengthAfter index]
  omega

/-- No step of the first `count` goes from a month without the day to a month
that has more of it. -/
def NeverRegains (first : Date) (months count : Nat) : Prop :=
  ∀ index < count, min first.day (first.lengthAfter ((index + 1) * months)) ≤
    first.lengthAfter (index * months)

instance (first : Date) (months count : Nat) : Decidable (NeverRegains first months count) := by
  unfold NeverRegains
  infer_instance

/-- In every run of every agreement and for every chain of renewals in it: each
of the first `count` renewals is due on the billing day exactly when none of
them leaves a month that clips the day for one that clips it less. -/
theorem renewals_onBillingDay_iff {attrs : SubscriptionAttrs} {count : Nat} {last : Date}
    (created : createSubscription attrs = .ok account)
    (reached : RenewedTo account requests months first count last) :
    (∀ index ≤ count, ∀ date, RenewedTo account requests months first index date →
      OnBillingDay first months index date) ↔ NeverRegains first months count := by
  simp only [onBillingDay_iff]
  induction count generalizing last with
  | zero =>
      apply iff_of_true
      · intro index bound date start
        obtain rfl : index = 0 := Nat.le_zero.mp bound
        rw [start.eq_first, Nat.zero_mul]
        exact first.addMonths_zero
      · intro index bound
        omega
  | succ count inductionHypothesis =>
      obtain ⟨date, before, added⟩ := reached.step_back created
      have earlier := inductionHypothesis before
      constructor
      · intro all
        have kept : ∀ index ≤ count, ∀ date, RenewedTo account requests months first index date →
            first.addMonths (index * months) = some date :=
          fun index bound => all index (Nat.le_succ_of_le bound)
        have lastStep := (Date.addMonths_add_iff (kept count le_rfl date before) added).mp
        intro index bound
        rcases Nat.lt_succ_iff_lt_or_eq.mp bound with below | rfl
        · exact earlier.mp kept index below
        · rw [Nat.succ_mul]
          apply lastStep
          rw [← Nat.succ_mul]
          exact all (index + 1) le_rfl last reached
      · intro never
        have kept := earlier.mpr fun index bound => never index (Nat.lt_succ_of_lt bound)
        intro index bound other otherReached
        rcases Nat.le_succ_iff.mp bound with below | rfl
        · exact kept index below other otherReached
        · obtain ⟨middle, middleReached, middleAdded⟩ := otherReached.step_back created
          have middleOn := kept count le_rfl middle middleReached
          rw [Nat.succ_mul]
          apply (Date.addMonths_add_iff middleOn middleAdded).mpr
          rw [← Nat.succ_mul]
          exact never count (Nat.lt_succ_self count)

/-! ### An agreement billed at the end of the month -/

/-- The sample agreement, first due on the last day of January. -/
def monthEndAttrs : SubscriptionAttrs :=
  { hostingAttrs with
    startDate := some ⟨2026, 1, 31, by decide⟩
    nextBillingDate := some ⟨2026, 1, 31, by decide⟩ }

def monthEnd : Account where
  subscription := { hosting.subscription with
    startDate := ⟨2026, 1, 31, by decide⟩
    nextBillingDate := ⟨2026, 1, 31, by decide⟩ }
  charges := [newCharge hosting.subscription 0 ⟨2026, 1, 31, by decide⟩ ⟨2026, 2, 27, by decide⟩]

theorem createSubscription_monthEnd : createSubscription monthEndAttrs = .ok monthEnd := rfl

/-- The payments of January and of February, each in full and on its due date. -/
def monthEndPayments : List Request :=
  [paying ⟨2026, 1, 31, by decide⟩ 0 12400, paying ⟨2026, 2, 28, by decide⟩ 1 12400]

theorem monthEnd_february :
    RenewedTo monthEnd monthEndPayments 1 ⟨2026, 1, 31, by decide⟩ 1 ⟨2026, 2, 28, by decide⟩ := by
  have split : monthEndPayments = [] ++ paying ⟨2026, 1, 31, by decide⟩ 0 12400 ::
      [paying ⟨2026, 2, 28, by decide⟩ 1 12400] := rfl
  refine .renewed (.first ⟨_, List.mem_cons_self, rfl⟩) split ⟨rfl, ?_, ?_⟩
  · exact ⟨_, List.mem_cons_self, rfl, _, rfl, rfl⟩
  · exact ⟨newCharge hosting.subscription 1 ⟨2026, 2, 28, by decide⟩ ⟨2026, 3, 27, by decide⟩,
      by decide⟩

theorem monthEnd_march :
    RenewedTo monthEnd monthEndPayments 1 ⟨2026, 1, 31, by decide⟩ 2 ⟨2026, 3, 28, by decide⟩ := by
  have split : monthEndPayments = [paying ⟨2026, 1, 31, by decide⟩ 0 12400] ++
      paying ⟨2026, 2, 28, by decide⟩ 1 12400 :: [] := rfl
  refine .renewed monthEnd_february split ⟨rfl, ?_, ?_⟩
  · exact ⟨newCharge hosting.subscription 1 ⟨2026, 2, 28, by decide⟩ ⟨2026, 3, 27, by decide⟩,
      by decide, rfl, { amount := 12400, paidDate := ⟨2026, 2, 28, by decide⟩ }, by decide⟩
  · exact ⟨newCharge hosting.subscription 2 ⟨2026, 3, 28, by decide⟩ ⟨2026, 4, 27, by decide⟩,
      by decide⟩

/-- February is on the billing day of the agreement. -/
theorem renewals_onBillingDay_february :
    OnBillingDay ⟨2026, 1, 31, by decide⟩ 1 1 ⟨2026, 2, 28, by decide⟩ :=
  (renewals_onBillingDay_iff createSubscription_monthEnd monthEnd_february).mpr (by decide) 1
    le_rfl _ monthEnd_february

/-- After February, March is billed on the 28th and not on the 31st. -/
theorem march_loses_billing_day :
    createSubscription monthEndAttrs = .ok monthEnd ∧
      RenewedTo monthEnd monthEndPayments 1 ⟨2026, 1, 31, by decide⟩ 2 ⟨2026, 3, 28, by decide⟩ ∧
      ¬ OnBillingDay ⟨2026, 1, 31, by decide⟩ 1 2 ⟨2026, 3, 28, by decide⟩ :=
  ⟨createSubscription_monthEnd, monthEnd_march, by decide⟩

end BubllioCrm.Subscriptions
