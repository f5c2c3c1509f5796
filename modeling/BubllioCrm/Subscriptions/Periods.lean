import BubllioCrm.Subscriptions.Runs
import BubllioCrm.Subscriptions.Transitions

/-!
Owns the calendar law of billing: what adding months does to a date, and the
periods that start at the dates reached by adding one interval again and again.

The periods tile the calendar: every day from the first start on lies in exactly
one of them.
-/

namespace BubllioCrm.Subscriptions

open BubllioCrm.Foundations

/-- `later` is the date `months` months after `date`. -/
structure IsMonthsLater (date : Date) (months : Nat) (later : Date) : Prop where
  monthIndex : later.year * 12 + later.month = date.year * 12 + date.month + months
  day : later.day = min date.day (monthLength later.year later.month)
  strict : 1 ≤ months → date < later

/-- The period that starts when the interval has been added `index` times. -/
def PeriodAt (subscription : CustomerSubscription) (months : Nat) (first : Date) (index : Nat)
    (start last : Date) : Prop :=
  first.iterateMonths months index = some start ∧ periodEnd subscription start = .ok last

/-- The first `count` periods lie one behind the other, up to the day before `bound`. -/
structure Tiles (subscription : CustomerSubscription) (months : Nat) (first : Date) (count : Nat)
    (bound : Date) : Prop where
  /-- Each period ends the day before the next one starts. -/
  adjacent : ∀ index < count, ∃ start last next,
    PeriodAt subscription months first index start last ∧
      first.iterateMonths months (index + 1) = some next ∧ next.previousDay = some last
  /-- Every day lies in exactly one period. -/
  covered : ∀ day, first ≤ day → day < bound → ∃! index, index < count ∧
    ∃ start last, PeriodAt subscription months first index start last ∧ start ≤ day ∧ day ≤ last

variable {subscription : CustomerSubscription} {months count : Nat} {first bound : Date}

theorem periodEnd_of_addMonths {start next : Date}
    (recurs : subscription.billingInterval.months = some months)
    (added : start.addMonths months = some next) :
    ∃ last, periodEnd subscription start = .ok last ∧ next.previousDay = some last := by
  have positive := BillingInterval.months_pos recurs
  obtain ⟨last, isLast⟩ := Date.previousDay_of_lt (Date.lt_addMonths positive added)
  have found : (start.addMonths months).bind Date.previousDay = some last := by
    rw [added, Option.bind_some, isLast]
  refine ⟨last, ?_, isLast⟩
  unfold periodEnd
  simp only [recurs, found]

/-- As long as the next start is a date, there is a period, and it ends the day before. -/
theorem exists_periodAt (recurs : subscription.billingInterval.months = some months)
    (reached : first.iterateMonths months count = some bound) {index : Nat}
    (inside : index < count) :
    ∃ start last next, PeriodAt subscription months first index start last ∧
      first.iterateMonths months (index + 1) = some next ∧ next.previousDay = some last := by
  have ⟨next, isNext⟩ := Date.iterateMonths_isSome_of_le inside reached
  have ⟨start, isStart, added⟩ := Option.bind_eq_some_iff.mp isNext
  have ⟨last, ended, isLast⟩ := periodEnd_of_addMonths recurs added
  exact ⟨start, last, next, ⟨isStart, ended⟩, isNext, isLast⟩

/-- Some period contains the day. -/
theorem exists_covering (recurs : subscription.billingInterval.months = some months)
    (reached : first.iterateMonths months count = some bound) {day : Date} (after : first ≤ day)
    (before : day < bound) :
    ∃ index < count, ∃ start last, PeriodAt subscription months first index start last ∧
      start ≤ day ∧ day ≤ last := by
  induction count generalizing bound with
  | zero =>
      rw [← Option.some.inj reached] at before
      exact absurd after (not_le.mpr before)
  | succ count inductionHypothesis =>
      have ⟨start, isStart, added⟩ := Option.bind_eq_some_iff.mp reached
      rcases lt_or_ge day start with earlier | inLast
      · have ⟨index, inside, covering⟩ := inductionHypothesis isStart earlier
        exact ⟨index, Nat.lt_succ_of_lt inside, covering⟩
      · have ⟨last, ended, isLast⟩ := periodEnd_of_addMonths recurs added
        exact ⟨count, Nat.lt_succ_self count, start, last, ⟨isStart, ended⟩, inLast,
          (Date.le_previousDay_iff isLast).mpr before⟩

/-- A later period starts after an earlier one has ended. -/
theorem PeriodAt.lt_of_lt (recurs : subscription.billingInterval.months = some months)
    {index other : Nat} {start last start' last' : Date}
    (period : PeriodAt subscription months first index start last)
    (period' : PeriodAt subscription months first other start' last') (less : index < other) :
    last < start' := by
  have ⟨next, isNext⟩ := Date.iterateMonths_isSome_of_le less period'.1
  have ⟨start'', isStart, added⟩ := Option.bind_eq_some_iff.mp isNext
  rw [period.1] at isStart
  rw [← Option.some.inj isStart] at added
  have ⟨ended, isEnd, isLast⟩ := periodEnd_of_addMonths recurs added
  rw [period.2] at isEnd
  rw [← Except.ok.inj isEnd] at isLast
  have ⟨further, isOther⟩ := Nat.exists_eq_add_of_le (show index + 1 ≤ other from less)
  have bound := Date.iterateMonths_le (BillingInterval.months_pos recurs) isNext
    (isOther ▸ period'.1)
  exact lt_of_lt_of_le ((Date.le_previousDay_iff isLast).mp le_rfl) bound

theorem tiles (recurs : subscription.billingInterval.months = some months)
    (reached : first.iterateMonths months count = some bound) :
    Tiles subscription months first count bound := by
  constructor
  · intro index inside
    exact exists_periodAt recurs reached inside
  · intro day after before
    have ⟨index, inside, start, last, period, starts, ends⟩ :=
      exists_covering recurs reached after before
    refine ⟨index, ⟨inside, start, last, period, starts, ends⟩, ?_⟩
    intro other covering
    have ⟨_, start', last', period', starts', ends'⟩ := covering
    rcases lt_trichotomy other index with less | same | more
    · have apart := period'.lt_of_lt recurs period less
      exact absurd (starts.trans ends') (not_le.mpr apart)
    · exact same
    · have apart := period.lt_of_lt recurs period' more
      exact absurd (starts'.trans ends) (not_le.mpr apart)

/-- The calendar law of `add_months` and `period_end`. -/
theorem calendar_law :
    (∀ (date : Date) (months : Nat), date.year * 12 + date.month + months ≤ 9999 * 12 + 12 →
      ∃ later, date.addMonths months = some later ∧ IsMonthsLater date months later) ∧
    (∀ (first second later later' : Date) (months : Nat), first ≤ second →
      first.addMonths months = some later → second.addMonths months = some later' →
        later ≤ later') ∧
    (∀ (date later later' : Date) (months months' : Nat), months ≤ months' →
      date.addMonths months = some later → date.addMonths months' = some later' →
        later ≤ later') ∧
    (∀ (subscription : CustomerSubscription) (start last : Date),
      periodEnd subscription start = .ok last → start ≤ last) ∧
    ∀ (subscription : CustomerSubscription) (months : Nat) (first bound : Date) (count : Nat),
      subscription.billingInterval.months = some months →
        first.iterateMonths months count = some bound →
          Tiles subscription months first count bound := by
  refine ⟨fun date months within => ?_, fun _ _ _ _ _ => Date.addMonths_mono,
    fun _ _ _ _ _ => Date.addMonths_mono_months, fun _ _ _ => le_periodEnd,
    fun _ _ _ _ _ => tiles⟩
  have ⟨later, added⟩ := Date.addMonths_isSome_iff.mpr within
  exact ⟨later, added, Date.addMonths_monthIndex added, Date.addMonths_day added,
    fun positive => Date.lt_addMonths positive added⟩

/-- The last day of a January, from which the periods start on shorter months. -/
def endOfJanuary : Date := ⟨2028, 1, 31, by decide⟩

theorem calendar_law_endOfJanuary :
    (∃ later, endOfJanuary.addMonths 1 = some later ∧ IsMonthsLater endOfJanuary 1 later) ∧
      Tiles hosting.subscription 1 endOfJanuary 3 ⟨2028, 4, 29, by decide⟩ :=
  ⟨calendar_law.1 _ _ (by decide), calendar_law.2.2.2.2 _ _ _ _ _ rfl (by decide)⟩

end BubllioCrm.Subscriptions
