import Mathlib.Order.Lattice
import Mathlib.Order.Basic
import Mathlib.Order.Defs.LinearOrder
import Mathlib.Data.Nat.Basic

/-!
Owns the proleptic Gregorian calendar of years 1 to 9999: dates that carry the
proof of their own validity, their order, the days before and after a date and
the date a number of months later with the day clipped to the length of the
month.

Every operation that can leave the supported years is partial.
-/

namespace BubllioCrm.Foundations

def isLeap (year : Nat) : Bool :=
  year % 4 == 0 && (year % 100 != 0 || year % 400 == 0)

/-- Number of days of a month, the second component of `calendar.monthrange`. -/
def monthLength (year month : Nat) : Nat :=
  if month = 2 then (if isLeap year then 29 else 28)
  else if month = 4 ∨ month = 6 ∨ month = 9 ∨ month = 11 then 30
  else 31

theorem monthLength_pos (year month : Nat) : 1 ≤ monthLength year month := by
  unfold monthLength
  split_ifs <;> omega

theorem monthLength_le (year month : Nat) : monthLength year month ≤ 31 := by
  unfold monthLength
  split_ifs <;> omega

/-- The arguments `datetime.date` accepts. -/
def IsCalendarDay (year month day : Nat) : Prop :=
  1 ≤ year ∧ year ≤ 9999 ∧ 1 ≤ month ∧ month ≤ 12 ∧ 1 ≤ day ∧ day ≤ monthLength year month

instance (year month day : Nat) : Decidable (IsCalendarDay year month day) := by
  unfold IsCalendarDay
  infer_instance

structure Date where
  year : Nat
  month : Nat
  day : Nat
  valid : IsCalendarDay year month day
deriving DecidableEq

namespace Date

/-- The constructor `datetime.date(year, month, day)`, `none` where it raises. -/
def ofYmd (year month day : Nat) : Option Date :=
  if valid : IsCalendarDay year month day then some ⟨year, month, day, valid⟩ else none

/-! ### Order -/

/-- Position of a date in a calendar whose months all have 32 days. It orders
dates as their (year, month, day) triples. -/
def rank (date : Date) : Nat :=
  (date.year * 12 + date.month) * 32 + date.day

theorem day_le (date : Date) : date.day ≤ 31 :=
  date.valid.2.2.2.2.2.trans (monthLength_le _ _)

theorem rank_injective : Function.Injective rank := by
  rintro ⟨year, month, day, valid⟩ ⟨year', month', day', valid'⟩ same
  have bound := day_le ⟨year, month, day, valid⟩
  have bound' := day_le ⟨year', month', day', valid'⟩
  simp only [rank] at same bound bound'
  obtain ⟨-, -, monthPos, monthLe, -, -⟩ := id valid
  obtain ⟨-, -, monthPos', monthLe', -, -⟩ := id valid'
  have sameDay : day = day' := by omega
  have sameMonth : month = month' := by omega
  have sameYear : year = year' := by omega
  subst sameDay sameMonth sameYear
  rfl

instance : LinearOrder Date := LinearOrder.lift' rank rank_injective

theorem le_iff_rank {first second : Date} : first ≤ second ↔ first.rank ≤ second.rank :=
  Iff.rfl

theorem lt_iff_rank {first second : Date} : first < second ↔ first.rank < second.rank :=
  Iff.rfl

/-- Dates compare as (year, month, day) triples do. -/
theorem lt_iff_triple {first second : Date} :
    first < second ↔
      first.year < second.year ∨ first.year = second.year ∧
        (first.month < second.month ∨ first.month = second.month ∧ first.day < second.day) := by
  have firstDay := first.day_le
  have secondDay := second.day_le
  obtain ⟨-, -, firstMonth, firstMonth', -, -⟩ := first.valid
  obtain ⟨-, -, secondMonth, secondMonth', -, -⟩ := second.valid
  rw [lt_iff_rank]
  simp only [rank]
  omega

/-! ### Adding months -/

/-- The date `months` months later, on the same day or on the last day of a
shorter month. It is `none` when the year leaves the supported range. -/
def addMonths (date : Date) (months : Nat) : Option Date :=
  let monthIndex := date.month - 1 + months
  let year := date.year + monthIndex / 12
  let month := monthIndex % 12 + 1
  ofYmd year month (min date.day (monthLength year month))

theorem ofYmd_eq_some {year month day : Nat} {date : Date}
    (built : ofYmd year month day = some date) :
    date.year = year ∧ date.month = month ∧ date.day = day := by
  unfold ofYmd at built
  split_ifs at built with valid
  obtain rfl := Option.some.inj built
  exact ⟨rfl, rfl, rfl⟩

/-- The month index grows by exactly the number of months added. -/
theorem addMonths_monthIndex {date later : Date} {months : Nat}
    (added : date.addMonths months = some later) :
    later.year * 12 + later.month = date.year * 12 + date.month + months := by
  obtain ⟨year, month, -⟩ := ofYmd_eq_some added
  obtain ⟨-, -, monthPos, -, -, -⟩ := date.valid
  omega

/-- Number of days of the month that lies `months` months after the date. -/
def lengthAfter (date : Date) (months : Nat) : Nat :=
  monthLength (date.year + (date.month - 1 + months) / 12) ((date.month - 1 + months) % 12 + 1)

theorem lengthAfter_zero (date : Date) : date.lengthAfter 0 = monthLength date.year date.month := by
  obtain ⟨-, -, monthPos, monthLe, -, -⟩ := date.valid
  have sameYear : date.year + (date.month - 1 + 0) / 12 = date.year := by omega
  have sameMonth : (date.month - 1 + 0) % 12 + 1 = date.month := by omega
  rw [lengthAfter, sameYear, sameMonth]

theorem monthLength_eq_lengthAfter {date later : Date} {months : Nat}
    (index : later.year * 12 + later.month = date.year * 12 + date.month + months) :
    monthLength later.year later.month = date.lengthAfter months := by
  obtain ⟨-, -, monthPos, monthLe, -, -⟩ := date.valid
  obtain ⟨-, -, laterPos, laterLe, -, -⟩ := later.valid
  have sameYear : date.year + (date.month - 1 + months) / 12 = later.year := by omega
  have sameMonth : (date.month - 1 + months) % 12 + 1 = later.month := by omega
  rw [lengthAfter, sameYear, sameMonth]

theorem ofYmd_self (date : Date) : ofYmd date.year date.month date.day = some date :=
  dif_pos date.valid

/-- The sum is the date of the right month whose day is clipped to that month. -/
theorem addMonths_eq_some_iff {date later : Date} {months : Nat} :
    date.addMonths months = some later ↔
      later.year * 12 + later.month = date.year * 12 + date.month + months ∧
        later.day = min date.day (date.lengthAfter months) := by
  constructor
  · intro added
    exact ⟨addMonths_monthIndex added, (ofYmd_eq_some added).2.2⟩
  · intro same
    have ⟨index, day⟩ := same
    obtain ⟨-, -, monthPos, monthLe, -, -⟩ := date.valid
    obtain ⟨-, -, laterPos, laterLe, -, -⟩ := later.valid
    have sameYear : date.year + (date.month - 1 + months) / 12 = later.year := by omega
    have sameMonth : (date.month - 1 + months) % 12 + 1 = later.month := by omega
    calc date.addMonths months
        = ofYmd (date.year + (date.month - 1 + months) / 12) ((date.month - 1 + months) % 12 + 1)
            (min date.day (date.lengthAfter months)) := rfl
      _ = ofYmd later.year later.month later.day := by rw [sameYear, sameMonth, day]
      _ = some later := ofYmd_self later

/-- Months can be added up to the last month of the supported years. -/
theorem addMonths_isSome_iff {date : Date} {months : Nat} :
    (∃ later, date.addMonths months = some later) ↔
      date.year * 12 + date.month + months ≤ 9999 * 12 + 12 := by
  obtain ⟨yearPos, -, monthPos, monthLe, dayPos, -⟩ := date.valid
  constructor
  · rintro ⟨later, added⟩
    have index := addMonths_monthIndex added
    obtain ⟨-, laterYear, -, laterMonth, -, -⟩ := later.valid
    omega
  · intro within
    have lengthPos := monthLength_pos (date.year + (date.month - 1 + months) / 12)
      ((date.month - 1 + months) % 12 + 1)
    have yearLe : date.year + (date.month - 1 + months) / 12 ≤ 9999 := by omega
    have valid : IsCalendarDay (date.year + (date.month - 1 + months) / 12)
        ((date.month - 1 + months) % 12 + 1) (min date.day (date.lengthAfter months)) :=
      ⟨by omega, yearLe, by omega, by omega, le_min dayPos lengthPos, min_le_right _ _⟩
    exact ⟨_, dif_pos valid⟩

/-- A date reached in two steps is the one reached at once, unless the first
step has clipped the day below what the second month has. -/
theorem addMonths_add_iff {date middle later : Date} {months further : Nat}
    (first : date.addMonths months = some middle)
    (second : middle.addMonths further = some later) :
    date.addMonths (months + further) = some later ↔
      min date.day (date.lengthAfter (months + further)) ≤ date.lengthAfter months := by
  obtain ⟨middleIndex, middleDay⟩ := addMonths_eq_some_iff.mp first
  obtain ⟨laterIndex, laterDay⟩ := addMonths_eq_some_iff.mp second
  have index :
      later.year * 12 + later.month = date.year * 12 + date.month + (months + further) := by
    omega
  have sameLength : middle.lengthAfter further = date.lengthAfter (months + further) := by
    rw [← monthLength_eq_lengthAfter laterIndex, monthLength_eq_lengthAfter index]
  rw [addMonths_eq_some_iff, laterDay, sameLength, middleDay]
  omega

theorem addMonths_zero (date : Date) : date.addMonths 0 = some date := by
  have length : date.day ≤ date.lengthAfter 0 := by
    rw [lengthAfter_zero]
    exact date.valid.2.2.2.2.2
  exact addMonths_eq_some_iff.mpr ⟨rfl, (min_eq_left length).symm⟩

theorem lt_addMonths {date later : Date} {months : Nat} (positive : 0 < months)
    (added : date.addMonths months = some later) : date < later := by
  have index := addMonths_monthIndex added
  have bound := date.day_le
  obtain ⟨-, -, -, -, laterDay, -⟩ := later.valid
  rw [lt_iff_rank]
  simp only [rank]
  omega

/-- Dates of an earlier month come first. -/
theorem lt_of_monthIndex_lt {first second : Date}
    (earlier : first.year * 12 + first.month < second.year * 12 + second.month) :
    first < second := by
  obtain ⟨-, -, firstPos, firstLe, -, -⟩ := first.valid
  obtain ⟨-, -, secondPos, secondLe, -, -⟩ := second.valid
  rw [lt_iff_triple]
  omega

theorem addMonths_day {date later : Date} {months : Nat}
    (added : date.addMonths months = some later) :
    later.day = min date.day (monthLength later.year later.month) := by
  have ⟨index, day⟩ := addMonths_eq_some_iff.mp added
  rw [monthLength_eq_lengthAfter index, day]

theorem addMonths_mono {first second later later' : Date} {months : Nat} (ordered : first ≤ second)
    (added : first.addMonths months = some later)
    (added' : second.addMonths months = some later') : later ≤ later' := by
  have index := addMonths_monthIndex added
  have index' := addMonths_monthIndex added'
  obtain ⟨-, -, firstPos, firstLe, -, -⟩ := first.valid
  obtain ⟨-, -, secondPos, secondLe, -, -⟩ := second.valid
  obtain ⟨-, -, laterPos, laterLe, -, -⟩ := later.valid
  obtain ⟨-, -, laterPos', laterLe', -, -⟩ := later'.valid
  by_cases sameMonth : first.year * 12 + first.month = second.year * 12 + second.month
  · have sameLater : later.year = later'.year ∧ later.month = later'.month := by omega
    have day := addMonths_day added
    have day' := addMonths_day added'
    have dayOrdered : first.day ≤ second.day := by
      by_contra below
      have reversed : second < first := by
        rw [lt_iff_triple]
        omega
      exact absurd ordered (not_le.mpr reversed)
    rw [sameLater.1, sameLater.2] at day
    rw [← not_lt, lt_iff_triple]
    omega
  · have less : first.year * 12 + first.month < second.year * 12 + second.month := by
      by_contra notLess
      exact absurd ordered (not_le.mpr (lt_of_monthIndex_lt (by omega)))
    exact (lt_of_monthIndex_lt (by omega)).le

theorem addMonths_mono_months {date later later' : Date} {months months' : Nat}
    (ordered : months ≤ months') (added : date.addMonths months = some later)
    (added' : date.addMonths months' = some later') : later ≤ later' := by
  have index := addMonths_monthIndex added
  have index' := addMonths_monthIndex added'
  rcases ordered.eq_or_lt with same | less
  · rw [same, added'] at added
    exact (Option.some.inj added).ge
  · exact (lt_of_monthIndex_lt (by omega)).le

/-- The date that is reached when the same months are added again and again. -/
def iterateMonths (months : Nat) (first : Date) : Nat → Option Date
  | 0 => some first
  | count + 1 => (iterateMonths months first count).bind (·.addMonths months)

theorem iterateMonths_le {months earlier further : Nat} {first date later : Date}
    (positive : 0 < months) (reached : iterateMonths months first earlier = some date)
    (reachedLater : iterateMonths months first (earlier + further) = some later) :
    date ≤ later := by
  induction further generalizing later with
  | zero =>
      rw [Nat.add_zero, reached] at reachedLater
      exact (Option.some.inj reachedLater).le
  | succ further inductionHypothesis =>
      have ⟨middle, reachedMiddle, added⟩ := Option.bind_eq_some_iff.mp reachedLater
      exact (inductionHypothesis reachedMiddle).trans (lt_addMonths positive added).le

theorem iterateMonths_isSome_of_le {months count bound : Nat} {first last : Date}
    (ordered : count ≤ bound) (reached : iterateMonths months first bound = some last) :
    ∃ date, iterateMonths months first count = some date := by
  induction bound generalizing last with
  | zero => exact ⟨last, by rwa [Nat.le_zero.mp ordered]⟩
  | succ bound inductionHypothesis =>
      rcases ordered.eq_or_lt with same | less
      · exact ⟨last, by rwa [same]⟩
      · have ⟨middle, reachedMiddle, _⟩ := Option.bind_eq_some_iff.mp reached
        exact inductionHypothesis (Nat.le_of_lt_succ less) reachedMiddle

/-! ### The day before -/

/-- `date - timedelta(days=1)`, `none` on the first supported day. -/
def previousDay (date : Date) : Option Date :=
  if 1 < date.day then ofYmd date.year date.month (date.day - 1)
  else if 1 < date.month then
    ofYmd date.year (date.month - 1) (monthLength date.year (date.month - 1))
  else ofYmd (date.year - 1) 12 31

theorem previousDay_of_lt {earlier date : Date} (before : earlier < date) :
    ∃ previous, date.previousDay = some previous := by
  obtain ⟨yearPos, -, monthPos, -, dayPos, -⟩ := earlier.valid
  obtain ⟨-, yearLe, datePos, dateLe, -, dayLe⟩ := date.valid
  rw [lt_iff_triple] at before
  unfold previousDay ofYmd
  split_ifs with inMonth within inYear within within
  · exact ⟨_, rfl⟩
  · exact absurd ⟨by omega, yearLe, datePos, dateLe, by omega, by omega⟩ within
  · exact ⟨_, rfl⟩
  · have lengthPos := monthLength_pos date.year (date.month - 1)
    exact absurd ⟨by omega, yearLe, by omega, by omega, lengthPos, le_rfl⟩ within
  · exact ⟨_, rfl⟩
  · exact absurd ⟨by omega, by omega, by omega, by omega, by omega, by simp [monthLength]⟩ within

/-- The day before `date` is the greatest date below it. -/
theorem le_previousDay_iff {date previous other : Date}
    (before : date.previousDay = some previous) : other ≤ previous ↔ other < date := by
  have otherDay := other.day_le
  obtain ⟨-, -, otherMonth, otherMonth', otherPos, otherLength⟩ := other.valid
  obtain ⟨yearPos, -, monthPos, monthLe, dayPos, -⟩ := date.valid
  rw [le_iff_rank, lt_iff_rank]
  simp only [rank]
  unfold previousDay at before
  split_ifs at before with sameMonth sameYear
  · obtain ⟨year, month, day⟩ := ofYmd_eq_some before
    omega
  · obtain ⟨year, month, day⟩ := ofYmd_eq_some before
    have lengthPos := monthLength_pos date.year (date.month - 1)
    have lengthLe := monthLength_le date.year (date.month - 1)
    constructor
    · omega
    · intro below
      by_cases same : other.year = date.year ∧ other.month = date.month - 1
      · rw [same.1, same.2] at otherLength
        omega
      · omega
  · obtain ⟨year, month, day⟩ := ofYmd_eq_some before
    omega

/-! ### Adding days -/

/-- `date + timedelta(days=1)`, `none` on the last supported day. -/
def nextDay (date : Date) : Option Date :=
  if date.day < monthLength date.year date.month then ofYmd date.year date.month (date.day + 1)
  else if date.month < 12 then ofYmd date.year (date.month + 1) 1
  else ofYmd (date.year + 1) 1 1

/-- `date + timedelta(days=days)`. -/
def addDays (date : Date) : Nat → Option Date
  | 0 => some date
  | days + 1 => (addDays date days).bind nextDay

end Date

end BubllioCrm.Foundations
