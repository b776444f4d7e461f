import Mathlib.Algebra.Order.Ring.Rat
import Mathlib.Tactic.IntervalCases
import Zulip.Billing.CycleBoundaries

/-!
# Differences of dates

`datetime` values are subtracted by counting days from the first day of the year one. On the dates of
the calendar the difference has the sign that the order of the dates says.
-/

namespace Zulip.Billing

namespace DateTime

/-- A day of the calendar and a time of day. -/
structure Civil (dt : DateTime) : Prop where
  year : 1 ≤ dt.year
  day : 1 ≤ dt.day ∧ dt.day ≤ daysInMonth dt.year dt.month
  second : dt.second < 86400
  microsecond : dt.microsecond < 1000000

theorem Valid.civil {dt : DateTime} (valid : dt.Valid) : dt.Civil :=
  ⟨valid.year.1, valid.day, valid.second, valid.microsecond⟩

/-- `_days_before_month` -/
def daysBeforeMonth (year : Nat) : Nat → Nat
  | 0 => 0
  | 1 => 0
  | month + 2 => daysBeforeMonth year (month + 1) + daysInMonth year (month + 1)

/-- `_days_before_year` -/
def daysBeforeYear (year : Nat) : Nat :=
  365 * (year - 1) + (year - 1) / 4 - (year - 1) / 100 + (year - 1) / 400

/-- `toordinal` -/
def toordinal (dt : DateTime) : Nat :=
  daysBeforeYear dt.year + daysBeforeMonth dt.year dt.month + dt.day

/-- The microseconds since the day before the first one. -/
def microseconds (dt : DateTime) : Nat :=
  (dt.toordinal * 86400 + dt.second) * 1000000 + dt.microsecond

/-- `later - earlier`, in microseconds. -/
def difference (earlier later : DateTime) : ℚ := (later.microseconds : ℚ) - earlier.microseconds

/-! ## Days of the year -/

theorem daysBeforeMonth_mono (year : Nat) {earlier later : Nat} (notAfter : earlier ≤ later) :
    daysBeforeMonth year earlier ≤ daysBeforeMonth year later := by
  induction later with
  | zero =>
      obtain rfl : earlier = 0 := Nat.le_zero.mp notAfter
      exact le_rfl
  | succ later inductionHypothesis =>
      rcases Nat.eq_or_lt_of_le notAfter with rfl | before
      · exact le_rfl
      · refine (inductionHypothesis (Nat.lt_succ_iff.mp before)).trans ?_
        cases later with
        | zero => exact le_rfl
        | succ later => exact Nat.le_add_right _ _

theorem daysBeforeMonth_thirteen (year : Nat) :
    daysBeforeMonth year 13 = daysInMonth year 2 + 337 := by
  have others : ∀ month, month ≠ 2 →
      daysInMonth year month = if month ∈ [4, 6, 9, 11] then 30 else 31 :=
    fun _ other => if_neg other
  simp only [daysBeforeMonth, others 1 (by decide), others 3 (by decide), others 4 (by decide),
    others 5 (by decide), others 6 (by decide), others 7 (by decide), others 8 (by decide),
    others 9 (by decide), others 10 (by decide), others 11 (by decide), others 12 (by decide)]
  simp
  omega

/-- The days before the first month of the next year are those of the year. -/
theorem daysBeforeYear_succ {year : Nat} (positive : 1 ≤ year) :
    daysBeforeYear (year + 1) = daysBeforeYear year + daysBeforeMonth year 13 := by
  obtain ⟨before, rfl⟩ := Nat.exists_eq_add_of_le' positive
  rw [daysBeforeMonth_thirteen, daysInMonth, if_pos rfl]
  unfold daysBeforeYear
  simp only [Nat.add_sub_cancel, Nat.succ_div, ne_eq, ← Nat.dvd_iff_mod_eq_zero]
  have centuries : before / 100 ≤ before := Nat.div_le_self before 100
  generalize before / 4 = fourYears, before / 100 = hundredYears, before / 400 = fourHundredYears
    at centuries ⊢
  by_cases four : 4 ∣ before + 1
  · by_cases hundred : 100 ∣ before + 1
    · by_cases fourHundred : 400 ∣ before + 1
      · simp only [four, hundred, fourHundred, if_true, not_true_eq_false, and_true, or_true]
        omega
      · simp only [four, hundred, fourHundred, if_true, if_false, not_true_eq_false, and_false,
          or_false, Nat.add_zero]
        omega
    · have notFourHundred : ¬ 400 ∣ before + 1 := fun divides =>
        hundred (Nat.dvd_trans (by decide) divides)
      simp only [four, hundred, notFourHundred, if_true, if_false, not_false_eq_true, and_true,
        or_false, Nat.add_zero]
      omega
  · have notHundred : ¬ 100 ∣ before + 1 := fun divides =>
      four (Nat.dvd_trans (by decide) divides)
    have notFourHundred : ¬ 400 ∣ before + 1 := fun divides =>
      four (Nat.dvd_trans (by decide) divides)
    simp only [four, notHundred, notFourHundred, if_false, not_false_eq_true, and_true, or_false,
      Nat.add_zero]
    omega

theorem daysBeforeYear_mono {earlier later : Nat} (positive : 1 ≤ earlier)
    (notAfter : earlier ≤ later) : daysBeforeYear earlier ≤ daysBeforeYear later := by
  induction later, notAfter using Nat.le_induction with
  | base => exact le_rfl
  | succ later notAfter inductionHypothesis =>
      rw [daysBeforeYear_succ (positive.trans notAfter)]
      exact inductionHypothesis.trans (Nat.le_add_right _ _)

/-- A day lies before the first day of the next month. -/
theorem Civil.toordinal_le {dt : DateTime} (civil : dt.Civil) :
    dt.toordinal ≤ daysBeforeYear dt.year + daysBeforeMonth dt.year (dt.month + 1) := by
  have month := dt.monthValid.1
  have day := civil.day.2
  obtain ⟨before, isMonth⟩ := Nat.exists_eq_add_of_le' month
  unfold toordinal
  rw [isMonth] at day ⊢
  rw [daysBeforeMonth]
  omega

/-! ## The order of dates -/

theorem Civil.toordinal_lt_of_year {first second : DateTime} (firstCivil : first.Civil)
    (secondCivil : second.Civil) (later : first.year < second.year) :
    first.toordinal < second.toordinal := by
  have monthBound : first.month + 1 ≤ 13 := by
    have valid := first.monthValid
    omega
  have withinYear := firstCivil.toordinal_le.trans
    (Nat.add_le_add_left (daysBeforeMonth_mono first.year monthBound) _)
  rw [← daysBeforeYear_succ firstCivil.year] at withinYear
  have years := daysBeforeYear_mono (Nat.le_add_left 1 first.year) later
  have day := secondCivil.day.1
  unfold toordinal at withinYear ⊢
  omega

theorem Civil.toordinal_lt_of_month {first second : DateTime} (firstCivil : first.Civil)
    (secondCivil : second.Civil) (sameYear : first.year = second.year)
    (later : first.month < second.month) : first.toordinal < second.toordinal := by
  have withinMonth := firstCivil.toordinal_le.trans
    (Nat.add_le_add_left (daysBeforeMonth_mono first.year later) _)
  have day := secondCivil.day.1
  rw [sameYear] at withinMonth
  unfold toordinal at withinMonth ⊢
  rw [sameYear] at withinMonth ⊢
  omega

theorem microseconds_lt_of_toordinal {first second : DateTime} (firstCivil : first.Civil)
    (later : first.toordinal < second.toordinal) : first.microseconds < second.microseconds := by
  have seconds := firstCivil.second
  have microseconds := firstCivil.microsecond
  unfold DateTime.microseconds
  omega

theorem microseconds_lt {first second : DateTime} (firstCivil : first.Civil)
    (secondCivil : second.Civil) (later : first < second) :
    first.microseconds < second.microseconds := by
  change first.key < second.key at later
  rw [key, key, Prod.Lex.toLex_lt_toLex, Prod.Lex.toLex_lt_toLex, Prod.Lex.toLex_lt_toLex,
    Prod.Lex.toLex_lt_toLex] at later
  rcases later with laterYear | ⟨sameYear, laterMonth | ⟨sameMonth, laterDay | ⟨sameDay, laterTime⟩⟩⟩
  · exact microseconds_lt_of_toordinal firstCivil
      (firstCivil.toordinal_lt_of_year secondCivil laterYear)
  · exact microseconds_lt_of_toordinal firstCivil
      (firstCivil.toordinal_lt_of_month secondCivil sameYear laterMonth)
  · apply microseconds_lt_of_toordinal firstCivil
    dsimp only at sameYear sameMonth laterDay
    unfold toordinal
    rw [sameYear, sameMonth]
    omega
  · have sameOrdinal : first.toordinal = second.toordinal := by
      dsimp only at sameYear sameMonth sameDay
      unfold toordinal
      rw [sameYear, sameMonth, sameDay]
    have microseconds := firstCivil.microsecond
    dsimp only at laterTime
    unfold DateTime.microseconds
    rw [sameOrdinal]
    omega

theorem difference_pos {earlier later : DateTime} (earlierCivil : earlier.Civil)
    (laterCivil : later.Civil) (after : earlier < later) : 0 < difference earlier later := by
  have more := microseconds_lt earlierCivil laterCivil after
  exact sub_pos.mpr (Nat.cast_lt.mpr more)

theorem difference_nonneg {earlier later : DateTime} (earlierCivil : earlier.Civil)
    (laterCivil : later.Civil) (notAfter : earlier ≤ later) : 0 ≤ difference earlier later := by
  rcases notAfter.eq_or_lt with rfl | after
  · exact (sub_self _).ge
  · exact (difference_pos earlierCivil laterCivil after).le

/-- The parts of a period add up to it. -/
theorem difference_add (first second third : DateTime) :
    difference first second + difference second third = difference first third := by
  unfold difference
  ring

/-! ## Dates that billing computes -/

theorem Civil.addMonths {dt : DateTime} (civil : dt.Civil) (months : Nat) :
    (dt.addMonths months).Civil := by
  have index := monthIndex_addMonths dt months
  have month := dt.monthValid
  have addedMonth := (dt.addMonths months).monthValid
  have year := civil.year
  unfold monthIndex at index
  refine ⟨by omega, ⟨?_, ?_⟩, civil.second, civil.microsecond⟩
  · exact le_min civil.day.1 (one_le_maxDayForMonth _)
  · exact (min_le_right _ _).trans (maxDayForMonth_le _ _)

theorem Civil.boundary {anchor : DateTime} (civil : anchor.Civil) (monthsPerPeriod periods : Nat) :
    (boundary anchor monthsPerPeriod periods).Civil := by
  cases periods with
  | zero => exact civil
  | succ periods => exact civil.addMonths _

theorem Civil.nextBoundary {anchor : DateTime} (civil : anchor.Civil) {monthsPerPeriod : Nat}
    (positive : 0 < monthsPerPeriod) (dt : DateTime) :
    (nextBoundary anchor monthsPerPeriod dt).Civil := by
  obtain ⟨periods, isFound, -⟩ := nextBoundary_spec anchor dt positive
  rw [isFound]
  exact civil.boundary monthsPerPeriod periods

theorem Civil.replaceMicrosecond {dt : DateTime} (civil : dt.Civil) :
    dt.replaceMicrosecond.Civil :=
  ⟨civil.year, civil.day, civil.second, Nat.succ_pos _⟩

end DateTime

end Zulip.Billing
