import Mathlib.Order.Bounds.Basic
import Zulip.Billing.Plan

/-!
# Boundaries of billing cycles

Past billing cycles are not stored, they are computed again from the anchor of the plan. The loops
that do so end at the least boundary after a date. `datetime` has no years after 9999: there
`replace` raises an error, and so does the loop.
-/

namespace Zulip.Billing

namespace DateTime

/-- `datetime.MAXYEAR` -/
def maxYear : Nat := 9999

/-- What the constructor of `datetime` accepts. -/
structure Valid (dt : DateTime) : Prop where
  year : 1 ≤ dt.year ∧ dt.year ≤ maxYear
  day : 1 ≤ dt.day ∧ dt.day ≤ daysInMonth dt.year dt.month
  second : dt.second < 86400
  microsecond : dt.microsecond < 1000000

instance (dt : DateTime) : Decidable dt.Valid :=
  decidable_of_iff
    ((1 ≤ dt.year ∧ dt.year ≤ maxYear) ∧ (1 ≤ dt.day ∧ dt.day ≤ daysInMonth dt.year dt.month) ∧
      dt.second < 86400 ∧ dt.microsecond < 1000000)
    ⟨fun ⟨year, day, second, microsecond⟩ => ⟨year, day, second, microsecond⟩,
      fun valid => ⟨valid.year, valid.day, valid.second, valid.microsecond⟩⟩

/-- A date, unless the constructor raises an error. -/
def checked (dt : DateTime) : Option DateTime := if dt.Valid then some dt else none

/-- `add_months` with the check that `replace` makes. -/
def addMonthsChecked (dt : DateTime) (months : Nat) : Option DateTime :=
  (dt.addMonths months).checked

/-- The loop of `start_of_next_billing_cycle` and `next_invoice_date`. It is `none` as long as it
goes on, and `some none` when it raises an error. -/
def cycleLoop (anchor : DateTime) (monthsPerPeriod : Nat) (point : DateTime) :
    Nat → Nat → DateTime → Option (Option DateTime)
  | 0, _, _ => none
  | fuel + 1, periods, dt =>
      if dt ≤ point then
        match anchor.addMonthsChecked (monthsPerPeriod * periods) with
        | none => some none
        | some next => cycleLoop anchor monthsPerPeriod point fuel (periods + 1) next
      else some (some dt)

/-! ## Adding months to a valid date -/

theorem maxDayForMonth_le (year month : Nat) : maxDayForMonth month ≤ daysInMonth year month := by
  unfold maxDayForMonth daysInMonth
  split
  · split <;> omega
  · exact le_rfl

theorem one_le_maxDayForMonth (month : Nat) : 1 ≤ maxDayForMonth month := by
  unfold maxDayForMonth
  split
  · omega
  · split <;> omega

theorem year_le {first second : DateTime} (notAfter : first ≤ second) :
    first.year ≤ second.year := by
  have firstMonth := first.monthValid
  have secondMonth := second.monthValid
  have index := monthIndex_le notAfter
  unfold monthIndex at index
  omega

/-- The day is clipped to one that the month has in every year. -/
theorem valid_addMonths_iff {dt : DateTime} (valid : dt.Valid) (months : Nat) :
    (dt.addMonths months).Valid ↔ (dt.addMonths months).year ≤ maxYear := by
  refine ⟨fun added => added.year.2, fun inRange => ⟨⟨?_, inRange⟩, ⟨?_, ?_⟩, valid.second,
    valid.microsecond⟩⟩
  · have index := monthIndex_addMonths dt months
    have month := dt.monthValid
    have addedMonth := (dt.addMonths months).monthValid
    have year := valid.year.1
    unfold monthIndex at index
    omega
  · exact le_min valid.day.1 (one_le_maxDayForMonth _)
  · exact (min_le_right _ _).trans (maxDayForMonth_le _ _)

theorem lt_addMonths (dt : DateTime) {months : Nat} (positive : 1 ≤ months) :
    dt < dt.addMonths months := by
  apply lt_of_monthIndex_lt
  rw [monthIndex_addMonths]
  omega

theorem addMonths_lt_addMonths (dt : DateTime) {fewer more : Nat} (later : fewer < more) :
    dt.addMonths fewer < dt.addMonths more := by
  apply lt_of_monthIndex_lt
  rw [monthIndex_addMonths, monthIndex_addMonths]
  omega

/-! ## The loop -/

theorem boundary_succ (anchor : DateTime) (monthsPerPeriod periods : Nat) :
    boundary anchor monthsPerPeriod (periods + 1) =
      anchor.addMonths (monthsPerPeriod * (periods + 1)) := rfl

theorem checked_of_valid {dt : DateTime} (valid : dt.Valid) : dt.checked = some dt := if_pos valid

theorem checked_of_not_valid {dt : DateTime} (invalid : ¬ dt.Valid) : dt.checked = none :=
  if_neg invalid

/-- When a boundary is out of range, so are the later ones. -/
theorem not_valid_of_le {anchor : DateTime} (valid : anchor.Valid) {monthsPerPeriod : Nat}
    (positive : 0 < monthsPerPeriod) {periods later : Nat} (notAfter : periods + 1 ≤ later)
    (invalid : ¬ (boundary anchor monthsPerPeriod (periods + 1)).Valid) :
    ¬ (boundary anchor monthsPerPeriod later).Valid := by
  intro laterValid
  have ordered := (boundary_strictMono anchor positive).monotone notAfter
  exact invalid ((valid_addMonths_iff valid _).mpr ((year_le ordered).trans laterValid.year.2))

/-- From a boundary that is not after the point, the loop goes on to the first one that is. -/
theorem cycleLoop_boundary {anchor point : DateTime} (valid : anchor.Valid)
    {monthsPerPeriod : Nat} (positive : 0 < monthsPerPeriod) {found : Nat}
    (after : point < boundary anchor monthsPerPeriod found)
    (earlierOnes : ∀ earlier < found, boundary anchor monthsPerPeriod earlier ≤ point)
    {steps periods : Nat} (reaches : periods + steps = found)
    (periodsValid : (boundary anchor monthsPerPeriod periods).Valid) :
    cycleLoop anchor monthsPerPeriod point (steps + 1) (periods + 1)
        (boundary anchor monthsPerPeriod periods) =
      some (boundary anchor monthsPerPeriod found).checked := by
  induction steps generalizing periods with
  | zero =>
      obtain rfl : periods = found := reaches
      rw [cycleLoop, if_neg (not_le.mpr after), checked_of_valid periodsValid]
  | succ steps inductionHypothesis =>
      rw [cycleLoop, if_pos (earlierOnes periods (by omega)), addMonthsChecked, ← boundary_succ]
      by_cases nextValid : (boundary anchor monthsPerPeriod (periods + 1)).Valid
      · rw [checked_of_valid nextValid]
        exact inductionHypothesis (by omega) nextValid
      · rw [checked_of_not_valid nextValid,
          checked_of_not_valid (not_valid_of_le valid positive (by omega) nextValid)]

/-- The loop ends at the boundary that `nextBoundary` finds, if there is such a date. -/
theorem cycleLoop_spec {anchor : DateTime} (valid : anchor.Valid) {monthsPerPeriod : Nat}
    (positive : 0 < monthsPerPeriod) (point : DateTime) :
    ∃ fuel, cycleLoop anchor monthsPerPeriod point fuel 1 anchor =
      some (nextBoundary anchor monthsPerPeriod point).checked := by
  obtain ⟨found, isFound, after, earlierOnes⟩ := nextBoundary_spec anchor point positive
  refine ⟨found + 1, ?_⟩
  rw [isFound]
  exact cycleLoop_boundary valid positive after earlierOnes (Nat.zero_add found) valid

/-! ## The least boundary after a date -/

theorem nextBoundary_isLeast (anchor point : DateTime) {monthsPerPeriod : Nat}
    (positive : 0 < monthsPerPeriod) :
    IsLeast {dt | point < dt ∧ ∃ periods, dt = boundary anchor monthsPerPeriod periods}
      (nextBoundary anchor monthsPerPeriod point) := by
  obtain ⟨found, isFound, after, earlierOnes⟩ := nextBoundary_spec anchor point positive
  rw [isFound]
  refine ⟨⟨after, found, rfl⟩, ?_⟩
  rintro dt ⟨isAfter, periods, rfl⟩
  by_contra before
  have earlier := (boundary_strictMono anchor positive).lt_iff_lt.mp (not_le.mp before)
  exact absurd (earlierOnes periods earlier) (not_le.mpr isAfter)

theorem nextBoundary_monotone (anchor : DateTime) {monthsPerPeriod : Nat}
    (positive : 0 < monthsPerPeriod) : Monotone (nextBoundary anchor monthsPerPeriod) := by
  intro first second notAfter
  obtain ⟨⟨secondAfter, isBoundary⟩, -⟩ := nextBoundary_isLeast anchor second positive
  exact (nextBoundary_isLeast anchor first positive).2
    ⟨lt_of_le_of_lt notAfter secondAfter, isBoundary⟩

/-- Whole years after the anchor are whole months after it. -/
theorem boundary_annual (anchor : DateTime) (years : Nat) :
    boundary anchor 12 years = boundary anchor 1 (12 * years) := by
  cases years with
  | zero => rfl
  | succ years =>
      have months : 12 * (years + 1) = 12 * years + 11 + 1 := by omega
      rw [boundary_succ, months, boundary_succ, Nat.one_mul]

end DateTime

namespace CustomerPlan

/-- `start_of_next_billing_cycle`, with a number of steps. -/
def startOfNextBillingCycleLoop (plan : CustomerPlan) (eventTime : DateTime) (fuel : Nat) :
    Option (Option DateTime) :=
  DateTime.cycleLoop plan.billingCycleAnchor plan.billingSchedule.monthsPerPeriod eventTime fuel 1
    plan.billingCycleAnchor

/-- The loop of the module function `next_invoice_date` for a plan whose next invoice is due on
`dt`, with a number of steps. -/
def nextInvoiceDateLoop (plan : CustomerPlan) (dt : DateTime) (fuel : Nat) :
    Option (Option DateTime) :=
  DateTime.cycleLoop plan.billingCycleAnchor 1 dt fuel 1 plan.billingCycleAnchor

/-- The boundaries of the billing cycles of a plan. -/
def CycleStart (plan : CustomerPlan) (dt : DateTime) : Prop :=
  ∃ periods, dt = DateTime.boundary plan.billingCycleAnchor
    plan.billingSchedule.monthsPerPeriod periods

/-- The boundaries of the months of a plan. -/
def MonthStart (plan : CustomerPlan) (dt : DateTime) : Prop :=
  ∃ months, dt = DateTime.boundary plan.billingCycleAnchor 1 months

/-- Months are added to the anchor in order, and give a date up to the last year. Both loops end;
their result is the least boundary after the date that they start from, or an error when this
boundary is not a date. -/
theorem cycleBoundaries (plan : CustomerPlan) (valid : plan.billingCycleAnchor.Valid) :
    (∀ months, (plan.billingCycleAnchor.addMonths months).Valid ↔
      (plan.billingCycleAnchor.addMonths months).year ≤ DateTime.maxYear) ∧
    (∀ months, 1 ≤ months → plan.billingCycleAnchor < plan.billingCycleAnchor.addMonths months ∧
      ∀ more, months < more →
        plan.billingCycleAnchor.addMonths months < plan.billingCycleAnchor.addMonths more) ∧
    (∀ eventTime, (∃ fuel, plan.startOfNextBillingCycleLoop eventTime fuel =
        some (plan.startOfNextBillingCycle eventTime).checked) ∧
      IsLeast {dt | eventTime < dt ∧ plan.CycleStart dt}
        (plan.startOfNextBillingCycle eventTime)) ∧
    (∀ dt, plan.status ≠ .ended → plan.nextInvoiceDate = some dt →
      ∃ next, plan.nextInvoiceDateAfter = some (some next) ∧
        (∃ fuel, plan.nextInvoiceDateLoop dt fuel = some next.checked) ∧
        IsLeast {later | dt < later ∧ plan.MonthStart later} next) ∧
    Monotone plan.startOfNextBillingCycle ∧
    ∀ dt, plan.CycleStart dt → plan.MonthStart dt := by
  have positive := plan.billingSchedule.monthsPerPeriod_pos
  refine ⟨DateTime.valid_addMonths_iff valid, fun months atLeastOne =>
    ⟨DateTime.lt_addMonths _ atLeastOne, fun more later =>
      DateTime.addMonths_lt_addMonths _ later⟩, fun eventTime =>
    ⟨DateTime.cycleLoop_spec valid positive eventTime,
      DateTime.nextBoundary_isLeast _ eventTime positive⟩, ?_,
    DateTime.nextBoundary_monotone _ positive, ?_⟩
  · intro dt notEnded due
    refine ⟨DateTime.nextBoundary plan.billingCycleAnchor 1 dt, ?_,
      DateTime.cycleLoop_spec valid Nat.one_pos dt,
      DateTime.nextBoundary_isLeast _ dt Nat.one_pos⟩
    rw [nextInvoiceDateAfter, if_neg notEnded, due]
    rfl
  · rintro dt ⟨periods, rfl⟩
    cases plan.billingSchedule with
    | annual => exact ⟨12 * periods, DateTime.boundary_annual _ periods⟩
    | monthly => exact ⟨periods, rfl⟩

/-- A plan whose cycles start at the end of months. -/
def monthEndPlan (anchor : DateTime) : CustomerPlan where
  automanageLicenses := false
  chargeAutomatically := true
  pricePerLicense := some 800
  fixedPrice := none
  billingCycleAnchor := anchor
  billingSchedule := .monthly
  nextInvoiceDate := some anchor
  invoiceOverdueEmailSent := false
  invoicedThrough := none
  endDate := none
  invoicingStatus := .done
  tier := .cloudStandard
  status := .active

/-- The cycle after a leap day is computed from the end of January. -/
theorem cycleBoundaries_leapDay :
    let plan := monthEndPlan ⟨2024, 1, 31, 0, 0, by decide⟩
    let leapDay : DateTime := ⟨2024, 2, 29, 0, 0, by decide⟩
    let nextStart : DateTime := ⟨2024, 3, 31, 0, 0, by decide⟩
    (∃ fuel, plan.startOfNextBillingCycleLoop leapDay fuel = some (some nextStart)) ∧
      IsLeast {dt | leapDay < dt ∧ plan.CycleStart dt} nextStart := by
  intro plan leapDay nextStart
  have isNext : plan.startOfNextBillingCycle leapDay = nextStart := by decide
  have isDate : nextStart.checked = some nextStart := by decide
  have boundaries := (plan.cycleBoundaries (by decide)).2.2.1 leapDay
  rwa [isNext, isDate] at boundaries

/-- In the last month of the last year neither `add_months` nor the loop has a result. -/
theorem cycleBoundaries_lastMonth :
    (DateTime.mk 9999 12 15 0 0 (by decide)).Valid ∧
      (DateTime.mk 9999 12 15 0 0 (by decide)).addMonthsChecked 1 = none ∧
      (monthEndPlan ⟨9999, 12, 15, 0, 0, by decide⟩).startOfNextBillingCycleLoop
        ⟨9999, 12, 31, 0, 0, by decide⟩ 1 = some none := by
  decide

end CustomerPlan

end Zulip.Billing
