import Mathlib.Data.Prod.Lex
import Zulip.Foundation.Boundary

/-!
# Billing dates

`datetime` values in UTC, `add_months`, and the boundaries of the billing cycles that
`start_of_next_billing_cycle` computes from the anchor of a plan.
-/

namespace Zulip.Billing

/-- A `datetime` in UTC. -/
@[ext] structure DateTime where
  year : Nat
  month : Nat
  day : Nat
  /-- Seconds since midnight. -/
  second : Nat
  microsecond : Nat
  monthValid : 1 ≤ month ∧ month ≤ 12 := by decide
deriving DecidableEq

namespace DateTime

/-- The fields by which two `datetime` values are compared. -/
def key (dt : DateTime) : ℕ ×ₗ ℕ ×ₗ ℕ ×ₗ ℕ ×ₗ ℕ :=
  toLex (dt.year, toLex (dt.month, toLex (dt.day, toLex (dt.second, dt.microsecond))))

theorem key_injective : Function.Injective key := by
  intro first second same
  simp only [key, EmbeddingLike.apply_eq_iff_eq, Prod.mk.injEq] at same
  obtain ⟨year, month, day, seconds, microsecond⟩ := same
  ext <;> assumption

instance : LinearOrder DateTime := LinearOrder.lift' key key_injective

/-- The months from the year zero. -/
def monthIndex (dt : DateTime) : Nat := 12 * dt.year + dt.month

/-- A later month is later. -/
theorem lt_of_monthIndex_lt {first second : DateTime}
    (later : first.monthIndex < second.monthIndex) : first < second := by
  have firstMonth := first.monthValid
  have secondMonth := second.monthValid
  unfold monthIndex at later
  change first.key < second.key
  rw [key, key, Prod.Lex.toLex_lt_toLex, Prod.Lex.toLex_lt_toLex]
  by_cases sameYear : first.year = second.year
  · exact .inr ⟨sameYear, .inl (by dsimp only; omega)⟩
  · exact .inl (by dsimp only; omega)

theorem monthIndex_le {first second : DateTime} (notAfter : first ≤ second) :
    first.monthIndex ≤ second.monthIndex := by
  by_contra later
  exact absurd notAfter (not_le.mpr (lt_of_monthIndex_lt (not_le.mp later)))

/-- A later day of the same month is later. -/
theorem lt_of_day_lt {first second : DateTime} (year : first.year = second.year)
    (month : first.month = second.month) (day : first.day < second.day) : first < second := by
  change first.key < second.key
  rw [key, key, Prod.Lex.toLex_lt_toLex, Prod.Lex.toLex_lt_toLex, Prod.Lex.toLex_lt_toLex]
  exact .inr ⟨year, .inr ⟨month, .inl day⟩⟩

/-! ## Adding days -/

/-- The days of a month in the proleptic Gregorian calendar. -/
def daysInMonth (year month : Nat) : Nat :=
  if month = 2 then
    if year % 4 = 0 ∧ (year % 100 ≠ 0 ∨ year % 400 = 0) then 29 else 28
  else if month ∈ [4, 6, 9, 11] then 30 else 31

/-- The same time on the next day. -/
def nextDay (dt : DateTime) : DateTime :=
  if dt.day < daysInMonth dt.year dt.month then { dt with day := dt.day + 1 }
  else if isDecember : dt.month = 12 then
    { dt with year := dt.year + 1, month := 1, day := 1, monthValid := by decide }
  else
    { dt with
      month := dt.month + 1
      day := 1
      monthValid := by
        have valid := dt.monthValid
        omega }

theorem lt_nextDay (dt : DateTime) : dt < dt.nextDay := by
  have valid := dt.monthValid
  unfold nextDay
  split
  · exact lt_of_day_lt rfl rfl (Nat.lt_succ_self dt.day)
  · split
    · exact lt_of_monthIndex_lt (by simp only [monthIndex]; omega)
    · exact lt_of_monthIndex_lt (by simp only [monthIndex]; omega)

theorem nextDay_microsecond (dt : DateTime) : dt.nextDay.microsecond = dt.microsecond := by
  unfold nextDay
  split
  · rfl
  · split <;> rfl

/-- `dt + timedelta(days=days)`. -/
def addDays (dt : DateTime) : Nat → DateTime
  | 0 => dt
  | days + 1 => (dt.addDays days).nextDay

theorem lt_addDays (dt : DateTime) {days : Nat} (positive : 0 < days) : dt < dt.addDays days := by
  induction days with
  | zero => exact absurd positive (Nat.lt_irrefl 0)
  | succ days inductionHypothesis =>
    rcases Nat.eq_zero_or_pos days with rfl | positiveDays
    · exact lt_nextDay dt
    · exact (inductionHypothesis positiveDays).trans (lt_nextDay _)

theorem addDays_microsecond (dt : DateTime) (days : Nat) :
    (dt.addDays days).microsecond = dt.microsecond := by
  induction days with
  | zero => rfl
  | succ days inductionHypothesis => rw [addDays, nextDay_microsecond, inductionHypothesis]

/-! ## Adding months -/

/-- `dt.replace(microsecond=0)`. -/
def replaceMicrosecond (dt : DateTime) : DateTime := { dt with microsecond := 0 }

theorem replaceMicrosecond_of_zero {dt : DateTime} (zero : dt.microsecond = 0) :
    dt.replaceMicrosecond = dt := by
  ext <;> simp [replaceMicrosecond, zero]

/-- `MAX_DAY_FOR_MONTH`. -/
def maxDayForMonth (month : Nat) : Nat :=
  if month = 2 then 28 else if month ∈ [4, 6, 9, 11] then 30 else 31

/-- The loop in `add_months` that carries months into years. A month loses twelve at each step,
so as many steps as there are months are enough. -/
def carryMonths : Nat → Nat → Nat → Nat × Nat
  | 0, year, month => (year, month)
  | steps + 1, year, month =>
    if 12 < month then carryMonths steps (year + 1) (month - 12) else (year, month)

/-- The loop keeps the index of the month, and ends in a month of the calendar. -/
theorem carryMonths_spec {steps year month : Nat} (positive : 1 ≤ month)
    (enough : month ≤ 12 * steps + 12) :
    12 * (carryMonths steps year month).1 + (carryMonths steps year month).2 = 12 * year + month ∧
      1 ≤ (carryMonths steps year month).2 ∧ (carryMonths steps year month).2 ≤ 12 := by
  induction steps generalizing year month with
  | zero => exact ⟨rfl, positive, by simpa [carryMonths] using enough⟩
  | succ steps inductionHypothesis =>
    rw [carryMonths]
    split
    · obtain ⟨sum, valid⟩ := @inductionHypothesis (year + 1) (month - 12) (by omega) (by omega)
      exact ⟨by omega, valid⟩
    · exact ⟨rfl, positive, by omega⟩

/-- `add_months`. -/
def addMonths (dt : DateTime) (months : Nat) : DateTime :=
  let carried := carryMonths months dt.year (dt.month + months)
  { dt with
    year := carried.1
    month := carried.2
    day := min dt.day (maxDayForMonth carried.2)
    monthValid := by
      have valid := dt.monthValid
      exact (carryMonths_spec (by omega) (by omega)).2 }

theorem monthIndex_addMonths (dt : DateTime) (months : Nat) :
    (dt.addMonths months).monthIndex = dt.monthIndex + months := by
  have valid := dt.monthValid
  have kept := (@carryMonths_spec months dt.year (dt.month + months) (by omega) (by omega)).1
  unfold monthIndex addMonths
  dsimp only
  omega

/-! ## Billing cycles -/

/-- The values of `dt` in the loop of `start_of_next_billing_cycle`: the anchor, and then whole
periods after it. -/
def boundary (anchor : DateTime) (monthsPerPeriod : Nat) : Nat → DateTime
  | 0 => anchor
  | periods + 1 => anchor.addMonths (monthsPerPeriod * (periods + 1))

theorem monthIndex_boundary (anchor : DateTime) (monthsPerPeriod periods : Nat) :
    (boundary anchor monthsPerPeriod periods).monthIndex =
      anchor.monthIndex + monthsPerPeriod * periods := by
  cases periods with
  | zero => rfl
  | succ periods => exact monthIndex_addMonths anchor _

/-- Later billing cycles start later. -/
theorem boundary_strictMono (anchor : DateTime) {monthsPerPeriod : Nat}
    (positive : 0 < monthsPerPeriod) : StrictMono (boundary anchor monthsPerPeriod) := by
  intro first second later
  apply lt_of_monthIndex_lt
  rw [monthIndex_boundary, monthIndex_boundary]
  have scaled := (Nat.mul_lt_mul_left positive).mpr later
  omega

/-- The loop of `start_of_next_billing_cycle` and `next_invoice_date`: the first boundary after
`dt`. A period is at least a month, so the months up to `dt` bound the number of steps. -/
def nextBoundary (anchor : DateTime) (monthsPerPeriod : Nat) (dt : DateTime) : DateTime :=
  firstAfter (boundary anchor monthsPerPeriod) dt (dt.monthIndex + 2 - anchor.monthIndex) 0

theorem lt_boundary_of_monthIndex (anchor dt : DateTime) {monthsPerPeriod : Nat}
    (positive : 0 < monthsPerPeriod) :
    dt < boundary anchor monthsPerPeriod (dt.monthIndex + 1 - anchor.monthIndex) := by
  apply lt_of_monthIndex_lt
  rw [monthIndex_boundary]
  have atLeast := Nat.le_mul_of_pos_left (dt.monthIndex + 1 - anchor.monthIndex) positive
  omega

/-- The loop ends, at the first boundary after the date. -/
theorem nextBoundary_spec (anchor dt : DateTime) {monthsPerPeriod : Nat}
    (positive : 0 < monthsPerPeriod) :
    ∃ periods, nextBoundary anchor monthsPerPeriod dt = boundary anchor monthsPerPeriod periods ∧
      dt < boundary anchor monthsPerPeriod periods ∧
      ∀ earlier < periods, boundary anchor monthsPerPeriod earlier ≤ dt := by
  obtain ⟨periods, walk, after, -, earlierOnes⟩ :=
    firstAfter_spec (lt_boundary_of_monthIndex anchor dt positive) (Nat.zero_le _)
      (show _ ≤ 0 + (dt.monthIndex + 2 - anchor.monthIndex) by omega)
  exact ⟨periods, walk, after, fun earlier before => earlierOnes earlier (Nat.zero_le _) before⟩

theorem lt_nextBoundary (anchor dt : DateTime) {monthsPerPeriod : Nat}
    (positive : 0 < monthsPerPeriod) : dt < nextBoundary anchor monthsPerPeriod dt := by
  obtain ⟨periods, walk, after, -⟩ := nextBoundary_spec anchor dt positive
  rwa [walk]

/-- From a boundary the loop goes on to the next one. -/
theorem nextBoundary_boundary (anchor : DateTime) {monthsPerPeriod : Nat}
    (positive : 0 < monthsPerPeriod) (periods : Nat) :
    nextBoundary anchor monthsPerPeriod (boundary anchor monthsPerPeriod periods) =
      boundary anchor monthsPerPeriod (periods + 1) := by
  apply firstAfter_boundary (boundary_strictMono anchor positive)
  rw [monthIndex_boundary]
  have atLeast := Nat.le_mul_of_pos_left periods positive
  omega

/-- Before the anchor the loop does not start. -/
theorem nextBoundary_before {anchor dt : DateTime} {monthsPerPeriod : Nat}
    (before : dt < anchor) : nextBoundary anchor monthsPerPeriod dt = anchor :=
  firstAfter_before before

end DateTime

end Zulip.Billing
