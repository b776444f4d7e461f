import Mathlib.Data.Rat.Floor
import Mathlib.Tactic.Positivity
import Zulip.Billing.Loop
import Zulip.Billing.Timedelta

/-!
# Proration

An additional license costs the part of the price that is left of the billing cycle. With exact
arithmetic it costs at most the price, and no cycle has length zero.
-/

namespace Zulip.Billing

/-- `int(q)` -/
def truncate (q : ℚ) : Int := if 0 ≤ q then ⌊q⌋ else ⌈q⌉

/-- `int(price_per_license * proration_fraction + 0.5)` for the fraction of a period that a part
of it makes up. -/
def prorate (price : Nat) (part period : DateTime × DateTime) : Int :=
  truncate (price * (DateTime.difference part.1 part.2 / DateTime.difference period.1 period.2) +
    1 / 2)

/-- Exact arithmetic instead of floating point. A division by zero raises an error; here it gives a
number that nothing is known of. -/
def Pricing.exact (pricing : Pricing) (onZeroDivision : Int) : Pricing :=
  { pricing with
    prorate := fun price part period =>
      if DateTime.difference period.1 period.2 = 0 then onZeroDivision
      else Billing.prorate price part period }

/-- `get_amount_to_credit_for_plan_tier_change`. Its assertions and a division by zero give no
result. -/
def Database.amountToCreditForPlanTierChange (db : Database) (planId : Nat) (plan : CustomerPlan)
    (planChangeDate : DateTime) : Option Int := do
  let lastRenewal ← db.lastLedgerRenewal planId
  let price ← plan.pricePerLicense
  let nextRenewalDate := plan.startOfNextBillingCycle planChangeDate
  let lastRenewalAmount : ℚ := lastRenewal.licenses * price
  if DateTime.difference lastRenewal.eventTime nextRenewalDate = 0 then none
  else
    let proratedFraction := 1 - DateTime.difference lastRenewal.eventTime planChangeDate /
      DateTime.difference lastRenewal.eventTime nextRenewalDate
    some ⌈lastRenewalAmount * proratedFraction⌉

/-! ## Fractions of a period -/

section Fractions

variable {price : Nat} {part rest whole : ℚ}

theorem truncate_of_nonneg {q : ℚ} (nonneg : 0 ≤ q) : truncate q = ⌊q⌋ := if_pos nonneg

/-- Rounding half up a part of the price gives at most the price. -/
theorem truncate_prorated (nonneg : 0 ≤ part) (within : part ≤ whole) (positive : 0 < whole) :
    0 ≤ truncate (price * (part / whole) + 1 / 2) ∧
      truncate (price * (part / whole) + 1 / 2) ≤ price := by
  have fraction : 0 ≤ part / whole := div_nonneg nonneg positive.le
  have atMostOne : part / whole ≤ 1 := (div_le_one positive).mpr within
  have sumNonneg : 0 ≤ (price : ℚ) * (part / whole) + 1 / 2 := by positivity
  rw [truncate_of_nonneg sumNonneg]
  constructor
  · exact Int.floor_nonneg.mpr sumNonneg
  · have atMost : (price : ℚ) * (part / whole) ≤ price :=
      mul_le_of_le_one_right (Nat.cast_nonneg price) atMostOne
    have below : (price : ℚ) * (part / whole) + 1 / 2 < ((price : ℤ) : ℚ) + 1 := by
      push_cast
      linarith
    have floorBelow : ⌊(price : ℚ) * (part / whole) + 1 / 2⌋ < (price : ℤ) + 1 :=
      Int.floor_lt.mpr (by push_cast at below ⊢; exact below)
    omega

/-- A smaller part costs no more. -/
theorem truncate_prorated_mono (nonneg : 0 ≤ part) (smaller : part ≤ rest) (positive : 0 < whole) :
    truncate (price * (part / whole) + 1 / 2) ≤ truncate (price * (rest / whole) + 1 / 2) := by
  have fractions : part / whole ≤ rest / whole := div_le_div_of_nonneg_right smaller positive.le
  have fraction : 0 ≤ part / whole := div_nonneg nonneg positive.le
  have products : (price : ℚ) * (part / whole) ≤ price * (rest / whole) :=
    mul_le_mul_of_nonneg_left fractions (Nat.cast_nonneg price)
  have sumNonneg : 0 ≤ (price : ℚ) * (part / whole) + 1 / 2 := by positivity
  rw [truncate_of_nonneg sumNonneg, truncate_of_nonneg (by linarith)]
  exact Int.floor_le_floor (by linarith)

/-- What is left of an amount after a part of a period, rounded up. -/
theorem ceil_left (amount : Nat) (nonneg : 0 ≤ part) (within : part ≤ whole)
    (positive : 0 < whole) :
    0 ≤ ⌈(amount : ℚ) * (1 - part / whole)⌉ ∧ ⌈(amount : ℚ) * (1 - part / whole)⌉ ≤ amount := by
  have fraction : 0 ≤ part / whole := div_nonneg nonneg positive.le
  have atMostOne : part / whole ≤ 1 := (div_le_one positive).mpr within
  have left : 0 ≤ 1 - part / whole := by linarith
  constructor
  · exact Int.ceil_nonneg (mul_nonneg (Nat.cast_nonneg amount) left)
  · rw [Int.ceil_le]
    push_cast
    exact mul_le_of_le_one_right (Nat.cast_nonneg amount) (by linarith)

end Fractions

/-! ## One entry -/

namespace CustomerPlan

variable {plan : CustomerPlan} {time renewal : DateTime}

theorem lt_startOfNextBillingCycle (plan : CustomerPlan) (time : DateTime) :
    time < plan.startOfNextBillingCycle time :=
  DateTime.lt_nextBoundary _ _ plan.billingSchedule.monthsPerPeriod_pos

theorem civil_startOfNextBillingCycle (anchor : plan.billingCycleAnchor.Civil) (time : DateTime) :
    (plan.startOfNextBillingCycle time).Civil :=
  anchor.nextBoundary plan.billingSchedule.monthsPerPeriod_pos time

/-- A period that is paid for ends with its cycle, or before it with the plan. -/
theorem renewalOrEndDate_cases (plan : CustomerPlan) (time : DateTime) :
    plan.getPlanRenewalOrEndDate time = plan.startOfNextBillingCycle time ∨
      plan.getPlanRenewalOrEndDate time < plan.startOfNextBillingCycle time ∧
        plan.endDate = some (plan.getPlanRenewalOrEndDate time) := by
  unfold getPlanRenewalOrEndDate
  cases planEnd : plan.endDate with
  | none => exact .inl rfl
  | some endDate =>
      dsimp only
      split
      · exact .inr ⟨‹_›, rfl⟩
      · exact .inl rfl

/-- The dates of a plan are in the calendar. -/
structure CivilDates (plan : CustomerPlan) : Prop where
  anchor : plan.billingCycleAnchor.Civil
  endDate : ∀ endDate ∈ plan.endDate, endDate.Civil

/-- The cycle that a time is in, from a renewal before it, has a positive length. -/
theorem CivilDates.period_pos (dates : plan.CivilDates) (renewalCivil : renewal.Civil)
    (renewed : renewal ≤ time) :
    0 < DateTime.difference renewal (plan.startOfNextBillingCycle time) :=
  DateTime.difference_pos renewalCivil (civil_startOfNextBillingCycle dates.anchor time)
    (renewed.trans_lt (plan.lt_startOfNextBillingCycle time))

/-- What is left of the cycle is at least nothing, unless the plan has ended. -/
theorem CivilDates.part_nonneg (dates : plan.CivilDates) (timeCivil : time.Civil)
    (notEnded : ∀ endDate ∈ plan.endDate, time ≤ endDate) :
    0 ≤ DateTime.difference time (plan.getPlanRenewalOrEndDate time) := by
  rcases plan.renewalOrEndDate_cases time with isNext | ⟨-, isEnd⟩
  · rw [isNext]
    exact (DateTime.difference_pos timeCivil (civil_startOfNextBillingCycle dates.anchor time)
      (plan.lt_startOfNextBillingCycle time)).le
  · exact DateTime.difference_nonneg timeCivil (dates.endDate _ isEnd) (notEnded _ isEnd)

theorem CivilDates.part_le_period (dates : plan.CivilDates) (timeCivil : time.Civil)
    (renewalCivil : renewal.Civil) (renewed : renewal ≤ time) :
    DateTime.difference time (plan.getPlanRenewalOrEndDate time) ≤
      DateTime.difference renewal (plan.startOfNextBillingCycle time) := by
  have passed := DateTime.difference_nonneg renewalCivil timeCivil renewed
  rw [← DateTime.difference_add renewal time]
  rcases plan.renewalOrEndDate_cases time with isNext | ⟨before, isEnd⟩
  · rw [isNext]
    linarith
  · have unpaid := DateTime.difference_nonneg (dates.endDate _ isEnd)
      (civil_startOfNextBillingCycle dates.anchor time) before.le
    have parts := DateTime.difference_add time (plan.getPlanRenewalOrEndDate time)
      (plan.startOfNextBillingCycle time)
    linarith

/-- What an additional license costs from a time on, after a renewal. -/
def proratedUnitAmount (plan : CustomerPlan) (price : Nat) (renewal time : DateTime) : Int :=
  prorate price (time, plan.getPlanRenewalOrEndDate time)
    (renewal, plan.startOfNextBillingCycle time)

theorem CivilDates.proratedUnitAmount_bounds (dates : plan.CivilDates) (price : Nat)
    (timeCivil : time.Civil) (renewalCivil : renewal.Civil) (renewed : renewal ≤ time)
    (notEnded : ∀ endDate ∈ plan.endDate, time ≤ endDate) :
    0 ≤ plan.proratedUnitAmount price renewal time ∧
      plan.proratedUnitAmount price renewal time ≤ price :=
  truncate_prorated (dates.part_nonneg timeCivil notEnded)
    (dates.part_le_period timeCivil renewalCivil renewed)
    (dates.period_pos renewalCivil renewed)

/-- In a cycle all times have the same next cycle. -/
theorem startOfNextBillingCycle_inCycle (plan : CustomerPlan) (renewed : renewal ≤ time)
    (inCycle : time < plan.startOfNextBillingCycle renewal) :
    plan.startOfNextBillingCycle time = plan.startOfNextBillingCycle renewal := by
  have positive := plan.billingSchedule.monthsPerPeriod_pos
  refine le_antisymm ?_ (DateTime.nextBoundary_monotone _ positive renewed)
  obtain ⟨⟨-, isBoundary⟩, -⟩ :=
    DateTime.nextBoundary_isLeast plan.billingCycleAnchor renewal positive
  exact (DateTime.nextBoundary_isLeast plan.billingCycleAnchor time positive).2
    ⟨inCycle, isBoundary⟩

/-- Later in the cycle a license costs no more. -/
theorem CivilDates.proratedUnitAmount_antitone (dates : plan.CivilDates) (price : Nat)
    {later : DateTime} (timeCivil : time.Civil) (laterCivil : later.Civil)
    (renewalCivil : renewal.Civil) (renewed : renewal ≤ time) (notBefore : time ≤ later)
    (inCycle : later < plan.startOfNextBillingCycle renewal)
    (notEnded : ∀ endDate ∈ plan.endDate, later ≤ endDate) :
    plan.proratedUnitAmount price renewal later ≤ plan.proratedUnitAmount price renewal time := by
  have sameNext : plan.startOfNextBillingCycle later = plan.startOfNextBillingCycle time := by
    rw [plan.startOfNextBillingCycle_inCycle (renewed.trans notBefore) inCycle,
      plan.startOfNextBillingCycle_inCycle renewed (notBefore.trans_lt inCycle)]
  have sameEnd : plan.getPlanRenewalOrEndDate later = plan.getPlanRenewalOrEndDate time := by
    unfold getPlanRenewalOrEndDate
    rw [sameNext]
  have nonneg := dates.part_nonneg laterCivil notEnded
  have positive := dates.period_pos renewalCivil renewed
  have passed := DateTime.difference_nonneg timeCivil laterCivil notBefore
  have parts := DateTime.difference_add time later (plan.getPlanRenewalOrEndDate time)
  unfold proratedUnitAmount prorate
  dsimp only
  rw [sameEnd] at nonneg ⊢
  rw [sameNext]
  exact truncate_prorated_mono nonneg (by linarith) positive

end CustomerPlan

/-- An item by the license costs at most the price of the plan. -/
def InvoiceItem.WithinPrice (plan : CustomerPlan) (item : InvoiceItem) : Prop :=
  ∀ unitAmount quantity, item.price = .quantity unitAmount quantity →
    ∃ price : Nat, plan.pricePerLicense = some price ∧ 0 ≤ unitAmount ∧ unitAmount ≤ price

theorem InvoiceItem.WithinPrice.of_price {plan current : CustomerPlan} {item : InvoiceItem}
    (same : current.pricePerLicense = plan.pricePerLicense) (within : item.WithinPrice current) :
    item.WithinPrice plan := by
  intro unitAmount quantity isQuantity
  rw [← same]
  exact within unitAmount quantity isQuantity

namespace Database

/-- The dates of a plan and of its ledger are in the calendar, and no entry is after the end of the
plan. -/
structure BillableHistory (db : Database) (planId : Nat) (plan : CustomerPlan) : Prop where
  dates : plan.CivilDates
  civil : ∀ entry ∈ db.entriesOf planId, entry.eventTime.Civil
  notEnded : ∀ entry ∈ db.entriesOf planId, ∀ endDate ∈ plan.endDate, entry.eventTime ≤ endDate

variable {pricing : Pricing} {db : Database} {planId : Nat} {plan : CustomerPlan}
  {onZeroDivision : Int}

/-- The latest renewal before a time is an entry of the plan that is not after it. -/
theorem lastRenewalBefore_spec {time : DateTime} {renewal : LicenseLedger}
    (isLast : db.lastRenewalBefore planId time = some renewal) :
    renewal ∈ db.entriesOf planId ∧ renewal.eventTime ≤ time := by
  obtain ⟨member, renews⟩ := List.mem_filter.mp (List.mem_of_getLast? isLast)
  rw [Bool.and_eq_true, decide_eq_true_eq] at renews
  exact ⟨member, renews.2⟩

/-- For an entry of the ledger, nothing is divided by zero. -/
theorem BillableHistory.prorate_exact (history : db.BillableHistory planId plan)
    {entry renewal : LicenseLedger}
    (isLast : db.lastRenewalBefore planId entry.eventTime = some renewal) (price : Nat) :
    (pricing.exact onZeroDivision).prorate price
        (entry.eventTime, plan.getPlanRenewalOrEndDate entry.eventTime)
        (renewal.eventTime, plan.startOfNextBillingCycle entry.eventTime) =
      plan.proratedUnitAmount price renewal.eventTime entry.eventTime := by
  obtain ⟨isEntry, renewed⟩ := lastRenewalBefore_spec isLast
  have positive := history.dates.period_pos (history.civil renewal isEntry) renewed
  exact if_neg positive.ne'

theorem BillableHistory.priceArgs_exact (history : db.BillableHistory planId plan) (other : Int)
    (licensesBase : Option Nat) (entry : LicenseLedger) :
    db.priceArgs (pricing.exact onZeroDivision) planId plan licensesBase entry =
      db.priceArgs (pricing.exact other) planId plan licensesBase entry := by
  unfold priceArgs
  split
  · rfl
  · split
    · split
      · refine Option.bind_congr fun price _ => Option.bind_congr fun renewal isLast => ?_
        dsimp only
        rw [history.prorate_exact isLast, history.prorate_exact isLast]
      · rfl
    · rfl

/-- Additional licenses cost at most the price, and so do those of a renewal. -/
theorem BillableHistory.priceArgs_within (history : db.BillableHistory planId plan)
    {licensesBase : Option Nat} {entry : LicenseLedger} (member : entry ∈ db.entriesOf planId)
    {unitAmount quantity : Int} {description : Description}
    (priced : db.priceArgs (pricing.exact onZeroDivision) planId plan licensesBase entry =
      some (some (.quantity unitAmount quantity, description))) :
    ∃ price : Nat, plan.pricePerLicense = some price ∧ 0 ≤ unitAmount ∧ unitAmount ≤ price := by
  unfold priceArgs at priced
  split at priced
  case isTrue renewal =>
    split at priced
    · simp at priced
    · obtain ⟨amount, isAmount, same⟩ := Option.map_eq_some_iff.mp priced
      obtain ⟨price, isPrice, isPure⟩ := Option.bind_eq_some_iff.mp isAmount
      cases isPure
      simp only [Option.some.injEq, Prod.mk.injEq, PriceArgs.quantity.injEq] at same
      exact ⟨price, isPrice, by omega, by omega⟩
  case isFalse notRenewal =>
    split at priced
    · split at priced
      · rw [Option.bind_eq_bind, Option.bind_eq_some_iff] at priced
        obtain ⟨price, isPrice, priced⟩ := priced
        rw [Option.bind_eq_bind, Option.bind_eq_some_iff] at priced
        obtain ⟨renewal, isLast, priced⟩ := priced
        obtain ⟨isEntry, renewed⟩ := lastRenewalBefore_spec isLast
        have bounds := history.dates.proratedUnitAmount_bounds price (history.civil entry member)
          (history.civil renewal isEntry) renewed (history.notEnded entry member)
        refine ⟨price, isPrice, ?_⟩
        dsimp only at priced
        rw [history.prorate_exact isLast] at priced
        simp only [Option.some.injEq, Prod.mk.injEq, PriceArgs.quantity.injEq] at priced
        obtain ⟨⟨isUnit, -⟩, -⟩ := priced
        rw [← isUnit]
        split
        · exact ⟨Int.natCast_nonneg price, le_rfl⟩
        · exact bounds
      · cases priced
    · cases priced

/-! ## The loop -/

/-- A plan that differs in the ledger entry up to which it is invoiced. -/
def SameTerms (plan current : CustomerPlan) : Prop :=
  ∃ invoicedThrough invoicingStatus, current =
    { plan with invoicedThrough := invoicedThrough, invoicingStatus := invoicingStatus }

/-- One entry is invoiced whatever a division by zero gives, for at most the price. -/
theorem BillableHistory.invoiceEntry_exact (history : db.BillableHistory planId plan) (other : Int)
    {state after : LoopState} (terms : SameTerms plan state.plan) {entry : LicenseLedger}
    (member : entry ∈ db.entriesOf planId)
    (items : ∀ item ∈ state.items, item.WithinPrice plan)
    (invoiced : db.invoiceEntry (pricing.exact onZeroDivision) planId state entry = some after) :
    db.invoiceEntry (pricing.exact other) planId state entry = some after ∧
      SameTerms plan after.plan ∧ ∀ item ∈ after.items, item.WithinPrice plan := by
  obtain ⟨invoicedThrough, invoicingStatus, isPlan⟩ := terms
  have sameArgs : ∀ onZeroDivision : Int,
      db.priceArgs (pricing.exact onZeroDivision) planId state.plan state.licensesBase entry =
        db.priceArgs (pricing.exact onZeroDivision) planId plan state.licensesBase entry := by
    intro onZeroDivision
    rw [isPlan]
    rfl
  have afterPlan := (invoiceEntry_spec invoiced).1
  refine ⟨?_, ⟨some entry.id, .done, by rw [afterPlan, isPlan]⟩, ?_⟩
  · unfold invoiceEntry at invoiced ⊢
    rw [sameArgs, history.priceArgs_exact other, ← sameArgs] at invoiced
    exact invoiced
  · unfold invoiceEntry at invoiced
    rw [Option.bind_eq_bind, Option.bind_eq_some_iff] at invoiced
    obtain ⟨price, priced, invoiced⟩ := invoiced
    rw [sameArgs] at priced
    dsimp only at invoiced
    cases invoiced
    cases price with
    | none => exact items
    | some args =>
        intro item isItem
        rcases List.mem_append.mp isItem with earlier | latest
        · exact items item earlier
        · rw [List.mem_singleton.mp latest]
          intro unitAmount quantity isQuantity
          obtain ⟨price, description⟩ := args
          obtain rfl : price = .quantity unitAmount quantity := isQuantity
          exact history.priceArgs_within member priced

theorem BillableHistory.foldlM_exact (history : db.BillableHistory planId plan) (other : Int)
    {entries : List LicenseLedger} (members : ∀ entry ∈ entries, entry ∈ db.entriesOf planId)
    {state final : LoopState} (terms : SameTerms plan state.plan)
    (items : ∀ item ∈ state.items, item.WithinPrice plan)
    (looped : entries.foldlM (db.invoiceEntry (pricing.exact onZeroDivision) planId) state =
      some final) :
    entries.foldlM (db.invoiceEntry (pricing.exact other) planId) state = some final ∧
      ∀ item ∈ final.items, item.WithinPrice plan := by
  induction entries generalizing state with
  | nil =>
      cases looped
      exact ⟨rfl, items⟩
  | cons entry rest inductionHypothesis =>
      rw [List.foldlM_cons, Option.bind_eq_bind, Option.bind_eq_some_iff] at looped
      obtain ⟨between, invoiced, looped⟩ := looped
      obtain ⟨sameEntry, betweenTerms, betweenItems⟩ :=
        history.invoiceEntry_exact other terms (members entry List.mem_cons_self) items
          invoiced
      obtain ⟨sameRest, finalItems⟩ := inductionHypothesis
        (fun entry later => members entry (List.mem_cons_of_mem _ later)) betweenTerms betweenItems
        looped
      refine ⟨?_, finalItems⟩
      rw [List.foldlM_cons, sameEntry]
      exact sameRest

/-! ## The end of the cycle -/

/-- What proration reads of a plan, before and after the end of a cycle. -/
structure KeepsTerms (db : Database) (planId : Nat) (plan : CustomerPlan) (after : Database)
    (current : CustomerPlan) : Prop where
  found : after.plans.get? planId = some current
  price : current.pricePerLicense = plan.pricePerLicense
  endDate : current.endDate = plan.endDate
  anchor : current.billingCycleAnchor = plan.billingCycleAnchor ∨
    ∃ next, db.getNextBillingCycle planId plan = some next ∧
      current.billingCycleAnchor = next.replaceMicrosecond
  entries : ∀ entry ∈ after.entriesOf planId, entry ∈ db.entriesOf planId ∨
    db.getNextBillingCycle planId plan = some entry.eventTime

/-- Where a new cycle can start is in the calendar, and not after the end of the plan. -/
theorem BillableHistory.nextBillingCycle (history : db.BillableHistory planId plan)
    (trialEnd : ∀ date ∈ plan.nextInvoiceDate, date.Civil) {next : DateTime}
    (nextCycle : db.getNextBillingCycle planId plan = some next) :
    next.Civil ∧ ∀ endDate ∈ plan.endDate, next ≤ endDate := by
  have cycle : ∃ cycle : DateTime, cycle.Civil ∧ (plan.endDate = none → some cycle = some next) ∧
      ∀ endDate, plan.endDate = some endDate → some (min cycle endDate) = some next := by
    unfold getNextBillingCycle at nextCycle
    dsimp only at nextCycle
    split at nextCycle <;> rw [Option.bind_eq_bind, Option.bind_eq_some_iff] at nextCycle <;>
      obtain ⟨cycle, isCycle, isNext⟩ := nextCycle
    all_goals
      replace isNext : (plan.endDate = none → some cycle = some next) ∧
          ∀ endDate, plan.endDate = some endDate → some (min cycle endDate) = some next := by
        constructor
        · intro isEnd
          rwa [isEnd] at isNext
        · intro endDate isEnd
          rwa [isEnd] at isNext
    · exact ⟨cycle, trialEnd cycle isCycle, isNext⟩
    · exact ⟨cycle, trialEnd cycle isCycle, isNext⟩
    · exact ⟨cycle, trialEnd cycle isCycle, isNext⟩
    · exact ⟨cycle, history.dates.endDate cycle isCycle, isNext⟩
    · obtain ⟨renewal, -, rfl⟩ := Option.map_eq_some_iff.mp isCycle
      exact ⟨_, CustomerPlan.civil_startOfNextBillingCycle history.dates.anchor _, isNext⟩
  obtain ⟨cycle, civil, isNext⟩ := cycle
  cases planEnd : plan.endDate with
  | none =>
      obtain rfl := Option.some.inj (isNext.1 planEnd)
      exact ⟨civil, by simp⟩
  | some endDate =>
      obtain rfl := Option.some.inj (isNext.2 endDate planEnd)
      refine ⟨?_, ?_⟩
      · rcases min_choice cycle endDate with first | second
        · rwa [first]
        · rw [second]
          exact history.dates.endDate endDate planEnd
      · rintro date ⟨⟩
        exact min_le_right cycle endDate

/-- A new plan has an id of its own. -/
theorem switchPlanTier_spec {next : DateTime} {licenses : Nat}
    {switched : Database × LicenseLedger}
    (switches : db.switchPlanTier planId plan next licenses = some switched) :
    switched.1.plans.get? planId = some { plan with status := .ended } ∧
      switched.1.entriesOf planId = db.entriesOf planId := by
  unfold switchPlanTier at switches
  rw [Option.bind_eq_bind, Option.bind_eq_some_iff] at switches
  obtain ⟨endDate, -, switches⟩ := switches
  dsimp only at switches
  split at switches
  case h_2 => cases switches
  case h_1 newPlanId newPlan only =>
    cases switches
    have waiting : (newPlanId, newPlan) ∈
        (db.savePlan planId { plan with status := .ended }).plans.entries ∧
        newPlan.status = .neverStarted := by
      have member := List.mem_singleton_self (newPlanId, newPlan)
      rw [← only, List.mem_filter, Bool.and_eq_true, decide_eq_true_eq, decide_eq_true_eq] at member
      exact ⟨member.1, member.2.2⟩
    have different : planId ≠ newPlanId := by
      rintro rfl
      have isEnded : newPlan = { plan with status := .ended } := by
        have stored := Dict.get?_eq_some_iff.mpr waiting.1
        rw [plans_savePlan, Dict.get?_set_self] at stored
        exact (Option.some.inj stored).symm
      rw [isEnded] at waiting
      cases waiting.2
    constructor
    · rw [plans_addEntry, plans_savePlan, Dict.get?_set_ne _ _ different, plans_savePlan,
        Dict.get?_set_self]
    · simp only [entriesOf_addEntry, newEntry, if_neg different.symm, List.append_nil,
        entriesOf_savePlan]

theorem KeepsTerms.refl (found : db.plans.get? planId = some plan) :
    KeepsTerms db planId plan db plan :=
  ⟨found, rfl, rfl, .inl rfl, fun _ member => .inl member⟩

/-- A plan that ends keeps its terms. -/
theorem KeepsTerms.savePlan (status : PlanStatus) (invoicedThrough : Option Nat)
    (nextInvoiceDate : Option DateTime) :
    KeepsTerms db planId plan
      (db.savePlan planId
        { plan with
          status := status, invoicedThrough := invoicedThrough, nextInvoiceDate := nextInvoiceDate })
      { plan with
        status := status, invoicedThrough := invoicedThrough, nextInvoiceDate := nextInvoiceDate } where
  found := Dict.get?_set_self _ _ _
  price := rfl
  endDate := rfl
  anchor := .inl rfl
  entries _ member := .inl member

theorem KeepsTerms.endPlan (found : db.plans.get? planId = some plan) :
    ∃ current, KeepsTerms db planId plan (db.endPlan planId plan) current := by
  unfold Database.endPlan
  split
  · exact ⟨_, .savePlan .ended _ none⟩
  · exact ⟨_, .savePlan .ended plan.invoicedThrough plan.nextInvoiceDate⟩
  · exact ⟨plan, .refl found⟩

/-- Whatever happens at the end of a cycle, the plan keeps its price and its end, and a new cycle
starts where `get_next_billing_cycle` says. -/
theorem CycleOutcome.keepsTerms {eventTime : DateTime} {after : Database}
    {newPlan : Option (Nat × CustomerPlan)} {entry : Option LicenseLedger}
    (found : db.plans.get? planId = some plan)
    (outcome : CycleOutcome pricing db planId plan eventTime after newPlan entry) :
    ∃ current, KeepsTerms db planId plan after current := by
  cases outcome with
  | notDue => exact ⟨plan, .refl found⟩
  | reachedEndDate => exact ⟨_, .savePlan .ended plan.invoicedThrough plan.nextInvoiceDate⟩
  | @renewed next licenses newEntry nextCycle due active goesOn hasEntry isNew =>
      refine ⟨plan, found, rfl, rfl, .inl rfl, fun entry member => ?_⟩
      rw [entriesOf_addEntry_self db (by rw [isNew]; rfl), List.mem_append, List.mem_singleton]
        at member
      rcases member with earlier | rfl
      · exact .inl earlier
      · rw [isNew]
        exact .inr nextCycle
  | startedPaidPeriod isRenewal nextCycle due freeTrial payment =>
      refine ⟨_, Dict.get?_set_self _ _ _, rfl, rfl, .inr ⟨_, nextCycle, rfl⟩,
        fun entry member => ?_⟩
      simp only [startPaidPeriod, entriesOf_addEntry, newEntry, if_true, entriesOf_savePlan,
        List.mem_append, List.mem_singleton] at member
      rcases member with earlier | rfl
      · exact .inl earlier
      · exact .inr nextCycle
  | trialNotPaid freeTrial byInvoice =>
      exact ⟨_, Dict.get?_set_self _ _ _, rfl, rfl, .inl rfl, fun _ member => .inl member⟩
  | switchedTier atPlanEnd switches =>
      obtain ⟨stored, sameEntries⟩ := switchPlanTier_spec switches
      exact ⟨_, stored, rfl, rfl, .inl rfl, fun _ member => .inl (sameEntries ▸ member)⟩
  | switchedSchedule billingSchedule atEndOfCycle perLicense =>
      have different : planId ≠ (db.savePlan planId { plan with status := .ended }).nextPlanId := by
        intro same
        have notStored := nextPlanId_not_mem (db.savePlan planId { plan with status := .ended })
        rw [← same, plans_savePlan, Dict.mem_keys_set] at notStored
        exact notStored (.inl rfl)
      refine ⟨{ plan with status := .ended }, ?_, rfl, rfl, .inl rfl, fun entry member => .inl ?_⟩
      · unfold switchBillingSchedule
        dsimp only
        rw [plans_addEntry, plans_savePlan, Dict.get?_set_ne _ _ different, plans_savePlan,
          Dict.get?_set_self]
      · unfold switchBillingSchedule at member
        simpa only [entriesOf_addEntry, newEntry, if_neg different.symm, List.append_nil,
          entriesOf_savePlan] using member
  | ended other => exact KeepsTerms.endPlan found

theorem AfterEndOfCycle.keepsTerms {eventTime : DateTime} {after : Database}
    (found : db.plans.get? planId = some plan)
    (endOfCycle : AfterEndOfCycle pricing db planId plan eventTime after) :
    ∃ current, KeepsTerms db planId plan after current := by
  rcases endOfCycle with ⟨-, rfl⟩ | ⟨newPlan, entry, -, outcome⟩
  · exact ⟨plan, .refl found⟩
  · exact outcome.keepsTerms found

/-- The history after the end of a cycle can be billed as well. -/
theorem BillableHistory.keepsTerms (history : db.BillableHistory planId plan)
    (trialEnd : ∀ date ∈ plan.nextInvoiceDate, date.Civil) {after : Database}
    {current : CustomerPlan} (terms : KeepsTerms db planId plan after current) :
    after.BillableHistory planId current where
  dates :=
    { anchor := by
        rcases terms.anchor with same | ⟨next, nextCycle, isNext⟩
        · rw [same]
          exact history.dates.anchor
        · rw [isNext]
          exact (history.nextBillingCycle trialEnd nextCycle).1.replaceMicrosecond
      endDate := by
        rw [terms.endDate]
        exact history.dates.endDate }
  civil entry member := by
    rcases terms.entries entry member with earlier | nextCycle
    · exact history.civil entry earlier
    · exact (history.nextBillingCycle trialEnd nextCycle).1
  notEnded entry member := by
    rw [terms.endDate]
    rcases terms.entries entry member with earlier | nextCycle
    · exact history.notEnded entry earlier
    · exact (history.nextBillingCycle trialEnd nextCycle).2

/-! ## A run of `invoice_plan` -/

theorem switchBillingSchedule_exact (first second : Int) (db : Database) (planId : Nat)
    (plan : CustomerPlan) (billingSchedule : BillingSchedule) (next : DateTime) (licenses : Nat) :
    db.switchBillingSchedule (pricing.exact first) planId plan billingSchedule next licenses =
      db.switchBillingSchedule (pricing.exact second) planId plan billingSchedule next licenses := by
  unfold switchBillingSchedule
  rfl

/-- The end of a cycle asks for prices, but for no part of a price. -/
theorem endCycleBeforeInvoice_exact (other : Int) (eventTime : DateTime) :
    db.endCycleBeforeInvoice (pricing.exact onZeroDivision) planId plan eventTime =
      db.endCycleBeforeInvoice (pricing.exact other) planId plan eventTime := by
  unfold endCycleBeforeInvoice makeEndOfCycleUpdatesIfNeeded
  simp only [switchBillingSchedule_exact onZeroDivision other]

theorem createInvoice_exact (first second : Int) (db : Database) (current : CustomerPlan)
    (items : List InvoiceItem) :
    db.createInvoice (pricing.exact first) current items =
      db.createInvoice (pricing.exact second) current items := by
  unfold createInvoice getFlatDiscountInfo
  rfl

/-- The discount of a new customer is no price of a license. -/
theorem createInvoice_within (current : CustomerPlan) {items : List InvoiceItem}
    (within : ∀ item ∈ items, item.WithinPrice plan) :
    ∀ item ∈ (db.createInvoice pricing current items).2.items, item.WithinPrice plan := by
  unfold createInvoice
  split
  · simp
  · dsimp only
    split
    · intro item member
      rcases List.mem_append.mp member with earlier | discount
      · exact within item earlier
      · rw [List.mem_singleton.mp discount]
        rintro unitAmount quantity ⟨⟩
    · exact within

theorem BillableHistory.invoiceIfPaid_exact (history : db.BillableHistory planId plan) (other : Int)
    {eventTime : DateTime} {created : Database × CustomerPlan × StripeRequests}
    (invoiced : db.invoiceIfPaid (pricing.exact onZeroDivision) planId plan eventTime =
      some created) :
    db.invoiceIfPaid (pricing.exact other) planId plan eventTime = some created ∧
      ∀ item ∈ created.2.2.items, item.WithinPrice plan := by
  unfold invoiceIfPaid at invoiced ⊢
  split at invoiced
  case isFalse free =>
    cases invoiced
    exact ⟨if_neg free, by simp⟩
  case isTrue paid =>
    rw [if_pos paid]
    unfold invoiceEntries at invoiced ⊢
    rw [Option.bind_eq_bind, Option.bind_eq_some_iff] at invoiced
    obtain ⟨start, started, invoiced⟩ := invoiced
    dsimp only at invoiced
    rw [Option.bind_eq_bind, Option.bind_eq_some_iff] at invoiced
    obtain ⟨final, folded, invoiced⟩ := invoiced
    have members : ∀ entry ∈ db.entriesToInvoice planId start.1 eventTime,
        entry ∈ db.entriesOf planId := fun entry member => List.mem_of_mem_filter member
    have initialTerms : SameTerms plan plan := ⟨plan.invoicedThrough, plan.invoicingStatus, rfl⟩
    obtain ⟨sameLoop, within⟩ :=
      history.foldlM_exact other members initialTerms (by simp) folded
    have charged := @createInvoice_within (pricing.exact onZeroDivision) db plan final.plan
      final.items within
    rw [started, Option.bind_eq_bind, Option.bind_some]
    dsimp only at invoiced ⊢
    rw [sameLoop, Option.bind_eq_bind, Option.bind_some, createInvoice_exact other onZeroDivision]
    generalize db.createInvoice (pricing.exact onZeroDivision) final.plan final.items = invoice
      at invoiced charged ⊢
    cases invoiced
    exact ⟨rfl, charged⟩

/-- A run is the same whatever a division by zero gives, and no license costs more than the price. -/
theorem BillableHistory.invoicePlan_exact (history : db.BillableHistory planId plan)
    (trialEnd : ∀ date ∈ plan.nextInvoiceDate, date.Civil)
    (found : db.plans.get? planId = some plan) (other : Int) {eventTime : DateTime}
    {after : Database} {requests : StripeRequests}
    (invoiced : db.invoicePlan (pricing.exact onZeroDivision) planId eventTime =
      some (after, requests)) :
    db.invoicePlan (pricing.exact other) planId eventTime = some (after, requests) ∧
      ∀ item ∈ requests.items, item.WithinPrice plan := by
  unfold invoicePlan at invoiced ⊢
  rw [found, Option.bind_eq_bind, Option.bind_some] at invoiced ⊢
  split at invoiced
  case isTrue => cases invoiced
  case isFalse notStarted =>
    rw [if_neg notStarted]
    split at invoiced
    case isTrue => cases invoiced
    case isFalse hasCustomer =>
      rw [if_neg hasCustomer]
      rw [Option.bind_eq_bind, Option.bind_eq_some_iff] at invoiced
      obtain ⟨between, ended, invoiced⟩ := invoiced
      rw [Option.bind_eq_bind, Option.bind_eq_some_iff] at invoiced
      obtain ⟨current, currentFound, invoiced⟩ := invoiced
      rw [Option.bind_eq_bind, Option.bind_eq_some_iff] at invoiced
      obtain ⟨created, paid, invoiced⟩ := invoiced
      obtain ⟨same, terms⟩ := (endCycleBeforeInvoice_spec found ended).keepsTerms found
      obtain rfl : same = current := Option.some.inj (terms.found.symm.trans currentFound)
      obtain ⟨samePaid, within⟩ :=
        (history.keepsTerms trialEnd terms).invoiceIfPaid_exact other paid
      rw [endCycleBeforeInvoice_exact other] at ended
      refine ⟨?_, ?_⟩
      · simp only [ended, currentFound, samePaid, Option.bind_eq_bind, Option.bind_some]
        exact invoiced
      · obtain ⟨nextDate, -, invoiced⟩ := Option.bind_eq_some_iff.mp invoiced
        cases invoiced
        exact fun item member => (within item member).of_price terms.price

theorem BillableHistory.invoicePlan_exact_eq (history : db.BillableHistory planId plan)
    (trialEnd : ∀ date ∈ plan.nextInvoiceDate, date.Civil)
    (found : db.plans.get? planId = some plan) (first second : Int) (eventTime : DateTime) :
    db.invoicePlan (pricing.exact first) planId eventTime =
      db.invoicePlan (pricing.exact second) planId eventTime := by
  apply Option.ext
  rintro ⟨after, requests⟩
  exact ⟨fun invoiced => (history.invoicePlan_exact trialEnd found second invoiced).1,
    fun invoiced => (history.invoicePlan_exact trialEnd found first invoiced).1⟩

/-- What an additional license is charged. -/
theorem BillableHistory.priceArgs_additional (history : db.BillableHistory planId plan)
    {licensesBase : Option Nat} {entry renewal : LicenseLedger} (additional : entry.isRenewal = false)
    (isLast : db.lastRenewalBefore planId entry.eventTime = some renewal)
    {unitAmount quantity : Int} {description : Description}
    (priced : db.priceArgs (pricing.exact onZeroDivision) planId plan licensesBase entry =
      some (some (.quantity unitAmount quantity, description))) :
    ∃ price, plan.pricePerLicense = some price ∧ unitAmount =
      if plan.isFreeTrial then (price : Int)
      else plan.proratedUnitAmount price renewal.eventTime entry.eventTime := by
  unfold priceArgs at priced
  rw [if_neg (by rw [additional]; decide)] at priced
  split at priced
  · split at priced
    · rw [Option.bind_eq_bind, Option.bind_eq_some_iff] at priced
      obtain ⟨price, isPrice, priced⟩ := priced
      rw [isLast, Option.bind_eq_bind, Option.bind_some] at priced
      dsimp only at priced
      rw [history.prorate_exact isLast] at priced
      simp only [Option.some.injEq, Prod.mk.injEq, PriceArgs.quantity.injEq] at priced
      exact ⟨price, isPrice, priced.1.1.symm⟩
    · cases priced
  · cases priced

theorem BillableHistory.priceArgs_antitone (history : db.BillableHistory planId plan)
    {earlier later renewal : LicenseLedger} (earlierMember : earlier ∈ db.entriesOf planId)
    (laterMember : later ∈ db.entriesOf planId) (earlierAdditional : earlier.isRenewal = false)
    (laterAdditional : later.isRenewal = false)
    (earlierCycle : db.lastRenewalBefore planId earlier.eventTime = some renewal)
    (laterCycle : db.lastRenewalBefore planId later.eventTime = some renewal)
    (notBefore : earlier.eventTime ≤ later.eventTime)
    (inCycle : later.eventTime < plan.startOfNextBillingCycle renewal.eventTime)
    {earlierBase laterBase : Option Nat} {earlierAmount earlierQuantity laterAmount laterQuantity : Int}
    {earlierText laterText : Description}
    (earlierPriced : db.priceArgs (pricing.exact onZeroDivision) planId plan earlierBase earlier =
      some (some (.quantity earlierAmount earlierQuantity, earlierText)))
    (laterPriced : db.priceArgs (pricing.exact onZeroDivision) planId plan laterBase later =
      some (some (.quantity laterAmount laterQuantity, laterText))) :
    laterAmount ≤ earlierAmount := by
  obtain ⟨price, isPrice, isEarlier⟩ :=
    history.priceArgs_additional earlierAdditional earlierCycle earlierPriced
  obtain ⟨samePrice, isSame, isLater⟩ :=
    history.priceArgs_additional laterAdditional laterCycle laterPriced
  obtain rfl : price = samePrice := Option.some.inj (isPrice.symm.trans isSame)
  obtain ⟨renewalMember, renewed⟩ := lastRenewalBefore_spec earlierCycle
  rw [isEarlier, isLater]
  split
  · exact le_rfl
  · exact history.dates.proratedUnitAmount_antitone price (history.civil earlier earlierMember)
      (history.civil later laterMember) (history.civil renewal renewalMember) renewed notBefore
      inCycle (history.notEnded later laterMember)

/-- The credit for the rest of a cycle is at most what was paid for the cycle. -/
theorem BillableHistory.credit_bounds (history : db.BillableHistory planId plan)
    {renewal : LicenseLedger} (isLast : db.lastLedgerRenewal planId = some renewal) {price : Nat}
    (isPrice : plan.pricePerLicense = some price) {planChangeDate : DateTime}
    (changeCivil : planChangeDate.Civil) (renewed : renewal.eventTime ≤ planChangeDate) :
    ∃ credit, db.amountToCreditForPlanTierChange planId plan planChangeDate = some credit ∧
      0 ≤ credit ∧ credit ≤ (renewal.licenses * price : Nat) := by
  have member : renewal ∈ db.entriesOf planId :=
    List.mem_of_mem_filter (List.mem_of_getLast? isLast)
  have renewalCivil := history.civil renewal member
  have positive := history.dates.period_pos renewalCivil renewed
  have passed := DateTime.difference_nonneg renewalCivil changeCivil renewed
  have rest := DateTime.difference_nonneg changeCivil
    (CustomerPlan.civil_startOfNextBillingCycle history.dates.anchor planChangeDate)
    (plan.lt_startOfNextBillingCycle planChangeDate).le
  have parts := DateTime.difference_add renewal.eventTime planChangeDate
    (plan.startOfNextBillingCycle planChangeDate)
  have bounds := ceil_left (renewal.licenses * price) passed (by linarith) positive
  rw [Nat.cast_mul] at bounds
  refine ⟨_, ?_, bounds⟩
  unfold amountToCreditForPlanTierChange
  rw [isLast, isPrice, Option.bind_eq_bind, Option.bind_some, Option.bind_eq_bind, Option.bind_some]
  exact if_neg positive.ne'

/-- With exact arithmetic a run of `invoice_plan` is the same whatever a division by zero gives: the
cycle of every entry has a positive length. No license costs more than the price or less than
nothing, and a license that is added later in the cycle does not cost more. The credit for a change
of the tier lies between nothing and what the last renewal cost. -/
theorem proration_within_price {pricing : Pricing} {db : Database} {planId : Nat}
    {plan : CustomerPlan} (found : db.plans.get? planId = some plan)
    (history : db.BillableHistory planId plan)
    (trialEnd : ∀ date ∈ plan.nextInvoiceDate, date.Civil) :
    (∀ first second eventTime, db.invoicePlan (pricing.exact first) planId eventTime =
      db.invoicePlan (pricing.exact second) planId eventTime) ∧
    (∀ entry ∈ db.entriesOf planId, ∀ renewal,
      db.lastRenewalBefore planId entry.eventTime = some renewal →
        0 < DateTime.difference renewal.eventTime
          (plan.startOfNextBillingCycle entry.eventTime)) ∧
    (∀ onZeroDivision eventTime after requests,
      db.invoicePlan (pricing.exact onZeroDivision) planId eventTime = some (after, requests) →
        ∀ item ∈ requests.items, item.WithinPrice plan) ∧
    (∀ earlier ∈ db.entriesOf planId, ∀ later ∈ db.entriesOf planId,
      earlier.isRenewal = false → later.isRenewal = false → ∀ renewal,
      db.lastRenewalBefore planId earlier.eventTime = some renewal →
      db.lastRenewalBefore planId later.eventTime = some renewal →
      earlier.eventTime ≤ later.eventTime →
      later.eventTime < plan.startOfNextBillingCycle renewal.eventTime →
      ∀ onZeroDivision earlierBase laterBase earlierAmount earlierQuantity laterAmount
        laterQuantity earlierText laterText,
      db.priceArgs (pricing.exact onZeroDivision) planId plan earlierBase earlier =
        some (some (.quantity earlierAmount earlierQuantity, earlierText)) →
      db.priceArgs (pricing.exact onZeroDivision) planId plan laterBase later =
        some (some (.quantity laterAmount laterQuantity, laterText)) →
      laterAmount ≤ earlierAmount) ∧
    (∀ renewal price planChangeDate, db.lastLedgerRenewal planId = some renewal →
      plan.pricePerLicense = some price → planChangeDate.Civil →
      renewal.eventTime ≤ planChangeDate →
      ∃ credit, db.amountToCreditForPlanTierChange planId plan planChangeDate = some credit ∧
        0 ≤ credit ∧ credit ≤ (renewal.licenses * price : Nat)) := by
  refine ⟨history.invoicePlan_exact_eq trialEnd found, ?_, ?_, ?_, ?_⟩
  · intro entry _ renewal isLast
    obtain ⟨member, renewed⟩ := lastRenewalBefore_spec isLast
    exact history.dates.period_pos (history.civil renewal member) renewed
  · intro onZeroDivision eventTime after requests invoiced
    exact (history.invoicePlan_exact trialEnd found 0 invoiced).2
  · intro earlier earlierMember later laterMember earlierAdditional laterAdditional renewal
      earlierCycle laterCycle notBefore inCycle _ _ _ _ _ _ _ _ _ earlierPriced laterPriced
    exact history.priceArgs_antitone earlierMember laterMember earlierAdditional laterAdditional
      earlierCycle laterCycle notBefore inCycle earlierPriced laterPriced
  · intro renewal price planChangeDate isLast isPrice changeCivil renewed
    exact history.credit_bounds isLast isPrice changeCivil renewed

theorem january_valid : 1 ≤ 1 ∧ 1 ≤ 12 := by decide

/-- Ten licenses from the end of January on, and two more in February. -/
def twoMoreLicenses : Database where
  customer := ⟨some "cus_1", false, 0, 0⟩
  plans := Dict.empty.set 3
    { CustomerPlan.monthEndPlan ⟨2024, 1, 31, 0, 0, january_valid⟩ with invoicedThrough := some 0 }
  ledger :=
    [⟨0, 3, true, ⟨2024, 1, 31, 0, 0, january_valid⟩, 10, some 10⟩,
      ⟨1, 3, false, ⟨2024, 2, 14, 43200, 0, by decide⟩, 12, some 12⟩]
  invoices := []

/-- At the end of February the two licenses are invoiced, at eight dollars each at most. -/
theorem proration_within_price_february :
    ∃ after requests,
      twoMoreLicenses.invoicePlan
          (Pricing.exact ⟨fun _ _ => 800, fun _ _ _ => 0, fun _ _ => 0, false⟩ 0) 3
          ⟨2024, 2, 28, 0, 0, by decide⟩ = some (after, requests) ∧
        ∀ item ∈ requests.items, item.WithinPrice
          { CustomerPlan.monthEndPlan ⟨2024, 1, 31, 0, 0, by decide⟩ with
            invoicedThrough := some 0 } := by
  have anchorCivil : (DateTime.mk 2024 1 31 0 0 (by decide)).Civil :=
    DateTime.Valid.civil (by decide)
  have additionalCivil : (DateTime.mk 2024 2 14 43200 0 (by decide)).Civil :=
    DateTime.Valid.civil (by decide)
  have ledger : ∀ entry ∈ twoMoreLicenses.entriesOf 3, entry.eventTime.Civil := by
    intro entry member
    rcases List.mem_cons.mp (List.mem_of_mem_filter member) with rfl | additional
    · exact anchorCivil
    · rcases List.mem_singleton.mp additional with rfl
      exact additionalCivil
  have returns : (twoMoreLicenses.invoicePlan
      (Pricing.exact ⟨fun _ _ => 800, fun _ _ _ => 0, fun _ _ => 0, false⟩ 0) 3
      ⟨2024, 2, 28, 0, 0, by decide⟩).isSome = true := by decide +kernel
  obtain ⟨⟨after, requests⟩, invoiced⟩ := Option.isSome_iff_exists.mp returns
  refine ⟨after, requests, invoiced, (proration_within_price (Dict.get?_set_self _ _ _)
    ⟨⟨anchorCivil, ?_⟩, ledger, ?_⟩ ?_).2.2.1 _ _ _ _ invoiced⟩
  · rintro endDate ⟨⟩
  · rintro entry member endDate ⟨⟩
  · rintro date ⟨⟩
    exact anchorCivil

end Database

end Zulip.Billing
