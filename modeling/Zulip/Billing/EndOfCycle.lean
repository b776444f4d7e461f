import Zulip.Billing.Upgrade

/-!
# What the end of a cycle does

The rows of the ledger after each statement, and the outcomes of
`make_end_of_cycle_updates_if_needed`, one constructor for each branch.
-/

namespace Zulip.Billing

namespace Database

/-! ## Rows after a statement -/

@[simp] theorem entriesOf_savePlan (db : Database) (planId other : Nat) (plan : CustomerPlan) :
    (db.savePlan planId plan).entriesOf other = db.entriesOf other := rfl

@[simp] theorem ledger_savePlan (db : Database) (planId : Nat) (plan : CustomerPlan) :
    (db.savePlan planId plan).ledger = db.ledger := rfl

@[simp] theorem plans_addEntry (db : Database) (entry : LicenseLedger) :
    (db.addEntry entry).plans = db.plans := rfl

@[simp] theorem plans_savePlan (db : Database) (planId : Nat) (plan : CustomerPlan) :
    (db.savePlan planId plan).plans = db.plans.set planId plan := rfl

@[simp] theorem invoices_savePlan (db : Database) (planId : Nat) (plan : CustomerPlan) :
    (db.savePlan planId plan).invoices = db.invoices := rfl

theorem entriesOf_addEntry (db : Database) (entry : LicenseLedger) (planId : Nat) :
    (db.addEntry entry).entriesOf planId =
      db.entriesOf planId ++ if entry.planId = planId then [entry] else [] := by
  unfold entriesOf addEntry
  rw [List.filter_append]
  congr 1
  by_cases same : entry.planId = planId <;> simp [same]

theorem entriesOf_addEntry_self (db : Database) {entry : LicenseLedger} {planId : Nat}
    (same : entry.planId = planId) :
    (db.addEntry entry).entriesOf planId = db.entriesOf planId ++ [entry] := by
  rw [entriesOf_addEntry, if_pos same]

/-- The event times of the renewal entries of a plan, by id. -/
def renewalTimes (db : Database) (planId : Nat) : List DateTime :=
  ((db.entriesOf planId).filter fun entry => entry.isRenewal).map (·.eventTime)

@[simp] theorem renewalTimes_savePlan (db : Database) (planId other : Nat) (plan : CustomerPlan) :
    (db.savePlan planId plan).renewalTimes other = db.renewalTimes other := rfl

theorem renewalTimes_addEntry (db : Database) {entry : LicenseLedger} {planId : Nat}
    (same : entry.planId = planId) :
    (db.addEntry entry).renewalTimes planId =
      db.renewalTimes planId ++ if entry.isRenewal then [entry.eventTime] else [] := by
  unfold renewalTimes
  rw [entriesOf_addEntry_self db same, List.filter_append, List.map_append]
  cases renews : entry.isRenewal <;> simp [renews]

theorem lastLedgerRenewal_eventTime (db : Database) (planId : Nat) :
    (db.lastLedgerRenewal planId).map (·.eventTime) = (db.renewalTimes planId).getLast? := by
  unfold lastLedgerRenewal renewalTimes
  rw [List.getLast?_map]

theorem lastLedgerEntry_isSome {db : Database} {planId : Nat} {eventTime : DateTime}
    {entry : LicenseLedger} (member : entry ∈ db.entriesOf planId)
    (notAfter : entry.eventTime ≤ eventTime) : (db.lastLedgerEntry planId eventTime).isSome := by
  unfold lastLedgerEntry
  rw [List.getLast?_isSome]
  apply List.ne_nil_of_mem
  exact List.mem_filter.mpr ⟨member, decide_eq_true notAfter⟩

/-- Ids that are counted from above every row are new. -/
theorem lt_foldl_max {ids : List Nat} {bound id : Nat} (member : id ∈ ids ∨ id < bound) :
    id < (ids.map (· + 1)).foldl max bound := by
  induction ids generalizing bound with
  | nil => simpa using member
  | cons first rest inductionHypothesis =>
    rw [List.map_cons, List.foldl_cons]
    apply inductionHypothesis
    rcases member with listed | below
    · rcases List.mem_cons.mp listed with rfl | later
      · exact .inr (by omega)
      · exact .inl later
    · exact .inr (by omega)

theorem id_lt_nextLedgerId {db : Database} {entry : LicenseLedger} (member : entry ∈ db.ledger) :
    entry.id < db.nextLedgerId := by
  have listed : entry.id ∈ db.ledger.map (·.id) := List.mem_map_of_mem member
  have bound := @lt_foldl_max (db.ledger.map (·.id)) 0 entry.id (.inl listed)
  rwa [List.map_map] at bound

theorem nextPlanId_not_mem (db : Database) : db.nextPlanId ∉ db.plans.keys := by
  intro member
  exact absurd (@lt_foldl_max db.plans.keys 0 db.nextPlanId (.inl member)) (Nat.lt_irrefl _)

/-! ## Outcomes -/

/-- The outcomes of `make_end_of_cycle_updates_if_needed` for a plan. -/
inductive CycleOutcome (pricing : Pricing) (db : Database) (planId : Nat) (plan : CustomerPlan)
    (eventTime : DateTime) :
    Database → Option (Nat × CustomerPlan) → Option LicenseLedger → Prop where
  /-- The cycle has not ended, or there is no ledger entry yet. -/
  | notDue {next : DateTime} (nextCycle : db.getNextBillingCycle planId plan = some next)
      (early : eventTime < next ∨ db.lastLedgerEntry planId eventTime = none)
      (entry : Option LicenseLedger) :
      CycleOutcome pricing db planId plan eventTime db none entry
  | reachedEndDate {next : DateTime} (nextCycle : db.getNextBillingCycle planId plan = some next)
      (due : next ≤ eventTime) (active : plan.status = .active)
      (endDate : plan.endDate = some next) :
      CycleOutcome pricing db planId plan eventTime (db.processDowngrade planId plan) none none
  | renewed {next : DateTime} {licenses : Nat} {entry : LicenseLedger}
      (nextCycle : db.getNextBillingCycle planId plan = some next) (due : next ≤ eventTime)
      (active : plan.status = .active) (goesOn : plan.endDate ≠ some next)
      (hasEntry : (db.lastLedgerEntry planId eventTime).isSome)
      (isNew : entry = db.newEntry planId true next licenses (some licenses)) :
      CycleOutcome pricing db planId plan eventTime (db.addEntry entry) none (some entry)
  | startedPaidPeriod {next : DateTime} {licenses : Nat} {lastEntry : LicenseLedger}
      (isRenewal : Bool) (nextCycle : db.getNextBillingCycle planId plan = some next)
      (due : next ≤ eventTime) (freeTrial : plan.status = .freeTrial)
      (payment : isRenewal = plan.chargeAutomatically) :
      CycleOutcome pricing db planId plan eventTime
        (db.startPaidPeriod planId plan lastEntry isRenewal next licenses).1 none
        (some (db.startPaidPeriod planId plan lastEntry isRenewal next licenses).2)
  | trialNotPaid (freeTrial : plan.status = .freeTrial) (byInvoice : plan.chargeAutomatically = false) :
      CycleOutcome pricing db planId plan eventTime
        ((db.savePlan planId { plan with status := .downgradeAtEndOfFreeTrial }).endPlan planId
          { plan with status := .downgradeAtEndOfFreeTrial }) none none
  | switchedTier {next : DateTime} {licenses : Nat} {switched : Database × LicenseLedger}
      (atPlanEnd : plan.status = .switchPlanTierAtPlanEnd)
      (switches : db.switchPlanTier planId plan next licenses = some switched) :
      CycleOutcome pricing db planId plan eventTime switched.1 none (some switched.2)
  | switchedSchedule {next : DateTime} {licenses : Nat} (billingSchedule : BillingSchedule)
      (atEndOfCycle : plan.status = .switchToAnnualAtEndOfCycle ∨
        plan.status = .switchToMonthlyAtEndOfCycle) (perLicense : plan.fixedPrice = none) :
      CycleOutcome pricing db planId plan eventTime
        (db.switchBillingSchedule pricing planId plan billingSchedule next licenses).1
        (db.switchBillingSchedule pricing planId plan billingSchedule next licenses).2.1
        (db.switchBillingSchedule pricing planId plan billingSchedule next licenses).2.2
  | ended (other : plan.status ≠ .active ∧ plan.status ≠ .freeTrial) :
      CycleOutcome pricing db planId plan eventTime (db.endPlan planId plan) none none

/-- Every result of `make_end_of_cycle_updates_if_needed` is one of the outcomes. -/
theorem makeEndOfCycleUpdatesIfNeeded_cases {pricing : Pricing} {db after : Database}
    {planId : Nat} {plan : CustomerPlan} {eventTime : DateTime}
    {newPlan : Option (Nat × CustomerPlan)} {entry : Option LicenseLedger}
    (found : db.plans.get? planId = some plan)
    (made : db.makeEndOfCycleUpdatesIfNeeded pricing planId eventTime =
      some (after, newPlan, entry)) :
    CycleOutcome pricing db planId plan eventTime after newPlan entry := by
  unfold makeEndOfCycleUpdatesIfNeeded at made
  rw [found, Option.bind_eq_bind, Option.bind_some, Option.bind_eq_bind,
    Option.bind_eq_some_iff] at made
  obtain ⟨next, nextCycle, made⟩ := made
  cases last : db.lastLedgerEntry planId eventTime with
  | none =>
    simp only [last, Option.some.injEq, Prod.mk.injEq] at made
    obtain ⟨rfl, rfl, rfl⟩ := made
    exact .notDue nextCycle (.inr last) none
  | some lastEntry =>
    simp only [last] at made
    split at made
    case isFalse notDue =>
      simp only [Option.some.injEq, Prod.mk.injEq] at made
      obtain ⟨rfl, rfl, rfl⟩ := made
      exact .notDue nextCycle (.inl (not_le.mp notDue)) _
    case isTrue due =>
      rw [Option.bind_eq_bind, Option.bind_eq_some_iff] at made
      obtain ⟨licenses, -, made⟩ := made
      split at made
      case isTrue atEnd =>
        simp only [Option.some.injEq, Prod.mk.injEq] at made
        obtain ⟨rfl, rfl, rfl⟩ := made
        exact .reachedEndDate nextCycle due atEnd.2 atEnd.1
      case isFalse goesOn =>
        split at made
        case h_1 active =>
          simp only [Option.some.injEq, Prod.mk.injEq] at made
          obtain ⟨rfl, rfl, rfl⟩ := made
          exact .renewed nextCycle due active (fun isEnd => goesOn ⟨isEnd, active⟩)
            (by rw [last]; rfl) rfl
        case h_2 freeTrial =>
          split at made
          case isTrue byCard =>
            simp only [Option.some.injEq, Prod.mk.injEq] at made
            obtain ⟨rfl, rfl, rfl⟩ := made
            exact .startedPaidPeriod true nextCycle due freeTrial byCard.symm
          case isFalse byInvoice =>
            have notCard := Bool.eq_false_iff.mpr byInvoice
            split at made
            case isTrue paid =>
              simp only [Option.some.injEq, Prod.mk.injEq] at made
              obtain ⟨rfl, rfl, rfl⟩ := made
              exact .startedPaidPeriod false nextCycle due freeTrial notCard.symm
            case isFalse unpaid =>
              simp only [Option.some.injEq, Prod.mk.injEq] at made
              obtain ⟨rfl, rfl, rfl⟩ := made
              exact .trialNotPaid freeTrial notCard
        case h_3 atPlanEnd =>
          rw [Option.bind_eq_bind, Option.bind_eq_some_iff] at made
          obtain ⟨switched, switches, made⟩ := made
          simp only [Option.some.injEq, Prod.mk.injEq] at made
          obtain ⟨rfl, rfl, rfl⟩ := made
          exact .switchedTier atPlanEnd switches
        case h_4 toAnnual =>
          split at made
          case isTrue => cases made
          case isFalse perLicense =>
            cases made
            exact .switchedSchedule .annual (.inl toAnnual) (by simpa using perLicense)
        case h_5 toMonthly =>
          split at made
          case isTrue => cases made
          case isFalse perLicense =>
            cases made
            exact .switchedSchedule .monthly (.inr toMonthly) (by simpa using perLicense)
        case h_6 notActive notTrial _ _ _ =>
          simp only [Option.some.injEq, Prod.mk.injEq] at made
          obtain ⟨rfl, rfl, rfl⟩ := made
          exact .ended ⟨notActive, notTrial⟩

end Database

end Zulip.Billing
