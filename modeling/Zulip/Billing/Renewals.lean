import Mathlib.Order.MinMax
import Zulip.Foundation.Transition
import Zulip.Billing.Loop

/-!
# Renewals

The renewals of a plan from its upgrade on. The next boundary is recomputed from the latest
renewal entry at every call, and `is_renewal` is left out on purpose when the invoice of a free
trial is paid: the call after that finds the same boundary again.
-/

namespace Zulip.Billing

open DateTime

/-! ## Calls and the property -/

/-- A call on the plan of a customer, or a change of the invoices of the customer. -/
inductive RenewalCall where
  | endOfCycle (eventTime : DateTime)
  | updateLicenseLedger (eventTime : DateTime) (billableLicenses : Tier → Nat)
  | invoices (invoices : List Invoice)

/-- What a call does. -/
inductive Calls (pricing : Pricing) (planId : Nat) : Database → RenewalCall → Database → Prop where
  | endOfCycle {db after : Database} {eventTime : DateTime}
      {newPlan : Option (Nat × CustomerPlan)} {entry : Option LicenseLedger}
      (made : db.makeEndOfCycleUpdatesIfNeeded pricing planId eventTime =
        some (after, newPlan, entry)) :
      Calls pricing planId db (.endOfCycle eventTime) after
  | updateLicenseLedger {db after : Database} {eventTime : DateTime}
      {billableLicenses : Tier → Nat}
      (updated : db.updateLicenseLedgerIfNeeded pricing billableLicenses eventTime = some after) :
      Calls pricing planId db (.updateLicenseLedger eventTime billableLicenses) after
  | invoices {db : Database} (invoices : List Invoice) :
      Calls pricing planId db (.invoices invoices) { db with invoices := invoices }

namespace Upgrade

/-- The first paid period is paid by the invoice of the free trial. -/
def paidByInvoice (upgrade : Upgrade) : Bool :=
  upgrade.freeTrialDays.isSome && !upgrade.chargeAutomatically

/-- The billing cycle that the first renewal starts. -/
def firstRenewal (upgrade : Upgrade) : Nat := if upgrade.paidByInvoice then 1 else 0

/-- The start of a billing cycle of a plan. -/
def cycleStart (upgrade : Upgrade) (plan : CustomerPlan) (cycle : Nat) : DateTime :=
  boundary plan.billingCycleAnchor upgrade.billingSchedule.monthsPerPeriod cycle

/-- The starts of consecutive billing cycles, from the first one that is renewed. -/
def renewedCycles (upgrade : Upgrade) (plan : CustomerPlan) (count : Nat) : List DateTime :=
  (List.range count).map fun cycle => upgrade.cycleStart plan (upgrade.firstRenewal + cycle)

/-- The renewals that start a paid period. The first entry of a free trial starts the trial. -/
def paidRenewals (upgrade : Upgrade) (db : Database) (planId : Nat) : List DateTime :=
  if upgrade.freeTrialDays.isSome then (db.renewalTimes planId).tail else db.renewalTimes planId

/-- Each paid period is renewed once and in order, and not the one that the invoice of the free
trial has paid. -/
structure RenewsConsecutively (upgrade : Upgrade) (planId : Nat) (db : Database) : Prop where
  distinct : (upgrade.paidRenewals db planId).Nodup
  consecutive : ∀ plan, db.plans.get? planId = some plan →
    ∃ count, upgrade.paidRenewals db planId = upgrade.renewedCycles plan count
  paidOnce : upgrade.paidByInvoice → ∀ plan, db.plans.get? planId = some plan →
    plan.billingCycleAnchor ∉ upgrade.paidRenewals db planId

end Upgrade

/-- The call renews the period that the plan has started with: the plan is active, and its latest
renewal is before the anchor. -/
def RenewsFirstPeriod (db : Database) (planId : Nat) (eventTime : DateTime) : Prop :=
  ∃ plan renewal, db.plans.get? planId = some plan ∧ plan.status = .active ∧
    (db.renewalTimes planId).getLast? = some renewal ∧ renewal < plan.billingCycleAnchor ∧
    plan.billingCycleAnchor ≤ eventTime

/-- The event time at which a call looks at the end of the cycle. -/
def RenewalCall.cycleTime (db : Database) (planId : Nat) : RenewalCall → Option DateTime
  | .endOfCycle eventTime => some eventTime
  | .updateLicenseLedger eventTime _ =>
    (db.plans.get? planId).bind fun plan => if plan.automanageLicenses then some eventTime else none
  | .invoices _ => none

/-- The call does not look at the end of the cycle when the plan is in its first paid period
without a renewal entry for it. -/
def RenewsNoPaidPeriod (planId : Nat) (db : Database) (call : RenewalCall) : Prop :=
  ∀ eventTime, call.cycleTime db planId = some eventTime → ¬RenewsFirstPeriod db planId eventTime

namespace Upgrade

variable {upgrade : Upgrade} {pricing : Pricing} {planId : Nat} {db after : Database}
  {plan : CustomerPlan}

theorem cycleStart_strictMono (upgrade : Upgrade) (plan : CustomerPlan) :
    StrictMono (upgrade.cycleStart plan) :=
  boundary_strictMono _ upgrade.billingSchedule.monthsPerPeriod_pos

theorem renewedCycles_succ (upgrade : Upgrade) (plan : CustomerPlan) (count : Nat) :
    upgrade.renewedCycles plan (count + 1) =
      upgrade.renewedCycles plan count ++ [upgrade.cycleStart plan (upgrade.firstRenewal + count)] := by
  unfold renewedCycles
  rw [List.range_succ, List.map_append, List.map_singleton]

/-- Consecutive cycles are distinct, and the first of them is not before the first renewal. -/
theorem renewsConsecutively_of_cycles {count : Nat} (found : db.plans.get? planId = some plan)
    (renewed : upgrade.paidRenewals db planId = upgrade.renewedCycles plan count) :
    upgrade.RenewsConsecutively planId db := by
  have increasing := upgrade.cycleStart_strictMono plan
  constructor
  case distinct =>
    rw [renewed]
    apply List.nodup_range.map
    intro first second same
    have sameCycle := increasing.injective same
    omega
  case consecutive =>
    intro other otherFound
    rw [found] at otherFound
    cases otherFound
    exact ⟨count, renewed⟩
  case paidOnce =>
    intro byInvoice other otherFound member
    rw [found] at otherFound
    cases otherFound
    rw [renewed, renewedCycles] at member
    obtain ⟨cycle, -, same⟩ := List.mem_map.mp member
    have anchored : upgrade.cycleStart plan (upgrade.firstRenewal + cycle) =
        upgrade.cycleStart plan 0 := same
    have first : upgrade.firstRenewal = 1 := if_pos byInvoice
    have sameCycle := increasing.injective anchored
    omega

/-! ## The phases of a plan -/

/-- What stays the same from the upgrade on. -/
structure OnPlan (upgrade : Upgrade) (planId : Nat) (db : Database) (plan : CustomerPlan) :
    Prop where
  found : db.plans.get? planId = some plan
  onlyLive : ∀ other otherPlan, db.plans.get? other = some otherPlan →
    otherPlan.status.isLive = true → other = planId
  billingSchedule : plan.billingSchedule = upgrade.billingSchedule
  chargeAutomatically : plan.chargeAutomatically = upgrade.chargeAutomatically
  endDate : upgrade.freeTrialDays.isSome → plan.endDate = none

/-- The phases that a plan goes through. -/
inductive Phase (upgrade : Upgrade) (planId : Nat) (db : Database) (plan : CustomerPlan) : Prop where
  /-- The free trial has not ended. -/
  | trial {days : Nat} (isTrial : upgrade.freeTrialDays = some days)
      (status : plan.status = .freeTrial)
      (trialEnd : plan.nextInvoiceDate = some (upgrade.billingCycleAnchor.addDays days))
      (renewals : db.renewalTimes planId = [upgrade.billingCycleAnchor])
  /-- The invoice of the free trial has paid the first period. -/
  | paidByInvoice (byInvoice : upgrade.paidByInvoice = true) (status : plan.status = .active)
      (renewals : db.renewalTimes planId = [upgrade.billingCycleAnchor])
      (trialBefore : upgrade.billingCycleAnchor < plan.billingCycleAnchor)
  /-- Every period so far has its renewal. -/
  | renewing (count : Nat) (notByInvoice : upgrade.paidByInvoice = false)
      (status : plan.status = .active)
      (renewed : upgrade.paidRenewals db planId = upgrade.renewedCycles plan (count + 1))
      (latest : (db.renewalTimes planId).getLast? = some (upgrade.cycleStart plan count))
  | finished {count : Nat} (status : plan.status = .ended)
      (renewed : upgrade.paidRenewals db planId = upgrade.renewedCycles plan count)

theorem firstRenewal_of_not_byInvoice (notByInvoice : upgrade.paidByInvoice = false) :
    upgrade.firstRenewal = 0 := by
  simp [firstRenewal, notByInvoice]

theorem paidRenewals_of_trialEntry {renewal : DateTime} (isTrial : upgrade.freeTrialDays.isSome)
    (renewals : db.renewalTimes planId = [renewal]) :
    upgrade.paidRenewals db planId = upgrade.renewedCycles plan 0 := by
  simp [paidRenewals, isTrial, renewals, renewedCycles]

/-- In every phase the periods are renewed consecutively. -/
theorem Phase.renewsConsecutively (onPlan : upgrade.OnPlan planId db plan)
    (phase : upgrade.Phase planId db plan) : upgrade.RenewsConsecutively planId db := by
  cases phase with
  | trial isTrial _ _ renewals =>
    exact renewsConsecutively_of_cycles onPlan.found
      (paidRenewals_of_trialEntry (by rw [isTrial]; rfl) renewals)
  | paidByInvoice byInvoice _ renewals =>
    have isTrial : upgrade.freeTrialDays.isSome = true := (Bool.and_eq_true_iff.mp byInvoice).1
    exact renewsConsecutively_of_cycles onPlan.found (paidRenewals_of_trialEntry isTrial renewals)
  | renewing _ _ _ renewed => exact renewsConsecutively_of_cycles onPlan.found renewed
  | finished _ renewed => exact renewsConsecutively_of_cycles onPlan.found renewed

/-- The phases look at the renewal times of the database only. -/
theorem Phase.congr (phase : upgrade.Phase planId db plan)
    (same : after.renewalTimes planId = db.renewalTimes planId) :
    upgrade.Phase planId after plan := by
  have samePaid : upgrade.paidRenewals after planId = upgrade.paidRenewals db planId := by
    rw [paidRenewals, paidRenewals, same]
  cases phase with
  | trial isTrial status trialEnd renewals =>
    exact .trial isTrial status trialEnd (same.trans renewals)
  | paidByInvoice byInvoice status renewals trialBefore =>
    exact .paidByInvoice byInvoice status (same.trans renewals) trialBefore
  | renewing count notByInvoice status renewed latest =>
    exact .renewing count notByInvoice status (samePaid.trans renewed) (by rw [same, latest])
  | finished status renewed => exact .finished status (samePaid.trans renewed)

theorem OnPlan.congr (onPlan : upgrade.OnPlan planId db plan) (same : after.plans = db.plans) :
    upgrade.OnPlan planId after plan where
  found := same ▸ onPlan.found
  onlyLive := same ▸ onPlan.onlyLive
  billingSchedule := onPlan.billingSchedule
  chargeAutomatically := onPlan.chargeAutomatically
  endDate := onPlan.endDate

/-- Saving the plan keeps it the only live plan. -/
theorem OnPlan.savePlan {changed : CustomerPlan} (onPlan : upgrade.OnPlan planId db plan)
    (plans : after.plans = db.plans.set planId changed)
    (billingSchedule : changed.billingSchedule = plan.billingSchedule)
    (chargeAutomatically : changed.chargeAutomatically = plan.chargeAutomatically)
    (endDate : changed.endDate = plan.endDate) : upgrade.OnPlan planId after changed where
  found := by rw [plans, Dict.get?_set_self]
  onlyLive := by
    intro other otherPlan found live
    by_contra different
    rw [plans, Dict.get?_set_ne _ _ different] at found
    exact different (onPlan.onlyLive other otherPlan found live)
  billingSchedule := billingSchedule.trans onPlan.billingSchedule
  chargeAutomatically := chargeAutomatically.trans onPlan.chargeAutomatically
  endDate := fun isTrial => endDate.trans (onPlan.endDate isTrial)

/-- The next cycle of a plan that is not in a free trial, from its latest renewal. -/
theorem getNextBillingCycle_active {renewal : DateTime} (status : plan.status = .active)
    (latest : (db.renewalTimes planId).getLast? = some renewal) :
    db.getNextBillingCycle planId plan =
      some (match plan.endDate with
        | some endDate => min (plan.startOfNextBillingCycle renewal) endDate
        | none => plan.startOfNextBillingCycle renewal) := by
  rw [← Database.lastLedgerRenewal_eventTime, Option.map_eq_some_iff] at latest
  obtain ⟨entry, found, rfl⟩ := latest
  unfold Database.getNextBillingCycle
  simp only [status, found, Option.map_some, Option.bind_eq_bind, Option.bind_some]
  cases plan.endDate <;> rfl

/-- The next cycle of a plan in a free trial is the end of the trial. -/
theorem getNextBillingCycle_trial (db : Database) (planId : Nat) {trialEnd : DateTime} (status : plan.status = .freeTrial)
    (invoiceDate : plan.nextInvoiceDate = some trialEnd) (noEnd : plan.endDate = none) :
    db.getNextBillingCycle planId plan = some trialEnd := by
  unfold Database.getNextBillingCycle
  simp only [status, invoiceDate, noEnd, Option.bind_eq_bind, Option.bind_some]

/-! ## The end of a cycle in each phase -/

theorem renewalTimes_startPaidPeriod (db : Database) (planId : Nat) (plan : CustomerPlan)
    (lastEntry : LicenseLedger) (isRenewal : Bool) (next : DateTime) (licenses : Nat) :
    (db.startPaidPeriod planId plan lastEntry isRenewal next licenses).1.renewalTimes planId =
      db.renewalTimes planId ++ if isRenewal then [next] else [] := by
  exact @Database.renewalTimes_addEntry (db.savePlan planId _) _ planId rfl

/-- At its end a free trial goes over to renewals, to the period that the invoice has paid, or
ends. -/
theorem Phase.startPaidPeriod {days licenses : Nat} {lastEntry : LicenseLedger} {isRenewal : Bool}
    {next : DateTime} (onPlan : upgrade.OnPlan planId db plan)
    (isTrial : upgrade.freeTrialDays = some days) (status : plan.status = .freeTrial)
    (trialEnd : plan.nextInvoiceDate = some (upgrade.billingCycleAnchor.addDays days))
    (renewals : db.renewalTimes planId = [upgrade.billingCycleAnchor])
    (nextCycle : db.getNextBillingCycle planId plan = some next)
    (payment : isRenewal = plan.chargeAutomatically) :
    ∃ changed, upgrade.OnPlan planId
        (db.startPaidPeriod planId plan lastEntry isRenewal next licenses).1 changed ∧
      upgrade.Phase planId (db.startPaidPeriod planId plan lastEntry isRenewal next licenses).1
        changed := by
  have someTrial : upgrade.freeTrialDays.isSome = true := by rw [isTrial]; rfl
  have isEnd := getNextBillingCycle_trial db planId status trialEnd (onPlan.endDate someTrial)
  rw [nextCycle, Option.some.injEq] at isEnd
  have noMicrosecond : next.microsecond = 0 := by
    rw [isEnd, addDays_microsecond]
    rfl
  have anchored := replaceMicrosecond_of_zero noMicrosecond
  have times := renewalTimes_startPaidPeriod db planId plan lastEntry isRenewal next licenses
  rw [renewals] at times
  refine ⟨_, onPlan.savePlan rfl rfl rfl rfl, ?_⟩
  rw [onPlan.chargeAutomatically] at payment
  cases isRenewal with
  | true =>
    have notByInvoice : upgrade.paidByInvoice = false := by
      simp [Upgrade.paidByInvoice, ← payment]
    refine .renewing 0 notByInvoice rfl ?_ ?_
    · simp [paidRenewals, someTrial, times, renewedCycles, firstRenewal, notByInvoice, cycleStart,
        boundary, anchored]
    · simp [times, cycleStart, boundary, anchored]
  | false =>
    refine .paidByInvoice (by simp [Upgrade.paidByInvoice, someTrial, ← payment]) rfl times ?_
    rw [anchored, isEnd]
    exact lt_addDays _ (upgrade.trialOffered days isTrial)

/-- A renewal starts the cycle after the latest one. -/
theorem Phase.renew {count licenses : Nat} {next : DateTime} {entry : LicenseLedger}
    (onPlan : upgrade.OnPlan planId db plan) (notByInvoice : upgrade.paidByInvoice = false)
    (status : plan.status = .active)
    (renewed : upgrade.paidRenewals db planId = upgrade.renewedCycles plan (count + 1))
    (latest : (db.renewalTimes planId).getLast? = some (upgrade.cycleStart plan count))
    (nextCycle : db.getNextBillingCycle planId plan = some next)
    (goesOn : plan.endDate ≠ some next)
    (isNew : entry = db.newEntry planId true next licenses (some licenses)) :
    upgrade.Phase planId (db.addEntry entry) plan := by
  have isNext : next = upgrade.cycleStart plan (count + 1) := by
    have found := getNextBillingCycle_active status latest
    have walk : plan.startOfNextBillingCycle (upgrade.cycleStart plan count) =
        upgrade.cycleStart plan (count + 1) := by
      unfold CustomerPlan.startOfNextBillingCycle
      rw [onPlan.billingSchedule]
      exact nextBoundary_boundary _ upgrade.billingSchedule.monthsPerPeriod_pos count
    rw [nextCycle, walk, Option.some.injEq] at found
    cases ends : plan.endDate with
    | none => simpa [ends] using found
    | some endDate =>
      simp only [ends] at found
      rcases min_choice (upgrade.cycleStart plan (count + 1)) endDate with isCycle | isEnd
      · rw [found, isCycle]
      · rw [ends, found, isEnd] at goesOn
        exact absurd rfl goesOn
  have times := Database.renewalTimes_addEntry db (show entry.planId = planId by rw [isNew]; rfl)
  have renews : entry.isRenewal = true := by rw [isNew]; rfl
  have time : entry.eventTime = next := by rw [isNew]; rfl
  rw [renews, time, if_pos rfl] at times
  have nonempty : db.renewalTimes planId ≠ [] := by
    rintro empty
    rw [empty] at latest
    cases latest
  refine .renewing (count + 1) notByInvoice status ?_ ?_
  · rw [renewedCycles_succ, ← renewed, firstRenewal_of_not_byInvoice notByInvoice, Nat.zero_add,
      ← isNext]
    unfold paidRenewals
    rw [times]
    split
    · exact List.tail_append_of_ne_nil nonempty
    · rfl
  · rw [times, List.getLast?_concat, isNext]

/-- The end of a cycle keeps the plan in its phases, unless it renews the period that the invoice
of the free trial has paid. -/
theorem Phase.endOfCycle {eventTime : DateTime} {newPlan : Option (Nat × CustomerPlan)}
    {entry : Option LicenseLedger} (onPlan : upgrade.OnPlan planId db plan)
    (phase : upgrade.Phase planId db plan)
    (outcome : Database.CycleOutcome pricing db planId plan eventTime after newPlan entry)
    (safe : ¬RenewsFirstPeriod db planId eventTime) :
    newPlan = none ∧
      ∃ changed, upgrade.OnPlan planId after changed ∧ upgrade.Phase planId after changed := by
  cases outcome with
  | notDue _ _ _ => exact ⟨rfl, plan, onPlan, phase⟩
  | reachedEndDate _ _ active endDate =>
    refine ⟨rfl, _, onPlan.savePlan rfl rfl rfl rfl, ?_⟩
    cases phase with
    | trial _ status => simp [active] at status
    | finished status => simp [active] at status
    | paidByInvoice byInvoice _ _ _ =>
      rw [onPlan.endDate (Bool.and_eq_true_iff.mp byInvoice).1] at endDate
      cases endDate
    | renewing _ _ _ renewed _ => exact .finished rfl renewed
  | renewed nextCycle due active goesOn _ isNew =>
    refine ⟨rfl, plan, onPlan.congr rfl, ?_⟩
    cases phase with
    | trial _ status => simp [active] at status
    | finished status => simp [active] at status
    | paidByInvoice byInvoice status renewals trialBefore =>
      have latest : (db.renewalTimes planId).getLast? = some upgrade.billingCycleAnchor := by
        rw [renewals]
        rfl
      have found := getNextBillingCycle_active active latest
      rw [onPlan.endDate (Bool.and_eq_true_iff.mp byInvoice).1, nextCycle] at found
      have isAnchor := Option.some.inj found
      dsimp only at isAnchor
      rw [CustomerPlan.startOfNextBillingCycle, nextBoundary_before trialBefore] at isAnchor
      rw [isAnchor] at due
      exact absurd ⟨plan, _, onPlan.found, active, latest, trialBefore, due⟩ safe
    | renewing _ notByInvoice status renewed latest =>
      exact Phase.renew onPlan notByInvoice status renewed latest nextCycle goesOn isNew
  | startedPaidPeriod isRenewal nextCycle due freeTrial payment =>
    refine ⟨rfl, ?_⟩
    cases phase with
    | trial isTrial status trialEnd renewals =>
      exact Phase.startPaidPeriod onPlan isTrial status trialEnd renewals nextCycle payment
    | finished status => simp [freeTrial] at status
    | paidByInvoice _ status => simp [freeTrial] at status
    | renewing _ _ status => simp [freeTrial] at status
  | trialNotPaid freeTrial _ =>
    refine ⟨rfl, ?_⟩
    cases phase with
    | trial isTrial _ _ renewals =>
      have noRenewal : upgrade.paidRenewals db planId = upgrade.renewedCycles plan 0 :=
        paidRenewals_of_trialEntry (by rw [isTrial]; rfl) renewals
      have saved : upgrade.OnPlan planId
          (db.savePlan planId { plan with status := .downgradeAtEndOfFreeTrial })
          { plan with status := .downgradeAtEndOfFreeTrial } := onPlan.savePlan rfl rfl rfl rfl
      exact ⟨_, saved.savePlan rfl rfl rfl rfl, .finished rfl noRenewal⟩
    | finished status => simp [freeTrial] at status
    | paidByInvoice _ status => simp [freeTrial] at status
    | renewing _ _ status => simp [freeTrial] at status
  | switchedTier atPlanEnd _ =>
    cases phase <;> simp_all
  | switchedSchedule _ atEndOfCycle _ =>
    cases phase <;> simp_all
  | ended other =>
    refine ⟨rfl, plan, ?_⟩
    cases phase with
    | trial _ status => exact absurd status other.2
    | paidByInvoice _ status => exact absurd status other.1
    | renewing _ _ status => exact absurd status other.1
    | finished status renewed =>
      have same : db.endPlan planId plan = db := by
        unfold Database.endPlan
        rw [status]
      rw [same]
      exact ⟨onPlan, .finished status renewed⟩

/-- A call that renews the first period finds the boundary at the anchor again. -/
theorem Phase.renewsFirstPeriod {eventTime : DateTime} {newPlan : Option (Nat × CustomerPlan)}
    {entry : Option LicenseLedger} (onPlan : upgrade.OnPlan planId db plan)
    (phase : upgrade.Phase planId db plan)
    (outcome : Database.CycleOutcome pricing db planId plan eventTime after newPlan entry)
    (unsafeCall : RenewsFirstPeriod db planId eventTime) :
    upgrade.paidByInvoice = true ∧ newPlan = none ∧ after.plans = db.plans ∧
      after.renewalTimes planId = [upgrade.billingCycleAnchor, plan.billingCycleAnchor] := by
  obtain ⟨other, renewal, found, active, latest, before, notLater⟩ := unsafeCall
  rw [onPlan.found] at found
  cases found
  cases phase with
  | trial _ status => simp [active] at status
  | finished status => simp [active] at status
  | renewing count notByInvoice status renewed lastCycle =>
    rw [lastCycle] at latest
    cases latest
    have notBefore := (upgrade.cycleStart_strictMono plan).monotone (Nat.zero_le count)
    exact absurd before (not_lt.mpr notBefore)
  | paidByInvoice byInvoice status renewals trialBefore =>
    have noEnd := onPlan.endDate (Bool.and_eq_true_iff.mp byInvoice).1
    rw [renewals] at latest
    cases latest
    have isNext : db.getNextBillingCycle planId plan = some plan.billingCycleAnchor := by
      rw [getNextBillingCycle_active active (by rw [renewals]; rfl), noEnd,
        CustomerPlan.startOfNextBillingCycle]
      exact congrArg some (nextBoundary_before trialBefore)
    cases outcome with
    | notDue nextCycle early _ =>
      rw [isNext, Option.some.injEq] at nextCycle
      rcases early with early | noEntry
      · rw [← nextCycle] at early
        exact absurd notLater (not_le.mpr early)
      · have listed : upgrade.billingCycleAnchor ∈ db.renewalTimes planId := by
          rw [renewals]
          exact List.mem_singleton_self _
        obtain ⟨first, member, time⟩ := List.mem_map.mp listed
        have isSome := Database.lastLedgerEntry_isSome (List.mem_filter.mp member).1
          (show first.eventTime ≤ eventTime by rw [time]; exact (trialBefore.le).trans notLater)
        rw [noEntry] at isSome
        cases isSome
    | reachedEndDate _ _ _ endDate =>
      rw [noEnd] at endDate
      cases endDate
    | renewed nextCycle due _ goesOn _ isNew =>
      rw [isNext, Option.some.injEq] at nextCycle
      subst isNew
      refine ⟨byInvoice, rfl, rfl, ?_⟩
      rw [@Database.renewalTimes_addEntry db _ planId rfl, renewals, nextCycle]
      rfl
    | startedPaidPeriod _ _ _ freeTrial _ => simp [active] at freeTrial
    | trialNotPaid freeTrial _ => simp [active] at freeTrial
    | switchedTier atPlanEnd _ => simp [active] at atPlanEnd
    | switchedSchedule _ atEndOfCycle _ => simp [active] at atEndOfCycle
    | ended other => exact absurd active other.1

/-- The plan whose first period was renewed does not renew consecutively. -/
theorem not_renewsConsecutively (byInvoice : upgrade.paidByInvoice = true)
    (found : db.plans.get? planId = some plan)
    (renewals : db.renewalTimes planId =
      [upgrade.billingCycleAnchor, plan.billingCycleAnchor]) :
    ¬upgrade.RenewsConsecutively planId db := by
  intro consecutively
  apply consecutively.paidOnce byInvoice plan found
  have isTrial : upgrade.freeTrialDays.isSome = true := (Bool.and_eq_true_iff.mp byInvoice).1
  simp [paidRenewals, isTrial, renewals]

/-! ## Calls -/

/-- A license change after the end of the cycle adds no renewal. -/
theorem updateLicenseLedger_cases {billableLicenses : Tier → Nat} {eventTime : DateTime}
    (onPlan : upgrade.OnPlan planId db plan)
    (updated : db.updateLicenseLedgerIfNeeded pricing billableLicenses eventTime = some after) :
    after = db ∧ (plan.automanageLicenses = true → plan.status.isLive = false) ∨
      plan.automanageLicenses = true ∧ ∃ between newPlan entry,
        db.makeEndOfCycleUpdatesIfNeeded pricing planId eventTime = some (between, newPlan, entry) ∧
          (newPlan = none → after.plans = between.plans ∧
            after.renewalTimes planId = between.renewalTimes planId) := by
  unfold Database.updateLicenseLedgerIfNeeded at updated
  cases current : db.getCurrentPlan with
  | none =>
    rw [current] at updated
    cases updated
    have noneLive := List.find?_eq_none.mp current _ (Dict.get?_eq_some_iff.mp onPlan.found)
    exact .inl ⟨rfl, fun _ => Bool.eq_false_iff.mpr noneLive⟩
  | some live =>
    obtain ⟨liveId, livePlan⟩ := live
    have isFound := List.mem_of_find?_eq_some current
    have isLive : livePlan.status.isLive = true := by simpa using List.find?_some current
    have liveFound := Dict.get?_eq_some_iff.mpr isFound
    have samePlan := onPlan.onlyLive liveId livePlan liveFound isLive
    subst samePlan
    rw [onPlan.found, Option.some.injEq] at liveFound
    subst liveFound
    simp only [current] at updated
    split at updated
    case isFalse manual =>
      cases updated
      exact .inl ⟨rfl, fun automanaged => absurd automanaged manual⟩
    case isTrue automanaged =>
      obtain ⟨⟨result, resultPlan⟩, changed, rfl⟩ := Option.map_eq_some_iff.mp updated
      unfold Database.updateLicenseLedgerForAutomanagedPlan at changed
      rw [Option.bind_eq_bind, Option.bind_eq_some_iff] at changed
      obtain ⟨⟨between, newPlan, entry⟩, made, changed⟩ := changed
      refine .inr ⟨automanaged, between, newPlan, entry, made, ?_⟩
      rintro rfl
      cases entry with
      | none =>
        cases changed
        exact ⟨rfl, rfl⟩
      | some lastEntry =>
        simp only [Option.map_none, Option.getD_none, Option.bind_eq_some_iff,
          Option.some.injEq, Prod.mk.injEq, Option.bind_eq_bind] at changed
        obtain ⟨_, _, atNextRenewal, _, rfl, _⟩ := changed
        refine ⟨rfl, ?_⟩
        rw [@Database.renewalTimes_addEntry between _ liveId rfl]
        simp [Database.newEntry]

/-- Every call keeps the plan in its phases, unless it renews the first period. -/
theorem phase_of_calls {call : RenewalCall} (onPlan : upgrade.OnPlan planId db plan)
    (phase : upgrade.Phase planId db plan) (calls : Calls pricing planId db call after)
    (condition : RenewsNoPaidPeriod planId db call) :
    ∃ changed, upgrade.OnPlan planId after changed ∧ upgrade.Phase planId after changed := by
  cases calls with
  | endOfCycle made =>
    have outcome := Database.makeEndOfCycleUpdatesIfNeeded_cases onPlan.found made
    exact (Phase.endOfCycle onPlan phase outcome (condition _ rfl)).2
  | updateLicenseLedger updated =>
    rcases updateLicenseLedger_cases onPlan updated with ⟨rfl, -⟩ | ⟨automanaged, between, newPlan,
      entry, made, added⟩
    · exact ⟨plan, onPlan, phase⟩
    · have outcome := Database.makeEndOfCycleUpdatesIfNeeded_cases onPlan.found made
      have safe := condition _ (show RenewalCall.cycleTime db planId _ = some _ by
        rw [RenewalCall.cycleTime, onPlan.found, Option.bind_some, if_pos automanaged])
      obtain ⟨rfl, changed, betweenOnPlan, betweenPhase⟩ :=
        Phase.endOfCycle onPlan phase outcome safe
      obtain ⟨samePlans, sameTimes⟩ := added rfl
      exact ⟨changed, betweenOnPlan.congr samePlans, betweenPhase.congr sameTimes⟩
  | invoices => exact ⟨plan, onPlan.congr rfl, phase.congr rfl⟩

/-- A call that renews the first period breaks the property. -/
theorem not_renewsConsecutively_of_calls {call : RenewalCall} (onPlan : upgrade.OnPlan planId db plan)
    (phase : upgrade.Phase planId db plan) (calls : Calls pricing planId db call after)
    (renewsPaid : ¬RenewsNoPaidPeriod planId db call) :
    ¬upgrade.RenewsConsecutively planId after := by
  simp only [RenewsNoPaidPeriod, not_forall, not_not] at renewsPaid
  obtain ⟨eventTime, isTime, unsafeCall⟩ := renewsPaid
  cases calls with
  | endOfCycle made =>
    cases isTime
    have outcome := Database.makeEndOfCycleUpdatesIfNeeded_cases onPlan.found made
    obtain ⟨byInvoice, -, samePlans, renewals⟩ :=
      Phase.renewsFirstPeriod onPlan phase outcome unsafeCall
    exact Upgrade.not_renewsConsecutively byInvoice (samePlans ▸ onPlan.found) renewals
  | updateLicenseLedger updated =>
    rw [RenewalCall.cycleTime, onPlan.found, Option.bind_some] at isTime
    split at isTime
    case isFalse => cases isTime
    case isTrue automanaged =>
      cases isTime
      rcases updateLicenseLedger_cases onPlan updated with ⟨-, notLive⟩ | ⟨-, between, newPlan,
        entry, made, added⟩
      · obtain ⟨other, _, found, active, _⟩ := unsafeCall
        rw [onPlan.found, Option.some.injEq] at found
        subst found
        have ended := notLive automanaged
        rw [active] at ended
        cases ended
      · have outcome := Database.makeEndOfCycleUpdatesIfNeeded_cases onPlan.found made
        obtain ⟨byInvoice, rfl, betweenPlans, betweenRenewals⟩ :=
          Phase.renewsFirstPeriod onPlan phase outcome unsafeCall
        obtain ⟨samePlans, sameTimes⟩ := added rfl
        have found : after.plans.get? planId = some plan := by
          rw [samePlans, betweenPlans, onPlan.found]
        exact Upgrade.not_renewsConsecutively byInvoice found (sameTimes.trans betweenRenewals)
  | invoices => cases isTime

/-! ## Runs from the upgrade -/

/-- The rows of a customer who can be upgraded: no plan is live, and every ledger entry belongs
to a plan. -/
structure Upgradable (db : Database) : Prop where
  notLive : ∀ planId plan, db.plans.get? planId = some plan → plan.status.isLive = false
  entries : ∀ entry ∈ db.ledger, entry.planId ∈ db.plans.keys

theorem entriesOf_nextPlanId (upgradable : Upgradable db) : db.entriesOf db.nextPlanId = [] := by
  unfold Database.entriesOf
  rw [List.filter_eq_nil_iff]
  intro entry member isNew
  have listed := upgradable.entries entry member
  rw [of_decide_eq_true isNew] at listed
  exact db.nextPlanId_not_mem listed

@[simp] theorem status_invoicedUpTo (plan : CustomerPlan) (entries : List LicenseLedger) :
    (plan.invoicedUpTo entries).status = plan.status := by
  unfold CustomerPlan.invoicedUpTo
  split <;> rfl

@[simp] theorem billingCycleAnchor_invoicedUpTo (plan : CustomerPlan)
    (entries : List LicenseLedger) :
    (plan.invoicedUpTo entries).billingCycleAnchor = plan.billingCycleAnchor := by
  unfold CustomerPlan.invoicedUpTo
  split <;> rfl

@[simp] theorem billingSchedule_invoicedUpTo (plan : CustomerPlan)
    (entries : List LicenseLedger) :
    (plan.invoicedUpTo entries).billingSchedule = plan.billingSchedule := by
  unfold CustomerPlan.invoicedUpTo
  split <;> rfl

@[simp] theorem chargeAutomatically_invoicedUpTo (plan : CustomerPlan)
    (entries : List LicenseLedger) :
    (plan.invoicedUpTo entries).chargeAutomatically = plan.chargeAutomatically := by
  unfold CustomerPlan.invoicedUpTo
  split <;> rfl

@[simp] theorem endDate_invoicedUpTo (plan : CustomerPlan) (entries : List LicenseLedger) :
    (plan.invoicedUpTo entries).endDate = plan.endDate := by
  unfold CustomerPlan.invoicedUpTo
  split <;> rfl

/-- Without a free trial the phases look at the status and the anchor of the plan only. -/
theorem Phase.replan {changed : CustomerPlan} (noTrial : upgrade.freeTrialDays = none)
    (status : changed.status = plan.status)
    (anchor : changed.billingCycleAnchor = plan.billingCycleAnchor)
    (phase : upgrade.Phase planId db plan) : upgrade.Phase planId db changed := by
  have sameCycles : upgrade.cycleStart changed = upgrade.cycleStart plan := by
    funext cycle
    rw [cycleStart, cycleStart, anchor]
  have sameRenewed : upgrade.renewedCycles changed = upgrade.renewedCycles plan := by
    funext count
    rw [renewedCycles, renewedCycles, sameCycles]
  cases phase with
  | trial isTrial =>
    rw [noTrial] at isTrial
    cases isTrial
  | paidByInvoice byInvoice isActive renewals trialBefore =>
    exact .paidByInvoice byInvoice (status.trans isActive) renewals (anchor ▸ trialBefore)
  | renewing count notByInvoice isActive renewed latest =>
    exact .renewing count notByInvoice (status.trans isActive) (by rw [sameRenewed, renewed])
      (by rw [sameCycles, latest])
  | finished isEnded renewed =>
    exact .finished (status.trans isEnded) (by rw [sameRenewed, renewed])

/-- Invoicing the additional licenses of an upgrade keeps the phase. -/
theorem Phase.invoicePlan {eventTime : DateTime} {requests : StripeRequests}
    (noTrial : upgrade.freeTrialDays = none) (onPlan : upgrade.OnPlan planId db plan)
    (phase : upgrade.Phase planId db plan)
    (invoiced : db.invoicePlan pricing planId eventTime = some (after, requests)) :
    ∃ changed, upgrade.OnPlan planId after changed ∧ upgrade.Phase planId after changed := by
  obtain ⟨between, current, ended, currentFound, ledger, processed, nextDate, overdue, plans, -⟩ :=
    Database.invoicePlan_spec onPlan.found invoiced
  have notByInvoice : upgrade.paidByInvoice = false := by simp [Upgrade.paidByInvoice, noTrial]
  have safe : ¬RenewsFirstPeriod db planId eventTime := by
    intro unsafeCall
    obtain ⟨other, renewal, found, active, latest, before, _⟩ := unsafeCall
    rw [onPlan.found] at found
    cases found
    cases phase with
    | trial isTrial =>
      rw [noTrial] at isTrial
      cases isTrial
    | paidByInvoice byInvoice => simp [notByInvoice] at byInvoice
    | finished isEnded => simp [active] at isEnded
    | renewing count _ _ _ lastCycle =>
      rw [lastCycle] at latest
      cases latest
      have notBefore := (upgrade.cycleStart_strictMono plan).monotone (Nat.zero_le count)
      exact absurd before (not_lt.mpr notBefore)
  have betweenPhase :
      ∃ changed, upgrade.OnPlan planId between changed ∧ upgrade.Phase planId between changed := by
    rcases ended with ⟨-, rfl⟩ | ⟨newPlan, entry, -, outcome⟩
    · exact ⟨plan, onPlan, phase⟩
    · exact (Phase.endOfCycle onPlan phase outcome safe).2
  obtain ⟨changed, changedOnPlan, changedPhase⟩ := betweenPhase
  rw [changedOnPlan.found, Option.some.injEq] at currentFound
  subst currentFound
  have sameTimes : after.renewalTimes planId = between.renewalTimes planId := by
    unfold Database.renewalTimes Database.entriesOf
    rw [ledger]
  exact ⟨_, changedOnPlan.savePlan plans (by simp) (by simp) (by simp),
    Phase.replan noTrial (by simp) (by simp) (changedPhase.congr sameTimes)⟩

/-- The plan right after it was created, in its first phase. -/
theorem phase_of_created (upgradable : Upgradable db) (upgrade : Upgrade) (pricing : Pricing)
    {entry : LicenseLedger}
    (isFirst : entry = db.newEntry db.nextPlanId true upgrade.billingCycleAnchor upgrade.licenses
      (some upgrade.licenses)) :
    upgrade.OnPlan db.nextPlanId
        ((db.addEntry entry).savePlan db.nextPlanId
          { upgrade.plan pricing with invoicedThrough := some entry.id })
        { upgrade.plan pricing with invoicedThrough := some entry.id } ∧
      upgrade.Phase db.nextPlanId
        ((db.addEntry entry).savePlan db.nextPlanId
          { upgrade.plan pricing with invoicedThrough := some entry.id })
        { upgrade.plan pricing with invoicedThrough := some entry.id } := by
  have noTimes : db.renewalTimes db.nextPlanId = [] := by
    unfold Database.renewalTimes
    rw [entriesOf_nextPlanId upgradable]
    rfl
  have times : ((db.addEntry entry).savePlan db.nextPlanId
      { upgrade.plan pricing with invoicedThrough := some entry.id }).renewalTimes db.nextPlanId =
      [upgrade.billingCycleAnchor] := by
    rw [Database.renewalTimes_savePlan, isFirst]
    rw [@Database.renewalTimes_addEntry db _ db.nextPlanId rfl, noTimes]
    rfl
  refine ⟨⟨?_, ?_, rfl, rfl, ?_⟩, ?_⟩
  · rw [Database.plans_savePlan, Dict.get?_set_self]
  · intro other otherPlan found live
    by_contra different
    rw [Database.plans_savePlan, Database.plans_addEntry, Dict.get?_set_ne _ _ different] at found
    have dead := upgradable.notLive other otherPlan found
    rw [live] at dead
    cases dead
  · intro isTrial
    cases offer : upgrade.fixedPriceOffer with
    | none => simp [plan, offer]
    | some price =>
      have noTrial := upgrade.noTrialForOffer (by rw [offer]; rfl)
      rw [noTrial] at isTrial
      cases isTrial
  · cases trial : upgrade.freeTrialDays with
    | some days =>
      exact .trial trial (by simp [plan, trial]) (by simp [plan, nextInvoiceDate, trial]) times
    | none =>
      have notByInvoice : upgrade.paidByInvoice = false := by simp [Upgrade.paidByInvoice, trial]
      refine .renewing 0 notByInvoice (by simp [plan, trial]) ?_ (by rw [times]; rfl)
      simp only [paidRenewals, trial, Option.isSome_none, Bool.false_eq_true, if_false, times]
      simp [renewedCycles, firstRenewal, notByInvoice, cycleStart, boundary, plan]

/-- Charging additional licenses keeps the phase. -/
theorem phase_of_additional (onPlan : upgrade.OnPlan planId db plan)
    (phase : upgrade.Phase planId db plan)
    (additional : db.invoiceAdditionalLicenses pricing upgrade planId = some after) :
    ∃ changed, upgrade.OnPlan planId after changed ∧ upgrade.Phase planId after changed := by
  unfold Database.invoiceAdditionalLicenses at additional
  dsimp only at additional
  split at additional
  case isFalse =>
    cases additional
    exact ⟨plan, onPlan, phase⟩
  case isTrue charged =>
    obtain ⟨⟨invoiced, requests⟩, isInvoiced, rfl⟩ := Option.map_eq_some_iff.mp additional
    have noTrial : upgrade.freeTrialDays = none := by
      have paid := upgrade.paidUnlessTrial
      rw [charged.1] at paid
      exact Option.isNone_iff_eq_none.mp paid.symm
    have sameTimes := @Database.renewalTimes_addEntry db
      (db.newEntry planId false upgrade.billingCycleAnchor
        (max upgrade.currentLicensesCount upgrade.licenses)
        (some (max upgrade.currentLicensesCount upgrade.licenses))) planId rfl
    exact Phase.invoicePlan noTrial (onPlan.congr (Database.plans_addEntry db _))
      (phase.congr (sameTimes.trans (List.append_nil _))) isInvoiced

/-- A plan that `process_initial_upgrade` has created is in one of the phases. -/
theorem phase_of_upgraded {start : Database} (upgradable : Upgradable db)
    (upgraded : db.processInitialUpgrade pricing upgrade = some (start, planId)) :
    ∃ plan, upgrade.OnPlan planId start plan ∧ upgrade.Phase planId start plan := by
  obtain ⟨onPlan, phase⟩ := phase_of_created upgradable upgrade pricing rfl
  unfold Database.processInitialUpgrade at upgraded
  rw [Option.bind_eq_bind, Option.bind_eq_some_iff] at upgraded
  obtain ⟨between, additional, upgraded⟩ := upgraded
  obtain ⟨plan, betweenOnPlan, betweenPhase⟩ := phase_of_additional onPlan phase additional
  split at upgraded
  · simp only [Option.some.injEq, Prod.mk.injEq] at upgraded
    obtain ⟨rfl, rfl⟩ := upgraded
    exact ⟨plan, betweenOnPlan.congr rfl, betweenPhase.congr rfl⟩
  · simp only [Option.some.injEq, Prod.mk.injEq] at upgraded
    obtain ⟨rfl, rfl⟩ := upgraded
    exact ⟨plan, betweenOnPlan, betweenPhase⟩

/-- From its upgrade on, a plan renews consecutively in all states of a run exactly when no call
of the run renews the period that the invoice of its free trial has paid. -/
theorem renewsConsecutively_always_iff {start final : Database}
    {trace : List (Database × RenewalCall)} (upgradable : Upgradable db)
    (upgraded : db.processInitialUpgrade pricing upgrade = some (start, planId))
    (run : Run (Calls pricing planId) start trace final) :
    Run.Always (upgrade.RenewsConsecutively planId) trace final ↔
      ∀ visit ∈ trace, RenewsNoPaidPeriod planId visit.1 visit.2 := by
  obtain ⟨plan, onPlan, phase⟩ := phase_of_upgraded upgradable upgraded
  refine @Run.always_iff _ _ _
    (fun db => ∃ plan, upgrade.OnPlan planId db plan ∧ upgrade.Phase planId db plan)
    (upgrade.RenewsConsecutively planId) (RenewsNoPaidPeriod planId) _ _ _ run
    ⟨plan, onPlan, phase⟩ (phase.renewsConsecutively onPlan) ?_ ?_
  · rintro state call next ⟨plan, onPlan, phase⟩ - calls condition
    exact phase_of_calls onPlan phase calls condition
  · rintro state call next ⟨plan, onPlan, phase⟩ - calls
    constructor
    · intro renews
      by_contra renewsPaid
      exact not_renewsConsecutively_of_calls onPlan phase calls renewsPaid renews
    · intro condition
      obtain ⟨changed, changedOnPlan, changedPhase⟩ :=
        phase_of_calls onPlan phase calls condition
      exact changedPhase.renewsConsecutively changedOnPlan

end Upgrade

/-! ## A free trial that is paid by invoice -/

/-- The event time of a call. -/
def RenewalCall.eventTime : RenewalCall → Option DateTime
  | .endOfCycle eventTime => some eventTime
  | .updateLicenseLedger eventTime _ => some eventTime
  | .invoices _ => none

/-- The event times of a run do not decrease, and are at most one billing period apart. -/
def Paced (upgrade : Upgrade) (trace : List (Database × RenewalCall)) : Prop :=
  (upgrade.billingCycleAnchor :: trace.filterMap fun visit => visit.2.eventTime).IsChain
    fun earlier later =>
      earlier ≤ later ∧ later ≤ earlier.addMonths upgrade.billingSchedule.monthsPerPeriod

/-- Prices for the runs below. -/
def plainPricing : Pricing where
  pricePerLicense _ _ := 8000
  prorate price _ _ := price
  amountDueFixedPrice price _ := price
  isSelfHostedBilling := false

/-- A customer without a plan. -/
def newCustomer : Database where
  customer := ⟨some "cus_1", false, 2000, 0⟩
  plans := Dict.empty
  ledger := []
  invoices := []

theorem january_valid : 1 ≤ 1 ∧ 1 ≤ 12 := by decide

/-- An annual plan with a free trial of 60 days, by invoice or by card. -/
def trialUpgrade (chargeAutomatically : Bool) : Upgrade where
  planTier := .cloudStandard
  licenses := 123
  automanageLicenses := false
  billingSchedule := .annual
  chargeAutomatically := chargeAutomatically
  freeTrialDays := some 60
  stripeInvoicePaid := false
  now :=
    { year := 2012, month := 1, day := 2, second := 11045, microsecond := 0,
      monthValid := january_valid }
  currentLicensesCount := 15
  fixedPriceOffer := none
  trialOffered := by simp
  noTrialForOffer := by simp
  paidUnlessTrial := rfl

/-- The end of the free trial. -/
def trialEnd : DateTime := { year := 2012, month := 3, day := 2, second := 11045, microsecond := 0 }

theorem newCustomer_upgradable : Upgrade.Upgradable newCustomer := by
  constructor <;> simp [newCustomer]

/-- The rows of a customer after an upgrade to a plan with a free trial. -/
def afterUpgrade (chargeAutomatically : Bool) : Database :=
  ((newCustomer.processInitialUpgrade plainPricing (trialUpgrade chargeAutomatically)).map
    (·.1)).getD newCustomer

theorem afterUpgrade_eq (chargeAutomatically : Bool) :
    newCustomer.processInitialUpgrade plainPricing (trialUpgrade chargeAutomatically) =
      some (afterUpgrade chargeAutomatically, 0) := by
  cases chargeAutomatically <;> rfl

/-- The rows after a call at the end of the free trial. -/
def atTrialEnd (db : Database) : Database :=
  ((db.makeEndOfCycleUpdatesIfNeeded plainPricing 0 trialEnd).map (·.1)).getD db

theorem calls_atTrialEnd {db : Database}
    (made : (db.makeEndOfCycleUpdatesIfNeeded plainPricing 0 trialEnd).isSome) :
    Calls plainPricing 0 db (.endOfCycle trialEnd) (atTrialEnd db) := by
  obtain ⟨⟨after, newPlan, entry⟩, isMade⟩ := Option.isSome_iff_exists.mp made
  have same : atTrialEnd db = after := by
    rw [atTrialEnd, isMade]
    rfl
  rw [same]
  exact .endOfCycle isMade

/-- A free trial by card, whose plan renews when the trial ends. -/
theorem renewsConsecutively_always_iff_card :
    Run.Always ((trialUpgrade true).RenewsConsecutively 0)
        [(afterUpgrade true, RenewalCall.endOfCycle trialEnd)] (atTrialEnd (afterUpgrade true)) ↔
      ∀ visit ∈ [(afterUpgrade true, RenewalCall.endOfCycle trialEnd)],
        RenewsNoPaidPeriod 0 visit.1 visit.2 :=
  Upgrade.renewsConsecutively_always_iff newCustomer_upgradable (afterUpgrade_eq true)
    (.step .refl (calls_atTrialEnd (by decide +kernel)))

/-- The rows once the invoice of the free trial is paid. -/
def invoicePaid : Database := { afterUpgrade false with invoices := [⟨0, .paid⟩] }

/-- Two calls at the end of a free trial whose invoice is paid: the second one renews the period
that the invoice has paid. -/
theorem renewsConsecutively_fails_after_paid_trial :
    ¬ ∀ (pricing : Pricing) (db start final : Database) (upgrade : Upgrade) (planId : Nat)
      (trace : List (Database × RenewalCall)), Upgrade.Upgradable db →
      db.processInitialUpgrade pricing upgrade = some (start, planId) →
      Run (Calls pricing planId) start trace final → Paced upgrade trace →
      upgrade.RenewsConsecutively planId final := by
  intro always
  have run : Run (Calls plainPricing 0) (afterUpgrade false)
      [(afterUpgrade false, .invoices [⟨0, .paid⟩]), (invoicePaid, .endOfCycle trialEnd),
        (atTrialEnd invoicePaid, .endOfCycle trialEnd)] (atTrialEnd (atTrialEnd invoicePaid)) :=
    .step (.step (.step .refl (.invoices _)) (calls_atTrialEnd (by decide +kernel)))
      (calls_atTrialEnd (by decide +kernel))
  have paced : Paced (trialUpgrade false)
      [(afterUpgrade false, .invoices [⟨0, .paid⟩]), (invoicePaid, .endOfCycle trialEnd),
        (atTrialEnd invoicePaid, .endOfCycle trialEnd)] := by
    simp only [Paced, List.filterMap_cons, RenewalCall.eventTime, List.filterMap_nil]
    decide +kernel
  have consecutively :=
    always _ _ _ _ _ _ _ newCustomer_upgradable (afterUpgrade_eq false) run paced
  have again : ((atTrialEnd (atTrialEnd invoicePaid)).plans.get? 0).any (fun plan =>
      plan.billingCycleAnchor ∈ (trialUpgrade false).paidRenewals
        (atTrialEnd (atTrialEnd invoicePaid)) 0) = true := by
    decide +kernel
  obtain ⟨plan, found, renewed⟩ := (Option.any_eq_true _ _).mp again
  exact consecutively.paidOnce rfl plan found (of_decide_eq_true renewed)

end Zulip.Billing
