import Zulip.Foundation.Dict
import Zulip.Billing.Calendar

/-!
# Plans and the license ledger

The tables of the billing system for one customer, and `make_end_of_cycle_updates_if_needed`.
A function that raises an error returns `none`.
-/

namespace Zulip.Billing

/-! ## Tables -/

/-- `CustomerPlan.BILLING_SCHEDULES`. -/
inductive BillingSchedule where
  | annual
  | monthly
deriving DecidableEq, Repr

/-- The table `months_per_period`. -/
def BillingSchedule.monthsPerPeriod : BillingSchedule → Nat
  | .annual => 12
  | .monthly => 1

theorem BillingSchedule.monthsPerPeriod_pos (schedule : BillingSchedule) :
    0 < schedule.monthsPerPeriod := by
  cases schedule <;> decide

/-- The invoicing statuses of a plan. -/
inductive InvoicingStatus where
  | done
  | started
  | initialInvoiceToBeSent
deriving DecidableEq, Repr

/-- The statuses of a plan. -/
inductive PlanStatus where
  | active
  | downgradeAtEndOfCycle
  | freeTrial
  | switchToAnnualAtEndOfCycle
  | switchPlanTierNow
  | switchToMonthlyAtEndOfCycle
  | downgradeAtEndOfFreeTrial
  | switchPlanTierAtPlanEnd
  | ended
  | neverStarted
deriving DecidableEq, Repr

/-- `status < CustomerPlan.LIVE_STATUS_THRESHOLD`. -/
def PlanStatus.isLive : PlanStatus → Bool
  | .ended | .neverStarted => false
  | _ => true

/-- The tiers of a plan. -/
inductive Tier where
  | cloudStandard
  | cloudPlus
  | cloudCommunity
  | cloudEnterprise
  | selfHostedBase
  | selfHostedLegacy
  | selfHostedCommunity
  | selfHostedBasic
  | selfHostedBusiness
  | selfHostedEnterprise
deriving DecidableEq, Repr

/-- `CustomerPlan.PAID_PLAN_TIERS`. -/
def paidPlanTiers : List Tier :=
  [.cloudStandard, .cloudPlus, .selfHostedBasic, .selfHostedBusiness, .selfHostedEnterprise]

/-- A `CustomerPlan`. -/
structure CustomerPlan where
  automanageLicenses : Bool
  chargeAutomatically : Bool
  pricePerLicense : Option Nat
  fixedPrice : Option Nat
  billingCycleAnchor : DateTime
  billingSchedule : BillingSchedule
  nextInvoiceDate : Option DateTime
  invoiceOverdueEmailSent : Bool
  /-- The id of a ledger entry. -/
  invoicedThrough : Option Nat
  endDate : Option DateTime
  invoicingStatus : InvoicingStatus
  tier : Tier
  status : PlanStatus
deriving DecidableEq

namespace CustomerPlan

/-- `is_free_trial`. -/
def isFreeTrial (plan : CustomerPlan) : Bool := plan.status = .freeTrial

/-- `is_a_paid_plan`. -/
def isAPaidPlan (plan : CustomerPlan) : Bool := plan.tier ∈ paidPlanTiers

/-- `start_of_next_billing_cycle`. -/
def startOfNextBillingCycle (plan : CustomerPlan) (eventTime : DateTime) : DateTime :=
  DateTime.nextBoundary plan.billingCycleAnchor plan.billingSchedule.monthsPerPeriod eventTime

/-- The module function `next_invoice_date`; it raises an error for a plan that is not ended and
has no date. -/
def nextInvoiceDateAfter (plan : CustomerPlan) : Option (Option DateTime) :=
  if plan.status = .ended then some none
  else plan.nextInvoiceDate.map fun dt => some (DateTime.nextBoundary plan.billingCycleAnchor 1 dt)

/-- `get_plan_renewal_or_end_date`. -/
def getPlanRenewalOrEndDate (plan : CustomerPlan) (eventTime : DateTime) : DateTime :=
  let billingPeriodEnd := plan.startOfNextBillingCycle eventTime
  match plan.endDate with
  | some endDate => if endDate < billingPeriodEnd then endDate else billingPeriodEnd
  | none => billingPeriodEnd

end CustomerPlan

/-- A `LicenseLedger` row. -/
structure LicenseLedger where
  id : Nat
  planId : Nat
  isRenewal : Bool
  eventTime : DateTime
  licenses : Nat
  licensesAtNextRenewal : Option Nat
deriving DecidableEq

/-- The statuses of an `Invoice`. -/
inductive InvoiceStatus where
  | sent
  | paid
  | void
deriving DecidableEq, Repr

/-- An `Invoice` row. -/
structure Invoice where
  planId : Nat
  status : InvoiceStatus
deriving DecidableEq, Repr

/-- A `Customer`. -/
structure Customer where
  stripeCustomerId : Option String
  exemptFromLicenseNumberCheck : Bool
  flatDiscount : Nat
  flatDiscountedMonths : Nat
deriving DecidableEq, Repr

/-- The rows of one customer. The ledger and the invoices are in the order of their ids. -/
structure Database where
  customer : Customer
  plans : Dict Nat CustomerPlan
  ledger : List LicenseLedger
  invoices : List Invoice

/-- What the billing functions take from elsewhere. -/
structure Pricing where
  /-- `get_price_per_license_and_discount`. -/
  pricePerLicense : Tier → BillingSchedule → Nat
  /-- `int(price_per_license * fraction + 0.5)` for the fraction of a period that two pairs of
  dates make up, in floating point. -/
  prorate : Nat → DateTime × DateTime → DateTime × DateTime → Int
  /-- `get_amount_due_fixed_price_plan`, in floating point for a monthly plan. -/
  amountDueFixedPrice : Nat → BillingSchedule → Int
  /-- Whether `self` is a session of a self-hosted server. -/
  isSelfHostedBilling : Bool

namespace Database

/-! ## Queries -/

/-- The ledger entries of a plan, by id. -/
def entriesOf (db : Database) (planId : Nat) : List LicenseLedger :=
  db.ledger.filter fun entry => entry.planId = planId

/-- The latest renewal entry of a plan. -/
def lastLedgerRenewal (db : Database) (planId : Nat) : Option LicenseLedger :=
  ((db.entriesOf planId).filter fun entry => entry.isRenewal).getLast?

/-- The latest ledger entry of a plan that is not after a time. -/
def lastLedgerEntry (db : Database) (planId : Nat) (eventTime : DateTime) :
    Option LicenseLedger :=
  ((db.entriesOf planId).filter fun entry => entry.eventTime ≤ eventTime).getLast?

/-- The latest invoice of a plan. -/
def lastSentInvoice (db : Database) (planId : Nat) : Option Invoice :=
  (db.invoices.filter fun invoice => invoice.planId = planId).getLast?

/-- An id that no row of the ledger has. -/
def nextLedgerId (db : Database) : Nat := (db.ledger.map fun entry => entry.id + 1).foldl max 0

/-- An id that no plan has. -/
def nextPlanId (db : Database) : Nat := (db.plans.keys.map (· + 1)).foldl max 0

/-! ## Statements -/

/-- `plan.save`. -/
def savePlan (db : Database) (planId : Nat) (plan : CustomerPlan) : Database :=
  { db with plans := db.plans.set planId plan }

/-- The row that `LicenseLedger.objects.create` makes. -/
def newEntry (db : Database) (planId : Nat) (isRenewal : Bool) (eventTime : DateTime)
    (licenses : Nat) (licensesAtNextRenewal : Option Nat) : LicenseLedger where
  id := db.nextLedgerId
  planId := planId
  isRenewal := isRenewal
  eventTime := eventTime
  licenses := licenses
  licensesAtNextRenewal := licensesAtNextRenewal

/-- Insert a ledger row. -/
def addEntry (db : Database) (entry : LicenseLedger) : Database :=
  { db with ledger := db.ledger ++ [entry] }

/-- `process_downgrade`, which also changes the type of the realm or server. -/
def processDowngrade (db : Database) (planId : Nat) (plan : CustomerPlan) : Database :=
  db.savePlan planId { plan with status := .ended }

/-- `downgrade_now_without_creating_additional_invoices`. -/
def downgradeNowWithoutCreatingAdditionalInvoices (db : Database) (planId : Nat)
    (plan : CustomerPlan) : Database :=
  db.savePlan planId
    { plan with
      status := .ended
      invoicedThrough := (db.entriesOf planId).getLast?.map (·.id)
      nextInvoiceDate := none }

/-! ## The end of a billing cycle -/

/-- `get_next_billing_cycle`. -/
def getNextBillingCycle (db : Database) (planId : Nat) (plan : CustomerPlan) :
    Option DateTime := do
  let nextBillingCycle ←
    match plan.status with
    | .freeTrial | .downgradeAtEndOfFreeTrial | .neverStarted => plan.nextInvoiceDate
    | .switchPlanTierAtPlanEnd => plan.endDate
    | _ => (db.lastLedgerRenewal planId).map fun renewal =>
        plan.startOfNextBillingCycle renewal.eventTime
  match plan.endDate with
  | some endDate => some (min nextBillingCycle endDate)
  | none => some nextBillingCycle

/-- The part that the two switches of the billing schedule share: the plan ends, and a new plan
with the other schedule starts with a renewal. -/
def switchBillingSchedule (pricing : Pricing) (db : Database) (planId : Nat) (plan : CustomerPlan)
    (billingSchedule : BillingSchedule) (nextBillingCycle : DateTime) (licenses : Nat) :
    Database × Option (Nat × CustomerPlan) × Option LicenseLedger :=
  let db := db.savePlan planId { plan with status := .ended }
  let newPlanId := db.nextPlanId
  let newPlan : CustomerPlan :=
    { automanageLicenses := plan.automanageLicenses
      chargeAutomatically := plan.chargeAutomatically
      pricePerLicense := some (pricing.pricePerLicense plan.tier billingSchedule)
      fixedPrice := none
      billingCycleAnchor := nextBillingCycle
      billingSchedule := billingSchedule
      nextInvoiceDate := some nextBillingCycle
      invoiceOverdueEmailSent := false
      invoicedThrough := none
      endDate := none
      invoicingStatus := .initialInvoiceToBeSent
      tier := plan.tier
      status := .active }
  let db := db.savePlan newPlanId newPlan
  let entry := db.newEntry newPlanId true nextBillingCycle licenses (some licenses)
  (db.addEntry entry, some (newPlanId, newPlan), some entry)

/-- The branch of a free trial that ends and is paid for, by card or by the invoice. -/
def startPaidPeriod (db : Database) (planId : Nat) (plan : CustomerPlan)
    (lastEntry : LicenseLedger) (isRenewal : Bool) (nextBillingCycle : DateTime)
    (licenses : Nat) : Database × LicenseLedger :=
  let db := db.savePlan planId
    { plan with
      invoicedThrough := some lastEntry.id
      billingCycleAnchor := nextBillingCycle.replaceMicrosecond
      status := .active }
  let entry := db.newEntry planId isRenewal nextBillingCycle licenses (some licenses)
  (db.addEntry entry, entry)

/-- The new plan that a plan switches to at its end, with the renewal entry that starts it. -/
def switchPlanTier (db : Database) (planId : Nat) (plan : CustomerPlan)
    (nextBillingCycle : DateTime) (licenses : Nat) : Option (Database × LicenseLedger) := do
  let db := db.savePlan planId { plan with status := .ended }
  let endDate ← plan.endDate
  match db.plans.entries.filter fun other =>
      other.2.billingCycleAnchor = endDate && other.2.status = .neverStarted with
  | [(newPlanId, newPlan)] =>
    let db := db.savePlan newPlanId { newPlan with status := .active }
    let entry := db.newEntry newPlanId true nextBillingCycle licenses (some licenses)
    some (db.addEntry entry, entry)
  | _ => none

/-- The branches of `make_end_of_cycle_updates_if_needed` that end a plan. -/
def endPlan (db : Database) (planId : Nat) (plan : CustomerPlan) : Database :=
  match plan.status with
  | .downgradeAtEndOfFreeTrial => db.downgradeNowWithoutCreatingAdditionalInvoices planId plan
  | .downgradeAtEndOfCycle => db.processDowngrade planId plan
  | _ => db

/-- `make_end_of_cycle_updates_if_needed`: the new plan, if the customer has one now, and a
ledger entry. -/
def makeEndOfCycleUpdatesIfNeeded (pricing : Pricing) (db : Database) (planId : Nat)
    (eventTime : DateTime) :
    Option (Database × Option (Nat × CustomerPlan) × Option LicenseLedger) := do
  let plan ← db.plans.get? planId
  let nextBillingCycle ← db.getNextBillingCycle planId plan
  match db.lastLedgerEntry planId eventTime with
  | none => some (db, none, none)
  | some lastEntry =>
    if nextBillingCycle ≤ eventTime then
      let licenses ← lastEntry.licensesAtNextRenewal
      if plan.endDate = some nextBillingCycle ∧ plan.status = .active then
        some (db.processDowngrade planId plan, none, none)
      else
        match plan.status with
        | .active =>
          let entry := db.newEntry planId true nextBillingCycle licenses (some licenses)
          some (db.addEntry entry, none, some entry)
        | .freeTrial =>
          if plan.chargeAutomatically then
            let started := db.startPaidPeriod planId plan lastEntry true nextBillingCycle licenses
            some (started.1, none, some started.2)
          else if (db.lastSentInvoice planId).map (·.status) = some .paid then
            let started := db.startPaidPeriod planId plan lastEntry false nextBillingCycle licenses
            some (started.1, none, some started.2)
          else
            -- The recursive call finds the same date and entry, and the new status.
            let plan := { plan with status := .downgradeAtEndOfFreeTrial }
            some ((db.savePlan planId plan).endPlan planId plan, none, none)
        | .switchPlanTierAtPlanEnd =>
          let switched ← db.switchPlanTier planId plan nextBillingCycle licenses
          some (switched.1, none, some switched.2)
        | .switchToAnnualAtEndOfCycle =>
          if plan.fixedPrice.isSome then none
          else some (db.switchBillingSchedule pricing planId plan .annual nextBillingCycle licenses)
        | .switchToMonthlyAtEndOfCycle =>
          if plan.fixedPrice.isSome then none
          else some (db.switchBillingSchedule pricing planId plan .monthly nextBillingCycle licenses)
        | _ => some (db.endPlan planId plan, none, none)
    else some (db, none, some lastEntry)

end Database

end Zulip.Billing
