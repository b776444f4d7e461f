import Zulip.Billing.Invoice

/-!
# Upgrades and license changes

`process_initial_upgrade` and the functions that add license changes to the ledger of a plan.
-/

namespace Zulip.Billing

/-- `CustomerPlan.FIXED_PRICE_PLAN_DURATION_MONTHS`. -/
def fixedPricePlanDurationMonths : Nat := 12

/-- The arguments of `process_initial_upgrade`, and what it reads besides the tables. No plan of
the customer is a legacy plan. -/
structure Upgrade where
  planTier : Tier
  licenses : Nat
  automanageLicenses : Bool
  billingSchedule : BillingSchedule
  chargeAutomatically : Bool
  /-- The days of the free trial, when `free_trial` is set. -/
  freeTrialDays : Option Nat
  stripeInvoicePaid : Bool
  now : DateTime
  /-- `get_billable_licenses_for_customer`. -/
  currentLicensesCount : Nat
  /-- The price of the fixed price offer of the customer. -/
  fixedPriceOffer : Option Nat
  /-- A free trial is offered only for a number of days other than zero. -/
  trialOffered : ∀ days, freeTrialDays = some days → 0 < days
  /-- `do_upgrade` gives no free trial to a customer with a fixed price offer. -/
  noTrialForOffer : fixedPriceOffer.isSome → freeTrialDays = none
  /-- A plan is upgraded once its invoice is paid, unless it starts with a free trial. -/
  paidUnlessTrial : stripeInvoicePaid = freeTrialDays.isNone

namespace Upgrade

/-- The `billing_cycle_anchor` that `compute_plan_parameters` returns. -/
def billingCycleAnchor (upgrade : Upgrade) : DateTime := upgrade.now.replaceMicrosecond

/-- The `next_invoice_date` that `compute_plan_parameters` returns. -/
def nextInvoiceDate (upgrade : Upgrade) : DateTime :=
  match upgrade.freeTrialDays with
  | some days => upgrade.billingCycleAnchor.addDays days
  | none => upgrade.billingCycleAnchor.addMonths 1

/-- The plan that is created. -/
def plan (upgrade : Upgrade) (pricing : Pricing) : CustomerPlan where
  automanageLicenses := upgrade.automanageLicenses
  chargeAutomatically := upgrade.chargeAutomatically
  pricePerLicense :=
    if upgrade.fixedPriceOffer.isSome then none
    else some (pricing.pricePerLicense upgrade.planTier upgrade.billingSchedule)
  fixedPrice := upgrade.fixedPriceOffer
  billingCycleAnchor := upgrade.billingCycleAnchor
  billingSchedule := upgrade.billingSchedule
  nextInvoiceDate := some upgrade.nextInvoiceDate
  invoiceOverdueEmailSent := false
  invoicedThrough := none
  endDate := upgrade.fixedPriceOffer.map fun _ =>
    upgrade.billingCycleAnchor.addMonths fixedPricePlanDurationMonths
  invoicingStatus := .done
  tier := upgrade.planTier
  status := if upgrade.freeTrialDays.isSome then .freeTrial else .active

end Upgrade

namespace Database

/-- The entry and the invoice for the licenses that are in use beyond those that are paid. -/
def invoiceAdditionalLicenses (pricing : Pricing) (db : Database) (upgrade : Upgrade)
    (planId : Nat) : Option Database :=
  let billedLicenses := max upgrade.currentLicensesCount upgrade.licenses
  if upgrade.stripeInvoicePaid ∧ billedLicenses ≠ upgrade.licenses ∧
      ¬db.customer.exemptFromLicenseNumberCheck ∧ upgrade.fixedPriceOffer = none then
    let entry := db.newEntry planId false upgrade.billingCycleAnchor billedLicenses
      (some billedLicenses)
    ((db.addEntry entry).invoicePlan pricing planId upgrade.billingCycleAnchor).map (·.1)
  else some db

/-- `process_initial_upgrade`; it returns the id of the plan as well. -/
def processInitialUpgrade (pricing : Pricing) (db : Database) (upgrade : Upgrade) :
    Option (Database × Nat) := do
  let planId := db.nextPlanId
  let entry := db.newEntry planId true upgrade.billingCycleAnchor upgrade.licenses
    (some upgrade.licenses)
  let plan := { upgrade.plan pricing with invoicedThrough := some entry.id }
  let db ← ((db.addEntry entry).savePlan planId plan).invoiceAdditionalLicenses pricing upgrade
    planId
  if upgrade.freeTrialDays.isSome ∧ ¬upgrade.chargeAutomatically then
    some ({ db with invoices := db.invoices ++ [⟨planId, .sent⟩] }, planId)
  else some (db, planId)

/-- The plan that `get_next_plan` finds for a plan that switches its tier at its end. -/
def getNextPlan (db : Database) (plan : CustomerPlan) : Option CustomerPlan := do
  let endDate ← plan.endDate
  let found ← db.plans.entries.find? fun other =>
    other.2.billingCycleAnchor = endDate && other.2.status = .neverStarted
  some found.2

/-- The licenses at the next renewal, for the tier of the plan that will be renewed. -/
def licensesAtNextRenewal (billableLicenses : Tier → Nat) (db : Database) (plan : CustomerPlan) :
    Option Nat :=
  if plan.status = .switchPlanTierAtPlanEnd then
    (db.getNextPlan plan).map fun nextPlan => billableLicenses nextPlan.tier
  else some (billableLicenses plan.tier)

/-- `update_license_ledger_for_automanaged_plan`; `billableLicenses` is what
`get_billable_licenses_for_customer` returns for a tier. It returns the id of the plan that the
customer is on, unless the plan has ended. -/
def updateLicenseLedgerForAutomanagedPlan (pricing : Pricing) (billableLicenses : Tier → Nat)
    (db : Database) (planId : Nat) (eventTime : DateTime) : Option (Database × Option Nat) := do
  let (db, newPlan, lastEntry) ← db.makeEndOfCycleUpdatesIfNeeded pricing planId eventTime
  match lastEntry with
  | none => some (db, none)
  | some lastEntry =>
    let planId := (newPlan.map (·.1)).getD planId
    let plan ← db.plans.get? planId
    let licensesAtNextRenewal ← db.licensesAtNextRenewal billableLicenses plan
    let licenses := max (billableLicenses plan.tier) lastEntry.licenses
    let entry := db.newEntry planId false eventTime licenses (some licensesAtNextRenewal)
    some (db.addEntry entry, some planId)

/-- `get_current_plan_by_customer`. -/
def getCurrentPlan (db : Database) : Option (Nat × CustomerPlan) :=
  db.plans.entries.find? fun entry => entry.2.status.isLive

/-- `update_license_ledger_if_needed` for a realm. -/
def updateLicenseLedgerIfNeeded (pricing : Pricing) (billableLicenses : Tier → Nat)
    (db : Database) (eventTime : DateTime) : Option Database :=
  match db.getCurrentPlan with
  | none => some db
  | some (planId, plan) =>
    if plan.automanageLicenses then
      (db.updateLicenseLedgerForAutomanagedPlan pricing billableLicenses planId eventTime).map (·.1)
    else some db

/-- `update_license_ledger_for_manual_plan`, with the licenses that are in use and the licenses
that are billable for the next renewal. -/
def updateLicenseLedgerForManualPlan (licensesInUse billable : Nat) (db : Database) (planId : Nat)
    (eventTime : DateTime) (licenses licensesAtNextRenewal : Option Nat) : Option Database := do
  let lastEntry ← (db.entriesOf planId).getLast?
  match licenses, licensesAtNextRenewal with
  | some licenses, _ =>
    if ¬db.customer.exemptFromLicenseNumberCheck ∧ licenses < licensesInUse then none
    else if licenses ≤ lastEntry.licenses then none
    else some (db.addEntry (db.newEntry planId false eventTime licenses (some licenses)))
  | none, some atNextRenewal =>
    if atNextRenewal < billable then none
    else some (db.addEntry
      (db.newEntry planId false eventTime lastEntry.licenses (some atNextRenewal)))
  | none, none => none

end Database

end Zulip.Billing
