import Zulip.Billing.Plan

/-!
# Invoicing a plan

`invoice_plan`, and the loop of `invoice_plans_as_needed` over one plan. The calls to Stripe
succeed; what they create is the output of a run.
-/

namespace Zulip.Billing

/-- The arguments of an invoice item that say what is paid. -/
inductive PriceArgs where
  | amount (amount : Int)
  | quantity (unitAmount quantity : Int)
deriving DecidableEq, Repr

/-- The description of an invoice item. -/
inductive Description where
  | renewal
  | additionalLicense (start stop : DateTime)
  | newCustomerDiscount
deriving DecidableEq

/-- An invoice item. The ledger entry is named by the idempotency key. -/
structure InvoiceItem where
  ledgerEntry : Option Nat
  description : Description
  period : DateTime × DateTime
  price : PriceArgs
deriving DecidableEq

/-- `collection_method` of an invoice. -/
inductive CollectionMethod where
  | chargeAutomatically
  | sendInvoice
deriving DecidableEq, Repr

/-- What a run of `invoice_plan` creates at Stripe. -/
structure StripeRequests where
  items : List InvoiceItem
  invoice : Option CollectionMethod
deriving DecidableEq

/-- The variables of the loop over the ledger entries. -/
structure LoopState where
  plan : CustomerPlan
  licensesBase : Option Nat
  items : List InvoiceItem

namespace Database

/-- The query of the loop: the entries of the plan after `invoicedThrough` that are not after
the event time. `none` stands for the id `-1`. -/
def entriesToInvoice (db : Database) (planId : Nat) (invoicedThrough : Option Nat)
    (eventTime : DateTime) : List LicenseLedger :=
  (db.entriesOf planId).filter fun entry =>
    invoicedThrough.all (· < entry.id) && entry.eventTime ≤ eventTime

/-- The latest renewal entry of the plan that is not after a time. -/
def lastRenewalBefore (db : Database) (planId : Nat) (eventTime : DateTime) :
    Option LicenseLedger :=
  ((db.entriesOf planId).filter fun entry =>
    entry.isRenewal && entry.eventTime ≤ eventTime).getLast?

/-- `price_args` and `description` of an entry; `some none` when there is nothing to pay. -/
def priceArgs (pricing : Pricing) (db : Database) (planId : Nat) (plan : CustomerPlan)
    (licensesBase : Option Nat)
    (entry : LicenseLedger) : Option (Option (PriceArgs × Description)) :=
  if entry.isRenewal then
    match plan.fixedPrice with
    | some fixedPrice =>
      some (some (.amount (pricing.amountDueFixedPrice fixedPrice plan.billingSchedule), .renewal))
    | none => plan.pricePerLicense.map fun price =>
        some (.quantity price entry.licenses, .renewal)
  else
    match plan.fixedPrice, licensesBase with
    | none, some base =>
      if entry.licenses ≠ base then do
        let price ← plan.pricePerLicense
        let lastRenewal ← db.lastRenewalBefore planId entry.eventTime
        let billingPeriodEnd := plan.startOfNextBillingCycle entry.eventTime
        let renewalOrEndDate := plan.getPlanRenewalOrEndDate entry.eventTime
        let unitAmount :=
          if plan.isFreeTrial then (price : Int)
          else pricing.prorate price (entry.eventTime, renewalOrEndDate)
            (lastRenewal.eventTime, billingPeriodEnd)
        some (some (.quantity unitAmount (entry.licenses - base),
          .additionalLicense entry.eventTime renewalOrEndDate))
      else some none
    | _, _ => some none

/-- The body of the loop. -/
def invoiceEntry (pricing : Pricing) (db : Database) (planId : Nat) (state : LoopState)
    (entry : LicenseLedger) : Option LoopState := do
  let price ← db.priceArgs pricing planId state.plan state.licensesBase entry
  let state :=
    match price with
    | some (priceArgs, description) =>
      let plan :=
        { state.plan with invoicedThrough := some entry.id, invoicingStatus := .started }
      let item : InvoiceItem :=
        { ledgerEntry := some entry.id
          description := description
          period := (entry.eventTime, plan.getPlanRenewalOrEndDate entry.eventTime)
          price := priceArgs }
      { state with plan := plan, items := state.items ++ [item] }
    | none => state
  some { state with
    plan := { state.plan with invoicedThrough := some entry.id, invoicingStatus := .done }
    licensesBase := some entry.licenses }

/-- `get_flat_discount_info` of the customer of a plan. -/
def getFlatDiscountInfo (pricing : Pricing) (customer : Customer) : Nat × Nat :=
  if pricing.isSelfHostedBilling && 0 < customer.flatDiscountedMonths then
    (customer.flatDiscount, customer.flatDiscountedMonths)
  else (0, 0)

/-- The part of `invoice_plan` after the loop: the discount of a new customer and the invoice. -/
def createInvoice (pricing : Pricing) (db : Database) (plan : CustomerPlan)
    (items : List InvoiceItem) : Database × StripeRequests :=
  match items.getLast? with
  | none => (db, ⟨[], none⟩)
  | some lastItem =>
    let collectionMethod :=
      if plan.chargeAutomatically then CollectionMethod.chargeAutomatically else .sendInvoice
    let flat := getFlatDiscountInfo pricing db.customer
    if plan.fixedPrice = none ∧ 0 < flat.2 then
      let months := min flat.2 plan.billingSchedule.monthsPerPeriod
      let discount : InvoiceItem :=
        { ledgerEntry := none
          description := .newCustomerDiscount
          period := lastItem.period
          price := .amount (-1 * (flat.1 * months : Nat)) }
      let customer :=
        { db.customer with flatDiscountedMonths := db.customer.flatDiscountedMonths - months }
      ({ db with customer := customer }, ⟨items ++ [discount], some collectionMethod⟩)
    else (db, ⟨items, some collectionMethod⟩)

/-- `invoiced_through_id` and `licenses_base` before the loop. -/
def invoicingStart (db : Database) (plan : CustomerPlan) : Option (Option Nat × Option Nat) :=
  if plan.invoicingStatus = .initialInvoiceToBeSent then some (none, none)
  else do
    let invoicedThrough ← plan.invoicedThrough
    let entry ← db.ledger.find? fun entry => entry.id = invoicedThrough
    some (some invoicedThrough, some entry.licenses)

/-- The part of `invoice_plan` for a paid plan. -/
def invoiceEntries (pricing : Pricing) (db : Database) (planId : Nat) (plan : CustomerPlan)
    (eventTime : DateTime) : Option (Database × CustomerPlan × StripeRequests) := do
  let start ← db.invoicingStart plan
  let entries := db.entriesToInvoice planId start.1 eventTime
  let final ← entries.foldlM (db.invoiceEntry pricing planId)
    ⟨plan, start.2, []⟩
  let created := db.createInvoice pricing final.plan final.items
  some (created.1, final.plan, created.2)

/-- The end of the cycle in `invoice_plan`; a switch of the tier has updated the plan itself. -/
def endCycleBeforeInvoice (pricing : Pricing) (db : Database) (planId : Nat) (plan : CustomerPlan)
    (eventTime : DateTime) : Option Database :=
  if plan.status ≠ .switchPlanTierNow then
    (db.makeEndOfCycleUpdatesIfNeeded pricing planId eventTime).map (·.1)
  else some db

/-- The part of `invoice_plan` that creates invoices, which does so for a paid plan. -/
def invoiceIfPaid (pricing : Pricing) (db : Database) (planId : Nat) (plan : CustomerPlan)
    (eventTime : DateTime) : Option (Database × CustomerPlan × StripeRequests) :=
  if plan.isAPaidPlan then db.invoiceEntries pricing planId plan eventTime
  else some (db, plan, ⟨[], none⟩)

/-- `invoice_plan`. -/
def invoicePlan (pricing : Pricing) (db : Database) (planId : Nat) (eventTime : DateTime) :
    Option (Database × StripeRequests) := do
  let plan ← db.plans.get? planId
  if plan.invoicingStatus = .started then none
  else if plan.tier ≠ .selfHostedLegacy ∧ (db.customer.stripeCustomerId.getD "").isEmpty then none
  else
    let db ← db.endCycleBeforeInvoice pricing planId plan eventTime
    let plan ← db.plans.get? planId
    let (db, plan, requests) ← db.invoiceIfPaid pricing planId plan eventTime
    let nextInvoiceDate ← plan.nextInvoiceDateAfter
    some (db.savePlan planId
      { plan with nextInvoiceDate := nextInvoiceDate, invoiceOverdueEmailSent := false }, requests)

/-! ## The loop of the cron job -/

/-- The check in `invoice_plans_as_needed` that skips the plan of a remote server whose audit
logs are not up to date. -/
def skipsRemoteServer (plan : CustomerPlan) (lastAuditLogUpdate : Option DateTime) : Bool :=
  let freePlanWithNoNextPlan := !plan.isAPaidPlan && plan.status = .active
  let freeTrialPayByInvoicePlan := plan.isFreeTrial && !plan.chargeAutomatically
  !freePlanWithNoNextPlan &&
    (match lastAuditLogUpdate, plan.nextInvoiceDate with
      | none, _ => true
      | some update, some date => update < date
      | some _, none => false) &&
    !freeTrialPayByInvoicePlan

/-- The `while` loop of `invoice_plans_as_needed`; `fuel` bounds the runs. -/
def invoiceWhileDue (pricing : Pricing) (planId : Nat) (eventTime : DateTime) :
    Nat → Database → Option (Database × List StripeRequests)
  | 0, db => some (db, [])
  | fuel + 1, db => do
    let plan ← db.plans.get? planId
    match plan.nextInvoiceDate with
    | none => some (db, [])
    | some date =>
      if date ≤ eventTime then
        let invoiced ← db.invoicePlan pricing planId date
        let rest ← invoiceWhileDue pricing planId eventTime fuel invoiced.1
        some (rest.1, invoiced.2 :: rest.2)
      else some (db, [])

end Database

end Zulip.Billing
