import Zulip.Foundation.Increasing
import Zulip.Billing.EndOfCycle

/-!
# The loop of `invoice_plan`

What one ledger entry does to the variables of the loop, what the whole loop does, and which
rows a run of `invoice_plan` leaves alone.
-/

namespace Zulip.Billing

/-- The ledger entry and the quantity of an item that is charged by license. -/
def InvoiceItem.charge? (item : InvoiceItem) : Option (Nat × Int) :=
  match item.ledgerEntry, item.price with
  | some entry, .quantity _ quantity => some (entry, quantity)
  | _, _ => none

/-- The charges among invoice items. -/
def charges (items : List InvoiceItem) : List (Nat × Int) := items.filterMap InvoiceItem.charge?

@[simp] theorem charges_nil : charges [] = [] := rfl

@[simp] theorem charges_append (first second : List InvoiceItem) :
    charges (first ++ second) = charges first ++ charges second :=
  List.filterMap_append

/-- What an entry is charged, given the licenses that are paid before it: all licenses of a
renewal, the difference of a later entry, nothing when there is none. -/
def chargeFor (licensesBase : Option Nat) (entry : LicenseLedger) : List (Nat × Int) :=
  if entry.isRenewal then [(entry.id, (entry.licenses : Int))]
  else
    match licensesBase with
    | some base =>
      if entry.licenses ≠ base then [(entry.id, (entry.licenses : Int) - base)] else []
    | none => []

/-- What consecutive entries are charged. -/
def chargesFor (licensesBase : Option Nat) : List LicenseLedger → List (Nat × Int)
  | [] => []
  | entry :: rest => chargeFor licensesBase entry ++ chargesFor (some entry.licenses) rest

/-- The plan after the entries of the loop. -/
def CustomerPlan.invoicedUpTo (plan : CustomerPlan) (entries : List LicenseLedger) : CustomerPlan :=
  match entries.getLast? with
  | some entry => { plan with invoicedThrough := some entry.id, invoicingStatus := .done }
  | none => plan

/-- The licenses that are paid after entries. -/
def licensesAfter (licensesBase : Option Nat) (entries : List LicenseLedger) : Option Nat :=
  match entries.getLast? with
  | some entry => some entry.licenses
  | none => licensesBase

@[simp] theorem licensesAfter_nil (licensesBase : Option Nat) :
    licensesAfter licensesBase [] = licensesBase := rfl

theorem licensesAfter_cons (licensesBase : Option Nat) (entry : LicenseLedger)
    (rest : List LicenseLedger) :
    licensesAfter licensesBase (entry :: rest) = licensesAfter (some entry.licenses) rest := by
  unfold licensesAfter
  cases rest with
  | nil => rfl
  | cons next others =>
    rw [List.getLast?_cons_cons, List.getLast?_eq_some_getLast (List.cons_ne_nil next others)]

/-- Charging a list of entries is charging its parts one after the other. -/
theorem chargesFor_append (licensesBase : Option Nat) (first second : List LicenseLedger) :
    chargesFor licensesBase (first ++ second) =
      chargesFor licensesBase first ++ chargesFor (licensesAfter licensesBase first) second := by
  induction first generalizing licensesBase with
  | nil => rfl
  | cons entry rest inductionHypothesis =>
    rw [List.cons_append, chargesFor, chargesFor, inductionHypothesis, List.append_assoc,
      licensesAfter_cons]

/-- The licenses that the charges of a cycle add up to. -/
def total (charges : List (Nat × Int)) : Int := (charges.map (·.2)).sum

@[simp] theorem total_nil : total [] = 0 := rfl

theorem total_append (first second : List (Nat × Int)) :
    total (first ++ second) = total first + total second := by
  simp [total]

/-- After the renewal of a cycle, the charges of its later entries add up to the licenses that
the last of them has more. -/
theorem total_chargesFor_later {base : Nat} {entries : List LicenseLedger}
    (later : ∀ entry ∈ entries, entry.isRenewal = false) :
    ∃ licenses, licensesAfter (some base) entries = some licenses ∧
      total (chargesFor (some base) entries) = (licenses : Int) - base := by
  induction entries generalizing base with
  | nil => exact ⟨base, rfl, by simp [chargesFor]⟩
  | cons entry rest inductionHypothesis =>
    obtain ⟨licenses, isLast, sum⟩ := @inductionHypothesis entry.licenses
      fun other member => later other (List.mem_cons_of_mem entry member)
    have notRenewal := later entry List.mem_cons_self
    refine ⟨licenses, by rw [licensesAfter_cons, isLast], ?_⟩
    rw [chargesFor, total_append, sum]
    by_cases differs : entry.licenses = base
    · simp [chargeFor, notRenewal, differs]
    · have charged : total (chargeFor (some base) entry) = (entry.licenses : Int) - base := by
        simp [chargeFor, notRenewal, differs, total]
      omega

/-- Within a cycle the billed quantities add up to the licenses of its last entry. -/
theorem total_chargesFor_cycle {licensesBase : Option Nat} {renewal : LicenseLedger}
    {entries : List LicenseLedger} (renews : renewal.isRenewal = true)
    (later : ∀ entry ∈ entries, entry.isRenewal = false) :
    ∃ licenses, licensesAfter licensesBase (renewal :: entries) = some licenses ∧
      total (chargesFor licensesBase (renewal :: entries)) = licenses := by
  obtain ⟨licenses, isLast, sum⟩ := @total_chargesFor_later renewal.licenses entries later
  refine ⟨licenses, by rw [licensesAfter_cons, isLast], ?_⟩
  have charged : total (chargeFor licensesBase renewal) = renewal.licenses := by
    simp [chargeFor, renews, total]
  rw [chargesFor, total_append, sum]
  omega

theorem licensesAfter_append (licensesBase : Option Nat) (first second : List LicenseLedger) :
    licensesAfter licensesBase (first ++ second) =
      licensesAfter (licensesAfter licensesBase first) second := by
  induction first generalizing licensesBase with
  | nil => rfl
  | cons entry rest inductionHypothesis =>
    rw [List.cons_append, licensesAfter_cons, licensesAfter_cons, inductionHypothesis]

/-- Only the entries themselves are charged. -/
theorem id_mem_of_chargesFor {licensesBase : Option Nat} {entries : List LicenseLedger}
    {charge : Nat × Int} (member : charge ∈ chargesFor licensesBase entries) :
    charge.1 ∈ entries.map (·.id) := by
  induction entries generalizing licensesBase with
  | nil => cases member
  | cons entry rest inductionHypothesis =>
    rw [chargesFor, List.mem_append] at member
    rw [List.map_cons, List.mem_cons]
    rcases member with own | later
    · left
      unfold chargeFor at own
      split at own
      · rw [List.mem_singleton.mp own]
      · split at own
        · split at own
          · rw [List.mem_singleton.mp own]
          · cases own
        · cases own
    · exact .inr (inductionHypothesis later)

/-- The charges of a part of a ledger are those with the ids of the part. -/
theorem filter_chargesFor {licensesBase : Option Nat} {before part after : List LicenseLedger}
    (increasing : Increasing (·.id) (before ++ part ++ after)) :
    ((chargesFor licensesBase (before ++ part ++ after)).filter fun charge =>
        charge.1 ∈ part.map (·.id)) =
      chargesFor (licensesAfter licensesBase before) part := by
  obtain ⟨frontIncreasing, -, partBelow⟩ := Increasing.append.mp increasing
  obtain ⟨-, -, beforeBelow⟩ := Increasing.append.mp frontIncreasing
  rw [chargesFor_append, chargesFor_append, List.filter_append, List.filter_append]
  have noneBefore : (chargesFor licensesBase before).filter (fun charge =>
      charge.1 ∈ part.map (·.id)) = [] := by
    rw [List.filter_eq_nil_iff]
    intro charge member inPart
    obtain ⟨entry, isBefore, same⟩ := List.mem_map.mp (id_mem_of_chargesFor member)
    obtain ⟨other, isPart, sameOther⟩ := List.mem_map.mp (of_decide_eq_true inPart)
    have below := beforeBelow entry isBefore other isPart
    omega
  have allPart : (chargesFor (licensesAfter licensesBase before) part).filter (fun charge =>
      charge.1 ∈ part.map (·.id)) = chargesFor (licensesAfter licensesBase before) part := by
    rw [List.filter_eq_self]
    intro charge member
    exact decide_eq_true (id_mem_of_chargesFor member)
  have noneAfter : (chargesFor (licensesAfter licensesBase (before ++ part)) after).filter
      (fun charge => charge.1 ∈ part.map (·.id)) = [] := by
    rw [List.filter_eq_nil_iff]
    intro charge member inPart
    obtain ⟨entry, isAfter, same⟩ := List.mem_map.mp (id_mem_of_chargesFor member)
    obtain ⟨other, isPart, sameOther⟩ := List.mem_map.mp (of_decide_eq_true inPart)
    have below := partBelow other (List.mem_append_right _ isPart) entry isAfter
    omega
  rw [noneBefore, allPart, noneAfter, List.nil_append, List.append_nil]

namespace Database

/-! ## One entry -/

/-- One entry advances the plan and the paid licenses to itself, whatever it is charged. -/
theorem invoiceEntry_spec {pricing : Pricing} {db : Database} {planId : Nat}
    {state after : LoopState} {entry : LicenseLedger}
    (invoiced : db.invoiceEntry pricing planId state entry = some after) :
    after.plan = { state.plan with invoicedThrough := some entry.id, invoicingStatus := .done } ∧
      after.licensesBase = some entry.licenses ∧
      (state.plan.fixedPrice = none →
        charges after.items = charges state.items ++ chargeFor state.licensesBase entry) := by
  unfold invoiceEntry at invoiced
  rw [Option.bind_eq_bind, Option.bind_eq_some_iff] at invoiced
  obtain ⟨price, priced, invoiced⟩ := invoiced
  dsimp only at invoiced
  cases invoiced
  refine ⟨by cases price <;> rfl, by cases price <;> rfl, ?_⟩
  intro perLicense
  unfold priceArgs at priced
  unfold chargeFor
  split at priced
  case isTrue renewal =>
    simp only [perLicense, Option.map_eq_some_iff] at priced
    obtain ⟨unitAmount, -, rfl⟩ := priced
    simp [renewal, charges, InvoiceItem.charge?]
  case isFalse notRenewal =>
    rw [if_neg notRenewal]
    simp only [perLicense] at priced
    cases base : state.licensesBase with
    | none =>
      simp only [base, Option.some.injEq] at priced
      subst priced
      simp
    | some base' =>
      simp only [base] at priced
      split at priced
      case isTrue differs =>
        simp only [Option.bind_eq_bind, Option.bind_eq_some_iff, Option.some.injEq] at priced
        obtain ⟨unitAmount, -, lastRenewal, -, rfl⟩ := priced
        simp [differs, charges, InvoiceItem.charge?]
      case isFalse same =>
        simp only [Option.some.injEq] at priced
        subst priced
        simp [not_not.mp same]

/-! ## The loop -/

/-- The loop advances the plan to its last entry, and charges the entries one after the other. -/
theorem foldlM_invoiceEntry {pricing : Pricing} {db : Database} {planId : Nat}
    {entries : List LicenseLedger} {state final : LoopState}
    (looped : entries.foldlM (db.invoiceEntry pricing planId) state = some final) :
    final.plan = state.plan.invoicedUpTo entries ∧
      (state.plan.fixedPrice = none →
        charges final.items = charges state.items ++ chargesFor state.licensesBase entries) := by
  induction entries generalizing state with
  | nil =>
    cases looped
    exact ⟨rfl, fun _ => by simp [chargesFor]⟩
  | cons entry rest inductionHypothesis =>
    rw [List.foldlM_cons, Option.bind_eq_bind, Option.bind_eq_some_iff] at looped
    obtain ⟨between, invoiced, looped⟩ := looped
    obtain ⟨plan, licensesBase, charged⟩ := invoiceEntry_spec invoiced
    obtain ⟨finalPlan, finalCharges⟩ := inductionHypothesis looped
    constructor
    · rw [finalPlan, plan]
      unfold CustomerPlan.invoicedUpTo
      cases rest with
      | nil => rfl
      | cons next others =>
        rw [List.getLast?_cons_cons, List.getLast?_eq_some_getLast (List.cons_ne_nil next others)]
    · intro perLicense
      have betweenPerLicense : between.plan.fixedPrice = none := by rw [plan, perLicense]
      rw [finalCharges betweenPerLicense, charged perLicense, licensesBase, chargesFor,
        List.append_assoc]

/-! ## A run -/

@[simp] theorem createInvoice_plans (pricing : Pricing) (db : Database) (plan : CustomerPlan)
    (items : List InvoiceItem) : (db.createInvoice pricing plan items).1.plans = db.plans := by
  unfold createInvoice
  split
  · rfl
  · dsimp only
    split <;> rfl

@[simp] theorem createInvoice_ledger (pricing : Pricing) (db : Database) (plan : CustomerPlan)
    (items : List InvoiceItem) : (db.createInvoice pricing plan items).1.ledger = db.ledger := by
  unfold createInvoice
  split
  · rfl
  · dsimp only
    split <;> rfl

/-- The discount is not charged by license. -/
@[simp] theorem charges_createInvoice (pricing : Pricing) (db : Database) (plan : CustomerPlan)
    (items : List InvoiceItem) :
    charges (db.createInvoice pricing plan items).2.items = charges items := by
  unfold createInvoice
  split
  case h_1 empty =>
    rw [List.getLast?_eq_none_iff] at empty
    rw [empty]
  case h_2 =>
    dsimp only
    split
    · rw [charges_append]
      simp [charges, InvoiceItem.charge?]
    · rfl

/-- The entries that a run of `invoice_plan` goes through. -/
def processedEntries (pricing : Pricing) (db : Database) (planId : Nat) (eventTime : DateTime) :
    List LicenseLedger :=
  ((do
    let plan ← db.plans.get? planId
    let db ← db.endCycleBeforeInvoice pricing planId plan eventTime
    let plan ← db.plans.get? planId
    let start ← db.invoicingStart plan
    some (db.entriesToInvoice planId start.1 eventTime)) : Option (List LicenseLedger)).getD []

/-- Where a run finds the plan after the end of the cycle. -/
def AfterEndOfCycle (pricing : Pricing) (db : Database) (planId : Nat) (plan : CustomerPlan)
    (eventTime : DateTime) (after : Database) : Prop :=
  (plan.status = .switchPlanTierNow ∧ after = db) ∨
    ∃ newPlan entry, plan.status ≠ .switchPlanTierNow ∧
      CycleOutcome pricing db planId plan eventTime after newPlan entry

theorem endCycleBeforeInvoice_spec {pricing : Pricing} {db between : Database} {planId : Nat}
    {plan : CustomerPlan} {eventTime : DateTime} (found : db.plans.get? planId = some plan)
    (ended : db.endCycleBeforeInvoice pricing planId plan eventTime = some between) :
    AfterEndOfCycle pricing db planId plan eventTime between := by
  unfold endCycleBeforeInvoice at ended
  split at ended
  case isTrue other =>
    obtain ⟨⟨made, newPlan, entry⟩, isMade, rfl⟩ := Option.map_eq_some_iff.mp ended
    exact .inr ⟨newPlan, entry, other, makeEndOfCycleUpdatesIfNeeded_cases found isMade⟩
  case isFalse switching =>
    cases ended
    exact .inl ⟨not_not.mp switching, rfl⟩

/-- A run of `invoice_plan`: the updates at the end of the cycle, the loop for a paid plan, and
the next date. -/
theorem invoicePlan_spec {pricing : Pricing} {db after : Database} {planId : Nat}
    {plan : CustomerPlan} {eventTime : DateTime} {requests : StripeRequests}
    (found : db.plans.get? planId = some plan)
    (invoiced : db.invoicePlan pricing planId eventTime = some (after, requests)) :
    ∃ between current, AfterEndOfCycle pricing db planId plan eventTime between ∧
      between.plans.get? planId = some current ∧ after.ledger = between.ledger ∧
      ∃ processed nextDate overdue,
        after.plans = between.plans.set planId
          { current.invoicedUpTo processed with
            nextInvoiceDate := nextDate, invoiceOverdueEmailSent := overdue } ∧
        (current.invoicedUpTo processed).nextInvoiceDateAfter = some nextDate ∧
        ((current.isAPaidPlan = false ∧ processed = [] ∧ requests.items = []) ∨
          ∃ start, current.isAPaidPlan = true ∧ between.invoicingStart current = some start ∧
            processed = between.entriesToInvoice planId start.1 eventTime ∧
            processed = db.processedEntries pricing planId eventTime ∧
            (current.fixedPrice = none →
              charges requests.items = chargesFor start.2 processed)) := by
  unfold invoicePlan at invoiced
  rw [found, Option.bind_eq_bind, Option.bind_some] at invoiced
  split at invoiced
  · cases invoiced
  split at invoiced
  · cases invoiced
  rw [Option.bind_eq_bind, Option.bind_eq_some_iff] at invoiced
  obtain ⟨between, ended, invoiced⟩ := invoiced
  rw [Option.bind_eq_bind, Option.bind_eq_some_iff] at invoiced
  obtain ⟨current, currentFound, invoiced⟩ := invoiced
  rw [Option.bind_eq_bind, Option.bind_eq_some_iff] at invoiced
  obtain ⟨⟨looped, loopedPlan, loopedRequests⟩, loop, invoiced⟩ := invoiced
  dsimp only at invoiced
  rw [Option.bind_eq_some_iff] at invoiced
  obtain ⟨nextDate, next, invoiced⟩ := invoiced
  simp only [Option.some.injEq, Prod.mk.injEq] at invoiced
  obtain ⟨rfl, rfl⟩ := invoiced
  refine ⟨between, current, endCycleBeforeInvoice_spec found ended, currentFound, ?_⟩
  unfold invoiceIfPaid at loop
  split at loop
  case isTrue paid =>
    unfold invoiceEntries at loop
    rw [Option.bind_eq_bind, Option.bind_eq_some_iff] at loop
    obtain ⟨start, started, loop⟩ := loop
    dsimp only at loop
    rw [Option.bind_eq_bind, Option.bind_eq_some_iff] at loop
    obtain ⟨final, folded, loop⟩ := loop
    simp only [Option.some.injEq, Prod.mk.injEq] at loop
    obtain ⟨rfl, rfl, rfl⟩ := loop
    obtain ⟨finalPlan, finalCharges⟩ := foldlM_invoiceEntry folded
    dsimp only at finalPlan finalCharges
    refine ⟨by simp, _, nextDate, false, ?_, by rw [← finalPlan]; exact next,
      .inr ⟨start, paid, started, rfl, ?_, ?_⟩⟩
    · simp [← finalPlan]
    · unfold processedEntries
      simp only [found, ended, currentFound, started, Option.bind_eq_bind, Option.bind_some,
        Option.getD_some]
    · intro perLicense
      rw [charges_createInvoice, finalCharges perLicense, charges_nil, List.nil_append]
  case isFalse free =>
    cases loop
    refine ⟨rfl, [], nextDate, false, rfl, next, .inl ⟨by simpa using free, rfl, rfl⟩⟩

end Database

end Zulip.Billing
