import Mathlib.Data.List.Chain
import Zulip.Foundation.Transition
import Zulip.Foundation.Increasing
import Zulip.Billing.Renewals

/-!
# Runs of `invoice_plan`

A paid plan without a fixed price, from any ledger on. License changes and ends of cycles add
entries to the ledger at any time, and `invoice_plans_as_needed` runs `invoice_plan` at the next
invoice date of the plan.
-/

namespace Zulip.Billing

/-- The plan is in a free trial, and not paid yet. -/
def PlanStatus.isTrial : PlanStatus → Bool
  | .freeTrial | .downgradeAtEndOfFreeTrial => true
  | _ => false

/-- The ledger entry from which invoicing goes on, if there is one. -/
def CustomerPlan.through (plan : CustomerPlan) : Option Nat :=
  if plan.invoicingStatus = .initialInvoiceToBeSent then none else plan.invoicedThrough

namespace Database

/-- The ledger entries of a plan after one of them. -/
def entriesAfter (db : Database) (planId : Nat) (through : Option Nat) : List LicenseLedger :=
  (db.entriesOf planId).filter fun entry => through.all (· < entry.id)

theorem entriesToInvoice_eq (db : Database) (planId : Nat) (through : Option Nat)
    (eventTime : DateTime) :
    db.entriesToInvoice planId through eventTime =
      (db.entriesAfter planId through).filter fun entry => entry.eventTime ≤ eventTime := by
  unfold entriesToInvoice entriesAfter
  rw [List.filter_filter]
  congr 1
  funext entry
  exact Bool.and_comm _ _

end Database

/-! ## Steps and the property -/

/-- A finished run of `invoice_plan`. -/
structure InvoicingRun where
  eventTime : DateTime
  processed : List LicenseLedger
  charged : List (Nat × Int)
  /-- The ledger of the plan when the run is over. -/
  entries : List LicenseLedger
  invoicedThrough : Option Nat
  invoicingStatus : InvoicingStatus

/-- The rows of the customer, and the runs so far. -/
structure InvoicingState where
  db : Database
  runs : List InvoicingRun

namespace InvoicingState

/-- The entries that the runs have gone through. -/
def processed (state : InvoicingState) : List LicenseLedger := state.runs.flatMap (·.processed)

/-- What the runs have charged by license. -/
def charged (state : InvoicingState) : List (Nat × Int) := state.runs.flatMap (·.charged)

/-- `invoiced_through` at the start and after each run. -/
def history (first : Option Nat) (state : InvoicingState) : List (Option Nat) :=
  first :: state.runs.map (·.invoicedThrough)

end InvoicingState

/-- A change of the ledger, the status or the cycle of a plan, or a run of `invoice_plan`. -/
inductive InvoicingAction where
  | ledger (isRenewal : Bool) (eventTime : DateTime) (licenses : Nat)
      (licensesAtNextRenewal : Option Nat)
  | status (status : PlanStatus)
  | endOfCycle (eventTime : DateTime)
  | invoice

/-- What an action does. -/
inductive InvoicingStep (pricing : Pricing) (planId : Nat) :
    InvoicingState → InvoicingAction → InvoicingState → Prop where
  | ledger {state : InvoicingState} (isRenewal : Bool) (eventTime : DateTime) (licenses : Nat)
      (licensesAtNextRenewal : Option Nat) :
      InvoicingStep pricing planId state
        (.ledger isRenewal eventTime licenses licensesAtNextRenewal)
        { state with
          db := state.db.addEntry
            (state.db.newEntry planId isRenewal eventTime licenses licensesAtNextRenewal) }
  | status {state : InvoicingState} {plan : CustomerPlan} (status : PlanStatus)
      (found : state.db.plans.get? planId = some plan) (notTrial : status.isTrial = false) :
      InvoicingStep pricing planId state (.status status)
        { state with db := state.db.savePlan planId { plan with status := status } }
  | endOfCycle {state : InvoicingState} {eventTime : DateTime} {after : Database}
      {newPlan : Option (Nat × CustomerPlan)} {entry : Option LicenseLedger}
      (made : state.db.makeEndOfCycleUpdatesIfNeeded pricing planId eventTime =
        some (after, newPlan, entry)) :
      InvoicingStep pricing planId state (.endOfCycle eventTime) { state with db := after }
  | invoice {state : InvoicingState} {plan current : CustomerPlan} {date : DateTime}
      {after : Database} {requests : StripeRequests}
      (found : state.db.plans.get? planId = some plan) (due : plan.nextInvoiceDate = some date)
      (invoiced : state.db.invoicePlan pricing planId date = some (after, requests))
      (saved : after.plans.get? planId = some current) :
      InvoicingStep pricing planId state .invoice
        ⟨after, state.runs ++
          [⟨date, state.db.processedEntries pricing planId date, charges requests.items,
            after.entriesOf planId, current.invoicedThrough, current.invoicingStatus⟩]⟩

/-- `invoiced_through` does not move backwards. -/
def NotBackwards (earlier later : Option Nat) : Prop :=
  ∀ id, earlier = some id → ∃ next, later = some next ∧ id ≤ next

/-- The runs go through the ledger after its first entries, each entry once and in the order of the
ids, and charge each entry as the one after the entry before it. Every run leaves only entries
that are later than its date. -/
structure InvoicesInTurn (planId : Nat) (first base : Option Nat) (state : InvoicingState) :
    Prop where
  inTurn : state.processed <+: state.db.entriesAfter planId first
  once : Increasing (·.id) state.processed
  complete : ∀ earlier run later, state.runs = earlier ++ run :: later →
    ∀ entry ∈ run.entries, first.all (· < entry.id) → entry.eventTime ≤ run.eventTime →
      entry ∈ (earlier ++ [run]).flatMap (·.processed)
  charged : state.charged = chargesFor base state.processed
  cycles : ∀ before renewal later after,
    state.processed = before ++ (renewal :: later) ++ after → renewal.isRenewal = true →
      (∀ entry ∈ later, entry.isRenewal = false) →
        total (state.charged.filter fun charge => charge.1 ∈ (renewal :: later).map (·.id)) =
          ((renewal :: later).getLast (List.cons_ne_nil _ _)).licenses
  finished : ∀ run ∈ state.runs, run.invoicingStatus = .done
  forward : (state.history first).IsChain NotBackwards

/-- The end of the cycle adds a renewal to the ledger of the plan. -/
def RenewsAt (db : Database) (planId : Nat) (plan : CustomerPlan) (eventTime : DateTime) : Prop :=
  plan.status = .active ∧ plan.endDate ≠ db.getNextBillingCycle planId plan ∧
    (db.lastLedgerEntry planId eventTime).isSome ∧
    ∃ next, db.getNextBillingCycle planId plan = some next ∧ next ≤ eventTime

/-- At the date of a run, no entry that is later than the date stands before one that is not: not
in the ledger, and not before the renewal that the run itself adds. -/
def NoneOvertaken (planId : Nat) (state : InvoicingState) : InvoicingAction → Prop
  | .invoice => ∀ plan date, state.db.plans.get? planId = some plan →
      plan.nextInvoiceDate = some date →
        (state.db.entriesAfter planId plan.through).Pairwise (fun earlier later =>
          later.eventTime ≤ date → earlier.eventTime ≤ date) ∧
        (plan.status ≠ .switchPlanTierNow → RenewsAt state.db planId plan date →
          ∀ entry ∈ state.db.entriesAfter planId plan.through, entry.eventTime ≤ date)
  | _ => True

/-! ## What the end of a cycle does to a paid plan -/

/-- The end of a cycle changes nothing of the plan but its status, and adds at most one entry to
the ledger, to that of the plan exactly when it renews it. -/
structure EndedCycle (db : Database) (planId : Nat) (plan : CustomerPlan) (eventTime : DateTime)
    (after : Database) : Prop where
  status : ∃ status : PlanStatus, status.isTrial = false ∧
    after.plans.get? planId = some { plan with status := status }
  ledger : after.ledger = db.ledger ∧ ¬RenewsAt db planId plan eventTime ∨
    ∃ entry, after.ledger = db.ledger ++ [entry] ∧ entry.id = db.nextLedgerId ∧
      (entry.planId = planId ↔ RenewsAt db planId plan eventTime) ∧
      (entry.planId = planId → entry.eventTime ≤ eventTime)

namespace EndedCycle

variable {pricing : Pricing} {db after : Database} {planId : Nat} {plan : CustomerPlan}
  {eventTime : DateTime}

/-- A switch to another tier ends the plan; the entry that it adds is one of the other plan. -/
theorem of_switchPlanTier {next : DateTime} {licenses : Nat} {switched : Database × LicenseLedger}
    (atPlanEnd : plan.status = .switchPlanTierAtPlanEnd)
    (switches : db.switchPlanTier planId plan next licenses = some switched) :
    EndedCycle db planId plan eventTime switched.1 := by
  unfold Database.switchPlanTier at switches
  rw [Option.bind_eq_bind, Option.bind_eq_some_iff] at switches
  obtain ⟨endDate, -, switches⟩ := switches
  split at switches
  case h_2 => cases switches
  case h_1 newPlanId newPlan onlyOne =>
    cases switches
    have isNew : (newPlanId, newPlan) ∈ (db.savePlan planId
        { plan with status := .ended }).plans.entries.filter fun other =>
          other.2.billingCycleAnchor = endDate && other.2.status = .neverStarted := by
      rw [onlyOne]
      exact List.mem_singleton_self _
    have different : newPlanId ≠ planId := by
      rintro rfl
      obtain ⟨member, conditions⟩ := List.mem_filter.mp isNew
      have stored := Dict.get?_eq_some_iff.mpr member
      rw [Database.plans_savePlan, Dict.get?_set_self, Option.some.injEq] at stored
      rw [← stored] at conditions
      simp at conditions
    refine ⟨⟨.ended, rfl, ?_⟩, .inr ⟨_, rfl, rfl, ?_, fun same => absurd same different⟩⟩
    · rw [Database.plans_addEntry, Database.plans_savePlan, Dict.get?_set_ne _ _ different.symm,
        Database.plans_savePlan, Dict.get?_set_self]
    · refine ⟨fun same => absurd same different, fun renews => ?_⟩
      have active := renews.1
      rw [atPlanEnd] at active
      cases active

/-- A switch to another schedule ends the plan; its entry is one of a new plan. -/
theorem of_switchBillingSchedule (billingSchedule : BillingSchedule) (next : DateTime)
    (licenses : Nat) (notActive : plan.status ≠ .active) :
    EndedCycle db planId plan eventTime
      (db.switchBillingSchedule pricing planId plan billingSchedule next licenses).1 := by
  have saved : planId ∈ (db.savePlan planId { plan with status := .ended }).plans.keys := by
    rw [Database.plans_savePlan, Dict.mem_keys_set]
    exact .inl rfl
  have different : (db.savePlan planId { plan with status := .ended }).nextPlanId ≠ planId := by
    intro same
    have absent := Database.nextPlanId_not_mem (db.savePlan planId { plan with status := .ended })
    rw [same] at absent
    exact absent saved
  refine ⟨⟨.ended, rfl, ?_⟩, .inr ⟨_, rfl, rfl, ?_, fun same => absurd same different⟩⟩
  · unfold Database.switchBillingSchedule
    dsimp only
    rw [Database.plans_addEntry, Database.plans_savePlan, Dict.get?_set_ne _ _ different.symm,
      Database.plans_savePlan, Dict.get?_set_self]
  · exact ⟨fun same => absurd same different, fun renews => absurd renews.1 notActive⟩

/-- The branches that end a plan add no entry. -/
theorem of_endPlan (found : db.plans.get? planId = some plan)
    (notTrial : plan.status.isTrial = false) (notActive : plan.status ≠ .active) :
    EndedCycle db planId plan eventTime (db.endPlan planId plan) := by
  have notRenewed : ¬RenewsAt db planId plan eventTime := fun renews => notActive renews.1
  cases status : plan.status with
  | downgradeAtEndOfCycle =>
    refine ⟨⟨.ended, rfl, ?_⟩, .inl ⟨?_, notRenewed⟩⟩
    · simp only [Database.endPlan, status, Database.processDowngrade, Database.plans_savePlan,
        Dict.get?_set_self]
    · simp only [Database.endPlan, status, Database.processDowngrade, Database.ledger_savePlan]
  | downgradeAtEndOfFreeTrial =>
    rw [status] at notTrial
    cases notTrial
  | _ =>
    have same : db.endPlan planId plan = db := by
      unfold Database.endPlan
      rw [status]
    rw [same]
    exact ⟨⟨plan.status, notTrial, found⟩, .inl ⟨rfl, notRenewed⟩⟩

/-- One case for each outcome of the end of a cycle. -/
theorem of_outcome {newPlan : Option (Nat × CustomerPlan)} {entry : Option LicenseLedger}
    (found : db.plans.get? planId = some plan) (notTrial : plan.status.isTrial = false)
    (outcome : db.CycleOutcome pricing planId plan eventTime after newPlan entry) :
    EndedCycle db planId plan eventTime after := by
  cases outcome with
  | notDue nextCycle early _ =>
    refine ⟨⟨plan.status, notTrial, found⟩, .inl ⟨rfl, ?_⟩⟩
    rintro ⟨-, -, hasEntry, next, isNext, due⟩
    rw [nextCycle] at isNext
    cases isNext
    rcases early with early | noEntry
    · exact absurd due (not_le.mpr early)
    · rw [noEntry] at hasEntry
      cases hasEntry
  | reachedEndDate nextCycle _ active endDate =>
    refine ⟨⟨.ended, rfl, ?_⟩, .inl ⟨rfl, ?_⟩⟩
    · exact Dict.get?_set_self _ _ _
    · rintro ⟨-, goesOn, -⟩
      exact goesOn (endDate.trans nextCycle.symm)
  | @renewed next licenses entry nextCycle due active goesOn hasEntry isNew =>
    refine ⟨⟨plan.status, notTrial, found⟩, .inr ⟨entry, rfl, by rw [isNew]; rfl, ?_, ?_⟩⟩
    · refine ⟨fun _ => ⟨active, ?_, hasEntry, next, nextCycle, due⟩, fun _ => by rw [isNew]; rfl⟩
      rw [nextCycle]
      exact goesOn
    · intro _
      rw [isNew]
      exact due
  | startedPaidPeriod _ _ _ freeTrial _ =>
    rw [freeTrial] at notTrial
    cases notTrial
  | trialNotPaid freeTrial _ =>
    rw [freeTrial] at notTrial
    cases notTrial
  | switchedTier atPlanEnd switches => exact of_switchPlanTier atPlanEnd switches
  | switchedSchedule billingSchedule atEndOfCycle _ =>
    refine of_switchBillingSchedule billingSchedule _ _ fun active => ?_
    rcases atEndOfCycle with status | status <;>
    · rw [active] at status
      cases status
  | ended other => exact of_endPlan found notTrial other.1

end EndedCycle

/-! ## Ledgers that grow -/

namespace Database

variable {db after : Database} {planId : Nat} {through : Option Nat}

/-- No row has a later id. -/
def Below (db : Database) (through : Option Nat) : Prop :=
  ∀ id, through = some id → id < db.nextLedgerId

/-- The ledger grows by entries with a new id. -/
structure Grows (db : Database) (planId : Nat) (added : List LicenseLedger) (after : Database) :
    Prop where
  entries : after.entriesOf planId = db.entriesOf planId ++ added
  newIds : ∀ entry ∈ added, entry.id = db.nextLedgerId
  ledger : after.ledger = db.ledger ∨
    ∃ entry, entry.id = db.nextLedgerId ∧ after.ledger = db.ledger ++ [entry]

theorem Grows.refl (same : after.ledger = db.ledger) : Grows db planId [] after where
  entries := by
    unfold entriesOf
    rw [same, List.append_nil]
  newIds := by simp
  ledger := .inl same

theorem Grows.snoc {entry : LicenseLedger} (isNew : entry.id = db.nextLedgerId)
    (grown : after.ledger = db.ledger ++ [entry]) :
    Grows db planId (if entry.planId = planId then [entry] else []) after where
  entries := by
    have added := entriesOf_addEntry db entry planId
    unfold entriesOf at added ⊢
    rw [grown]
    exact added
  newIds := by
    intro other member
    split at member
    · rw [List.mem_singleton.mp member, isNew]
    · cases member
  ledger := .inr ⟨entry, isNew, grown⟩

theorem Grows.congr {other : Database} {added : List LicenseLedger}
    (grows : Grows db planId added after) (same : other.ledger = after.ledger) :
    Grows db planId added other where
  entries := by
    rw [← grows.entries]
    unfold entriesOf
    rw [same]
  newIds := grows.newIds
  ledger := by
    rw [same]
    exact grows.ledger

theorem Grows.entriesAfter {added : List LicenseLedger} (grows : Grows db planId added after)
    (below : db.Below through) :
    after.entriesAfter planId through = db.entriesAfter planId through ++ added := by
  unfold Database.entriesAfter
  rw [grows.entries, List.filter_append]
  congr 1
  rw [List.filter_eq_self]
  intro entry member
  rw [Option.all_eq_true]
  intro id isThrough
  have isNew := grows.newIds entry member
  have isBelow := below id isThrough
  exact decide_eq_true (by omega)

theorem Grows.increasing {added : List LicenseLedger} (grows : Grows db planId added after)
    (increasing : Increasing (·.id) db.ledger) : Increasing (·.id) after.ledger := by
  rcases grows.ledger with same | ⟨entry, isNew, grown⟩
  · rwa [same]
  · rw [grown, Increasing.append]
    refine ⟨increasing, Increasing.cons.mpr ⟨by simp, Increasing.nil⟩, ?_⟩
    intro first member second isEntry
    rw [List.mem_singleton.mp isEntry, isNew]
    exact id_lt_nextLedgerId member

theorem Grows.find? {added : List LicenseLedger} (grows : Grows db planId added after)
    {entry : LicenseLedger} {id : Nat}
    (found : (db.ledger.find? fun entry => entry.id = id) = some entry) :
    (after.ledger.find? fun entry => entry.id = id) = some entry := by
  rcases grows.ledger with same | ⟨new, -, grown⟩
  · rwa [same]
  · rw [grown, List.find?_append, found]
    rfl

theorem Grows.below {added : List LicenseLedger} (grows : Grows db planId added after)
    (below : db.Below through) : after.Below through := by
  have notLess : db.nextLedgerId ≤ after.nextLedgerId := by
    rcases grows.ledger with same | ⟨new, isNew, grown⟩
    · unfold nextLedgerId
      rw [same]
    · have member : new ∈ after.ledger := by
        rw [grown]
        simp
      have upper := id_lt_nextLedgerId member
      omega
  intro id isThrough
  exact (below id isThrough).trans_le notLess

/-- The ledger entry that an id names in a ledger with increasing ids. -/
theorem find?_of_mem {entry : LicenseLedger} (increasing : Increasing (·.id) db.ledger)
    (member : entry ∈ db.ledger) :
    (db.ledger.find? fun other => other.id = entry.id) = some entry := by
  cases located : db.ledger.find? fun other => other.id = entry.id with
  | none =>
    have absent := List.find?_eq_none.mp located entry member
    simp at absent
  | some other =>
    have same : other.id = entry.id := by simpa using List.find?_some located
    rw [increasing.eq_of_key_eq (List.mem_of_find?_eq_some located) member same]

theorem mem_ledger_of_entriesAfter {entry : LicenseLedger}
    (member : entry ∈ db.entriesAfter planId through) : entry ∈ db.ledger :=
  (List.mem_filter.mp (List.mem_filter.mp member).1).1

theorem entriesAfter_increasing (increasing : Increasing (·.id) db.ledger) (planId : Nat)
    (through : Option Nat) : Increasing (·.id) (db.entriesAfter planId through) :=
  (increasing.filter _).filter _

/-- After the last entry of a first part of the entries comes the rest. -/
theorem entriesAfter_last {front back : List LicenseLedger} {last : LicenseLedger}
    (increasing : Increasing (·.id) db.ledger)
    (split : db.entriesAfter planId through = front ++ back)
    (isLast : front.getLast? = some last) : db.entriesAfter planId (some last.id) = back := by
  have splitIncreasing := entriesAfter_increasing increasing planId through
  rw [split] at splitIncreasing
  have above := splitIncreasing.filter_above_last isLast
  have isMember : last ∈ db.entriesAfter planId through := by
    rw [split]
    exact List.mem_append_left _ (List.mem_of_getLast? isLast)
  have isAfter := (List.mem_filter.mp isMember).2
  rw [← above, ← split]
  unfold Database.entriesAfter
  rw [List.filter_filter]
  congr 1
  funext entry
  cases through with
  | none => simp
  | some id =>
    simp only [Option.all_some, decide_eq_true_eq] at isAfter
    simp only [Option.all_some]
    by_cases later : last.id < entry.id
    · have beyond : id < entry.id := by omega
      simp [later, beyond]
    · simp [later]

end Database

/-- A renewal at the end of a cycle is the only entry that the ledger of the plan grows by. -/
theorem EndedCycle.grows {db after : Database} {planId : Nat} {plan : CustomerPlan}
    {eventTime : DateTime} (ended : EndedCycle db planId plan eventTime after) :
    ∃ added, Database.Grows db planId added after ∧
      (∀ entry ∈ added, entry.eventTime ≤ eventTime) ∧
      (added ≠ [] ↔ RenewsAt db planId plan eventTime) := by
  rcases ended.ledger with ⟨same, notRenewed⟩ | ⟨entry, grown, isNew, renewsIff, notLater⟩
  · exact ⟨[], .refl same, by simp, by simpa using notRenewed⟩
  · refine ⟨_, .snoc isNew grown, ?_, ?_⟩
    · intro other member
      split at member
      · rw [List.mem_singleton.mp member]
        exact notLater ‹_›
      · cases member
    · rw [← renewsIff]
      by_cases same : entry.planId = planId <;> simp [same]

/-! ## One run -/

/-- What a run of `invoice_plan` does for a paid plan without a fixed price. -/
structure Invoiced (pricing : Pricing) (db : Database) (planId : Nat) (plan : CustomerPlan)
    (eventTime : DateTime) (after : Database) (requests : StripeRequests)
    (added processed : List LicenseLedger) : Prop where
  notStarted : plan.invoicingStatus ≠ .started
  grows : Database.Grows db planId added after
  notLater : ∀ entry ∈ added, entry.eventTime ≤ eventTime
  renews : added ≠ [] ↔ plan.status ≠ .switchPlanTierNow ∧ RenewsAt db planId plan eventTime
  isProcessed : processed = db.processedEntries pricing planId eventTime
  selected : processed = (after.entriesAfter planId plan.through).filter fun entry =>
    entry.eventTime ≤ eventTime
  charged : ∀ through licensesBase, db.invoicingStart plan = some (through, licensesBase) →
    charges requests.items = chargesFor licensesBase processed
  saved : ∃ (status : PlanStatus) (nextDate : Option DateTime) (overdue : Bool),
    status.isTrial = false ∧ after.plans.get? planId =
      some { plan.invoicedUpTo processed with
        status := status, nextInvoiceDate := nextDate, invoiceOverdueEmailSent := overdue }

namespace Database

/-- A plan whose invoicing has started is not invoiced. -/
theorem not_started_of_invoicePlan {pricing : Pricing} {db : Database} {planId : Nat}
    {plan : CustomerPlan} {eventTime : DateTime} {result : Database × StripeRequests}
    (found : db.plans.get? planId = some plan)
    (invoiced : db.invoicePlan pricing planId eventTime = some result) :
    plan.invoicingStatus ≠ .started := by
  intro started
  unfold invoicePlan at invoiced
  rw [found, Option.bind_eq_bind, Option.bind_some, if_pos started] at invoiced
  cases invoiced

/-- A run saves the plan. -/
theorem exists_saved {pricing : Pricing} {db after : Database} {planId : Nat}
    {plan : CustomerPlan} {eventTime : DateTime} {requests : StripeRequests}
    (found : db.plans.get? planId = some plan)
    (invoiced : db.invoicePlan pricing planId eventTime = some (after, requests)) :
    ∃ current, after.plans.get? planId = some current := by
  obtain ⟨_, _, _, _, _, _, _, _, plans, -⟩ := invoicePlan_spec found invoiced
  rw [plans]
  exact ⟨_, Dict.get?_set_self _ _ _⟩

/-- Where invoicing starts does not depend on entries with a new id. -/
theorem Grows.invoicingStart {db after : Database} {planId : Nat} {added : List LicenseLedger}
    {plan changed : CustomerPlan} {start : Option Nat × Option Nat}
    (grows : Grows db planId added after)
    (sameStatus : changed.invoicingStatus = plan.invoicingStatus)
    (sameThrough : changed.invoicedThrough = plan.invoicedThrough)
    (starts : db.invoicingStart plan = some start) : after.invoicingStart changed = some start := by
  unfold Database.invoicingStart at starts ⊢
  rw [sameStatus, sameThrough]
  split at starts
  case isTrue isInitial => rw [if_pos isInitial, starts]
  case isFalse notInitial =>
    rw [if_neg notInitial]
    rw [Option.bind_eq_bind, Option.bind_eq_some_iff] at starts
    obtain ⟨id, through, starts⟩ := starts
    rw [Option.bind_eq_bind, Option.bind_eq_some_iff] at starts
    obtain ⟨entry, found, starts⟩ := starts
    rw [through, Option.bind_eq_bind, Option.bind_some, grows.find? found]
    exact starts

/-- Invoicing starts after the entry that the plan is invoiced through. -/
theorem through_of_invoicingStart {db : Database} {plan : CustomerPlan}
    {start : Option Nat × Option Nat} (starts : db.invoicingStart plan = some start) :
    start.1 = plan.through ∧ db.Below plan.through := by
  unfold invoicingStart at starts
  unfold CustomerPlan.through
  split at starts
  case isTrue isInitial =>
    rw [if_pos isInitial]
    cases starts
    exact ⟨rfl, fun id isThrough => by cases isThrough⟩
  case isFalse notInitial =>
    rw [if_neg notInitial]
    rw [Option.bind_eq_bind, Option.bind_eq_some_iff] at starts
    obtain ⟨id, through, starts⟩ := starts
    rw [Option.bind_eq_bind, Option.bind_eq_some_iff] at starts
    obtain ⟨entry, found, starts⟩ := starts
    cases starts
    refine ⟨through.symm, fun other isThrough => ?_⟩
    rw [through, Option.some.injEq] at isThrough
    have sameId : entry.id = id := by simpa using List.find?_some found
    rw [← isThrough, ← sameId]
    exact id_lt_nextLedgerId (List.mem_of_find?_eq_some found)

end Database

theorem Invoiced.of_invoicePlan {pricing : Pricing} {db after : Database} {planId : Nat}
    {plan : CustomerPlan} {eventTime : DateTime} {requests : StripeRequests}
    {start : Option Nat × Option Nat} (found : db.plans.get? planId = some plan)
    (notTrial : plan.status.isTrial = false) (paid : plan.isAPaidPlan = true)
    (perLicense : plan.fixedPrice = none) (starts : db.invoicingStart plan = some start)
    (invoiced : db.invoicePlan pricing planId eventTime = some (after, requests)) :
    ∃ added processed,
      Invoiced pricing db planId plan eventTime after requests added processed := by
  have notStarted := Database.not_started_of_invoicePlan found invoiced
  obtain ⟨between, current, ended, currentFound, ledger, processed, nextDate, overdue, plans, -,
    loop⟩ := Database.invoicePlan_spec found invoiced
  have cycleEnded : ∃ added, Database.Grows db planId added between ∧
      (∀ entry ∈ added, entry.eventTime ≤ eventTime) ∧
      (added ≠ [] ↔ plan.status ≠ .switchPlanTierNow ∧ RenewsAt db planId plan eventTime) ∧
      ∃ status : PlanStatus, status.isTrial = false ∧
        between.plans.get? planId = some { plan with status := status } := by
    rcases ended with ⟨switching, rfl⟩ | ⟨newPlan, entry, notSwitching, outcome⟩
    · exact ⟨[], .refl rfl, by simp, by simp [switching], plan.status, notTrial, found⟩
    · have endedCycle := EndedCycle.of_outcome found notTrial outcome
      obtain ⟨added, grows, notLater, renews⟩ := endedCycle.grows
      exact ⟨added, grows, notLater, by simpa [notSwitching] using renews, endedCycle.status⟩
  obtain ⟨added, grows, notLater, renews, status, statusNotTrial, betweenFound⟩ := cycleEnded
  rw [betweenFound, Option.some.injEq] at currentFound
  subst currentFound
  have sameStart : between.invoicingStart { plan with status := status } = some start :=
    grows.invoicingStart rfl rfl starts
  rcases loop with ⟨free, -⟩ | ⟨loopStart, -, loopStarts, entries, sameEntries, charged⟩
  · unfold CustomerPlan.isAPaidPlan at free paid
    rw [paid] at free
    cases free
  · rw [sameStart, Option.some.injEq] at loopStarts
    subst loopStarts
    have afterGrows := grows.congr ledger
    refine ⟨added, processed, notStarted, afterGrows, notLater, renews, sameEntries, ?_, ?_, ?_⟩
    · rw [entries, Database.entriesToInvoice_eq, (Database.through_of_invoicingStart starts).1]
      unfold Database.entriesAfter
      rw [grows.entries, afterGrows.entries]
    · intro through licensesBase isStart
      rw [starts, Option.some.injEq] at isStart
      rw [charged perLicense, isStart]
    · refine ⟨status, nextDate, overdue, statusNotTrial, ?_⟩
      rw [plans, Dict.get?_set_self]
      unfold CustomerPlan.invoicedUpTo
      cases processed.getLast? <;> rfl

/-! ## The invariant -/

/-- Where a plan is between two runs. -/
structure BetweenRuns (planId : Nat) (first base : Option Nat) (state : InvoicingState)
    (plan : CustomerPlan) : Prop where
  found : state.db.plans.get? planId = some plan
  notTrial : plan.status.isTrial = false
  paid : plan.isAPaidPlan = true
  perLicense : plan.fixedPrice = none
  increasing : Increasing (·.id) state.db.ledger
  starts : state.db.invoicingStart plan =
    some (plan.through, licensesAfter base state.processed)
  left : state.db.entriesAfter planId first =
    state.processed ++ state.db.entriesAfter planId plan.through
  latest : (state.history first).getLast? = some plan.through
  belowFirst : state.db.Below first
  /-- The initial invoice has an entry when it is due. -/
  initialEntry : plan.invoicingStatus = .initialInvoiceToBeSent →
    ∀ date, plan.nextInvoiceDate = some date →
      ∃ entry ∈ state.db.entriesOf planId, entry.eventTime ≤ date

namespace BetweenRuns

variable {planId : Nat} {first base : Option Nat} {state : InvoicingState} {plan : CustomerPlan}

theorem below (between : BetweenRuns planId first base state plan) :
    state.db.Below plan.through :=
  (Database.through_of_invoicingStart between.starts).2

/-- A change that adds to the ledger and keeps what invoicing looks at. -/
theorem grow {after : Database} {added : List LicenseLedger} {status : PlanStatus}
    (between : BetweenRuns planId first base state plan)
    (grows : Database.Grows state.db planId added after) (notTrial : status.isTrial = false)
    (found : after.plans.get? planId = some { plan with status := status }) :
    BetweenRuns planId first base { state with db := after } { plan with status := status } where
  found := found
  notTrial := notTrial
  paid := between.paid
  perLicense := between.perLicense
  increasing := grows.increasing between.increasing
  starts := grows.invoicingStart rfl rfl between.starts
  left := by
    have isLeft := between.left
    have throughBelow := between.below
    dsimp only [CustomerPlan.through, InvoicingState.processed] at isLeft throughBelow ⊢
    rw [grows.entriesAfter between.belowFirst, grows.entriesAfter throughBelow, isLeft,
      List.append_assoc]
  latest := between.latest
  belowFirst := grows.below between.belowFirst
  initialEntry := by
    intro isInitial date due
    obtain ⟨entry, member, notLater⟩ := between.initialEntry isInitial date due
    refine ⟨entry, ?_, notLater⟩
    rw [grows.entries]
    exact List.mem_append_left _ member

end BetweenRuns

/-- New entries after those that the runs have gone through keep the property. -/
theorem InvoicesInTurn.grow {planId : Nat} {first base : Option Nat} {state : InvoicingState}
    {after : Database} {added : List LicenseLedger}
    (inTurn : InvoicesInTurn planId first base state) (below : state.db.Below first)
    (grows : Database.Grows state.db planId added after) :
    InvoicesInTurn planId first base { state with db := after } where
  inTurn := by
    rw [grows.entriesAfter below]
    exact inTurn.inTurn.trans (List.prefix_append _ _)
  once := inTurn.once
  complete := inTurn.complete
  charged := inTurn.charged
  cycles := inTurn.cycles
  finished := inTurn.finished
  forward := inTurn.forward

/-- Entries that are charged in the order of their ids are charged cycle by cycle. -/
theorem cycles_of_charged {base : Option Nat} {processed before later after : List LicenseLedger}
    {renewal : LicenseLedger} (increasing : Increasing (·.id) processed)
    (split : processed = before ++ (renewal :: later) ++ after) (renews : renewal.isRenewal = true)
    (laterEntries : ∀ entry ∈ later, entry.isRenewal = false) :
    total ((chargesFor base processed).filter fun charge =>
        charge.1 ∈ (renewal :: later).map (·.id)) =
      ((renewal :: later).getLast (List.cons_ne_nil _ _)).licenses := by
  subst split
  rw [filter_chargesFor increasing]
  obtain ⟨licenses, isLast, sum⟩ :=
    @total_chargesFor_cycle (licensesAfter base before) renewal later renews laterEntries
  unfold licensesAfter at isLast
  rw [List.getLast?_eq_some_getLast (List.cons_ne_nil renewal later)] at isLast
  simp only [Option.some.injEq] at isLast
  rw [sum, isLast]

/-- The entries of a run come next in the ledger exactly when none is overtaken. -/
theorem Invoiced.prefix_iff {pricing : Pricing} {db after : Database} {planId : Nat}
    {plan : CustomerPlan} {eventTime : DateTime} {requests : StripeRequests}
    {added processed : List LicenseLedger} (below : db.Below plan.through)
    (invoiced : Invoiced pricing db planId plan eventTime after requests added processed) :
    processed <+: after.entriesAfter planId plan.through ↔
      (db.entriesAfter planId plan.through).Pairwise (fun earlier later =>
          later.eventTime ≤ eventTime → earlier.eventTime ≤ eventTime) ∧
        (plan.status ≠ .switchPlanTierNow → RenewsAt db planId plan eventTime →
          ∀ entry ∈ db.entriesAfter planId plan.through, entry.eventTime ≤ eventTime) := by
  rw [invoiced.selected, filter_prefix_iff, invoiced.grows.entriesAfter below,
    List.pairwise_append]
  simp only [decide_eq_true_eq]
  have addedPairwise : added.Pairwise (fun earlier later : LicenseLedger =>
      later.eventTime ≤ eventTime → earlier.eventTime ≤ eventTime) :=
    List.pairwise_of_forall_mem_list fun earlier member _ _ _ => invoiced.notLater earlier member
  constructor
  · rintro ⟨inLedger, -, beforeAdded⟩
    refine ⟨inLedger, fun notSwitching renewsAt entry member => ?_⟩
    obtain ⟨renewal, isAdded⟩ :=
      List.exists_mem_of_ne_nil _ (invoiced.renews.mpr ⟨notSwitching, renewsAt⟩)
    exact beforeAdded entry member renewal isAdded (invoiced.notLater renewal isAdded)
  · rintro ⟨inLedger, beforeRenewal⟩
    refine ⟨inLedger, addedPairwise, fun entry member renewal isAdded _ => ?_⟩
    obtain ⟨notSwitching, renewsAt⟩ := invoiced.renews.mp (List.ne_nil_of_mem isAdded)
    exact beforeRenewal notSwitching renewsAt entry member

/-- Where a run of `invoice_plan` leaves the plan. -/
structure Advanced (planId : Nat) (plan current : CustomerPlan) (licensesBase : Option Nat)
    (after : Database) (processed rest : List LicenseLedger) : Prop where
  done : current.invoicingStatus = .done
  rest : after.entriesAfter planId current.invoicedThrough = rest
  starts : after.invoicingStart current =
    some (current.invoicedThrough, licensesAfter licensesBase processed)
  forward : NotBackwards plan.through current.invoicedThrough

/-- A run that goes through the next entries of the ledger advances the plan to the last of
them. -/
theorem Invoiced.advanced {pricing : Pricing} {db after : Database} {planId : Nat}
    {plan current : CustomerPlan} {eventTime : DateTime} {requests : StripeRequests}
    {licensesBase : Option Nat} {added processed rest : List LicenseLedger}
    (invoiced : Invoiced pricing db planId plan eventTime after requests added processed)
    (starts : db.invoicingStart plan = some (plan.through, licensesBase))
    (increasing : Increasing (·.id) db.ledger)
    (initialEntry : plan.invoicingStatus = .initialInvoiceToBeSent →
      ∃ entry ∈ db.entriesOf planId, entry.eventTime ≤ eventTime)
    (split : after.entriesAfter planId plan.through = processed ++ rest)
    (saved : after.plans.get? planId = some current) :
    Advanced planId plan current licensesBase after processed rest := by
  obtain ⟨status, nextDate, overdue, -, isSaved⟩ := invoiced.saved
  rw [isSaved, Option.some.injEq] at saved
  subst saved
  have afterIncreasing := invoiced.grows.increasing increasing
  cases isLast : processed.getLast? with
  | none =>
    rw [List.getLast?_eq_none_iff] at isLast
    subst isLast
    -- Without an entry the plan keeps its status, which is not that of an initial invoice.
    have notInitial : plan.invoicingStatus ≠ .initialInvoiceToBeSent := by
      intro isInitial
      obtain ⟨entry, member, notLater⟩ := initialEntry isInitial
      have none := invoiced.selected
      rw [eq_comm, List.filter_eq_nil_iff] at none
      have present : entry ∈ after.entriesAfter planId plan.through := by
        unfold Database.entriesAfter CustomerPlan.through
        rw [if_pos isInitial, invoiced.grows.entries]
        simp [member]
      exact none entry present (decide_eq_true notLater)
    have isDone : plan.invoicingStatus = .done := by
      cases invoicingStatus : plan.invoicingStatus with
      | done => rfl
      | started => exact absurd invoicingStatus invoiced.notStarted
      | initialInvoiceToBeSent => exact absurd invoicingStatus notInitial
    have through : plan.through = plan.invoicedThrough := if_neg notInitial
    refine ⟨isDone, ?_, ?_, ?_⟩
    · rw [through] at split
      exact split
    · rw [through] at starts
      exact invoiced.grows.invoicingStart rfl rfl starts
    · intro id isThrough
      rw [through] at isThrough
      exact ⟨id, isThrough, le_rfl⟩
  | some last =>
    have invoicedUpTo : plan.invoicedUpTo processed =
        { plan with invoicedThrough := some last.id, invoicingStatus := .done } := by
      rw [CustomerPlan.invoicedUpTo, isLast]
    have member : last ∈ after.entriesAfter planId plan.through := by
      rw [split]
      exact List.mem_append_left _ (List.mem_of_getLast? isLast)
    rw [invoicedUpTo]
    refine ⟨rfl, Database.entriesAfter_last afterIncreasing split isLast, ?_, ?_⟩
    · have found := Database.find?_of_mem afterIncreasing
        (Database.mem_ledger_of_entriesAfter member)
      simp [Database.invoicingStart, found, licensesAfter, isLast]
    · intro id isThrough
      have isAfter := (List.mem_filter.mp member).2
      rw [isThrough, Option.all_some, decide_eq_true_eq] at isAfter
      exact ⟨last.id, rfl, isAfter.le⟩

/-- The entries that a run leaves are later than its date. -/
theorem Invoiced.rest_later {pricing : Pricing} {db after : Database} {planId : Nat}
    {plan : CustomerPlan} {eventTime : DateTime} {requests : StripeRequests}
    {added processed rest : List LicenseLedger}
    (invoiced : Invoiced pricing db planId plan eventTime after requests added processed)
    (split : after.entriesAfter planId plan.through = processed ++ rest) :
    ∀ entry ∈ rest, eventTime < entry.eventTime := by
  have selected := invoiced.selected
  have allNotLater : processed.filter (fun entry => entry.eventTime ≤ eventTime) = processed := by
    rw [List.filter_eq_self]
    intro entry member
    rw [selected] at member
    exact (List.mem_filter.mp member).2
  rw [split, List.filter_append, allNotLater, List.self_eq_append_right, List.filter_eq_nil_iff]
    at selected
  intro entry member
  have later := selected entry member
  rw [decide_eq_true_eq, not_le] at later
  exact later

/-! ## Steps -/

section Steps

variable {pricing : Pricing} {planId : Nat} {first base : Option Nat}
  {state next : InvoicingState} {plan : CustomerPlan}

/-- The state after a run of `invoice_plan`. -/
def InvoicingState.afterRun (pricing : Pricing) (planId : Nat) (state : InvoicingState)
    (date : DateTime) (after : Database) (requests : StripeRequests) (current : CustomerPlan) :
    InvoicingState :=
  ⟨after, state.runs ++
    [⟨date, state.db.processedEntries pricing planId date, charges requests.items,
      after.entriesOf planId, current.invoicedThrough, current.invoicingStatus⟩]⟩

theorem Invoiced.processed_afterRun {date : DateTime} {after : Database}
    {requests : StripeRequests} {added processed : List LicenseLedger}
    (invoiced : Invoiced pricing state.db planId plan date after requests added processed)
    (current : CustomerPlan) :
    (state.afterRun pricing planId date after requests current).processed =
      state.processed ++ processed := by
  simp [InvoicingState.afterRun, InvoicingState.processed, invoiced.isProcessed]

theorem InvoicingState.history_afterRun (first : Option Nat) (state : InvoicingState)
    (date : DateTime) (after : Database) (requests : StripeRequests) (current : CustomerPlan) :
    (state.afterRun pricing planId date after requests current).history first =
      state.history first ++ [current.invoicedThrough] := by
  simp [InvoicingState.history, InvoicingState.afterRun]

/-- A run of `invoice_plan` continues the ledger exactly when no entry is overtaken. -/
theorem inTurn_afterRun_iff {date : DateTime} {after : Database} {requests : StripeRequests}
    {current : CustomerPlan} {added processed : List LicenseLedger}
    (between : BetweenRuns planId first base state plan)
    (invoiced : Invoiced pricing state.db planId plan date after requests added processed) :
    (state.afterRun pricing planId date after requests current).processed <+:
        after.entriesAfter planId first ↔
      processed <+: after.entriesAfter planId plan.through := by
  rw [invoiced.processed_afterRun, invoiced.grows.entriesAfter between.belowFirst, between.left,
    invoiced.grows.entriesAfter between.below, List.append_assoc, List.prefix_append_right_inj]

theorem betweenRuns_afterRun {date : DateTime} {after : Database} {requests : StripeRequests}
    {current : CustomerPlan} {added processed rest : List LicenseLedger}
    (between : BetweenRuns planId first base state plan)
    (due : plan.nextInvoiceDate = some date)
    (invoiced : Invoiced pricing state.db planId plan date after requests added processed)
    (split : after.entriesAfter planId plan.through = processed ++ rest)
    (saved : after.plans.get? planId = some current) :
    BetweenRuns planId first base
      (state.afterRun pricing planId date after requests current) current := by
  have advanced := invoiced.advanced between.starts between.increasing
    (fun isInitial => between.initialEntry isInitial date due) split saved
  have through : current.through = current.invoicedThrough := by
    unfold CustomerPlan.through
    rw [advanced.done]
    rfl
  have runs := invoiced.processed_afterRun current
  obtain ⟨status, nextDate, overdue, notTrial, isSaved⟩ := invoiced.saved
  rw [isSaved, Option.some.injEq] at saved
  have kept : current.status = status ∧ current.tier = plan.tier ∧
      current.fixedPrice = plan.fixedPrice := by
    rw [← saved]
    unfold CustomerPlan.invoicedUpTo
    cases processed.getLast? <;> exact ⟨rfl, rfl, rfl⟩
  constructor
  case found => rw [← saved]; exact isSaved
  case notTrial => rw [kept.1, notTrial]
  case paid =>
    have paid := between.paid
    unfold CustomerPlan.isAPaidPlan at paid ⊢
    rw [kept.2.1, paid]
  case perLicense => rw [kept.2.2, between.perLicense]
  case increasing => exact invoiced.grows.increasing between.increasing
  case starts =>
    rw [through, runs, licensesAfter_append]
    exact advanced.starts
  case left =>
    have left := between.left
    rw [runs, through, List.append_assoc]
    dsimp only [InvoicingState.afterRun]
    rw [advanced.rest, ← split, invoiced.grows.entriesAfter between.belowFirst,
      invoiced.grows.entriesAfter between.below, left, List.append_assoc]
  case latest =>
    rw [through, InvoicingState.history_afterRun, List.getLast?_concat]
  case belowFirst => exact invoiced.grows.below between.belowFirst
  case initialEntry =>
    intro isInitial
    rw [advanced.done] at isInitial
    cases isInitial

theorem invoicesInTurn_afterRun {date : DateTime} {after : Database} {requests : StripeRequests}
    {current : CustomerPlan} {added processed rest : List LicenseLedger}
    (between : BetweenRuns planId first base state plan)
    (inTurn : InvoicesInTurn planId first base state)
    (due : plan.nextInvoiceDate = some date)
    (invoiced : Invoiced pricing state.db planId plan date after requests added processed)
    (split : after.entriesAfter planId plan.through = processed ++ rest)
    (saved : after.plans.get? planId = some current) :
    InvoicesInTurn planId first base
      (state.afterRun pricing planId date after requests current) := by
  have advanced := invoiced.advanced between.starts between.increasing
    (fun isInitial => between.initialEntry isInitial date due) split saved
  have nextInTurn : (state.afterRun pricing planId date after requests current).processed <+:
      after.entriesAfter planId first := by
    rw [inTurn_afterRun_iff between invoiced, split]
    exact List.prefix_append _ _
  have once := (Database.entriesAfter_increasing
    (invoiced.grows.increasing between.increasing) planId first).sublist nextInTurn.sublist
  have nextCharged : (state.afterRun pricing planId date after requests current).charged =
      chargesFor base (state.afterRun pricing planId date after requests current).processed := by
    rw [invoiced.processed_afterRun, chargesFor_append, ← invoiced.charged _ _ between.starts, ← inTurn.charged]
    simp [InvoicingState.afterRun, InvoicingState.charged]
  constructor
  case inTurn => exact nextInTurn
  case once => exact once
  case complete =>
    intro earlier run later isSplit entry member isAfter notLater
    rcases List.eq_nil_or_concat later with rfl | ⟨others, last, rfl⟩
    · have parts := List.append_inj' isSplit rfl
      obtain ⟨rfl, isRun⟩ := parts
      rw [List.cons.injEq] at isRun
      obtain ⟨rfl, -⟩ := isRun
      have processedSoFar := invoiced.processed_afterRun current
      dsimp only [InvoicingState.processed, InvoicingState.afterRun] at processedSoFar
      rw [processedSoFar]
      have listed : entry ∈ after.entriesAfter planId first := List.mem_filter.mpr ⟨member, isAfter⟩
      rw [invoiced.grows.entriesAfter between.belowFirst, between.left, List.append_assoc,
        ← invoiced.grows.entriesAfter between.below, split, ← List.append_assoc] at listed
      rcases List.mem_append.mp listed with isProcessed | isLeft
      · exact isProcessed
      · exact absurd notLater (not_le.mpr (invoiced.rest_later split entry isLeft))
    · rw [List.concat_eq_append, ← List.cons_append, ← List.append_assoc] at isSplit
      have before := (List.append_inj' isSplit rfl).1
      exact inTurn.complete earlier run others before entry member isAfter notLater
  case charged => exact nextCharged
  case cycles =>
    intro before renewal later rest isSplit renews laterEntries
    rw [nextCharged]
    exact cycles_of_charged once isSplit renews laterEntries
  case finished =>
    intro run member
    rcases List.mem_append.mp member with earlier | latest
    · exact inTurn.finished run earlier
    · rw [List.mem_singleton.mp latest]
      exact advanced.done
  case forward =>
    rw [InvoicingState.history_afterRun]
    refine inTurn.forward.append (List.isChain_singleton _) ?_
    intro earlier isLast later isHead
    rw [between.latest, Option.mem_def, Option.some.injEq] at isLast
    rw [List.head?_cons, Option.mem_def, Option.some.injEq] at isHead
    rw [← isLast, ← isHead]
    exact advanced.forward

/-- A step keeps the plan between two runs, unless an entry is overtaken. -/
theorem betweenRuns_of_step {action : InvoicingAction}
    (between : ∃ plan, BetweenRuns planId first base state plan)
    (step : InvoicingStep pricing planId state action next)
    (condition : NoneOvertaken planId state action) :
    ∃ plan, BetweenRuns planId first base next plan := by
  obtain ⟨plan, between⟩ := between
  cases step with
  | ledger isRenewal eventTime licenses licensesAtNextRenewal =>
    exact ⟨_, between.grow (.snoc rfl rfl) between.notTrial between.found⟩
  | status status found notTrial =>
    rw [between.found, Option.some.injEq] at found
    subst found
    exact ⟨_, between.grow (.refl rfl) notTrial (Dict.get?_set_self _ _ _)⟩
  | endOfCycle made =>
    have ended := EndedCycle.of_outcome between.found between.notTrial
      (Database.makeEndOfCycleUpdatesIfNeeded_cases between.found made)
    obtain ⟨added, grows, -⟩ := ended.grows
    obtain ⟨status, notTrial, found⟩ := ended.status
    exact ⟨_, between.grow grows notTrial found⟩
  | invoice found due isInvoiced saved =>
    rw [between.found, Option.some.injEq] at found
    subst found
    obtain ⟨added, processed, invoiced⟩ := Invoiced.of_invoicePlan between.found between.notTrial
      between.paid between.perLicense between.starts isInvoiced
    obtain ⟨rest, split⟩ := (invoiced.prefix_iff between.below).mpr
      (condition _ _ between.found due)
    exact ⟨_, betweenRuns_afterRun between due invoiced split.symm saved⟩

/-- A step keeps the runs in turn exactly when no entry is overtaken. -/
theorem invoicesInTurn_iff_of_step {action : InvoicingAction}
    (between : ∃ plan, BetweenRuns planId first base state plan)
    (inTurn : InvoicesInTurn planId first base state)
    (step : InvoicingStep pricing planId state action next) :
    InvoicesInTurn planId first base next ↔ NoneOvertaken planId state action := by
  obtain ⟨plan, between⟩ := between
  cases step with
  | ledger isRenewal eventTime licenses licensesAtNextRenewal =>
    exact iff_of_true (inTurn.grow between.belowFirst (.snoc rfl rfl)) trivial
  | status status found notTrial =>
    exact iff_of_true
      (inTurn.grow between.belowFirst (@Database.Grows.refl _ _ planId rfl)) trivial
  | endOfCycle made =>
    have ended := EndedCycle.of_outcome between.found between.notTrial
      (Database.makeEndOfCycleUpdatesIfNeeded_cases between.found made)
    obtain ⟨added, grows, -⟩ := ended.grows
    exact iff_of_true (inTurn.grow between.belowFirst grows) trivial
  | invoice found due isInvoiced saved =>
    rw [between.found, Option.some.injEq] at found
    subst found
    obtain ⟨added, processed, invoiced⟩ := Invoiced.of_invoicePlan between.found between.notTrial
      between.paid between.perLicense between.starts isInvoiced
    have prefixIff := invoiced.prefix_iff between.below
    constructor
    · intro nextInTurn other date otherFound otherDue
      rw [between.found, Option.some.injEq] at otherFound
      subst otherFound
      rw [due, Option.some.injEq] at otherDue
      subst otherDue
      exact prefixIff.mp ((inTurn_afterRun_iff between invoiced).mp nextInTurn.inTurn)
    · intro condition
      obtain ⟨rest, split⟩ := prefixIff.mpr (condition _ _ between.found due)
      exact invoicesInTurn_afterRun between inTurn due invoiced split.symm saved

end Steps

/-- A plan that is paid by license, with the entry that it is invoiced through. -/
structure InvoicedFrom (planId : Nat) (first base : Option Nat) (db : Database)
    (plan : CustomerPlan) : Prop where
  found : db.plans.get? planId = some plan
  notTrial : plan.status.isTrial = false
  paid : plan.isAPaidPlan = true
  perLicense : plan.fixedPrice = none
  increasing : Increasing (·.id) db.ledger
  starts : db.invoicingStart plan = some (first, base)
  /-- The initial invoice has an entry when it is due. -/
  initialEntry : plan.invoicingStatus = .initialInvoiceToBeSent →
    ∀ date, plan.nextInvoiceDate = some date →
      ∃ entry ∈ db.entriesOf planId, entry.eventTime ≤ date

/-- The runs of `invoice_plan` for a paid plan take the ledger in turn exactly when no run finds
an entry that an entry with a later date has overtaken. -/
theorem invoicesInTurn_always_iff {pricing : Pricing} {planId : Nat} {first base : Option Nat}
    {db : Database} {plan : CustomerPlan} {trace : List (InvoicingState × InvoicingAction)}
    {final : InvoicingState} (invoicedFrom : InvoicedFrom planId first base db plan)
    (run : Run (InvoicingStep pricing planId) ⟨db, []⟩ trace final) :
    Run.Always (InvoicesInTurn planId first base) trace final ↔
      ∀ visit ∈ trace, NoneOvertaken planId visit.1 visit.2 := by
  obtain ⟨isThrough, below⟩ := Database.through_of_invoicingStart invoicedFrom.starts
  dsimp only at isThrough
  subst isThrough
  have between : BetweenRuns planId plan.through base ⟨db, []⟩ plan :=
    { found := invoicedFrom.found
      notTrial := invoicedFrom.notTrial
      paid := invoicedFrom.paid
      perLicense := invoicedFrom.perLicense
      increasing := invoicedFrom.increasing
      starts := invoicedFrom.starts
      left := rfl
      latest := rfl
      belowFirst := below
      initialEntry := invoicedFrom.initialEntry }
  have inTurn : InvoicesInTurn planId plan.through base ⟨db, []⟩ :=
    { inTurn := List.nil_prefix
      once := Increasing.nil
      complete := by simp
      charged := rfl
      cycles := by simp [InvoicingState.processed]
      finished := by simp
      forward := List.isChain_singleton _ }
  exact run.always_iff ⟨plan, between⟩ inTurn
    (fun between _ step condition => betweenRuns_of_step between step condition)
    (fun between inTurn step => invoicesInTurn_iff_of_step between inTurn step)

/-! ## The loop of the cron job -/

/-- `invoice_plans_as_needed` invoices a plan run after run, until no date is left. -/
theorem run_invoiceWhileDue {pricing : Pricing} {planId : Nat} {eventTime : DateTime} {fuel : Nat}
    {state : InvoicingState} {after : Database} {requests : List StripeRequests}
    (invoiced : state.db.invoiceWhileDue pricing planId eventTime fuel = some (after, requests)) :
    ∃ trace runs, Run (InvoicingStep pricing planId) state trace ⟨after, state.runs ++ runs⟩ ∧
      runs.flatMap (·.charged) = (requests.flatMap fun request => charges request.items) ∧
      (runs.length = fuel ∨ ∃ plan, after.plans.get? planId = some plan ∧
        ∀ date, plan.nextInvoiceDate = some date → eventTime < date) := by
  induction fuel generalizing state requests with
  | zero =>
    cases invoiced
    exact ⟨[], [], by simpa using .refl, rfl, .inl rfl⟩
  | succ fuel inductionHypothesis =>
    rw [Database.invoiceWhileDue, Option.bind_eq_bind, Option.bind_eq_some_iff] at invoiced
    obtain ⟨plan, found, invoiced⟩ := invoiced
    split at invoiced
    case h_1 noDate =>
      cases invoiced
      refine ⟨[], [], by simpa using .refl, rfl, .inr ⟨plan, found, ?_⟩⟩
      intro date due
      rw [noDate] at due
      cases due
    case h_2 date due =>
      split at invoiced
      case isFalse early =>
        cases invoiced
        refine ⟨[], [], by simpa using .refl, rfl, .inr ⟨plan, found, ?_⟩⟩
        intro other otherDue
        rw [due, Option.some.injEq] at otherDue
        rw [← otherDue]
        exact not_le.mp early
      case isTrue =>
        rw [Option.bind_eq_bind, Option.bind_eq_some_iff] at invoiced
        obtain ⟨⟨between, request⟩, isInvoiced, invoiced⟩ := invoiced
        rw [Option.bind_eq_bind, Option.bind_eq_some_iff] at invoiced
        obtain ⟨⟨final, others⟩, rest, invoiced⟩ := invoiced
        cases invoiced
        obtain ⟨current, saved⟩ := Database.exists_saved found isInvoiced
        have step := InvoicingStep.invoice found due isInvoiced saved
        obtain ⟨trace, runs, run, charged, ending⟩ :=
          @inductionHypothesis (state.afterRun pricing planId date between request current) _ rest
        have whole := (Run.step .refl step).trans run
        dsimp only [InvoicingState.afterRun] at whole
        rw [List.append_assoc state.runs] at whole
        refine ⟨_, _, whole, ?_, ?_⟩
        · rw [List.singleton_append, List.flatMap_cons, List.flatMap_cons, charged]
        · rcases ending with outOfFuel | noDate
          · exact .inl (by rw [List.singleton_append, List.length_cons, outOfFuel])
          · exact .inr noDate

/-! ## A late license change -/

/-- The state after a run of `invoice_plan` at the next invoice date of the plan. -/
def InvoicingState.invoice (pricing : Pricing) (planId : Nat) (state : InvoicingState) :
    Option InvoicingState := do
  let plan ← state.db.plans.get? planId
  let date ← plan.nextInvoiceDate
  let invoiced ← state.db.invoicePlan pricing planId date
  let current ← invoiced.1.plans.get? planId
  some (state.afterRun pricing planId date invoiced.1 invoiced.2 current)

theorem InvoicingStep.of_invoice {pricing : Pricing} {planId : Nat} {state : InvoicingState}
    (invoiced : (state.invoice pricing planId).isSome) :
    InvoicingStep pricing planId state .invoice ((state.invoice pricing planId).getD state) := by
  obtain ⟨next, isNext⟩ := Option.isSome_iff_exists.mp invoiced
  rw [isNext, Option.getD_some]
  unfold InvoicingState.invoice at isNext
  rw [Option.bind_eq_bind, Option.bind_eq_some_iff] at isNext
  obtain ⟨plan, found, isNext⟩ := isNext
  rw [Option.bind_eq_bind, Option.bind_eq_some_iff] at isNext
  obtain ⟨date, due, isNext⟩ := isNext
  rw [Option.bind_eq_bind, Option.bind_eq_some_iff] at isNext
  obtain ⟨⟨after, requests⟩, isInvoiced, isNext⟩ := isNext
  rw [Option.bind_eq_some_iff] at isNext
  obtain ⟨current, saved, isNext⟩ := isNext
  cases isNext
  exact .invoice found due isInvoiced saved

/-- A monthly plan without a free trial. -/
def monthlyUpgrade : Upgrade where
  planTier := .cloudStandard
  licenses := 10
  automanageLicenses := true
  billingSchedule := .monthly
  chargeAutomatically := true
  freeTrialDays := none
  stripeInvoicePaid := true
  now :=
    { year := 2012, month := 1, day := 2, second := 11045, microsecond := 0,
      monthValid := january_valid }
  currentLicensesCount := 10
  fixedPriceOffer := none
  trialOffered := by simp
  noTrialForOffer := by simp
  paidUnlessTrial := rfl

/-- The rows of a customer on a monthly plan. -/
def onMonthlyPlan : InvoicingState where
  db := ((newCustomer.processInitialUpgrade plainPricing monthlyUpgrade).map (·.1)).getD newCustomer
  runs := []

/-- The plan after the upgrade. -/
def monthlyPlan : CustomerPlan :=
  { monthlyUpgrade.plan plainPricing with invoicedThrough := some 0 }

theorem onMonthlyPlan_invoicedFrom :
    InvoicedFrom 0 (some 0) (some 10) onMonthlyPlan.db monthlyPlan where
  found := by decide +kernel
  notTrial := rfl
  paid := by decide
  perLicense := rfl
  increasing := by
    have single : onMonthlyPlan.db.ledger.length = 1 := by decide +kernel
    obtain ⟨entry, isSingle⟩ := List.length_eq_one_iff.mp single
    rw [isSingle]
    exact List.pairwise_singleton _ _
  starts := by decide +kernel
  initialEntry := by
    intro isInitial
    cases isInitial

/-- Nothing is overtaken where all entries are due. -/
theorem noneOvertaken_of_due {planId : Nat} {state : InvoicingState}
    (allDue : ∀ plan ∈ state.db.plans.get? planId, ∀ date ∈ plan.nextInvoiceDate,
      ∀ entry ∈ state.db.entriesAfter planId plan.through, entry.eventTime ≤ date) :
    NoneOvertaken planId state .invoice := by
  intro plan date found due
  refine ⟨?_, fun _ _ => allDue plan found date due⟩
  exact List.pairwise_of_forall_mem_list fun entry listed _ _ _ =>
    allDue plan found date due entry listed

theorem february_valid : 1 ≤ 2 ∧ 2 ≤ 12 := by decide

/-- A time in the first month of the plan. -/
def firstMonth : DateTime :=
  { year := 2012, month := 1, day := 20, second := 0, microsecond := 0, monthValid := january_valid }

/-- A time in the second month of the plan. -/
def secondMonth : DateTime :=
  { year := 2012, month := 2, day := 10, second := 0, microsecond := 0, monthValid := february_valid }

/-- The state after a license change. -/
def InvoicingState.changeLicenses (state : InvoicingState) (eventTime : DateTime)
    (licenses : Nat) : InvoicingState :=
  { state with
    db := state.db.addEntry (state.db.newEntry 0 false eventTime licenses (some licenses)) }

/-- The state after a run of `invoice_plan`. -/
def InvoicingState.invoiced (state : InvoicingState) : InvoicingState :=
  (state.invoice plainPricing 0).getD state

/-- The rows after a license change in the first month. -/
def firstChange : InvoicingState := onMonthlyPlan.changeLicenses firstMonth 15

/-- The rows after a license change in the second month, when the first one is invoiced. -/
def secondChange : InvoicingState := firstChange.invoiced.changeLicenses secondMonth 18

/-- The runs of a plan whose licenses change in two months, each of which is invoiced when it is
over. -/
theorem invoicesInTurn_always_iff_months :
    Run.Always (InvoicesInTurn 0 (some 0) (some 10))
      [(onMonthlyPlan, InvoicingAction.ledger false firstMonth 15 (some 15)),
        (firstChange, .invoice), (firstChange.invoiced, .ledger false secondMonth 18 (some 18)),
        (secondChange, .invoice)] secondChange.invoiced := by
  have first : InvoicingStep plainPricing 0 firstChange .invoice firstChange.invoiced :=
    .of_invoice (by decide +kernel)
  have second : InvoicingStep plainPricing 0 secondChange .invoice secondChange.invoiced :=
    .of_invoice (by decide +kernel)
  have run := Run.step (Run.step (Run.step (Run.step .refl (.ledger false firstMonth 15 (some 15)))
    first) (.ledger false secondMonth 18 (some 18))) second
  refine (invoicesInTurn_always_iff onMonthlyPlan_invoicedFrom run).mpr ?_
  simp only [List.forall_mem_append, List.forall_mem_singleton, List.not_mem_nil, false_implies,
    implies_true, true_and]
  refine ⟨⟨⟨trivial, ?_⟩, trivial⟩, ?_⟩
  · exact noneOvertaken_of_due (by decide +kernel)
  · exact noneOvertaken_of_due (by decide +kernel)

theorem march_valid : 1 ≤ 3 ∧ 3 ≤ 12 := by decide

/-- A time in the third month of the plan. -/
def thirdMonth : DateTime :=
  { year := 2012, month := 3, day := 5, second := 0, microsecond := 0, monthValid := march_valid }

/-- The rows after the end of the first cycle, in the third month. -/
def lateCycle : InvoicingState where
  db := ((onMonthlyPlan.db.makeEndOfCycleUpdatesIfNeeded plainPricing 0 thirdMonth).map
    (·.1)).getD onMonthlyPlan.db
  runs := []

/-- The rows after a license change in the third month. -/
def lateChange : InvoicingState where
  db := lateCycle.db.addEntry (lateCycle.db.newEntry 0 false thirdMonth 15 (some 15))
  runs := []

/-- The rows after one run of `invoice_plan`. -/
def lateChangeInvoiced : InvoicingState := (lateChange.invoice plainPricing 0).getD lateChange

/-- The rows after two runs of `invoice_plan`. -/
def lateChangeInvoicedTwice : InvoicingState :=
  (lateChangeInvoiced.invoice plainPricing 0).getD lateChangeInvoiced

/-- A plan whose first two months are invoiced in the third month, after a license change: the
renewal of the second run overtakes the license change, which no run goes through. -/
theorem invoicesInTurn_fails_after_late_change :
    ¬ ∀ (pricing : Pricing) (planId : Nat) (first base : Option Nat) (db : Database)
      (plan : CustomerPlan) (trace : List (InvoicingState × InvoicingAction))
      (final : InvoicingState), InvoicedFrom planId first base db plan →
      Run (InvoicingStep pricing planId) ⟨db, []⟩ trace final →
      InvoicesInTurn planId first base final := by
  intro always
  have cycleEnds :
      InvoicingStep plainPricing 0 onMonthlyPlan (.endOfCycle thirdMonth) lateCycle := by
    have made :
        (onMonthlyPlan.db.makeEndOfCycleUpdatesIfNeeded plainPricing 0 thirdMonth).isSome := by
      decide +kernel
    obtain ⟨⟨after, newPlan, entry⟩, isMade⟩ := Option.isSome_iff_exists.mp made
    have same : lateCycle = { onMonthlyPlan with db := after } := by
      unfold lateCycle
      rw [isMade]
      rfl
    rw [same]
    exact .endOfCycle isMade
  have run : Run (InvoicingStep plainPricing 0) onMonthlyPlan
      [(onMonthlyPlan, .endOfCycle thirdMonth),
        (lateCycle, .ledger false thirdMonth 15 (some 15)), (lateChange, .invoice),
        (lateChangeInvoiced, .invoice)] lateChangeInvoicedTwice :=
    .step (.step (.step (.step .refl cycleEnds) (.ledger false thirdMonth 15 (some 15)))
      (InvoicingStep.of_invoice (by decide +kernel))) (InvoicingStep.of_invoice (by decide +kernel))
  have inTurn := always _ _ _ _ _ _ _ _ onMonthlyPlan_invoicedFrom run
  exact absurd inTurn.inTurn (by decide +kernel)

end Zulip.Billing
