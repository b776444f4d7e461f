import Zulip.Foundation.Transition
import Zulip.SoftDeactivation.CatchingUp

/-!
# Soft deactivation is invisible

Runs of one user's tables, with messages, subscription changes, soft deactivations, catch-up
runs that may stop after any statement, and reactivations. A user who has been reactivated
has the rows that the same messages and subscription changes would have given a user who was
never soft-deactivated.
-/

namespace Zulip.SoftDeactivation

/-- What can happen to the tables. -/
inductive Action where
  | send (message : Message) (info : SendInfo)
  | subscribe (streamId : Nat)
  | unsubscribe (streamId : Nat)
  | softDeactivate
  /-- A run of `add_missing_messages` that stops after so many statements. -/
  | addMissingMessages (statements : Nat)
  | reactivate

/-- One action. Message ids come from a sequence; users are soft-deactivated when they are not
`long_term_idle`, and caught up when they are. -/
inductive Step : Database → Action → Database → Prop where
  | send {db : Database} {message : Message} {info : SendInfo}
      (fresh : db.getLastMessageId < message.id) :
      Step db (.send message info) (db.send message info)
  | subscribe {db : Database} {streamId : Nat} :
      Step db (.subscribe streamId) (db.subscribe streamId)
  | unsubscribe {db : Database} {streamId : Nat} :
      Step db (.unsubscribe streamId) (db.unsubscribe streamId)
  | softDeactivate {db next : Database} (isActive : db.longTermIdle = false)
      (done : db.doSoftDeactivateUser = .ok next) : Step db .softDeactivate next
  | addMissingMessages {db : Database} {writes : List Write} {statements : Nat}
      (isIdle : db.longTermIdle = true) (planned : db.addMissingMessages = .ok writes) :
      Step db (.addMissingMessages statements) (db.executeAll (writes.take statements))
  | reactivate {db next : Database} (done : db.reactivateUserIfSoftDeactivated = .ok next) :
      Step db .reactivate next

/-- The tables of a user who gets the same messages and changes the same subscriptions, and
is never soft-deactivated. -/
def neverSoftDeactivated (db : Database) : Action → Database
  | .send message info => db.send message info
  | .subscribe streamId => db.subscribe streamId
  | .unsubscribe streamId => db.unsubscribe streamId
  | _ => db

section Steps

variable {db next : Database}

/-! ## The steps keep the ledger -/

/-- Whoever is eligible for a row is a recipient. -/
theorem Database.addressed_of_umEligible {recipient : Recipient} {info : SendInfo}
    (eligible : db.umEligible recipient info = true) : db.addressed recipient = true := by
  cases recipient with
  | direct toUser => exact eligible
  | stream streamId =>
      simp only [umEligible, getSubscriptionsForSendMessage, Bool.and_eq_true] at eligible
      exact eligible.1

/-- A recipient who is not soft-deactivated gets a row. -/
theorem Database.createUserMessages_of_active (isActive : db.longTermIdle = false)
    {message : Message} {info : SendInfo} (addressed : db.addressed message.recipient = true) :
    db.umEligible message.recipient info = true ∧
      createUserMessages message db.longTermIdle info ≠ [] := by
  constructor
  · cases recipient : message.recipient with
    | direct toUser => simpa [umEligible, recipient, Database.addressed] using addressed
    | stream streamId =>
        rw [recipient] at addressed
        have subscribed : db.subscriptions.getD streamId false = true := addressed
        simp [umEligible, getSubscriptionsForSendMessage, isActive, subscribed]
  · simp [createUserMessages, isActive]

/-- A direct message always gets a row. -/
theorem Database.createUserMessages_of_direct {message : Message} {info : SendInfo}
    (recipient : message.recipient = .direct true) :
    db.umEligible message.recipient info = true ∧
      createUserMessages message db.longTermIdle info ≠ [] := by
  simp [umEligible, recipient, createUserMessages, Message.isStreamMessage]

theorem Ledger.send (ledger : Ledger db) (consistent : Consistent db) {message : Message}
    {info : SendInfo} (fresh : db.getLastMessageId < message.id) :
    Ledger (db.send message info) where
  distinct := Database.nodup_bulkInsertUms ledger.distinct
  rowsDue messageId hasRow := by
    rw [due_send consistent fresh]
    rcases Database.mem_userMessageIds_send.mp hasRow with known | ⟨isNew, eligible, _⟩
    · exact Or.inl (ledger.rowsDue messageId known)
    · exact Or.inr ⟨isNew, Database.addressed_of_umEligible eligible⟩
  direct other member recipient := by
    rw [Database.mem_userMessageIds_send]
    rcases List.mem_append.mp member with earlier | isNew
    · exact Or.inl (ledger.direct other earlier recipient)
    · cases List.mem_singleton.mp isNew
      exact Or.inr ⟨rfl, Database.createUserMessages_of_direct recipient⟩
  bounded bound isBound := by
    have before : bound < message.id := lt_of_le_of_lt (ledger.bounded bound isBound).1 fresh
    refine ⟨?_, ledger.bounded_of_subset isBound
      (fun _ known => Database.mem_userMessageIds_send.mpr (Or.inl known)) ?_⟩
    · rw [Database.getLastMessageId_send fresh]
      exact le_of_lt before
    · intro messageId hasRow
      rcases Database.mem_userMessageIds_send.mp hasRow with known | ⟨rfl, _⟩
      · exact Or.inl known
      · exact Or.inr before
  covered isIdle := by
    obtain ⟨bound, isBound, covered⟩ := ledger.covered isIdle
    refine ⟨bound, isBound, covered.extend
      (fun _ known => Database.mem_userMessageIds_send.mpr (Or.inl known)) ?_⟩
    intro messageId isDue
    rcases (due_send consistent fresh).mp isDue with wasDue | ⟨rfl, _⟩
    · exact Or.inl wasDue
    · exact Or.inr (Or.inl (lt_of_le_of_lt (ledger.bounded bound isBound).1 fresh))
  complete isActive messageId isDue := by
    rw [Database.mem_userMessageIds_send]
    rcases (due_send consistent fresh).mp isDue with wasDue | ⟨rfl, addressed⟩
    · exact Or.inl (ledger.complete isActive messageId wasDue)
    · exact Or.inr ⟨rfl, Database.createUserMessages_of_active isActive addressed⟩

/-- The ledger depends on the rows, the bound, the flag and what is due. -/
theorem Ledger.congr (ledger : Ledger db) (messages : next.messages = db.messages)
    (userMessages : next.userMessages = db.userMessages)
    (longTermIdle : next.longTermIdle = db.longTermIdle)
    (lastActiveMessageId : next.lastActiveMessageId = db.lastActiveMessageId)
    (due : next.due = db.due) : Ledger next := by
  have sameRows : next.userMessageIds = db.userMessageIds := by
    rw [Database.userMessageIds, userMessages, Database.userMessageIds]
  have sameLast := Database.getLastMessageId_congr messages
  constructor
  · rw [sameRows]
    exact ledger.distinct
  · rw [sameRows, due]
    exact ledger.rowsDue
  · rw [sameRows, messages]
    exact ledger.direct
  · rw [sameRows, lastActiveMessageId, sameLast]
    exact ledger.bounded
  · rw [sameRows, due, lastActiveMessageId, longTermIdle]
    exact ledger.covered
  · rw [sameRows, due, longTermIdle]
    exact ledger.complete

theorem Ledger.changeSubscription (ledger : Ledger db) (consistent : Consistent db)
    (change : SubscriptionChange db next) : Ledger next := by
  obtain ⟨messages, userMessages, longTermIdle, lastActiveMessageId⟩ := change.frame
  exact ledger.congr messages userMessages longTermIdle lastActiveMessageId
    (change.due_eq consistent)

theorem Database.due_logEvent (db : Database) {eventType : EventType}
    (other : eventType.isSubscriptionEvent = false) :
    (db.logEvent eventType none none).due = db.due := by
  have sameReceives : ∀ message, (db.logEvent eventType none none).receives message =
      db.receives message := by
    intro message
    cases recipient : message.recipient with
    | direct toUser => simp only [receives, recipient]
    | stream streamId => simp only [receives, recipient, streamLogs_logEvent_other other]
  simp only [due, sameReceives]
  rfl

/-- The bound of a soft deactivation is the last row, or the last message of all. -/
theorem Database.doSoftDeactivateUser_eq_ok (done : db.doSoftDeactivateUser = .ok next) :
    ∃ bound, next = { db with
        longTermIdle := true
        lastActiveMessageId := some bound }.logEvent .userSoftDeactivated none none ∧
      (bound ∈ db.userMessageIds ∧ (∀ messageId ∈ db.userMessageIds, messageId ≤ bound) ∨
        db.userMessageIds = [] ∧ bound = db.getLastMessageId) := by
  unfold doSoftDeactivateUser at done
  cases received : db.userMessageIds.max? with
  | some bound =>
      simp only [received, bind, Except.bind, Except.ok.injEq] at done
      exact ⟨bound, done.symm, Or.inl (List.max?_eq_some_iff.mp received)⟩
  | none =>
      cases last : (db.messages.map Message.id).max? with
      | none => simp [received, last, assertIsNotNone, bind, Except.bind] at done
      | some bound =>
          simp only [received, last, assertIsNotNone_some, bind, Except.bind,
            Except.ok.injEq] at done
          exact ⟨bound, done.symm, Or.inr ⟨List.max?_eq_none_iff.mp received,
            by rw [getLastMessageId, last, Option.getD_some]⟩⟩

/-- A user who is not soft-deactivated misses no row, whatever the bound. -/
theorem Ledger.softDeactivate (ledger : Ledger db) (isActive : db.longTermIdle = false)
    (done : db.doSoftDeactivateUser = .ok next) : Ledger next := by
  obtain ⟨bound, rfl, isBound⟩ := Database.doSoftDeactivateUser_eq_ok done
  have sameDue := Database.due_logEvent
    { db with longTermIdle := true, lastActiveMessageId := some bound }
    EventType.isSubscriptionEvent_userSoftDeactivated
  have upToLast : ∀ messageId ∈ db.userMessageIds, messageId ≤ db.getLastMessageId :=
    fun messageId isRow => Database.le_getLastMessageId_of_due (ledger.rowsDue messageId isRow)
  refine
    { distinct := ledger.distinct
      rowsDue := ?_
      direct := ledger.direct
      bounded := ?_
      covered := fun _ => ⟨bound, rfl, ?_⟩
      complete := fun impossible => by cases impossible }
  · rw [sameDue]
    exact ledger.rowsDue
  · rintro _ ⟨⟩
    rcases isBound with ⟨isRow, _⟩ | ⟨none, rfl⟩
    · exact ⟨upToLast bound isRow, Or.inr ⟨bound, isRow, le_rfl⟩⟩
    · exact ⟨le_rfl, Or.inl none⟩
  · rw [sameDue]
    exact fun messageId isDue _ => ledger.complete isActive messageId isDue

/-- The statements of a catch-up run, and what they insert. -/
theorem Ledger.addMissingMessages (ledger : Ledger db) (consistent : Consistent db)
    (isIdle : db.longTermIdle = true) :
    ∃ ids, db.addMissingMessages = .ok (insertBatches ids.length ids) ∧
      Missing db.due db.userMessageIds ids := by
  obtain ⟨bound, isBound, covered⟩ := ledger.covered isIdle
  exact addMissingMessages_eq consistent isBound covered ledger.direct

/-- A reactivation succeeds in every state, and leaves nothing missing. -/
theorem Ledger.reactivateUserIfSoftDeactivated (ledger : Ledger db) (consistent : Consistent db) :
    ∃ writes, db.reactivateUserIfSoftDeactivated =
        .ok (if db.longTermIdle then
          { db.executeAll writes with longTermIdle := false }.logEvent .userSoftActivated none none
          else db) ∧
      Ledger (db.executeAll writes) ∧
      (db.longTermIdle = true →
        ∀ messageId ∈ db.due, messageId ∈ (db.executeAll writes).userMessageIds) := by
  cases isIdle : db.longTermIdle with
  | false =>
      exact ⟨[], by simp [Database.reactivateUserIfSoftDeactivated, isIdle], ledger,
        fun impossible => by cases impossible⟩
  | true =>
      obtain ⟨ids, planned, missing⟩ := ledger.addMissingMessages consistent isIdle
      refine ⟨insertBatches ids.length ids, ?_, ?_, fun _ =>
        (ledger.missing_executeAll missing le_rfl).complete⟩
      · simp [Database.reactivateUserIfSoftDeactivated, isIdle, planned, bind, Except.bind]
      · simpa using ledger.executeAll_take missing ids.length
          (insertBatches ids.length ids).length

theorem Ledger.reactivate (ledger : Ledger db) (consistent : Consistent db)
    (done : db.reactivateUserIfSoftDeactivated = .ok next) : Ledger next := by
  obtain ⟨writes, succeeds, executed, complete⟩ :=
    ledger.reactivateUserIfSoftDeactivated consistent
  rw [succeeds, Except.ok.injEq] at done
  subst done
  cases isIdle : db.longTermIdle with
  | false => exact ledger
  | true =>
      have sameDue := Database.due_logEvent { db.executeAll writes with longTermIdle := false }
        EventType.isSubscriptionEvent_userSoftActivated
      have executedDue : ({ db.executeAll writes with longTermIdle := false } : Database).due =
          db.due := Database.executeAll_due writes
      refine
        { distinct := executed.distinct
          rowsDue := ?_
          direct := executed.direct
          bounded := executed.bounded
          covered := fun impossible => by cases impossible
          complete := fun _ => ?_ }
      · rw [if_pos rfl, sameDue]
        exact executed.rowsDue
      · rw [if_pos rfl, sameDue, executedDue]
        exact complete isIdle

/-- Every step keeps the tables consistent. -/
theorem Consistent.step {action : Action} (consistent : Consistent db) (ledger : Ledger db)
    (step : Step db action next) : Consistent next := by
  cases step with
  | send fresh => exact consistent.send fresh
  | subscribe => exact (subscriptionChange_subscribe db _).consistent consistent
  | unsubscribe => exact (subscriptionChange_unsubscribe db _).consistent consistent
  | softDeactivate isActive done =>
      obtain ⟨bound, rfl, _⟩ := Database.doSoftDeactivateUser_eq_ok done
      have unlogged : Consistent
          { db with longTermIdle := true, lastActiveMessageId := some bound } :=
        consistent.congr rfl rfl rfl
      exact unlogged.logEvent EventType.isSubscriptionEvent_userSoftDeactivated
  | addMissingMessages isIdle planned => exact consistent.executeAll _
  | reactivate done =>
      obtain ⟨writes, succeeds, _⟩ := ledger.reactivateUserIfSoftDeactivated consistent
      rw [succeeds, Except.ok.injEq] at done
      subst done
      split
      · have unlogged : Consistent { db.executeAll writes with longTermIdle := false } :=
          (consistent.executeAll writes).congr rfl rfl rfl
        exact unlogged.logEvent EventType.isSubscriptionEvent_userSoftActivated
      · exact consistent

/-- Every step keeps the ledger. -/
theorem Ledger.step {action : Action} (ledger : Ledger db) (consistent : Consistent db)
    (step : Step db action next) : Ledger next := by
  cases step with
  | send fresh => exact ledger.send consistent fresh
  | subscribe => exact ledger.changeSubscription consistent (subscriptionChange_subscribe db _)
  | unsubscribe => exact ledger.changeSubscription consistent (subscriptionChange_unsubscribe db _)
  | softDeactivate isActive done => exact ledger.softDeactivate isActive done
  | addMissingMessages isIdle planned =>
      obtain ⟨ids, isPlan, missing⟩ := ledger.addMissingMessages consistent isIdle
      rw [isPlan, Except.ok.injEq] at planned
      subst planned
      exact ledger.executeAll_take missing _ _
  | reactivate done => exact ledger.reactivate consistent done

/-! ## The user who was never soft-deactivated -/

/-- `twin` is a user with the same messages and subscriptions who is not soft-deactivated, and
who has the rows that are due. -/
structure Shadows (db twin : Database) : Prop where
  isActive : twin.longTermIdle = false
  messages : twin.messages = db.messages
  subscriptions : twin.subscriptions = db.subscriptions
  rows : ∀ messageId, messageId ∈ twin.userMessageIds ↔ messageId ∈ db.due

/-- Maintenance of the rows concerns nobody else. -/
theorem Shadows.congr {twin : Database} (shadows : Shadows db twin)
    (messages : next.messages = db.messages) (subscriptions : next.subscriptions = db.subscriptions)
    (due : next.due = db.due) : Shadows next twin where
  isActive := shadows.isActive
  messages := shadows.messages.trans messages.symm
  subscriptions := shadows.subscriptions.trans subscriptions.symm
  rows messageId := by
    rw [due]
    exact shadows.rows messageId

theorem Shadows.send {twin : Database} (shadows : Shadows db twin) (consistent : Consistent db)
    {message : Message} {info : SendInfo} (fresh : db.getLastMessageId < message.id) :
    Shadows (db.send message info) (twin.send message info) where
  isActive := shadows.isActive
  messages := by rw [Database.send_messages, Database.send_messages, shadows.messages]
  subscriptions := shadows.subscriptions
  rows messageId := by
    have sameAddressed : twin.addressed message.recipient = db.addressed message.recipient := by
      cases message.recipient with
      | direct toUser => rfl
      | stream streamId => rw [Database.addressed, shadows.subscriptions, Database.addressed]
    rw [due_send consistent fresh, Database.mem_userMessageIds_send, shadows.rows,
      ← sameAddressed]
    refine or_congr_right (and_congr_right fun _ => ⟨fun ⟨eligible, _⟩ => ?_, fun addressed => ?_⟩)
    · exact Database.addressed_of_umEligible eligible
    · exact Database.createUserMessages_of_active shadows.isActive addressed

theorem Shadows.changeSubscription {twin twinNext : Database} (shadows : Shadows db twin)
    (consistent : Consistent db) (change : SubscriptionChange db next)
    (twinChange : SubscriptionChange twin twinNext)
    (same : twinNext.subscriptions = next.subscriptions) : Shadows next twinNext := by
  obtain ⟨messages, _, _, _⟩ := change.frame
  obtain ⟨twinMessages, twinUserMessages, twinIdle, _⟩ := twinChange.frame
  have sameRows : twinNext.userMessageIds = twin.userMessageIds := by
    rw [Database.userMessageIds, twinUserMessages, Database.userMessageIds]
  constructor
  · exact twinIdle.trans shadows.isActive
  · rw [twinMessages, messages, shadows.messages]
  · exact same
  · intro messageId
    rw [sameRows, change.due_eq consistent]
    exact shadows.rows messageId

theorem Database.subscribe_subscriptions {other : Database} (streamId : Nat)
    (same : other.subscriptions = db.subscriptions) :
    (other.subscribe streamId).subscriptions = (db.subscribe streamId).subscriptions := by
  unfold subscribe
  rw [same]
  split <;> simp [changeSubscription, logEvent, same]

theorem Database.unsubscribe_subscriptions {other : Database} (streamId : Nat)
    (same : other.subscriptions = db.subscriptions) :
    (other.unsubscribe streamId).subscriptions = (db.unsubscribe streamId).subscriptions := by
  unfold unsubscribe
  rw [same]
  split <;> simp [changeSubscription, logEvent, same]

/-- The shadow keeps up with every step. -/
theorem Shadows.step {twin : Database} {action : Action} (shadows : Shadows db twin)
    (consistent : Consistent db) (ledger : Ledger db) (step : Step db action next) :
    Shadows next (neverSoftDeactivated twin action) := by
  cases step with
  | send fresh => exact shadows.send consistent fresh
  | @subscribe streamId =>
      exact shadows.changeSubscription consistent (subscriptionChange_subscribe db streamId)
        (subscriptionChange_subscribe twin streamId)
        (Database.subscribe_subscriptions streamId shadows.subscriptions)
  | @unsubscribe streamId =>
      exact shadows.changeSubscription consistent (subscriptionChange_unsubscribe db streamId)
        (subscriptionChange_unsubscribe twin streamId)
        (Database.unsubscribe_subscriptions streamId shadows.subscriptions)
  | softDeactivate isActive done =>
      obtain ⟨bound, rfl, _⟩ := Database.doSoftDeactivateUser_eq_ok done
      exact shadows.congr rfl rfl
        (Database.due_logEvent _ EventType.isSubscriptionEvent_userSoftDeactivated)
  | @addMissingMessages writes statements isIdle planned =>
      obtain ⟨messages, subscriptions, _⟩ := db.executeAll_frame (writes.take statements)
      exact shadows.congr messages subscriptions (Database.executeAll_due _)
  | reactivate done =>
      obtain ⟨writes, succeeds, _⟩ := ledger.reactivateUserIfSoftDeactivated consistent
      obtain ⟨messages, subscriptions, _⟩ := db.executeAll_frame writes
      rw [succeeds, Except.ok.injEq] at done
      subst done
      split
      · refine shadows.congr messages subscriptions ?_
        rw [Database.due_logEvent _ EventType.isSubscriptionEvent_userSoftActivated]
        exact Database.executeAll_due writes
      · exact shadows

/-! ## The bound -/

/-- `last_active_message_id` is not lower in the second state. -/
def BoundRises (earlier later : Database) : Prop :=
  ∀ first ∈ earlier.lastActiveMessageId, ∃ second ∈ later.lastActiveMessageId, first ≤ second

theorem BoundRises.of_eq (same : next.lastActiveMessageId = db.lastActiveMessageId) :
    BoundRises db next :=
  fun first isFirst => ⟨first, same ▸ isFirst, le_rfl⟩

theorem BoundRises.trans {first second third : Database} (before : BoundRises first second)
    (after : BoundRises second third) : BoundRises first third := by
  intro bound isBound
  obtain ⟨middle, isMiddle, upToMiddle⟩ := before bound isBound
  obtain ⟨last, isLast, upToLast⟩ := after middle isMiddle
  exact ⟨last, isLast, le_trans upToMiddle upToLast⟩

theorem BoundRises.execute (db : Database) (write : Write) : BoundRises db (db.execute write) := by
  cases write with
  | bulkInsertAllUms messageIds flags => exact BoundRises.of_eq rfl
  | updateLastActiveMessageId messageId =>
      intro bound isBound
      exact ⟨max bound messageId, by simp [Database.execute, Option.mem_def.mp isBound],
        le_max_left _ _⟩

theorem BoundRises.executeAll (writes : List Write) (db : Database) :
    BoundRises db (db.executeAll writes) := by
  induction writes generalizing db with
  | nil => exact BoundRises.of_eq rfl
  | cons write rest inductionHypothesis =>
      exact (BoundRises.execute db write).trans (inductionHypothesis (db.execute write))

/-- No step lowers the bound. -/
theorem BoundRises.step {action : Action} (consistent : Consistent db) (ledger : Ledger db)
    (step : Step db action next) : BoundRises db next := by
  cases step with
  | send fresh => exact BoundRises.of_eq rfl
  | subscribe => exact BoundRises.of_eq (subscriptionChange_subscribe db _).frame.2.2.2
  | unsubscribe => exact BoundRises.of_eq (subscriptionChange_unsubscribe db _).frame.2.2.2
  | softDeactivate isActive done =>
      obtain ⟨bound, rfl, isBound⟩ := Database.doSoftDeactivateUser_eq_ok done
      intro before isBefore
      refine ⟨bound, rfl, ?_⟩
      obtain ⟨upToLast, rows⟩ := ledger.bounded before isBefore
      rcases isBound with ⟨isRow, largest⟩ | ⟨_, rfl⟩
      · -- An earlier bound is not after the last row.
        rcases rows with none | ⟨row, hasRow, within⟩
        · rw [none] at isRow
          cases isRow
        · exact le_trans within (largest row hasRow)
      · exact upToLast
  | addMissingMessages isIdle planned => exact BoundRises.executeAll _ db
  | reactivate done =>
      obtain ⟨writes, succeeds, _⟩ := ledger.reactivateUserIfSoftDeactivated consistent
      rw [succeeds, Except.ok.injEq] at done
      subst done
      split
      · exact (BoundRises.executeAll writes db).trans (BoundRises.of_eq rfl)
      · exact BoundRises.of_eq rfl

end Steps

/-! ## Runs -/

theorem consistent_empty : Consistent Database.empty where
  increasing := by simp [Database.empty]
  logIds := by simp [Database.empty]
  logIdsBelow := by simp [Database.empty]
  recorded := by simp [Database.empty]
  chronological := by simp [Database.empty]
  logged := by simp [Database.empty]
  ends := by simp [Database.empty, Database.streamLogs, endsSubscribed]

theorem due_empty : Database.empty.due = ∅ := by
  simp [Database.due, Database.empty]

theorem ledger_empty : Ledger Database.empty where
  distinct := by simp [Database.empty, Database.userMessageIds]
  rowsDue := by simp [Database.empty, Database.userMessageIds]
  direct := by simp [Database.empty]
  bounded := by simp [Database.empty]
  covered := by simp [Database.empty]
  complete := by simp [due_empty]

theorem shadows_empty : Shadows Database.empty Database.empty where
  isActive := rfl
  messages := rfl
  subscriptions := rfl
  rows messageId := by
    rw [due_empty]
    simp [Database.empty, Database.userMessageIds]

section Runs

variable {trace : List (Database × Action)} {before after : Database}

/-- The part of the invariant that does not mention the shadow. -/
def WellFormed (db : Database) : Prop := Consistent db ∧ Ledger db

theorem wellFormed_empty : WellFormed Database.empty := ⟨consistent_empty, ledger_empty⟩

theorem WellFormed.step {db : Database} {action : Action} {next : Database}
    (wellFormed : WellFormed db) (step : Step db action next) : WellFormed next :=
  ⟨wellFormed.1.step wellFormed.2 step, wellFormed.2.step wellFormed.1 step⟩

/-- Every state of a run is consistent and keeps its ledger, and the shadow follows it. -/
theorem run_invariant (run : Run Step Database.empty trace before) :
    Consistent before ∧ Ledger before ∧
      Shadows before ((trace.map Prod.snd).foldl neverSoftDeactivated Database.empty) := by
  refine @Run.history _ _ _ (fun trace db => Consistent db ∧ Ledger db ∧
    Shadows db ((trace.map Prod.snd).foldl neverSoftDeactivated Database.empty)) _ _ _ run
    ⟨consistent_empty, ledger_empty, shadows_empty⟩ ?_
  rintro trace db action next ⟨consistent, ledger, shadows⟩ step
  refine ⟨consistent.step ledger step, ledger.step consistent step, ?_⟩
  rw [List.map_append, List.map_singleton, List.foldl_append, List.foldl_cons, List.foldl_nil]
  exact shadows.step consistent ledger step

/-- A reactivated user is not soft-deactivated. -/
theorem longTermIdle_of_reactivated
    (completed : before.reactivateUserIfSoftDeactivated = .ok after) :
    after.longTermIdle = false := by
  unfold Database.reactivateUserIfSoftDeactivated at completed
  cases isIdle : before.longTermIdle with
  | false =>
      rw [isIdle, if_neg Bool.false_ne_true, Except.ok.injEq] at completed
      rw [← completed, isIdle]
  | true =>
      rw [isIdle, if_pos rfl] at completed
      cases planned : before.addMissingMessages with
      | error failure =>
          rw [planned] at completed
          cases completed
      | ok writes =>
          rw [planned] at completed
          cases completed
          rfl

/-- A reactivation can be completed after any history, and leaves no message with two rows. -/
theorem reactivation_completes (run : Run Step Database.empty trace before) :
    ∃ after, before.reactivateUserIfSoftDeactivated = .ok after ∧ after.longTermIdle = false ∧
      after.userMessageIds.Nodup := by
  obtain ⟨consistent, ledger, _⟩ := run_invariant run
  obtain ⟨_, succeeds, _⟩ := ledger.reactivateUserIfSoftDeactivated consistent
  obtain ⟨_, ledgerAfter, _⟩ := run_invariant (run.step (Step.reactivate succeeds))
  exact ⟨_, succeeds, longTermIdle_of_reactivated succeeds, ledgerAfter.distinct⟩

/-- After any history that ends with a reactivation the user has exactly the rows of a user
who was never soft-deactivated. No message ever has two rows, and
`last_active_message_id` never decreases. -/
theorem softDeactivation_invisible (run : Run Step Database.empty trace before)
    (completed : before.reactivateUserIfSoftDeactivated = .ok after) :
    (∀ messageId, messageId ∈ after.userMessageIds ↔ messageId ∈
      ((trace.map Prod.snd).foldl neverSoftDeactivated Database.empty).userMessageIds) ∧
    (∀ db ∈ trace.map Prod.fst ++ [before] ++ [after], db.userMessageIds.Nodup) ∧
    (trace.map Prod.fst ++ [before] ++ [after]).Pairwise BoundRises := by
  have whole : Run Step Database.empty (trace ++ [(before, .reactivate)]) after :=
    run.step (Step.reactivate completed)
  have visited : (trace ++ [(before, Action.reactivate)]).map Prod.fst ++ [after] =
      trace.map Prod.fst ++ [before] ++ [after] := by simp
  obtain ⟨_, ledger, shadows⟩ := run_invariant whole
  refine ⟨fun messageId => ?_, ?_, ?_⟩
  · have sameShadow : ((trace ++ [(before, Action.reactivate)]).map Prod.snd).foldl
        neverSoftDeactivated Database.empty =
          (trace.map Prod.snd).foldl neverSoftDeactivated Database.empty := by
      simp [neverSoftDeactivated]
    rw [← sameShadow, shadows.rows]
    exact ⟨ledger.rowsDue messageId,
      ledger.complete (longTermIdle_of_reactivated completed) messageId⟩
  · rw [← visited]
    exact fun db member => (whole.visited wellFormed_empty WellFormed.step db member).2.distinct
  · rw [← visited]
    exact whole.pairwise wellFormed_empty WellFormed.step BoundRises.trans
      fun wellFormed step => BoundRises.step wellFormed.1 wellFormed.2 step

end Runs

/-! A user misses message 2 while soft-deactivated, unsubscribes, and is caught up by a run that
stops after the insertion. -/

section Example

/-- A message without flags, to a user without notifications. -/
private def plain : SendInfo where
  possibleStreamWildcardMention := false
  possiblyMentioned := false
  topicParticipant := false
  pushNotifications := none
  emailNotifications := none
  enableStreamPushNotifications := false
  enableStreamEmailNotifications := false
  hasAlertWords := false
  followsTopic := false
  mentionsStreamWildcard := false
  mentionsTopicWildcard := false
  markAsRead := false
  limitUnread := none
  mentioned := false
  alertWordFound := false
  streamPush := false
  streamEmail := false
  followedTopicPush := false
  followedTopicEmail := false

private def missedMessage : Database where
  messages := [⟨1, .stream 7⟩, ⟨2, .stream 7⟩, ⟨3, .stream 7⟩]
  subscriptions := Dict.ofList [(7, false)]
  auditLogs := [⟨0, .subscriptionCreated, some 7, some (-1)⟩, ⟨1, .userSoftDeactivated, none, none⟩,
    ⟨2, .subscriptionDeactivated, some 7, some 2⟩]
  userMessages := [⟨1, 0⟩]
  longTermIdle := true
  lastActiveMessageId := some 1

private def deactivated : Database :=
  { ((Database.empty.subscribe 7).send ⟨1, .stream 7⟩ plain) with
    longTermIdle := true
    lastActiveMessageId := some 1 }.logEvent .userSoftDeactivated none none

private def interrupted : Database :=
  missedMessage.execute (.bulkInsertAllUms [2] 0)

private theorem interrupted_reached : ∃ trace, Run Step Database.empty trace interrupted := by
  have subscribed : Run Step Database.empty _ _ := Run.refl.step (@Step.subscribe _ 7)
  have received := subscribed.step (@Step.send _ ⟨1, .stream 7⟩ plain (by decide))
  have idle := received.step (@Step.softDeactivate _ deactivated rfl (by decide))
  have missed := idle.step (@Step.send _ ⟨2, .stream 7⟩ plain (by decide))
  have unsubscribed := missed.step (@Step.unsubscribe _ 7)
  have unseen := unsubscribed.step (@Step.send _ ⟨3, .stream 7⟩ plain (by decide))
  have planned : missedMessage.addMissingMessages =
      .ok [.bulkInsertAllUms [2] 0, .updateLastActiveMessageId 2] := by decide
  exact ⟨_, unseen.step (@Step.addMissingMessages missedMessage _ 1 rfl planned)⟩

theorem reactivation_completes_interrupted :
    ∃ after, interrupted.reactivateUserIfSoftDeactivated = .ok after ∧
      after.longTermIdle = false ∧ after.userMessageIds.Nodup := by
  obtain ⟨trace, run⟩ := interrupted_reached
  exact reactivation_completes run

private def reactivated : Database :=
  { interrupted with longTermIdle := false }.logEvent .userSoftActivated none none

theorem softDeactivation_invisible_interrupted :
    ∃ trace, Run Step Database.empty trace interrupted ∧
      ∀ messageId, messageId ∈ [1, 2] ↔ messageId ∈
        ((trace.map Prod.snd).foldl neverSoftDeactivated Database.empty).userMessageIds := by
  obtain ⟨trace, run⟩ := interrupted_reached
  have completed : interrupted.reactivateUserIfSoftDeactivated = .ok reactivated := by decide
  exact ⟨trace, run, (softDeactivation_invisible run completed).1⟩

end Example

end Zulip.SoftDeactivation
