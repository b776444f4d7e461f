import Mathlib.Data.List.Basic
import Zulip.Foundation.Dict
import Zulip.Foundation.Transition
import Zulip.Tornado.Notices

/-!
# The worker that batches missed-message emails

`MissedMessageWorker` has two threads. The main one makes a row of each event of its queue, with the
time at which an email is due; the other one waits on a condition variable, looks for due rows and
hands them over in batches. A step is what a thread does while it holds the lock, or one query or
one call; steps of other processes, exceptions, alarms and restarts come at any point, except that
the rows of a batch are locked until the end of its transaction.
`nothingMissed_always_iff` is the condition under which no wakeup is lost.
-/

namespace Zulip.MissedMessages

open Tornado

/-- A planned email, which other rows of its user may join. -/
structure ScheduledMessageNotificationEmail where
  id : ℕ
  userProfileId : ℤ
  messageId : ℤ
  trigger : NotificationTrigger
  mentionedUserGroupId : Option ℤ
  scheduledTimestamp : ℤ
deriving DecidableEq, Repr

/-- What a row refers to, and goes with (`on_delete=CASCADE`). -/
inductive Referenced where
  | userProfile (id : ℤ)
  | message (id : ℤ)
  | mentionedUserGroup (id : ℤ)
deriving DecidableEq

structure MissedMessageData where
  trigger : NotificationTrigger
  mentionedUserGroupId : Option ℤ
deriving DecidableEq, Repr

namespace ScheduledMessageNotificationEmail

/-- The entry of a row in the batch of its user. -/
def data (email : ScheduledMessageNotificationEmail) : MissedMessageData :=
  ⟨email.trigger, email.mentionedUserGroupId⟩

/-- What a row asks for: an email to a user about a message. -/
def about (email : ScheduledMessageNotificationEmail) : ℤ × ℤ :=
  (email.userProfileId, email.messageId)

def refersTo (email : ScheduledMessageNotificationEmail) : Referenced → Bool
  | .userProfile id => decide (email.userProfileId = id)
  | .message id => decide (email.messageId = id)
  | .mentionedUserGroup id => decide (email.mentionedUserGroupId = some id)

/-- A row of a user is moved by this time. -/
def movedBy (email : ScheduledMessageNotificationEmail) (userProfileId change : ℤ) :
    ScheduledMessageNotificationEmail :=
  if email.userProfileId = userProfileId then
    { email with scheduledTimestamp := email.scheduledTimestamp + change }
  else email

@[simp] theorem movedBy_id (email : ScheduledMessageNotificationEmail) (userProfileId change : ℤ) :
    (email.movedBy userProfileId change).id = email.id := by
  unfold movedBy
  split_ifs <;> rfl

@[simp] theorem movedBy_userProfileId (email : ScheduledMessageNotificationEmail)
    (userProfileId change : ℤ) :
    (email.movedBy userProfileId change).userProfileId = email.userProfileId := by
  unfold movedBy
  split_ifs <;> rfl

@[simp] theorem movedBy_about (email : ScheduledMessageNotificationEmail)
    (userProfileId change : ℤ) : (email.movedBy userProfileId change).about = email.about := by
  unfold movedBy
  split_ifs <;> rfl

@[simp] theorem movedBy_refersTo (email : ScheduledMessageNotificationEmail)
    (userProfileId change : ℤ) :
    (email.movedBy userProfileId change).refersTo = email.refersTo := by
  funext referenced
  unfold movedBy
  split_ifs
  · cases referenced <;> rfl
  · rfl

theorem movedBy_of_ne {email : ScheduledMessageNotificationEmail} {userProfileId : ℤ}
    (other : email.userProfileId ≠ userProfileId) (change : ℤ) :
    email.movedBy userProfileId change = email :=
  if_neg other

/-- `scheduled_timestamp__lte` -/
def due (email : ScheduledMessageNotificationEmail) (currentTime : ℤ) : Bool :=
  decide (email.scheduledTimestamp ≤ currentTime)

@[simp] theorem due_iff {email : ScheduledMessageNotificationEmail} {currentTime : ℤ} :
    email.due currentTime = true ↔ email.scheduledTimestamp ≤ currentTime :=
  decide_eq_true_iff

@[simp] theorem due_eq_false_iff {email : ScheduledMessageNotificationEmail} {currentTime : ℤ} :
    email.due currentTime = false ↔ currentTime < email.scheduledTimestamp := by
  rw [due, decide_eq_false_iff_not, not_le]

end ScheduledMessageNotificationEmail

/-- The rows of each user, by message; a later row for the same message replaces an earlier one. -/
def eventsByRecipient (events : List ScheduledMessageNotificationEmail) :
    Dict ℤ (Dict ℤ MissedMessageData) :=
  events.foldl (fun byRecipient event => byRecipient.set event.userProfileId
    ((byRecipient.getD event.userProfileId .empty).set event.messageId event.data)) .empty

/-- Where the worker thread stands. -/
inductive WorkerThread where
  /-- about to take the lock of `background_loop` -/
  | backgroundLoop
  /-- in `cv.wait_for`, without the lock -/
  | waitFor (timeout : Option ℕ) (notified : Bool)
  | maybeSendBatchedEmails
  /-- in the transaction, with the users that are left -/
  | handling (currentTime : ℤ) (remaining : List (ℤ × Dict ℤ MissedMessageData))
  /-- an exception is on its way to `work` -/
  | raised
  /-- in `cv.wait` of the handler in `work` -/
  | backingOff
  | finished
deriving DecidableEq

/-- `cv.notify`: only the worker thread ever waits. -/
def WorkerThread.notify : WorkerThread → WorkerThread
  | .waitFor timeout _ => .waitFor timeout true
  | thread => thread

/-- The time of the batch that is being handed over. -/
def WorkerThread.currentTime? : WorkerThread → Option ℤ
  | .handling currentTime _ => some currentTime
  | _ => none

/-- Where the main thread stands. -/
inductive MainThread where
  | idle
  /-- about to take the lock of `consume` -/
  | consuming (event : Tornado.Notice) (scheduledTimestamp : ℤ)
deriving DecidableEq

/-- What `consume` is about to make a row for. -/
def MainThread.about? : MainThread → Option (ℤ × ℤ)
  | .consuming event _ => some (event.userProfileId, event.messageId)
  | .idle => none

def MainThread.scheduledTimestamp? : MainThread → Option ℤ
  | .consuming _ scheduledTimestamp => some scheduledTimestamp
  | .idle => none

/-- The table with the rows that the transaction of a batch has locked, both threads and what their
lock protects; `created` and `handled` remember the rows that were ever made, at their times by now,
and the calls of `handle_missedmessage_emails`. -/
structure WorkerState where
  emails : List ScheduledMessageNotificationEmail
  nextId : ℕ
  locked : List ℕ
  deleted : List Referenced
  mainThread : MainThread
  workerThread : WorkerThread
  stopping : Bool
  hasTimeout : Bool
  backoff : ℕ
  created : List ScheduledMessageNotificationEmail
  handled : List (ℤ × Dict ℤ MissedMessageData)
deriving DecidableEq

/-- `CHECK_FREQUENCY_SECONDS` -/
def checkFrequencySeconds : ℕ := 5

namespace WorkerState

/-- A database without rows, and a worker that has just been started. -/
def start : WorkerState where
  emails := []
  nextId := 0
  locked := []
  deleted := []
  mainThread := .idle
  workerThread := .backgroundLoop
  stopping := false
  hasTimeout := false
  backoff := 1
  created := []
  handled := []

/-- The time of the rows that the user already has, or the end of a new batching period. -/
def scheduledTimestampFor (state : WorkerState) (userProfileId now batchDuration : ℤ) : ℤ :=
  match state.emails.find? fun email => email.userProfileId = userProfileId with
  | some pendingEmail => pendingEmail.scheduledTimestamp
  | none => now + batchDuration

/-- The row of an event, or `none` for an `IntegrityError`: what it refers to is gone, or it has no
trigger. -/
def newRow (state : WorkerState) (event : Tornado.Notice) (scheduledTimestamp : ℤ) :
    Option ScheduledMessageNotificationEmail :=
  (event.trigger.map fun trigger =>
    { id := state.nextId
      userProfileId := event.userProfileId
      messageId := event.messageId
      trigger
      mentionedUserGroupId := event.mentionedUserGroupId
      scheduledTimestamp }).filter fun row => !state.deleted.any row.refersTo

/-- The table with one more row, when `consume` is done. -/
def insertRow (state : WorkerState) (row : ScheduledMessageNotificationEmail) : WorkerState :=
  { state with
    mainThread := .idle
    emails := state.emails ++ [row]
    nextId := state.nextId + 1
    created := state.created ++ [row] }

/-- `if not self.has_timeout: self.cv.notify()` -/
def notifyIfAsleep (state : WorkerState) : WorkerState :=
  if state.hasTimeout then state else { state with workerThread := state.workerThread.notify }

/-- A row of the user is locked. -/
def hasLockedRow (state : WorkerState) (userProfileId : ℤ) : Bool :=
  state.emails.any fun email =>
    decide (email.userProfileId = userProfileId) && decide (email.id ∈ state.locked)

def updateScheduledEmailNotificationsTime (state : WorkerState)
    (userProfileId oldBatchingPeriod newBatchingPeriod : ℤ) : WorkerState :=
  let scheduledTimestampChange := newBatchingPeriod - oldBatchingPeriod
  { state with
    emails := state.emails.map (·.movedBy userProfileId scheduledTimestampChange)
    created := state.created.map (·.movedBy userProfileId scheduledTimestampChange) }

/-- The rows of the batch, at the time of its selection. -/
def eventsToProcess (state : WorkerState) (currentTime : ℤ) :
    List ScheduledMessageNotificationEmail :=
  state.emails.filter fun email => email.due currentTime

/-- `background_loop` returns, and `work` resets its backoff. -/
def loopAgain (state : WorkerState) : WorkerState :=
  { state with workerThread := .backgroundLoop, backoff := 1 }

/-- What comes before `cv.wait_for`, under the lock. -/
def enterBackgroundLoop (state : WorkerState) : WorkerState :=
  if state.stopping then { state with workerThread := .finished }
  else
    let timeout := if state.emails.isEmpty then none else some checkFrequencySeconds
    { state with hasTimeout := timeout.isSome, workerThread := .waitFor timeout false }

/-- `wait_condition` -/
def waitCondition (state : WorkerState) (timeout : Option ℕ) : Bool :=
  state.stopping || (timeout.isNone && !state.emails.isEmpty)

end WorkerState

/-- One step of a thread or of the rest of the world. -/
inductive Action where
  /-- `consume` up to the lock, for a user with this batching period -/
  | readPending (event : Tornado.Notice) (now batchDuration : ℤ)
  /-- `consume` under the lock -/
  | createRow
  /-- an exception before the row is made -/
  | consumeFails
  /-- an exception, such as that of the alarm, after the row is made -/
  | notifyFails
  /-- the rows that refer to something go with it -/
  | delete (referenced : Referenced)
  /-- a user changes the setting `email_notifications_batching_period_seconds` -/
  | updateScheduledTime (userProfileId oldBatchingPeriod newBatchingPeriod : ℤ)
  | stop
  | startAgain
  /-- the process dies and comes back -/
  | restart
  | enterBackgroundLoop
  | wakeUp
  | timeoutExpires
  | selectDue (currentTime : ℤ)
  | handleEmails
  | deleteDue
  /-- a query of the worker thread raises -/
  | workerFails
  | backOff
  | backoffOver
deriving DecidableEq

namespace Action

/-- What an action does, if it can happen. -/
def perform (state : WorkerState) : Action → Option WorkerState
  | readPending event now batchDuration =>
      match state.mainThread with
      | .idle =>
          let scheduledTimestamp :=
            state.scheduledTimestampFor event.userProfileId now batchDuration
          some { state with mainThread := .consuming event scheduledTimestamp }
      | .consuming .. => none
  | createRow =>
      match state.mainThread with
      | .idle => none
      | .consuming event scheduledTimestamp =>
          match state.newRow event scheduledTimestamp with
          | none => some { state with mainThread := .idle }
          | some row => some (state.insertRow row).notifyIfAsleep
  | notifyFails =>
      match state.mainThread with
      | .idle => none
      | .consuming event scheduledTimestamp =>
          (state.newRow event scheduledTimestamp).map state.insertRow
  | consumeFails => some { state with mainThread := .idle }
  | delete referenced => some { state with
      emails := state.emails.filter fun email => !email.refersTo referenced
      deleted := referenced :: state.deleted }
  | updateScheduledTime userProfileId oldBatchingPeriod newBatchingPeriod =>
      -- the update waits for the locks of `select_for_update`
      if state.hasLockedRow userProfileId then none
      else some (state.updateScheduledEmailNotificationsTime userProfileId oldBatchingPeriod
        newBatchingPeriod)
  | stop => some { state with stopping := true, workerThread := state.workerThread.notify }
  | startAgain =>
      match state.workerThread with
      | .finished =>
          some { state with stopping := false, workerThread := .backgroundLoop, backoff := 1 }
      | _ => none
  | restart => some { state with
      mainThread := .idle, workerThread := .backgroundLoop, stopping := false, hasTimeout := false
      backoff := 1, locked := [] }
  | enterBackgroundLoop =>
      match state.workerThread with
      | .backgroundLoop => some state.enterBackgroundLoop
      | _ => none
  | wakeUp =>
      match state.workerThread with
      | .waitFor timeout true =>
          if state.waitCondition timeout then some state.loopAgain
          else some { state with workerThread := .waitFor timeout false }
      | _ => none
  | timeoutExpires =>
      match state.workerThread with
      | .waitFor (some _) _ =>
          if state.stopping then some state.loopAgain
          else some { state with workerThread := .maybeSendBatchedEmails }
      | _ => none
  | selectDue currentTime =>
      match state.workerThread with
      | .maybeSendBatchedEmails =>
          let events := state.eventsToProcess currentTime
          some { state with
            locked := events.map ScheduledMessageNotificationEmail.id
            workerThread := .handling currentTime (eventsByRecipient events).entries }
      | _ => none
  | handleEmails =>
      match state.workerThread with
      | .handling currentTime (batch :: remaining) => some { state with
          handled := state.handled ++ [batch], workerThread := .handling currentTime remaining }
      | _ => none
  | deleteDue =>
      -- the query runs again for the `DELETE`, so that it may meet rows that are newer than the batch
      match state.workerThread with
      | .handling currentTime [] => some ({ state with
          emails := state.emails.filter fun email => !email.due currentTime
          locked := [] } : WorkerState).loopAgain
      | _ => none
  | workerFails =>
      match state.workerThread with
      | .backgroundLoop | .waitFor none true | .maybeSendBatchedEmails | .handling .. =>
          some { state with workerThread := .raised, locked := [] }
      | _ => none
  | backOff =>
      match state.workerThread with
      | .raised => some { state with hasTimeout := true, workerThread := .backingOff }
      | _ => none
  | backoffOver =>
      match state.workerThread with
      | .backingOff => some { state with
          workerThread := .backgroundLoop, backoff := min 30 (state.backoff * 2) }
      | _ => none

end Action

/-- An action happens. -/
def Step (state : WorkerState) (action : Action) (next : WorkerState) : Prop :=
  action.perform state = some next

/-- The cases of a step. -/
inductive Effect (state : WorkerState) : Action → WorkerState → Prop where
  | readPending {event now batchDuration} (idle : state.mainThread = .idle) :
      Effect state (.readPending event now batchDuration) { state with
        mainThread := .consuming event
          (state.scheduledTimestampFor event.userProfileId now batchDuration) }
  | skipped {event scheduledTimestamp}
      (consuming : state.mainThread = .consuming event scheduledTimestamp)
      (noRow : state.newRow event scheduledTimestamp = none) :
      Effect state .createRow { state with mainThread := .idle }
  | created {event scheduledTimestamp row}
      (consuming : state.mainThread = .consuming event scheduledTimestamp)
      (isRow : state.newRow event scheduledTimestamp = some row) :
      Effect state .createRow (state.insertRow row).notifyIfAsleep
  | unnotified {event scheduledTimestamp row}
      (consuming : state.mainThread = .consuming event scheduledTimestamp)
      (isRow : state.newRow event scheduledTimestamp = some row) :
      Effect state .notifyFails (state.insertRow row)
  | consumeFails : Effect state .consumeFails { state with mainThread := .idle }
  | delete {referenced} : Effect state (.delete referenced) { state with
      emails := state.emails.filter fun email => !email.refersTo referenced
      deleted := referenced :: state.deleted }
  | updateScheduledTime {userProfileId oldBatchingPeriod newBatchingPeriod}
      (unlocked : state.hasLockedRow userProfileId = false) :
      Effect state (.updateScheduledTime userProfileId oldBatchingPeriod newBatchingPeriod)
        (state.updateScheduledEmailNotificationsTime userProfileId oldBatchingPeriod
          newBatchingPeriod)
  | stop : Effect state .stop { state with
      stopping := true, workerThread := state.workerThread.notify }
  | startAgain (finished : state.workerThread = .finished) : Effect state .startAgain { state with
      stopping := false, workerThread := .backgroundLoop, backoff := 1 }
  | restart : Effect state .restart { state with
      mainThread := .idle, workerThread := .backgroundLoop, stopping := false, hasTimeout := false
      backoff := 1, locked := [] }
  | finish (entering : state.workerThread = .backgroundLoop) (stopping : state.stopping = true) :
      Effect state .enterBackgroundLoop { state with workerThread := .finished }
  | wait (entering : state.workerThread = .backgroundLoop) (running : state.stopping = false)
      {timeout} (isTimeout : timeout =
        if state.emails.isEmpty then none else some checkFrequencySeconds) :
      Effect state .enterBackgroundLoop { state with
        hasTimeout := timeout.isSome, workerThread := .waitFor timeout false }
  | woken {timeout} (waiting : state.workerThread = .waitFor timeout true)
      (met : state.waitCondition timeout = true) : Effect state .wakeUp state.loopAgain
  | waitAgain {timeout} (waiting : state.workerThread = .waitFor timeout true)
      (unmet : state.waitCondition timeout = false) :
      Effect state .wakeUp { state with workerThread := .waitFor timeout false }
  | stopped {timeout notified} (waiting : state.workerThread = .waitFor (some timeout) notified)
      (stopping : state.stopping = true) : Effect state .timeoutExpires state.loopAgain
  | expired {timeout notified} (waiting : state.workerThread = .waitFor (some timeout) notified)
      (running : state.stopping = false) :
      Effect state .timeoutExpires { state with workerThread := .maybeSendBatchedEmails }
  | selectDue {currentTime} (sending : state.workerThread = .maybeSendBatchedEmails) :
      Effect state (.selectDue currentTime) { state with
        locked := (state.eventsToProcess currentTime).map ScheduledMessageNotificationEmail.id
        workerThread := .handling currentTime
          (eventsByRecipient (state.eventsToProcess currentTime)).entries }
  | handleEmails {currentTime batch remaining}
      (handling : state.workerThread = .handling currentTime (batch :: remaining)) :
      Effect state .handleEmails { state with
        handled := state.handled ++ [batch], workerThread := .handling currentTime remaining }
  | deleteDue {currentTime} (handling : state.workerThread = .handling currentTime []) :
      Effect state .deleteDue ({ state with
        emails := state.emails.filter fun email => !email.due currentTime
        locked := [] } : WorkerState).loopAgain
  | workerFails (awake : ∀ timeout, state.workerThread ≠ .waitFor timeout false) :
      Effect state .workerFails { state with workerThread := .raised, locked := [] }
  | backOff (raised : state.workerThread = .raised) :
      Effect state .backOff { state with hasTimeout := true, workerThread := .backingOff }
  | backoffOver (backingOff : state.workerThread = .backingOff) :
      Effect state .backoffOver { state with
        workerThread := .backgroundLoop, backoff := min 30 (state.backoff * 2) }

/-- Every step is one of the cases. -/
theorem effect_of_step {state next : WorkerState} {action : Action}
    (step : Step state action next) : Effect state action next := by
  unfold Step at step
  cases action with
  | readPending event now batchDuration =>
      cases main : state.mainThread with
      | idle =>
          simp only [Action.perform, main, Option.some.injEq] at step
          exact step ▸ .readPending main
      | consuming => simp [Action.perform, main] at step
  | createRow =>
      cases main : state.mainThread with
      | idle => simp [Action.perform, main] at step
      | consuming event scheduledTimestamp =>
          cases isRow : state.newRow event scheduledTimestamp with
          | none =>
              simp only [Action.perform, main, isRow, Option.some.injEq] at step
              exact step ▸ .skipped main isRow
          | some row =>
              simp only [Action.perform, main, isRow, Option.some.injEq] at step
              exact step ▸ .created main isRow
  | notifyFails =>
      cases main : state.mainThread with
      | idle => simp [Action.perform, main] at step
      | consuming event scheduledTimestamp =>
          simp only [Action.perform, main] at step
          obtain ⟨row, isRow, rfl⟩ := Option.map_eq_some_iff.mp step
          exact .unnotified main isRow
  | consumeFails =>
      cases step
      exact .consumeFails
  | delete referenced =>
      cases step
      exact .delete
  | updateScheduledTime userProfileId oldBatchingPeriod newBatchingPeriod =>
      simp only [Action.perform] at step
      split_ifs at step with isLocked
      exact Option.some.inj step ▸ .updateScheduledTime (Bool.eq_false_iff.mpr isLocked)
  | stop =>
      cases step
      exact .stop
  | restart =>
      cases step
      exact .restart
  | startAgain =>
      cases thread : state.workerThread <;>
        simp only [Action.perform, thread, reduceCtorEq, Option.some.injEq] at step
      exact step ▸ .startAgain thread
  | enterBackgroundLoop =>
      cases thread : state.workerThread <;>
        simp only [Action.perform, thread, reduceCtorEq, Option.some.injEq] at step
      subst step
      by_cases stopping : state.stopping = true
      · rw [WorkerState.enterBackgroundLoop, if_pos stopping]
        exact .finish thread stopping
      · rw [WorkerState.enterBackgroundLoop, if_neg stopping]
        exact .wait thread (Bool.eq_false_iff.mpr stopping) rfl
  | wakeUp =>
      rcases thread : state.workerThread with _ | ⟨timeout, _ | _⟩ | _ | _ | _ | _ | _ <;>
        simp only [Action.perform, thread, reduceCtorEq] at step
      split_ifs at step with met
      · exact Option.some.inj step ▸ .woken thread met
      · exact Option.some.inj step ▸ .waitAgain thread (Bool.eq_false_iff.mpr met)
  | timeoutExpires =>
      rcases thread : state.workerThread with _ | ⟨_ | timeout, notified⟩ | _ | _ | _ | _ | _ <;>
        simp only [Action.perform, thread, reduceCtorEq] at step
      split_ifs at step with stopping
      · exact Option.some.inj step ▸ .stopped thread stopping
      · exact Option.some.inj step ▸ .expired thread (Bool.eq_false_iff.mpr stopping)
  | selectDue currentTime =>
      cases thread : state.workerThread <;>
        simp only [Action.perform, thread, reduceCtorEq, Option.some.injEq] at step
      exact step ▸ .selectDue thread
  | handleEmails =>
      rcases thread : state.workerThread with _ | _ | _ | ⟨currentTime, _ | _⟩ | _ | _ | _ <;>
        simp only [Action.perform, thread, reduceCtorEq, Option.some.injEq] at step
      exact step ▸ .handleEmails thread
  | deleteDue =>
      rcases thread : state.workerThread with _ | _ | _ | ⟨currentTime, _ | _⟩ | _ | _ | _ <;>
        simp only [Action.perform, thread, reduceCtorEq, Option.some.injEq] at step
      exact step ▸ .deleteDue thread
  | workerFails =>
      have awake : ∀ timeout, state.workerThread ≠ .waitFor timeout false := by
        intro timeout waiting
        cases timeout <;> simp [Action.perform, waiting] at step
      rcases thread : state.workerThread with _ | ⟨_ | _, _ | _⟩ | _ | _ | _ | _ | _ <;>
        simp only [Action.perform, thread, reduceCtorEq, Option.some.injEq] at step <;>
        exact step ▸ .workerFails awake
  | backOff =>
      cases thread : state.workerThread <;>
        simp only [Action.perform, thread, reduceCtorEq, Option.some.injEq] at step
      exact step ▸ .backOff thread
  | backoffOver =>
      cases thread : state.workerThread <;>
        simp only [Action.perform, thread, reduceCtorEq, Option.some.injEq] at step
      exact step ▸ .backoffOver thread

theorem WorkerThread.notify_eq_waitFor_iff {thread : WorkerThread} {timeout : Option ℕ}
    {notified : Bool} : thread.notify = .waitFor timeout notified ↔
      notified = true ∧ ∃ before, thread = .waitFor timeout before := by
  cases thread <;> simp [notify, and_comm, eq_comm]

@[simp] theorem WorkerState.notifyIfAsleep_emails (state : WorkerState) :
    state.notifyIfAsleep.emails = state.emails := by
  unfold notifyIfAsleep
  split_ifs <;> rfl

@[simp] theorem WorkerState.notifyIfAsleep_stopping (state : WorkerState) :
    state.notifyIfAsleep.stopping = state.stopping := by
  unfold notifyIfAsleep
  split_ifs <;> rfl

@[simp] theorem WorkerState.notifyIfAsleep_hasTimeout (state : WorkerState) :
    state.notifyIfAsleep.hasTimeout = state.hasTimeout := by
  unfold notifyIfAsleep
  split_ifs <;> rfl

/-- A worker thread that waits after `consume` waited before. -/
theorem WorkerState.waiting_of_notifyIfAsleep {state : WorkerState} {timeout : Option ℕ}
    {notified : Bool} (waiting : state.notifyIfAsleep.workerThread = .waitFor timeout notified) :
    (state.hasTimeout = true ∧ state.workerThread = .waitFor timeout notified) ∨
      (state.hasTimeout = false ∧ notified = true ∧
        ∃ before, state.workerThread = .waitFor timeout before) := by
  unfold notifyIfAsleep at waiting
  split_ifs at waiting with hasTimeout
  · exact .inl ⟨hasTimeout, waiting⟩
  · exact .inr ⟨Bool.eq_false_iff.mpr hasTimeout, WorkerThread.notify_eq_waitFor_iff.mp waiting⟩

/-- While the worker thread waits, `has_timeout` says how. -/
def TimeoutKnown (state : WorkerState) : Prop :=
  ∀ timeout notified, state.workerThread = .waitFor timeout notified →
    state.hasTimeout = timeout.isSome

/-- A worker thread that waits for a notification has something to wait for: it has not been asked
to stop, and without a timeout there is no row. -/
def NothingMissed (state : WorkerState) : Prop :=
  ∀ timeout, state.workerThread = .waitFor timeout false →
    state.stopping = false ∧ (timeout = none → state.emails = [])

/-- No exception comes between a new row and its notification while the worker thread sleeps. -/
def KeepsNotification (state : WorkerState) (action : Action) : Prop :=
  action = .notifyFails → state.workerThread ≠ .waitFor none false

theorem Effect.timeoutKnown {state next : WorkerState} {action : Action}
    (effect : Effect state action next) (known : TimeoutKnown state) : TimeoutKnown next := by
  intro timeout notified waiting
  cases effect with
  | created consuming isRow =>
      rw [WorkerState.notifyIfAsleep_hasTimeout]
      rcases WorkerState.waiting_of_notifyIfAsleep waiting with ⟨-, before⟩ | ⟨-, -, _, before⟩
      · exact known _ _ before
      · exact known _ _ before
  | stop =>
      obtain ⟨-, _, before⟩ := WorkerThread.notify_eq_waitFor_iff.mp waiting
      exact known _ _ before
  | wait entering running isTimeout =>
      cases waiting
      rfl
  | waitAgain before unmet =>
      cases waiting
      exact known _ _ before
  | readPending | skipped | unnotified | consumeFails | delete | updateScheduledTime =>
      exact known _ _ waiting
  | startAgain | restart | finish | woken | stopped | expired | selectDue | handleEmails
  | deleteDue | workerFails | backOff | backoffOver => cases waiting

theorem Effect.nothingMissed_iff {state next : WorkerState} {action : Action}
    (effect : Effect state action next) (known : TimeoutKnown state)
    (nothing : NothingMissed state) :
    NothingMissed next ↔ KeepsNotification state action := by
  constructor
  · rintro after rfl asleep
    cases effect with
    | unnotified consuming isRow =>
        obtain ⟨-, empty⟩ := after none asleep
        simp [WorkerState.insertRow] at empty
  intro keeps timeout waiting
  cases effect with
  | readPending | skipped | consumeFails => exact nothing _ waiting
  | created consuming isRow =>
      rcases WorkerState.waiting_of_notifyIfAsleep waiting with
        ⟨hasTimeout, before⟩ | ⟨-, absurd, -⟩
      · -- the worker thread wakes up by itself, so that the new row is seen
        rw [WorkerState.notifyIfAsleep_stopping]
        refine ⟨(nothing _ before).1, fun noTimeout => ?_⟩
        subst noTimeout
        have noTimeout := known _ _ before
        rw [show state.hasTimeout = true from hasTimeout] at noTimeout
        cases noTimeout
      · cases absurd
  | unnotified consuming isRow =>
      refine ⟨(nothing _ waiting).1, fun noTimeout => ?_⟩
      subst noTimeout
      exact absurd waiting (keeps rfl)
  | delete =>
      refine ⟨(nothing _ waiting).1, fun noTimeout => ?_⟩
      simp [(nothing _ waiting).2 noTimeout]
  | updateScheduledTime =>
      refine ⟨(nothing _ waiting).1, fun noTimeout => ?_⟩
      simp [WorkerState.updateScheduledEmailNotificationsTime, (nothing _ waiting).2 noTimeout]
  | stop =>
      obtain ⟨absurd, -⟩ := WorkerThread.notify_eq_waitFor_iff.mp waiting
      cases absurd
  | wait entering running isTimeout =>
      cases waiting
      refine ⟨running, fun noTimeout => ?_⟩
      rw [noTimeout] at isTimeout
      split_ifs at isTimeout with empty
      exact List.isEmpty_iff.mp empty
  | waitAgain before unmet =>
      cases waiting
      rw [WorkerState.waitCondition, Bool.or_eq_false_iff, Bool.and_eq_false_iff] at unmet
      refine ⟨unmet.1, fun noTimeout => ?_⟩
      subst noTimeout
      have empty := unmet.2.resolve_left (by simp)
      exact List.isEmpty_iff.mp (by simpa using empty)
  | startAgain | restart | finish | woken | stopped | expired | selectDue | handleEmails
  | deleteDue | workerFails | backOff | backoffOver => cases waiting

/-- The worker thread never misses a row or a call of `stop`, in any order of steps of both threads,
exactly when no exception comes between a new row and its notification while it sleeps. -/
theorem nothingMissed_always_iff {trace : List (WorkerState × Action)} {final : WorkerState}
    (run : Run Step .start trace final) :
    Run.Always NothingMissed trace final ↔
      ∀ visit ∈ trace, KeepsNotification visit.1 visit.2 := by
  have known : TimeoutKnown .start := by
    intro timeout notified waiting
    cases waiting
  have nothing : NothingMissed .start := by
    intro timeout waiting
    cases waiting
  refine run.always_iff known nothing ?_ ?_
  · intro state action next known nothing step met
    exact (effect_of_step step).timeoutKnown known
  · intro state action next known nothing step
    exact (effect_of_step step).nothingMissed_iff known nothing

/-- The states that actions lead through, if they can all happen. -/
theorem run_of_actions {start final : WorkerState} {actions : List Action}
    (performs : actions.foldlM (fun state action => action.perform state) start = some final) :
    Run Step start (Run.visits (fun state action => action.perform state) start actions) final :=
  (Run.of_foldlM performs).1

/-- A mention that is worth an email. -/
def mentionNotice (messageId : ℤ) : Tornado.Notice where
  queue := .emails
  userProfileId := 7
  messageId
  trigger := some .mention
  type := none
  mentionedUserGroupId := none

/-- The worker sleeps, and an alarm comes just after a row is made. -/
def interruptedActions : List Action :=
  [.enterBackgroundLoop, .readPending (mentionNotice 100) 0 120, .notifyFails]

/-- The worker sleeps on, with a row in the table. -/
theorem nothingMissed_fails_when_interrupted :
    ∃ final, interruptedActions.foldlM (fun state action => action.perform state)
        WorkerState.start = some final ∧
      ¬Run.Always NothingMissed
        (Run.visits (fun state action => action.perform state) .start interruptedActions) final := by
  refine ⟨_, rfl, fun always => ?_⟩
  have keeps := (nothingMissed_always_iff (run_of_actions rfl)).mp always
  exact keeps (_, .notifyFails) (.tail _ (.tail _ (.head _))) rfl rfl

end Zulip.MissedMessages
