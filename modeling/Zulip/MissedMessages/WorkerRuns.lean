import Zulip.MissedMessages.Worker

/-!
# Emails over whole runs of the worker

Every row of an event ends in a call of `handle_missedmessage_emails`, unless something that it
refers to is deleted. `nothingLost_of_run` needs that no row joins a batch while the batch is handed
over, be it a new row or one whose user changes the batching period: the `DELETE` at the end of a
batch runs the query again. `handedOnce_of_run` is about calls that are made twice, and
`handled_of_turns` bounds how long a due row can wait for its call.
-/

namespace Zulip.MissedMessages

open Tornado

/-- What calls of `handle_missedmessage_emails` are about. -/
def asked (calls : List (ℤ × Dict ℤ MissedMessageData)) : List (ℤ × ℤ) :=
  calls.flatMap fun call => call.2.keys.map (call.1, ·)

@[simp] theorem asked_nil : asked [] = [] := rfl

@[simp] theorem asked_append (first second : List (ℤ × Dict ℤ MissedMessageData)) :
    asked (first ++ second) = asked first ++ asked second :=
  List.flatMap_append

theorem mem_asked {calls : List (ℤ × Dict ℤ MissedMessageData)} {userProfileId messageId : ℤ} :
    (userProfileId, messageId) ∈ asked calls ↔
      ∃ batch, (userProfileId, batch) ∈ calls ∧ messageId ∈ batch.keys := by
  constructor
  · intro member
    obtain ⟨call, isCall, member⟩ := List.mem_flatMap.mp member
    obtain ⟨_, isKey, equal⟩ := List.mem_map.mp member
    cases equal
    exact ⟨call.2, isCall, isKey⟩
  · rintro ⟨batch, isCall, isKey⟩
    exact List.mem_flatMap.mpr ⟨_, isCall, List.mem_map_of_mem isKey⟩

/-- The batch of a user has the messages of its rows. -/
theorem mem_keys_eventsByRecipient {events : List ScheduledMessageNotificationEmail}
    {userProfileId messageId : ℤ} :
    messageId ∈ ((eventsByRecipient events).getD userProfileId .empty).keys ↔
      (userProfileId, messageId) ∈ events.map ScheduledMessageNotificationEmail.about := by
  unfold eventsByRecipient
  induction events using List.reverseRecOn with
  | nil => simp
  | append_singleton events event inductionHypothesis =>
      rw [List.foldl_concat, Dict.getD_set, List.map_append, List.mem_append]
      split_ifs with same
      · subst same
        simp [inductionHypothesis, ScheduledMessageNotificationEmail.about, or_comm]
      · simp [inductionHypothesis, ScheduledMessageNotificationEmail.about, same]

/-- The calls of a batch are about its rows. -/
theorem mem_asked_eventsByRecipient {events : List ScheduledMessageNotificationEmail}
    {pair : ℤ × ℤ} : pair ∈ asked (eventsByRecipient events).entries ↔
      pair ∈ events.map ScheduledMessageNotificationEmail.about := by
  obtain ⟨userProfileId, messageId⟩ := pair
  rw [← mem_keys_eventsByRecipient, mem_asked, Dict.getD]
  cases isBatch : (eventsByRecipient events).get? userProfileId with
  | none =>
      refine iff_of_false ?_ (by simp)
      rintro ⟨batch, isCall, -⟩
      rw [Dict.get?_eq_some_iff.mpr isCall] at isBatch
      cases isBatch
  | some batch =>
      constructor
      · rintro ⟨other, isCall, isKey⟩
        rw [Dict.get?_eq_some_iff.mpr isCall] at isBatch
        cases isBatch
        exact isKey
      · intro isKey
        exact ⟨batch, Dict.get?_eq_some_iff.mp isBatch, isKey⟩

/-- The calls of a batch are about different things. -/
theorem nodup_asked_entries (batches : Dict ℤ (Dict ℤ MissedMessageData)) :
    (asked batches.entries).Nodup := by
  rw [asked, List.nodup_flatMap]
  constructor
  · intro call isCall
    exact call.2.keys_nodup.map fun _ _ equal => (Prod.mk.inj equal).2
  · have distinct := List.pairwise_map.mp batches.nodupKeys
    refine distinct.imp fun {first second} differ => ?_
    intro pair inFirst inSecond
    obtain ⟨_, -, rfl⟩ := List.mem_map.mp inFirst
    obtain ⟨_, -, equal⟩ := List.mem_map.mp inSecond
    exact differ (Prod.mk.inj equal).1.symm

/-- What the row of an event says. -/
theorem WorkerState.newRow_eq_some_iff {state : WorkerState} {event : Tornado.Notice}
    {scheduledTimestamp : ℤ} {row : ScheduledMessageNotificationEmail} :
    state.newRow event scheduledTimestamp = some row ↔
      (∃ trigger, event.trigger = some trigger ∧
        row = ⟨state.nextId, event.userProfileId, event.messageId, trigger,
          event.mentionedUserGroupId, scheduledTimestamp⟩) ∧
      state.deleted.any row.refersTo = false := by
  rw [newRow, Option.filter_eq_some_iff, Option.map_eq_some_iff, Bool.not_eq_true']
  simp only [eq_comm]

theorem WorkerState.handling_of_notifyIfAsleep {state : WorkerState} {currentTime : ℤ}
    {remaining : List (ℤ × Dict ℤ MissedMessageData)} :
    state.notifyIfAsleep.workerThread = .handling currentTime remaining ↔
      state.workerThread = .handling currentTime remaining := by
  unfold notifyIfAsleep
  split_ifs
  · rfl
  · cases state.workerThread <;> simp [WorkerThread.notify]

@[simp] theorem WorkerState.notifyIfAsleep_created (state : WorkerState) :
    state.notifyIfAsleep.created = state.created := by
  unfold notifyIfAsleep
  split_ifs <;> rfl

@[simp] theorem WorkerState.notifyIfAsleep_handled (state : WorkerState) :
    state.notifyIfAsleep.handled = state.handled := by
  unfold notifyIfAsleep
  split_ifs <;> rfl

@[simp] theorem WorkerState.notifyIfAsleep_deleted (state : WorkerState) :
    state.notifyIfAsleep.deleted = state.deleted := by
  unfold notifyIfAsleep
  split_ifs <;> rfl

@[simp] theorem WorkerState.notifyIfAsleep_nextId (state : WorkerState) :
    state.notifyIfAsleep.nextId = state.nextId := by
  unfold notifyIfAsleep
  split_ifs <;> rfl

@[simp] theorem WorkerState.notifyIfAsleep_locked (state : WorkerState) :
    state.notifyIfAsleep.locked = state.locked := by
  unfold notifyIfAsleep
  split_ifs <;> rfl

/-- Every row that was made waits in the table or has been handed over, by a call about its user and
message, unless something that it refers to is deleted. -/
def NothingLost (state : WorkerState) : Prop :=
  ∀ row ∈ state.created, row ∈ state.emails ∨ state.deleted.any row.refersTo = true ∨
    row.about ∈ asked state.handled

/-- Nothing is lost, and a batch that is being handed over has all rows that the `DELETE` will
find. -/
structure Accounted (state : WorkerState) : Prop where
  rows : NothingLost state
  batch : ∀ currentTime remaining, state.workerThread = .handling currentTime remaining →
    ∀ row ∈ state.emails, row.scheduledTimestamp ≤ currentTime →
      row.about ∈ asked (state.handled ++ remaining)

/-- The times of the rows that a step makes or moves. -/
def Action.writtenTimes (state : WorkerState) : Action → List ℤ
  | .createRow | .notifyFails => state.mainThread.scheduledTimestamp?.toList
  | .updateScheduledTime userProfileId oldBatchingPeriod newBatchingPeriod =>
      (state.emails.filter fun email => email.userProfileId = userProfileId).map fun email =>
        email.scheduledTimestamp + (newBatchingPeriod - oldBatchingPeriod)
  | _ => []

/-- No row is made, or moved, so that it is due for a batch which is being handed over. -/
def JoinsNoBatch (state : WorkerState) (action : Action) : Prop :=
  ∀ scheduledTimestamp ∈ action.writtenTimes state,
    ∀ currentTime ∈ state.workerThread.currentTime?, currentTime < scheduledTimestamp

instance (state : WorkerState) (action : Action) : Decidable (JoinsNoBatch state action) :=
  inferInstanceAs (Decidable (∀ _ ∈ _, _))

theorem Accounted.insertRow {state : WorkerState} (accounted : Accounted state) {event : Tornado.Notice}
    {scheduledTimestamp : ℤ} {row : ScheduledMessageNotificationEmail}
    (isRow : state.newRow event scheduledTimestamp = some row)
    (later : ∀ currentTime ∈ state.workerThread.currentTime?, currentTime < scheduledTimestamp) :
    Accounted (state.insertRow row) where
  rows other isCreated := by
    rcases List.mem_append.mp isCreated with before | isNew
    · exact (accounted.rows other before).imp_left (List.mem_append_left _)
    · exact .inl (List.mem_append_right _ isNew)
  batch currentTime remaining handling other member isDue := by
    rcases List.mem_append.mp member with before | isNew
    · exact accounted.batch currentTime remaining handling other before isDue
    · obtain ⟨⟨trigger, -, rfl⟩, -⟩ := WorkerState.newRow_eq_some_iff.mp isRow
      rw [List.mem_singleton.mp isNew] at isDue
      exact absurd isDue (not_le.mpr (later currentTime (congrArg _ handling)))

/-- A user changes the batching period, and no row is moved into the batch. -/
theorem Accounted.updateScheduledTime {state : WorkerState} (accounted : Accounted state)
    {userProfileId oldBatchingPeriod newBatchingPeriod : ℤ}
    (joins : JoinsNoBatch state
      (.updateScheduledTime userProfileId oldBatchingPeriod newBatchingPeriod)) :
    Accounted (state.updateScheduledEmailNotificationsTime userProfileId oldBatchingPeriod
      newBatchingPeriod) where
  rows row isCreated := by
    obtain ⟨before, beforeCreated, rfl⟩ := List.mem_map.mp isCreated
    simp only [ScheduledMessageNotificationEmail.movedBy_about,
      ScheduledMessageNotificationEmail.movedBy_refersTo]
    exact (accounted.rows before beforeCreated).imp_left (List.mem_map_of_mem ·)
  batch currentTime remaining handling row member isDue := by
    obtain ⟨before, beforeMember, rfl⟩ := List.mem_map.mp member
    rw [ScheduledMessageNotificationEmail.movedBy_about]
    by_cases same : before.userProfileId = userProfileId
    · have later := joins _ (List.mem_map_of_mem (List.mem_filter.mpr
        ⟨beforeMember, decide_eq_true same⟩)) currentTime (congrArg _ handling)
      rw [ScheduledMessageNotificationEmail.movedBy, if_pos same] at isDue
      exact absurd isDue (not_le.mpr later)
    · rw [ScheduledMessageNotificationEmail.movedBy_of_ne same] at isDue
      exact accounted.batch currentTime remaining handling before beforeMember isDue

theorem Accounted.notifyIfAsleep {state : WorkerState} (accounted : Accounted state) :
    Accounted state.notifyIfAsleep where
  rows row isCreated := by
    simp only [WorkerState.notifyIfAsleep_created] at isCreated
    simpa using accounted.rows row isCreated
  batch currentTime remaining handling row member isDue := by
    simp only [WorkerState.notifyIfAsleep_emails] at member
    simpa using accounted.batch currentTime remaining
      (WorkerState.handling_of_notifyIfAsleep.mp handling) row member isDue

/-- A step that does not touch the table, and after which no batch is being handed over. -/
theorem Accounted.of_same {state next : WorkerState} (accounted : Accounted state)
    (created : next.created = state.created) (emails : next.emails = state.emails)
    (deleted : next.deleted = state.deleted)
    (handled : next.handled = state.handled)
    (thread : ∀ currentTime remaining, next.workerThread = .handling currentTime remaining →
      state.workerThread = .handling currentTime remaining) : Accounted next where
  rows row isCreated := by
    rw [emails, deleted, handled]
    exact accounted.rows row (created ▸ isCreated)
  batch currentTime remaining handling row member isDue := by
    rw [handled]
    exact accounted.batch currentTime remaining (thread _ _ handling) row (emails ▸ member) isDue

theorem Effect.accounted {state next : WorkerState} {action : Action}
    (effect : Effect state action next) (accounted : Accounted state)
    (joins : JoinsNoBatch state action) : Accounted next := by
  cases effect with
  | created consuming isRow =>
      refine (accounted.insertRow isRow fun currentTime => ?_).notifyIfAsleep
      exact joins _ (by simp [Action.writtenTimes, consuming, MainThread.scheduledTimestamp?]) _
  | unnotified consuming isRow =>
      refine accounted.insertRow isRow fun currentTime => ?_
      exact joins _ (by simp [Action.writtenTimes, consuming, MainThread.scheduledTimestamp?]) _
  | updateScheduledTime unlocked => exact accounted.updateScheduledTime joins
  | @delete referenced =>
      constructor
      · intro row isCreated
        rw [List.any_cons, Bool.or_eq_true]
        rcases accounted.rows row isCreated with member | isDeleted | wasHandled
        · cases refers : row.refersTo referenced with
          | true => exact .inr (.inl (.inl rfl))
          | false => exact .inl (List.mem_filter.mpr ⟨member, by simp [refers]⟩)
        · exact .inr (.inl (.inr isDeleted))
        · exact .inr (.inr wasHandled)
      · intro currentTime remaining handling row member isDue
        exact accounted.batch currentTime remaining handling row (List.mem_filter.mp member).1 isDue
  | stop =>
      refine accounted.of_same rfl rfl rfl rfl fun currentTime remaining handling => ?_
      cases thread : state.workerThread <;> simp_all [WorkerThread.notify]
  | selectDue sending =>
      refine ⟨accounted.rows, fun currentTime remaining handling row member isDue => ?_⟩
      cases handling
      rw [asked_append]
      refine List.mem_append_right _ (mem_asked_eventsByRecipient.mpr ?_)
      exact List.mem_map_of_mem (List.mem_filter.mpr ⟨member, by simpa using isDue⟩)
  | handleEmails handling =>
      constructor
      · intro row isCreated
        refine (accounted.rows row isCreated).imp_right (Or.imp_right fun wasHandled => ?_)
        rw [asked_append]
        exact List.mem_append_left _ wasHandled
      · intro currentTime remaining later row member isDue
        cases later
        have inBatch := accounted.batch _ _ handling row member isDue
        rwa [List.append_cons] at inBatch
  | @deleteDue currentTime handling =>
      constructor
      · intro row isCreated
        rcases accounted.rows row isCreated with member | gone
        · by_cases isDue : row.scheduledTimestamp ≤ currentTime
          · have inBatch := accounted.batch _ _ handling row member isDue
            rw [List.append_nil] at inBatch
            exact .inr (.inr inBatch)
          · exact .inl (List.mem_filter.mpr ⟨member, by simpa using isDue⟩)
        · exact .inr gone
      · intro _ _ absurd
        cases absurd
  | readPending | skipped | consumeFails =>
      exact accounted.of_same rfl rfl rfl rfl fun _ _ handling => handling
  | startAgain | restart | finish | wait | woken | waitAgain | stopped | expired | workerFails
  | backOff | backoffOver =>
      refine accounted.of_same rfl rfl rfl rfl fun _ _ absurd => ?_
      cases absurd

theorem accounted_of_run {trace : List (WorkerState × Action)} {final : WorkerState}
    (run : Run Step .start trace final)
    (joins : ∀ visit ∈ trace, JoinsNoBatch visit.1 visit.2) :
    Run.Always Accounted trace final := by
  have stays : ∀ {state action next}, Accounted state → Step state action next →
      JoinsNoBatch state action → Accounted next :=
    fun accounted step met => (effect_of_step step).accounted accounted met
  refine run.always_of_condition ?_ (fun accounted => accounted) stays joins
  constructor <;> simp [WorkerState.start, NothingLost]

/-- No email is lost: in every order of steps of both threads and of others, with exceptions and
restarts anywhere, every row waits or has been handed over, unless something that it refers to is
deleted, as long as no due row joins a batch that is being handed over. -/
theorem nothingLost_of_run {trace : List (WorkerState × Action)} {final : WorkerState}
    (run : Run Step .start trace final)
    (joins : ∀ visit ∈ trace, JoinsNoBatch visit.1 visit.2) :
    Run.Always NothingLost trace final := by
  have always := accounted_of_run run joins
  exact ⟨fun visit member => (always.1 visit member).rows, always.2.rows⟩

/-- One mention, and its email. -/
def mentionActions : List Action := [.readPending (mentionNotice 100) 0 120, .createRow]

/-- The worker hands a batch over, goes to sleep and is woken by another mention. -/
def batchActions : List Action :=
  [.enterBackgroundLoop, .timeoutExpires, .selectDue 200, .handleEmails, .deleteDue,
    .enterBackgroundLoop, .readPending (mentionNotice 102) 200 120, .createRow, .wakeUp]

/-- The user changes the batching period before the batch, and the other message is deleted. -/
def movedActions : List Action :=
  mentionActions ++ .updateScheduledTime 7 120 60 :: batchActions ++ [.delete (.message 102)]

theorem nothingLost_mention :
    ∃ final, movedActions.foldlM (fun state action => action.perform state)
        WorkerState.start = some final ∧
      Run.Always NothingLost (Run.visits (fun state action => action.perform state) .start
        movedActions) final := by
  exact ⟨_, rfl, nothingLost_of_run (run_of_actions rfl) (by decide)⟩

/-- A batch is selected, a second mention of the user joins it, and the batch is handed over. -/
def joiningActions : List Action :=
  [.readPending (mentionNotice 100) 0 120, .createRow, .enterBackgroundLoop, .timeoutExpires,
    .selectDue 200, .readPending (mentionNotice 101) 200 120, .createRow, .handleEmails, .deleteDue]

/-- The row of the second mention is deleted without an email. -/
theorem nothingLost_fails_when_joined :
    ∃ final, joiningActions.foldlM (fun state action => action.perform state)
        WorkerState.start = some final ∧
      ∃ row ∈ final.created, row ∉ final.emails ∧ final.deleted.any row.refersTo = false ∧
        row.about ∉ asked final.handled := by
  refine ⟨_, rfl, ⟨1, 7, 101, .mention, none, 120⟩, ?_⟩
  decide

/-! ### No call is made twice -/

/-- The calls that the current batch has still to make. -/
def WorkerState.remaining (state : WorkerState) : List (ℤ × Dict ℤ MissedMessageData) :=
  match state.workerThread with
  | .handling _ remaining => remaining
  | _ => []

/-- The worker is handing over the rows that are due at a time. -/
def WorkerState.Handles (state : WorkerState) (currentTime : ℤ) : Prop :=
  ∃ remaining, state.workerThread = .handling currentTime remaining

@[simp] theorem WorkerState.notifyIfAsleep_remaining (state : WorkerState) :
    state.notifyIfAsleep.remaining = state.remaining := by
  unfold notifyIfAsleep remaining
  split_ifs
  · rfl
  · cases thread : state.workerThread <;> simp [WorkerThread.notify]

/-- The calls made and to be made are about different rows, and a row that is still there has had
its call only in the batch that is being handed over. -/
structure HandedOnce (state : WorkerState) : Prop where
  distinct : (state.created.map ScheduledMessageNotificationEmail.about).Nodup
  nodup : (asked (state.handled ++ state.remaining)).Nodup
  created : ∀ pair ∈ asked (state.handled ++ state.remaining),
    pair ∈ state.created.map ScheduledMessageNotificationEmail.about
  emails : ∀ row ∈ state.emails, row ∈ state.created
  batch : ∀ row ∈ state.emails, row.about ∈ asked (state.handled ++ state.remaining) →
    row.id ∈ state.locked ∧
      ∃ currentTime, state.Handles currentTime ∧ row.scheduledTimestamp ≤ currentTime

/-- No two rows are about one message and user, and neither an exception nor a restart comes between
the selection of a batch and its deletion. -/
def OnceEach (state : WorkerState) (action : Action) : Prop :=
  (action = .createRow ∨ action = .notifyFails → ∀ pair ∈ state.mainThread.about?,
    pair ∉ state.created.map ScheduledMessageNotificationEmail.about) ∧
  (action = .workerFails ∨ action = .restart → state.workerThread.currentTime? = none)

instance (state : WorkerState) (action : Action) : Decidable (OnceEach state action) :=
  inferInstanceAs (Decidable (_ ∧ _))

theorem WorkerState.not_handles_of_currentTime? {state : WorkerState}
    (none : state.workerThread.currentTime? = none) (currentTime : ℤ) :
    ¬state.Handles currentTime := by
  rintro ⟨remaining, handling⟩
  rw [handling] at none
  cases none

theorem WorkerState.remaining_of_not_handles {state : WorkerState}
    (idle : ∀ currentTime, ¬state.Handles currentTime) : state.remaining = [] := by
  unfold remaining
  cases thread : state.workerThread with
  | handling currentTime remaining => exact absurd ⟨remaining, thread⟩ (idle currentTime)
  | _ => rfl

/-- A step that makes no call and no row, and after which rows that had their call are still in the
same batch. -/
theorem HandedOnce.of_same {state next : WorkerState} (once : HandedOnce state)
    (created : next.created = state.created) (emails : ∀ row ∈ next.emails, row ∈ state.emails)
    (handled : next.handled = state.handled) (remaining : next.remaining = state.remaining)
    (batch : ∀ currentTime, state.Handles currentTime →
      next.Handles currentTime ∧ next.locked = state.locked) : HandedOnce next where
  distinct := created ▸ once.distinct
  nodup := by
    rw [handled, remaining]
    exact once.nodup
  created := by
    rw [handled, remaining, created]
    exact once.created
  emails row member := by
    rw [created]
    exact once.emails row (emails row member)
  batch row member wasAsked := by
    rw [handled, remaining] at wasAsked
    obtain ⟨isLocked, currentTime, handles, isDue⟩ := once.batch row (emails row member) wasAsked
    obtain ⟨handlesNext, sameLocks⟩ := batch currentTime handles
    exact ⟨sameLocks ▸ isLocked, currentTime, handlesNext, isDue⟩

/-- The same when no batch was being handed over. -/
theorem HandedOnce.of_idle {state next : WorkerState} (once : HandedOnce state)
    (created : next.created = state.created) (emails : ∀ row ∈ next.emails, row ∈ state.emails)
    (handled : next.handled = state.handled) (idle : ∀ currentTime, ¬state.Handles currentTime)
    (idleNext : ∀ currentTime, ¬next.Handles currentTime) : HandedOnce next := by
  refine once.of_same created emails handled ?_ fun currentTime handles => ?_
  · rw [WorkerState.remaining_of_not_handles idle, WorkerState.remaining_of_not_handles idleNext]
  · exact absurd handles (idle currentTime)

theorem HandedOnce.insertRow {state : WorkerState} (once : HandedOnce state) {event : Tornado.Notice}
    {scheduledTimestamp : ℤ} {row : ScheduledMessageNotificationEmail}
    (isRow : state.newRow event scheduledTimestamp = some row)
    (isNew : (event.userProfileId, event.messageId) ∉
      state.created.map ScheduledMessageNotificationEmail.about) :
    HandedOnce (state.insertRow row) where
  distinct := by
    obtain ⟨⟨trigger, -, rfl⟩, -⟩ := WorkerState.newRow_eq_some_iff.mp isRow
    rw [WorkerState.insertRow, List.map_append, List.map_singleton]
    refine once.distinct.append (List.nodup_singleton _) fun pair before isLast => isNew ?_
    rwa [List.mem_singleton.mp isLast] at before
  nodup := once.nodup
  created pair wasAsked := by
    rw [WorkerState.insertRow, List.map_append]
    exact List.mem_append_left _ (once.created pair wasAsked)
  emails other member := by
    rcases List.mem_append.mp member with before | isLast
    · exact List.mem_append_left _ (once.emails other before)
    · exact List.mem_append_right _ isLast
  batch other member wasAsked := by
    rcases List.mem_append.mp member with before | isLast
    · exact once.batch other before wasAsked
    · obtain ⟨⟨trigger, -, rfl⟩, -⟩ := WorkerState.newRow_eq_some_iff.mp isRow
      rw [List.mem_singleton.mp isLast] at wasAsked
      exact absurd (once.created _ wasAsked) isNew

theorem WorkerState.handles_notifyIfAsleep {state : WorkerState} {currentTime : ℤ} :
    state.notifyIfAsleep.Handles currentTime ↔ state.Handles currentTime := by
  simp only [Handles, handling_of_notifyIfAsleep]

theorem HandedOnce.notifyIfAsleep {state : WorkerState} (once : HandedOnce state) :
    HandedOnce state.notifyIfAsleep := by
  refine once.of_same (by simp) (by simp) (by simp) (by simp) fun currentTime handles => ?_
  exact ⟨WorkerState.handles_notifyIfAsleep.mpr handles, by simp⟩

/-- The rows that a user's change of the batching period moves are not in the batch. -/
theorem HandedOnce.updateScheduledTime {state : WorkerState} (once : HandedOnce state)
    {userProfileId : ℤ} (unlocked : state.hasLockedRow userProfileId = false)
    (oldBatchingPeriod newBatchingPeriod : ℤ) :
    HandedOnce (state.updateScheduledEmailNotificationsTime userProfileId oldBatchingPeriod
      newBatchingPeriod) := by
  have sameAbout : ∀ change, (state.created.map (·.movedBy userProfileId change)).map
      ScheduledMessageNotificationEmail.about =
        state.created.map ScheduledMessageNotificationEmail.about := by
    intro change
    rw [List.map_map]
    exact List.map_congr_left fun row _ => row.movedBy_about userProfileId change
  constructor
  · exact (sameAbout _).symm ▸ once.distinct
  · exact once.nodup
  · exact (sameAbout _).symm ▸ once.created
  · intro row member
    obtain ⟨before, beforeMember, rfl⟩ := List.mem_map.mp member
    exact List.mem_map_of_mem (once.emails before beforeMember)
  · intro row member wasAsked
    obtain ⟨before, beforeMember, rfl⟩ := List.mem_map.mp member
    rw [ScheduledMessageNotificationEmail.movedBy_about] at wasAsked
    have inBatch := once.batch before beforeMember wasAsked
    have other : before.userProfileId ≠ userProfileId := by
      intro same
      have absent := List.any_eq_false.mp unlocked before beforeMember
      simp [same, inBatch.1] at absent
    rw [ScheduledMessageNotificationEmail.movedBy_of_ne other]
    exact inBatch

theorem Effect.handedOnce {state next : WorkerState} {action : Action}
    (effect : Effect state action next) (once : HandedOnce state)
    (met : OnceEach state action) : HandedOnce next := by
  cases effect with
  | created consuming isRow =>
      have isNew := met.1 (.inl rfl) _ (congrArg MainThread.about? consuming)
      exact (once.insertRow isRow isNew).notifyIfAsleep
  | unnotified consuming isRow =>
      exact once.insertRow isRow (met.1 (.inr rfl) _ (congrArg MainThread.about? consuming))
  | readPending | skipped | consumeFails =>
      exact once.of_same rfl (fun _ member => member) rfl rfl fun _ handles => ⟨handles, rfl⟩
  | delete =>
      exact once.of_same rfl (fun _ member => (List.mem_filter.mp member).1) rfl rfl
        fun _ handles => ⟨handles, rfl⟩
  | updateScheduledTime unlocked => exact once.updateScheduledTime unlocked _ _
  | stop =>
      refine once.of_same rfl (fun _ member => member) rfl ?_ fun _ ⟨_, handling⟩ => ?_
      · cases thread : state.workerThread <;>
          simp [WorkerState.remaining, WorkerThread.notify, thread]
      · exact ⟨⟨_, congrArg WorkerThread.notify handling⟩, rfl⟩
  | @selectDue currentTime sending =>
      have idle : ∀ other, ¬state.Handles other := by
        rintro other ⟨remaining, handling⟩
        rw [sending] at handling
        cases handling
      have none := WorkerState.remaining_of_not_handles idle
      have notAsked : ∀ row ∈ state.emails, row.about ∉ asked state.handled := by
        intro row member wasAsked
        obtain ⟨-, other, handles, -⟩ := once.batch row member (by simpa [none] using wasAsked)
        exact idle other handles
      have nodup : (asked state.handled).Nodup := by simpa [none] using once.nodup
      constructor
      · exact once.distinct
      · rw [WorkerState.remaining, asked_append]
        refine nodup.append (nodup_asked_entries _) fun pair wasAsked inBatch => ?_
        obtain ⟨row, member, rfl⟩ := List.mem_map.mp (mem_asked_eventsByRecipient.mp inBatch)
        exact notAsked row (List.mem_filter.mp member).1 wasAsked
      · intro pair inCalls
        rw [WorkerState.remaining, asked_append] at inCalls
        rcases List.mem_append.mp inCalls with wasAsked | inBatch
        · exact once.created pair (by simpa [none] using wasAsked)
        · obtain ⟨row, member, rfl⟩ := List.mem_map.mp (mem_asked_eventsByRecipient.mp inBatch)
          exact List.mem_map_of_mem (once.emails row (List.mem_filter.mp member).1)
      · exact once.emails
      · intro row member inCalls
        rw [WorkerState.remaining, asked_append] at inCalls
        have inBatch := (List.mem_append.mp inCalls).resolve_left (notAsked row member)
        obtain ⟨other, isDue, same⟩ := List.mem_map.mp (mem_asked_eventsByRecipient.mp inBatch)
        obtain ⟨otherMember, isDue⟩ := List.mem_filter.mp isDue
        have equal := List.inj_on_of_nodup_map once.distinct (once.emails other otherMember)
          (once.emails row member) same
        subst equal
        exact ⟨List.mem_map_of_mem (List.mem_filter.mpr ⟨otherMember, isDue⟩), currentTime,
          ⟨_, rfl⟩, by simpa using isDue⟩
  | @handleEmails currentTime batch remaining handling =>
      -- the calls made and to be made are the same lists, cut one call later
      have same : (state.handled ++ [batch]) ++ remaining = state.handled ++ state.remaining := by
        simp [WorkerState.remaining, handling]
      constructor
      · exact once.distinct
      · exact same ▸ once.nodup
      · exact same ▸ once.created
      · exact once.emails
      · intro row member inCalls
        obtain ⟨isLocked, time, ⟨_, before⟩, isDue⟩ :=
          once.batch row member (same ▸ inCalls : row.about ∈ asked _)
        rw [handling] at before
        cases before
        exact ⟨isLocked, currentTime, ⟨_, rfl⟩, isDue⟩
  | @deleteDue currentTime handling =>
      have noneLeft : state.remaining = [] := by rw [WorkerState.remaining, handling]
      refine ⟨once.distinct, ?_, ?_, ?_, ?_⟩
      · change (asked (state.handled ++ [])).Nodup
        exact noneLeft ▸ once.nodup
      · change ∀ pair ∈ asked (state.handled ++ []), _
        exact noneLeft ▸ once.created
      · exact fun row member => once.emails row (List.mem_filter.mp member).1
      · intro row member inCalls
        obtain ⟨member, notDue⟩ := List.mem_filter.mp member
        obtain ⟨-, time, ⟨_, before⟩, isDue⟩ :=
          once.batch row member (noneLeft ▸ inCalls : row.about ∈ asked _)
        rw [handling] at before
        cases before
        simp only [Bool.not_eq_true', ScheduledMessageNotificationEmail.due_eq_false_iff]
          at notDue
        exact absurd isDue (not_le.mpr notDue)
  | workerFails | restart =>
      refine once.of_idle rfl (fun _ member => member) rfl
        (WorkerState.not_handles_of_currentTime? (met.2 (by simp))) ?_
      rintro time ⟨_, absurd⟩
      cases absurd
  | startAgain before | finish before | wait before | woken before | waitAgain before
  | stopped before | expired before | backOff before | backoffOver before =>
      refine once.of_idle rfl (fun _ member => member) rfl ?_ ?_
      · rintro time ⟨_, absurd⟩
        rw [before] at absurd
        cases absurd
      · rintro time ⟨_, absurd⟩
        cases absurd

/-- No call is made twice for a message and a user, in every order of steps of both threads and of
others, as long as no two rows are about the same and no batch breaks off. -/
theorem handedOnce_of_run {trace : List (WorkerState × Action)} {final : WorkerState}
    (run : Run Step .start trace final) (onceEach : ∀ visit ∈ trace, OnceEach visit.1 visit.2) :
    Run.Always (fun state => (asked state.handled).Nodup) trace final := by
  have initial : HandedOnce .start := by
    constructor <;> simp [WorkerState.start, WorkerState.remaining]
  refine run.always_of_condition initial ?_ ?_ onceEach
  · intro state once
    have nodup := once.nodup
    rw [asked_append] at nodup
    exact nodup.of_append_left
  · intro state action next once step met
    exact (effect_of_step step).handedOnce once met

theorem handedOnce_mention :
    ∃ final, movedActions.foldlM (fun state action => action.perform state)
        WorkerState.start = some final ∧
      Run.Always (fun state => (asked state.handled).Nodup)
        (Run.visits (fun state action => action.perform state) .start movedActions) final := by
  exact ⟨_, rfl, handedOnce_of_run (run_of_actions rfl) (by decide)⟩

/-! ### A due row gets its turn -/

/-- A worker thread that has finished, or that was woken from a wait with a timeout, has been asked
to stop. -/
structure StopKnown (state : WorkerState) : Prop where
  finished : state.workerThread = .finished → state.stopping = true
  notified : ∀ timeout, state.workerThread = .waitFor (some timeout) true → state.stopping = true

/-- The rows of the table have been made, with the ids that were next. -/
def RowsKnown (state : WorkerState) : Prop :=
  ∀ row ∈ state.emails, row ∈ state.created ∧ row.id < state.nextId

theorem Effect.stopKnown {state next : WorkerState} {action : Action}
    (effect : Effect state action next) (timeoutKnown : TimeoutKnown state)
    (known : StopKnown state) : StopKnown next := by
  cases effect with
  | created consuming isRow =>
      constructor
      · intro finished
        rw [WorkerState.notifyIfAsleep_stopping]
        refine known.finished ?_
        unfold WorkerState.notifyIfAsleep at finished
        split_ifs at finished
        · exact finished
        · cases thread : state.workerThread <;>
            simp_all [WorkerState.insertRow, WorkerThread.notify]
      · intro timeout notified
        rw [WorkerState.notifyIfAsleep_stopping]
        rcases WorkerState.waiting_of_notifyIfAsleep notified with
          ⟨-, before⟩ | ⟨noTimeout, -, _, before⟩
        · exact known.notified timeout before
        · -- the row is announced only to a thread that waits without a timeout
          have hasTimeout := timeoutKnown _ _ before
          rw [show state.hasTimeout = false from noTimeout] at hasTimeout
          cases hasTimeout
  | stop => exact ⟨fun _ => rfl, fun _ _ => rfl⟩
  | finish entering stopping =>
      refine ⟨fun _ => stopping, fun timeout absurd => ?_⟩
      cases absurd
  | readPending | skipped | unnotified | consumeFails | delete | updateScheduledTime =>
      exact ⟨known.finished, known.notified⟩
  | startAgain | restart | wait | woken | waitAgain | stopped | expired | selectDue | handleEmails
  | deleteDue | workerFails | backOff | backoffOver =>
      constructor
      · intro absurd
        cases absurd
      · intro timeout absurd
        cases absurd

theorem RowsKnown.insertRow {state : WorkerState} (known : RowsKnown state) {event : Tornado.Notice}
    {scheduledTimestamp : ℤ} {row : ScheduledMessageNotificationEmail}
    (isRow : state.newRow event scheduledTimestamp = some row) :
    RowsKnown (state.insertRow row) := by
  intro other member
  rcases List.mem_append.mp member with before | isLast
  · have older := known other before
    exact ⟨List.mem_append_left _ older.1, Nat.lt_succ_of_lt older.2⟩
  · obtain ⟨⟨trigger, -, rfl⟩, -⟩ := WorkerState.newRow_eq_some_iff.mp isRow
    refine ⟨List.mem_append_right _ isLast, ?_⟩
    rw [List.mem_singleton.mp isLast]
    exact Nat.lt_succ_self _

theorem Effect.rowsKnown {state next : WorkerState} {action : Action}
    (effect : Effect state action next) (known : RowsKnown state) : RowsKnown next := by
  cases effect with
  | created consuming isRow =>
      intro row member
      simpa using known.insertRow isRow row (by simpa using member)
  | unnotified consuming isRow => exact known.insertRow isRow
  | delete | deleteDue => exact fun row member => known row (List.mem_filter.mp member).1
  | updateScheduledTime =>
      intro row member
      obtain ⟨before, beforeMember, rfl⟩ := List.mem_map.mp member
      obtain ⟨isCreated, older⟩ := known before beforeMember
      rw [ScheduledMessageNotificationEmail.movedBy_id]
      exact ⟨List.mem_map_of_mem isCreated, older⟩
  | _ => exact known

/-- The user whose rows a step moves. -/
def Action.movedUser? : Action → Option ℤ
  | .updateScheduledTime userProfileId _ _ => some userProfileId
  | _ => none

/-- What happens to the rows that are not moved: they stay known, and none comes back. -/
theorem Effect.older {state next : WorkerState} {action : Action}
    (effect : Effect state action next) {row : ScheduledMessageNotificationEmail}
    (isCreated : row ∈ state.created) (older : row.id < state.nextId)
    (unmoved : row.userProfileId ∉ action.movedUser?) :
    row ∈ next.created ∧ row.id < next.nextId ∧ (row ∈ next.emails → row ∈ state.emails) := by
  have inserted : ∀ {event scheduledTimestamp other},
      state.newRow event scheduledTimestamp = some other → row ∈ (state.insertRow other).created ∧
        row.id < (state.insertRow other).nextId ∧
        (row ∈ (state.insertRow other).emails → row ∈ state.emails) := by
    intro event scheduledTimestamp other isRow
    obtain ⟨⟨trigger, -, rfl⟩, -⟩ := WorkerState.newRow_eq_some_iff.mp isRow
    refine ⟨List.mem_append_left _ isCreated, Nat.lt_succ_of_lt older, fun member => ?_⟩
    rcases List.mem_append.mp member with before | isLast
    · exact before
    · rw [List.mem_singleton.mp isLast] at older
      exact absurd older (lt_irrefl _)
  cases effect with
  | created consuming isRow => simpa using inserted isRow
  | unnotified consuming isRow => exact inserted isRow
  | delete | deleteDue =>
      exact ⟨isCreated, older, fun member => (List.mem_filter.mp member).1⟩
  | @updateScheduledTime userProfileId _ _ unlocked =>
      have other : row.userProfileId ≠ userProfileId := fun same => unmoved (congrArg some same.symm)
      have unmovedRow := ScheduledMessageNotificationEmail.movedBy_of_ne other
      refine ⟨List.mem_map.mpr ⟨row, isCreated, unmovedRow _⟩, older, fun member => ?_⟩
      obtain ⟨before, beforeMember, rfl⟩ := List.mem_map.mp member
      rw [ScheduledMessageNotificationEmail.movedBy_userProfileId] at other
      rwa [ScheduledMessageNotificationEmail.movedBy_of_ne other]
  | _ => exact ⟨isCreated, older, fun member => member⟩

/-- The steps of the worker thread, a whole batch counted as one. -/
def Action.isTurn : Action → Bool
  | .enterBackgroundLoop | .wakeUp | .timeoutExpires | .selectDue _ | .deleteDue | .backOff
  | .backoffOver => true
  | _ => false

/-- The time at which a batch is selected. -/
def Action.selectTime? : Action → Option ℤ
  | .selectDue currentTime => some currentTime
  | _ => none

/-- The worker goes on: it is not asked to stop, does not die and meets no exception. -/
def Action.Steady (action : Action) : Prop :=
  action ≠ .stop ∧ action ≠ .restart ∧ action ≠ .workerFails

instance (action : Action) : Decidable action.Steady := inferInstanceAs (Decidable (_ ∧ _))

/-- At most how many turns there are before a due row leaves the table. -/
def WorkerState.turnsLeft (state : WorkerState) (row : ScheduledMessageNotificationEmail) : ℕ :=
  match state.workerThread with
  | .raised => 6
  | .backingOff | .waitFor none _ => 5
  | .backgroundLoop => 4
  | .waitFor (some _) _ => 3
  | .maybeSendBatchedEmails => 2
  | .handling currentTime _ => if row.due currentTime then 1 else 5
  | .finished => 1

theorem WorkerState.turnsLeft_le (state : WorkerState)
    (row : ScheduledMessageNotificationEmail) :
    0 < state.turnsLeft row ∧ state.turnsLeft row ≤ 6 := by
  unfold turnsLeft
  split <;> (try split_ifs) <;> omega

theorem WorkerThread.turnsLeft_notify (state : WorkerState)
    (row : ScheduledMessageNotificationEmail) :
    ({ state with workerThread := state.workerThread.notify } : WorkerState).turnsLeft row =
      state.turnsLeft row := by
  rcases thread : state.workerThread with _ | ⟨_ | _, _⟩ | _ | _ | _ | _ | _ <;>
    simp [WorkerState.turnsLeft, WorkerThread.notify, thread]

/-- A turn brings a due row nearer to its call, and nothing else takes it further away. -/
theorem Effect.turnsLeft {state next : WorkerState} {action : Action}
    (effect : Effect state action next)
    (stopKnown : StopKnown state) (running : state.stopping = false) (steady : action.Steady)
    {row : ScheduledMessageNotificationEmail}
    (late : ∀ currentTime ∈ action.selectTime?, row.scheduledTimestamp ≤ currentTime)
    (pending : row ∈ state.emails) (still : row ∈ next.emails) :
    next.turnsLeft row + action.isTurn.toNat ≤ state.turnsLeft row := by
  have notEmpty : state.emails.isEmpty = false := by
    rw [List.isEmpty_eq_false_iff]
    exact List.ne_nil_of_mem pending
  have notStopping : state.stopping ≠ true := by simp [running]
  cases effect with
  | readPending | skipped | consumeFails | delete | updateScheduledTime | unnotified =>
      exact le_rfl
  | created consuming isRow =>
      unfold WorkerState.notifyIfAsleep
      split_ifs
      · exact le_rfl
      · exact (WorkerThread.turnsLeft_notify (state.insertRow _) row).le
  | stop => exact absurd rfl steady.1
  | restart => exact absurd rfl steady.2.1
  | workerFails => exact absurd rfl steady.2.2
  | startAgain finished => exact absurd (stopKnown.finished finished) notStopping
  | finish entering stopping => exact absurd stopping notStopping
  | stopped waiting stopping => exact absurd stopping notStopping
  | wait entering _ isTimeout =>
      rw [notEmpty] at isTimeout
      subst isTimeout
      simp [WorkerState.turnsLeft, Action.isTurn, entering]
  | @woken timeout waiting met =>
      cases timeout with
      | none => simp [WorkerState.turnsLeft, WorkerState.loopAgain, Action.isTurn, waiting]
      | some timeout => exact absurd (stopKnown.notified timeout waiting) notStopping
  | @waitAgain timeout waiting unmet =>
      cases timeout with
      | none => simp [WorkerState.waitCondition, notEmpty] at unmet
      | some timeout => exact absurd (stopKnown.notified timeout waiting) notStopping
  | expired waiting _ => simp [WorkerState.turnsLeft, Action.isTurn, waiting]
  | @selectDue currentTime sending =>
      have isDue : row.due currentTime = true := by simpa using late currentTime rfl
      simp [WorkerState.turnsLeft, Action.isTurn, sending, isDue]
  | handleEmails handling => simp [WorkerState.turnsLeft, Action.isTurn, handling]
  | @deleteDue currentTime handling =>
      have notDue := (List.mem_filter.mp still).2
      simp only [Bool.not_eq_true'] at notDue
      simp [WorkerState.turnsLeft, WorkerState.loopAgain, Action.isTurn, handling, notDue]
  | backOff raised => simp [WorkerState.turnsLeft, Action.isTurn, raised]
  | backoffOver backingOff => simp [WorkerState.turnsLeft, Action.isTurn, backingOff]

/-- What holds of every state that a worker reaches. -/
theorem known_of_run {trace : List (WorkerState × Action)} {final : WorkerState}
    (run : Run Step .start trace final) :
    TimeoutKnown final ∧ StopKnown final ∧ RowsKnown final := by
  induction run with
  | refl =>
      refine ⟨fun timeout notified absurd => ?_, ⟨by simp [WorkerState.start], ?_⟩, ?_⟩
      · cases absurd
      · intro timeout absurd
        cases absurd
      · simp [RowsKnown, WorkerState.start]
  | step _ transition inductionHypothesis =>
      obtain ⟨timeoutKnown, stopKnown, rowsKnown⟩ := inductionHypothesis
      have effect := effect_of_step transition
      exact ⟨effect.timeoutKnown timeoutKnown, effect.stopKnown timeoutKnown stopKnown,
        effect.rowsKnown rowsKnown⟩

/-- What is known of a worker that is not asked to stop, while it has still to see to a row. -/
structure Pending (row : ScheduledMessageNotificationEmail) (turns : ℕ) (state : WorkerState) :
    Prop where
  timeoutKnown : TimeoutKnown state
  stopKnown : StopKnown state
  running : state.stopping = false
  isCreated : row ∈ state.created
  older : row.id < state.nextId
  turnsLeft : row ∈ state.emails → state.turnsLeft row + turns ≤ 6

theorem Pending.step {row : ScheduledMessageNotificationEmail} {turns : ℕ}
    {state next : WorkerState} {action : Action} (pending : Pending row turns state)
    (effect : Effect state action next)
    (steady : action.Steady) (unmoved : row.userProfileId ∉ action.movedUser?)
    (late : ∀ currentTime ∈ action.selectTime?, row.scheduledTimestamp ≤ currentTime) :
    Pending row (turns + action.isTurn.toNat) next := by
  obtain ⟨isCreated, older, before⟩ := effect.older pending.isCreated pending.older unmoved
  refine ⟨effect.timeoutKnown pending.timeoutKnown,
    effect.stopKnown pending.timeoutKnown pending.stopKnown, ?_, isCreated, older,
    fun still => ?_⟩
  · have running := pending.running
    cases effect with
    | created => rwa [WorkerState.notifyIfAsleep_stopping]
    | stop => exact absurd rfl steady.1
    | startAgain | restart => rfl
    | _ => exact running
  · have nearer := effect.turnsLeft pending.stopKnown pending.running steady
      late (before still) still
    have bound := pending.turnsLeft (before still)
    omega

/-- A row waits for at most six turns of a worker that goes on, once it is due: then its email has
been handed over, whatever the main thread has done in between. No row joins a batch here either,
and the user of the row keeps the batching period. -/
theorem handled_of_turns {before trace : List (WorkerState × Action)} {state final : WorkerState}
    (reached : Run Step .start before state) (run : Run Step state trace final)
    (joins : ∀ visit ∈ before ++ trace, JoinsNoBatch visit.1 visit.2)
    {row : ScheduledMessageNotificationEmail} (pending : row ∈ state.emails)
    (running : state.stopping = false) (steady : ∀ visit ∈ trace, visit.2.Steady)
    (unmoved : ∀ visit ∈ trace, row.userProfileId ∉ visit.2.movedUser?)
    (late : ∀ visit ∈ trace, ∀ currentTime ∈ visit.2.selectTime?,
      row.scheduledTimestamp ≤ currentTime)
    (turns : 6 ≤ trace.countP fun visit => visit.2.isTurn) :
    row.about ∈ asked final.handled ∨ final.deleted.any row.refersTo = true := by
  obtain ⟨timeoutKnown, stopKnown, rowsKnown⟩ := known_of_run reached
  have start : Pending row 0 state := ⟨timeoutKnown, stopKnown, running,
    (rowsKnown row pending).1, (rowsKnown row pending).2, fun _ => (state.turnsLeft_le row).2⟩
  have last : Pending row (trace.countP fun visit => visit.2.isTurn) final := by
    clear turns joins
    induction run with
    | refl => exact start
    | @step trace state action next _ transition inductionHypothesis =>
        have earlier := inductionHypothesis
          (fun visit member => steady visit (List.mem_append_left _ member))
          (fun visit member => unmoved visit (List.mem_append_left _ member))
          (fun visit member => late visit (List.mem_append_left _ member))
        have next := earlier.step (effect_of_step transition) (steady (state, action) (by simp))
          (unmoved (state, action) (by simp)) (late (state, action) (by simp))
        rw [List.countP_append, List.countP_singleton]
        cases isTurn : action.isTurn <;> simpa [isTurn] using next
  have gone : row ∉ final.emails := by
    intro still
    have bound := last.turnsLeft still
    have positive := (final.turnsLeft_le row).1
    omega
  have accounted := (accounted_of_run (reached.trans run) joins).2
  rcases accounted.rows row last.isCreated with still | isDeleted | wasHandled
  · exact absurd still gone
  · exact .inr isDeleted
  · exact .inl wasHandled

/-- The row of the mention. -/
def mentionRow : ScheduledMessageNotificationEmail := ⟨0, 7, 100, .mention, none, 120⟩

/-- The worker after the mention. -/
def mentionState : WorkerState :=
  { WorkerState.start with emails := [mentionRow], nextId := 1, created := [mentionRow] }

theorem handled_mention :
    mentionActions.foldlM (fun state action => action.perform state) WorkerState.start =
        some mentionState ∧
      ∃ final, batchActions.foldlM (fun state action => action.perform state) mentionState =
          some final ∧
        (mentionRow.about ∈ asked final.handled ∨
          final.deleted.any mentionRow.refersTo = true) := by
  have performs : mentionActions.foldlM (fun state action => action.perform state)
      WorkerState.start = some mentionState := rfl
  refine ⟨performs, _, rfl, ?_⟩
  have run := run_of_actions (by rfl : batchActions.foldlM (fun state action =>
    action.perform state) mentionState = some _)
  exact handled_of_turns (run_of_actions performs) run (by decide) (.head _) rfl (by decide)
    (by decide) (by decide) (by decide)

end Zulip.MissedMessages
