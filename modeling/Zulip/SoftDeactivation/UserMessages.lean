import Zulip.SoftDeactivation.SubscriptionHistory

/-!
# What one user is due

The tables that soft deactivation reads and writes, as far as they concern one user (an
active user who is not a service bot), and what sending a message and changing a
subscription do to them. A message is due a row when the user was subscribed as it was sent;
`due_send` and `due_subscriptionChange` say how the subscription log keeps track of that.
-/

namespace Zulip.SoftDeactivation

/-- The recipient of a message, from the user's point of view. A stream's recipient is named
by the stream. -/
inductive Recipient where
  | stream (streamId : Nat)
  | direct (toUser : Bool)
deriving DecidableEq

/-- The fields of a `Message` row that are read here. -/
structure Message where
  id : Int
  recipient : Recipient
deriving DecidableEq

/-- `is_stream_message`. -/
def Message.isStreamMessage (message : Message) : Bool :=
  match message.recipient with
  | .stream _ => true
  | .direct _ => false

/-- `UserMessageLite`, without the user. -/
structure UserMessage where
  messageId : Int
  flags : Nat
deriving DecidableEq

namespace UserMessage

/-! The bits of `UserMessage.flags` that a message can be sent with. -/

def read : Nat := 1
def mentioned : Nat := 8
def streamWildcardMentioned : Nat := 16
def topicWildcardMentioned : Nat := 32
def hasAlertWord : Nat := 512
def isPrivate : Nat := 2048

end UserMessage

/-- The tables. `subscriptions` maps a stream to `Subscription.active`. -/
structure Database where
  messages : List Message
  subscriptions : Dict Nat Bool
  auditLogs : List RealmAuditLog
  userMessages : List UserMessage
  longTermIdle : Bool
  lastActiveMessageId : Option Int
deriving DecidableEq

/-- What is known of the user when a message is sent: the settings that
`get_subscriptions_for_send_message` asks for, and whether the user is in each of the sets
that `create_user_messages` gets. -/
structure SendInfo where
  possibleStreamWildcardMention : Bool
  possiblyMentioned : Bool
  topicParticipant : Bool
  pushNotifications : Option Bool
  emailNotifications : Option Bool
  enableStreamPushNotifications : Bool
  enableStreamEmailNotifications : Bool
  hasAlertWords : Bool
  followsTopic : Bool
  mentionsStreamWildcard : Bool
  mentionsTopicWildcard : Bool
  markAsRead : Bool
  limitUnread : Option Bool
  mentioned : Bool
  alertWordFound : Bool
  streamPush : Bool
  streamEmail : Bool
  followedTopicPush : Bool
  followedTopicEmail : Bool
deriving DecidableEq

/-- `get_subscriptions_for_send_message`: whether the user's subscription is fetched. -/
def getSubscriptionsForSendMessage (active longTermIdle : Bool) (info : SendInfo) : Bool :=
  active && (info.possibleStreamWildcardMention ||
    (!longTermIdle || info.pushNotifications = some true ||
      (info.pushNotifications = none && info.enableStreamPushNotifications) ||
      info.emailNotifications = some true ||
      (info.emailNotifications = none && info.enableStreamEmailNotifications) ||
      info.possiblyMentioned || info.topicParticipant || info.hasAlertWords || info.followsTopic))

/-- The flags that `create_user_messages` computes. -/
def sentFlags (message : Message) (info : SendInfo) : Nat :=
  (if info.mentionsStreamWildcard then UserMessage.streamWildcardMentioned else 0) |||
    (if message.isStreamMessage then 0 else UserMessage.isPrivate) |||
    (if info.markAsRead || info.limitUnread = some false then UserMessage.read else 0) |||
    (if info.mentioned then UserMessage.mentioned else 0) |||
    (if info.alertWordFound then UserMessage.hasAlertWord else 0) |||
    (if info.mentionsTopicWildcard && info.topicParticipant then
      UserMessage.topicWildcardMentioned else 0)

/-- `create_user_messages`, for a user in `um_eligible_user_ids`. -/
def createUserMessages (message : Message) (longTermIdle : Bool) (info : SendInfo) :
    List UserMessage :=
  let flags := sentFlags message info
  -- The lazy case of a soft-deactivated user.
  if longTermIdle && !info.streamPush && !info.streamEmail && !info.followedTopicPush &&
      !info.followedTopicEmail && message.isStreamMessage && flags = 0 then []
  else [⟨message.id, flags⟩]

/-- The user gets one row or none. -/
theorem createUserMessages_cases (message : Message) (longTermIdle : Bool) (info : SendInfo) :
    createUserMessages message longTermIdle info = [] ∨
      ∃ flags, createUserMessages message longTermIdle info = [⟨message.id, flags⟩] := by
  unfold createUserMessages
  dsimp only
  split
  · exact Or.inl rfl
  · exact Or.inr ⟨_, rfl⟩

/-- One row of an insertion with `ON CONFLICT DO NOTHING`. -/
def insertRow (rows : List UserMessage) (row : UserMessage) : List UserMessage :=
  if row.messageId ∈ rows.map UserMessage.messageId then rows else rows ++ [row]

namespace Database

/-- A new installation. -/
def empty : Database where
  messages := []
  subscriptions := Dict.empty
  auditLogs := []
  userMessages := []
  longTermIdle := false
  lastActiveMessageId := none

/-- The messages for which the user has a row. -/
def userMessageIds (db : Database) : List Int := db.userMessages.map UserMessage.messageId

/-- `get_last_message_id`. -/
def getLastMessageId (db : Database) : Int := (db.messages.map Message.id).max?.getD (-1)

/-- The user is in `um_eligible_user_ids`. -/
def umEligible (db : Database) (recipient : Recipient) (info : SendInfo) : Bool :=
  match recipient with
  | .stream streamId => getSubscriptionsForSendMessage (db.subscriptions.getD streamId false)
      db.longTermIdle info
  | .direct toUser => toUser

/-- `bulk_insert_ums`. -/
def bulkInsertUms (db : Database) (rows : List UserMessage) : Database :=
  { db with userMessages := rows.foldl insertRow db.userMessages }

/-- `do_send_messages`. -/
def send (db : Database) (message : Message) (info : SendInfo) : Database :=
  { db with messages := db.messages ++ [message] }.bulkInsertUms
    (if db.umEligible message.recipient info then
      createUserMessages message db.longTermIdle info else [])

/-- A `RealmAuditLog` row. -/
def logEvent (db : Database) (eventType : EventType) (modifiedStreamId : Option Nat)
    (eventLastMessageId : Option Int) : Database :=
  { db with
    auditLogs := db.auditLogs ++
      [⟨db.auditLogs.length, eventType, modifiedStreamId, eventLastMessageId⟩] }

/-- The write that a subscription change makes together with its log entry. -/
def changeSubscription (db : Database) (streamId : Nat) (active : Bool) (eventType : EventType) :
    Database :=
  { db with subscriptions := db.subscriptions.set streamId active }.logEvent eventType
    (some streamId) (some db.getLastMessageId)

/-- `bulk_add_subscriptions` for one stream. -/
def subscribe (db : Database) (streamId : Nat) : Database :=
  match db.subscriptions.get? streamId with
  | none => db.changeSubscription streamId true .subscriptionCreated
  | some false => db.changeSubscription streamId true .subscriptionActivated
  | some true => db

/-- `bulk_remove_subscriptions` for one stream. -/
def unsubscribe (db : Database) (streamId : Nat) : Database :=
  match db.subscriptions.get? streamId with
  | some true => db.changeSubscription streamId false .subscriptionDeactivated
  | _ => db

end Database

namespace Database

variable (db : Database)

section Send

variable (message : Message) (info : SendInfo)

@[simp] theorem send_messages : (db.send message info).messages = db.messages ++ [message] := rfl
end Send

section Insert

variable {db} {known : List UserMessage} {row : UserMessage} {rows : List UserMessage}

theorem mem_insertRow {messageId : Int} :
    messageId ∈ (insertRow known row).map UserMessage.messageId ↔
      messageId ∈ known.map UserMessage.messageId ∨ messageId = row.messageId := by
  unfold insertRow
  split
  · rename_i conflict
    exact ⟨Or.inl, fun either => either.elim id fun same => same ▸ conflict⟩
  · simp [or_comm]

theorem nodup_insertRow (distinct : (known.map UserMessage.messageId).Nodup) :
    ((insertRow known row).map UserMessage.messageId).Nodup := by
  unfold insertRow
  split
  · exact distinct
  · rename_i new
    rw [List.map_append]
    exact distinct.append (List.nodup_singleton _) (by simpa [List.disjoint_singleton] using new)

/-- After an insertion the messages of the new rows have a row too. -/
theorem mem_userMessageIds_bulkInsertUms {messageId : Int} :
    messageId ∈ (db.bulkInsertUms rows).userMessageIds ↔
      messageId ∈ db.userMessageIds ∨ messageId ∈ rows.map UserMessage.messageId := by
  unfold bulkInsertUms userMessageIds
  dsimp only
  generalize db.userMessages = known
  induction rows generalizing known with
  | nil => simp
  | cons row rest inductionHypothesis =>
      rw [List.foldl_cons, inductionHypothesis, mem_insertRow, List.map_cons, List.mem_cons,
        or_assoc]

/-- The conflict clause keeps a message from having two rows. -/
theorem nodup_bulkInsertUms (distinct : db.userMessageIds.Nodup) :
    (db.bulkInsertUms rows).userMessageIds.Nodup := by
  unfold bulkInsertUms userMessageIds at *
  dsimp only
  generalize db.userMessages = known at distinct ⊢
  induction rows generalizing known with
  | nil => exact distinct
  | cons row rest inductionHypothesis => exact inductionHypothesis _ (nodup_insertRow distinct)

/-- What a message that is sent now gets the user. -/
theorem mem_userMessageIds_send {message : Message} {info : SendInfo} {messageId : Int} :
    messageId ∈ (db.send message info).userMessageIds ↔ messageId ∈ db.userMessageIds ∨
      messageId = message.id ∧ db.umEligible message.recipient info = true ∧
        createUserMessages message db.longTermIdle info ≠ [] := by
  unfold send
  rw [mem_userMessageIds_bulkInsertUms]
  refine or_congr_right ?_
  by_cases eligible : db.umEligible message.recipient info = true
  · rw [if_pos eligible]
    rcases createUserMessages_cases message db.longTermIdle info with lazy | ⟨flags, created⟩
    · simp [lazy]
    · simp [created, eligible]
  · simp [eligible]

end Insert

end Database

/-! ## What is due -/

namespace Database

/-- The log of the user's subscription to a stream. -/
def streamLogs (db : Database) (streamId : Nat) : List RealmAuditLog :=
  db.auditLogs.filter fun log =>
    log.eventType.isSubscriptionEvent && decide (log.modifiedStreamId = some streamId)

/-- The user is a recipient of a message that is sent now. -/
def addressed (db : Database) : Recipient → Bool
  | .stream streamId => db.subscriptions.getD streamId false
  | .direct toUser => toUser

/-- The user was a recipient of a message when it was sent, by the log. -/
def receives (db : Database) (message : Message) : Bool :=
  match message.recipient with
  | .stream streamId => received (db.streamLogs streamId) message.id
  | .direct toUser => toUser

/-- The ids of the messages that the user was a recipient of. -/
def due (db : Database) : Set Int :=
  { messageId | ∃ message ∈ db.messages, message.id = messageId ∧ db.receives message = true }

end Database

/-- What the writes keep true of the messages, the subscriptions and the log. -/
structure Consistent (db : Database) : Prop where
  increasing : Increasing Message.id db.messages
  logIds : Increasing RealmAuditLog.id db.auditLogs
  logIdsBelow : ∀ log ∈ db.auditLogs, log.id < db.auditLogs.length
  recorded : ∀ log ∈ db.auditLogs, log.eventType.isSubscriptionEvent = true →
    ∃ streamId last, log.modifiedStreamId = some streamId ∧ log.eventLastMessageId = some last ∧
      last ≤ db.getLastMessageId ∧ streamId ∈ db.subscriptions.keys
  chronological : (db.auditLogs.filter fun log => log.eventType.isSubscriptionEvent).Pairwise
    fun earlier later => ∀ first ∈ earlier.eventLastMessageId,
      ∀ second ∈ later.eventLastMessageId, first ≤ second
  logged : ∀ streamId ∈ db.subscriptions.keys, db.streamLogs streamId ≠ []
  ends : ∀ streamId, endsSubscribed (db.streamLogs streamId) = db.subscriptions.getD streamId false

section LastMessage

variable {db : Database}

theorem Database.id_le_getLastMessageId {message : Message} (member : message ∈ db.messages) :
    message.id ≤ db.getLastMessageId := by
  have isId : message.id ∈ db.messages.map Message.id := List.mem_map_of_mem member
  unfold getLastMessageId
  cases largest : (db.messages.map Message.id).max? with
  | none => simp [List.max?_eq_none_iff.mp largest] at isId
  | some last => exact (List.max?_eq_some_iff.mp largest).2 _ isId

/-- A message with a new id is the last one. -/
theorem Database.getLastMessageId_send {message : Message} {info : SendInfo}
    (fresh : db.getLastMessageId < message.id) :
    (db.send message info).getLastMessageId = message.id := by
  have largest : ((db.messages ++ [message]).map Message.id).max? = some message.id := by
    rw [List.max?_eq_some_iff]
    refine ⟨by simp, fun id member => ?_⟩
    obtain ⟨other, isMessage, rfl⟩ := List.mem_map.mp member
    rcases List.mem_append.mp isMessage with earlier | new
    · exact le_of_lt (lt_of_le_of_lt (id_le_getLastMessageId earlier) fresh)
    · rw [List.mem_singleton.mp new]
  rw [getLastMessageId, send_messages, largest, Option.getD_some]

end LastMessage

/-! ## Sending -/

section Sending

variable {db : Database} {message : Message} {info : SendInfo}

/-- Log entries are written after the messages that they know of. -/
theorem Consistent.reaches_eq_false (consistent : Consistent db) {messageId : Int}
    (fresh : db.getLastMessageId < messageId) {log : RealmAuditLog} (member : log ∈ db.auditLogs)
    (subscriptionEvent : log.eventType.isSubscriptionEvent = true) :
    log.reaches messageId = false := by
  obtain ⟨_, last, _, dated, within, _⟩ := consistent.recorded log member subscriptionEvent
  rw [reaches_eq_false_iff, dated]
  rintro _ ⟨⟩
  exact lt_of_le_of_lt within fresh

/-- A new message is due if the user is a recipient now. -/
theorem due_send (consistent : Consistent db) (fresh : db.getLastMessageId < message.id)
    {messageId : Int} :
    messageId ∈ (db.send message info).due ↔
      messageId ∈ db.due ∨ messageId = message.id ∧ db.addressed message.recipient = true := by
  have newReceives : db.receives message = db.addressed message.recipient := by
    unfold Database.receives Database.addressed
    cases message.recipient with
    | direct toUser => rfl
    | stream streamId =>
        have newest : ∀ log ∈ db.streamLogs streamId, log.reaches message.id = false := by
          intro log member
          obtain ⟨isLog, matching⟩ := List.mem_filter.mp member
          rw [Bool.and_eq_true] at matching
          exact consistent.reaches_eq_false fresh isLog matching.1
        dsimp only
        rw [← consistent.ends streamId]
        exact received_of_newest newest
  have sameReceives : ∀ other, (db.send message info).receives other = db.receives other :=
    fun _ => rfl
  simp only [Database.due, Set.mem_ofPred_eq, Database.send_messages, List.mem_append,
    List.mem_singleton, sameReceives]
  constructor
  · rintro ⟨other, earlier | rfl, rfl, receives⟩
    · exact Or.inl ⟨other, earlier, rfl, receives⟩
    · exact Or.inr ⟨rfl, newReceives ▸ receives⟩
  · rintro (⟨other, earlier, rfl, receives⟩ | ⟨rfl, addressed⟩)
    · exact ⟨other, Or.inl earlier, rfl, receives⟩
    · exact ⟨message, Or.inr rfl, rfl, newReceives.trans addressed⟩

theorem Consistent.send (consistent : Consistent db) (fresh : db.getLastMessageId < message.id) :
    Consistent (db.send message info) where
  increasing := by
    rw [Database.send_messages, Increasing.append]
    refine ⟨consistent.increasing, by simp, fun first member second isNew => ?_⟩
    rw [List.mem_singleton.mp isNew]
    exact lt_of_le_of_lt (Database.id_le_getLastMessageId member) fresh
  logIds := consistent.logIds
  logIdsBelow := consistent.logIdsBelow
  recorded log member subscriptionEvent := by
    obtain ⟨streamId, last, ofStream, dated, within, known⟩ :=
      consistent.recorded log member subscriptionEvent
    refine ⟨streamId, last, ofStream, dated, ?_, known⟩
    rw [Database.getLastMessageId_send fresh]
    exact le_of_lt (lt_of_le_of_lt within fresh)
  chronological := consistent.chronological
  logged := consistent.logged
  ends := consistent.ends

end Sending

/-! ## Changing subscriptions -/

section Changing

variable {db : Database}

theorem Database.streamLogs_logEvent (db : Database) (eventType : EventType)
    (modifiedStreamId : Option Nat) (eventLastMessageId : Option Int) (streamId : Nat) :
    (db.logEvent eventType modifiedStreamId eventLastMessageId).streamLogs streamId =
      db.streamLogs streamId ++
        if eventType.isSubscriptionEvent && decide (modifiedStreamId = some streamId) then
          [⟨db.auditLogs.length, eventType, modifiedStreamId, eventLastMessageId⟩] else [] := by
  simp only [streamLogs, logEvent, List.filter_append, List.filter_singleton, Bool.cond_eq_ite]

theorem Consistent.logIds_logEvent (consistent : Consistent db) (eventType : EventType)
    (modifiedStreamId : Option Nat) (eventLastMessageId : Option Int) :
    Increasing RealmAuditLog.id
      (db.logEvent eventType modifiedStreamId eventLastMessageId).auditLogs := by
  refine Increasing.append.mpr ⟨consistent.logIds, by simp, fun first member second isNew => ?_⟩
  rw [List.mem_singleton.mp isNew]
  exact consistent.logIdsBelow first member

theorem Consistent.logIdsBelow_logEvent (consistent : Consistent db) (eventType : EventType)
    (modifiedStreamId : Option Nat) (eventLastMessageId : Option Int) :
    ∀ log ∈ (db.logEvent eventType modifiedStreamId eventLastMessageId).auditLogs,
      log.id < (db.logEvent eventType modifiedStreamId eventLastMessageId).auditLogs.length := by
  intro log member
  simp only [Database.logEvent, List.length_append, List.length_singleton]
  rcases List.mem_append.mp member with earlier | isNew
  · exact Nat.lt_succ_of_lt (consistent.logIdsBelow log earlier)
  · rw [List.mem_singleton.mp isNew]
    exact Nat.lt_succ_self _

/-- Other events leave no trace in the subscription logs. -/
theorem Database.streamLogs_logEvent_other {eventType : EventType}
    (other : eventType.isSubscriptionEvent = false) (streamId : Nat) :
    (db.logEvent eventType none none).streamLogs streamId = db.streamLogs streamId := by
  simp [streamLogs_logEvent, other]

theorem Consistent.logEvent (consistent : Consistent db) {eventType : EventType}
    (other : eventType.isSubscriptionEvent = false) :
    Consistent (db.logEvent eventType none none) where
  increasing := consistent.increasing
  logIds := consistent.logIds_logEvent ..
  logIdsBelow := consistent.logIdsBelow_logEvent _ _ _
  recorded log member subscriptionEvent := by
    rcases List.mem_append.mp member with earlier | isNew
    · exact consistent.recorded log earlier subscriptionEvent
    · rw [List.mem_singleton.mp isNew, other] at subscriptionEvent
      cases subscriptionEvent
  chronological := by
    simpa [Database.logEvent, List.filter_append, other] using consistent.chronological
  logged streamId known := by
    rw [Database.streamLogs_logEvent_other other]
    exact consistent.logged streamId known
  ends streamId := by
    rw [Database.streamLogs_logEvent_other other]
    exact consistent.ends streamId

/-- `next` differs from `db` by a change of one subscription, if at all. -/
def SubscriptionChange (db next : Database) : Prop :=
  next = db ∨ ∃ streamId active eventType, next = db.changeSubscription streamId active eventType ∧
    eventType.isSubscriptionEvent = true ∧ eventType.subscribes = active ∧
      db.subscriptions.getD streamId false = !active

theorem subscriptionChange_subscribe (db : Database) (streamId : Nat) :
    SubscriptionChange db (db.subscribe streamId) := by
  unfold Database.subscribe
  cases found : db.subscriptions.get? streamId with
  | none => exact Or.inr ⟨streamId, true, _, rfl, rfl, rfl, by simp [Dict.getD, found]⟩
  | some active =>
      cases active with
      | false => exact Or.inr ⟨streamId, true, _, rfl, rfl, rfl, by simp [Dict.getD, found]⟩
      | true => exact Or.inl rfl

theorem subscriptionChange_unsubscribe (db : Database) (streamId : Nat) :
    SubscriptionChange db (db.unsubscribe streamId) := by
  unfold Database.unsubscribe
  split
  · rename_i found
    exact Or.inr ⟨streamId, false, _, rfl, rfl, rfl, by simp [Dict.getD, found]⟩
  · exact Or.inl rfl

variable {streamId : Nat} {active : Bool} {eventType : EventType}

theorem Database.streamLogs_changeSubscription
    (subscriptionEvent : eventType.isSubscriptionEvent = true) (other : Nat) :
    (db.changeSubscription streamId active eventType).streamLogs other =
      db.streamLogs other ++ if other = streamId then
        [⟨db.auditLogs.length, eventType, some streamId, some db.getLastMessageId⟩] else [] := by
  rw [changeSubscription, streamLogs_logEvent, subscriptionEvent]
  simp [streamLogs, eq_comm]

theorem Consistent.changeSubscription (consistent : Consistent db)
    (subscriptionEvent : eventType.isSubscriptionEvent = true)
    (subscribes : eventType.subscribes = active) :
    Consistent (db.changeSubscription streamId active eventType) where
  increasing := consistent.increasing
  logIds := consistent.logIds_logEvent ..
  logIdsBelow := consistent.logIdsBelow_logEvent _ _ _
  recorded log member isSubscriptionEvent := by
    rcases List.mem_append.mp member with earlier | isNew
    · obtain ⟨other, last, ofStream, dated, within, known⟩ :=
        consistent.recorded log earlier isSubscriptionEvent
      exact ⟨other, last, ofStream, dated, within, Dict.mem_keys_set.mpr (Or.inr known)⟩
    · rw [List.mem_singleton.mp isNew]
      exact ⟨streamId, db.getLastMessageId, rfl, rfl, le_rfl, Dict.mem_keys_set.mpr (Or.inl rfl)⟩
  chronological := by
    simp only [Database.changeSubscription, Database.logEvent, List.filter_append]
    refine List.pairwise_append.mpr ⟨consistent.chronological,
      (List.pairwise_singleton _ _).sublist (List.filter_sublist), ?_⟩
    intro earlier member log isNew first dated second newDated
    obtain ⟨isLog, isSubscriptionEvent⟩ := List.mem_filter.mp member
    obtain ⟨_, last, _, lastDated, within, _⟩ :=
      consistent.recorded earlier isLog isSubscriptionEvent
    rw [List.mem_singleton.mp (List.mem_filter.mp isNew).1] at newDated
    rw [lastDated] at dated
    cases dated
    cases newDated
    exact within
  logged other known := by
    rw [Database.streamLogs_changeSubscription subscriptionEvent]
    rcases Dict.mem_keys_set.mp known with rfl | earlier
    · simp
    · simp [consistent.logged other earlier]
  ends other := by
    rw [Database.streamLogs_changeSubscription subscriptionEvent]
    by_cases same : other = streamId
    · rw [if_pos same, endsSubscribed_snoc, same]
      exact subscribes.trans (by simp [Database.changeSubscription, Database.logEvent, Dict.getD])
    · rw [if_neg same, List.append_nil, consistent.ends other]
      simp [Database.changeSubscription, Database.logEvent, Dict.getD, Dict.get?_set_ne _ _ same]

/-- Changing a subscription does not change what is due. -/
theorem due_changeSubscription (consistent : Consistent db)
    (subscriptionEvent : eventType.isSubscriptionEvent = true)
    (subscribes : eventType.subscribes = active)
    (changes : db.subscriptions.getD streamId false = !active) :
    (db.changeSubscription streamId active eventType).due = db.due := by
  have sameReceives : ∀ message ∈ db.messages,
      (db.changeSubscription streamId active eventType).receives message = db.receives message := by
    intro message member
    unfold Database.receives
    cases message.recipient with
    | direct toUser => rfl
    | stream other =>
        dsimp only
        rw [Database.streamLogs_changeSubscription subscriptionEvent]
        by_cases same : other = streamId
        · subst same
          rw [if_pos rfl]
          refine received_snoc ?_ subscriptionEvent ?_
          · exact reaches_iff.mpr ⟨_, rfl, Database.id_le_getLastMessageId member⟩
          · rw [consistent.ends other, changes, Bool.not_not, subscribes]
        · rw [if_neg same, List.append_nil]
  ext messageId
  constructor
  · rintro ⟨message, member, rfl, receives⟩
    exact ⟨message, member, rfl, sameReceives message member ▸ receives⟩
  · rintro ⟨message, member, rfl, receives⟩
    exact ⟨message, member, rfl, (sameReceives message member).trans receives⟩

/-- A change of a subscription keeps the tables consistent. -/
theorem SubscriptionChange.consistent {next : Database} (change : SubscriptionChange db next)
    (consistent : Consistent db) : Consistent next := by
  rcases change with rfl | ⟨streamId, active, eventType, rfl, subscriptionEvent, subscribes, _⟩
  · exact consistent
  · exact consistent.changeSubscription subscriptionEvent subscribes

theorem SubscriptionChange.due_eq {next : Database} (change : SubscriptionChange db next)
    (consistent : Consistent db) : next.due = db.due := by
  rcases change with rfl | ⟨streamId, active, eventType, rfl, subscriptionEvent, subscribes, changes⟩
  · rfl
  · exact due_changeSubscription consistent subscriptionEvent subscribes changes

/-- It leaves the other tables alone. -/
theorem SubscriptionChange.frame {next : Database} (change : SubscriptionChange db next) :
    next.messages = db.messages ∧ next.userMessages = db.userMessages ∧
      next.longTermIdle = db.longTermIdle ∧
      next.lastActiveMessageId = db.lastActiveMessageId := by
  rcases change with rfl | ⟨streamId, active, eventType, rfl, _⟩ <;> exact ⟨rfl, rfl, rfl, rfl⟩

end Changing

end Zulip.SoftDeactivation
