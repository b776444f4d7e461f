import Zulip.Tornado.EventTemplate

/-!
# Push and email notices

`maybe_enqueue_notifications` and the two places that call it: for a user of a new
message, and for a message that waits in a queue that is being collected. Publishing
is returning the notices; the server appends them to what it has published.
-/

namespace Zulip.Tornado

/-- The queues that `maybe_enqueue_notifications` publishes to. -/
inductive NoticeQueue where
  | mobileNotifications
  | mobileNotificationsShard (shardId : Int)
  | emails
deriving DecidableEq, Repr

namespace NoticeQueue

/-- The queue's name. -/
def name : NoticeQueue → String
  | .mobileNotifications => "missedmessage_mobile_notifications"
  | .mobileNotificationsShard shardId =>
      "missedmessage_mobile_notifications_shard" ++ toString shardId
  | .emails => "missedmessage_emails"

end NoticeQueue

/-- The two kinds of notices. -/
inductive NoticeKind where
  | push
  | email
deriving DecidableEq, Repr

/-- A published notice. `type` is a key of push notices only. -/
structure Notice where
  queue : NoticeQueue
  userProfileId : Int
  messageId : Int
  trigger : Option NotificationTrigger
  type : Option String
  mentionedUserGroupId : Option Int
deriving DecidableEq, Repr

namespace Notice

/-- Which kind of notice was published. -/
def kind (notice : Notice) : NoticeKind :=
  match notice.queue with
  | .emails => .email
  | _ => .push

/-- What may be published once. -/
def key (notice : Notice) : NoticeKind × Int × Int :=
  (notice.kind, notice.userProfileId, notice.messageId)

end Notice

/-- The dictionaries `already_notified` and `notified`. -/
structure Notified where
  pushNotified : Bool := false
  emailNotified : Bool := false
deriving DecidableEq, Repr

namespace Notified

/-- The entry for one kind. -/
def get (notified : Notified) : NoticeKind → Bool
  | .push => notified.pushNotified
  | .email => notified.emailNotified

end Notified

namespace UserMessageNotificationsData

/-- `is_push_notifiable` or `is_email_notifiable`. -/
def isNotifiableBy (data : UserMessageNotificationsData) : NoticeKind → Int → Bool → Bool
  | .push => data.isPushNotifiable
  | .email => data.isEmailNotifiable

end UserMessageNotificationsData

/-- The queue for the push notices of a user. -/
def mobileNotificationsQueue (mobileNotificationsShards userId : Int) : NoticeQueue :=
  if mobileNotificationsShards > 1 then
    .mobileNotificationsShard (userId % mobileNotificationsShards + 1)
  else .mobileNotifications

/-- `maybe_enqueue_notifications`: the notices it publishes and the dictionary it returns. -/
def maybeEnqueueNotifications (mobileNotificationsShards : Int)
    (userNotificationsData : UserMessageNotificationsData) (actingUserId messageId : Int)
    (mentionedUserGroupId : Option Int) (idle : Bool) (alreadyNotified : Notified) :
    List Notice × Notified :=
  let push := userNotificationsData.isPushNotifiable actingUserId idle &&
    !alreadyNotified.pushNotified
  let email := userNotificationsData.isEmailNotifiable actingUserId idle &&
    !alreadyNotified.emailNotified
  let pushNotice : Notice :=
    { queue := mobileNotificationsQueue mobileNotificationsShards userNotificationsData.userId
      userProfileId := userNotificationsData.userId
      messageId := messageId
      trigger := userNotificationsData.getPushNotificationTrigger actingUserId idle
      type := some "add"
      mentionedUserGroupId := mentionedUserGroupId }
  let emailNotice : Notice :=
    { queue := .emails
      userProfileId := userNotificationsData.userId
      messageId := messageId
      trigger := userNotificationsData.getEmailNotificationTrigger actingUserId idle
      type := none
      mentionedUserGroupId := mentionedUserGroupId }
  ((if push then [pushNotice] else []) ++ (if email then [emailNotice] else []),
    ⟨push, email⟩)

/-- The kinds of notices that go out: those that notify and have not been sent. -/
def sentKinds (data : UserMessageNotificationsData) (actingUserId : Int) (idle : Bool)
    (alreadyNotified : Notified) : List NoticeKind :=
  [NoticeKind.push, .email].filter fun kind =>
    data.isNotifiableBy kind actingUserId idle && !alreadyNotified.get kind

theorem mem_sentKinds {data : UserMessageNotificationsData} {actingUserId : Int} {idle : Bool}
    {alreadyNotified : Notified} {kind : NoticeKind} :
    kind ∈ sentKinds data actingUserId idle alreadyNotified ↔
      data.isNotifiableBy kind actingUserId idle = true ∧ alreadyNotified.get kind = false := by
  cases kind <;> simp [sentKinds]

theorem sentKinds_nodup (data : UserMessageNotificationsData) (actingUserId : Int) (idle : Bool)
    (alreadyNotified : Notified) : (sentKinds data actingUserId idle alreadyNotified).Nodup :=
  List.Nodup.filter _ (by decide)

@[simp] theorem key_pushNotice (shards userId messageId : Int) (trigger : Option NotificationTrigger)
    (type : Option String) (group : Option Int) :
    (Notice.mk (mobileNotificationsQueue shards userId) userId messageId trigger type group).key =
      (.push, userId, messageId) := by
  unfold mobileNotificationsQueue
  split <;> rfl

@[simp] theorem key_emailNotice (userId messageId : Int) (trigger : Option NotificationTrigger)
    (type : Option String) (group : Option Int) :
    (Notice.mk .emails userId messageId trigger type group).key = (.email, userId, messageId) := rfl

/-- One notice goes out for each kind that is sent. -/
theorem map_key_maybeEnqueueNotifications (shards : Int) (data : UserMessageNotificationsData)
    (actingUserId messageId : Int) (group : Option Int) (idle : Bool) (already : Notified) :
    (maybeEnqueueNotifications shards data actingUserId messageId group idle already).1.map
        Notice.key =
      (sentKinds data actingUserId idle already).map fun kind => (kind, data.userId, messageId) := by
  unfold maybeEnqueueNotifications sentKinds
  cases push : data.isPushNotifiable actingUserId idle && !already.pushNotified <;>
    cases email : data.isEmailNotifiable actingUserId idle && !already.emailNotified <;>
    simp [UserMessageNotificationsData.isNotifiableBy, Notified.get, push, email]

/-- What is returned is what was published. -/
theorem get_maybeEnqueueNotifications (shards : Int) (data : UserMessageNotificationsData)
    (actingUserId messageId : Int) (group : Option Int) (idle : Bool) (already : Notified)
    (kind : NoticeKind) :
    (maybeEnqueueNotifications shards data actingUserId messageId group idle already).2.get kind =
      (data.isNotifiableBy kind actingUserId idle && !already.get kind) := by
  cases kind <;> rfl

/-! ## Notices for a new message -/

namespace InternalData

/-- A message event without `internal_data`. -/
def empty : InternalData := ⟨{}, rfl⟩

/-- `internal_data.update(notified)`, where only published notices have a key. -/
def update (internalData : InternalData) (notified : Notified) : InternalData where
  toInternalDataFields := { internalData.toInternalDataFields with
    pushNotified := if notified.pushNotified then some true else internalData.pushNotified
    emailNotified := if notified.emailNotified then some true else internalData.emailNotified }
  notDubious := internalData.notDubious

/-- `push_notified` and `email_notified`. -/
def notified (internalData : InternalData) : Notified where
  pushNotified := internalData.pushNotified.getD false
  emailNotified := internalData.emailNotified.getD false

end InternalData

namespace EventTemplate

/-- The body of the first loop of `process_message_event`, for one user: the internal
data for the user's queues and the notices that are published. `none` is an
assertion failure. -/
def notifyUser (mobileNotificationsShards : Int) (template : EventTemplate)
    (receiverIsOffZulip : Bool) (user : UserData) : Option (InternalData × List Notice) := do
  let privateMessage := template.messageDict.displayRecipient.type = "private"
  let userNotificationsData ← UserMessageNotificationsData.fromUserIdSets user.id user.flags
    privateMessage template.disableExternalNotifications template.notificationUserIdSets
  let internalData := InternalData.ofNotificationsData userNotificationsData
    user.mentionedUserGroupId
  let senderId := template.messageDict.senderId
  -- A message that would not notify an idle user needs no further thought.
  if !userNotificationsData.isNotifiable senderId true then
    return (internalData, [])
  let idle := receiverIsOffZulip || template.presenceIdleUserIds.contains user.id
  let enqueued := maybeEnqueueNotifications mobileNotificationsShards userNotificationsData
    senderId template.messageDict.id user.mentionedUserGroupId idle {}
  return (internalData.update enqueued.2, enqueued.1)

end EventTemplate

/-! ## Notices for a message in a collected queue -/

namespace MessageEvent

/-- The body of the loop of `missedmessage_hook`, for a message event. -/
def hookNotices (mobileNotificationsShards userProfileId : Int) (event : MessageEvent) :
    List Notice :=
  let internalData := event.internalData.getD .empty
  (maybeEnqueueNotifications mobileNotificationsShards
    (internalData.toNotificationsData userProfileId) event.message.senderId event.message.id
    internalData.mentionedUserGroupId true internalData.notified).1

/-- The kinds of notices that the hook publishes for the event. -/
def lateKinds (userProfileId : Int) (event : MessageEvent) : List NoticeKind :=
  let internalData := event.internalData.getD .empty
  sentKinds (internalData.toNotificationsData userProfileId) event.message.senderId true
    internalData.notified

theorem map_key_hookNotices (shards userProfileId : Int) (event : MessageEvent) :
    (event.hookNotices shards userProfileId).map Notice.key =
      (event.lateKinds userProfileId).map fun kind => (kind, userProfileId, event.message.id) :=
  map_key_maybeEnqueueNotifications ..

end MessageEvent

end Zulip.Tornado
