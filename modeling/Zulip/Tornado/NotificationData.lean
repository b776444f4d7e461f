/-!
# Notification settings of one user for one message

`UserMessageNotificationsData` with its constructor from user id sets and the two
trigger functions, and the `internal_data` dictionary in which the event queues
remember it until `missedmessage_hook` reads it back.
-/

namespace Zulip.Tornado

/-- `NotificationTriggers`. -/
inductive NotificationTrigger where
  | directMessage
  | mention
  | topicWildcardMention
  | streamWildcardMention
  | streamPush
  | streamEmail
  | followedTopicPush
  | followedTopicEmail
  | topicWildcardMentionInFollowedTopic
  | streamWildcardMentionInFollowedTopic
deriving DecidableEq, Repr

/-- The fields of `UserMessageNotificationsData`, before its `__post_init__` check. -/
structure NotificationFields where
  userId : Int
  onlinePushEnabled : Bool
  dmEmailNotify : Bool
  dmPushNotify : Bool
  mentionEmailNotify : Bool
  mentionPushNotify : Bool
  topicWildcardMentionEmailNotify : Bool
  topicWildcardMentionPushNotify : Bool
  streamWildcardMentionEmailNotify : Bool
  streamWildcardMentionPushNotify : Bool
  streamPushNotify : Bool
  streamEmailNotify : Bool
  followedTopicPushNotify : Bool
  followedTopicEmailNotify : Bool
  topicWildcardMentionInFollowedTopicPushNotify : Bool
  topicWildcardMentionInFollowedTopicEmailNotify : Bool
  streamWildcardMentionInFollowedTopicPushNotify : Bool
  streamWildcardMentionInFollowedTopicEmailNotify : Bool
  senderIsMuted : Bool
  disableExternalNotifications : Bool
deriving DecidableEq, Repr

namespace NotificationFields

/-- The data that `__post_init__` asserts never to see: a direct message and a
channel notification at once. -/
def dubious (fields : NotificationFields) : Bool :=
  (fields.dmEmailNotify || fields.dmPushNotify) &&
    (fields.streamEmailNotify || fields.streamPushNotify || fields.followedTopicEmailNotify ||
      fields.followedTopicPushNotify)

end NotificationFields

/-- A constructed `UserMessageNotificationsData`, which has passed its own check. -/
structure UserMessageNotificationsData extends NotificationFields where
  notDubious : toNotificationFields.dubious = false
deriving DecidableEq

/-- The user id sets that `from_user_id_sets` consults. -/
structure NotificationUserIdSets where
  onlinePushUserIds : List Int := []
  dmMentionPushDisabledUserIds : List Int := []
  dmMentionEmailDisabledUserIds : List Int := []
  streamPushUserIds : List Int := []
  streamEmailUserIds : List Int := []
  topicWildcardMentionUserIds : List Int := []
  streamWildcardMentionUserIds : List Int := []
  followedTopicPushUserIds : List Int := []
  followedTopicEmailUserIds : List Int := []
  topicWildcardMentionInFollowedTopicUserIds : List Int := []
  streamWildcardMentionInFollowedTopicUserIds : List Int := []
  mutedSenderUserIds : List Int := []
  allBotUserIds : List Int := []
deriving DecidableEq, Repr

namespace UserMessageNotificationsData

/-- The dataclass constructor with `__post_init__`; `none` is its assertion failure. -/
def ofFields (fields : NotificationFields) : Option UserMessageNotificationsData :=
  if check : fields.dubious = false then some ⟨fields, check⟩ else none

/-- The fields that `from_user_id_sets` gives to a user who is not a bot. -/
def fieldsFromUserIdSets (userId : Int) (flags : List String) (privateMessage : Bool)
    (disableExternalNotifications : Bool) (sets : NotificationUserIdSets) : NotificationFields :=
  let emailAllowed := !sets.dmMentionEmailDisabledUserIds.contains userId
  let pushAllowed := !sets.dmMentionPushDisabledUserIds.contains userId
  let topicWildcardMentioned := flags.contains "topic_wildcard_mentioned"
  let streamWildcardMentioned := flags.contains "stream_wildcard_mentioned"
  let topicWildcard :=
    sets.topicWildcardMentionUserIds.contains userId && topicWildcardMentioned
  let streamWildcard :=
    sets.streamWildcardMentionUserIds.contains userId && streamWildcardMentioned
  let topicWildcardInFollowedTopic :=
    sets.topicWildcardMentionInFollowedTopicUserIds.contains userId && topicWildcardMentioned
  let streamWildcardInFollowedTopic :=
    sets.streamWildcardMentionInFollowedTopicUserIds.contains userId && streamWildcardMentioned
  { userId := userId
    onlinePushEnabled := sets.onlinePushUserIds.contains userId
    dmEmailNotify := emailAllowed && privateMessage
    dmPushNotify := pushAllowed && privateMessage
    mentionEmailNotify := emailAllowed && flags.contains "mentioned"
    mentionPushNotify := pushAllowed && flags.contains "mentioned"
    topicWildcardMentionEmailNotify := topicWildcard && emailAllowed
    topicWildcardMentionPushNotify := topicWildcard && pushAllowed
    streamWildcardMentionEmailNotify := streamWildcard && emailAllowed
    streamWildcardMentionPushNotify := streamWildcard && pushAllowed
    streamPushNotify := sets.streamPushUserIds.contains userId
    streamEmailNotify := sets.streamEmailUserIds.contains userId
    followedTopicPushNotify := sets.followedTopicPushUserIds.contains userId
    followedTopicEmailNotify := sets.followedTopicEmailUserIds.contains userId
    topicWildcardMentionInFollowedTopicPushNotify := topicWildcardInFollowedTopic && pushAllowed
    topicWildcardMentionInFollowedTopicEmailNotify := topicWildcardInFollowedTopic && emailAllowed
    streamWildcardMentionInFollowedTopicPushNotify := streamWildcardInFollowedTopic && pushAllowed
    streamWildcardMentionInFollowedTopicEmailNotify := streamWildcardInFollowedTopic && emailAllowed
    senderIsMuted := sets.mutedSenderUserIds.contains userId
    disableExternalNotifications := disableExternalNotifications }

/-- The all-`False` fields that `from_user_id_sets` gives to a bot. -/
def botFields (userId : Int) : NotificationFields :=
  ⟨userId, false, false, false, false, false, false, false, false, false, false, false, false,
    false, false, false, false, false, false, false⟩

/-- `UserMessageNotificationsData.from_user_id_sets`. -/
def fromUserIdSets (userId : Int) (flags : List String) (privateMessage : Bool)
    (disableExternalNotifications : Bool) (sets : NotificationUserIdSets) :
    Option UserMessageNotificationsData :=
  -- Don't send any notifications to bots.
  if sets.allBotUserIds.contains userId then ofFields (botFields userId)
  else ofFields (fieldsFromUserIdSets userId flags privateMessage disableExternalNotifications sets)

variable (data : UserMessageNotificationsData)

def triviallyShouldNotNotify (actingUserId : Int) : Bool :=
  if data.userId = actingUserId then true
  else if data.senderIsMuted then true
  else if data.disableExternalNotifications then true
  else false

def getPushNotificationTrigger (actingUserId : Int) (idle : Bool) : Option NotificationTrigger :=
  if !idle && !data.onlinePushEnabled then none
  else if data.triviallyShouldNotNotify actingUserId then none
  else if data.dmPushNotify then some .directMessage
  else if data.mentionPushNotify then some .mention
  else if data.topicWildcardMentionInFollowedTopicPushNotify then
    some .topicWildcardMentionInFollowedTopic
  else if data.streamWildcardMentionInFollowedTopicPushNotify then
    some .streamWildcardMentionInFollowedTopic
  else if data.topicWildcardMentionPushNotify then some .topicWildcardMention
  else if data.streamWildcardMentionPushNotify then some .streamWildcardMention
  else if data.followedTopicPushNotify then some .followedTopicPush
  else if data.streamPushNotify then some .streamPush
  else none

def getEmailNotificationTrigger (actingUserId : Int) (idle : Bool) : Option NotificationTrigger :=
  if !idle then none
  else if data.triviallyShouldNotNotify actingUserId then none
  else if data.dmEmailNotify then some .directMessage
  else if data.mentionEmailNotify then some .mention
  else if data.topicWildcardMentionInFollowedTopicEmailNotify then
    some .topicWildcardMentionInFollowedTopic
  else if data.streamWildcardMentionInFollowedTopicEmailNotify then
    some .streamWildcardMentionInFollowedTopic
  else if data.topicWildcardMentionEmailNotify then some .topicWildcardMention
  else if data.streamWildcardMentionEmailNotify then some .streamWildcardMention
  else if data.followedTopicEmailNotify then some .followedTopicEmail
  else if data.streamEmailNotify then some .streamEmail
  else none

def isPushNotifiable (actingUserId : Int) (idle : Bool) : Bool :=
  (data.getPushNotificationTrigger actingUserId idle).isSome

def isEmailNotifiable (actingUserId : Int) (idle : Bool) : Bool :=
  (data.getEmailNotificationTrigger actingUserId idle).isSome

def isNotifiable (actingUserId : Int) (idle : Bool) : Bool :=
  data.isEmailNotifiable actingUserId idle || data.isPushNotifiable actingUserId idle

end UserMessageNotificationsData

/-- The keys of an `internal_data` dictionary. An absent key is `none`; the four last
fields are the key names of earlier releases. -/
structure InternalDataFields where
  onlinePushEnabled : Option Bool := none
  dmEmailNotify : Option Bool := none
  dmPushNotify : Option Bool := none
  mentionEmailNotify : Option Bool := none
  mentionPushNotify : Option Bool := none
  topicWildcardMentionEmailNotify : Option Bool := none
  topicWildcardMentionPushNotify : Option Bool := none
  streamWildcardMentionEmailNotify : Option Bool := none
  streamWildcardMentionPushNotify : Option Bool := none
  streamPushNotify : Option Bool := none
  streamEmailNotify : Option Bool := none
  followedTopicPushNotify : Option Bool := none
  followedTopicEmailNotify : Option Bool := none
  topicWildcardMentionInFollowedTopicPushNotify : Option Bool := none
  topicWildcardMentionInFollowedTopicEmailNotify : Option Bool := none
  streamWildcardMentionInFollowedTopicPushNotify : Option Bool := none
  streamWildcardMentionInFollowedTopicEmailNotify : Option Bool := none
  senderIsMuted : Option Bool := none
  disableExternalNotifications : Option Bool := none
  mentionedUserGroupId : Option Int := none
  pushNotified : Option Bool := none
  emailNotified : Option Bool := none
  pmPushNotify : Option Bool := none
  pmEmailNotify : Option Bool := none
  wildcardMentionPushNotify : Option Bool := none
  wildcardMentionEmailNotify : Option Bool := none
deriving DecidableEq, Repr

namespace InternalDataFields

/-- `{**vars(user_notifications_data)}` without `user_id`, with the mentioned group. -/
def ofNotificationsData (data : UserMessageNotificationsData)
    (mentionedUserGroupId : Option Int) : InternalDataFields :=
  { onlinePushEnabled := data.onlinePushEnabled
    dmEmailNotify := data.dmEmailNotify
    dmPushNotify := data.dmPushNotify
    mentionEmailNotify := data.mentionEmailNotify
    mentionPushNotify := data.mentionPushNotify
    topicWildcardMentionEmailNotify := data.topicWildcardMentionEmailNotify
    topicWildcardMentionPushNotify := data.topicWildcardMentionPushNotify
    streamWildcardMentionEmailNotify := data.streamWildcardMentionEmailNotify
    streamWildcardMentionPushNotify := data.streamWildcardMentionPushNotify
    streamPushNotify := data.streamPushNotify
    streamEmailNotify := data.streamEmailNotify
    followedTopicPushNotify := data.followedTopicPushNotify
    followedTopicEmailNotify := data.followedTopicEmailNotify
    topicWildcardMentionInFollowedTopicPushNotify :=
      data.topicWildcardMentionInFollowedTopicPushNotify
    topicWildcardMentionInFollowedTopicEmailNotify :=
      data.topicWildcardMentionInFollowedTopicEmailNotify
    streamWildcardMentionInFollowedTopicPushNotify :=
      data.streamWildcardMentionInFollowedTopicPushNotify
    streamWildcardMentionInFollowedTopicEmailNotify :=
      data.streamWildcardMentionInFollowedTopicEmailNotify
    senderIsMuted := data.senderIsMuted
    disableExternalNotifications := data.disableExternalNotifications
    mentionedUserGroupId := mentionedUserGroupId }

/-- A key that was renamed: the new name wins when it is present, then the old one. -/
def renamed (current legacy : Option Bool) : Bool :=
  match current with
  | some value => value
  | none => legacy.getD false

/-- The arguments that `missedmessage_hook` passes to the dataclass constructor. -/
def toNotificationFields (internalData : InternalDataFields) (userProfileId : Int) :
    NotificationFields :=
  { userId := userProfileId
    senderIsMuted := internalData.senderIsMuted.getD false
    dmPushNotify := renamed internalData.dmPushNotify internalData.pmPushNotify
    dmEmailNotify := renamed internalData.dmEmailNotify internalData.pmEmailNotify
    mentionPushNotify := internalData.mentionPushNotify.getD false
    mentionEmailNotify := internalData.mentionEmailNotify.getD false
    topicWildcardMentionPushNotify := internalData.topicWildcardMentionPushNotify.getD false
    topicWildcardMentionEmailNotify := internalData.topicWildcardMentionEmailNotify.getD false
    streamWildcardMentionPushNotify :=
      renamed internalData.streamWildcardMentionPushNotify internalData.wildcardMentionPushNotify
    streamWildcardMentionEmailNotify :=
      renamed internalData.streamWildcardMentionEmailNotify internalData.wildcardMentionEmailNotify
    streamPushNotify := internalData.streamPushNotify.getD false
    streamEmailNotify := internalData.streamEmailNotify.getD false
    followedTopicPushNotify := internalData.followedTopicPushNotify.getD false
    followedTopicEmailNotify := internalData.followedTopicEmailNotify.getD false
    topicWildcardMentionInFollowedTopicPushNotify :=
      internalData.topicWildcardMentionInFollowedTopicPushNotify.getD false
    topicWildcardMentionInFollowedTopicEmailNotify :=
      internalData.topicWildcardMentionInFollowedTopicEmailNotify.getD false
    streamWildcardMentionInFollowedTopicPushNotify :=
      internalData.streamWildcardMentionInFollowedTopicPushNotify.getD false
    streamWildcardMentionInFollowedTopicEmailNotify :=
      internalData.streamWildcardMentionInFollowedTopicEmailNotify.getD false
    -- One is by definition idle, so `online_push_enabled` is not needed.
    onlinePushEnabled := false
    disableExternalNotifications := internalData.disableExternalNotifications.getD false }

end InternalDataFields

/-- The `internal_data` of a queued message event. It is only ever written from checked
notification data, so reading it back passes the check again. -/
structure InternalData extends InternalDataFields where
  notDubious : (toInternalDataFields.toNotificationFields 0).dubious = false
deriving DecidableEq, Repr

namespace InternalData

/-- The internal data that `process_message_event` prepares for a user. -/
def ofNotificationsData (data : UserMessageNotificationsData)
    (mentionedUserGroupId : Option Int) : InternalData :=
  ⟨.ofNotificationsData data mentionedUserGroupId, data.notDubious⟩

/-- The notification data that `missedmessage_hook` reads back. -/
def toNotificationsData (internalData : InternalData) (userProfileId : Int) :
    UserMessageNotificationsData :=
  ⟨internalData.toNotificationFields userProfileId, internalData.notDubious⟩

/-- What the hook reads back is what the queue stored, but for the online setting. -/
theorem toNotificationsData_ofNotificationsData (data : UserMessageNotificationsData)
    (mentionedUserGroupId : Option Int) :
    ((ofNotificationsData data mentionedUserGroupId).toNotificationsData data.userId).toNotificationFields =
      { data.toNotificationFields with onlinePushEnabled := false } := rfl

end InternalData

end Zulip.Tornado
