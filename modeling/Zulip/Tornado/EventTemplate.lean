import Mathlib.Data.List.Infix
import Zulip.Tornado.ClientDescriptor

/-!
# Message event templates

The `event_template` that `process_message_event` receives, its per-user data, and
the event that one client gets from it.
-/

namespace Zulip.Tornado

/-- Python's `part in text`. -/
def containsText (text part : String) : Bool := decide (part.toList <:+: text.toList)

/-- `event_template`. The keys that were renamed keep their old names beside them. -/
structure EventTemplate where
  messageDict : WideDict
  realmId : Int
  /-- Present for channel messages. -/
  streamName : Option String := none
  inviteOnly : Bool := false
  senderQueueId : Option String := none
  localId : Option String := none
  presenceIdleUserIds : List Int := []
  onlinePushUserIds : List Int := []
  dmMentionPushDisabledUserIds : Option (List Int) := none
  pmMentionPushDisabledUserIds : Option (List Int) := none
  dmMentionEmailDisabledUserIds : Option (List Int) := none
  pmMentionEmailDisabledUserIds : Option (List Int) := none
  streamPushUserIds : List Int := []
  streamEmailUserIds : List Int := []
  topicWildcardMentionUserIds : List Int := []
  streamWildcardMentionUserIds : Option (List Int) := none
  wildcardMentionUserIds : Option (List Int) := none
  followedTopicPushUserIds : List Int := []
  followedTopicEmailUserIds : List Int := []
  topicWildcardMentionInFollowedTopicUserIds : List Int := []
  streamWildcardMentionInFollowedTopicUserIds : List Int := []
  mutedSenderUserIds : List Int := []
  allBotUserIds : List Int := []
  disableExternalNotifications : Bool := false
  userIdsWithoutAccessToSender : List Int := []
  realmHost : String := ""
deriving DecidableEq

/-- One item of the `users` argument. -/
structure UserData where
  id : Int
  flags : List String := []
  mentionedUserGroupId : Option Int := none
deriving DecidableEq, Repr

namespace EventTemplate

/-- A renamed list of user ids: the new key when it is present, else the old one. -/
def renamedIds (current legacy : Option (List Int)) : List Int := (current <|> legacy).getD []

/-- The user id sets that `process_message_event` passes on for every user. -/
def notificationUserIdSets (template : EventTemplate) : NotificationUserIdSets where
  onlinePushUserIds := template.onlinePushUserIds
  dmMentionPushDisabledUserIds :=
    renamedIds template.dmMentionPushDisabledUserIds template.pmMentionPushDisabledUserIds
  dmMentionEmailDisabledUserIds :=
    renamedIds template.dmMentionEmailDisabledUserIds template.pmMentionEmailDisabledUserIds
  streamPushUserIds := template.streamPushUserIds
  streamEmailUserIds := template.streamEmailUserIds
  topicWildcardMentionUserIds := template.topicWildcardMentionUserIds
  streamWildcardMentionUserIds :=
    renamedIds template.streamWildcardMentionUserIds template.wildcardMentionUserIds
  followedTopicPushUserIds := template.followedTopicPushUserIds
  followedTopicEmailUserIds := template.followedTopicEmailUserIds
  topicWildcardMentionInFollowedTopicUserIds := template.topicWildcardMentionInFollowedTopicUserIds
  streamWildcardMentionInFollowedTopicUserIds :=
    template.streamWildcardMentionInFollowedTopicUserIds
  mutedSenderUserIds := template.mutedSenderUserIds
  allBotUserIds := template.allBotUserIds

/-- The inner function `get_client_payload`; it passes on a tuple of the client's
`sender_apply_raw_content`, which `None` has not. -/
def getClientPayload (env : PayloadEnvironment) (template : EventTemplate)
    (client : ClientDescriptor) : Except PyError MessagePayload :=
  match client.senderApplyRawContent with
  | none => .error .typeError
  | some senderApplyRawContent =>
      let canAccessSender := !template.userIdsWithoutAccessToSender.contains client.userProfileId
      .ok (MessageDict.finalizePayload env template.messageDict client.applyMarkdown
        client.clientGravatar false canAccessSender template.realmHost senderApplyRawContent)

/-- `user_event`. Zephyr mirroring bots are told whether the stream is invite-only. -/
def messageEventFor (template : EventTemplate) (message : MessagePayload)
    (internalData : Option InternalData) (client : ClientDescriptor) (flags : List String)
    (isSender : Bool) : MessageEvent where
  message :=
    if containsText client.clientTypeName "mirror" && template.inviteOnly then
      { message with inviteOnlyStream := some true }
    else message
  flags := flags
  internalData := internalData
  localMessageId := if isSender then template.localId else none

/-- The event that the last loop of `process_message_event` adds to a client, if any. -/
def userEvent (env : PayloadEnvironment) (lower : String → String) (template : EventTemplate)
    (internalData : Option InternalData) (client : ClientDescriptor) (flags : List String)
    (isSender : Bool) : Except PyError (Option MessageEvent) :=
  if !client.acceptsMessages then .ok none
  else
    match template.getClientPayload env client with
    | .error exception => .error exception
    | .ok message =>
        let event := template.messageEventFor message internalData client flags isSender
        let sendingClient := template.messageDict.client
        if !client.acceptsEvent lower (.message event) then .ok none
        -- This prevents mirroring loops.
        else if containsText sendingClient "mirror" &&
            lower sendingClient = lower client.clientTypeName then .ok none
        else .ok (some event)

section UserEvent

variable {env : PayloadEnvironment} {lower : String → String} {template : EventTemplate}
  {internalData : Option InternalData} {client : ClientDescriptor} {flags : List String}
  {isSender : Bool}

/-- The only exception is that of a client without `sender_apply_raw_content`. -/
theorem userEvent_error {exception : PyError}
    (raised : template.userEvent env lower internalData client flags isSender = .error exception) :
    exception = .typeError := by
  simp only [userEvent, getClientPayload] at raised
  split at raised
  · cases raised
  · cases content : client.senderApplyRawContent with
    | none =>
        simp only [content] at raised
        cases raised
        rfl
    | some senders =>
        simp only [content] at raised
        split at raised
        · cases raised
        · split at raised <;> cases raised

/-- An added event carries the message and the prepared internal data. -/
theorem userEvent_some {event : MessageEvent}
    (added : template.userEvent env lower internalData client flags isSender = .ok (some event)) :
    event.message.id = template.messageDict.id ∧ event.internalData = internalData ∧
      event.message.senderId = template.messageDict.senderId := by
  simp only [userEvent, getClientPayload] at added
  split at added
  · cases added
  · cases content : client.senderApplyRawContent with
    | none =>
        simp only [content] at added
        cases added
    | some senders =>
        simp only [content] at added
        split at added
        · cases added
        · split at added
          · cases added
          · cases added
            unfold messageEventFor
            split <;> exact ⟨rfl, rfl, rfl⟩

end UserEvent

end EventTemplate

end Zulip.Tornado
