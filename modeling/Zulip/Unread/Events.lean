import Mathlib.Data.Finset.Dedup
import Zulip.Unread.Data

/-!
# Applying events to unread data

The branches of `apply_event` that change `raw_unread_msgs`.
-/

namespace Zulip.Unread

open Messages

/-- The `display_recipient` of a message: a stream, or the participants of a direct message. -/
inductive DisplayRecipient where
  | stream (streamId : Nat)
  | direct (participants : List Nat)
deriving DecidableEq

/-- The `message` dictionary of an event. -/
structure MessageInfo where
  id : Nat
  displayRecipient : DisplayRecipient
  topicName : String
deriving DecidableEq

/-- `MessageDetailsDict`. -/
inductive MessageDetailsDict where
  | direct (userIds : List Nat) (mentioned : Bool)
  | stream (streamId : Nat) (topic : String) (unmutedStreamMsg mentioned : Bool)
deriving DecidableEq

/-- `op` of an `update_message_flags` event. -/
inductive FlagOperation where
  | add
  | remove
deriving DecidableEq, Repr

/-- The events that concern unread data. -/
inductive Event where
  | message (message : MessageInfo) (flags : Flags)
  | updateMessage (messageIds : List Nat) (newStreamId : Option Nat) (topicName : Option String)
  | deleteMessage (messageIds : List Nat)
  /-- `message_details` is there when messages are marked as unread. -/
  | updateMessageFlags (op : FlagOperation) (flag : Flag) (messages : List Nat) (all : Bool)
      (messageDetails : Dict Nat MessageDetailsDict)

namespace RawUnreadMessagesResult

/-- `remove_message_id_from_unread_mgs`. -/
def removeMessageId (raw : RawUnreadMessagesResult) (messageId : Nat) : RawUnreadMessagesResult :=
  { raw with
    pmDict := raw.pmDict.erase messageId
    streamDict := raw.streamDict.erase messageId
    huddleDict := raw.huddleDict.erase messageId
    unmutedStreamMsgs := raw.unmutedStreamMsgs.erase messageId
    mentions := raw.mentions.erase messageId }

/-- The condition under which `apply_unread_message_event` adds to `unmuted_stream_msgs`. -/
def eventUnmuted (user : UserProfile) (mutedStreamIds : List Nat) (streamId : Nat)
    (topicName : String) : Bool :=
  let streamMuted := decide (streamId ∈ mutedStreamIds)
  let visibilityPolicy := user.getTopicVisibilityPolicy streamId topicName
  (!streamMuted && visibilityPolicy != .muted) ||
    (streamMuted && visibilityPolicy ∈ [VisibilityPolicy.unmuted, .followed])

/-- `apply_unread_message_event`. -/
def applyUnreadMessageEvent (user : UserProfile) (raw : RawUnreadMessagesResult)
    (message : MessageInfo) (flags : Flags) : RawUnreadMessagesResult :=
  let raw :=
    match message.displayRecipient with
    | .stream streamId =>
        let raw := { raw with
          streamDict := raw.streamDict.set message.id ⟨streamId, message.topicName⟩ }
        if eventUnmuted user raw.mutedStreamIds streamId message.topicName then
          { raw with unmutedStreamMsgs := insert message.id raw.unmutedStreamMsgs }
        else raw
    | .direct participants =>
        match participants.filter fun recip => recip != user.id with
        | [] => { raw with pmDict := raw.pmDict.set message.id user.id }
        | [otherUserId] => { raw with pmDict := raw.pmDict.set message.id otherUserId }
        | _ => { raw with
            huddleDict := raw.huddleDict.set message.id (participants.mergeSort (· ≤ ·)) }
  let raw :=
    if flags.test {.mentioned} then { raw with mentions := insert message.id raw.mentions }
    else raw
  if (flags.test {.streamWildcardMentioned} || flags.test {.topicWildcardMentioned}) &&
      message.id ∈ raw.unmutedStreamMsgs then
    { raw with mentions := insert message.id raw.mentions }
  else raw

/-- `add_message_to_unread_msgs`. -/
def addMessage (myUserId : Nat) (raw : RawUnreadMessagesResult) (messageId : Nat)
    (messageDetails : MessageDetailsDict) : RawUnreadMessagesResult :=
  match messageDetails with
  | .direct userIds mentioned =>
      let raw :=
        if mentioned then { raw with mentions := insert messageId raw.mentions } else raw
      match userIds.filter fun userId => userId != myUserId with
      | [] => { raw with pmDict := raw.pmDict.set messageId myUserId }
      | [otherUserId] => { raw with pmDict := raw.pmDict.set messageId otherUserId }
      | userIds => { raw with
          huddleDict := raw.huddleDict.set messageId
            ((userIds ++ [myUserId]).mergeSort (· ≤ ·)) }
  | .stream streamId topic unmutedStreamMsg mentioned =>
      let raw :=
        if mentioned then { raw with mentions := insert messageId raw.mentions } else raw
      let raw := { raw with streamDict := raw.streamDict.set messageId ⟨streamId, topic⟩ }
      if unmutedStreamMsg then
        { raw with unmutedStreamMsgs := insert messageId raw.unmutedStreamMsgs }
      else raw

/-- Change the entries of messages that are in `stream_dict`. -/
def updateStreamDict (raw : RawUnreadMessagesResult) (messageIds : List Nat)
    (change : RawUnreadStreamDict → RawUnreadStreamDict) : RawUnreadMessagesResult :=
  messageIds.foldl (fun raw messageId =>
    match raw.streamDict.get? messageId with
    | some entry => { raw with streamDict := raw.streamDict.set messageId (change entry) }
    | none => raw) raw

/-- What `apply_event` does to `raw_unread_msgs`. -/
def applyEvent (user : UserProfile) (raw : RawUnreadMessagesResult) :
    Event → RawUnreadMessagesResult
  | .message message flags =>
      if flags.test {.read} then raw else raw.applyUnreadMessageEvent user message flags
  | .updateMessage messageIds newStreamId topicName =>
      let raw :=
        match newStreamId with
        | some streamId => raw.updateStreamDict messageIds fun entry => { entry with streamId }
        | none => raw
      match topicName with
      | some topic => raw.updateStreamDict messageIds fun entry => { entry with topic }
      | none => raw
  | .deleteMessage messageIds => messageIds.foldl removeMessageId raw
  | .updateMessageFlags op flag messages _ messageDetails =>
      if flag = .read ∧ op = .add then messages.foldl removeMessageId raw
      else if flag = .read ∧ op = .remove then
        messageDetails.entries.foldl
          (fun raw entry => raw.addMessage user.id entry.1 entry.2) raw
      else raw

end RawUnreadMessagesResult

/-- `format_unread_message_details`. -/
def formatUnreadMessageDetails (myUserId : Nat) (rawUnreadData : RawUnreadMessagesResult) :
    Dict Nat MessageDetailsDict :=
  let direct := rawUnreadData.pmDict.entries.foldl (fun unreadData entry =>
    unreadData.set entry.1 (.direct (if entry.2 = myUserId then [] else [entry.2])
      (entry.1 ∈ rawUnreadData.mentions))) Dict.empty
  let streams := rawUnreadData.streamDict.entries.foldl (fun unreadData entry =>
    unreadData.set entry.1 (.stream entry.2.streamId entry.2.topic
      (entry.1 ∈ rawUnreadData.unmutedStreamMsgs) (entry.1 ∈ rawUnreadData.mentions))) direct
  rawUnreadData.huddleDict.entries.foldl (fun unreadData entry =>
    unreadData.set entry.1 (.direct
      ((entry.2.filter fun userId => userId != myUserId).mergeSort (· ≤ ·))
      (entry.1 ∈ rawUnreadData.mentions))) streams

end Zulip.Unread
