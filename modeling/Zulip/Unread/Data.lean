import Mathlib.Data.Finset.Sort
import Zulip.Foundation.Dict
import Zulip.Messages.Flags

/-!
# Unread data

`get_raw_unread_data` for one user: the rows that the query selects and the five collections
that `extract_unread_data_from_um_rows` builds from them.
-/

namespace Zulip.Unread

open Messages

/-! ## What the user's queries read -/

/-- `UserTopic.VisibilityPolicy`. -/
inductive VisibilityPolicy where
  | inherit
  | muted
  | unmuted
  | followed
deriving DecidableEq, Repr

/-- A `UserTopic` row of the user. -/
structure UserTopic where
  streamId : Nat
  topicName : String
  visibilityPolicy : VisibilityPolicy
deriving DecidableEq, Repr

/-- A `Subscription` row of the user for a stream. -/
structure Subscription where
  active : Bool
  isMuted : Bool
deriving DecidableEq, Repr

/-- A `Stream`. -/
structure Stream where
  isPublic : Bool
  isHistoryPublicToSubscribers : Bool
deriving DecidableEq, Repr

/-- The user, and the rows that do not change while the register call runs. -/
structure UserProfile where
  id : Nat
  isGuest : Bool
  longTermIdle : Bool
  /-- `get_first_visible_message_id`. -/
  firstVisibleMessageId : Nat
  subscriptions : Dict Nat Subscription
  userTopics : List UserTopic
  streams : Nat → Stream
  /-- The users that `get_realm_bot_profile` finds for the realm with id 1 and the bot type 1. -/
  isDefaultBot : Nat → Bool
  /-- `str.lower`. -/
  lower : String → String
  /-- `UPPER`, by which `__iexact` compares. -/
  upper : String → String

/-- A `Recipient`; a stream is named by its id, a group by its members. -/
inductive Recipient where
  | personal (userId : Nat)
  | stream (streamId : Nat)
  | directMessageGroup (members : Finset Nat) (large : 2 < members.card)
deriving DecidableEq

/-- A `Message`. -/
structure Message where
  senderId : Nat
  recipient : Recipient
  topicName : String
deriving DecidableEq

/-- The `Message` table, and the `UserMessage` rows of the user by message id. -/
structure Database where
  messages : Dict Nat Message
  userMessages : Dict Nat Flags

/-! ## Raw unread data -/

/-- `RawUnreadStreamDict`. -/
structure RawUnreadStreamDict where
  streamId : Nat
  topic : String
deriving DecidableEq

/-- `RawUnreadMessagesResult`. A `user_ids_string` is the list of the ids in it. -/
structure RawUnreadMessagesResult where
  pmDict : Dict Nat Nat
  streamDict : Dict Nat RawUnreadStreamDict
  huddleDict : Dict Nat (List Nat)
  mutedStreamIds : List Nat
  unmutedStreamMsgs : Finset Nat
  mentions : Finset Nat

/-- A row of the query in `get_raw_unread_data`. -/
structure Row where
  messageId : Nat
  message : Message
  flags : Flags
deriving DecidableEq

namespace UserProfile

/-- `get_inactive_recipient_ids`. -/
def getInactiveRecipientIds (user : UserProfile) : List Nat :=
  (user.subscriptions.entries.filter fun entry => !entry.2.active).map Prod.fst

/-- `get_muted_stream_ids`. -/
def getMutedStreamIds (user : UserProfile) : List Nat :=
  (user.subscriptions.entries.filter fun entry => entry.2.active && entry.2.isMuted).map Prod.fst

/-- The function that `build_get_topic_visibility_policy` returns. -/
def prefetchedVisibilityPolicy (user : UserProfile) (streamId : Nat) (topicName : String) :
    VisibilityPolicy :=
  match user.userTopics.reverse.find? fun row =>
      row.streamId = streamId && row.topicName = user.lower topicName with
  | some row => row.visibilityPolicy
  | none => .inherit

/-- `get_topic_visibility_policy`. -/
def getTopicVisibilityPolicy (user : UserProfile) (streamId : Nat) (topicName : String) :
    VisibilityPolicy :=
  match user.userTopics.find? fun row =>
      row.streamId = streamId && user.upper row.topicName = user.upper topicName with
  | some row => row.visibilityPolicy
  | none => .inherit

/-- `is_row_muted`. -/
def isRowMuted (user : UserProfile) (streamId : Nat) (topicName : String) : Bool :=
  let streamMuted := decide (streamId ∈ user.getMutedStreamIds)
  let visibilityPolicy := user.prefetchedVisibilityPolicy streamId topicName
  if streamMuted && visibilityPolicy ∈ [VisibilityPolicy.unmuted, .followed] then false
  else if streamMuted then true
  else if visibilityPolicy = .muted then true
  else false

/-- The rows that the query excludes by their recipient. -/
def excludesRecipient (user : UserProfile) : Recipient → Bool
  | .stream streamId => streamId ∈ user.getInactiveRecipientIds
  | _ => false

/-- The direct messages of default bots, which `exclude_bot` leaves out. -/
def excludesSender (user : UserProfile) (excludeBot : Bool) (message : Message) : Bool :=
  excludeBot &&
    (decide (message.recipient = .personal user.id) && user.isDefaultBot message.senderId)

/-- The filters of the query, except for the one on the flags. -/
def selects (user : UserProfile) (excludeBot : Bool) (row : Row) : Bool :=
  user.firstVisibleMessageId ≤ row.messageId &&
    (!user.excludesRecipient row.message.recipient && row.message.senderId != user.id &&
      !user.excludesSender excludeBot row.message)

/-- The body of the loop in `extract_unread_data_from_um_rows`. -/
def extractRow (user : UserProfile) (raw : RawUnreadMessagesResult) (row : Row) :
    RawUnreadMessagesResult :=
  let raw :=
    match row.message.recipient with
    | .stream streamId =>
        let raw := { raw with
          streamDict := raw.streamDict.set row.messageId ⟨streamId, row.message.topicName⟩ }
        if !user.isRowMuted streamId row.message.topicName then
          { raw with unmutedStreamMsgs := insert row.messageId raw.unmutedStreamMsgs }
        else raw
    | .personal typeId =>
        let otherUserId := if row.message.senderId = user.id then typeId else row.message.senderId
        { raw with pmDict := raw.pmDict.set row.messageId otherUserId }
    | .directMessageGroup members _ =>
        { raw with huddleDict := raw.huddleDict.set row.messageId (members.sort (· ≤ ·)) }
  let raw :=
    if row.flags.test {.mentioned} then { raw with mentions := insert row.messageId raw.mentions }
    else raw
  if row.flags.test {.streamWildcardMentioned} || row.flags.test {.topicWildcardMentioned} then
    match row.message.recipient with
    | .stream streamId =>
        if !user.isRowMuted streamId row.message.topicName then
          { raw with mentions := insert row.messageId raw.mentions }
        else raw
    | _ => { raw with mentions := insert row.messageId raw.mentions }
  else raw

/-- `extract_unread_data_from_um_rows`. -/
def extractUnreadDataFromUmRows (user : UserProfile) (rows : List Row) :
    RawUnreadMessagesResult :=
  rows.foldl user.extractRow
    { pmDict := Dict.empty
      streamDict := Dict.empty
      huddleDict := Dict.empty
      mutedStreamIds := user.getMutedStreamIds
      unmutedStreamMsgs := ∅
      mentions := ∅ }

end UserProfile

/-- `MAX_UNREAD_MESSAGES`. -/
def maxUnreadMessages : Nat := 50000

/-- The `UserMessage` rows joined with their messages. -/
def Database.rows (db : Database) : List Row :=
  db.userMessages.entries.filterMap fun entry =>
    (db.messages.get? entry.1).map fun message => ⟨entry.1, message, entry.2⟩

/-- `get_raw_unread_data`, for the given messages or for all unread ones; a register call for all
event types sets `exclude_bot`. -/
def getRawUnreadData (user : UserProfile) (db : Database) (messageIds : Option (List Nat))
    (excludeBot : Bool) : RawUnreadMessagesResult :=
  let selected : List Row := db.rows.filter (user.selects excludeBot)
  let userMsgs : List Row :=
    match messageIds with
    | some messageIds => selected.filter fun row => row.messageId ∈ messageIds
    | none => selected.filter fun row => !row.flags.test {.read}
  let newest := userMsgs.mergeSort fun first second => second.messageId ≤ first.messageId
  user.extractUnreadDataFromUmRows (newest.take maxUnreadMessages).reverse

end Zulip.Unread
