import Zulip.Foundation.Pointwise
import Zulip.Unread.Events

/-!
# The actions that change unread data

Each action changes the database and sends events to the queue of the user.
-/

namespace Zulip.Unread

open Messages

/-- The database after an action, and the events that the queue of the user gets. -/
structure Outcome where
  database : Database
  events : List Event

namespace UserProfile

/-- The user has an active subscription to the stream. -/
def subscribed (user : UserProfile) (streamId : Nat) : Bool :=
  match user.subscriptions.get? streamId with
  | some subscription => subscription.active
  | none => false

/-- The user has a subscription to the stream, active or not. -/
def everSubscribed (user : UserProfile) (streamId : Nat) : Bool :=
  (user.subscriptions.get? streamId).isSome

end UserProfile

/-! ## Sending -/

/-- The message dictionary of an event. -/
def Message.info (message : Message) (messageId : Nat) : MessageInfo where
  id := messageId
  displayRecipient :=
    match message.recipient with
    | .stream streamId => .stream streamId
    | .personal userId =>
        .direct (if userId = message.senderId then [userId] else [message.senderId, userId])
    | .directMessageGroup members _ => .direct (members.sort (· ≤ ·))
  topicName := message.topicName

/-- A message that is sent, as it concerns the user. -/
structure SendRequest where
  messageId : Nat
  message : Message
  /-- The user is in `active_user_ids`. -/
  active : Bool
  /-- The flags of the row that `create_user_messages` makes for the user. -/
  userMessage : Option Flags

/-- `do_send_messages` for one message. -/
def doSendMessages (db : Database) (request : SendRequest) : Outcome where
  database :=
    { messages := db.messages.set request.messageId request.message
      userMessages :=
        match request.userMessage with
        | some flags => db.userMessages.set request.messageId flags
        | none => db.userMessages }
  events :=
    if request.active || request.userMessage.isSome then
      [.message (request.message.info request.messageId) (request.userMessage.getD ∅)]
    else []

/-! ## Reading -/

/-- The flags after `operation`. -/
def FlagOperation.apply (operation : FlagOperation) (flag : Flag) (flags : Flags) : Flags :=
  match operation with
  | .add => insert flag flags
  | .remove => flags.erase flag

/-- The messages that `do_update_message_flags` looks at: messages of streams to which the user
is not subscribed are not marked as unread. -/
def markableMessages (user : UserProfile) (db : Database) (operation : FlagOperation)
    (messages : List Nat) : List Nat :=
  match operation with
  | .add => messages
  | .remove => messages.filter fun messageId =>
      match db.messages.get? messageId with
      | some ⟨_, .stream streamId, _⟩ => user.subscribed streamId
      | _ => true

/-- The messages whose flags change. -/
def changedMessages (user : UserProfile) (db : Database) (operation : FlagOperation)
    (messages : List Nat) : List Nat :=
  (markableMessages user db operation messages).filter fun messageId =>
    ((db.userMessages.get? messageId).getD defaultHistoricalFlags).test {.read} !=
      (operation == .add)

/-- The messages without a row must be messages that the user can access; without a row, those
are stream messages. -/
def historicalAccess (access : Nat → Bool) (db : Database) (messageId : Nat) : Bool :=
  match db.messages.get? messageId with
  | some ⟨_, .stream _, _⟩ => access messageId
  | _ => false

/-- The `message_details` of the event, which is there when messages are marked as unread. -/
def messageDetails (user : UserProfile) (db : Database) (operation : FlagOperation)
    (messages : List Nat) : Dict Nat MessageDetailsDict :=
  match operation with
  | .add => Dict.empty
  | .remove => formatUnreadMessageDetails user.id (getRawUnreadData user db (some messages) false)

/-- `do_update_message_flags` for the flag `read`. -/
def doUpdateMessageFlags (user : UserProfile) (access : Nat → Bool) (db : Database)
    (operation : FlagOperation) (messages : List Nat) : Except String Outcome :=
  let messages := changedMessages user db operation messages
  let historicalMessageIds :=
    messages.filter fun messageId => (db.userMessages.get? messageId).isNone
  if !historicalMessageIds.all (historicalAccess access db) then .error "Invalid message(s)"
  else
    let database : Database := { db with
      userMessages := messages.foldl (fun userMessages messageId =>
        userMessages.set messageId (operation.apply .read
          ((userMessages.get? messageId).getD defaultHistoricalFlags))) db.userMessages }
    .ok ⟨database, [.updateMessageFlags operation .read messages false
      (messageDetails user database operation messages)]⟩

/-- `do_mark_all_as_read`. -/
def doMarkAllAsRead (db : Database) : Outcome where
  database :=
    { db with
      userMessages := db.userMessages.keys.foldl (fun userMessages messageId =>
        userMessages.set messageId (FlagOperation.add.apply .read
          ((userMessages.get? messageId).getD ∅))) db.userMessages }
  events := [.updateMessageFlags .add .read [] true Dict.empty]

/-! ## Deleting -/

/-- The `delete_message` events of one notification: clients without bulk deletion get one for
each message. -/
def deleteEvents (bulkMessageDeletion : Bool) (messageIds : List Nat) : List Event :=
  if bulkMessageDeletion then [.deleteMessage messageIds]
  else messageIds.map fun messageId => .deleteMessage [messageId]

/-- `users_to_notify` in `do_delete_messages` contains the user. -/
def notifiesOfDeletion (user : UserProfile) (db : Database) (messageIds : List Nat)
    (actingUser : Bool) : Bool :=
  actingUser ||
    match messageIds.head?.bind db.messages.get? with
    | some ⟨_, .stream streamId, _⟩ => user.subscribed streamId && !user.longTermIdle
    | _ => messageIds.any fun messageId => (db.userMessages.get? messageId).isSome

/-- `do_delete_messages`. -/
def doDeleteMessages (user : UserProfile) (bulkMessageDeletion : Bool) (db : Database)
    (messageIds : List Nat) (actingUser : Bool) : Outcome where
  database :=
    { messages := messageIds.foldl Dict.erase db.messages
      userMessages := messageIds.foldl Dict.erase db.userMessages }
  events :=
    if notifiesOfDeletion user db messageIds actingUser then
      deleteEvents bulkMessageDeletion messageIds
    else []

/-! ## Moving -/

/-- A move of messages: the edited message and the others that change with it. -/
structure Move where
  targetMessage : Nat
  changedMessageIds : List Nat
  streamBeingEdited : Nat
  newStream : Option Nat
  topicName : Option String

namespace Move

variable (move : Move) (user : UserProfile)

/-- The user is in `users_losing_usermessages`. -/
def losesUserMessages : Bool :=
  match move.newStream with
  | some newStream => user.everSubscribed move.streamBeingEdited && !user.subscribed newStream
  | none => false

/-- The user is in `users_losing_access`. -/
def losesAccess : Bool :=
  match move.newStream with
  | some newStream =>
      if (user.streams newStream).isPublic then user.isGuest && move.losesUserMessages user
      else move.losesUserMessages user
  | none => false

/-- The user is in `user_ids_gaining_usermessages`. -/
def gainsUserMessages : Bool :=
  match move.newStream with
  | some newStream =>
      !(user.streams newStream).isHistoryPublicToSubscribers && user.subscribed newStream
  | none => false

/-- The `UserMessage` row of a changed message. -/
def userMessage (row : Option Flags) : Option Flags :=
  if move.losesUserMessages user then none
  else if move.gainsUserMessages user then some (row.getD {.read})
  else row

/-- A changed message. -/
def message (message : Message) : Message where
  senderId := message.senderId
  recipient :=
    match move.newStream with
    | some newStream => .stream newStream
    | none => message.recipient
  topicName := move.topicName.getD message.topicName

/-- The user is notified as a subscriber of the stream. -/
def notifiesSubscriber : Bool :=
  (user.streams move.streamBeingEdited).isHistoryPublicToSubscribers &&
    user.subscribed move.streamBeingEdited && !user.longTermIdle &&
      match move.newStream with
      | some newStream => !move.losesAccess user &&
          !(user.isGuest && user.subscribed newStream &&
            !user.subscribed move.streamBeingEdited)
      | none => true

/-- `users_to_be_notified` contains the user. -/
def notifies (db : Database) : Bool :=
  (move.userMessage user (db.userMessages.get? move.targetMessage)).isSome ||
    move.notifiesSubscriber user

end Move

/-- `do_update_message`, for a change of the topic or the stream. -/
def doUpdateMessage (user : UserProfile) (bulkMessageDeletion : Bool) (db : Database)
    (move : Move) : Outcome where
  database :=
    { messages := move.changedMessageIds.foldl (fun messages messageId =>
        messages.assign messageId ((db.messages.get? messageId).map move.message)) db.messages
      userMessages := move.changedMessageIds.foldl (fun userMessages messageId =>
        userMessages.assign messageId
          (move.userMessage user (db.userMessages.get? messageId))) db.userMessages }
  events :=
    (if move.losesAccess user then deleteEvents bulkMessageDeletion move.changedMessageIds
      else []) ++
    if move.notifies user db then
      [.updateMessage move.changedMessageIds move.newStream move.topicName]
    else []

end Zulip.Unread
