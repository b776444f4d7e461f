import Zulip.Access.Messages
import Zulip.Messages.EditHistory

/-!
# Access to messages that move to another stream

Moving messages makes rows for the subscribers of the new stream and deletes rows of the users of
the old one. `movedMessages_iff`: after the move every row of a moved message belongs to a user who
may read it exactly when the rows of users without a subscription do.
-/

namespace Zulip.Access

open Zulip.Messages (PropagateMode truncateTopic)

/-- A move of messages to another stream of the realm. -/
structure MessageMove (db : Database) where
  userProfile : UserProfile
  targetMessage : Message
  oldStream : Stream
  newStream : Stream
  topicName : Option String
  propagateMode : PropagateMode
  targetStored : targetMessage ∈ db.messages
  toOldStream : targetMessage.recipient = oldStream.recipient
  oldStored : oldStream ∈ db.streams
  newStored : newStream ∈ db.streams
  toAnother : newStream.id ≠ oldStream.id
  sameRealm : newStream.realm = oldStream.realm
  /-- Subscribers belong to the realm of their stream. -/
  subscribersInRealm : ∀ user ∈ db.users, db.isSubscribed user.id newStream.recipient = true →
    user.realm = newStream.realm

/-- One row of `bulk_insert_all_ums`, with `ON CONFLICT DO NOTHING`. -/
def Database.insertUserMessage (db : Database) (row : UserMessage) : Database :=
  if absent : db.hasUserMessage row.userProfileId row.messageId then db
  else
    { db with
      userMessages := db.userMessages ++ [row]
      userMessageKeys := by
        rw [List.map_append, List.map_singleton]
        refine List.nodup_append'.mpr ⟨db.userMessageKeys, List.nodup_singleton _, ?_⟩
        rw [List.disjoint_singleton]
        intro member
        obtain ⟨other, stored, sameKey⟩ := List.mem_map.mp member
        rw [Prod.mk.injEq] at sameKey
        refine absent (List.any_eq_true.mpr ⟨other, stored, ?_⟩)
        rw [decide_eq_true_eq]
        exact sameKey }

/-- `bulk_insert_all_ums` -/
def Database.bulkInsertAllUms (db : Database) (userIds messageIds : List Nat)
    (flags : Zulip.Messages.Flags) : Database :=
  (userIds.flatMap fun userId => messageIds.map fun messageId =>
    (⟨userId, messageId, flags⟩ : UserMessage)).foldl Database.insertUserMessage db

/-- Rows of users and messages are deleted. -/
def Database.deleteUserMessages (db : Database) (userIds messageIds : List Nat) : Database :=
  { db with
    userMessages := db.userMessages.filter fun row =>
      !(userIds.contains row.userProfileId && messageIds.contains row.messageId)
    userMessageKeys := db.userMessageKeys.sublist (List.filter_sublist.map _) }

section Rows

variable {db : Database} {userId messageId : Nat}

theorem Database.hasUserMessage_iff :
    db.hasUserMessage userId messageId = true ↔
      ∃ row ∈ db.userMessages, row.userProfileId = userId ∧ row.messageId = messageId := by
  simp only [Database.hasUserMessage, List.any_eq_true, decide_eq_true_eq]

/-- Rows that are inserted change no other table. -/
theorem Database.insertUserMessage_frame (row : UserMessage) :
    (db.insertUserMessage row).streams = db.streams ∧
      (db.insertUserMessage row).users = db.users ∧
      (db.insertUserMessage row).subscriptions = db.subscriptions ∧
      (db.insertUserMessage row).messages = db.messages := by
  rw [Database.insertUserMessage]
  split_ifs <;> exact ⟨rfl, rfl, rfl, rfl⟩

theorem Database.bulkInsertAllUms_frame (userIds messageIds : List Nat)
    (flags : Zulip.Messages.Flags) :
    (db.bulkInsertAllUms userIds messageIds flags).streams = db.streams ∧
      (db.bulkInsertAllUms userIds messageIds flags).users = db.users ∧
      (db.bulkInsertAllUms userIds messageIds flags).subscriptions = db.subscriptions ∧
      (db.bulkInsertAllUms userIds messageIds flags).messages = db.messages := by
  rw [Database.bulkInsertAllUms]
  induction userIds.flatMap _ generalizing db with
  | nil => exact ⟨rfl, rfl, rfl, rfl⟩
  | cons row rest inductionHypothesis =>
      obtain ⟨streams, users, subscriptions, messages⟩ := @Database.insertUserMessage_frame db row
      rw [List.foldl_cons, ← streams, ← users, ← subscriptions, ← messages]
      exact inductionHypothesis

theorem Database.hasUserMessage_insertUserMessage (row : UserMessage) :
    (db.insertUserMessage row).hasUserMessage userId messageId = true ↔
      db.hasUserMessage userId messageId = true ∨
        (row.userProfileId = userId ∧ row.messageId = messageId) := by
  rw [Database.insertUserMessage]
  split_ifs with present
  · refine (or_iff_left_of_imp ?_).symm
    rintro ⟨rfl, rfl⟩
    exact present
  · rw [hasUserMessage_iff, hasUserMessage_iff]
    simp only [List.mem_append, List.mem_singleton, or_and_right, exists_or, exists_eq_left]

/-- After a bulk insert, all pairs have rows. -/
theorem Database.hasUserMessage_bulkInsertAllUms {userIds messageIds : List Nat}
    {flags : Zulip.Messages.Flags} :
    (db.bulkInsertAllUms userIds messageIds flags).hasUserMessage userId messageId = true ↔
      db.hasUserMessage userId messageId = true ∨ (userId ∈ userIds ∧ messageId ∈ messageIds) := by
  have pairs : (userId ∈ userIds ∧ messageId ∈ messageIds) ↔
      ∃ row ∈ userIds.flatMap fun userId => messageIds.map fun messageId =>
        (⟨userId, messageId, flags⟩ : UserMessage),
        row.userProfileId = userId ∧ row.messageId = messageId := by
    constructor
    · rintro ⟨isUser, isMessage⟩
      exact ⟨_, List.mem_flatMap.mpr ⟨userId, isUser, List.mem_map_of_mem isMessage⟩, rfl, rfl⟩
    · rintro ⟨row, member, rfl, rfl⟩
      obtain ⟨user, isUser, member⟩ := List.mem_flatMap.mp member
      obtain ⟨message, isMessage, rfl⟩ := List.mem_map.mp member
      exact ⟨isUser, isMessage⟩
  rw [pairs, Database.bulkInsertAllUms]
  generalize (userIds.flatMap _) = rows
  induction rows generalizing db with
  | nil => simp
  | cons row rest inductionHypothesis =>
      rw [List.foldl_cons]
      refine inductionHypothesis.trans ?_
      rw [hasUserMessage_insertUserMessage]
      simp only [List.mem_cons, or_and_right, exists_or, exists_eq_left, or_assoc]

theorem Database.hasUserMessage_deleteUserMessages {userIds messageIds : List Nat} :
    (db.deleteUserMessages userIds messageIds).hasUserMessage userId messageId = true ↔
      db.hasUserMessage userId messageId = true ∧ ¬(userId ∈ userIds ∧ messageId ∈ messageIds) := by
  rw [hasUserMessage_iff, hasUserMessage_iff]
  simp only [Database.deleteUserMessages, List.mem_filter, Bool.not_eq_true', Bool.and_eq_false_iff,
    List.contains_eq_mem, decide_eq_false_iff_not]
  constructor
  · rintro ⟨row, ⟨stored, kept⟩, rfl, rfl⟩
    exact ⟨⟨row, stored, rfl, rfl⟩, not_and_or.mpr kept⟩
  · rintro ⟨⟨row, stored, rfl, rfl⟩, kept⟩
    exact ⟨row, ⟨stored, not_and_or.mp kept⟩, rfl, rfl⟩

/-- No user has two rows of a message. -/
theorem Database.userMessages_unique (present : db.hasUserMessage userId messageId = true) :
    (db.userMessages.filter fun row =>
      row.userProfileId = userId ∧ row.messageId = messageId).length = 1 := by
  obtain ⟨row, stored, rfl, rfl⟩ := hasUserMessage_iff.mp present
  have unique : getUnique (db.userMessages.filter fun other =>
      other.userProfileId = row.userProfileId ∧ other.messageId = row.messageId) = .ok row :=
    getUnique_filter_of_key db.userMessageKeys stored fun other _ => by simp
  rw [getUnique_eq_ok_iff] at unique
  rw [unique, List.length_singleton]

end Rows

namespace MessageMove

variable {db : Database} (move : MessageMove db)

/-- The users with a subscription to the old stream, active or not. -/
def oldStreamAllUsers : List Nat :=
  (db.subscriptions.filter fun row => row.recipient = move.oldStream.recipient).map
    (·.userProfileId)

def newStreamCurrentUsers : List Nat :=
  (db.subscriptions.filter fun row =>
    row.recipient = move.newStream.recipient ∧ row.active = true).map (·.userProfileId)

def usersLosingUsermessages : List Nat :=
  move.oldStreamAllUsers.filter fun userId => userId ∉ move.newStreamCurrentUsers

def userIdsGainingUsermessages : List Nat :=
  if move.newStream.isHistoryPublicToSubscribers then [] else move.newStreamCurrentUsers

/-- The query of `update_messages_for_topic_edit`, when it runs on a state of the database. -/
def messagesForTopicEdit (upper : String → String) (current : Database) : List Message :=
  let messages := current.messages.filter fun message =>
    message.realm = move.oldStream.realm ∧ message.recipient = move.oldStream.recipient ∧
      upper message.subject = upper move.targetMessage.subject
  match move.propagateMode with
  | .changeOne => []
  | .changeLater =>
      bulkAccessStreamMessagesQuery current move.userProfile
        (messages.filter fun message => move.targetMessage.id < message.id) move.oldStream
  | .changeAll =>
      bulkAccessStreamMessagesQuery current move.userProfile
        (messages.filter fun message => message.id ≠ move.targetMessage.id) move.oldStream

/-- The ids of `changed_messages`, when the query runs on a state of the database. -/
def changedMessageIds (upper : String → String) (current : Database) : List Nat :=
  move.targetMessage.id :: (move.messagesForTopicEdit upper current).map (·.id)

/-- A message with its new stream and topic. -/
def relocate (message : Message) : Message :=
  { message with
    recipient := move.newStream.recipient
    subject := move.topicName.elim message.subject truncateTopic }

/-- The messages of the old stream with these ids get the new stream and topic. -/
def relocateAll (messageIds : List Nat) (message : Message) : Message :=
  if message.recipient = move.oldStream.recipient ∧ message.id ∈ messageIds then
    move.relocate message
  else message

theorem id_relocateAll (messageIds : List Nat) (message : Message) :
    (move.relocateAll messageIds message).id = message.id := by
  rw [relocateAll]
  split_ifs <;> rfl

/-- A state of the database during the move; the streams are as before. -/
def relocateMessages (current : Database) (sameStreams : current.streams = db.streams)
    (messageIds : List Nat) : Database :=
  { current with
    messages := current.messages.map (move.relocateAll messageIds)
    messageKeys := by
      rw [List.map_map]
      have sameIds : (fun message : Message => message.id) ∘ move.relocateAll messageIds =
          fun message => message.id := funext fun message => move.id_relocateAll messageIds message
      rw [sameIds]
      exact current.messageKeys
    streamOfMessage := by
      intro message stored streamId toStream
      obtain ⟨before, isBefore, rfl⟩ := List.mem_map.mp stored
      rw [relocateAll] at toStream ⊢
      split_ifs at toStream ⊢ with moved
      · -- The message was in the old stream, which is in the realm of the new one.
        obtain ⟨stream, isStream, sameId, sameRealm⟩ :=
          current.streamOfMessage before isBefore move.oldStream.id moved.1
        rw [sameStreams] at isStream ⊢
        rw [List.inj_on_of_nodup_map db.streamKeys isStream move.oldStored sameId] at sameRealm
        exact ⟨move.newStream, move.newStored, Recipient.stream.inj toStream,
          move.sameRealm.trans sameRealm⟩
      · exact current.streamOfMessage before isBefore streamId toStream }

/-- The database after rows have been made. -/
def inserted (upper : String → String) : Database :=
  db.bulkInsertAllUms move.userIdsGainingUsermessages (move.changedMessageIds upper db) {.read}

/-- The database after rows have been deleted; `changed_messages` is a query. -/
def deleted (upper : String → String) : Database :=
  (move.inserted upper).deleteUserMessages move.usersLosingUsermessages
    (move.changedMessageIds upper (move.inserted upper))

theorem streams_deleted (upper : String → String) : (move.deleted upper).streams = db.streams :=
  (Database.bulkInsertAllUms_frame _ _ _).1

/-- The database after the edited message has been saved. -/
def saved (upper : String → String) : Database :=
  move.relocateMessages (move.deleted upper) (move.streams_deleted upper) [move.targetMessage.id]

/-- The database after `do_update_message`; the query for the other messages runs again. -/
def doUpdateMessage (upper : String → String) : Database :=
  move.relocateMessages (move.saved upper) (move.streams_deleted upper)
    ((move.messagesForTopicEdit upper (move.saved upper)).map (·.id))

/-! ## What the move has to keep -/

/-- A message that has been moved. -/
def Moved (upper : String → String) (message : Message) : Prop :=
  message ∈ (move.doUpdateMessage upper).messages ∧
    message.recipient = move.newStream.recipient ∧
    ∃ before ∈ db.messages, before.id = message.id ∧ before.recipient = move.oldStream.recipient

/-- Every row of a moved message belongs to a user with access to it. -/
def AccessKept (upper : String → String) : Prop :=
  ∀ message, move.Moved upper message → ∀ row ∈ (move.doUpdateMessage upper).userMessages,
    row.messageId = message.id → ∀ user ∈ db.users, user.id = row.userProfileId →
      isAccessible (move.doUpdateMessage upper) user message = true

/-- Without public history, every subscriber has one row for each moved message. -/
def SubscribersHaveRows (upper : String → String) : Prop :=
  move.newStream.isHistoryPublicToSubscribers = false →
    ∀ message, move.Moved upper message → ∀ userId ∈ move.newStreamCurrentUsers,
      ((move.doUpdateMessage upper).userMessages.filter fun row =>
        row.userProfileId = userId ∧ row.messageId = message.id).length = 1

/-- Whether the query for the other messages looks at the rows of the acting user. -/
def readsUserMessages : Bool :=
  !(move.oldStream.isPublic && move.userProfile.canAccessPublicStreams) &&
    !move.oldStream.isHistoryPublicToSubscribers

/-- The messages that the move reaches; an acting user who loses rows may lose access on the way. -/
def Reaches (upper : String → String) (message : Message) : Prop :=
  message = move.targetMessage ∨
    message ∈ move.messagesForTopicEdit upper db ∧
      (move.readsUserMessages = true → move.userProfile.id ∉ move.usersLosingUsermessages)

/-- A user with a row, but without any subscription to the two streams, may see public streams of
the realm, and the new stream is one. -/
def UnsubscribedMayRead (upper : String → String) : Prop :=
  ∀ message ∈ db.messages, move.Reaches upper message →
    ∀ row ∈ db.userMessages, row.messageId = message.id →
      ∀ user ∈ db.users, user.id = row.userProfileId →
        user.id ∉ move.oldStreamAllUsers → user.id ∉ move.newStreamCurrentUsers →
          move.newStream.isPublic = true ∧ user.canAccessPublicStreams = true ∧
            move.newStream.realm = user.realm

/-! ## The messages of the query -/

section Query

variable {move} {upper : String → String} {current : Database} {message : Message}

/-- What the query asks for, apart from access. -/
def Selects (move : MessageMove db) (upper : String → String) (message : Message) : Prop :=
  message.realm = move.oldStream.realm ∧ message.recipient = move.oldStream.recipient ∧
    upper message.subject = upper move.targetMessage.subject ∧
    match move.propagateMode with
    | .changeOne => False
    | .changeLater => move.targetMessage.id < message.id
    | .changeAll => message.id ≠ move.targetMessage.id

theorem Selects.ne_target (selects : move.Selects upper message) :
    message.id ≠ move.targetMessage.id := by
  obtain ⟨-, -, -, byMode⟩ := selects
  cases mode : move.propagateMode with
  | changeOne =>
      rw [mode] at byMode
      exact byMode.elim
  | changeLater =>
      rw [mode] at byMode
      exact Nat.ne_of_gt byMode
  | changeAll =>
      rw [mode] at byMode
      exact byMode

theorem mem_bulkAccessStreamMessagesQuery {messages : List Message}
    (sameStreams : current.streams = db.streams)
    (stored : ∀ message ∈ messages, message ∈ current.messages)
    (toOldStream : ∀ message ∈ messages, message.recipient = move.oldStream.recipient) :
    message ∈ bulkAccessStreamMessagesQuery current move.userProfile messages move.oldStream ↔
      message ∈ messages ∧
        mayReadOn current move.userProfile move.oldStream message = true := by
  have oldStored : move.oldStream ∈ current.streams := sameStreams ▸ move.oldStored
  rw [bulkAccessStreamMessagesQuery_eq stored oldStored, List.mem_filter, List.mem_filter,
    decide_eq_true_eq, and_assoc]
  refine and_congr_right fun member => ?_
  rw [and_iff_right (toOldStream message member), mayRead_stream (toOldStream message member).symm
    (Database.getStreamById_of_mem oldStored)]

theorem mem_messagesForTopicEdit (sameStreams : current.streams = db.streams) :
    message ∈ move.messagesForTopicEdit upper current ↔
      message ∈ current.messages ∧ move.Selects upper message ∧
        mayReadOn current move.userProfile move.oldStream message = true := by
  rw [messagesForTopicEdit, Selects]
  cases mode : move.propagateMode with
  | changeOne => simp
  | changeLater =>
      dsimp only
      rw [mem_bulkAccessStreamMessagesQuery sameStreams]
      · simp only [List.mem_filter, decide_eq_true_eq, and_assoc]
      · exact fun message member => List.mem_of_mem_filter (List.mem_of_mem_filter member)
      · intro message member
        have isSelected := (List.mem_filter.mp (List.mem_of_mem_filter member)).2
        rw [decide_eq_true_eq] at isSelected
        exact isSelected.2.1
  | changeAll =>
      dsimp only
      rw [mem_bulkAccessStreamMessagesQuery sameStreams]
      · simp only [List.mem_filter, decide_eq_true_eq, and_assoc]
      · exact fun message member => List.mem_of_mem_filter (List.mem_of_mem_filter member)
      · intro message member
        have isSelected := (List.mem_filter.mp (List.mem_of_mem_filter member)).2
        rw [decide_eq_true_eq] at isSelected
        exact isSelected.2.1

/-- Access to the old stream, when the subscriptions are as before. -/
theorem mayReadOn_iff {user : UserProfile} {stream : Stream}
    (sameSubscriptions : current.subscriptions = db.subscriptions) :
    mayReadOn current user stream message = true ↔ stream.realm = user.realm ∧
      ((stream.isPublic = true ∧ user.canAccessPublicStreams = true) ∨
        (db.isSubscribed user.id stream.recipient = true ∧
          (stream.isHistoryPublicToSubscribers = true ∨
            current.hasUserMessage user.id message.id = true))) := by
  have subscribed : current.isSubscribed user.id stream.recipient =
      db.isSubscribed user.id stream.recipient := by
    rw [Database.isSubscribed, sameSubscriptions, Database.isSubscribed]
  rw [mayReadOn, decide_eq_true_eq, subscribed]

end Query

theorem mem_newStreamCurrentUsers {userId : Nat} :
    userId ∈ move.newStreamCurrentUsers ↔
      db.isSubscribed userId move.newStream.recipient = true := by
  simp only [newStreamCurrentUsers, Database.isSubscribed, List.mem_map, List.mem_filter,
    List.any_eq_true, decide_eq_true_eq]
  constructor
  · rintro ⟨row, ⟨stored, toNewStream, active⟩, rfl⟩
    exact ⟨row, stored, rfl, active, toNewStream⟩
  · rintro ⟨row, stored, rfl, active, toNewStream⟩
    exact ⟨row, ⟨stored, toNewStream, active⟩, rfl⟩

theorem mem_usersLosingUsermessages {userId : Nat} :
    userId ∈ move.usersLosingUsermessages ↔
      userId ∈ move.oldStreamAllUsers ∧ userId ∉ move.newStreamCurrentUsers := by
  rw [usersLosingUsermessages, List.mem_filter, decide_eq_true_eq]

/-! ## The rows on the way -/

section Way

variable {move} {upper : String → String} {userId messageId : Nat} {message : Message}

theorem subscriptions_inserted : (move.inserted upper).subscriptions = db.subscriptions :=
  (Database.bulkInsertAllUms_frame _ _ _).2.2.1

theorem messages_inserted : (move.inserted upper).messages = db.messages :=
  (Database.bulkInsertAllUms_frame _ _ _).2.2.2

theorem hasUserMessage_inserted :
    (move.inserted upper).hasUserMessage userId messageId = true ↔
      db.hasUserMessage userId messageId = true ∨ (userId ∈ move.userIdsGainingUsermessages ∧
        messageId ∈ move.changedMessageIds upper db) :=
  Database.hasUserMessage_bulkInsertAllUms

theorem hasUserMessage_doUpdateMessage :
    (move.doUpdateMessage upper).hasUserMessage userId messageId = true ↔
      (move.inserted upper).hasUserMessage userId messageId = true ∧
        ¬(userId ∈ move.usersLosingUsermessages ∧
          messageId ∈ move.changedMessageIds upper (move.inserted upper)) :=
  Database.hasUserMessage_deleteUserMessages

theorem hasUserMessage_saved :
    (move.saved upper).hasUserMessage userId messageId = true ↔
      (move.inserted upper).hasUserMessage userId messageId = true ∧
        ¬(userId ∈ move.usersLosingUsermessages ∧
          messageId ∈ move.changedMessageIds upper (move.inserted upper)) :=
  Database.hasUserMessage_deleteUserMessages

theorem streams_saved : (move.saved upper).streams = db.streams := move.streams_deleted upper

theorem subscriptions_saved : (move.saved upper).subscriptions = db.subscriptions :=
  @subscriptions_inserted db move upper

theorem subscriptions_doUpdateMessage :
    (move.doUpdateMessage upper).subscriptions = db.subscriptions :=
  @subscriptions_inserted db move upper

theorem newRecipient_ne : move.newStream.recipient ≠ move.oldStream.recipient :=
  fun same => move.toAnother (Recipient.stream.inj same)

theorem relocateAll_of_not_mem {messageIds : List Nat} (absent : message.id ∉ messageIds) :
    move.relocateAll messageIds message = message := by
  rw [relocateAll, if_neg fun both => absent both.2]

theorem mem_map_relocateAll {messages : List Message} {messageIds : List Nat}
    (toOldStream : message.recipient = move.oldStream.recipient) :
    message ∈ messages.map (move.relocateAll messageIds) ↔
      message ∈ messages ∧ message.id ∉ messageIds := by
  constructor
  · intro member
    obtain ⟨before, stored, isMessage⟩ := List.mem_map.mp member
    rw [relocateAll] at isMessage
    split_ifs at isMessage with relocated
    · rw [← isMessage] at toOldStream
      exact absurd toOldStream newRecipient_ne
    · rw [isMessage] at stored relocated
      exact ⟨stored, fun isIn => relocated ⟨toOldStream, isIn⟩⟩
  · rintro ⟨stored, absent⟩
    exact List.mem_map.mpr ⟨message, stored, relocateAll_of_not_mem absent⟩

/-- The edited message is not asked for again. -/
theorem mem_messages_saved (selects : move.Selects upper message) :
    message ∈ (move.saved upper).messages ↔ message ∈ db.messages := by
  have messages : (move.saved upper).messages =
      db.messages.map (move.relocateAll [move.targetMessage.id]) :=
    congrArg (List.map _) messages_inserted
  rw [messages, mem_map_relocateAll selects.2.1, List.mem_singleton]
  exact and_iff_left selects.ne_target

theorem mem_changedMessageIds {current : Database} (sameStreams : current.streams = db.streams)
    (sameMessages : current.messages = db.messages) (stored : message ∈ db.messages) :
    message.id ∈ move.changedMessageIds upper current ↔
      message = move.targetMessage ∨ message ∈ move.messagesForTopicEdit upper current := by
  rw [changedMessageIds, List.mem_cons, List.mem_map]
  constructor
  · rintro (isTarget | ⟨other, member, sameId⟩)
    · exact .inl (List.inj_on_of_nodup_map db.messageKeys stored move.targetStored isTarget)
    · have isOther := ((mem_messagesForTopicEdit sameStreams).mp member).1
      rw [sameMessages] at isOther
      rw [← List.inj_on_of_nodup_map db.messageKeys isOther stored sameId]
      exact .inr member
  · rintro (rfl | member)
    · exact .inl rfl
    · exact .inr ⟨message, member, rfl⟩

theorem streams_inserted : (move.inserted upper).streams = db.streams :=
  (Database.bulkInsertAllUms_frame _ _ _).1

/-- Rows that have been made give the acting user access to no other messages. -/
theorem mem_messagesForTopicEdit_of_inserted
    (member : message ∈ move.messagesForTopicEdit upper (move.inserted upper)) :
    message ∈ move.messagesForTopicEdit upper db := by
  obtain ⟨stored, selects, mayRead⟩ := (mem_messagesForTopicEdit streams_inserted).mp member
  rw [messages_inserted] at stored
  refine (mem_messagesForTopicEdit rfl).mpr ⟨stored, selects, ?_⟩
  rw [mayReadOn_iff subscriptions_inserted, hasUserMessage_inserted] at mayRead
  rw [mayReadOn_iff rfl]
  obtain ⟨sameRealm, isPublic | ⟨subscribed, isPublic | hasRow | ⟨-, changed⟩⟩⟩ := mayRead
  · exact ⟨sameRealm, .inl isPublic⟩
  · exact ⟨sameRealm, .inr ⟨subscribed, .inl isPublic⟩⟩
  · exact ⟨sameRealm, .inr ⟨subscribed, .inr hasRow⟩⟩
  · rcases (mem_changedMessageIds rfl rfl stored).mp changed with isTarget | member
    · exact absurd (congrArg Message.id isTarget) selects.ne_target
    · exact (mayReadOn_iff rfl).mp ((mem_messagesForTopicEdit rfl).mp member).2.2

/-- Rows that are there make no messages unreadable. -/
theorem mem_messagesForTopicEdit_inserted_of_saved
    (member : message ∈ move.messagesForTopicEdit upper (move.saved upper)) :
    message ∈ move.messagesForTopicEdit upper (move.inserted upper) := by
  obtain ⟨stored, selects, mayRead⟩ :=
    (mem_messagesForTopicEdit streams_saved).mp member
  rw [mem_messages_saved selects] at stored
  rw [← messages_inserted] at stored
  refine (mem_messagesForTopicEdit streams_inserted).mpr ⟨stored, selects, ?_⟩
  rw [mayReadOn_iff subscriptions_inserted]
  obtain ⟨sameRealm, allowed⟩ := (mayReadOn_iff subscriptions_saved).mp mayRead
  refine ⟨sameRealm, allowed.imp_right fun ⟨subscribed, readable⟩ =>
    ⟨subscribed, readable.imp_right fun hasRow => ?_⟩⟩
  exact (hasUserMessage_saved.mp hasRow).1

/-- The query finds the messages again, unless the acting user has lost the rows that it reads. -/
theorem mem_messagesForTopicEdit_saved :
    message ∈ move.messagesForTopicEdit upper (move.saved upper) ↔
      message ∈ move.messagesForTopicEdit upper db ∧
        (move.readsUserMessages = true →
          move.userProfile.id ∉ move.usersLosingUsermessages) := by
  constructor
  · intro member
    have memberInserted := mem_messagesForTopicEdit_inserted_of_saved member
    have memberBefore := mem_messagesForTopicEdit_of_inserted memberInserted
    refine ⟨memberBefore, fun reads loses => ?_⟩
    obtain ⟨-, -, mayRead⟩ := (mem_messagesForTopicEdit streams_saved).mp member
    have stored := ((mem_messagesForTopicEdit rfl).mp memberBefore).1
    have changed := (mem_changedMessageIds streams_inserted messages_inserted stored).mpr
      (.inr memberInserted)
    rw [readsUserMessages, Bool.and_eq_true, Bool.not_eq_true', Bool.not_eq_true',
      Bool.and_eq_false_iff] at reads
    obtain ⟨-, isPublic | ⟨-, isPublic | hasRow⟩⟩ :=
      (mayReadOn_iff subscriptions_saved).mp mayRead
    · rcases reads.1 with notPublic | noAccess
      · exact Bool.false_ne_true (notPublic.symm.trans isPublic.1)
      · exact Bool.false_ne_true (noAccess.symm.trans isPublic.2)
    · exact Bool.false_ne_true (reads.2.symm.trans isPublic)
    · exact (hasUserMessage_saved.mp hasRow).2 ⟨loses, changed⟩
  · rintro ⟨member, keepsRows⟩
    obtain ⟨stored, selects, mayRead⟩ := (mem_messagesForTopicEdit rfl).mp member
    refine (mem_messagesForTopicEdit streams_saved).mpr
      ⟨(mem_messages_saved selects).mpr stored, selects, ?_⟩
    rw [mayReadOn_iff rfl] at mayRead
    refine (mayReadOn_iff subscriptions_saved).mpr ?_
    obtain ⟨sameRealm, isPublic | ⟨subscribed, isPublic | hasRow⟩⟩ := mayRead
    · exact ⟨sameRealm, .inl isPublic⟩
    · exact ⟨sameRealm, .inr ⟨subscribed, .inl isPublic⟩⟩
    · by_cases reads : move.readsUserMessages = true
      · refine ⟨sameRealm, .inr ⟨subscribed, .inr (hasUserMessage_saved.mpr ?_)⟩⟩
        exact ⟨hasUserMessage_inserted.mpr (.inl hasRow), fun loses => keepsRows reads loses.1⟩
      · rw [readsUserMessages, Bool.and_eq_true, Bool.not_eq_true', Bool.not_eq_true', not_and_or,
          Bool.not_eq_false, Bool.not_eq_false, Bool.and_eq_true] at reads
        exact ⟨sameRealm, reads.imp id fun isPublic => ⟨subscribed, .inl isPublic⟩⟩

theorem relocateAll_of_mem {messageIds : List Nat}
    (toOldStream : message.recipient = move.oldStream.recipient)
    (member : message.id ∈ messageIds) :
    move.relocateAll messageIds message = move.relocate message := by
  rw [relocateAll, if_pos ⟨toOldStream, member⟩]

theorem relocateAll_relocate {messageIds : List Nat} :
    move.relocateAll messageIds (move.relocate message) = move.relocate message := by
  rw [relocateAll, if_neg fun both => newRecipient_ne both.1]

theorem messages_doUpdateMessage :
    (move.doUpdateMessage upper).messages = db.messages.map fun message =>
      move.relocateAll ((move.messagesForTopicEdit upper (move.saved upper)).map (·.id))
        (move.relocateAll [move.targetMessage.id] message) := by
  have messages : (move.doUpdateMessage upper).messages =
      (db.messages.map (move.relocateAll [move.targetMessage.id])).map
        (move.relocateAll ((move.messagesForTopicEdit upper (move.saved upper)).map (·.id))) :=
    congrArg (fun messages => (List.map _ messages).map _) messages_inserted
  rw [messages, List.map_map]
  rfl

theorem toOldStream_of_reaches (reaches : move.Reaches upper message) :
    message.recipient = move.oldStream.recipient := by
  rcases reaches with rfl | ⟨member, -⟩
  · exact move.toOldStream
  · exact ((mem_messagesForTopicEdit rfl).mp member).2.1.2.1

/-- The messages that the move reaches are those that are found for it. -/
theorem reaches_iff (stored : message ∈ db.messages) :
    move.Reaches upper message ↔ message.id = move.targetMessage.id ∨
      message.id ∈ (move.messagesForTopicEdit upper (move.saved upper)).map (·.id) := by
  refine or_congr ?_ ?_
  · exact ⟨congrArg Message.id,
      fun sameId => List.inj_on_of_nodup_map db.messageKeys stored move.targetStored sameId⟩
  · rw [← mem_messagesForTopicEdit_saved, List.mem_map]
    constructor
    · exact fun member => ⟨message, member, rfl⟩
    · rintro ⟨other, member, sameId⟩
      obtain ⟨otherStored, selects, -⟩ := (mem_messagesForTopicEdit streams_saved).mp member
      have isStored := (mem_messages_saved selects).mp otherStored
      rw [← List.inj_on_of_nodup_map db.messageKeys isStored stored sameId]
      exact member

/-- The messages that the move reaches are those that it moves. -/
theorem moved_iff : move.Moved upper message ↔
    ∃ before ∈ db.messages, move.Reaches upper before ∧ message = move.relocate before := by
  rw [Moved, messages_doUpdateMessage]
  constructor
  · rintro ⟨member, toNewStream, before, stored, sameId, toOldStream⟩
    obtain ⟨source, isSource, rfl⟩ := List.mem_map.mp member
    rw [id_relocateAll, id_relocateAll] at sameId
    have isBefore := List.inj_on_of_nodup_map db.messageKeys stored isSource sameId
    subst isBefore
    refine ⟨before, stored, ?_⟩
    rw [reaches_iff stored]
    by_cases isTarget : before.id = move.targetMessage.id
    · rw [relocateAll_of_mem toOldStream (List.mem_singleton.mpr isTarget), relocateAll_relocate]
      exact ⟨.inl isTarget, rfl⟩
    · have notTarget := fun member => isTarget (List.mem_singleton.mp member)
      rw [relocateAll_of_not_mem notTarget] at toNewStream ⊢
      by_cases isLater : before.id ∈
          (move.messagesForTopicEdit upper (move.saved upper)).map (·.id)
      · exact ⟨.inr isLater, relocateAll_of_mem toOldStream isLater⟩
      · rw [relocateAll_of_not_mem isLater] at toNewStream
        exact absurd (toNewStream.symm.trans toOldStream) newRecipient_ne
  · rintro ⟨before, stored, reaches, rfl⟩
    have toOldStream := toOldStream_of_reaches reaches
    refine ⟨List.mem_map.mpr ⟨before, stored, ?_⟩, rfl, before, stored, rfl, toOldStream⟩
    rcases (reaches_iff stored).mp reaches with isTarget | isLater
    · rw [relocateAll_of_mem toOldStream (List.mem_singleton.mpr isTarget), relocateAll_relocate]
    · by_cases isTarget : before.id = move.targetMessage.id
      · rw [relocateAll_of_mem toOldStream (List.mem_singleton.mpr isTarget),
          relocateAll_relocate]
      · rw [relocateAll_of_not_mem fun member => isTarget (List.mem_singleton.mp member)]
        exact relocateAll_of_mem toOldStream isLater

/-- A message that the move reaches is one of the changed messages, before and after rows have been
made. -/
theorem changed_of_reaches (stored : message ∈ db.messages) (reaches : move.Reaches upper message) :
    message.id ∈ move.changedMessageIds upper db ∧
      message.id ∈ move.changedMessageIds upper (move.inserted upper) := by
  rw [mem_changedMessageIds rfl rfl stored,
    mem_changedMessageIds streams_inserted messages_inserted stored]
  rcases reaches with isTarget | later
  · exact ⟨.inl isTarget, .inl isTarget⟩
  · exact ⟨.inr later.1, .inr (mem_messagesForTopicEdit_inserted_of_saved
      (mem_messagesForTopicEdit_saved.mpr later))⟩

/-- The users with a row of a moved message: subscribers who get one, and those who keep theirs. -/
theorem hasUserMessage_moved (stored : message ∈ db.messages)
    (reaches : move.Reaches upper message) :
    (move.doUpdateMessage upper).hasUserMessage userId message.id = true ↔
      (db.hasUserMessage userId message.id = true ∨
        userId ∈ move.userIdsGainingUsermessages) ∧ userId ∉ move.usersLosingUsermessages := by
  obtain ⟨changed, changedInserted⟩ := changed_of_reaches stored reaches
  rw [hasUserMessage_doUpdateMessage, hasUserMessage_inserted, and_iff_left changed,
    and_iff_left changedInserted]

/-- A user with a row may read a moved message as a subscriber, or when the stream is public. -/
theorem isAccessible_moved {user : UserProfile} (moved : move.Moved upper message)
    (hasRow : (move.doUpdateMessage upper).hasUserMessage user.id message.id = true) :
    isAccessible (move.doUpdateMessage upper) user message = true ↔
      move.newStream.realm = user.realm ∧
        ((move.newStream.isPublic = true ∧ user.canAccessPublicStreams = true) ∨
          user.id ∈ move.newStreamCurrentUsers) := by
  have newStored : move.newStream ∈ (move.doUpdateMessage upper).streams :=
    (move.streams_deleted upper).symm ▸ move.newStored
  rw [isAccessible_eq moved.1, mayRead_stream moved.2.1.symm
    (Database.getStreamById_of_mem newStored), mayReadOn_iff subscriptions_doUpdateMessage,
    mem_newStreamCurrentUsers]
  simp only [hasRow, or_true, and_true]

end Way

/-! ## The move -/

theorem subscribersHaveRows (upper : String → String) : move.SubscribersHaveRows upper := by
  intro protectedHistory message moved userId subscribed
  obtain ⟨before, stored, reaches, rfl⟩ := moved_iff.mp moved
  refine Database.userMessages_unique ((hasUserMessage_moved stored reaches).mpr ⟨.inr ?_, ?_⟩)
  · rw [userIdsGainingUsermessages, protectedHistory, if_neg Bool.false_ne_true]
    exact subscribed
  · rw [mem_usersLosingUsermessages]
    exact fun loses => loses.2 subscribed

theorem gaining_subset {userId : Nat} (gains : userId ∈ move.userIdsGainingUsermessages) :
    userId ∈ move.newStreamCurrentUsers := by
  rw [userIdsGainingUsermessages] at gains
  split_ifs at gains
  · cases gains
  · exact gains

theorem accessKept_iff (upper : String → String) :
    move.AccessKept upper ↔ move.UnsubscribedMayRead upper := by
  constructor
  · intro kept message stored reaches row isRow ofMessage user isUser ofUser notOld notNew
    have moved := moved_iff.mpr ⟨message, stored, reaches, rfl⟩
    have hadRow : db.hasUserMessage user.id message.id = true :=
      Database.hasUserMessage_iff.mpr ⟨row, isRow, ofUser.symm, ofMessage⟩
    have hasRow : (move.doUpdateMessage upper).hasUserMessage user.id message.id = true := by
      refine (hasUserMessage_moved stored reaches).mpr ⟨.inl hadRow, fun loses => notOld ?_⟩
      exact (move.mem_usersLosingUsermessages.mp loses).1
    obtain ⟨after, isAfter, afterUser, afterMessage⟩ := Database.hasUserMessage_iff.mp hasRow
    have accessible := kept _ moved after isAfter afterMessage user isUser afterUser.symm
    obtain ⟨sameRealm, isPublic | subscribed⟩ := (isAccessible_moved moved hasRow).mp accessible
    · exact ⟨isPublic.1, isPublic.2, sameRealm⟩
    · exact absurd subscribed notNew
  · intro mayRead message moved row isRow ofMessage user isUser ofUser
    obtain ⟨before, stored, reaches, rfl⟩ := moved_iff.mp moved
    have hasRow : (move.doUpdateMessage upper).hasUserMessage user.id before.id = true :=
      Database.hasUserMessage_iff.mpr ⟨row, isRow, ofUser.symm, ofMessage⟩
    rw [isAccessible_moved moved hasRow]
    by_cases subscribed : user.id ∈ move.newStreamCurrentUsers
    · exact ⟨(move.subscribersInRealm user isUser
        (move.mem_newStreamCurrentUsers.mp subscribed)).symm, .inr subscribed⟩
    · obtain ⟨hadRow | gains, keeps⟩ := (hasUserMessage_moved stored reaches).mp hasRow
      · obtain ⟨old, isOld, oldUser, oldMessage⟩ := Database.hasUserMessage_iff.mp hadRow
        have notOld : user.id ∉ move.oldStreamAllUsers := fun isOldUser =>
          keeps (move.mem_usersLosingUsermessages.mpr ⟨isOldUser, subscribed⟩)
        obtain ⟨isPublic, canAccess, sameRealm⟩ := mayRead before stored reaches old isOld
          oldMessage user isUser oldUser.symm notOld subscribed
        exact ⟨sameRealm, .inl ⟨isPublic, canAccess⟩⟩
      · exact absurd (move.gaining_subset gains) subscribed

end MessageMove

/-- Moved messages are kept from users without access, and subscribers of a stream with protected
history have their rows, exactly when the users with a row who have no subscription to either stream
may read the new one. -/
theorem movedMessages_iff {db : Database} (move : MessageMove db) (upper : String → String) :
    (move.AccessKept upper ∧ move.SubscribersHaveRows upper) ↔ move.UnsubscribedMayRead upper :=
  (and_iff_left (move.subscribersHaveRows upper)).trans (move.accessKept_iff upper)

def exampleRealm : Realm := ⟨1, false, false⟩

def lunchStream : Stream := ⟨7, exampleRealm, "lunch", false, true, false, false, false, rfl⟩

def coreTeamStream : Stream := ⟨8, exampleRealm, "core team", true, true, false, false, false, rfl⟩

def lunchMessage : Message :=
  ⟨100, exampleRealm, 10, .stream 7, "plans", "pizza", false, false, false⟩

def iago : UserProfile := ⟨10, exampleRealm, .realmAdministrator, "iago@zulip.com",
  "iago@zulip.com"⟩

def aaron : UserProfile := ⟨12, exampleRealm, .member, "aaron@zulip.com", "aaron@zulip.com"⟩

/-- A public stream, with a message that a user without a subscription has starred. -/
def starredHistory : Database where
  streams := [lunchStream, coreTeamStream]
  users := [iago, aaron]
  subscriptions := [⟨10, .stream 7, true, false⟩, ⟨10, .stream 8, true, false⟩]
  messages := [lunchMessage]
  userMessages := [⟨12, 100, {.historical, .read, .starred}⟩]
  streamOfMessage := by
    intro message stored streamId toStream
    rw [List.mem_singleton.mp stored] at toStream ⊢
    exact ⟨lunchStream, List.mem_cons_self, Recipient.stream.inj toStream, rfl⟩

theorem coreTeam_ne_lunch : coreTeamStream.id ≠ lunchStream.id := by decide

def dinnerStream : Stream := ⟨8, exampleRealm, "dinner", false, true, false, false, false, rfl⟩

theorem dinner_ne_lunch : dinnerStream.id ≠ lunchStream.id := by decide

/-- The same history, with a second public stream in place of the private one. -/
def publicHistory : Database where
  streams := [lunchStream, dinnerStream]
  users := [iago, aaron]
  subscriptions := starredHistory.subscriptions
  messages := [lunchMessage]
  userMessages := starredHistory.userMessages
  streamOfMessage := by
    intro message stored streamId toStream
    rw [List.mem_singleton.mp stored] at toStream ⊢
    exact ⟨lunchStream, List.mem_cons_self, Recipient.stream.inj toStream, rfl⟩

def moveToDinner : MessageMove publicHistory where
  userProfile := iago
  targetMessage := lunchMessage
  oldStream := lunchStream
  newStream := dinnerStream
  topicName := none
  propagateMode := .changeOne
  targetStored := List.mem_singleton_self _
  toOldStream := rfl
  oldStored := List.mem_cons_self
  newStored := List.mem_cons_of_mem _ (List.mem_singleton_self _)
  toAnother := dinner_ne_lunch
  sameRealm := rfl
  subscribersInRealm := by
    intro user isUser _
    rcases List.mem_cons.mp isUser with rfl | isUser
    · rfl
    · rw [List.mem_singleton.mp isUser]
      rfl

/-- Who has starred the message without a subscription may read it in the other public stream. -/
example : moveToDinner.AccessKept id ∧ moveToDinner.SubscribersHaveRows id := by
  refine ⟨(moveToDinner.accessKept_iff id).mpr ?_, moveToDinner.subscribersHaveRows id⟩
  intro message _ _ row _ _ user isUser _ _ _
  rcases List.mem_cons.mp isUser with rfl | isUser
  · exact ⟨by decide, by decide, rfl⟩
  · rw [List.mem_singleton.mp isUser]
    exact ⟨by decide, by decide, rfl⟩

/-- The message is moved to a private stream. -/
def moveToCoreTeam : MessageMove starredHistory where
  userProfile := iago
  targetMessage := lunchMessage
  oldStream := lunchStream
  newStream := coreTeamStream
  topicName := none
  propagateMode := .changeOne
  targetStored := List.mem_singleton_self _
  toOldStream := rfl
  oldStored := List.mem_cons_self
  newStored := List.mem_cons_of_mem _ (List.mem_singleton_self _)
  toAnother := coreTeam_ne_lunch
  sameRealm := rfl
  subscribersInRealm := by
    intro user isUser _
    rcases List.mem_cons.mp isUser with rfl | isUser
    · rfl
    · rw [List.mem_singleton.mp isUser]
      rfl

/-- The user who has starred the message keeps the row. -/
theorem starredMessage_leaks :
    ¬(moveToCoreTeam.AccessKept id ∧ moveToCoreTeam.SubscribersHaveRows id) := by
  rintro ⟨kept, -⟩
  obtain ⟨isPublic, -⟩ := (moveToCoreTeam.accessKept_iff id).mp kept lunchMessage
    (List.mem_singleton_self _) (.inl rfl) _ (List.mem_singleton_self _) rfl aaron
      (List.mem_cons_of_mem _ (List.mem_singleton_self _)) rfl (by decide) (by decide)
  exact absurd isPublic (by decide)

end Zulip.Access
