import Zulip.Access.MovedMessages
import Zulip.Messages.FlagTransactions

/-!
# Events about flags

`do_update_message_flags` as one call, from the names in the request to the event that it sends.
`doUpdateMessageFlags_exact`: the call fails and changes nothing, or the event lists the messages
whose flag has changed, and nothing else has.
-/

namespace Zulip.Access

open Zulip.Messages (Flag Flags FlagOperation FlagRequest allFlags nonApiFlags nonEditableFlags
  defaultHistoricalFlags)

/-! ## Rows of a user -/

namespace Database

variable (db : Database)

/-- The flags of the row of a user for a message. -/
def flagsOf (userId messageId : Nat) : Option Flags :=
  (db.userMessages.find? fun row => row.userProfileId = userId ∧ row.messageId = messageId).map
    (·.flags)

/-- `UPDATE` of the rows of a user for some messages. -/
def updateFlags (userId : Nat) (messageIds : List Nat) (change : Flags → Flags) : Database :=
  let update : UserMessage → UserMessage := fun row =>
    if row.userProfileId = userId ∧ row.messageId ∈ messageIds then
      { row with flags := change row.flags }
    else row
  { db with
    userMessages := db.userMessages.map update
    userMessageKeys := by
      have sameKeys : (fun row : UserMessage => (row.userProfileId, row.messageId)) ∘ update =
          fun row => (row.userProfileId, row.messageId) := by
        funext row
        simp only [update, Function.comp_apply]
        split <;> rfl
      rw [List.map_map, sameKeys]
      exact db.userMessageKeys }

/-- `INSERT` of a row, with `ON CONFLICT DO UPDATE SET flags`. -/
def insertOrUpdate (row : UserMessage) (conflict : Flags → Flags) : Database :=
  if db.hasUserMessage row.userProfileId row.messageId then
    -- The expression reads the flags of the row that was not inserted.
    db.updateFlags row.userProfileId [row.messageId] fun _ => conflict row.flags
  else db.insertUserMessage row

end Database

/-! ## The call -/

/-- The `update_message_flags` event. -/
structure FlagEvent where
  operation : FlagOperation
  flag : Flag
  messages : List Nat
  all : Bool := false
deriving DecidableEq

/-- What a call returns or raises, the database afterwards, and the events that were sent. -/
structure FlagOutcome where
  result : Except AccessError Nat
  database : Database
  events : List FlagEvent

/-- The checks of the names in a request. -/
def checkFlagNames (operation flag : String) (messages : List Nat) :
    Except AccessError FlagRequest :=
  match allFlags.find? fun item => item.name = flag ∧ item ∉ nonApiFlags with
  | none => .error (.jsonable ("Invalid flag: \x27" ++ flag ++ "\x27"))
  | some item =>
      if editable : item ∉ nonEditableFlags ∧ item ∉ nonApiFlags then
        if operation = "add" then .ok ⟨.add, item, messages, editable⟩
        else if operation = "remove" then .ok ⟨.remove, item, messages, editable⟩
        else .error (.jsonable ("Invalid message flag operation: \x27" ++ operation ++ "\x27"))
      else .error (.jsonable ("Flag not editable: \x27" ++ flag ++ "\x27"))

namespace UserProfile

variable (user : UserProfile) (db : Database)

/-- `message_ids_in_unsubscribed_streams` -/
def messageIdsInUnsubscribedStreams (messages : List Nat) : List Nat :=
  (db.messages.filter fun message =>
    message.id ∈ messages ∧ message.recipient.isStream ∧
      message.recipient ∉ getSubscribedStreamRecipientIdsForUser db user).map (·.id)

/-- The messages of the request that may be changed. -/
def requestedMessages (request : FlagRequest) : List Nat :=
  if request.flag = .read ∧ request.operation = .remove then
    request.messages.filter fun messageId =>
      messageId ∉ user.messageIdsInUnsubscribedStreams db request.messages
  else request.messages

/-- The messages that lack the desired flag, where a message without a row counts as historical. -/
def messagesToChange (request : FlagRequest) : List Nat :=
  (user.requestedMessages db request).filter fun messageId =>
    request.changes ((db.flagsOf user.id messageId).getD defaultHistoricalFlags)

/-- `historical_message_ids`, a set. -/
def historicalMessageIds (request : FlagRequest) : List Nat :=
  ((user.messagesToChange db request).filter fun messageId =>
    db.flagsOf user.id messageId = none).dedup

/-- `create_historical_user_messages` -/
def createHistoricalUserMessages (request : FlagRequest) (messageIds : List Nat) : Database :=
  messageIds.foldl (fun db messageId => db.insertOrUpdate
    ⟨user.id, messageId, request.assign defaultHistoricalFlags⟩ request.assign) db

/-- The update of the rows that were there when the transaction began. -/
def updateRows (request : FlagRequest) (current : Database) : Database :=
  current.updateFlags user.id
    ((user.messagesToChange db request).filter fun messageId =>
      (db.flagsOf user.id messageId).isSome) request.assign

/-- The transaction of `do_update_message_flags`. -/
def flagTransaction (request : FlagRequest) : Except AccessError Database :=
  if request.createsRows then
    let historicalMessageIds := user.historicalMessageIds db request
    do
      let historicalMessages ← bulkAccessMessages db user
        (db.messages.filter fun message => message.id ∈ historicalMessageIds) none
      if historicalMessages.length ≠ historicalMessageIds.length then
        .error (.jsonable "Invalid message(s)")
      else
        .ok (user.updateRows db request
          (user.createHistoricalUserMessages db request historicalMessageIds))
  else .ok (user.updateRows db request db)

/-- `do_update_message_flags`; an exception rolls the transaction back. -/
def doUpdateMessageFlags (operation flag : String) (messages : List Nat) : FlagOutcome :=
  match checkFlagNames operation flag messages with
  | .error error => ⟨.error error, db, []⟩
  | .ok request =>
      match user.flagTransaction db request with
      | .error error => ⟨.error error, db, []⟩
      | .ok database =>
          let messages := user.messagesToChange db request
          ⟨.ok messages.length, database, [⟨request.operation, request.flag, messages, false⟩]⟩

end UserProfile

/-! ## What a call should do -/

/-- The request leaves out messages of streams that the user is not subscribed to. -/
def LeavesOut (db : Database) (user : UserProfile) (request : FlagRequest) (messageId : Nat) :
    Prop :=
  request.flag = .read ∧ request.operation = .remove ∧
    ∃ message ∈ db.messages, message.id = messageId ∧ message.recipient.isStream = true ∧
      db.isSubscribed user.id message.recipient = false

/-- The flags of a message for a user, where a missing row stands for a historical one. -/
def effectiveFlags (db : Database) (userId messageId : Nat) : Flags :=
  (db.flagsOf userId messageId).getD defaultHistoricalFlags

/-- Only the `UserMessage` rows may differ. -/
def Database.SameButUserMessages (db after : Database) : Prop :=
  ∃ rows keys, after = { db with userMessages := rows, userMessageKeys := keys }

/-- The call has changed exactly what its event says. -/
structure FlagUpdateExact (db : Database) (user : UserProfile) (request : FlagRequest)
    (count : Nat) (event : FlagEvent) (after : Database) : Prop where
  operation : event.operation = request.operation
  flag : event.flag = request.flag
  count : count = event.messages.length
  /-- In the order of the request. -/
  sublist : event.messages.Sublist request.messages
  messages : ∀ messageId, messageId ∈ event.messages ↔
    messageId ∈ request.messages ∧ ¬LeavesOut db user request messageId ∧
      request.changes (effectiveFlags db user.id messageId) = true
  targetBit : ∀ messageId ∈ event.messages, ∃ flags,
    after.flagsOf user.id messageId = some flags ∧ request.changes flags = false
  otherBits : ∀ messageId ∈ event.messages, ∀ flag, flag ≠ request.flag →
    (flag ∈ effectiveFlags after user.id messageId ↔
      flag ∈ effectiveFlags db user.id messageId)
  otherRows : ∀ userId messageId, ¬(userId = user.id ∧ messageId ∈ event.messages) →
    after.flagsOf userId messageId = db.flagsOf userId messageId
  created : ∀ messageId, db.flagsOf user.id messageId = none →
    after.flagsOf user.id messageId ≠ none →
    ∃ message ∈ db.messages, message.id = messageId ∧ mayRead db user message = true
  otherTables : db.SameButUserMessages after

/-! ## What the statements do to a row -/

section Rows

variable {db after final : Database} {userId messageId : Nat}

theorem Database.SameButUserMessages.refl (db : Database) : db.SameButUserMessages db :=
  ⟨db.userMessages, db.userMessageKeys, rfl⟩

theorem Database.SameButUserMessages.trans (first : db.SameButUserMessages after)
    (second : after.SameButUserMessages final) : db.SameButUserMessages final := by
  obtain ⟨_, _, rfl⟩ := first
  obtain ⟨rows, keys, rfl⟩ := second
  exact ⟨rows, keys, rfl⟩

theorem Database.sameButUserMessages_updateFlags (messageIds : List Nat)
    (change : Flags → Flags) : db.SameButUserMessages (db.updateFlags userId messageIds change) :=
  ⟨_, _, rfl⟩

theorem Database.sameButUserMessages_insertOrUpdate (row : UserMessage)
    (conflict : Flags → Flags) : db.SameButUserMessages (db.insertOrUpdate row conflict) := by
  unfold Database.insertOrUpdate Database.insertUserMessage
  split_ifs
  · exact db.sameButUserMessages_updateFlags _ _
  · exact ⟨_, _, rfl⟩

theorem Database.flagsOf_eq_none_iff :
    db.flagsOf userId messageId = none ↔ db.hasUserMessage userId messageId = false := by
  unfold Database.flagsOf Database.hasUserMessage
  rw [Option.map_eq_none_iff, List.find?_eq_none, List.any_eq_false]

theorem Database.flagsOf_updateFlags (owner : Nat) (messageIds : List Nat)
    (change : Flags → Flags) :
    (db.updateFlags owner messageIds change).flagsOf userId messageId =
      if userId = owner ∧ messageId ∈ messageIds then (db.flagsOf userId messageId).map change
      else db.flagsOf userId messageId := by
  unfold Database.flagsOf Database.updateFlags
  dsimp only
  rw [List.find?_map, Option.map_map]
  have sameTest : ((fun row : UserMessage =>
        decide (row.userProfileId = userId ∧ row.messageId = messageId)) ∘ fun row =>
          if row.userProfileId = owner ∧ row.messageId ∈ messageIds then
            { row with flags := change row.flags }
          else row) =
      fun row => decide (row.userProfileId = userId ∧ row.messageId = messageId) := by
    funext row
    rw [Function.comp_apply]
    split <;> rfl
  rw [sameTest]
  cases found : db.userMessages.find? fun row =>
      decide (row.userProfileId = userId ∧ row.messageId = messageId) with
  | none => simp
  | some row =>
      have isRow := List.find?_some found
      rw [decide_eq_true_eq] at isRow
      obtain ⟨ofUser, ofMessage⟩ := isRow
      rw [Option.map_some, Option.map_some, Option.map_some, Function.comp_apply, ofUser,
        ofMessage]
      split <;> rfl

theorem Database.flagsOf_insertOrUpdate (row : UserMessage) (conflict : Flags → Flags)
    (repeated : conflict row.flags = row.flags) :
    (db.insertOrUpdate row conflict).flagsOf userId messageId =
      if userId = row.userProfileId ∧ messageId = row.messageId then some row.flags
      else db.flagsOf userId messageId := by
  unfold Database.insertOrUpdate
  by_cases present : db.hasUserMessage row.userProfileId row.messageId = true
  · rw [if_pos present, Database.flagsOf_updateFlags, repeated]
    simp only [List.mem_singleton]
    split_ifs with isRow
    · obtain ⟨rfl, rfl⟩ := isRow
      cases found : db.flagsOf row.userProfileId row.messageId with
      | none =>
          rw [Database.flagsOf_eq_none_iff.mp found] at present
          simp at present
      | some flags => rfl
    · rfl
  · rw [if_neg present]
    unfold Database.insertUserMessage
    rw [dif_neg present]
    have absent := Database.flagsOf_eq_none_iff.mpr (Bool.eq_false_of_not_eq_true present)
    unfold Database.flagsOf at absent ⊢
    dsimp only
    rw [List.find?_append]
    by_cases isRow : userId = row.userProfileId ∧ messageId = row.messageId
    · obtain ⟨rfl, rfl⟩ := isRow
      rw [Option.map_eq_none_iff.mp absent, if_pos ⟨rfl, rfl⟩]
      simp
    · have differs : ¬(row.userProfileId = userId ∧ row.messageId = messageId) :=
        fun same => isRow ⟨same.1.symm, same.2.symm⟩
      rw [if_neg isRow, List.find?_singleton]
      simp [differs]

end Rows

/-! ## Requests -/

section Requests

variable {request : FlagRequest}

theorem assign_changes (flags : Flags) : request.changes (request.assign flags) = false := by
  unfold FlagRequest.changes FlagRequest.assign
  cases request.operation <;> simp

theorem assign_repeated (flags : Flags) :
    request.assign (request.assign flags) = request.assign flags := by
  unfold FlagRequest.assign
  cases request.operation <;> simp

/-- Assigning a flag keeps the others. -/
theorem mem_assign_of_ne {flags : Flags} {flag : Flag} (other : flag ≠ request.flag) :
    flag ∈ request.assign flags ↔ flag ∈ flags := by
  unfold FlagRequest.assign
  cases request.operation <;> simp [other]

end Requests

/-! ## The transaction -/

namespace UserProfile

variable {user : UserProfile} {db : Database} {request : FlagRequest} {messageId : Nat}

theorem mem_messageIdsInUnsubscribedStreams {messages : List Nat} :
    messageId ∈ user.messageIdsInUnsubscribedStreams db messages ↔ messageId ∈ messages ∧
      ∃ message ∈ db.messages, message.id = messageId ∧ message.recipient.isStream = true ∧
        db.isSubscribed user.id message.recipient = false := by
  unfold messageIdsInUnsubscribedStreams
  simp only [List.mem_map, List.mem_filter, decide_eq_true_eq]
  constructor
  · rintro ⟨message, ⟨stored, requested, isStream, notSubscribed⟩, rfl⟩
    have isSubscribed := @mem_subscribedRecipientIds db user _ isStream
    rw [decide_eq_false notSubscribed] at isSubscribed
    exact ⟨requested, message, stored, rfl, isStream, isSubscribed.symm⟩
  · rintro ⟨requested, message, stored, rfl, isStream, notSubscribed⟩
    refine ⟨message, ⟨stored, requested, isStream, ?_⟩, rfl⟩
    rw [← mem_subscribedRecipientIds isStream] at notSubscribed
    exact of_decide_eq_false notSubscribed

theorem requestedMessages_sublist :
    (user.requestedMessages db request).Sublist request.messages := by
  unfold requestedMessages
  split_ifs
  · exact List.filter_sublist
  · exact List.Sublist.refl _

theorem mem_requestedMessages : messageId ∈ user.requestedMessages db request ↔
    messageId ∈ request.messages ∧ ¬LeavesOut db user request messageId := by
  unfold requestedMessages LeavesOut
  split_ifs with marksUnread
  · rw [List.mem_filter, decide_eq_true_eq, mem_messageIdsInUnsubscribedStreams]
    exact and_congr_right fun requested =>
      not_congr ⟨fun inside => ⟨marksUnread.1, marksUnread.2, inside.2⟩,
        fun inside => ⟨requested, inside.2.2⟩⟩
  · exact (and_iff_left fun inside => marksUnread ⟨inside.1, inside.2.1⟩).symm

theorem mem_messagesToChange : messageId ∈ user.messagesToChange db request ↔
    messageId ∈ request.messages ∧ ¬LeavesOut db user request messageId ∧
      request.changes (effectiveFlags db user.id messageId) = true := by
  unfold messagesToChange
  rw [List.mem_filter, mem_requestedMessages, and_assoc]
  rfl

theorem mem_historicalMessageIds : messageId ∈ user.historicalMessageIds db request ↔
    messageId ∈ user.messagesToChange db request ∧ db.flagsOf user.id messageId = none := by
  unfold historicalMessageIds
  rw [List.mem_dedup, List.mem_filter, decide_eq_true_eq]

/-- Without rows to make, every message to change has a row. -/
theorem flagsOf_ne_none (noRows : request.createsRows = false)
    (member : messageId ∈ user.messagesToChange db request) :
    db.flagsOf user.id messageId ≠ none := by
  intro absent
  have changes := (mem_messagesToChange.mp member).2.2
  unfold effectiveFlags at changes
  rw [absent, Option.getD_none] at changes
  unfold FlagRequest.createsRows at noRows
  rw [noRows] at changes
  simp at changes

theorem flagsOf_createHistoricalUserMessages (messageIds : List Nat) (userId : Nat) :
    (user.createHistoricalUserMessages db request messageIds).flagsOf userId messageId =
      if userId = user.id ∧ messageId ∈ messageIds then
        some (request.assign defaultHistoricalFlags)
      else db.flagsOf userId messageId := by
  unfold createHistoricalUserMessages
  induction messageIds generalizing db with
  | nil => simp
  | cons head rest inductionHypothesis =>
      rw [List.foldl_cons, inductionHypothesis,
        Database.flagsOf_insertOrUpdate _ _ (assign_repeated _)]
      by_cases isRest : userId = user.id ∧ messageId ∈ rest
      · simp [isRest]
      · by_cases isHead : userId = user.id ∧ messageId = head
        · simp [isHead]
        · rw [if_neg isRest, if_neg isHead, if_neg]
          rintro ⟨ofUser, member⟩
          rcases List.mem_cons.mp member with same | later
          · exact isHead ⟨ofUser, same⟩
          · exact isRest ⟨ofUser, later⟩

theorem sameButUserMessages_createHistoricalUserMessages (messageIds : List Nat) :
    db.SameButUserMessages (user.createHistoricalUserMessages db request messageIds) := by
  unfold createHistoricalUserMessages
  induction messageIds generalizing db with
  | nil => exact Database.SameButUserMessages.refl db
  | cons head rest inductionHypothesis =>
      exact (Database.sameButUserMessages_insertOrUpdate _ _).trans inductionHypothesis

/-- When as many messages are accessible as there are ids, every id is one of them. -/
theorem accessible_of_length {messageIds : List Nat}
    (sameLength : ((db.messages.filter fun message => message.id ∈ messageIds).filter
      (mayRead db user)).length = messageIds.length) (member : messageId ∈ messageIds) :
    ∃ message ∈ db.messages, message.id = messageId ∧ mayRead db user message = true := by
  set accessible := (db.messages.filter fun message => message.id ∈ messageIds).filter
    (mayRead db user) with isAccessible
  have accessibleDistinct : (accessible.map (·.id)).Nodup :=
    db.messageKeys.sublist ((List.filter_sublist.trans List.filter_sublist).map _)
  have within : accessible.map (·.id) ⊆ messageIds := by
    intro accessibleId isId
    obtain ⟨message, isMessage, rfl⟩ := List.mem_map.mp isId
    exact of_decide_eq_true (List.mem_filter.mp (List.mem_of_mem_filter isMessage)).2
  have perm : (accessible.map (·.id)).Perm messageIds := by
    refine (accessibleDistinct.subperm within).perm_of_length_le ?_
    rw [List.length_map, sameLength]
  obtain ⟨message, isMessage, sameId⟩ := List.mem_map.mp (perm.mem_iff.mpr member)
  obtain ⟨listed, readable⟩ := List.mem_filter.mp isMessage
  exact ⟨message, List.mem_of_mem_filter listed, sameId, readable⟩

/-- The rows after a transaction that succeeds: a message to change has a row with the new flag,
every other row is as it was, and messages without a row are accessible. -/
theorem flagTransaction_ok {after : Database}
    (succeeds : user.flagTransaction db request = .ok after) :
    (∀ userId messageId, after.flagsOf userId messageId =
      if userId = user.id ∧ messageId ∈ user.messagesToChange db request then
        some (request.assign (effectiveFlags db userId messageId))
      else db.flagsOf userId messageId) ∧
    (∀ messageId ∈ user.messagesToChange db request, db.flagsOf user.id messageId = none →
      ∃ message ∈ db.messages, message.id = messageId ∧ mayRead db user message = true) ∧
    db.SameButUserMessages after := by
  unfold flagTransaction at succeeds
  split_ifs at succeeds with creates
  · obtain ⟨historicalMessages, isHistorical, succeeds⟩ := exists_of_bind_eq_ok succeeds
    rw [bulkAccessMessages_eq fun message member => List.mem_of_mem_filter member] at isHistorical
    obtain rfl := Except.ok.inj isHistorical
    split_ifs at succeeds with sameLength
    rw [not_ne_iff] at sameLength
    obtain rfl := Except.ok.inj succeeds
    refine ⟨fun userId messageId => ?_, fun messageId member absent => ?_, ?_⟩
    · unfold updateRows
      rw [Database.flagsOf_updateFlags, flagsOf_createHistoricalUserMessages]
      simp only [mem_historicalMessageIds, List.mem_filter]
      by_cases ofUser : userId = user.id
      · subst ofUser
        by_cases member : messageId ∈ user.messagesToChange db request
        · cases found : db.flagsOf user.id messageId <;> simp [member, found, effectiveFlags]
        · simp [member]
      · simp [ofUser]
    · exact accessible_of_length sameLength
        (mem_historicalMessageIds.mpr ⟨member, absent⟩)
    · exact (sameButUserMessages_createHistoricalUserMessages _).trans
        (Database.sameButUserMessages_updateFlags _ _)
  · obtain rfl := Except.ok.inj succeeds
    have noRows : request.createsRows = false := Bool.eq_false_of_not_eq_true creates
    refine ⟨fun userId messageId => ?_, fun messageId member absent => ?_, ?_⟩
    · unfold updateRows
      rw [Database.flagsOf_updateFlags]
      simp only [List.mem_filter]
      by_cases ofUser : userId = user.id
      · subst ofUser
        by_cases member : messageId ∈ user.messagesToChange db request
        · obtain ⟨flags, found⟩ := Option.ne_none_iff_exists'.mp (flagsOf_ne_none noRows member)
          simp [member, found, effectiveFlags]
        · simp [member]
      · simp [ofUser]
    · exact absurd absent (flagsOf_ne_none noRows member)
    · exact Database.sameButUserMessages_updateFlags _ _

/-- A transaction that fails raises a `JsonableError`. -/
theorem flagTransaction_error {error : AccessError}
    (fails : user.flagTransaction db request = .error error) :
    ∃ message, error = .jsonable message := by
  unfold flagTransaction at fails
  split_ifs at fails
  dsimp only at fails
  rw [bulkAccessMessages_eq fun message member => List.mem_of_mem_filter member] at fails
  change (if _ then _ else _) = _ at fails
  split_ifs at fails
  exact ⟨_, (Except.error.inj fails).symm⟩

/-- What the checks of the names find. -/
theorem checkFlagNames_cases (operation flag : String) (messages : List Nat) :
    (∃ message, checkFlagNames operation flag messages = .error (.jsonable message)) ∨
      ∃ request, checkFlagNames operation flag messages = .ok request ∧
        request.messages = messages ∧ request.flag.name = flag ∧
        ((operation = "add" ∧ request.operation = .add) ∨
          (operation = "remove" ∧ request.operation = .remove)) := by
  unfold checkFlagNames
  cases found : allFlags.find? fun item => item.name = flag ∧ item ∉ nonApiFlags with
  | none => exact Or.inl ⟨_, rfl⟩
  | some item =>
      have isNamed := List.find?_some found
      rw [decide_eq_true_eq] at isNamed
      dsimp only
      split_ifs with editable isAdd isRemove
      · exact Or.inr ⟨_, rfl, rfl, isNamed.1, Or.inl ⟨isAdd, rfl⟩⟩
      · exact Or.inr ⟨_, rfl, rfl, isNamed.1, Or.inr ⟨isRemove, rfl⟩⟩
      · exact Or.inl ⟨_, rfl⟩
      · exact Or.inl ⟨_, rfl⟩

/-- The rows that a transaction leaves are those that its event speaks of. -/
theorem flagUpdateExact_of_ok {after : Database}
    (succeeds : user.flagTransaction db request = .ok after) :
    FlagUpdateExact db user request (user.messagesToChange db request).length
      ⟨request.operation, request.flag, user.messagesToChange db request, false⟩ after := by
  obtain ⟨rows, accessible, sameTables⟩ := flagTransaction_ok succeeds
  have changed : ∀ messageId ∈ user.messagesToChange db request,
      after.flagsOf user.id messageId =
        some (request.assign (effectiveFlags db user.id messageId)) :=
    fun messageId member => (rows user.id messageId).trans (if_pos ⟨rfl, member⟩)
  constructor
  · rfl
  · rfl
  · rfl
  · exact List.filter_sublist.trans requestedMessages_sublist
  · exact fun messageId => mem_messagesToChange
  · exact fun messageId member => ⟨_, changed messageId member, assign_changes _⟩
  · intro messageId member flag other
    have effective : effectiveFlags after user.id messageId =
        request.assign (effectiveFlags db user.id messageId) := by
      rw [effectiveFlags, changed messageId member]
      rfl
    rw [effective]
    exact mem_assign_of_ne other
  · exact fun userId messageId another => (rows userId messageId).trans (if_neg another)
  · intro messageId absent isCreated
    refine accessible messageId ?_ absent
    by_contra notChanged
    rw [rows, if_neg fun inside => notChanged inside.2] at isCreated
    exact isCreated absent
  · exact sameTables

/-- A call raises a `JsonableError` and changes nothing, or it sends one event with the requested
messages whose flag was not as desired, and these have changed in this flag only. -/
theorem doUpdateMessageFlags_exact (user : UserProfile) (db : Database) (operation flag : String)
    (messages : List Nat) :
    (∃ message, user.doUpdateMessageFlags db operation flag messages =
        ⟨.error (.jsonable message), db, []⟩) ∨
      ∃ request count event after,
        user.doUpdateMessageFlags db operation flag messages = ⟨.ok count, after, [event]⟩ ∧
        request.messages = messages ∧ request.flag.name = flag ∧
        ((operation = "add" ∧ request.operation = .add) ∨
          (operation = "remove" ∧ request.operation = .remove)) ∧
        FlagUpdateExact db user request count event after := by
  unfold doUpdateMessageFlags
  rcases checkFlagNames_cases operation flag messages with
    ⟨message, fails⟩ | ⟨request, isRequest, sameMessages, sameFlag, sameOperation⟩
  · rw [fails]
    exact Or.inl ⟨message, rfl⟩
  · rw [isRequest]
    dsimp only
    cases outcome : user.flagTransaction db request with
    | error error =>
        obtain ⟨message, rfl⟩ := flagTransaction_error outcome
        exact Or.inl ⟨message, rfl⟩
    | ok after =>
        exact Or.inr ⟨request, _, _, after, rfl, sameMessages, sameFlag, sameOperation,
          flagUpdateExact_of_ok outcome⟩

end UserProfile

end Zulip.Access
