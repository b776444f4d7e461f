import Zulip.Unread.Actions
import Zulip.Unread.Handlers

/-!
# Keeping unread data up to date

Raw unread data tracks a database when it has the slots of a fetch. For every action: the
events that it sends keep tracking exactly when a condition on the action holds.
-/

namespace Zulip.Unread

open Messages RawUnreadMessagesResult

/-- The data has the slots that a fetch would give. -/
def Tracks (user : UserProfile) (excludeBot : Bool) (db : Database) (raw : RawUnreadMessagesResult) : Prop :=
  ∀ messageId, raw.slot messageId = db.slot user excludeBot messageId

/-- The user takes part in a direct message. -/
def Participates (user : UserProfile) (message : Message) : Prop :=
  match message.recipient with
  | .stream _ => True
  | .personal userId => userId = user.id ∨ message.senderId = user.id
  | .directMessageGroup members _ => user.id ∈ members

/-- Only participants of direct messages have rows for them. -/
def WellFormed (user : UserProfile) (db : Database) : Prop :=
  ∀ row ∈ db.rows, Participates user row.message

section Slots

variable {user : UserProfile} {excludeBot : Bool} {db : Database} {raw : RawUnreadMessagesResult}

theorem Database.slot_of_row? {messageId : Nat} {row : Row} (found : db.row? messageId = some row) :
    db.slot user excludeBot messageId = if user.counts excludeBot row then user.rowSlot row else Slot.empty := by
  unfold Database.slot
  rw [found]

theorem Database.slot_of_none {messageId : Nat} (found : db.row? messageId = none) :
    db.slot user excludeBot messageId = Slot.empty := by
  unfold Database.slot
  rw [found]

theorem Database.row?_of_get? {messageId : Nat} {message : Message} {flags : Flags}
    (isMessage : db.messages.get? messageId = some message)
    (isFlags : db.userMessages.get? messageId = some flags) :
    db.row? messageId = some ⟨messageId, message, flags⟩ := by
  unfold Database.row?
  rw [isMessage, isFlags]

theorem Database.row?_of_get?_none {messageId : Nat}
    (noRow : db.userMessages.get? messageId = none) : db.row? messageId = none := by
  unfold Database.row?
  rw [noRow]
  cases db.messages.get? messageId <;> rfl

theorem Database.row?_congr {other : Database} {messageId : Nat}
    (messages : other.messages.get? messageId = db.messages.get? messageId)
    (userMessages : other.userMessages.get? messageId = db.userMessages.get? messageId) :
    other.row? messageId = db.row? messageId := by
  unfold Database.row?
  rw [messages, userMessages]

theorem Database.slot_congr {other : Database} {messageId : Nat}
    (messages : other.messages.get? messageId = db.messages.get? messageId)
    (userMessages : other.userMessages.get? messageId = db.userMessages.get? messageId) :
    other.slot user excludeBot messageId = db.slot user excludeBot messageId := by
  unfold Database.slot
  rw [Database.row?_congr messages userMessages]

/-- A message of any row is in one of the collections. -/
theorem rowSlot_ne_empty (row : Row) : user.rowSlot row ≠ Slot.empty := by
  unfold UserProfile.rowSlot Slot.empty
  cases row.message.recipient <;> simp

theorem slot_eq_empty_iff {messageId : Nat} :
    db.slot user excludeBot messageId = Slot.empty ↔
      ∀ row, db.row? messageId = some row → ¬user.counts excludeBot row := by
  cases found : db.row? messageId with
  | none => simp [Database.slot_of_none found]
  | some row =>
      rw [Database.slot_of_row? found]
      by_cases counted : user.counts excludeBot row
      · simp [counted, rowSlot_ne_empty]
      · simp [counted]

/-- What is left to check when both sides changed at some messages only. -/
theorem Tracks.next_iff (tracks : Tracks user excludeBot db raw) {next : Database}
    {nextRaw : RawUnreadMessagesResult} {messageIds : List Nat}
    (rawSame : ∀ messageId ∉ messageIds, nextRaw.slot messageId = raw.slot messageId)
    (same : ∀ messageId ∉ messageIds, next.slot user excludeBot messageId = db.slot user excludeBot messageId) :
    Tracks user excludeBot next nextRaw ↔
      ∀ messageId ∈ messageIds, nextRaw.slot messageId = next.slot user excludeBot messageId := by
  constructor
  · exact fun nextTracks messageId _ => nextTracks messageId
  · intro changed messageId
    by_cases member : messageId ∈ messageIds
    · exact changed messageId member
    · rw [rawSame messageId member, same messageId member]
      exact tracks messageId

end Slots

/-! ## Sending -/

section Sending

variable {user : UserProfile} {excludeBot : Bool} {db : Database} {raw : RawUnreadMessagesResult}
  {request : SendRequest}

theorem eventSlot_ne_empty (mutedStreamIds : List Nat) (message : MessageInfo) (flags : Flags) :
    eventSlot user mutedStreamIds message flags ≠ Slot.empty := by
  unfold eventSlot Slot.empty
  cases message.displayRecipient with
  | stream streamId => simp
  | direct participants =>
      dsimp only
      rcases participants.filter fun recip => recip != user.id with
        _ | ⟨otherUserId, _ | ⟨second, rest⟩⟩ <;> simp

/-- The event and the fetch agree on whether a stream message is muted, and on mentions. -/
def AgreesOnMuting (user : UserProfile) (message : Message) (flags : Flags) : Prop :=
  match message.recipient with
  | .stream streamId => eventUnmuted user user.getMutedStreamIds streamId message.topicName =
      !user.isRowMuted streamId message.topicName
  | _ => flags.test {.streamWildcardMentioned} ∨ flags.test {.topicWildcardMentioned} →
      flags.test {.mentioned}

/-- The other members of a group are at least two. -/
theorem two_le_others {members : Finset Nat} (large : 2 < members.card) (userId : Nat) :
    ∃ first second rest,
      (members.sort (· ≤ ·)).filter (fun recip => recip != userId) = first :: second :: rest := by
  have length : 2 ≤ ((members.sort (· ≤ ·)).filter fun recip => recip != userId).length := by
    have nodup : (members.sort (· ≤ ·)).Nodup := Finset.sort_nodup ..
    rw [← nodup.erase_eq_filter, List.length_erase, Finset.length_sort]
    split <;> omega
  match (members.sort (· ≤ ·)).filter fun recip => recip != userId, length with
  | first :: second :: rest, _ => exact ⟨first, second, rest, rfl⟩

theorem eventSlot_eq_rowSlot_iff {message : Message} {messageId : Nat} {flags : Flags}
    (participates : Participates user message) (fromOther : message.senderId ≠ user.id) :
    eventSlot user user.getMutedStreamIds (message.info messageId) flags =
      user.rowSlot ⟨messageId, message, flags⟩ ↔ AgreesOnMuting user message flags := by
  obtain ⟨senderId, recipient, topicName⟩ := message
  unfold eventSlot UserProfile.rowSlot AgreesOnMuting Message.info
  cases recipient with
  | stream streamId =>
      dsimp only
      constructor
      · intro same
        exact (Slot.ext_iff.mp same).2.2.2.1
      · intro agree
        rw [agree]
  | personal typeId =>
      have isUser : typeId = user.id := participates.resolve_right fromOther
      have differs : ¬user.id = senderId := fun same => fromOther same.symm
      have others : [senderId, user.id].filter (fun recip => recip != user.id) = [senderId] := by
        have notUser : ¬senderId = user.id := fromOther
        simp [notUser]
      rw [isUser]
      dsimp only
      rw [if_neg differs, others, if_neg fromOther]
      simp
  | directMessageGroup members large =>
      obtain ⟨first, second, rest, others⟩ := two_le_others large user.id
      have sorted : (members.sort (· ≤ ·)).mergeSort (· ≤ ·) = members.sort (· ≤ ·) :=
        List.mergeSort_of_pairwise (by simp)
      dsimp only
      rw [others, sorted]
      simp

/-- The condition on a message that is sent: an unread one has a row, is not from the user, is
not in a stream that the user left nor from a bot that the fetch leaves out, and the two ways to
look up its visibility agree. -/
def SendRequest.Tracked (user : UserProfile) (excludeBot : Bool) (request : SendRequest) : Prop :=
  request.active ∨ request.userMessage.isSome → ¬(request.userMessage.getD ∅).test {.read} →
    request.userMessage.isSome ∧ request.message.senderId ≠ user.id ∧
      ¬user.excludesRecipient request.message.recipient ∧
      ¬user.excludesSender excludeBot request.message ∧
      AgreesOnMuting user request.message (request.userMessage.getD ∅)

section Slots

variable {request : SendRequest} {other : Nat}

theorem slot_send_of_ne (different : other ≠ request.messageId) :
    (doSendMessages db request).database.slot user excludeBot other = db.slot user excludeBot other := by
  obtain ⟨messageId, message, active, userMessage⟩ := request
  refine Database.slot_congr (Dict.get?_set_ne _ _ different) ?_
  cases userMessage with
  | none => rfl
  | some flags => exact Dict.get?_set_ne _ _ different

theorem slot_sendEvents_of_ne (different : other ≠ request.messageId) :
    ((doSendMessages db request).events.foldl (applyEvent user) raw).slot other =
      raw.slot other := by
  obtain ⟨messageId, message, active, userMessage⟩ := request
  unfold doSendMessages
  dsimp only
  split
  · rw [List.foldl_cons, List.foldl_nil]
    unfold applyEvent
    dsimp only
    split
    · rfl
    · exact slot_applyUnreadMessageEvent_other different
  · rfl

end Slots

/-- A user without a row of the message is not to be told of an unread one. -/
theorem slot_send_noRow_iff {messageId : Nat} {message : Message} {active : Bool}
    (new : raw.slot messageId = Slot.empty)
    (noRow : db.userMessages.get? messageId = none) :
    ((doSendMessages db ⟨messageId, message, active, none⟩).events.foldl (applyEvent user)
        raw).slot messageId =
      (doSendMessages db ⟨messageId, message, active, none⟩).database.slot user excludeBot messageId ↔
      SendRequest.Tracked user excludeBot ⟨messageId, message, active, none⟩ := by
  have noSlot : (doSendMessages db ⟨messageId, message, active, none⟩).database.slot user excludeBot
      messageId = Slot.empty := Database.slot_of_none (Database.row?_of_get?_none noRow)
  unfold SendRequest.Tracked
  rw [noSlot]
  cases active with
  | false => simpa [doSendMessages] using new
  | true =>
      have shown : ((doSendMessages db ⟨messageId, message, true, none⟩).events.foldl
          (applyEvent user) raw).slot messageId =
            eventSlot user raw.mutedStreamIds (message.info messageId) ∅ := by
        simp only [doSendMessages, Bool.true_or, if_true, List.foldl_cons, List.foldl_nil,
          Option.getD_none]
        unfold applyEvent
        dsimp only
        rw [if_neg (by simp)]
        exact slot_applyUnreadMessageEvent_self new
      rw [shown]
      simp [eventSlot_ne_empty]

/-- With a row, the event and the row lead to the same slot. -/
theorem slot_send_row_iff {messageId : Nat} {message : Message} {active : Bool} {flags : Flags}
    (new : raw.slot messageId = Slot.empty) (muted : raw.mutedStreamIds = user.getMutedStreamIds)
    (visible : user.firstVisibleMessageId ≤ messageId)
    (participates : Participates user message) :
    ((doSendMessages db ⟨messageId, message, active, some flags⟩).events.foldl (applyEvent user)
        raw).slot messageId =
      (doSendMessages db ⟨messageId, message, active, some flags⟩).database.slot user excludeBot messageId ↔
      SendRequest.Tracked user excludeBot ⟨messageId, message, active, some flags⟩ := by
  have slotIs : (doSendMessages db ⟨messageId, message, active, some flags⟩).database.slot user excludeBot
      messageId = if user.counts excludeBot ⟨messageId, message, flags⟩ then
        user.rowSlot ⟨messageId, message, flags⟩ else Slot.empty :=
    Database.slot_of_row? (Database.row?_of_get? (Dict.get?_set_self ..)
      (Dict.get?_set_self ..))
  unfold SendRequest.Tracked
  rw [slotIs]
  simp only [doSendMessages, Option.isSome_some, Bool.or_true, if_true, List.foldl_cons,
    List.foldl_nil, Option.getD_some, or_true, true_and, true_imp_iff]
  unfold applyEvent
  dsimp only
  by_cases isRead : flags.test {.read}
  · have notCounted : ¬user.counts excludeBot ⟨messageId, message, flags⟩ := by
      simp [UserProfile.counts, isRead]
    rw [if_pos isRead, if_neg notCounted]
    simpa [isRead] using new
  · rw [if_neg isRead]
    have shown : (raw.applyUnreadMessageEvent user (message.info messageId) flags).slot
        messageId = eventSlot user user.getMutedStreamIds (message.info messageId) flags := by
      rw [← muted]
      exact slot_applyUnreadMessageEvent_self new
    rw [shown]
    have counted : user.counts excludeBot ⟨messageId, message, flags⟩ ↔
        message.senderId ≠ user.id ∧ ¬user.excludesRecipient message.recipient ∧
          ¬user.excludesSender excludeBot message := by
      simp only [UserProfile.counts, UserProfile.selects, visible, isRead, decide_true,
        Bool.true_and, Bool.and_eq_true, Bool.not_eq_true', bne_iff_ne, Bool.not_eq_true,
        Bool.not_false, and_true]
      tauto
    by_cases counts : user.counts excludeBot ⟨messageId, message, flags⟩
    · rw [if_pos counts, eventSlot_eq_rowSlot_iff participates (counted.mp counts).1]
      simp [isRead, (counted.mp counts).1, (counted.mp counts).2.1, (counted.mp counts).2.2]
    · rw [if_neg counts]
      constructor
      · exact fun same => absurd same (eventSlot_ne_empty _ _ _)
      · intro condition
        have satisfied := condition isRead
        exact absurd (counted.mpr ⟨satisfied.1, satisfied.2.1, satisfied.2.2.1⟩) counts

theorem Tracks.send (tracks : Tracks user excludeBot db raw)
    (muted : raw.mutedStreamIds = user.getMutedStreamIds)
    (noRow : db.userMessages.get? request.messageId = none)
    (visible : user.firstVisibleMessageId ≤ request.messageId)
    (participates : request.active ∨ request.userMessage.isSome →
      Participates user request.message) :
    Tracks user excludeBot (doSendMessages db request).database
        ((doSendMessages db request).events.foldl (applyEvent user) raw) ↔
      request.Tracked user excludeBot := by
  have new : raw.slot request.messageId = Slot.empty := by
    rw [tracks request.messageId]
    exact Database.slot_of_none (Database.row?_of_get?_none noRow)
  have same : ∀ other ∉ [request.messageId],
      (doSendMessages db request).database.slot user excludeBot other = db.slot user excludeBot other :=
    fun other notMember => slot_send_of_ne (by simpa using notMember)
  have rawSame : ∀ other ∉ [request.messageId],
      ((doSendMessages db request).events.foldl (applyEvent user) raw).slot other =
        raw.slot other :=
    fun other notMember => slot_sendEvents_of_ne (by simpa using notMember)
  rw [tracks.next_iff rawSame same]
  simp only [List.mem_singleton, forall_eq]
  obtain ⟨messageId, message, active, userMessage⟩ := request
  cases userMessage with
  | none => exact slot_send_noRow_iff new noRow
  | some flags => exact slot_send_row_iff new muted visible (participates (Or.inr rfl))

end Sending

/-! ## Reading -/

section Reading

variable {user : UserProfile} {excludeBot : Bool} {db : Database} {raw : RawUnreadMessagesResult}

theorem FlagOperation.apply_repeated (operation : FlagOperation) (flag : Flag) (flags : Flags) :
    operation.apply flag (operation.apply flag flags) = operation.apply flag flags := by
  cases operation <;> simp [FlagOperation.apply]

theorem FlagOperation.test_apply (operation : FlagOperation) (flags : Flags) :
    (operation.apply .read flags).test {.read} = (operation == .add) := by
  rw [Bool.eq_iff_iff, Flags.test_singleton]
  cases operation <;> simp [FlagOperation.apply]

/-- The database after the flags of some messages were changed. -/
def Database.withFlags (db : Database) (operation : FlagOperation) (messageIds : List Nat) :
    Database :=
  { db with
    userMessages := messageIds.foldl (fun userMessages messageId =>
      userMessages.set messageId (operation.apply .read
        ((userMessages.get? messageId).getD defaultHistoricalFlags))) db.userMessages }

theorem withFlags_get? (operation : FlagOperation) (messageIds : List Nat) (messageId : Nat) :
    (db.withFlags operation messageIds).userMessages.get? messageId =
      if messageId ∈ messageIds then
        some (operation.apply .read
          ((db.userMessages.get? messageId).getD defaultHistoricalFlags))
      else db.userMessages.get? messageId := by
  have repeated : ∀ flags : Flags, operation.apply .read
      ((some (operation.apply .read flags)).getD defaultHistoricalFlags) =
        operation.apply .read flags := fun flags => operation.apply_repeated .read flags
  exact @Dict.get?_foldl_update Nat Flags _ db.userMessages
    (fun flags => operation.apply .read (flags.getD defaultHistoricalFlags))
    (fun flags => repeated (flags.getD defaultHistoricalFlags)) messageIds messageId

/-- Marking as read is always tracked. -/
theorem Tracks.markAsRead (tracks : Tracks user excludeBot db raw) (messages : List Nat) (all : Bool) :
    Tracks user excludeBot (db.withFlags .add messages)
      (raw.applyEvent user (.updateMessageFlags .add .read messages all Dict.empty)) := by
  intro messageId
  rw [slot_markedAsRead]
  by_cases member : messageId ∈ messages
  · rw [if_pos member, eq_comm, slot_eq_empty_iff]
    intro row found counted
    have flags := (Database.mem_rows.mp (Database.row?_eq_some.mp found).1).2
    rw [(Database.row?_eq_some.mp found).2, withFlags_get?, if_pos member,
      Option.some.injEq] at flags
    have isRead := FlagOperation.add.test_apply
      ((db.userMessages.get? messageId).getD defaultHistoricalFlags)
    rw [flags] at isRead
    simp [UserProfile.counts, isRead] at counted
  · have same : (db.withFlags .add messages).slot user excludeBot messageId = db.slot user excludeBot messageId :=
      Database.slot_congr rfl (by rw [withFlags_get?, if_neg member])
    rw [if_neg member, same]
    exact tracks messageId

/-- The user is in the group to which the message was sent, if it was sent to one. -/
def InGroup (user : UserProfile) (message : Message) : Prop :=
  ∀ members large, message.recipient = .directMessageGroup members large → user.id ∈ members

theorem Participates.inGroup {message : Message} (participates : Participates user message) :
    InGroup user message := by
  intro members large isGroup
  unfold Participates at participates
  rw [isGroup] at participates
  exact participates

/-- The details of a row give back its slot. -/
theorem detailsSlot_slotDetails {row : Row} (inGroup : InGroup user row.message) :
    ∃ details, slotDetails user.id (user.rowSlot row) = some details ∧
      detailsSlot user.id details = user.rowSlot row := by
  obtain ⟨messageId, ⟨senderId, recipient, topicName⟩, flags⟩ := row
  cases recipient with
  | stream streamId => exact ⟨_, rfl, rfl⟩
  | personal typeId =>
      refine ⟨_, rfl, ?_⟩
      simp only [UserProfile.rowSlot, detailsSlot]
      generalize (if senderId = user.id then typeId else senderId) = otherUserId
      by_cases toSelf : otherUserId = user.id
      · simp [toSelf]
      · simp [toSelf]
  | directMessageGroup members large =>
      refine ⟨_, rfl, ?_⟩
      have isMember : user.id ∈ members := inGroup members large rfl
      obtain ⟨first, second, rest, others⟩ := two_le_others large user.id
      have sorted : ((members.sort (· ≤ ·)).filter fun recip => recip != user.id).mergeSort
          (· ≤ ·) = first :: second :: rest := by
        rw [List.mergeSort_of_pairwise, others]
        have pairwise := (Finset.pairwise_sort members (· ≤ ·)).filter (fun recip => recip != user.id)
        simpa using pairwise
      have again : (first :: second :: rest).filter (fun recip => recip != user.id) =
          first :: second :: rest := by
        rw [← others, List.filter_filter]
        simp
      have whole : ((first :: second :: rest) ++ [user.id]).mergeSort (· ≤ ·) =
          members.sort (· ≤ ·) := by
        have nodup : (members.sort (· ≤ ·)).Nodup := Finset.sort_nodup ..
        have perm : ((first :: second :: rest) ++ [user.id]).Perm (members.sort (· ≤ ·)) := by
          rw [← others, ← nodup.erase_eq_filter]
          exact (List.perm_append_singleton _ _).trans
            (List.perm_cons_erase (by simpa using isMember)).symm
        exact ((List.mergeSort_perm _ _).trans perm).eq_of_pairwise'
          (List.pairwise_mergeSort' _ _) (Finset.pairwise_sort members (· ≤ ·))
      simp only [UserProfile.rowSlot, detailsSlot]
      rw [sorted, again]
      dsimp only
      rw [whole]

/-- The condition on messages that are marked as unread: the event carries none that the fetch
leaves out. -/
def MarkingTracked (user : UserProfile) (excludeBot : Bool) (db : Database)
    (messages : List Nat) : Prop :=
  ∀ messageId ∈ messages, ∀ message, db.messages.get? messageId = some message →
    user.selects false ⟨messageId, message, ∅⟩ → user.selects excludeBot ⟨messageId, message, ∅⟩

/-- Marking everything as read is tracked when nothing is unread: the event lists no message. -/
theorem Tracks.markAllAsRead (tracks : Tracks user excludeBot db raw) :
    Tracks user excludeBot (doMarkAllAsRead db).database
        ((doMarkAllAsRead db).events.foldl (applyEvent user) raw) ↔
      ∀ row ∈ db.rows, ¬user.counts excludeBot row := by
  have unchanged : (doMarkAllAsRead db).events.foldl (applyEvent user) raw = raw := rfl
  have allRead : ∀ messageId flags,
      (doMarkAllAsRead db).database.userMessages.get? messageId = some flags →
        flags.test {.read} := by
    intro messageId flags found
    have updated := @Dict.get?_foldl_update Nat Flags _ db.userMessages
      (fun flags => FlagOperation.add.apply .read (flags.getD ∅))
      (fun flags => FlagOperation.add.apply_repeated .read _) db.userMessages.keys messageId
    have lookup : (doMarkAllAsRead db).database.userMessages.get? messageId = some flags := found
    rw [show (doMarkAllAsRead db).database.userMessages.get? messageId = _ from updated] at lookup
    split at lookup
    · rw [Option.some.injEq] at lookup
      rw [← lookup, FlagOperation.test_apply]
      rfl
    · rename_i absent
      rw [Dict.mem_keys_iff] at absent
      exact absurd ⟨flags, lookup⟩ absent
  have noSlot : ∀ messageId, (doMarkAllAsRead db).database.slot user excludeBot messageId = Slot.empty := by
    intro messageId
    rw [slot_eq_empty_iff]
    intro row found counted
    have isRead := allRead _ _ (Database.mem_rows.mp (Database.row?_eq_some.mp found).1).2
    simp [UserProfile.counts, isRead] at counted
  rw [unchanged]
  constructor
  · intro next row member counted
    have shown := tracks row.messageId
    rw [next row.messageId, noSlot, eq_comm, slot_eq_empty_iff] at shown
    exact shown row (Database.row?_eq_some.mpr ⟨member, rfl⟩) counted
  · intro nothing messageId
    rw [tracks messageId, noSlot, slot_eq_empty_iff]
    exact fun row found => nothing row (Database.row?_eq_some.mp found).1

end Reading

/-! ## Deleting -/

section Deleting

variable {user : UserProfile} {excludeBot : Bool} {db : Database} {raw : RawUnreadMessagesResult}

theorem slot_deleteEvents (bulkMessageDeletion : Bool) (messageIds : List Nat) (messageId : Nat) :
    ((deleteEvents bulkMessageDeletion messageIds).foldl (applyEvent user) raw).slot messageId =
      if messageId ∈ messageIds then Slot.empty else raw.slot messageId := by
  rw [← slot_removeMessageIds]
  cases bulkMessageDeletion with
  | true => rfl
  | false =>
      have step : (fun raw messageId => applyEvent user raw (.deleteMessage [messageId])) =
          removeMessageId := rfl
      unfold deleteEvents
      rw [if_neg (by simp), List.foldl_map, step]

/-- The condition on a deletion: the user is told, or none of the messages counts as unread. -/
def DeletionTracked (user : UserProfile) (excludeBot : Bool) (db : Database) (messageIds : List Nat)
    (actingUser : Bool) : Prop :=
  notifiesOfDeletion user db messageIds actingUser ∨
    ∀ messageId ∈ messageIds, ∀ row, db.row? messageId = some row → ¬user.counts excludeBot row

theorem Tracks.delete (tracks : Tracks user excludeBot db raw) (bulkMessageDeletion : Bool)
    (messageIds : List Nat) (actingUser : Bool) :
    Tracks user excludeBot (doDeleteMessages user bulkMessageDeletion db messageIds actingUser).database
        ((doDeleteMessages user bulkMessageDeletion db messageIds actingUser).events.foldl
          (applyEvent user) raw) ↔
      DeletionTracked user excludeBot db messageIds actingUser := by
  let after := (doDeleteMessages user bulkMessageDeletion db messageIds actingUser).database
  have rowAfter : ∀ messageId, after.userMessages.get? messageId =
      if messageId ∈ messageIds then none else db.userMessages.get? messageId :=
    fun messageId => Dict.get?_foldl_erase messageIds messageId
  have messageAfter : ∀ messageId, after.messages.get? messageId =
      if messageId ∈ messageIds then none else db.messages.get? messageId :=
    fun messageId => Dict.get?_foldl_erase messageIds messageId
  have same : ∀ messageId ∉ messageIds, after.slot user excludeBot messageId = db.slot user excludeBot messageId := by
    intro messageId notMember
    refine Database.slot_congr ?_ ?_
    · rw [messageAfter, if_neg notMember]
    · rw [rowAfter, if_neg notMember]
  have gone : ∀ messageId ∈ messageIds, after.slot user excludeBot messageId = Slot.empty := by
    intro messageId member
    refine Database.slot_of_none (Database.row?_of_get?_none ?_)
    rw [rowAfter, if_pos member]
  unfold DeletionTracked
  by_cases notified : notifiesOfDeletion user db messageIds actingUser
  · have events : (doDeleteMessages user bulkMessageDeletion db messageIds actingUser).events =
        deleteEvents bulkMessageDeletion messageIds := if_pos notified
    rw [events]
    refine iff_of_true ?_ (Or.inl notified)
    intro messageId
    rw [slot_deleteEvents]
    by_cases member : messageId ∈ messageIds
    · rw [if_pos member]
      exact (gone messageId member).symm
    · rw [if_neg member, tracks messageId]
      exact (same messageId member).symm
  · have events : (doDeleteMessages user bulkMessageDeletion db messageIds actingUser).events =
        [] := if_neg notified
    rw [events, List.foldl_nil, tracks.next_iff (fun _ _ => rfl) same, or_iff_right notified]
    refine forall₂_congr fun messageId member => ?_
    rw [show (doDeleteMessages user bulkMessageDeletion db messageIds actingUser).database.slot
      user excludeBot messageId = Slot.empty from gone messageId member, tracks messageId,
      slot_eq_empty_iff]

end Deleting

/-! ## Moving -/

section Moving

variable {user : UserProfile} {excludeBot : Bool} {db : Database} {raw : RawUnreadMessagesResult} {move : Move}

/-- The row of a changed message, when the user keeps it. -/
def Move.row (move : Move) (row : Row) : Row := { row with message := move.message row.message }

/-- The message of a row is muted. -/
def UserProfile.rowMuted (user : UserProfile) (row : Row) : Bool :=
  match row.message.recipient with
  | .stream streamId => user.isRowMuted streamId row.message.topicName
  | _ => false

/-- The condition on a move: the user loses access and is told, or every changed message counts
as unread before and after or neither, and for one that does, the user is told unless it stays
where it is, and it is muted in both places or in neither. -/
def MoveTracked (user : UserProfile) (excludeBot : Bool) (db : Database) (move : Move) : Prop :=
  move.losesAccess user ∨ ∀ messageId ∈ move.changedMessageIds, ∀ row,
    db.row? messageId = some row →
      (user.counts excludeBot row ↔ ¬move.losesUserMessages user ∧ user.counts excludeBot (move.row row)) ∧
      (user.counts excludeBot row → (move.notifies user db ∨ move.row row = row) ∧
        user.rowMuted (move.row row) = user.rowMuted row)

theorem Move.losesUserMessages_of_losesAccess (loses : move.losesAccess user) :
    move.losesUserMessages user := by
  unfold losesAccess at loses
  split at loses
  · split at loses
    · exact (Bool.and_eq_true _ _ ▸ loses).2
    · exact loses
  · simp at loses

/-- A stream message in its old and in its new place. -/
theorem rowSlot_move_iff {row : Row} {streamId : Nat}
    (isStream : row.message.recipient = .stream streamId) (told : Bool) :
    (if told then (user.rowSlot row).move move.newStream move.topicName else user.rowSlot row) =
        user.rowSlot (move.row row) ↔
      (told ∨ move.row row = row) ∧ user.rowMuted (move.row row) = user.rowMuted row := by
  obtain ⟨messageId, ⟨senderId, recipient, topicName⟩, flags⟩ := row
  have isRecipient : recipient = .stream streamId := isStream
  subst isRecipient
  have moved : (move.row ⟨messageId, ⟨senderId, .stream streamId, topicName⟩, flags⟩) =
      ⟨messageId, ⟨senderId, .stream (move.newStream.getD streamId),
        move.topicName.getD topicName⟩, flags⟩ := by
    unfold Move.row Move.message
    cases move.newStream <;> rfl
  rw [moved]
  unfold UserProfile.rowSlot UserProfile.rowMuted Slot.move
  dsimp only [Option.map_some]
  generalize move.newStream.getD streamId = newStreamId
  generalize move.topicName.getD topicName = newTopicName
  generalize user.isRowMuted streamId topicName = muted
  generalize user.isRowMuted newStreamId newTopicName = newMuted
  cases told <;> cases muted <;> cases newMuted <;>
    simp [@eq_comm _ newStreamId streamId, @eq_comm _ newTopicName topicName]

variable {bulkMessageDeletion : Bool} {messageId : Nat}

theorem userMessages_updateMessage (messageId : Nat) :
    (doUpdateMessage user bulkMessageDeletion db move).database.userMessages.get? messageId =
      if messageId ∈ move.changedMessageIds then
        move.userMessage user (db.userMessages.get? messageId)
      else db.userMessages.get? messageId :=
  Dict.get?_foldl_assign _ move.changedMessageIds messageId

theorem messages_updateMessage (messageId : Nat) :
    (doUpdateMessage user bulkMessageDeletion db move).database.messages.get? messageId =
      if messageId ∈ move.changedMessageIds then (db.messages.get? messageId).map move.message
      else db.messages.get? messageId :=
  Dict.get?_foldl_assign _ move.changedMessageIds messageId

/-- The slots of other messages stay. -/
theorem slot_updateMessage_of_notMem (notMember : messageId ∉ move.changedMessageIds) :
    (doUpdateMessage user bulkMessageDeletion db move).database.slot user excludeBot messageId =
      db.slot user excludeBot messageId := by
  refine Database.slot_congr ?_ ?_
  · rw [messages_updateMessage, if_neg notMember]
  · rw [userMessages_updateMessage, if_neg notMember]

/-- A user who loses the rows of the changed messages has nothing of them. -/
theorem slot_updateMessage_of_loses (loses : move.losesUserMessages user)
    (member : messageId ∈ move.changedMessageIds) :
    (doUpdateMessage user bulkMessageDeletion db move).database.slot user excludeBot messageId =
      Slot.empty := by
  refine Database.slot_of_none (Database.row?_of_get?_none ?_)
  rw [userMessages_updateMessage, if_pos member, Move.userMessage, if_pos loses]

/-- A move makes a row for a message that the user had none of only as a read one. -/
theorem slot_updateMessage_of_noRow (member : messageId ∈ move.changedMessageIds)
    (noFlags : db.userMessages.get? messageId = none) :
    (doUpdateMessage user bulkMessageDeletion db move).database.slot user excludeBot messageId =
      Slot.empty := by
  rw [slot_eq_empty_iff]
  intro row found counted
  have flags := (Database.mem_rows.mp (Database.row?_eq_some.mp found).1).2
  rw [(Database.row?_eq_some.mp found).2, userMessages_updateMessage, if_pos member, noFlags,
    Move.userMessage] at flags
  split_ifs at flags
  rw [Option.some.injEq] at flags
  have isRead : row.flags.test {.read} := by
    rw [← flags]
    simp
  simp [UserProfile.counts, isRead] at counted

/-- The slot of a changed message is that of its row in the new place, when the user keeps it and it
counts as unread. -/
theorem slot_updateMessage_of_row {message : Message} {flags : Flags}
    (member : messageId ∈ move.changedMessageIds)
    (isMessage : db.messages.get? messageId = some message)
    (isFlags : db.userMessages.get? messageId = some flags) :
    (doUpdateMessage user bulkMessageDeletion db move).database.slot user excludeBot messageId =
      if ¬move.losesUserMessages user ∧ user.counts excludeBot (move.row ⟨messageId, message, flags⟩) then
        user.rowSlot (move.row ⟨messageId, message, flags⟩)
      else Slot.empty := by
  by_cases loses : move.losesUserMessages user
  · rw [slot_updateMessage_of_loses loses member, if_neg fun kept => kept.1 loses]
  · have afterMessage : (doUpdateMessage user bulkMessageDeletion db move).database.messages.get?
        messageId = some (move.message message) := by
      rw [messages_updateMessage, if_pos member, isMessage]
      rfl
    have kept : (doUpdateMessage user bulkMessageDeletion db move).database.userMessages.get?
        messageId = some flags := by
      rw [userMessages_updateMessage, if_pos member, isFlags, Move.userMessage, if_neg loses]
      split <;> rfl
    have afterRow : (doUpdateMessage user bulkMessageDeletion db move).database.row? messageId =
        some (move.row ⟨messageId, message, flags⟩) := Database.row?_of_get? afterMessage kept
    rw [Database.slot_of_row? afterRow]
    by_cases counted : user.counts excludeBot (move.row ⟨messageId, message, flags⟩)
    · rw [if_pos counted, if_pos ⟨loses, counted⟩]
    · rw [if_neg counted, if_neg fun kept => counted kept.2]

/-- The client of a user who loses access drops the changed messages. -/
theorem slot_events_of_losesAccess (losesAccess : move.losesAccess user) (messageId : Nat) :
    ((doUpdateMessage user bulkMessageDeletion db move).events.foldl
        (applyEvent user) raw).slot messageId =
      if messageId ∈ move.changedMessageIds then Slot.empty else raw.slot messageId := by
  unfold doUpdateMessage
  dsimp only
  rw [if_pos losesAccess, List.foldl_append]
  split
  · rw [List.foldl_cons, List.foldl_nil, slot_updateMessage, slot_deleteEvents]
    split <;> rfl
  · exact slot_deleteEvents bulkMessageDeletion move.changedMessageIds messageId

/-- Any other client moves them, when it is told. -/
theorem slot_events_of_access (tracks : Tracks user excludeBot db raw)
    (access : ¬move.losesAccess user) (messageId : Nat) :
    ((doUpdateMessage user bulkMessageDeletion db move).events.foldl
        (applyEvent user) raw).slot messageId =
      if messageId ∈ move.changedMessageIds then
        if move.notifies user db then (db.slot user excludeBot messageId).move move.newStream move.topicName
        else db.slot user excludeBot messageId
      else db.slot user excludeBot messageId := by
  rw [← tracks messageId]
  unfold doUpdateMessage
  dsimp only
  rw [if_neg access, List.nil_append]
  by_cases notified : move.notifies user db
  · rw [if_pos notified, if_pos notified, List.foldl_cons, List.foldl_nil, slot_updateMessage]
  · rw [if_neg notified, if_neg notified, ite_self, List.foldl_nil]

/-- The condition for one row. Whether it counts must not change, and when it does, its slot must
be the one in the new place. -/
theorem slot_row_iff {row : Row} {streamId : Nat}
    (isStream : row.message.recipient = .stream streamId) (told : Bool) :
    (if told then
        (if user.counts excludeBot row then user.rowSlot row else Slot.empty).move move.newStream
          move.topicName
      else if user.counts excludeBot row then user.rowSlot row else Slot.empty) =
        (if ¬move.losesUserMessages user ∧ user.counts excludeBot (move.row row) then
          user.rowSlot (move.row row)
        else Slot.empty) ↔
      (user.counts excludeBot row ↔ ¬move.losesUserMessages user ∧ user.counts excludeBot (move.row row)) ∧
        (user.counts excludeBot row → (told ∨ move.row row = row) ∧
          user.rowMuted (move.row row) = user.rowMuted row) := by
  by_cases counted : user.counts excludeBot row
  · by_cases keeps : ¬move.losesUserMessages user ∧ user.counts excludeBot (move.row row)
    · rw [if_pos counted, if_pos keeps, rowSlot_move_iff isStream]
      simp [counted, keeps]
    · rw [if_pos counted, if_neg keeps]
      refine iff_of_false ?_ fun condition => keeps (condition.1.mp counted)
      have nonempty : (user.rowSlot row).stream.isSome := by
        unfold UserProfile.rowSlot
        rw [isStream]
        rfl
      intro isEmpty
      split at isEmpty
      · have noStream := congrArg (fun slot : Slot => slot.stream.isSome) isEmpty
        simp [Slot.move, Slot.empty, nonempty] at noStream
      · rw [isEmpty] at nonempty
        simp [Slot.empty] at nonempty
  · rw [if_neg counted, Slot.move_empty, ite_self]
    by_cases keeps : ¬move.losesUserMessages user ∧ user.counts excludeBot (move.row row)
    · rw [if_pos keeps]
      exact iff_of_false (rowSlot_ne_empty _).symm fun condition =>
        counted (condition.1.mpr keeps)
    · rw [if_neg keeps]
      exact iff_of_true rfl ⟨iff_of_false counted keeps, fun counts => absurd counts counted⟩

theorem Tracks.updateMessage (tracks : Tracks user excludeBot db raw) (bulkMessageDeletion : Bool)
    (inStream : ∀ messageId ∈ move.changedMessageIds, ∃ message,
      db.messages.get? messageId = some message ∧
        message.recipient = .stream move.streamBeingEdited) :
    Tracks user excludeBot (doUpdateMessage user bulkMessageDeletion db move).database
        ((doUpdateMessage user bulkMessageDeletion db move).events.foldl (applyEvent user) raw) ↔
      MoveTracked user excludeBot db move := by
  unfold MoveTracked
  by_cases losesAccess : move.losesAccess user
  · refine iff_of_true (fun messageId => ?_) (Or.inl losesAccess)
    rw [slot_events_of_losesAccess losesAccess]
    by_cases member : messageId ∈ move.changedMessageIds
    · rw [if_pos member, slot_updateMessage_of_loses
        (Move.losesUserMessages_of_losesAccess losesAccess) member]
    · rw [if_neg member, tracks messageId, slot_updateMessage_of_notMem member]
  · have rawSame : ∀ messageId ∉ move.changedMessageIds,
        ((doUpdateMessage user bulkMessageDeletion db move).events.foldl
          (applyEvent user) raw).slot messageId = raw.slot messageId := by
      intro messageId notMember
      rw [slot_events_of_access tracks losesAccess, if_neg notMember, tracks messageId]
    rw [tracks.next_iff rawSame fun _ notMember => slot_updateMessage_of_notMem notMember,
      or_iff_right losesAccess]
    refine forall₂_congr fun messageId member => ?_
    rw [slot_events_of_access tracks losesAccess, if_pos member]
    obtain ⟨message, isMessage, isStream⟩ := inStream messageId member
    cases isFlags : db.userMessages.get? messageId with
    | none =>
        have noRow := Database.row?_of_get?_none isFlags
        rw [Database.slot_of_none noRow, noRow, slot_updateMessage_of_noRow member isFlags]
        refine iff_of_true ?_ (by simp)
        rw [Slot.move_empty, ite_self]
    | some flags =>
        have found := Database.row?_of_get? isMessage isFlags
        rw [Database.slot_of_row? found, found, slot_updateMessage_of_row member isMessage isFlags]
        simp only [Option.some.injEq, forall_eq']
        exact slot_row_iff isStream (move.notifies user db)

end Moving

end Zulip.Unread
