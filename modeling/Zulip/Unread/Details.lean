import Zulip.Unread.RegisterRace

/-!
# The details of unread messages

`format_unread_message_details` writes one entry for every unread message, and
`add_message_to_unread_msgs` reads entries back into the five collections. On data that
`get_raw_unread_data` gives, reading the entries of all messages gives the data back.
-/

namespace Zulip.Unread

/-- Raw unread data of no message. -/
def RawUnreadMessagesResult.empty : RawUnreadMessagesResult where
  pmDict := Dict.empty
  streamDict := Dict.empty
  huddleDict := Dict.empty
  mutedStreamIds := []
  unmutedStreamMsgs := ∅
  mentions := ∅

/-- The groups that the user has messages of have the user as a member. -/
def GroupsIncludeUser (user : UserProfile) (db : Database) : Prop :=
  ∀ row ∈ db.rows, InGroup user row.message

section RoundTrip

variable {user : UserProfile} {db : Database}

open RawUnreadMessagesResult

/-- The rows that a fetch extracts are rows of different messages. -/
theorem getRawUnreadData_eq_extract (user : UserProfile) (db : Database)
    (messageIds : Option (List Nat)) (excludeBot : Bool) :
    ∃ rows, getRawUnreadData user db messageIds excludeBot =
        user.extractUnreadDataFromUmRows rows ∧
      rows ⊆ db.rows ∧ (rows.map Row.messageId).Nodup := by
  have taken : ∀ userMsgs : List Row, userMsgs.Sublist db.rows →
      ((userMsgs.mergeSort fun first second =>
        second.messageId ≤ first.messageId).take maxUnreadMessages).reverse.Subperm db.rows := by
    intro userMsgs sub
    refine (List.reverse_perm _).subperm.trans ?_
    exact (List.take_sublist _ _).subperm.trans
      ((List.mergeSort_perm _ _).subperm.trans sub.subperm)
  have selected : (db.rows.filter (user.selects excludeBot)).Sublist db.rows := List.filter_sublist
  have distinct : ∀ rows : List Row, rows.Subperm db.rows → (rows.map Row.messageId).Nodup := by
    rintro rows ⟨same, perm, sub⟩
    have sameDistinct := Database.rows_nodup.sublist (sub.map Row.messageId)
    exact (perm.map Row.messageId).nodup_iff.mp sameDistinct
  cases messageIds with
  | none =>
      have sub := taken ((db.rows.filter (user.selects excludeBot)).filter fun row =>
        !row.flags.test {.read}) (List.filter_sublist.trans selected)
      exact ⟨_, rfl, sub.subset, distinct _ sub⟩
  | some messageIds =>
      have sub := taken ((db.rows.filter (user.selects excludeBot)).filter fun row =>
        row.messageId ∈ messageIds) (List.filter_sublist.trans selected)
      exact ⟨_, rfl, sub.subset, distinct _ sub⟩

/-- In a fetch every slot is the slot of a row, or empty. -/
theorem slot_getRawUnreadData_cases (messageIds : Option (List Nat)) (excludeBot : Bool)
    (messageId : Nat) :
    (∃ row ∈ db.rows,
        (getRawUnreadData user db messageIds excludeBot).slot messageId = user.rowSlot row) ∨
      (getRawUnreadData user db messageIds excludeBot).slot messageId = Slot.empty := by
  obtain ⟨rows, extracted, sub, distinct⟩ := getRawUnreadData_eq_extract user db messageIds excludeBot
  rw [extracted]
  by_cases present : ∃ row ∈ rows, row.messageId = messageId
  · obtain ⟨row, member, rfl⟩ := present
    exact Or.inl ⟨row, sub member, user.slot_extract_member distinct member⟩
  · exact Or.inr (user.slot_extract_absent fun row member same => present ⟨row, member, same⟩)

/-- Reading all entries, starting from nothing, gives each message the slot of its details. -/
theorem slot_foldl_addMessage (myUserId : Nat) (unreadData : Dict Nat MessageDetailsDict)
    {order : List (Nat × MessageDetailsDict)} (perm : order.Perm unreadData.entries)
    (messageId : Nat) :
    (order.foldl (fun raw entry => raw.addMessage myUserId entry.1 entry.2)
        RawUnreadMessagesResult.empty).slot messageId =
      ((unreadData.get? messageId).map (detailsSlot myUserId)).getD Slot.empty := by
  rw [(addMessage_pointwise myUserId).foldl_perm unreadData.nodupKeys perm,
    (addMessage_pointwise myUserId).foldl_entries unreadData messageId]
  cases unreadData.get? messageId with
  | none => rfl
  | some details => exact Slot.above_empty _

/-- The details of the messages in a fetch, added one by one in any order, give back the fetch. -/
theorem formatUnreadMessageDetails_rebuilds (user : UserProfile) (db : Database)
    (groups : GroupsIncludeUser user db) (messageIds : Option (List Nat)) (excludeBot : Bool)
    (order : List (Nat × MessageDetailsDict))
    (perm : order.Perm (formatUnreadMessageDetails user.id
      (getRawUnreadData user db messageIds excludeBot)).entries) :
    (order.foldl (fun raw entry => raw.addMessage user.id entry.1 entry.2)
        RawUnreadMessagesResult.empty).Same (getRawUnreadData user db messageIds excludeBot) := by
  rw [same_iff]
  intro messageId
  rw [slot_foldl_addMessage user.id _ perm, formatUnreadMessageDetails_get?]
  rcases @slot_getRawUnreadData_cases user db messageIds excludeBot messageId with
    ⟨row, member, isRow⟩ | isEmpty
  · obtain ⟨details, isDetails, same⟩ := detailsSlot_slotDetails (groups row member)
    rw [isRow, isDetails, Option.map_some, Option.getD_some, same]
  · rw [isEmpty]
    rfl

/-- A direct message, one to a group and one that mentions the user. -/
def threeMessages : Database where
  messages := ((Dict.empty.set 1 ⟨8, .personal 7, ""⟩).set 2
    ⟨9, .directMessageGroup {7, 8, 9} (by decide), ""⟩).set 3 ⟨8, .stream 1, "lunch"⟩
  userMessages := ((Dict.empty.set 1 {.isPrivate}).set 2 {.isPrivate}).set 3 {.mentioned}

theorem threeMessages_groups : GroupsIncludeUser exampleUser threeMessages := by
  have rows : threeMessages.rows =
      [⟨1, ⟨8, .personal 7, ""⟩, {.isPrivate}⟩,
        ⟨2, ⟨9, .directMessageGroup {7, 8, 9} (by decide), ""⟩, {.isPrivate}⟩,
        ⟨3, ⟨8, .stream 1, "lunch"⟩, {.mentioned}⟩] := by decide
  intro row member members large isGroup
  rw [rows] at member
  simp only [List.mem_cons, List.not_mem_nil, or_false] at member
  rcases member with rfl | rfl | rfl
  · cases isGroup
  · cases isGroup
    decide
  · cases isGroup

/-- The details of three messages, read from the last one to the first. -/
theorem formatUnreadMessageDetails_rebuilds_three :
    ((formatUnreadMessageDetails exampleUser.id
        (getRawUnreadData exampleUser threeMessages none false)).entries.reverse.foldl
      (fun raw entry => raw.addMessage exampleUser.id entry.1 entry.2)
      RawUnreadMessagesResult.empty).Same (getRawUnreadData exampleUser threeMessages none false) :=
  formatUnreadMessageDetails_rebuilds exampleUser threeMessages threeMessages_groups none false _
    (List.reverse_perm _)

end RoundTrip

end Zulip.Unread
