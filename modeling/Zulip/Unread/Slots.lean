import Zulip.Foundation.Pointwise
import Zulip.Unread.Events

/-!
# Unread data, message by message

All five collections are keyed by message id. A `Slot` is what they say about one message, and
both `get_raw_unread_data` and the handlers of events are described by what they do to slots.
-/

namespace Zulip.Unread

open Messages

/-- What the collections say about a message. -/
@[ext] structure Slot where
  pm : Option Nat := none
  stream : Option RawUnreadStreamDict := none
  huddle : Option (List Nat) := none
  unmuted : Bool := false
  mentioned : Bool := false
deriving DecidableEq

namespace Slot

/-- A message in none of the collections. -/
def empty : Slot := {}

/-- Entries over those that are there. -/
def above (upper lower : Slot) : Slot where
  pm := upper.pm.or lower.pm
  stream := upper.stream.or lower.stream
  huddle := upper.huddle.or lower.huddle
  unmuted := upper.unmuted || lower.unmuted
  mentioned := upper.mentioned || lower.mentioned

@[simp] theorem above_empty (slot : Slot) : slot.above empty = slot := by
  ext1 <;> simp [above, empty]

/-- The slot of a message that has been moved. -/
def move (newStreamId : Option Nat) (topicName : Option String) (slot : Slot) : Slot :=
  { slot with
    stream := slot.stream.map fun entry =>
      ⟨newStreamId.getD entry.streamId, topicName.getD entry.topic⟩ }

@[simp] theorem move_empty (newStreamId : Option Nat) (topicName : Option String) :
    move newStreamId topicName empty = empty := rfl

end Slot

namespace RawUnreadMessagesResult

/-- The slot of a message. -/
def slot (raw : RawUnreadMessagesResult) (messageId : Nat) : Slot where
  pm := raw.pmDict.get? messageId
  stream := raw.streamDict.get? messageId
  huddle := raw.huddleDict.get? messageId
  unmuted := messageId ∈ raw.unmutedStreamMsgs
  mentioned := messageId ∈ raw.mentions

/-- The same five collections. -/
structure Same (left right : RawUnreadMessagesResult) : Prop where
  pmDict : ∀ messageId, left.pmDict.get? messageId = right.pmDict.get? messageId
  streamDict : ∀ messageId, left.streamDict.get? messageId = right.streamDict.get? messageId
  huddleDict : ∀ messageId, left.huddleDict.get? messageId = right.huddleDict.get? messageId
  unmutedStreamMsgs : left.unmutedStreamMsgs = right.unmutedStreamMsgs
  mentions : left.mentions = right.mentions

/-- Collections are the same when they say the same about every message. -/
theorem same_iff {left right : RawUnreadMessagesResult} :
    left.Same right ↔ ∀ messageId, left.slot messageId = right.slot messageId := by
  constructor
  · intro same messageId
    unfold slot
    rw [same.pmDict, same.streamDict, same.huddleDict, same.unmutedStreamMsgs, same.mentions]
  · intro equal
    have fields := fun messageId => Slot.ext_iff.mp (equal messageId)
    refine ⟨fun messageId => (fields messageId).1, fun messageId => (fields messageId).2.1,
      fun messageId => (fields messageId).2.2.1, ?_, ?_⟩
    · ext messageId
      simpa [slot] using (fields messageId).2.2.2.1
    · ext messageId
      simpa [slot] using (fields messageId).2.2.2.2

end RawUnreadMessagesResult

/-! ## Extracting rows -/

namespace UserProfile

open RawUnreadMessagesResult

variable (user : UserProfile)

/-- The slot that a row of the query gives. -/
def rowSlot (row : Row) : Slot :=
  let wildcard := row.flags.test {.streamWildcardMentioned} ||
    row.flags.test {.topicWildcardMentioned}
  let mentioned := row.flags.test {.mentioned}
  match row.message.recipient with
  | .stream streamId =>
      let unmuted := !user.isRowMuted streamId row.message.topicName
      { stream := some ⟨streamId, row.message.topicName⟩
        unmuted
        mentioned := mentioned || (wildcard && unmuted) }
  | .personal typeId =>
      { pm := some (if row.message.senderId = user.id then typeId else row.message.senderId)
        mentioned := mentioned || wildcard }
  | .directMessageGroup members _ =>
      { huddle := some (members.sort (· ≤ ·))
        mentioned := mentioned || wildcard }

theorem extractRow_pointwise :
    Pointwise RawUnreadMessagesResult.slot user.extractRow Row.messageId
      (fun row slot => (user.rowSlot row).above slot) := by
  constructor
  · intro raw row
    unfold extractRow rowSlot
    generalize row.flags.test {.mentioned} = mentioned
    generalize row.flags.test {.streamWildcardMentioned} = streamWildcard
    generalize row.flags.test {.topicWildcardMentioned} = topicWildcard
    cases row.message.recipient with
    | stream streamId =>
        dsimp only
        generalize user.isRowMuted streamId row.message.topicName = muted
        cases muted <;> cases mentioned <;> cases streamWildcard <;> cases topicWildcard <;>
          simp [slot, Slot.above]
    | personal typeId =>
        cases mentioned <;> cases streamWildcard <;> cases topicWildcard <;>
          simp [slot, Slot.above]
    | directMessageGroup members large =>
        cases mentioned <;> cases streamWildcard <;> cases topicWildcard <;>
          simp [slot, Slot.above]
  · intro raw row messageId different
    unfold extractRow
    generalize row.flags.test {.mentioned} = mentioned
    generalize row.flags.test {.streamWildcardMentioned} = streamWildcard
    generalize row.flags.test {.topicWildcardMentioned} = topicWildcard
    cases row.message.recipient with
    | stream streamId =>
        dsimp only
        generalize user.isRowMuted streamId row.message.topicName = muted
        cases muted <;> cases mentioned <;> cases streamWildcard <;> cases topicWildcard <;>
          simp [slot, Dict.get?_set, different]
    | personal typeId =>
        cases mentioned <;> cases streamWildcard <;> cases topicWildcard <;>
          simp [slot, Dict.get?_set, different]
    | directMessageGroup members large =>
        cases mentioned <;> cases streamWildcard <;> cases topicWildcard <;>
          simp [slot, Dict.get?_set, different]

/-- Extracting rows of different messages: each row gives its slot. -/
theorem slot_extract_member {rows : List Row} (distinct : (rows.map Row.messageId).Nodup)
    {row : Row} (member : row ∈ rows) :
    (user.extractUnreadDataFromUmRows rows).slot row.messageId = user.rowSlot row := by
  unfold extractUnreadDataFromUmRows
  rw [user.extractRow_pointwise.foldl_member distinct member]
  exact Slot.above_empty _

theorem slot_extract_absent {rows : List Row} {messageId : Nat}
    (absent : ∀ row ∈ rows, row.messageId ≠ messageId) :
    (user.extractUnreadDataFromUmRows rows).slot messageId = Slot.empty := by
  unfold extractUnreadDataFromUmRows
  rw [user.extractRow_pointwise.foldl_absent absent]
  rfl

end UserProfile

/-! ## Fetching -/

section Fetching

variable {user : UserProfile} {db : Database} {excludeBot : Bool}

theorem Database.mem_rows {row : Row} :
    row ∈ db.rows ↔ db.messages.get? row.messageId = some row.message ∧
      db.userMessages.get? row.messageId = some row.flags := by
  unfold Database.rows
  rw [List.mem_filterMap]
  constructor
  · rintro ⟨entry, member, joined⟩
    obtain ⟨message, found, rfl⟩ := Option.map_eq_some_iff.mp joined
    exact ⟨found, Dict.get?_eq_some_iff.mpr member⟩
  · rintro ⟨message, flags⟩
    refine ⟨(row.messageId, row.flags), Dict.get?_eq_some_iff.mp flags, ?_⟩
    rw [message]
    rfl

theorem Database.rows_nodup : (db.rows.map Row.messageId).Nodup := by
  have sub : (db.rows.map Row.messageId).Sublist (db.userMessages.entries.map Prod.fst) := by
    unfold Database.rows
    generalize db.userMessages.entries = entries
    induction entries with
    | nil => exact List.Sublist.refl _
    | cons entry rest inductionHypothesis =>
        rw [List.filterMap_cons]
        cases found : db.messages.get? entry.1 with
        | none => exact inductionHypothesis.cons _
        | some message => exact inductionHypothesis.cons_cons _
  exact db.userMessages.nodupKeys.sublist sub

/-- The row that the query finds for a message. -/
def Database.row? (db : Database) (messageId : Nat) : Option Row :=
  match db.messages.get? messageId, db.userMessages.get? messageId with
  | some message, some flags => some ⟨messageId, message, flags⟩
  | _, _ => none

theorem Database.row?_eq_some {messageId : Nat} {row : Row} :
    db.row? messageId = some row ↔ row ∈ db.rows ∧ row.messageId = messageId := by
  unfold Database.row?
  rw [Database.mem_rows]
  constructor
  · intro found
    split at found
    · rename_i message flags isMessage isFlags
      rw [Option.some.injEq] at found
      subst found
      exact ⟨⟨isMessage, isFlags⟩, rfl⟩
    · simp at found
  · rintro ⟨⟨message, flags⟩, rfl⟩
    rw [message, flags]

/-- The unread rows that the query selects. -/
def Database.unreadRows (user : UserProfile) (excludeBot : Bool) (db : Database) : List Row :=
  (db.rows.filter (user.selects excludeBot)).filter fun row => !row.flags.test {.read}

/-- The query selects this row. -/
def UserProfile.counts (user : UserProfile) (excludeBot : Bool) (row : Row) : Bool :=
  user.selects excludeBot row && !row.flags.test {.read}

/-- With `exclude_bot` the query selects fewer rows. -/
theorem UserProfile.selects_false {row : Row} (selected : user.selects excludeBot row) :
    user.selects false row := by
  simp only [selects, excludesSender, Bool.false_and, Bool.not_false, Bool.and_true,
    Bool.and_eq_true] at selected ⊢
  exact ⟨selected.1, selected.2.1⟩

theorem Database.unreadRows_length_le :
    (db.unreadRows user excludeBot).length ≤ (db.unreadRows user false).length := by
  unfold Database.unreadRows
  refine List.Sublist.length_le (List.Sublist.filter _ ?_)
  exact List.monotone_filter_right _ fun row => UserProfile.selects_false

/-- The slot of a message in a fetch. -/
def Database.slot (user : UserProfile) (excludeBot : Bool) (db : Database) (messageId : Nat) : Slot :=
  match db.row? messageId with
  | some row => if user.counts excludeBot row then user.rowSlot row else Slot.empty
  | none => Slot.empty

end Fetching

end Zulip.Unread
