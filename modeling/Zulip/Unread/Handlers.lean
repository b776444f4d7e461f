import Zulip.Unread.Slots

/-!
# What the handlers do to a slot

One lemma for each branch of `apply_event`: which messages it changes, and what it makes of
their slots.
-/

namespace Zulip.Unread

open Messages

namespace RawUnreadMessagesResult

variable {user : UserProfile} {raw : RawUnreadMessagesResult}

/-! ## Removing -/

theorem removeMessageId_pointwise :
    Pointwise slot removeMessageId id (fun _ _ => Slot.empty) := by
  constructor
  · intro raw messageId
    simp [slot, removeMessageId, Slot.empty]
  · intro raw messageId other different
    have differs : other ≠ messageId := different
    simp [slot, removeMessageId, Dict.get?_erase, differs]

/-- Removed messages are in none of the collections, and the others stay. -/
theorem slot_removeMessageIds (messageIds : List Nat) (messageId : Nat) :
    (messageIds.foldl removeMessageId raw).slot messageId =
      if messageId ∈ messageIds then Slot.empty else raw.slot messageId := by
  split
  · exact removeMessageId_pointwise.foldl_repeated (fun _ _ => rfl) ‹_›
  · rename_i absent
    exact removeMessageId_pointwise.foldl_absent fun other member (same : other = messageId) =>
      absent (same ▸ member)

/-! ## New messages -/

/-- The slot of a message that arrives unread. -/
def eventSlot (user : UserProfile) (mutedStreamIds : List Nat) (message : MessageInfo)
    (flags : Flags) : Slot :=
  let wildcard := flags.test {.streamWildcardMentioned} || flags.test {.topicWildcardMentioned}
  let mentioned := flags.test {.mentioned}
  match message.displayRecipient with
  | .stream streamId =>
      let unmuted := eventUnmuted user mutedStreamIds streamId message.topicName
      { stream := some ⟨streamId, message.topicName⟩
        unmuted
        mentioned := mentioned || (wildcard && unmuted) }
  | .direct participants =>
      match participants.filter fun recip => recip != user.id with
      | [] => { pm := some user.id, mentioned }
      | [otherUserId] => { pm := some otherUserId, mentioned }
      | _ => { huddle := some (participants.mergeSort (· ≤ ·)), mentioned }

theorem slot_applyUnreadMessageEvent_self {message : MessageInfo} {flags : Flags}
    (new : raw.slot message.id = Slot.empty) :
    (raw.applyUnreadMessageEvent user message flags).slot message.id =
      eventSlot user raw.mutedStreamIds message flags := by
  obtain ⟨pm, stream, huddle, unmuted, mentioned⟩ := Slot.ext_iff.mp new
  simp only [slot, Slot.empty, decide_eq_false_iff_not] at pm stream huddle unmuted mentioned
  unfold applyUnreadMessageEvent eventSlot
  generalize flags.test {.mentioned} = isMentioned
  generalize flags.test {.streamWildcardMentioned} = streamWildcard
  generalize flags.test {.topicWildcardMentioned} = topicWildcard
  cases message.displayRecipient with
  | stream streamId =>
      dsimp only
      generalize eventUnmuted user raw.mutedStreamIds streamId message.topicName = isUnmuted
      cases isUnmuted <;> cases isMentioned <;> cases streamWildcard <;> cases topicWildcard <;>
        simp [slot, *]
  | direct participants =>
      dsimp only
      rcases participants.filter fun recip => recip != user.id with
        _ | ⟨otherUserId, _ | ⟨second, rest⟩⟩ <;>
      cases isMentioned <;> cases streamWildcard <;> cases topicWildcard <;>
        simp [slot, *]

theorem slot_applyUnreadMessageEvent_other {message : MessageInfo} {flags : Flags}
    {messageId : Nat} (different : messageId ≠ message.id) :
    (raw.applyUnreadMessageEvent user message flags).slot messageId = raw.slot messageId := by
  unfold applyUnreadMessageEvent
  cases message.displayRecipient with
  | stream streamId =>
      dsimp only
      split_ifs <;> simp [slot, Dict.get?_set, different]
  | direct participants =>
      dsimp only
      rcases participants.filter fun recip => recip != user.id with
        _ | ⟨otherUserId, _ | ⟨second, rest⟩⟩ <;>
      dsimp only <;> split_ifs <;> simp [slot, Dict.get?_set, different]

/-! ## Messages marked as unread -/

/-- The slot that the details of a message give. -/
def detailsSlot (myUserId : Nat) : MessageDetailsDict → Slot
  | .direct userIds mentioned =>
      match userIds.filter fun userId => userId != myUserId with
      | [] => { pm := some myUserId, mentioned }
      | [otherUserId] => { pm := some otherUserId, mentioned }
      | userIds => { huddle := some ((userIds ++ [myUserId]).mergeSort (· ≤ ·)), mentioned }
  | .stream streamId topic unmuted mentioned =>
      { stream := some ⟨streamId, topic⟩, unmuted, mentioned }

theorem addMessage_pointwise (myUserId : Nat) :
    Pointwise slot (fun raw (entry : Nat × MessageDetailsDict) =>
        raw.addMessage myUserId entry.1 entry.2) Prod.fst
      (fun entry slot => (detailsSlot myUserId entry.2).above slot) := by
  constructor
  · rintro raw ⟨messageId, details⟩
    unfold addMessage detailsSlot
    cases details with
    | direct userIds mentioned =>
        dsimp only
        rcases userIds.filter fun userId => userId != myUserId with
          _ | ⟨otherUserId, _ | ⟨second, rest⟩⟩ <;>
        cases mentioned <;> simp [slot, Slot.above]
    | stream streamId topic unmuted mentioned =>
        cases unmuted <;> cases mentioned <;> simp [slot, Slot.above]
  · rintro raw ⟨messageId, details⟩ other different
    have differs : other ≠ messageId := different
    unfold addMessage
    cases details with
    | direct userIds mentioned =>
        dsimp only
        rcases userIds.filter fun userId => userId != myUserId with
          _ | ⟨otherUserId, _ | ⟨second, rest⟩⟩ <;>
        cases mentioned <;> simp [slot, Dict.get?_set, differs]
    | stream streamId topic unmuted mentioned =>
        cases unmuted <;> cases mentioned <;> simp [slot, Dict.get?_set, differs]

/-! ## Moved messages -/

/-- Only the entry in `stream_dict` is changed. -/
theorem slot_updateStreamDict {change : RawUnreadStreamDict → RawUnreadStreamDict}
    (repeated : ∀ entry, change (change entry) = change entry) (messageIds : List Nat)
    (messageId : Nat) :
    (raw.updateStreamDict messageIds change).slot messageId =
      if messageId ∈ messageIds then
        { raw.slot messageId with stream := (raw.slot messageId).stream.map change }
      else raw.slot messageId := by
  have same : raw.updateStreamDict messageIds change = messageIds.foldl (fun raw messageId =>
      (raw.streamDict.get? messageId).elim raw fun entry =>
        { raw with streamDict := raw.streamDict.set messageId (change entry) }) raw := by
    unfold updateStreamDict
    congr 1
    funext raw messageId
    cases raw.streamDict.get? messageId <;> rfl
  have pointwise : Pointwise slot (fun raw messageId =>
      (raw.streamDict.get? messageId).elim raw fun entry =>
        { raw with streamDict := raw.streamDict.set messageId (change entry) }) id
      (fun _ slot => { slot with stream := slot.stream.map change }) := by
    constructor
    · intro raw messageId
      cases found : raw.streamDict.get? messageId with
      | none =>
          simp only [slot, found, Option.elim_none, id]
          rfl
      | some entry =>
          simp only [slot, found, Option.elim_some, id, Dict.get?_set_self]
          rfl
    · intro raw messageId other different
      have differs : other ≠ messageId := different
      cases raw.streamDict.get? messageId with
      | none => rfl
      | some entry =>
          simp only [slot, Option.elim_some, Dict.get?_set_ne _ _ differs]
          rfl
  rw [same]
  split
  · refine pointwise.foldl_repeated ?_ ‹_›
    intro _ slot
    simp [Function.comp_def, repeated]
  · rename_i absent
    exact pointwise.foldl_absent fun other member (same : other = messageId) =>
      absent (same ▸ member)

/-- The event of a move changes the place of the moved messages. -/
theorem slot_updateMessage (messageIds : List Nat) (newStreamId : Option Nat)
    (topicName : Option String) (messageId : Nat) :
    (raw.applyEvent user (.updateMessage messageIds newStreamId topicName)).slot messageId =
      if messageId ∈ messageIds then (raw.slot messageId).move newStreamId topicName
      else raw.slot messageId := by
  have moved : ∀ (raw : RawUnreadMessagesResult) (streamId : Nat),
      (raw.updateStreamDict messageIds fun entry => { entry with streamId }).slot messageId =
        if messageId ∈ messageIds then (raw.slot messageId).move (some streamId) none
        else raw.slot messageId := by
    intro raw streamId
    refine slot_updateStreamDict ?_ messageIds messageId
    exact fun _ => rfl
  have renamed : ∀ (raw : RawUnreadMessagesResult) (topic : String),
      (raw.updateStreamDict messageIds fun entry => { entry with topic }).slot messageId =
        if messageId ∈ messageIds then (raw.slot messageId).move none (some topic)
        else raw.slot messageId := by
    intro raw topic
    refine slot_updateStreamDict ?_ messageIds messageId
    exact fun _ => rfl
  unfold applyEvent
  cases newStreamId <;> cases topicName <;> dsimp only
  · split
    · simp [Slot.move]
    · rfl
  · exact renamed raw _
  · exact moved raw _
  · rw [renamed, moved]
    split
    · simp [Slot.move, Function.comp_def]
    · rfl

/-! ## Marking as unread -/

/-- The details that `format_unread_message_details` gives for the slot of a message. -/
def slotDetails (myUserId : Nat) (slot : Slot) : Option MessageDetailsDict :=
  match slot.huddle, slot.stream, slot.pm with
  | some users, _, _ => some (.direct
      ((users.filter fun userId => userId != myUserId).mergeSort (· ≤ ·)) slot.mentioned)
  | none, some entry, _ => some (.stream entry.streamId entry.topic slot.unmuted slot.mentioned)
  | none, none, some otherUserId =>
      some (.direct (if otherUserId = myUserId then [] else [otherUserId]) slot.mentioned)
  | none, none, none => none

theorem formatUnreadMessageDetails_get? (myUserId messageId : Nat) :
    (formatUnreadMessageDetails myUserId raw).get? messageId =
      slotDetails myUserId (raw.slot messageId) := by
  unfold formatUnreadMessageDetails slotDetails
  dsimp only
  rw [(Dict.set_pointwise _).foldl_entries, (Dict.set_pointwise _).foldl_entries,
    (Dict.set_pointwise _).foldl_entries]
  unfold slot
  cases raw.huddleDict.get? messageId <;> cases raw.streamDict.get? messageId <;>
    cases raw.pmDict.get? messageId <;> rfl

/-- The event of messages that were marked as read. -/
theorem slot_markedAsRead (messages : List Nat) (all : Bool)
    (messageDetails : Dict Nat MessageDetailsDict) (messageId : Nat) :
    (raw.applyEvent user (.updateMessageFlags .add .read messages all messageDetails)).slot
        messageId = if messageId ∈ messages then Slot.empty else raw.slot messageId := by
  unfold applyEvent
  dsimp only
  rw [if_pos ⟨rfl, rfl⟩]
  exact slot_removeMessageIds messages messageId

/-! ## The muted streams -/

end RawUnreadMessagesResult

end Zulip.Unread
