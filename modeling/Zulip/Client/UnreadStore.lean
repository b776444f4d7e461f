import Zulip.Client.Unread

/-!
# Changes of the unread store

Every change patches the collections by hand. A mention is entered into the cache by what the
message store says about it, and removed by what the reverse lookup says.
-/

namespace Zulip.Client

variable {Id : Type} [DecidableEq Id]

/-- Where a message was sent, as far as `UnreadMessageData` says. -/
inductive MessageKind where
  | direct (userIdsString : String)
  | stream (streamId : Nat) (topic : String)
deriving DecidableEq, Repr

/-- The topic key of the topic that a message was sent to. -/
def MessageKind.topicKey? (toLowerCase : String → String) : MessageKind → Option String
  | .direct _ => none
  | .stream streamId topic => some (getTopicKey toLowerCase streamId topic)

/-- `UnreadMessageData`. -/
structure UnreadMessageData (Id : Type) where
  id : Id
  mentioned : Bool
  mentionedMeDirectly : Bool
  unread : Bool
  kind : MessageKind

/-- The other modules of the client at the time of a change. -/
structure ClientState (Id : Type) where
  /-- `message_store.get`: the stream and the topic of a message; `none` for a direct message and for
  a message that is not there. -/
  streamMessage : Id → Option (Nat × String)
  /-- `stream_data.is_muted`. -/
  isStreamMuted : Nat → Bool
  /-- `user_topics.is_topic_muted`. -/
  isTopicMuted : Nat → String → Bool
  /-- `user_topics.is_topic_unmuted_or_followed`. -/
  isTopicUnmutedOrFollowed : Nat → String → Bool

/-- The collections of `unread.ts`. -/
structure UnreadStore (Id : Type) where
  directMessageCounter : DirectMessageCounter Id
  topicCounter : TopicCounter Id
  /-- A set that is iterated over in the order of insertion. -/
  unreadMentionsCounter : Dict Id Unit
  directMessageWithMentionCount : Finset Id
  unreadMessages : Finset Id
  unreadMentionTopics : Dict String (Finset Id)

namespace UnreadStore

variable (toLowerCase : String → String) (client : ClientState Id) (store : UnreadStore Id)

/-- A mention enters the cache under a key. -/
def addToMentionTopics (topics : Dict String (Finset Id)) (topicKey : String) (messageId : Id) :
    Dict String (Finset Id) :=
  match topics.get? topicKey with
  | some topicMessageIds => topics.set topicKey (insert messageId topicMessageIds)
  | none => topics.set topicKey {messageId}

/-- `add_message_to_unread_mention_topics`. -/
def addMessageToUnreadMentionTopics (messageId : Id) : UnreadStore Id :=
  { store with
    unreadMentionTopics :=
      match client.streamMessage messageId with
      | none => store.unreadMentionTopics
      | some (streamId, topic) =>
          addToMentionTopics store.unreadMentionTopics (getTopicKey toLowerCase streamId topic)
            messageId }

/-- `remove_message_from_unread_mention_topics`. -/
def removeMessageFromUnreadMentionTopics (messageId : Id) : UnreadStore Id :=
  { store with
    unreadMentionTopics :=
      match store.topicCounter.reverseLookup.get? messageId with
      | none => store.unreadMentionTopics
      | some (streamId, topic) =>
          store.unreadMentionTopics.modify (getTopicKey toLowerCase streamId topic)
            fun topicMessageIds => topicMessageIds.erase messageId }

/-- One iteration of `clear_and_populate_unread_mention_topics`. -/
def populateMention (topics : Dict String (Finset Id)) (messageId : Id) :
    Dict String (Finset Id) :=
  match store.topicCounter.reverseLookup.get? messageId with
  | none => topics
  | some (streamId, topic) =>
      addToMentionTopics topics (getTopicKey toLowerCase streamId topic) messageId

/-- `clear_and_populate_unread_mention_topics`. -/
def clearAndPopulateUnreadMentionTopics : UnreadStore Id :=
  { store with
    unreadMentionTopics := store.unreadMentionsCounter.keys.foldl
      (populateMention toLowerCase store) Dict.empty }

/-- The mention counts although the conversation may be muted. -/
def isUnmutedMention (message : UnreadMessageData Id) : Bool :=
  message.mentioned &&
    match message.kind with
    | .direct _ => true
    | .stream streamId topic =>
        (!client.isStreamMuted streamId && !client.isTopicMuted streamId topic) ||
          (client.isStreamMuted streamId && client.isTopicUnmutedOrFollowed streamId topic)

/-- Both branches of `update_message_for_mention` that take a mention away. -/
def removeMention (messageId : Id) : UnreadStore Id :=
  removeMessageFromUnreadMentionTopics toLowerCase
    { store with
      unreadMentionsCounter := store.unreadMentionsCounter.erase messageId
      directMessageWithMentionCount := store.directMessageWithMentionCount.erase messageId }
    messageId

/-- The branch of `update_message_for_mention` that enters a mention. -/
def addMention (message : UnreadMessageData Id) : UnreadStore Id :=
  let store := addMessageToUnreadMentionTopics toLowerCase client
    { store with unreadMentionsCounter := store.unreadMentionsCounter.set message.id () } message.id
  { store with
    directMessageWithMentionCount :=
      match message.kind with
      | .direct _ => insert message.id store.directMessageWithMentionCount
      | .stream _ _ => store.directMessageWithMentionCount }

/-- `update_message_for_mention`; the result says whether a rerender may be needed. -/
def updateMessageForMention (message : UnreadMessageData Id) (contentEdited : Bool) :
    UnreadStore Id × Bool :=
  if !message.unread then (store.removeMention toLowerCase message.id, false)
  else
    let store :=
      if isUnmutedMention client message || message.mentionedMeDirectly then
        store.addMention toLowerCase client message
      else store.removeMention toLowerCase message.id
    match message.kind with
    | .direct _ => (store, false)
    | .stream _ _ => (store, contentEdited)

/-- The first part of `process_unread_message`: the message becomes unread and gets a bucket. -/
def trackMessage (message : UnreadMessageData Id) : UnreadStore Id :=
  { store with
    unreadMessages := insert message.id store.unreadMessages
    directMessageCounter :=
      match message.kind with
      | .direct userIdsString => store.directMessageCounter.add message.id userIdsString
      | .stream _ _ => store.directMessageCounter
    topicCounter :=
      match message.kind with
      | .direct _ => store.topicCounter
      | .stream streamId topic => store.topicCounter.add toLowerCase message.id streamId topic }

/-- `process_unread_message`. -/
def processUnreadMessage (message : UnreadMessageData Id) : UnreadStore Id :=
  ((store.trackMessage toLowerCase message).updateMessageForMention toLowerCase client message
    false).1

/-- `mark_as_read`. -/
def markAsRead (messageId : Id) : UnreadStore Id :=
  let store :=
    { store with directMessageCounter := store.directMessageCounter.delete messageId }
  -- The topic is looked up before the message leaves the topic counter.
  let store := store.removeMessageFromUnreadMentionTopics toLowerCase messageId
  { store with
    topicCounter := store.topicCounter.delete toLowerCase messageId
    unreadMentionsCounter := store.unreadMentionsCounter.erase messageId
    directMessageWithMentionCount := store.directMessageWithMentionCount.erase messageId
    unreadMessages := store.unreadMessages.erase messageId }

/-- The part of an `UpdateMessageEvent` that moves messages. -/
structure MoveEvent where
  newTopic : Option String
  newStreamId : Option Nat
deriving DecidableEq, Repr

/-- A stream message that moves, with its stream and topic before. -/
structure MovedMessage (Id : Type) where
  id : Id
  streamId : Nat
  topic : String

/-- `update_unread_topics`. -/
def updateUnreadTopics (message : MovedMessage Id) (event : MoveEvent) : UnreadStore Id :=
  if event.newTopic = none ∧ event.newStreamId = none then store
  else if message.id ∉ store.unreadMessages then store
  else
    { store with
      topicCounter := (store.topicCounter.delete toLowerCase message.id).add toLowerCase message.id
        (event.newStreamId.getD message.streamId) (event.newTopic.getD message.topic) }

/-- `update_unread_topics` for the moved messages of an event. -/
def movedStore (messages : List (MovedMessage Id)) (event : MoveEvent) : UnreadStore Id :=
  messages.foldl (fun store message => store.updateUnreadTopics toLowerCase message event) store

/-- The same, and the rebuild of the cache. -/
def moveMessages (messages : List (MovedMessage Id)) (event : MoveEvent) : UnreadStore Id :=
  (store.movedStore toLowerCase messages event).clearAndPopulateUnreadMentionTopics toLowerCase

/-- The topic key under which the topic counter has a message. -/
def topicKey? (messageId : Id) : Option String :=
  (store.topicCounter.reverseLookup.get? messageId).map
    fun streamTopic => getTopicKey toLowerCase streamTopic.1 streamTopic.2

/-- The key under which the cache should have a message. -/
def mentionKey? (messageId : Id) : Option String :=
  if messageId ∈ store.unreadMentionsCounter.keys then store.topicKey? toLowerCase messageId else none

/-- The buckets, the unread messages and the mentions agree with each other. -/
structure Tracking : Prop where
  directMessages : store.directMessageCounter.Indexed
  topics : store.topicCounter.Indexed toLowerCase
  /-- A message has one bucket, and exactly the unread messages have one. -/
  oneBucket : ∀ id, store.directMessageCounter.reverseLookup.get? id = none ∨
    store.topicCounter.reverseLookup.get? id = none
  bucketed : ∀ id, id ∈ store.unreadMessages ↔
    store.directMessageCounter.reverseLookup.get? id ≠ none ∨
      store.topicCounter.reverseLookup.get? id ≠ none
  mentions : ∀ id ∈ store.unreadMentionsCounter.keys, id ∈ store.unreadMessages
  directMentions : ∀ id, id ∈ store.directMessageWithMentionCount ↔
    id ∈ store.unreadMentionsCounter.keys ∧
      store.directMessageCounter.reverseLookup.get? id ≠ none

/-- All collections agree with each other. -/
structure Consistent : Prop extends Tracking toLowerCase store where
  /-- The cache is what a rebuild would make it, but for empty sets. -/
  cache : ∀ key, store.unreadMentionTopics.getD key ∅ =
    (store.clearAndPopulateUnreadMentionTopics toLowerCase).unreadMentionTopics.getD key ∅

section Lemmas

variable {toLowerCase} {client} {store}

theorem mem_addToMentionTopics {topics : Dict String (Finset Id)} {topicKey key : String}
    {messageId other : Id} :
    other ∈ (addToMentionTopics topics topicKey messageId).getD key ∅ ↔
      other ∈ topics.getD key ∅ ∨ (other = messageId ∧ key = topicKey) := by
  unfold addToMentionTopics
  cases isBucket : topics.get? topicKey with
  | none =>
      rw [Dict.getD_set]
      by_cases same : key = topicKey
      · simp [same, Dict.getD, isBucket]
      · simp [same]
  | some bucket =>
      rw [Dict.getD_set]
      by_cases same : key = topicKey
      · simp [same, Dict.getD, isBucket, or_comm]
      · simp [same]

theorem mem_populateMention {topics : Dict String (Finset Id)} {key : String} {messageId other : Id} :
    other ∈ (populateMention toLowerCase store topics messageId).getD key ∅ ↔
      other ∈ topics.getD key ∅ ∨
        (other = messageId ∧ store.topicKey? toLowerCase messageId = some key) := by
  unfold populateMention topicKey?
  cases store.topicCounter.reverseLookup.get? messageId with
  | none => simp
  | some streamTopic =>
      rw [mem_addToMentionTopics]
      simp [eq_comm]

/-- What a rebuild enters into the cache. -/
theorem mem_clearAndPopulate {key : String} {messageId : Id} :
    messageId ∈ (store.clearAndPopulateUnreadMentionTopics toLowerCase).unreadMentionTopics.getD key
        ∅ ↔ store.mentionKey? toLowerCase messageId = some key := by
  have ofList : ∀ (mentions : List Id) (topics : Dict String (Finset Id)),
      messageId ∈ (mentions.foldl (populateMention toLowerCase store) topics).getD key ∅ ↔
        messageId ∈ topics.getD key ∅ ∨
          (messageId ∈ mentions ∧ store.topicKey? toLowerCase messageId = some key) := by
    intro mentions
    induction mentions with
    | nil => simp
    | cons mention rest inductionHypothesis =>
        intro topics
        rw [List.foldl_cons, inductionHypothesis, mem_populateMention, List.mem_cons]
        constructor
        · rintro ((before | ⟨rfl, isKey⟩) | ⟨isRest, isKey⟩)
          · exact .inl before
          · exact .inr ⟨.inl rfl, isKey⟩
          · exact .inr ⟨.inr isRest, isKey⟩
        · rintro (before | ⟨rfl | isRest, isKey⟩)
          · exact .inl (.inl before)
          · exact .inl (.inr ⟨rfl, isKey⟩)
          · exact .inr ⟨isRest, isKey⟩
  rw [clearAndPopulateUnreadMentionTopics, ofList, mentionKey?]
  simp

/-- The cache holds the mentions under their topics. -/
def CacheIndexed (toLowerCase : String → String) (store : UnreadStore Id) : Prop :=
  Indexed id (fun key => store.unreadMentionTopics.getD key ∅) (store.mentionKey? toLowerCase)

theorem cache_iff :
    (∀ key, store.unreadMentionTopics.getD key ∅ =
        (store.clearAndPopulateUnreadMentionTopics toLowerCase).unreadMentionTopics.getD key ∅) ↔
      store.CacheIndexed toLowerCase := by
  constructor
  · intro same messageId key
    simp only [same, mem_clearAndPopulate, Option.map_id, id]
  · intro indexed key
    ext messageId
    rw [mem_clearAndPopulate]
    simpa using indexed messageId key

/-- A rebuild keeps what the cache is about and makes the cache right. -/
theorem cacheIndexed_clearAndPopulate :
    (store.clearAndPopulateUnreadMentionTopics toLowerCase).CacheIndexed toLowerCase := by
  intro messageId key
  simp only [mem_clearAndPopulate, Option.map_id, id]
  rfl

theorem CacheIndexed.congr {after : UnreadStore Id} (indexed : store.CacheIndexed toLowerCase)
    (sameCache : after.unreadMentionTopics = store.unreadMentionTopics)
    (sameKeys : ∀ id, after.mentionKey? toLowerCase id = store.mentionKey? toLowerCase id) :
    after.CacheIndexed toLowerCase := by
  intro id key
  rw [sameCache, sameKeys]
  exact indexed id key

end Lemmas

/-! ## Mentions -/

section Mentions

variable {toLowerCase} {client} {store}

/-- A mention that is in the cache leaves it. -/
theorem mem_removeMessage (indexed : store.CacheIndexed toLowerCase) {messageId other : Id}
    {key : String} :
    other ∈ (store.removeMessageFromUnreadMentionTopics toLowerCase messageId).unreadMentionTopics.getD
        key ∅ ↔ other ∈ store.unreadMentionTopics.getD key ∅ ∧ other ≠ messageId := by
  have ofMember : other ∈ store.unreadMentionTopics.getD key ∅ →
      store.topicKey? toLowerCase other = some key := by
    intro isMember
    have found := (indexed other key).mp isMember
    rw [Option.map_id, id, mentionKey?] at found
    split at found
    · exact found
    · cases found
  unfold removeMessageFromUnreadMentionTopics
  cases isPlace : store.topicCounter.reverseLookup.get? messageId with
  | none =>
      rw [iff_self_and]
      rintro isMember rfl
      have found := ofMember isMember
      rw [topicKey?, isPlace] at found
      cases found
  | some streamTopic =>
      simp only [Dict.getD, Dict.get?_modify]
      by_cases same : key = getTopicKey toLowerCase streamTopic.1 streamTopic.2
      · rw [if_pos same, ← same]
        cases store.unreadMentionTopics.get? key with
        | none => simp
        | some bucket => simp [and_comm]
      · rw [if_neg same, iff_self_and]
        rintro isMember rfl
        have found := ofMember isMember
        rw [topicKey?, isPlace] at found
        exact same (Option.some.inj found).symm

/-- Taking a mention away keeps the collections consistent. -/
theorem Consistent.removeMention (consistent : store.Consistent toLowerCase) (messageId : Id) :
    (store.removeMention toLowerCase messageId).Consistent toLowerCase where
  directMessages := consistent.directMessages
  topics := consistent.topics
  oneBucket := consistent.oneBucket
  bucketed := consistent.bucketed
  mentions id isMention := consistent.mentions id (Dict.mem_keys_erase.mp isMention).2
  directMentions id := by
    simp only [UnreadStore.removeMention, removeMessageFromUnreadMentionTopics, Finset.mem_erase,
      Dict.mem_keys_erase, consistent.directMentions, and_assoc]
  cache := by
    refine cache_iff.mpr ((cache_iff.mp consistent.cache).delete messageId (fun other key => ?_)
      ?_ fun other differs => ?_)
    · exact mem_removeMessage (cache_iff.mp consistent.cache)
    · exact if_neg fun isMention => (Dict.mem_keys_erase.mp isMention).1 rfl
    · exact if_congr (Dict.mem_keys_erase.trans (and_iff_right differs)) rfl rfl

/-- The key under which the message store has a message. -/
def streamKey? (toLowerCase : String → String) (client : ClientState Id) (messageId : Id) :
    Option String :=
  (client.streamMessage messageId).map
    fun streamTopic => getTopicKey toLowerCase streamTopic.1 streamTopic.2

/-- A mention of a message may enter the collections: the message is tracked, as what the data says
it is, and under the topic that the message store says. -/
structure AllowsMention (toLowerCase : String → String) (client : ClientState Id)
    (store : UnreadStore Id) (message : UnreadMessageData Id) : Prop where
  tracked : message.id ∈ store.unreadMessages
  sameKind :
    match message.kind with
    | .direct _ => store.directMessageCounter.reverseLookup.get? message.id ≠ none
    | .stream _ _ =>
        store.directMessageCounter.reverseLookup.get? message.id = none ∨
          message.id ∈ store.unreadMentionsCounter.keys
  sameTopic : streamKey? toLowerCase client message.id = store.topicKey? toLowerCase message.id ∨
    (streamKey? toLowerCase client message.id = none ∧
      message.id ∈ store.unreadMentionsCounter.keys)

theorem mem_addMention {message : UnreadMessageData Id} {other : Id} {key : String} :
    other ∈ (store.addMention toLowerCase client message).unreadMentionTopics.getD key ∅ ↔
      other ∈ store.unreadMentionTopics.getD key ∅ ∨
        (other = message.id ∧ streamKey? toLowerCase client message.id = some key) := by
  simp only [addMention, addMessageToUnreadMentionTopics, streamKey?]
  cases client.streamMessage message.id with
  | none => simp
  | some streamTopic =>
      dsimp only
      rw [mem_addToMentionTopics]
      simp [eq_comm]

theorem mem_mentions_addMention (message : UnreadMessageData Id) (id : Id) :
    id ∈ (store.addMention toLowerCase client message).unreadMentionsCounter.keys ↔
      id = message.id ∨ id ∈ store.unreadMentionsCounter.keys :=
  Dict.mem_keys_set

/-- The cache stays right when the topic of the message is found in the stream data, or nothing is
found there and the mention is an old one. -/
theorem cacheIndexed_addMention_iff (indexed : store.CacheIndexed toLowerCase)
    (message : UnreadMessageData Id) :
    (store.addMention toLowerCase client message).CacheIndexed toLowerCase ↔
      (streamKey? toLowerCase client message.id = store.topicKey? toLowerCase message.id ∨
        (streamKey? toLowerCase client message.id = none ∧
          message.id ∈ store.unreadMentionsCounter.keys)) := by
  have others : ∀ other ≠ message.id, (store.addMention toLowerCase client message).mentionKey?
      toLowerCase other = store.mentionKey? toLowerCase other := fun other differs =>
    if_congr ((mem_mentions_addMention message other).trans (or_iff_right differs)) rfl rfl
  have own : (store.addMention toLowerCase client message).mentionKey? toLowerCase message.id =
      store.topicKey? toLowerCase message.id :=
    if_pos ((mem_mentions_addMention message _).mpr (.inl rfl))
  rw [CacheIndexed, indexed.iff_of_others message.id (fun other differs key => by
    rw [mem_addMention]
    exact or_iff_left fun added => differs added.1) others]
  have ownMember : ∀ key, message.id ∈ (store.addMention toLowerCase client
      message).unreadMentionTopics.getD key ∅ ↔
        store.mentionKey? toLowerCase message.id = some key ∨
          streamKey? toLowerCase client message.id = some key := by
    intro key
    rw [mem_addMention, and_iff_right rfl]
    exact or_congr_left (by simpa using indexed message.id key)
  simp only [ownMember, own, Option.map_id, id]
  by_cases before : message.id ∈ store.unreadMentionsCounter.keys
  · rw [mentionKey?, if_pos before]
    cases streamKey? toLowerCase client message.id with
    | none => simp [before]
    | some streamKey =>
        simp only [Option.some.injEq, or_iff_left_iff_imp, forall_eq', before, reduceCtorEq,
          false_and, or_false]
        exact eq_comm
  · rw [mentionKey?, if_neg before]
    simp only [reduceCtorEq, false_or, before, and_false, or_false]
    exact Option.ext_iff.symm

/-- Entering a mention keeps the collections consistent exactly when it is allowed. -/
theorem Consistent.addMention_iff (consistent : store.Consistent toLowerCase)
    (message : UnreadMessageData Id) :
    (store.addMention toLowerCase client message).Consistent toLowerCase ↔
      AllowsMention toLowerCase client store message := by
  have sameTopicIff := @cacheIndexed_addMention_iff _ _ toLowerCase client store
    (cache_iff.mp consistent.cache) message
  constructor
  · intro after
    have isMention :=
      (@mem_mentions_addMention _ _ toLowerCase client store message _).mpr (.inl rfl)
    refine ⟨after.mentions _ isMention, ?_, sameTopicIff.mp (cache_iff.mp after.cache)⟩
    have direct := after.directMentions message.id
    rw [and_iff_right isMention] at direct
    cases isKind : message.kind with
    | direct userIdsString =>
        refine direct.mp ?_
        simp [addMention, isKind]
    | stream streamId topic =>
        by_contra neither
        rw [not_or] at neither
        have isDirect : message.id ∈ store.directMessageWithMentionCount := by
          simpa [addMention, addMessageToUnreadMentionTopics, isKind] using direct.mpr neither.1
        exact neither.2 ((consistent.directMentions _).mp isDirect).1
  · intro allows
    refine ⟨⟨consistent.directMessages, consistent.topics, consistent.oneBucket,
      consistent.bucketed, fun id member => ?_, fun id => ?_⟩,
      cache_iff.mpr (sameTopicIff.mpr allows.sameTopic)⟩
    · rcases (mem_mentions_addMention message id).mp member with rfl | before
      · exact allows.tracked
      · exact consistent.mentions id before
    · have sameKind := allows.sameKind
      rw [mem_mentions_addMention]
      have before := consistent.directMentions id
      cases isKind : message.kind with
      | direct userIdsString =>
          rw [isKind] at sameKind
          simp only [addMention, addMessageToUnreadMentionTopics, isKind, Finset.mem_insert, before]
          constructor
          · rintro (rfl | ⟨isMember, isDirect⟩)
            · exact ⟨.inl rfl, sameKind⟩
            · exact ⟨.inr isMember, isDirect⟩
          · rintro ⟨rfl | isMember, isDirect⟩
            · exact .inl rfl
            · exact .inr ⟨isMember, isDirect⟩
      | stream streamId topic =>
          rw [isKind] at sameKind
          simp only [addMention, addMessageToUnreadMentionTopics, isKind, before]
          refine and_congr_left fun isDirect => (or_iff_right_of_imp ?_).symm
          rintro rfl
          exact sameKind.resolve_left isDirect

/-- The message enters as a mention. -/
def enters (client : ClientState Id) (message : UnreadMessageData Id) : Prop :=
  message.unread = true ∧
    (isUnmutedMention client message = true ∨ message.mentionedMeDirectly = true)

theorem updateMessageForMention_of_enters {message : UnreadMessageData Id} {contentEdited : Bool}
    (isMention : enters client message) :
    (store.updateMessageForMention toLowerCase client message contentEdited).1 =
      store.addMention toLowerCase client message := by
  obtain ⟨isUnread, counts⟩ := isMention
  rw [← Bool.or_eq_true] at counts
  unfold updateMessageForMention
  rw [isUnread]
  cases message.kind <;> simp [counts]

theorem updateMessageForMention_of_not_enters {message : UnreadMessageData Id} {contentEdited : Bool}
    (notMention : ¬enters client message) :
    (store.updateMessageForMention toLowerCase client message contentEdited).1 =
      store.removeMention toLowerCase message.id := by
  unfold updateMessageForMention
  cases isUnread : message.unread with
  | false => rfl
  | true =>
      have counts : ¬(isUnmutedMention client message || message.mentionedMeDirectly) = true :=
        fun counts => notMention ⟨isUnread, Bool.or_eq_true_iff.mp counts⟩
      cases message.kind <;> simp [counts]

theorem Consistent.updateMessageForMention_iff (consistent : store.Consistent toLowerCase)
    (message : UnreadMessageData Id) (contentEdited : Bool) :
    (store.updateMessageForMention toLowerCase client message contentEdited).1.Consistent
        toLowerCase ↔
      (enters client message → AllowsMention toLowerCase client store message) := by
  by_cases isMention : enters client message
  · rw [updateMessageForMention_of_enters isMention, consistent.addMention_iff]
    simp [isMention]
  · rw [updateMessageForMention_of_not_enters isMention]
    exact iff_of_true (consistent.removeMention _) fun enters => absurd enters isMention

end Mentions

/-! ## Tracking -/

section Tracking

variable {toLowerCase} {client} {store}

theorem Tracking.untracked (tracking : store.Tracking toLowerCase) {id : Id}
    (notUnread : id ∉ store.unreadMessages) :
    store.directMessageCounter.reverseLookup.get? id = none ∧
      store.topicCounter.reverseLookup.get? id = none ∧ id ∉ store.unreadMentionsCounter.keys := by
  have noBucket := not_or.mp (mt (tracking.bucketed id).mpr notUnread)
  exact ⟨not_not.mp noBucket.1, not_not.mp noBucket.2,
    fun isMention => notUnread (tracking.mentions id isMention)⟩

/-- The mentions keep their topics. -/
theorem Tracking.mentionKey?_trackMessage (tracking : store.Tracking toLowerCase)
    {message : UnreadMessageData Id} (notUnread : message.id ∉ store.unreadMessages) (id : Id) :
    (store.trackMessage toLowerCase message).mentionKey? toLowerCase id =
      store.mentionKey? toLowerCase id := by
  obtain ⟨-, -, noMention⟩ := tracking.untracked notUnread
  by_cases isMention : id ∈ store.unreadMentionsCounter.keys
  · have sameTopic : (store.trackMessage toLowerCase message).topicKey? toLowerCase id =
        store.topicKey? toLowerCase id := by
      unfold topicKey? UnreadStore.trackMessage
      cases message.kind with
      | direct userIdsString => rfl
      | stream streamId topic =>
          have differs : id ≠ message.id := by
            rintro rfl
            exact noMention isMention
          dsimp only
          rw [TopicCounter.get?_add, if_neg differs]
    rw [mentionKey?, mentionKey?, sameTopic]
    rfl
  · exact (if_neg isMention).trans (if_neg isMention).symm

/-- A direct message goes to the bucket of its people. -/
theorem Tracking.trackMessage_direct (tracking : store.Tracking toLowerCase)
    {message : UnreadMessageData Id} (notUnread : message.id ∉ store.unreadMessages)
    {userIdsString : String} (isKind : message.kind = .direct userIdsString)
    (isNamed : userIdsString ≠ "") :
    (store.trackMessage toLowerCase message).Tracking toLowerCase := by
  obtain ⟨noDirect, noTopic, noMention⟩ := tracking.untracked notUnread
  have isDirect : (store.trackMessage toLowerCase message).directMessageCounter =
      store.directMessageCounter.add message.id userIdsString := by
    simp only [UnreadStore.trackMessage, isKind]
  have isTopic : (store.trackMessage toLowerCase message).topicCounter = store.topicCounter := by
    simp only [UnreadStore.trackMessage, isKind]
  have lookup : ∀ id, (store.trackMessage toLowerCase
      message).directMessageCounter.reverseLookup.get? id =
        if id = message.id then some userIdsString
        else store.directMessageCounter.reverseLookup.get? id := by
    intro id
    rw [isDirect, DirectMessageCounter.get?_add]
    simp [isNamed]
  refine ⟨?_, ?_, fun id => ?_, fun id => ?_, fun id isMention => ?_, fun id => ?_⟩
  · rw [isDirect]
    exact tracking.directMessages.add isNamed noDirect
  · rw [isTopic]
    exact tracking.topics
  · rw [lookup, isTopic]
    by_cases same : id = message.id
    · subst same
      exact .inr noTopic
    · rw [if_neg same]
      exact tracking.oneBucket id
  · rw [lookup, isTopic]
    by_cases same : id = message.id
    · simp [same, UnreadStore.trackMessage]
    · simpa [same, UnreadStore.trackMessage] using tracking.bucketed id
  · exact Finset.mem_insert_of_mem (tracking.mentions id isMention)
  · refine (tracking.directMentions id).trans (and_congr_right fun isMention => ?_)
    have differs : id ≠ message.id := by
      rintro rfl
      exact noMention isMention
    rw [lookup, if_neg differs]

/-- A stream message goes to the bucket of its topic. -/
theorem Tracking.trackMessage_stream (tracking : store.Tracking toLowerCase)
    {message : UnreadMessageData Id} (notUnread : message.id ∉ store.unreadMessages)
    {streamId : Nat} {topic : String} (isKind : message.kind = .stream streamId topic) :
    (store.trackMessage toLowerCase message).Tracking toLowerCase := by
  obtain ⟨noDirect, noTopic, -⟩ := tracking.untracked notUnread
  have isDirect : (store.trackMessage toLowerCase message).directMessageCounter =
      store.directMessageCounter := by
    simp only [UnreadStore.trackMessage, isKind]
  have isTopic : (store.trackMessage toLowerCase message).topicCounter =
      store.topicCounter.add toLowerCase message.id streamId topic := by
    simp only [UnreadStore.trackMessage, isKind]
  refine ⟨?_, ?_, fun id => ?_, fun id => ?_, fun id isMention => ?_, fun id => ?_⟩
  · rw [isDirect]
    exact tracking.directMessages
  · rw [isTopic]
    exact tracking.topics.add noTopic streamId topic
  · rw [isDirect, isTopic, TopicCounter.get?_add]
    by_cases same : id = message.id
    · subst same
      exact .inl noDirect
    · rw [if_neg same]
      exact tracking.oneBucket id
  · rw [isDirect, isTopic, TopicCounter.get?_add]
    by_cases same : id = message.id
    · simp [same, UnreadStore.trackMessage]
    · simpa [same, UnreadStore.trackMessage] using tracking.bucketed id
  · exact Finset.mem_insert_of_mem (tracking.mentions id isMention)
  · rw [isDirect]
    exact tracking.directMentions id

/-- A message that was not tracked gets its bucket. -/
theorem Consistent.trackMessage (consistent : store.Consistent toLowerCase)
    {message : UnreadMessageData Id} (notUnread : message.id ∉ store.unreadMessages)
    (named : message.kind ≠ .direct "") :
    (store.trackMessage toLowerCase message).Consistent toLowerCase := by
  refine ⟨?_, cache_iff.mpr ((cache_iff.mp consistent.cache).congr rfl
    (consistent.mentionKey?_trackMessage notUnread))⟩
  cases isKind : message.kind with
  | direct userIdsString =>
      have isNamed : userIdsString ≠ "" := by
        rintro rfl
        exact named isKind
      exact consistent.trackMessage_direct notUnread isKind isNamed
  | stream streamId topic => exact consistent.trackMessage_stream notUnread isKind

/-- What the condition on mentions says of a message that is new. -/
theorem Consistent.allowsMention_trackMessage (consistent : store.Consistent toLowerCase)
    {message : UnreadMessageData Id} (notUnread : message.id ∉ store.unreadMessages)
    (named : message.kind ≠ .direct "") :
    AllowsMention toLowerCase client (store.trackMessage toLowerCase message) message ↔
      streamKey? toLowerCase client message.id = message.kind.topicKey? toLowerCase := by
  obtain ⟨noDirect, noTopic, noMention⟩ := consistent.untracked notUnread
  have isTopic : (store.trackMessage toLowerCase message).topicKey? toLowerCase message.id =
      message.kind.topicKey? toLowerCase := by
    unfold topicKey? UnreadStore.trackMessage
    cases message.kind with
    | direct userIdsString => simp [noTopic, MessageKind.topicKey?]
    | stream streamId topic => simp [TopicCounter.get?_add, MessageKind.topicKey?]
  rw [← isTopic]
  constructor
  · intro allows
    exact allows.sameTopic.resolve_right fun mentioned => noMention mentioned.2
  · intro sameTopic
    refine ⟨Finset.mem_insert_self _ _, ?_, .inl sameTopic⟩
    cases isKind : message.kind with
    | direct userIdsString =>
        have isNamed : userIdsString ≠ "" := by
          rintro rfl
          exact named isKind
        simp [UnreadStore.trackMessage, isKind, DirectMessageCounter.get?_add, isNamed]
    | stream streamId topic =>
        refine .inl ?_
        simpa only [UnreadStore.trackMessage, isKind] using noDirect

/-- Mentions do not concern the buckets. -/
theorem updateMessageForMention_tracking (toLowerCase : String → String) (client : ClientState Id)
    (store : UnreadStore Id) (message : UnreadMessageData Id) (contentEdited : Bool) :
    (store.updateMessageForMention toLowerCase client message contentEdited).1.unreadMessages =
        store.unreadMessages ∧
      (store.updateMessageForMention toLowerCase client message contentEdited).1.directMessageCounter =
        store.directMessageCounter ∧
      (store.updateMessageForMention toLowerCase client message contentEdited).1.topicCounter =
        store.topicCounter := by
  by_cases isMention : enters client message
  · rw [updateMessageForMention_of_enters isMention]
    exact ⟨rfl, rfl, rfl⟩
  · rw [updateMessageForMention_of_not_enters isMention]
    exact ⟨rfl, rfl, rfl⟩

/-- A direct message without a key has no bucket. -/
theorem Consistent.not_named (consistent : store.Consistent toLowerCase)
    {message : UnreadMessageData Id} (notUnread : message.id ∉ store.unreadMessages)
    (notNamed : message.kind = .direct "") :
    ¬(store.processUnreadMessage toLowerCase client message).Consistent toLowerCase := by
  intro after
  obtain ⟨noDirect, noTopic, -⟩ := consistent.untracked notUnread
  obtain ⟨sameUnread, sameDirect, sameTopic⟩ :=
    updateMessageForMention_tracking toLowerCase client (store.trackMessage toLowerCase message)
      message false
  have bucketed := after.bucketed message.id
  rw [processUnreadMessage, sameUnread, sameDirect, sameTopic] at bucketed
  simp [UnreadStore.trackMessage, notNamed, DirectMessageCounter.add, noDirect, noTopic] at bucketed

/-- Marking a message as read keeps the collections consistent. -/
theorem Consistent.markAsRead (consistent : store.Consistent toLowerCase) (messageId : Id) :
    (store.markAsRead toLowerCase messageId).Consistent toLowerCase := by
  have directLookup : ∀ id, (store.markAsRead toLowerCase messageId).directMessageCounter.reverseLookup.get?
      id = if id = messageId then none else store.directMessageCounter.reverseLookup.get? id :=
    DirectMessageCounter.get?_delete messageId
  have topicLookup : ∀ id, (store.markAsRead toLowerCase messageId).topicCounter.reverseLookup.get?
      id = if id = messageId then none else store.topicCounter.reverseLookup.get? id :=
    TopicCounter.get?_delete messageId
  have isMention : ∀ id, id ∈ (store.markAsRead toLowerCase messageId).unreadMentionsCounter.keys ↔
      id ≠ messageId ∧ id ∈ store.unreadMentionsCounter.keys := fun id => Dict.mem_keys_erase
  have indexed := cache_iff.mp consistent.cache
  refine ⟨⟨consistent.directMessages.delete messageId, consistent.topics.delete messageId,
    fun id => ?_, fun id => ?_, fun id member => ?_, fun id => ?_⟩,
    cache_iff.mpr (indexed.delete messageId (fun other key => ?_) ?_ fun other differs => ?_)⟩
  · rw [directLookup, topicLookup]
    split
    · exact .inl rfl
    · exact consistent.oneBucket id
  · rw [directLookup, topicLookup]
    by_cases same : id = messageId
    · simp [same, UnreadStore.markAsRead]
    · simpa [same, UnreadStore.markAsRead, removeMessageFromUnreadMentionTopics] using
        consistent.bucketed id
  · obtain ⟨differs, before⟩ := (isMention id).mp member
    exact Finset.mem_erase.mpr ⟨differs, consistent.mentions id before⟩
  · rw [isMention, directLookup]
    by_cases same : id = messageId
    · simp [same, UnreadStore.markAsRead]
    · simpa [same, UnreadStore.markAsRead, removeMessageFromUnreadMentionTopics] using
        consistent.directMentions id
  · have removed : CacheIndexed toLowerCase
        { store with directMessageCounter := store.directMessageCounter.delete messageId } := indexed
    exact mem_removeMessage removed
  · exact if_neg fun member => ((isMention _).mp member).1 rfl
  · refine if_congr ((isMention other).trans (and_iff_right differs)) ?_ rfl
    rw [topicKey?, topicLookup, if_neg differs]
    rfl

/-! ### Moves -/

/-- The event moves messages. -/
def MoveEvent.Moves (event : MoveEvent) : Prop := event.newTopic ≠ none ∨ event.newStreamId ≠ none

theorem updateUnreadTopics_of_moved {message : MovedMessage Id} {event : MoveEvent}
    (moves : event.Moves) (isUnread : message.id ∈ store.unreadMessages) :
    store.updateUnreadTopics toLowerCase message event =
      { store with
        topicCounter := (store.topicCounter.delete toLowerCase message.id).add toLowerCase message.id
          (event.newStreamId.getD message.streamId) (event.newTopic.getD message.topic) } := by
  rw [updateUnreadTopics, if_neg (fun none => moves.elim (· none.1) (· none.2)),
    if_neg (not_not.mpr isUnread)]

theorem updateUnreadTopics_of_not_moved {message : MovedMessage Id} {event : MoveEvent}
    (notMoved : ¬(event.Moves ∧ message.id ∈ store.unreadMessages)) :
    store.updateUnreadTopics toLowerCase message event = store := by
  by_cases moves : event.Moves
  · have notUnread : message.id ∉ store.unreadMessages := fun isUnread => notMoved ⟨moves, isUnread⟩
    rw [updateUnreadTopics, if_neg (fun none => moves.elim (· none.1) (· none.2)), if_pos notUnread]
  · obtain ⟨sameTopic, sameStream⟩ := not_or.mp moves
    rw [updateUnreadTopics, if_pos ⟨not_not.mp sameTopic, not_not.mp sameStream⟩]

/-- A move concerns the topic counter only. -/
theorem updateUnreadTopics_eq (message : MovedMessage Id) (event : MoveEvent) :
    store.updateUnreadTopics toLowerCase message event =
      { store with topicCounter :=
          (store.updateUnreadTopics toLowerCase message event).topicCounter } := by
  by_cases moved : event.Moves ∧ message.id ∈ store.unreadMessages
  · rw [updateUnreadTopics_of_moved moved.1 moved.2]
  · rw [updateUnreadTopics_of_not_moved moved]

/-- A move keeps what was tracked, in topics, when the message is a stream message. -/
theorem Tracking.updateUnreadTopics (tracking : store.Tracking toLowerCase)
    {message : MovedMessage Id} {event : MoveEvent}
    (notDirect : event.Moves → store.directMessageCounter.reverseLookup.get? message.id = none) :
    (store.updateUnreadTopics toLowerCase message event).Tracking toLowerCase := by
  by_cases moved : event.Moves ∧ message.id ∈ store.unreadMessages
  · obtain ⟨moves, isUnread⟩ := moved
    rw [updateUnreadTopics_of_moved moves isUnread]
    have lookup : ∀ id, ((store.topicCounter.delete toLowerCase message.id).add toLowerCase message.id
        (event.newStreamId.getD message.streamId)
        (event.newTopic.getD message.topic)).reverseLookup.get? id =
          if id = message.id then
            some (event.newStreamId.getD message.streamId, event.newTopic.getD message.topic)
          else store.topicCounter.reverseLookup.get? id := by
      intro id
      rw [TopicCounter.get?_add, TopicCounter.get?_delete]
      split <;> rfl
    refine ⟨tracking.directMessages, (tracking.topics.delete message.id).add
      (by rw [TopicCounter.get?_delete, if_pos rfl]) _ _, fun id => ?_, fun id => ?_,
      tracking.mentions, tracking.directMentions⟩
    · by_cases same : id = message.id
      · subst same
        exact .inl (notDirect moves)
      · rw [lookup, if_neg same]
        exact tracking.oneBucket id
    · rw [lookup]
      by_cases same : id = message.id
      · simp [same, isUnread]
      · simpa [same] using tracking.bucketed id
  · rwa [updateUnreadTopics_of_not_moved moved]

theorem movedStore_eq (messages : List (MovedMessage Id)) (event : MoveEvent) :
    store.movedStore toLowerCase messages event =
      { store with topicCounter := (store.movedStore toLowerCase messages event).topicCounter } := by
  induction messages generalizing store with
  | nil => rfl
  | cons message rest inductionHypothesis =>
      rw [movedStore, List.foldl_cons, ← movedStore, inductionHypothesis, updateUnreadTopics_eq]

theorem Tracking.movedStore (tracking : store.Tracking toLowerCase)
    {messages : List (MovedMessage Id)} {event : MoveEvent}
    (notDirect : event.Moves → ∀ message ∈ messages,
      store.directMessageCounter.reverseLookup.get? message.id = none) :
    (store.movedStore toLowerCase messages event).Tracking toLowerCase := by
  induction messages generalizing store with
  | nil => exact tracking
  | cons message rest inductionHypothesis =>
      refine inductionHypothesis (tracking.updateUnreadTopics fun moves =>
        notDirect moves message List.mem_cons_self) fun moves other isRest => ?_
      dsimp only
      rw [updateUnreadTopics_eq]
      exact notDirect moves other (List.mem_cons_of_mem _ isRest)

/-- An unread message that moves ends in a topic. -/
theorem movedStore_lookup {messages : List (MovedMessage Id)} {event : MoveEvent}
    (moves : event.Moves) {message : MovedMessage Id} (isMoved : message ∈ messages)
    (isUnread : message.id ∈ store.unreadMessages) :
    (store.movedStore toLowerCase messages event).topicCounter.reverseLookup.get? message.id ≠
      none := by
  have stays : ∀ (rest : List (MovedMessage Id)) (start : UnreadStore Id),
      start.topicCounter.reverseLookup.get? message.id ≠ none →
        (start.movedStore toLowerCase rest event).topicCounter.reverseLookup.get? message.id ≠
          none := by
    intro rest
    induction rest with
    | nil => exact fun start isPlaced => isPlaced
    | cons other rest inductionHypothesis =>
        intro start isPlaced
        refine inductionHypothesis _ ?_
        by_cases moved : event.Moves ∧ other.id ∈ start.unreadMessages
        · dsimp only
          rw [updateUnreadTopics_of_moved moved.1 moved.2, TopicCounter.get?_add,
            TopicCounter.get?_delete]
          split
          · simp
          · exact isPlaced
        · dsimp only
          rwa [updateUnreadTopics_of_not_moved moved]
  induction messages generalizing store with
  | nil => cases isMoved
  | cons first rest inductionHypothesis =>
      rcases List.mem_cons.mp isMoved with rfl | isRest
      · refine stays rest _ ?_
        dsimp only
        rw [updateUnreadTopics_of_moved moves isUnread, TopicCounter.get?_add, if_pos rfl]
        simp
      · refine inductionHypothesis isRest ?_
        dsimp only
        rwa [updateUnreadTopics_eq]

/-- Moving messages keeps the collections consistent exactly when they are stream messages. -/
theorem Consistent.moveMessages_iff (consistent : store.Consistent toLowerCase)
    (messages : List (MovedMessage Id)) (event : MoveEvent) :
    (store.moveMessages toLowerCase messages event).Consistent toLowerCase ↔
      (event.Moves → ∀ message ∈ messages,
        store.directMessageCounter.reverseLookup.get? message.id = none) := by
  constructor
  · intro after moves message isMoved
    by_contra isDirect
    have isUnread := (consistent.bucketed message.id).mpr (.inl isDirect)
    have sameDirect : (store.moveMessages toLowerCase messages event).directMessageCounter =
        store.directMessageCounter := by
      rw [moveMessages, movedStore_eq]
      rfl
    rcases after.oneBucket message.id with noDirect | noTopic
    · rw [sameDirect] at noDirect
      exact isDirect noDirect
    · exact movedStore_lookup moves isMoved isUnread noTopic
  · intro notDirect
    have tracking := consistent.toTracking.movedStore notDirect
    exact {
      directMessages := tracking.directMessages
      topics := tracking.topics
      oneBucket := tracking.oneBucket
      bucketed := tracking.bucketed
      mentions := tracking.mentions
      directMentions := tracking.directMentions
      cache := cache_iff.mpr cacheIndexed_clearAndPopulate }

end Tracking

end UnreadStore

end Zulip.Client
