import Mathlib.Algebra.BigOperators.Ring.Finset
import Zulip.Client.UnreadRuns
import Zulip.Register.UserTopics

/-!
# The count on the desktop icon

The unread counts are taken by traversals of the collections, and the count on the desktop icon is
put together from them. `notifiableCount_exact_iff` says for which stores it counts every message
once.
-/

namespace Zulip.Client

open UserTopics (VisibilityPolicy)

variable {Id : Type} [DecidableEq Id]

/-! ## Streams and policies -/

/-- The fields of a stream that the counts read. -/
structure StreamSubscription where
  subscribed : Bool
  isMuted : Bool

/-- The streams of `sub_store` and the policies of `user_topics`. -/
structure Subscriptions where
  subsByStreamId : Dict Nat StreamSubscription
  allUserTopics : Dict Nat (FoldDict VisibilityPolicy)

namespace Subscriptions

variable (toLowerCase : String → String) (client : Subscriptions)

/-- `stream_data.is_subscribed`. -/
def isSubscribed (streamId : Nat) : Bool :=
  match client.subsByStreamId.get? streamId with
  | some sub => sub.subscribed
  | none => false

/-- `get_topic_visibility_policy`. -/
def getTopicVisibilityPolicy (streamId : Nat) (topic : String) : VisibilityPolicy :=
  ((client.allUserTopics.get? streamId).bind fun subDict => subDict.get? toLowerCase topic).getD
    .inherit

def isTopicFollowed (streamId : Nat) (topic : String) : Bool :=
  client.getTopicVisibilityPolicy toLowerCase streamId topic = .followed

def isTopicUnmuted (streamId : Nat) (topic : String) : Bool :=
  client.getTopicVisibilityPolicy toLowerCase streamId topic = .unmuted

def isTopicMuted (streamId : Nat) (topic : String) : Bool :=
  client.getTopicVisibilityPolicy toLowerCase streamId topic = .muted

def isTopicUnmutedOrFollowed (streamId : Nat) (topic : String) : Bool :=
  client.isTopicUnmuted toLowerCase streamId topic ||
    client.isTopicFollowed toLowerCase streamId topic

variable {toLowerCase} {client}

/-- A policy does not depend on the case of the topic. -/
theorem isTopicFollowed_congr {streamId : Nat} {topic other : String}
    (same : toLowerCase topic = toLowerCase other) :
    client.isTopicFollowed toLowerCase streamId topic =
      client.isTopicFollowed toLowerCase streamId other := by
  unfold isTopicFollowed getTopicVisibilityPolicy FoldDict.get?
  rw [same]

end Subscriptions

/-! ## The counts -/

/-- `DirectMessageCountInfo`. -/
structure DirectMessageCountInfo where
  totalCount : Nat
  pmDict : Dict String Nat

/-- `get_counts` of the direct messages. -/
def DirectMessageCounter.getCounts (counter : DirectMessageCounter Id) : DirectMessageCountInfo :=
  counter.bucketer.entries.foldl (fun info bucket =>
    let count := bucket.2.card
    { totalCount := info.totalCount + count, pmDict := info.pmDict.set bucket.1 count })
    ⟨0, Dict.empty⟩

/-- `StreamCountInfo`. -/
structure StreamCountInfo where
  unmutedCount : Nat
  mutedCount : Nat
  followedCount : Nat
  streamIsMuted : Bool

/-- `UnreadStreamCounts`. -/
structure UnreadStreamCounts where
  streamUnreadMessages : Nat
  followedTopicUnreadMessages : Nat
  streamCount : Dict Nat StreamCountInfo

namespace TopicCounter

variable (toLowerCase : String → String) (client : Subscriptions) (counter : TopicCounter Id)

/-- One iteration of `get_stream_count_info`. -/
def countTopic (streamId : Nat) (info : StreamCountInfo) (item : String × Finset Id) :
    StreamCountInfo :=
  let topicCount := item.2.card
  let info :=
    if client.isTopicFollowed toLowerCase streamId item.1 then
      { info with followedCount := info.followedCount + topicCount }
    else info
  if client.isTopicUnmutedOrFollowed toLowerCase streamId item.1 then
    { info with unmutedCount := info.unmutedCount + topicCount }
  else if client.isTopicMuted toLowerCase streamId item.1 then
    { info with mutedCount := info.mutedCount + topicCount }
  else if ((client.subsByStreamId.get? streamId).map StreamSubscription.isMuted).getD false then
    { info with mutedCount := info.mutedCount + topicCount }
  else { info with unmutedCount := info.unmutedCount + topicCount }

/-- `get_stream_count_info`. -/
def getStreamCountInfo (streamId : Nat) : StreamCountInfo :=
  match counter.bucketer.get? streamId with
  | none => ⟨0, 0, 0, false⟩
  | some perStreamBucketer =>
      (perStreamBucketer.items.values.foldl (countTopic toLowerCase client streamId)
        ⟨0, 0, 0, ((client.subsByStreamId.get? streamId).map StreamSubscription.isMuted).getD
          false⟩)

/-- `get_counts` of the topics. Streams that the user is not subscribed to are ignored. -/
def getCounts : UnreadStreamCounts :=
  counter.bucketer.keys.foldl (fun counts streamId =>
    if (client.subsByStreamId.get? streamId).isNone || !client.isSubscribed streamId then counts
    else
      let info := counter.getStreamCountInfo toLowerCase client streamId
      { streamUnreadMessages := counts.streamUnreadMessages + info.unmutedCount
        followedTopicUnreadMessages := counts.followedTopicUnreadMessages + info.followedCount
        streamCount := counts.streamCount.set streamId info })
    ⟨0, 0, Dict.empty⟩

end TopicCounter

/-- The numbers of `FullUnreadCountsData`, with the counts by stream and by conversation. -/
structure FullUnreadCountsData where
  directMessageCount : Nat
  mentionedMessageCount : Nat
  directMessageWithMentionCount : Nat
  streamUnreadMessages : Nat
  followedTopicUnreadMessagesCount : Nat
  followedTopicUnreadMessagesWithMentionCount : Nat
  streamCount : Dict Nat StreamCountInfo
  pmCount : Dict String Nat
  homeUnreadMessages : Nat

/-- `desktop_icon_count_display_values`. -/
inductive DesktopIconCountDisplay where
  | messages
  | dmMentionFollowedTopic
  | dmMention
  | none
deriving DecidableEq

namespace UnreadStore

variable (toLowerCase : String → String) (client : Subscriptions) (store : UnreadStore Id)

/-- `get_followed_topic_unread_mentions`. -/
def getFollowedTopicUnreadMentions : Nat :=
  store.unreadMentionsCounter.keys.foldl (fun mentions messageId =>
    match store.topicCounter.reverseLookup.get? messageId with
    | none => mentions
    | some (streamId, topic) =>
        if client.isTopicFollowed toLowerCase streamId topic then mentions + 1 else mentions) 0

/-- `get_counts`. -/
def getCounts : FullUnreadCountsData :=
  let topicRes := store.topicCounter.getCounts toLowerCase client
  let pmRes := store.directMessageCounter.getCounts
  { directMessageCount := pmRes.totalCount
    mentionedMessageCount := store.unreadMentionsCounter.keys.length
    directMessageWithMentionCount := store.directMessageWithMentionCount.card
    streamUnreadMessages := topicRes.streamUnreadMessages
    followedTopicUnreadMessagesCount := topicRes.followedTopicUnreadMessages
    followedTopicUnreadMessagesWithMentionCount :=
      store.getFollowedTopicUnreadMentions toLowerCase client
    streamCount := topicRes.streamCount
    pmCount := pmRes.pmDict
    homeUnreadMessages := topicRes.streamUnreadMessages + pmRes.totalCount }

end UnreadStore

/-- `calculate_notifiable_count`. -/
def calculateNotifiableCount (display : DesktopIconCountDisplay) (res : FullUnreadCountsData) : Int :=
  let dmMentionCount : Int :=
    -- Avoid double-counting direct messages containing mentions.
    res.mentionedMessageCount + res.directMessageCount - res.directMessageWithMentionCount
  match display with
  | .dmMention => dmMentionCount
  | .dmMentionFollowedTopic =>
      -- Avoid double-counting followed topic messages containing mentions.
      dmMentionCount + res.followedTopicUnreadMessagesCount -
        res.followedTopicUnreadMessagesWithMentionCount
  | .none => 0
  | .messages => res.homeUnreadMessages

/-! ## The messages that are counted -/

namespace UnreadStore

variable (toLowerCase : String → String) (client : Subscriptions) (store : UnreadStore Id)

def isDirectMessage (messageId : Id) : Bool :=
  (store.directMessageCounter.reverseLookup.get? messageId).isSome

def isMention (messageId : Id) : Bool := messageId ∈ store.unreadMentionsCounter.keys

/-- The message is in a followed topic. -/
def inFollowedTopic (messageId : Id) : Bool :=
  (store.topicCounter.reverseLookup.get? messageId).any fun streamTopic =>
    client.isTopicFollowed toLowerCase streamTopic.1 streamTopic.2

/-- The message is in a stream that the user is subscribed to. -/
def inSubscribedStream (messageId : Id) : Bool :=
  (store.topicCounter.reverseLookup.get? messageId).any fun streamTopic =>
    client.isSubscribed streamTopic.1

/-- The unread messages that are direct messages or contain a mention. -/
def dmsAndMentions : Finset Id :=
  store.unreadMessages.filter fun messageId =>
    store.isDirectMessage messageId || store.isMention messageId

/-- These, and the unread messages in followed topics of subscribed streams. -/
def dmsMentionsAndFollowed : Finset Id :=
  store.unreadMessages.filter fun messageId =>
    store.isDirectMessage messageId || store.isMention messageId ||
      (store.inFollowedTopic toLowerCase client messageId &&
        store.inSubscribedStream client messageId)

/-- The mentions in followed topics that the counts of followed topics leave out. -/
def ignoredMentions : Finset Id :=
  store.unreadMessages.filter fun messageId =>
    store.isMention messageId && store.inFollowedTopic toLowerCase client messageId &&
      !store.inSubscribedStream client messageId

end UnreadStore

/-! ## Topics under their folded names -/

/-- The topics of every stream are kept under their names in lower case. -/
def TopicCounter.Folded (toLowerCase : String → String) (counter : TopicCounter Id) : Prop :=
  ∀ streamId perStream, counter.bucketer.get? streamId = some perStream →
    ∀ key item, perStream.items.get? key = some item → toLowerCase item.1 = key

namespace TopicCounter

variable {toLowerCase : String → String} {client : Subscriptions} {counter : TopicCounter Id}

theorem Folded.add (folded : counter.Folded toLowerCase) (messageId : Id) (streamId : Nat)
    (topic : String) : (counter.add toLowerCase messageId streamId topic).Folded toLowerCase := by
  have before : ∀ key item, (counter.bucketer.getD streamId FoldDict.empty).items.get? key =
      some item → toLowerCase item.1 = key := by
    intro key item isItem
    unfold Dict.getD at isItem
    cases found : counter.bucketer.get? streamId with
    | none =>
        rw [found] at isItem
        cases isItem
    | some perStream =>
        rw [found] at isItem
        exact folded streamId perStream found key item isItem
  intro other perStream isStream key item isItem
  unfold TopicCounter.add at isStream
  rw [Dict.get?_set] at isStream
  split_ifs at isStream with same
  · cases isStream
    unfold FoldDict.mutate at isItem
    rw [Dict.get?_modify] at isItem
    -- A topic that is not there yet enters with its own name.
    have withTopic : ∀ key item, ((counter.bucketer.getD streamId FoldDict.empty).set toLowerCase
        topic ∅).items.get? key = some item → toLowerCase item.1 = key := by
      intro key item isItem
      unfold FoldDict.set at isItem
      rw [Dict.get?_set] at isItem
      split_ifs at isItem with isTopic
      · cases isItem
        exact isTopic.symm
      · exact before key item isItem
    split_ifs at isItem with isTopic
    · obtain ⟨old, isOld, rfl⟩ := Option.map_eq_some_iff.mp isItem
      refine Eq.trans ?_ isTopic.symm
      split at isOld
      · exact withTopic _ old isOld
      · exact before _ old isOld
    · split at isItem
      · exact withTopic key item isItem
      · exact before key item isItem
  · exact folded other perStream isStream key item isItem

theorem Folded.delete (folded : counter.Folded toLowerCase) (messageId : Id) :
    (counter.delete toLowerCase messageId).Folded toLowerCase := by
  intro other perStream isStream key item isItem
  unfold TopicCounter.delete at isStream
  split at isStream
  · exact folded other perStream isStream key item isItem
  · rename_i streamTopic _
    rw [Dict.get?_modify] at isStream
    split_ifs at isStream with same
    · obtain ⟨old, isOld, rfl⟩ := Option.map_eq_some_iff.mp isStream
      unfold FoldDict.mutate at isItem
      rw [Dict.get?_modify] at isItem
      split_ifs at isItem with isTopic
      · obtain ⟨oldItem, isOldItem, rfl⟩ := Option.map_eq_some_iff.mp isItem
        exact (folded _ old isOld _ oldItem isOldItem).trans isTopic.symm
      · exact folded _ old isOld key item isItem
    · exact folded other perStream isStream key item isItem

end TopicCounter

/-- Every change of the store keeps the topics under their folded names. -/
theorem UnreadStore.folded_perform {toLowerCase : String → String} {store : UnreadStore Id}
    (folded : store.topicCounter.Folded toLowerCase) (action : UnreadAction Id) :
    (store.perform toLowerCase action).topicCounter.Folded toLowerCase := by
  have mention : ∀ (store : UnreadStore Id) client message contentEdited,
      (store.updateMessageForMention toLowerCase client message contentEdited).1.topicCounter =
        store.topicCounter := by
    intro store client message contentEdited
    unfold updateMessageForMention
    split
    · rfl
    · split <;> split <;> rfl
  cases action with
  | processUnreadMessage client message =>
      have tracked : (store.trackMessage toLowerCase message).topicCounter.Folded toLowerCase := by
        unfold trackMessage
        cases message.kind with
        | direct userIdsString => exact folded
        | stream streamId topic => exact folded.add message.id streamId topic
      change ((store.trackMessage toLowerCase message).updateMessageForMention toLowerCase client
        message false).1.topicCounter.Folded toLowerCase
      rw [mention]
      exact tracked
  | markAsRead messageId => exact folded.delete messageId
  | updateMessageForMention client message contentEdited =>
      change (store.updateMessageForMention toLowerCase client message
        contentEdited).1.topicCounter.Folded toLowerCase
      rw [mention]
      exact folded
  | moveMessages messages event =>
      change (store.movedStore toLowerCase messages event).topicCounter.Folded toLowerCase
      unfold movedStore
      induction messages generalizing store with
      | nil => exact folded
      | cons message rest inductionHypothesis =>
          have moved : (store.updateUnreadTopics toLowerCase message
              event).topicCounter.Folded toLowerCase := by
            unfold updateUnreadTopics
            split
            · exact folded
            · split
              · exact folded
              · exact (folded.delete message.id).add message.id _ _
          exact inductionHypothesis moved

/-- In a run from the empty store, all topics are kept under their folded names. -/
theorem UnreadStore.folded_of_run {toLowerCase : String → String} {final : UnreadStore Id}
    {trace : List (UnreadStore Id × UnreadAction Id)}
    (run : Run (Step toLowerCase) UnreadStore.empty trace final) :
    final.topicCounter.Folded toLowerCase := by
  have initial : (UnreadStore.empty : UnreadStore Id).topicCounter.Folded toLowerCase := by
    intro streamId perStream isStream
    cases isStream
  refine @Run.invariant _ _ _ (fun store => store.topicCounter.Folded toLowerCase) _ _ _ run initial
    ?_
  rintro store action next folded ⟨-, rfl⟩
  exact folded_perform folded action

/-! ## What the traversals count -/

/-- The direct messages are counted by conversation. -/
theorem DirectMessageCounter.getCounts_totalCount {counter : DirectMessageCounter Id}
    (indexed : counter.Indexed) {items : Finset Id}
    (placed : ∀ id, counter.reverseLookup.get? id ≠ none → id ∈ items) :
    counter.getCounts.totalCount =
      (items.filter fun id => (counter.reverseLookup.get? id).isSome).card := by
  have total : ∀ (buckets : List (String × Finset Id)) (info : DirectMessageCountInfo),
      (buckets.foldl (fun info bucket =>
        ({ totalCount := info.totalCount + bucket.2.card
           pmDict := info.pmDict.set bucket.1 bucket.2.card } : DirectMessageCountInfo))
        info).totalCount = info.totalCount + (buckets.map fun bucket => bucket.2.card).sum := by
    intro buckets
    induction buckets with
    | nil => exact fun info => rfl
    | cons bucket rest inductionHypothesis =>
        intro info
        rw [List.foldl_cons, inductionHypothesis, List.map_cons, List.sum_cons, Nat.add_assoc]
  have sizes : (counter.bucketer.entries.map fun bucket => bucket.2.card) =
      counter.bucketer.keys.map fun key => (counter.members key).card := by
    unfold Dict.keys
    rw [List.map_map]
    refine List.map_congr_left fun bucket member => ?_
    rw [Function.comp_apply, DirectMessageCounter.members, Dict.getD,
      Dict.get?_eq_some_iff.mpr member, Option.getD_some]
  have counted := Zulip.Indexed.sum_card indexed placed counter.bucketer.keys_nodup
  unfold getCounts
  rw [total, Nat.zero_add, sizes, counted]
  refine congrArg Finset.card (Finset.filter_congr fun id _ => ?_)
  cases found : counter.reverseLookup.get? id with
  | none => simp
  | some key =>
      have isMember : id ∈ counter.members key := by
        rw [indexed id key, found]
        rfl
      have isKey : key ∈ counter.bucketer.keys := by
        by_contra absent
        rw [DirectMessageCounter.members, Dict.getD, Dict.get?_eq_none_iff.mpr absent] at isMember
        exact Finset.notMem_empty id isMember
      exact iff_of_true ⟨key, isKey, rfl⟩ rfl

namespace TopicCounter

variable {toLowerCase : String → String} {client : Subscriptions} {counter : TopicCounter Id}

/-- The buckets whose messages are counted as followed. -/
def followedBuckets (toLowerCase : String → String) (client : Subscriptions)
    (counter : TopicCounter Id) : List (Nat × String) :=
  (counter.bucketer.keys.filter fun streamId => client.isSubscribed streamId).flatMap
    fun streamId =>
      ((counter.bucketer.getD streamId FoldDict.empty).items.entries.filter fun entry =>
        client.isTopicFollowed toLowerCase streamId entry.2.1).map fun entry => (streamId, entry.1)

/-- A stream is asked for its counts when the user is subscribed to it. -/
theorem ignored_iff (streamId : Nat) :
    ((client.subsByStreamId.get? streamId).isNone || !client.isSubscribed streamId) =
      !client.isSubscribed streamId := by
  unfold Subscriptions.isSubscribed
  cases client.subsByStreamId.get? streamId <;> rfl

omit [DecidableEq Id] in
theorem countTopic_followedCount (streamId : Nat) (info : StreamCountInfo)
    (item : String × Finset Id) :
    (countTopic toLowerCase client streamId info item).followedCount =
      info.followedCount +
        if client.isTopicFollowed toLowerCase streamId item.1 then item.2.card else 0 := by
  unfold countTopic
  dsimp only
  split_ifs <;> rfl

omit [DecidableEq Id] in
theorem getStreamCountInfo_followedCount (streamId : Nat) :
    (counter.getStreamCountInfo toLowerCase client streamId).followedCount =
      (((counter.bucketer.getD streamId FoldDict.empty).items.entries.filter fun entry =>
        client.isTopicFollowed toLowerCase streamId entry.2.1).map fun entry =>
          entry.2.2.card).sum := by
  have total : ∀ (entries : List (String × String × Finset Id)) (info : StreamCountInfo),
      ((entries.map Prod.snd).foldl (countTopic toLowerCase client streamId) info).followedCount =
        info.followedCount + ((entries.filter fun entry =>
          client.isTopicFollowed toLowerCase streamId entry.2.1).map fun entry =>
            entry.2.2.card).sum := by
    intro entries
    induction entries with
    | nil => exact fun info => rfl
    | cons entry rest inductionHypothesis =>
        intro info
        rw [List.map_cons, List.foldl_cons, inductionHypothesis, countTopic_followedCount]
        by_cases followed : client.isTopicFollowed toLowerCase streamId entry.2.1 = true
        · rw [if_pos followed, List.filter_cons, if_pos followed, List.map_cons, List.sum_cons,
            Nat.add_assoc]
        · rw [if_neg followed, List.filter_cons, if_neg followed, Nat.add_zero]
  unfold getStreamCountInfo Dict.getD
  cases counter.bucketer.get? streamId with
  | none => rfl
  | some perStream => exact (total _ _).trans (Nat.zero_add _)

omit [DecidableEq Id] in
theorem getCounts_followed :
    (counter.getCounts toLowerCase client).followedTopicUnreadMessages =
      ((counter.followedBuckets toLowerCase client).map fun bucket =>
        (counter.members bucket).card).sum := by
  have total : ∀ (streams : List Nat) (counts : UnreadStreamCounts),
      (streams.foldl (fun counts streamId =>
        if (client.subsByStreamId.get? streamId).isNone || !client.isSubscribed streamId then counts
        else
          ({ streamUnreadMessages := counts.streamUnreadMessages +
              (counter.getStreamCountInfo toLowerCase client streamId).unmutedCount
             followedTopicUnreadMessages := counts.followedTopicUnreadMessages +
              (counter.getStreamCountInfo toLowerCase client streamId).followedCount
             streamCount := counts.streamCount.set streamId
              (counter.getStreamCountInfo toLowerCase client streamId) } : UnreadStreamCounts))
        counts).followedTopicUnreadMessages =
      counts.followedTopicUnreadMessages +
        (((streams.filter fun streamId => client.isSubscribed streamId).flatMap fun streamId =>
          ((counter.bucketer.getD streamId FoldDict.empty).items.entries.filter fun entry =>
            client.isTopicFollowed toLowerCase streamId entry.2.1).map fun entry =>
              (streamId, entry.1)).map fun bucket => (counter.members bucket).card).sum := by
    intro streams
    induction streams with
    | nil => exact fun counts => rfl
    | cons streamId rest inductionHypothesis =>
        intro counts
        rw [List.foldl_cons, inductionHypothesis, ignored_iff]
        by_cases subscribed : client.isSubscribed streamId = true
        · have sizes : (((counter.bucketer.getD streamId FoldDict.empty).items.entries.filter
              fun entry => client.isTopicFollowed toLowerCase streamId entry.2.1).map fun entry =>
                (streamId, entry.1)).map (fun bucket => (counter.members bucket).card) =
              ((counter.bucketer.getD streamId FoldDict.empty).items.entries.filter
                fun entry => client.isTopicFollowed toLowerCase streamId entry.2.1).map
                  fun entry => entry.2.2.card := by
            rw [List.map_map]
            refine List.map_congr_left fun entry member => ?_
            have found := Dict.get?_eq_some_iff.mpr (List.mem_of_mem_filter member)
            rw [Function.comp_apply, members, FoldDict.folded, found]
            rfl
          rw [subscribed, Bool.not_true, if_neg Bool.false_ne_true,
            List.filter_cons_of_pos subscribed, List.flatMap_cons, List.map_append,
            List.sum_append, sizes, ← getStreamCountInfo_followedCount, Nat.add_assoc]
        · rw [Bool.eq_false_iff.mpr subscribed, Bool.not_false, if_pos rfl,
            List.filter_cons_of_neg subscribed]
  exact (total _ _).trans (Nat.zero_add _)

omit [DecidableEq Id] in
theorem followedBuckets_nodup : (counter.followedBuckets toLowerCase client).Nodup := by
  refine List.nodup_flatMap.mpr ⟨fun streamId _ => ?_, ?_⟩
  · have keys := (counter.bucketer.getD streamId FoldDict.empty).items.nodupKeys
    have kept := (List.filter_sublist (p := fun entry : String × String × Finset Id =>
      client.isTopicFollowed toLowerCase streamId entry.2.1)).map Prod.fst |>.nodup keys
    have distinct := kept.map (Prod.mk_right_injective streamId)
    rw [List.map_map] at distinct
    exact distinct
  · refine (List.Nodup.filter _ counter.bucketer.keys_nodup).imp fun differs => ?_
    rintro bucket inFirst inSecond
    obtain ⟨_, _, rfl⟩ := List.mem_map.mp inFirst
    obtain ⟨_, _, same⟩ := List.mem_map.mp inSecond
    exact differs (congrArg Prod.fst same).symm

/-- A message is in a bucket that counts as followed when its topic is, in a stream that the user is
subscribed to. -/
theorem mem_followedBuckets (folded : counter.Folded toLowerCase)
    (indexed : counter.Indexed toLowerCase) {messageId : Id} {streamTopic : Nat × String}
    (isPlace : counter.reverseLookup.get? messageId = some streamTopic) :
    bucketOf toLowerCase streamTopic ∈ counter.followedBuckets toLowerCase client ↔
      client.isTopicFollowed toLowerCase streamTopic.1 streamTopic.2 = true ∧
        client.isSubscribed streamTopic.1 = true := by
  obtain ⟨streamId, topic⟩ := streamTopic
  simp only [followedBuckets, bucketOf, List.mem_flatMap, List.mem_filter, List.mem_map,
    Prod.mk.injEq]
  constructor
  · rintro ⟨_, ⟨isStream, subscribed⟩, ⟨key, item⟩, ⟨isEntry, followed⟩, rfl, rfl⟩
    refine ⟨?_, subscribed⟩
    obtain ⟨perStream, found⟩ := Dict.mem_keys_iff.mp isStream
    rw [Dict.getD, found, Option.getD_some] at isEntry
    have sameTopic := folded _ perStream found _ item (Dict.get?_eq_some_iff.mpr isEntry)
    rw [← followed]
    exact Subscriptions.isTopicFollowed_congr sameTopic.symm
  · rintro ⟨followed, subscribed⟩
    have isMember : messageId ∈ counter.members (streamId, toLowerCase topic) := by
      rw [indexed messageId, isPlace]
      rfl
    unfold members FoldDict.folded at isMember
    cases found : counter.bucketer.get? streamId with
    | none =>
        rw [Dict.getD, found] at isMember
        exact absurd isMember (Finset.notMem_empty messageId)
    | some perStream =>
        rw [Dict.getD, found, Option.getD_some] at isMember
        cases isItem : perStream.items.get? (toLowerCase topic) with
        | none =>
            rw [isItem] at isMember
            exact absurd isMember (Finset.notMem_empty messageId)
        | some item =>
            have sameTopic := folded streamId perStream found _ item isItem
            refine ⟨streamId, ⟨Dict.mem_keys_of_get? found, subscribed⟩, (toLowerCase topic, item),
              ⟨?_, ?_⟩, rfl, rfl⟩
            · rw [Dict.getD, found]
              exact Dict.get?_eq_some_iff.mp isItem
            · rw [← followed]
              exact Subscriptions.isTopicFollowed_congr sameTopic

end TopicCounter

namespace UnreadStore

variable {toLowerCase : String → String} {client : Subscriptions} {store : UnreadStore Id}

/-- The messages in followed topics of subscribed streams are counted by topic. -/
theorem Tracking.followed_count (tracking : store.Tracking toLowerCase)
    (folded : store.topicCounter.Folded toLowerCase) :
    (store.topicCounter.getCounts toLowerCase client).followedTopicUnreadMessages =
      (store.unreadMessages.filter fun messageId =>
        store.inFollowedTopic toLowerCase client messageId &&
          store.inSubscribedStream client messageId).card := by
  rw [TopicCounter.getCounts_followed, Zulip.Indexed.sum_card tracking.topics
    (fun messageId placed => (tracking.bucketed messageId).mpr (.inr placed))
    TopicCounter.followedBuckets_nodup]
  refine congrArg Finset.card (Finset.filter_congr fun messageId _ => ?_)
  unfold inFollowedTopic inSubscribedStream
  cases isPlace : store.topicCounter.reverseLookup.get? messageId with
  | none => simp
  | some streamTopic =>
      rw [Option.map_some, Option.any_some, Option.any_some, Bool.and_eq_true,
        ← TopicCounter.mem_followedBuckets folded tracking.topics isPlace]
      simp

/-- The mentions are unread messages. -/
theorem Tracking.mention_count (tracking : store.Tracking toLowerCase) (counts : Id → Bool) :
    (store.unreadMentionsCounter.keys.countP counts) =
      (store.unreadMessages.filter fun messageId =>
        store.isMention messageId && counts messageId).card := by
  have keys : (store.unreadMentionsCounter.keys.filter counts).toFinset =
      store.unreadMessages.filter fun messageId =>
        store.isMention messageId && counts messageId := by
    ext messageId
    rw [List.mem_toFinset, List.mem_filter, Finset.mem_filter, isMention, Bool.and_eq_true,
      decide_eq_true_eq]
    exact ⟨fun both => ⟨tracking.mentions messageId both.1, both⟩, And.right⟩
  rw [← keys, List.toFinset_card_of_nodup (store.unreadMentionsCounter.keys_nodup.filter _),
    List.countP_eq_length_filter]

theorem getFollowedTopicUnreadMentions_eq :
    store.getFollowedTopicUnreadMentions toLowerCase client =
      store.unreadMentionsCounter.keys.countP
        fun messageId => store.inFollowedTopic toLowerCase client messageId := by
  have total : ∀ (mentions : List Id) (count : Nat),
      mentions.foldl (fun mentions messageId =>
        match store.topicCounter.reverseLookup.get? messageId with
        | none => mentions
        | some (streamId, topic) =>
            if client.isTopicFollowed toLowerCase streamId topic then mentions + 1 else mentions)
        count =
      count + mentions.countP fun messageId =>
        store.inFollowedTopic toLowerCase client messageId := by
    intro mentions
    induction mentions with
    | nil => exact fun count => rfl
    | cons messageId rest inductionHypothesis =>
        intro count
        rw [List.foldl_cons, inductionHypothesis, List.countP_cons, inFollowedTopic]
        cases store.topicCounter.reverseLookup.get? messageId with
        | none => rfl
        | some streamTopic =>
            rw [Option.any_some]
            dsimp only
            split_ifs
            · exact Nat.add_right_comm ..
            · rfl
  exact (total _ _).trans (Nat.zero_add _)

omit [DecidableEq Id] in
/-- Two pairs of filters keep as many items when they keep every item as often. -/
theorem card_filter_add_card_filter {p q r s : Id → Bool} (items : Finset Id)
    (each : ∀ id ∈ items, (if p id then 1 else 0) + (if q id then 1 else 0) =
      (if r id then 1 else 0) + if s id then 1 else 0) :
    (items.filter fun id => p id).card + (items.filter fun id => q id).card =
      (items.filter fun id => r id).card + (items.filter fun id => s id).card := by
  rw [Finset.card_filter, Finset.card_filter, Finset.card_filter, Finset.card_filter,
    ← Finset.sum_add_distrib, ← Finset.sum_add_distrib]
  exact Finset.sum_congr rfl each

/-- A direct message is in no topic. -/
theorem Tracking.direct_not_followed (tracking : store.Tracking toLowerCase) {messageId : Id}
    (direct : store.isDirectMessage messageId = true) :
    store.inFollowedTopic toLowerCase client messageId = false := by
  unfold inFollowedTopic
  rcases tracking.oneBucket messageId with noDirect | noTopic
  · rw [isDirectMessage, noDirect] at direct
    cases direct
  · rw [noTopic]
    rfl

/-- The direct messages with a mention are subtracted once. -/
theorem Tracking.dmMention_count (tracking : store.Tracking toLowerCase) :
    calculateNotifiableCount .dmMention (store.getCounts toLowerCase client) =
      store.dmsAndMentions.card := by
  have direct := DirectMessageCounter.getCounts_totalCount tracking.directMessages
    fun messageId placed => (tracking.bucketed messageId).mpr (.inl placed)
  have mentions := tracking.mention_count fun _ => true
  rw [List.countP_true] at mentions
  have both : store.directMessageWithMentionCount =
      store.unreadMessages.filter fun messageId =>
        store.isDirectMessage messageId && store.isMention messageId := by
    ext messageId
    rw [tracking.directMentions, Finset.mem_filter, Bool.and_eq_true, isMention, isDirectMessage,
      decide_eq_true_eq, Option.isSome_iff_ne_none]
    exact ⟨fun both => ⟨tracking.mentions messageId both.1, both.2, both.1⟩,
      fun both => ⟨both.2.2, both.2.1⟩⟩
  have once := card_filter_add_card_filter (p := store.isDirectMessage) (q := store.isMention)
    (r := fun messageId => store.isDirectMessage messageId || store.isMention messageId)
    (s := fun messageId => store.isDirectMessage messageId && store.isMention messageId)
    store.unreadMessages fun messageId _ => by
      cases store.isDirectMessage messageId <;> cases store.isMention messageId <;> rfl
  simp only [Bool.and_true] at mentions
  simp only [calculateNotifiableCount, getCounts, dmsAndMentions]
  rw [direct, mentions, both]
  unfold isDirectMessage at once ⊢
  omega

/-- The mentions in followed topics are subtracted also where the counts of followed topics leave
them out. -/
theorem Tracking.dmMentionFollowedTopic_count (tracking : store.Tracking toLowerCase)
    (folded : store.topicCounter.Folded toLowerCase) :
    calculateNotifiableCount .dmMentionFollowedTopic (store.getCounts toLowerCase client) +
        (store.ignoredMentions toLowerCase client).card =
      (store.dmsMentionsAndFollowed toLowerCase client).card := by
  have dmMention : calculateNotifiableCount .dmMention (store.getCounts toLowerCase client) = _ :=
    tracking.dmMention_count
  have followed : (store.topicCounter.getCounts toLowerCase client).followedTopicUnreadMessages =
    _ := tracking.followed_count folded
  have mentions := tracking.mention_count
    fun messageId => store.inFollowedTopic toLowerCase client messageId
  rw [← getFollowedTopicUnreadMentions_eq] at mentions
  have once := card_filter_add_card_filter
    (p := fun messageId => store.isDirectMessage messageId || store.isMention messageId)
    (q := fun messageId => store.inFollowedTopic toLowerCase client messageId &&
      store.inSubscribedStream client messageId)
    (r := fun messageId => store.isDirectMessage messageId || store.isMention messageId ||
      (store.inFollowedTopic toLowerCase client messageId &&
        store.inSubscribedStream client messageId))
    (s := fun messageId => store.isMention messageId &&
      (store.inFollowedTopic toLowerCase client messageId &&
        store.inSubscribedStream client messageId))
    store.unreadMessages fun messageId _ => by
      cases isDirect : store.isDirectMessage messageId
      · cases store.isMention messageId <;> cases store.inFollowedTopic toLowerCase client messageId <;>
          cases store.inSubscribedStream client messageId <;> rfl
      · rw [tracking.direct_not_followed isDirect]
        cases store.isMention messageId <;> rfl
  have ignored := card_filter_add_card_filter
    (p := fun messageId => store.isMention messageId &&
      (store.inFollowedTopic toLowerCase client messageId &&
        store.inSubscribedStream client messageId))
    (q := fun messageId => store.isMention messageId &&
      store.inFollowedTopic toLowerCase client messageId &&
        !store.inSubscribedStream client messageId)
    (r := fun messageId => store.isMention messageId &&
      store.inFollowedTopic toLowerCase client messageId)
    (s := fun _ => false) store.unreadMessages fun messageId _ => by
      cases store.isMention messageId <;> cases store.inFollowedTopic toLowerCase client messageId <;>
        cases store.inSubscribedStream client messageId <;> rfl
  simp only [Bool.false_eq_true, Finset.filter_false, Finset.card_empty, Nat.add_zero] at ignored
  simp only [calculateNotifiableCount, dmsAndMentions] at dmMention
  simp only [calculateNotifiableCount, dmsMentionsAndFollowed, ignoredMentions]
  have counted : (store.getCounts toLowerCase client).followedTopicUnreadMessagesCount =
    (store.topicCounter.getCounts toLowerCase client).followedTopicUnreadMessages := rfl
  have withMention :
      (store.getCounts toLowerCase client).followedTopicUnreadMessagesWithMentionCount =
        store.getFollowedTopicUnreadMentions toLowerCase client := rfl
  rw [dmMention, counted, followed, withMention, mentions]
  omega

/-- The mentions that are left out are among the messages to count. -/
theorem ignoredMentions_subset :
    store.ignoredMentions toLowerCase client ⊆ store.dmsMentionsAndFollowed toLowerCase client := by
  intro messageId ignored
  obtain ⟨isUnread, isIgnored⟩ := Finset.mem_filter.mp ignored
  rw [Bool.and_eq_true, Bool.and_eq_true] at isIgnored
  refine Finset.mem_filter.mpr ⟨isUnread, ?_⟩
  rw [isIgnored.1.1, Bool.or_true, Bool.true_or]

end UnreadStore

open UnreadStore in
/-- The count on the desktop icon is never negative, and that of direct messages and mentions counts
every message once. With followed topics it does so exactly when no mention is in a followed topic
of a stream that the user is not subscribed to: such a mention is not counted at all. -/
theorem notifiableCount_exact_iff {toLowerCase : String → String} {store : UnreadStore Id}
    (tracking : store.Tracking toLowerCase) (folded : store.topicCounter.Folded toLowerCase)
    (client : Subscriptions) :
    (calculateNotifiableCount .dmMention (store.getCounts toLowerCase client) =
        store.dmsAndMentions.card ∧
      0 ≤ calculateNotifiableCount .dmMention (store.getCounts toLowerCase client) ∧
      0 ≤ calculateNotifiableCount .dmMentionFollowedTopic (store.getCounts toLowerCase client)) ∧
    (calculateNotifiableCount .dmMentionFollowedTopic (store.getCounts toLowerCase client) =
        (store.dmsMentionsAndFollowed toLowerCase client).card ↔
      ∀ messageId, store.isMention messageId = true →
        store.inFollowedTopic toLowerCase client messageId = true →
          store.inSubscribedStream client messageId = true) := by
  have dmMention : calculateNotifiableCount .dmMention (store.getCounts toLowerCase client) = _ :=
    tracking.dmMention_count
  have followedTopic :
      calculateNotifiableCount .dmMentionFollowedTopic (store.getCounts toLowerCase client) + _ = _ :=
    tracking.dmMentionFollowedTopic_count folded
  have fewer := Finset.card_le_card
    (ignoredMentions_subset : store.ignoredMentions toLowerCase client ⊆ _)
  refine ⟨⟨dmMention, by omega, by omega⟩, ?_⟩
  have noneIgnored : store.ignoredMentions toLowerCase client = ∅ ↔
      ∀ messageId, store.isMention messageId = true →
        store.inFollowedTopic toLowerCase client messageId = true →
          store.inSubscribedStream client messageId = true := by
    rw [ignoredMentions, Finset.filter_eq_empty_iff]
    constructor
    · intro noneIgnored messageId mention followed
      have isUnread := tracking.mentions messageId (of_decide_eq_true mention)
      have notIgnored := noneIgnored isUnread
      rw [mention, followed] at notIgnored
      simpa using notIgnored
    · intro subscribed messageId _ isIgnored
      rw [Bool.and_eq_true, Bool.and_eq_true] at isIgnored
      rw [subscribed messageId isIgnored.1.1 isIgnored.1.2] at isIgnored
      cases isIgnored.2
  rw [← noneIgnored, ← Finset.card_eq_zero]
  omega

/-- A user who follows a topic of a stream, subscribed to it or not. -/
def followsLunch (subscribed : Bool) : Subscriptions where
  subsByStreamId := Dict.empty.set 1 ⟨subscribed, false⟩
  allUserTopics := Dict.empty.set 1 (FoldDict.empty.set asciiLowerCase "Lunch" .followed)

/-- A mention in the topic is unread. -/
def lunchMentioned : UnreadStore Nat :=
  UnreadStore.empty.processUnreadMessage asciiLowerCase (quietClient true) lunchMention

theorem lunchMention_enabled : UnreadStore.empty.Enabled
    (.processUnreadMessage (quietClient true) lunchMention) := by
  simp [UnreadStore.Enabled, UnreadStore.empty]

theorem lunchMentioned_run :
    Run (UnreadStore.Step asciiLowerCase) UnreadStore.empty
      [(UnreadStore.empty, UnreadAction.processUnreadMessage (quietClient true) lunchMention)]
      lunchMentioned :=
  .step .refl ⟨lunchMention_enabled, rfl⟩

theorem lunchMentioned_consistent : lunchMentioned.Consistent asciiLowerCase :=
  ((UnreadStore.empty_consistent asciiLowerCase).perform_iff lunchMention_enabled).mpr
    ⟨by decide, fun _ => by decide⟩

/-- In a stream that the user is subscribed to, the mention is counted. -/
theorem notifiableCount_exact_iff_lunch :
    calculateNotifiableCount .dmMentionFollowedTopic
        (lunchMentioned.getCounts asciiLowerCase (followsLunch true)) =
      (lunchMentioned.dmsMentionsAndFollowed asciiLowerCase (followsLunch true)).card := by
  refine (notifiableCount_exact_iff lunchMentioned_consistent.toTracking
    (UnreadStore.folded_of_run lunchMentioned_run) (followsLunch true)).2.mpr ?_
  intro messageId mention _
  have mentions : lunchMentioned.unreadMentionsCounter.keys = [7] := by decide +kernel
  have isMention : messageId ∈ lunchMentioned.unreadMentionsCounter.keys :=
    of_decide_eq_true mention
  rw [mentions, List.mem_singleton] at isMention
  subst isMention
  decide +kernel

/-- After the user has left the stream, the mention is not counted. -/
theorem notifiableCount_loses_mention :
    lunchMentioned.Consistent asciiLowerCase ∧
      calculateNotifiableCount .dmMentionFollowedTopic
          (lunchMentioned.getCounts asciiLowerCase (followsLunch false)) = 0 ∧
      (lunchMentioned.dmsMentionsAndFollowed asciiLowerCase (followsLunch false)).card = 1 :=
  ⟨lunchMentioned_consistent, by decide +kernel, by decide +kernel⟩

end Zulip.Client
