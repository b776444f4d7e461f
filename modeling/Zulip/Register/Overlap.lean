import Zulip.Register.ApplyEvent

/-!
# Events that the register state already reflects

`do_events_register` fetches the state after the queue exists, so the queue may hold an event
whose transaction the fetch has seen. Each branch of `apply_event` is decided: the ones that
remove, and the ones that look before they add, leave such a state alone; the ones that append
do not.
-/

namespace Zulip.Register

/-! ## Fetched states -/

/-- A list of dictionaries of streams as it is fetched: sorted by name, the subscribers in
increasing order and there whenever the client asked for them. -/
structure FetchedStreams (context : Context) (streams : List StreamDict) : Prop where
  sortedByName : streams.Pairwise fun first second => first.name ≤ second.name
  subscribers : context.includeSubscribers = true → ∀ stream ∈ streams,
    ∃ subscribers, stream.subscribers = some subscribers ∧ subscribers.SortedLT

/-- A user group as `user_groups_in_realm_serialized` builds it. -/
structure FetchedGroup (group : UserGroup) : Prop where
  members : group.members.SortedLT
  directSubgroupIds : group.directSubgroupIds.SortedLT

/-- A state that `fetch_initial_state_data` returns. -/
structure FetchedState (context : Context) (state : RegisterState) : Prop where
  subscriptions : FetchedStreams context state.subscriptions
  unsubscribed : FetchedStreams context state.unsubscribed
  neverSubscribed : FetchedStreams context state.neverSubscribed
  streams : ∀ streams, state.streams = some streams →
    streams.Pairwise fun first second => first.name ≤ second.name
  realmUserGroups : ∀ group ∈ state.realmUserGroups, FetchedGroup group
  rawUsers : ∀ userId entry, state.rawUsers.get? userId = some entry →
    context.users.Fetched userId entry

/-- The dictionaries of streams that a subscription event can change. -/
def RegisterState.subscriptionLists (state : RegisterState) : List StreamDict :=
  state.subscriptions ++ state.unsubscribed ++ state.neverSubscribed

/-- `settings.MAX_DRAFTS_IN_REGISTER_RESPONSE`. -/
def maxDraftsInRegisterResponse : Nat := 1000

/-- The limit of the query in `get_starred_message_ids`. -/
def maxStarredMessages : Nat := 10000

/-- The fetch has seen the transaction of the event: what it added is in the state, or beyond the
limit of the query, and what it removed is not. -/
def Reflects (context : Context) (state : RegisterState) : Event → Prop
  | .draftsAdd drafts => ∀ draft ∈ drafts,
      draft.id ∈ state.drafts.map (·.id) ∨ maxDraftsInRegisterResponse ≤ state.drafts.length
  | .scheduledMessagesAdd scheduledMessages => ∀ scheduledMessage ∈ scheduledMessages,
      scheduledMessage.scheduledMessageId ∈
        state.scheduledMessages.map (·.scheduledMessageId)
  | .realmBotAdd bot => bot.userId ∈ state.realmBots.map (·.userId)
  | .realmBotDelete userId => userId ∉ state.realmBots.map (·.userId)
  | .streamCreate streams => ∀ stream ∈ streams,
      stream.streamId ∈ streamIdsOf state.subscriptionLists ∧
        ∀ listed, state.streams = some listed → stream.streamId ∈ streamIdsOf listed
  | .streamDelete streams => ∀ streamId ∈ streamIdsOf streams,
      streamId ∉ streamIdsOf state.subscriptionLists ∧
        ∀ listed, state.streams = some listed → streamId ∉ streamIdsOf listed
  | .subscriptionAdd subs => ∀ streamId ∈ streamIdsOf subs,
      streamId ∈ streamIdsOf state.subscriptions ∧
        streamId ∉ streamIdsOf state.unsubscribed ∧
        streamId ∉ streamIdsOf state.neverSubscribed
  | .subscriptionRemove subs => ∀ streamId ∈ streamIdsOf subs,
      streamId ∉ streamIdsOf state.subscriptions
  | .subscriptionPeerAdd streamIds userIds => ∀ stream ∈ state.subscriptionLists,
      stream.streamId ∈ streamIds →
        ∀ subscribers, stream.subscribers = some subscribers → userIds ⊆ subscribers
  | .subscriptionPeerRemove streamIds userIds => ∀ stream ∈ state.subscriptionLists,
      stream.streamId ∈ streamIds →
        ∀ subscribers, stream.subscribers = some subscribers → userIds.Disjoint subscribers
  | .starredAdd messages => ∀ starred, state.starredMessages = some starred →
      ∀ message ∈ messages, message ∈ starred ∨ maxStarredMessages ≤ starred.length
  | .starredRemove messages => ∀ starred, state.starredMessages = some starred →
      messages.Disjoint starred
  | .userGroupAdd group => group.id ∈ state.realmUserGroups.map (·.id)
  | .userGroupAddMembers groupId userIds => ∀ group ∈ state.realmUserGroups,
      group.id = groupId → userIds ⊆ group.members
  | .userGroupRemoveMembers groupId userIds => ∀ group ∈ state.realmUserGroups,
      group.id = groupId → userIds.Disjoint group.members
  | .userGroupAddSubgroups groupId directSubgroupIds => ∀ group ∈ state.realmUserGroups,
      group.id = groupId → directSubgroupIds ⊆ group.directSubgroupIds
  | .userGroupRemoveSubgroups groupId directSubgroupIds => ∀ group ∈ state.realmUserGroups,
      group.id = groupId → directSubgroupIds.Disjoint group.directSubgroupIds
  | .realmUserAdd person => context.users.Created person ∧
      (state.rawUsers.get? person.userId).isSome
  | .mutedTopics mutedTopics => state.mutedTopics = mutedTopics
  | .realmDomainsAdd realmDomain => realmDomain.domain ∈ state.realmDomains.map (·.domain)
  | .realmDomainsRemove domain => domain ∉ state.realmDomains.map (·.domain)

/-- The events that the branch of `apply_event` does not apply a second time. -/
def AppliedOnce (context : Context) (state : RegisterState) : Event → Prop
  | .draftsAdd drafts => drafts = []
  | .scheduledMessagesAdd _ => False
  | .realmBotAdd _ => False
  | .streamCreate streams => streams = []
  | .starredAdd messages => state.starredMessages = none ∨ messages = []
  | .userGroupAdd _ => False
  | .userGroupAddMembers groupId userIds =>
      userIds = [] ∨ groupId ∉ state.realmUserGroups.map (·.id)
  | .userGroupAddSubgroups groupId directSubgroupIds =>
      directSubgroupIds = [] ∨ groupId ∉ state.realmUserGroups.map (·.id)
  | .realmUserAdd person =>
      state.rawUsers.get? person.userId =
          some (context.users.getDataForInaccessibleUser person.userId) ∧
        person = context.users.getDataForInaccessibleUser person.userId
  | .realmDomainsAdd _ => False
  | _ => True

/-! ## Lists that stay as they are -/

theorem sorted_of_sortedLT {ids : List Nat} (increasing : ids.SortedLT) :
    sorted ids.toFinset = ids :=
  (List.toFinset_sort _ increasing.nodup).mpr increasing.sortedLE.pairwise

/-- Adding ids that are there leaves an increasing list as it is. -/
theorem sorted_union {ids added : List Nat} (increasing : ids.SortedLT) (present : added ⊆ ids) :
    sorted (ids.toFinset ∪ added.toFinset) = ids := by
  have absorbed : ids.toFinset ∪ added.toFinset = ids.toFinset := by
    rw [Finset.union_eq_left]
    intro id member
    exact List.mem_toFinset.mpr (present (List.mem_toFinset.mp member))
  rw [absorbed, sorted_of_sortedLT increasing]

/-- Removing ids that are not there leaves an increasing list as it is. -/
theorem sorted_sdiff {ids removed : List Nat} (increasing : ids.SortedLT)
    (absent : removed.Disjoint ids) : sorted (ids.toFinset \ removed.toFinset) = ids := by
  have disjoint : Disjoint ids.toFinset removed.toFinset := by
    rw [Finset.disjoint_left]
    intro id member isRemoved
    exact absent (List.mem_toFinset.mp isRemoved) (List.mem_toFinset.mp member)
  rw [Finset.sdiff_eq_self_of_disjoint disjoint, sorted_of_sortedLT increasing]

theorem sortBy_of_pairwise {α β : Type*} [LE β] [DecidableLE β] {key : α → β} {items : List α}
    (inOrder : items.Pairwise fun first second => key first ≤ key second) :
    sortBy key items = items := by
  unfold sortBy
  apply List.mergeSort_of_pairwise
  exact inOrder.imp fun before => decide_eq_true before

theorem length_sortBy {α β : Type*} [LE β] [DecidableLE β] (key : α → β) (items : List α) :
    (sortBy key items).length = items.length :=
  List.length_mergeSort items

/-- A list sorted after something was appended to it is a different list. -/
theorem sortBy_append_ne {α β : Type*} [LE β] [DecidableLE β] (key : α → β) (items : List α)
    {added : List α} (nonempty : added ≠ []) : sortBy key (items ++ added) ≠ items := by
  intro same
  have lengths := congrArg List.length same
  rw [length_sortBy, List.length_append] at lengths
  have positive := List.length_pos_iff.mpr nonempty
  omega

/-- Sorting in what was appended leaves an increasing list as it is only when nothing was. -/
theorem sortBy_append_eq_iff {ids added : List Nat} (increasing : ids.SortedLT) :
    sortBy id (ids ++ added) = ids ↔ added = [] := by
  constructor
  · intro same
    by_contra nonempty
    exact sortBy_append_ne id ids nonempty same
  · rintro rfl
    rw [List.append_nil]
    exact sortBy_of_pairwise increasing.sortedLE.pairwise

theorem withoutStreams_of_absent {streamIds : List Nat} {streams : List StreamDict}
    (absent : ∀ streamId ∈ streamIds, streamId ∉ streamIdsOf streams) :
    withoutStreams streamIds streams = streams := by
  unfold withoutStreams
  rw [List.filter_eq_self]
  intro stream member
  rw [decide_eq_true_eq]
  intro removed
  exact absent stream.streamId removed (List.mem_map_of_mem member)

/-- Removing the elements of an absent key leaves a list as it is. -/
theorem filter_key_of_absent {α β : Type*} [DecidableEq β] {key : α → β} {value : β}
    {items : List α} (absent : value ∉ items.map key) :
    (items.filter fun item => key item != value) = items := by
  rw [List.filter_eq_self]
  intro item member
  rw [bne_iff_ne]
  rintro rfl
  exact absent (List.mem_map_of_mem member)

/-- A computation on each element that changes none returns the list. -/
theorem mapM_of_fixed {α : Type*} {step : α → Option α} {items : List α}
    (fixed : ∀ item ∈ items, step item = some item) : items.mapM step = some items := by
  induction items with
  | nil => rfl
  | cons first rest inductionHypothesis =>
    have kept := inductionHypothesis fun item member => fixed item (List.mem_cons_of_mem _ member)
    simp [List.mapM_cons, fixed first List.mem_cons_self, kept]

/-- Changing the elements of one key leaves the list as it is only when it changes none of them. -/
theorem map_if_eq_self_iff {α : Type*} {items : List α} {here : α → Prop} [DecidablePred here]
    {change : α → α} :
    (items.map fun item => if here item then change item else item) = items ↔
      ∀ item ∈ items, here item → change item = item := by
  nth_rewrite 2 [← List.map_id items]
  rw [List.map_inj_left]
  constructor
  · intro kept item member found
    have fixed := kept item member
    rwa [if_pos found] at fixed
  · intro fixed item member
    split
    · exact fixed item member ‹_›
    · rfl

namespace RegisterState

/-! ## Streams and subscriptions -/

theorem length_createStream (context : Context) (state : RegisterState) (stream : StreamDict) :
    (state.createStream context stream).unsubscribed.length +
        (state.createStream context stream).neverSubscribed.length =
      state.unsubscribed.length + state.neverSubscribed.length + 1 := by
  unfold createStream
  cases context.subscriptionRow stream.streamId <;> simp <;> omega

/-- Each created stream adds one element. -/
theorem length_createStreams (context : Context) (streams : List StreamDict)
    (state : RegisterState) :
    (streams.foldl (createStream context) state).unsubscribed.length +
        (streams.foldl (createStream context) state).neverSubscribed.length =
      state.unsubscribed.length + state.neverSubscribed.length + streams.length := by
  induction streams generalizing state with
  | nil => rfl
  | cons stream rest inductionHypothesis =>
    have added := length_createStream context state stream
    rw [List.foldl_cons, inductionHypothesis, added, List.length_cons]
    omega

theorem createStreams_eq_iff {context : Context} {state : RegisterState}
    {streams : List StreamDict} (fetched : FetchedState context state) :
    state.createStreams context streams = state ↔ streams = [] := by
  constructor
  · intro same
    have unsubscribed := congrArg (fun state => state.unsubscribed.length) same
    have neverSubscribed := congrArg (fun state => state.neverSubscribed.length) same
    have lengths := length_createStreams context streams state
    simp only [createStreams, length_sortBy] at unsubscribed neverSubscribed
    rw [← List.length_eq_zero_iff]
    omega
  · rintro rfl
    have sortedStreams : state.streams.map (sortBy (·.name)) = state.streams := by
      cases listed : state.streams with
      | none => rfl
      | some streams =>
        rw [Option.map_some, sortBy_of_pairwise (fetched.streams streams listed)]
    simp only [createStreams, List.foldl_nil]
    rw [sortBy_of_pairwise fetched.unsubscribed.sortedByName,
      sortBy_of_pairwise fetched.neverSubscribed.sortedByName, sortedStreams]

theorem deleteStreams_reflected {context : Context} {state : RegisterState}
    {streams : List StreamDict} (reflects : Reflects context state (.streamDelete streams)) :
    state.deleteStreams streams = state := by
  have absent (part : List StreamDict) (isPart : part ⊆ state.subscriptionLists) :
      withoutStreams (streamIdsOf streams) part = part := by
    apply withoutStreams_of_absent
    intro streamId deleted member
    exact (reflects streamId deleted).1 (List.map_subset _ isPart member)
  have listedKept : state.streams.map (withoutStreams (streamIdsOf streams)) = state.streams := by
    cases listed : state.streams with
    | none => rfl
    | some listedStreams =>
      rw [Option.map_some, withoutStreams_of_absent]
      intro streamId deleted
      exact (reflects streamId deleted).2 listedStreams listed
  unfold deleteStreams
  dsimp only
  rw [listedKept, absent state.subscriptions (by simp [subscriptionLists]),
    absent state.unsubscribed (by simp [subscriptionLists]),
    absent state.neverSubscribed (by simp [subscriptionLists])]

theorem addSubscriptions_reflected {context : Context} {state : RegisterState}
    {subs : List StreamDict} (reflects : Reflects context state (.subscriptionAdd subs)) :
    state.addSubscriptions context subs = state := by
  have noneAdded : (subs.filter fun sub => sub.streamId ∉ streamIdsOf state.subscriptions) = [] := by
    rw [List.filter_eq_nil_iff]
    intro sub member
    simpa using (reflects sub.streamId (List.mem_map_of_mem member)).1
  unfold addSubscriptions
  dsimp only
  rw [noneAdded, withoutStreams_of_absent fun streamId added => (reflects streamId added).2.1,
    withoutStreams_of_absent fun streamId added => (reflects streamId added).2.2]
  simp

theorem removeSubscriptions_reflected {context : Context} {state : RegisterState}
    {subs : List StreamDict} (reflects : Reflects context state (.subscriptionRemove subs)) :
    state.removeSubscriptions context subs = some state := by
  have noneRemoved :
      (state.subscriptions.filter fun sub => sub.streamId ∈ streamIdsOf subs) = [] := by
    rw [List.filter_eq_nil_iff]
    intro sub member removed
    exact reflects sub.streamId (of_decide_eq_true removed) (List.mem_map_of_mem member)
  unfold removeSubscriptions
  dsimp only
  rw [noneRemoved, withoutStreams_of_absent reflects]
  cases context.includeSubscribers <;> simp

/-- The peers of a list of streams do not change when the change keeps the subscribers of each
stream of the event. -/
theorem mapM_changePeersOf {context : Context} {streams : List StreamDict} {streamIds : List Nat}
    {change : Finset Nat → Finset Nat} (fetched : FetchedStreams context streams)
    (asked : context.includeSubscribers = true)
    (kept : ∀ stream ∈ streams, stream.streamId ∈ streamIds → ∀ subscribers,
      stream.subscribers = some subscribers → subscribers.SortedLT →
        sorted (change subscribers.toFinset) = subscribers) :
    streams.mapM (changePeersOf streamIds change) = some streams := by
  apply mapM_of_fixed
  intro stream member
  obtain ⟨subscribers, found, increasing⟩ := fetched.subscribers asked stream member
  unfold changePeersOf
  split
  · have same := kept stream member ‹_› subscribers found increasing
    rw [found, Option.map_some, same, ← found]
  · rfl

theorem changePeers_reflected {context : Context} {state : RegisterState} {streamIds : List Nat}
    {change : Finset Nat → Finset Nat} (fetched : FetchedState context state)
    (kept : ∀ stream ∈ state.subscriptionLists, stream.streamId ∈ streamIds → ∀ subscribers,
      stream.subscribers = some subscribers → subscribers.SortedLT →
        sorted (change subscribers.toFinset) = subscribers) :
    state.changePeers context streamIds change = some state := by
  unfold changePeers
  split
  · have asked : context.includeSubscribers = true := ‹_›
    rw [mapM_changePeersOf fetched.subscriptions asked fun stream member =>
        kept stream (by simp [subscriptionLists, member]),
      mapM_changePeersOf fetched.unsubscribed asked fun stream member =>
        kept stream (by simp [subscriptionLists, member]),
      mapM_changePeersOf fetched.neverSubscribed asked fun stream member =>
        kept stream (by simp [subscriptionLists, member])]
    rfl
  · rfl

/-! ## User groups -/

theorem changeGroup_eq_iff {state : RegisterState} {groupId : Nat}
    {change : UserGroup → UserGroup} :
    state.changeGroup groupId change = state ↔
      ∀ group ∈ state.realmUserGroups, group.id = groupId → change group = group := by
  rw [← map_if_eq_self_iff]
  constructor
  · intro same
    exact congrArg RegisterState.realmUserGroups same
  · intro same
    unfold changeGroup
    rw [same]

/-- The branches that extend a list of ids of a group keep the state only when they extend it by
nothing, or have no group to extend. -/
theorem changeGroup_extend_eq_iff {context : Context} {state : RegisterState} {groupId : Nat}
    {added : List Nat} {change : UserGroup → UserGroup} {ids : UserGroup → List Nat}
    (fetched : FetchedState context state)
    (increasing : ∀ group, FetchedGroup group → (ids group).SortedLT)
    (extended : ∀ group, change group = group ↔ sortBy id (ids group ++ added) = ids group) :
    state.changeGroup groupId change = state ↔
      added = [] ∨ groupId ∉ state.realmUserGroups.map (·.id) := by
  have groupKept (group : UserGroup) (member : group ∈ state.realmUserGroups) :
      change group = group ↔ added = [] := by
    rw [extended, sortBy_append_eq_iff (increasing group (fetched.realmUserGroups group member))]
  rw [changeGroup_eq_iff]
  constructor
  · intro kept
    by_contra neither
    rw [not_or, not_not] at neither
    obtain ⟨group, member, found⟩ := List.mem_map.mp neither.2
    exact neither.1 ((groupKept group member).mp (kept group member found))
  · rintro (nothing | absent) group member found
    · exact (groupKept group member).mpr nothing
    · exact absurd (List.mem_map.mpr ⟨group, member, found⟩) absent

/-! ## Starred messages and users -/

theorem starredAdd_eq_iff {state : RegisterState} {messages : List Nat} :
    { state with starredMessages := state.starredMessages.map (· ++ messages) } = state ↔
      state.starredMessages = none ∨ messages = [] := by
  constructor
  · intro same
    have kept := congrArg RegisterState.starredMessages same
    cases starred : state.starredMessages with
    | none => exact .inl rfl
    | some listed =>
      right
      simpa [starred] using kept
  · intro nothing
    have kept : state.starredMessages.map (· ++ messages) = state.starredMessages := by
      rcases nothing with missing | rfl
      · simp [missing]
      · simp
    rw [kept]

theorem starredRemove_reflected {context : Context} {state : RegisterState} {messages : List Nat}
    (reflects : Reflects context state (.starredRemove messages)) :
    { state with
      starredMessages := state.starredMessages.map fun starred =>
        starred.filter fun message => message ∉ messages } = state := by
  have kept : (state.starredMessages.map fun starred =>
      starred.filter fun message => message ∉ messages) = state.starredMessages := by
    cases starred : state.starredMessages with
    | none => rfl
    | some listed =>
      rw [Option.map_some, List.filter_eq_self.mpr]
      intro message member
      exact decide_eq_true fun removed => reflects listed starred removed member
  rw [kept]

/-- A created user that is in a fetched state is replaced by the person of the event, which
differs from it unless both are the data of an inaccessible user. -/
theorem realmUserAdd_eq_iff {context : Context} {state : RegisterState} {person : APIUserDict}
    (fetched : FetchedState context state)
    (reflects : Reflects context state (.realmUserAdd person)) :
    state.applyEvent context (.realmUserAdd person) = some state ↔
      AppliedOnce context state (.realmUserAdd person) := by
  obtain ⟨created, present⟩ := reflects
  obtain ⟨entry, found⟩ := Option.isSome_iff_exists.mp present
  have isFetched := fetched.rawUsers person.userId entry found
  have agree := UserLibrary.addedPerson_eq_entry_iff context.clientGravatar isFetched created
  simp only [AppliedOnce, found, Option.some.injEq]
  rw [← agree, applyEvent, Option.map_eq_some_iff]
  constructor
  · rintro ⟨added, stored, same⟩
    have kept := congrArg RegisterState.rawUsers same
    have sameUser := UserLibrary.addedPerson_userId stored
    rw [sameUser, Dict.set_eq_self_iff found] at kept
    rw [stored, kept]
  · intro stored
    have sameUser := UserLibrary.addedPerson_userId stored
    refine ⟨entry, stored, ?_⟩
    rw [sameUser, Dict.set_of_get? found]

/-! ## Every event -/

/-- A fetched state that reflects an event stays as it is exactly when the branch of the event
does not apply it a second time. -/
theorem applyEvent_eq_iff {context : Context} {state : RegisterState} {event : Event}
    (fetched : FetchedState context state) (reflects : Reflects context state event) :
    state.applyEvent context event = some state ↔ AppliedOnce context state event := by
  cases event with
  | draftsAdd drafts =>
    simp only [applyEvent, AppliedOnce, Option.some.injEq]
    constructor
    · intro same
      simpa using congrArg RegisterState.drafts same
    · rintro rfl
      simp
  | scheduledMessagesAdd scheduledMessages =>
    simp only [AppliedOnce, iff_false]
    intro same
    match scheduledMessages with
    | [] => cases same
    | _ :: _ :: _ => cases same
    | [scheduledMessage] =>
      have kept := congrArg RegisterState.scheduledMessages (Option.some.inj same)
      exact sortBy_append_ne _ _ (by simp) kept
  | realmBotAdd bot =>
    simp only [AppliedOnce, iff_false]
    intro same
    simpa using congrArg RegisterState.realmBots (Option.some.inj same)
  | realmBotDelete userId =>
    simp only [applyEvent, AppliedOnce, iff_true, Option.some.injEq]
    rw [filter_key_of_absent reflects]
  | streamCreate streams =>
    simp only [applyEvent, AppliedOnce, Option.some.injEq]
    exact createStreams_eq_iff fetched
  | streamDelete streams =>
    simp only [applyEvent, AppliedOnce, iff_true, Option.some.injEq]
    exact deleteStreams_reflected reflects
  | subscriptionAdd subs =>
    simp only [applyEvent, AppliedOnce, iff_true, Option.some.injEq]
    exact addSubscriptions_reflected reflects
  | subscriptionRemove subs =>
    simp only [AppliedOnce, iff_true]
    exact removeSubscriptions_reflected reflects
  | subscriptionPeerAdd streamIds userIds =>
    simp only [AppliedOnce, iff_true]
    apply changePeers_reflected fetched
    intro stream member named subscribers found increasing
    exact sorted_union increasing (reflects stream member named subscribers found)
  | subscriptionPeerRemove streamIds userIds =>
    simp only [AppliedOnce, iff_true]
    apply changePeers_reflected fetched
    intro stream member named subscribers found increasing
    exact sorted_sdiff increasing (reflects stream member named subscribers found)
  | starredAdd messages =>
    simp only [applyEvent, AppliedOnce, Option.some.injEq]
    exact starredAdd_eq_iff
  | starredRemove messages =>
    simp only [applyEvent, AppliedOnce, iff_true, Option.some.injEq]
    exact starredRemove_reflected reflects
  | userGroupAdd group =>
    simp only [AppliedOnce, iff_false]
    intro same
    exact sortBy_append_ne _ _ (by simp)
      (congrArg RegisterState.realmUserGroups (Option.some.inj same))
  | userGroupAddMembers groupId userIds =>
    simp only [applyEvent, AppliedOnce, Option.some.injEq]
    apply changeGroup_extend_eq_iff fetched fun group fetchedGroup => fetchedGroup.members
    intro group
    exact ⟨congrArg UserGroup.members, fun same => by rw [same]⟩
  | userGroupRemoveMembers groupId userIds =>
    simp only [applyEvent, AppliedOnce, iff_true, Option.some.injEq]
    rw [changeGroup_eq_iff]
    intro group member found
    rw [sorted_sdiff (fetched.realmUserGroups group member).members (reflects group member found)]
  | userGroupAddSubgroups groupId directSubgroupIds =>
    simp only [applyEvent, AppliedOnce, Option.some.injEq]
    apply changeGroup_extend_eq_iff fetched fun group fetchedGroup => fetchedGroup.directSubgroupIds
    intro group
    exact ⟨congrArg UserGroup.directSubgroupIds, fun same => by rw [same]⟩
  | userGroupRemoveSubgroups groupId directSubgroupIds =>
    simp only [applyEvent, AppliedOnce, iff_true, Option.some.injEq]
    rw [changeGroup_eq_iff]
    intro group member found
    rw [sorted_sdiff (fetched.realmUserGroups group member).directSubgroupIds
      (reflects group member found)]
  | realmUserAdd person => exact realmUserAdd_eq_iff fetched reflects
  | mutedTopics mutedTopics =>
    simp only [applyEvent, AppliedOnce, iff_true, Option.some.injEq]
    have same : state.mutedTopics = mutedTopics := reflects
    rw [← same]
  | realmDomainsAdd realmDomain =>
    simp only [AppliedOnce, iff_false]
    intro same
    simpa using congrArg RegisterState.realmDomains (Option.some.inj same)
  | realmDomainsRemove domain =>
    simp only [applyEvent, AppliedOnce, iff_true, Option.some.injEq]
    rw [filter_key_of_absent reflects]

/-! ## A subscription that is added while the client registers -/

/-- A library whose functions are the simplest that the structure allows. -/
def plainLibrary : UserLibrary where
  canonicalizeTimezone := id
  canAccessDeliveryEmail _ _ := true
  getAvatarField _ _ := none
  isCrossRealmBotEmail _ := false
  emailAddressVisibility _ := emailAddressVisibilityEveryone
  fakeEmail _ := "user@example.com"
  inaccessibleUserName := "Unknown user"
  avatarForInaccessibleUser := "/static/images/unknown-user-avatar.png"
  avatarIsStatic := by decide

/-- A client that asks for subscribers. -/
def plainContext : Context where
  userId := 10
  includeSubscribers := true
  clientGravatar := true
  subscriptionRow _ := none
  users := plainLibrary

/-- The row of another user. -/
def aaronRow : RawUserDict where
  id := 11
  fullName := "aaron"
  email := "aaron@zulip.com"
  avatarSource := "G"
  avatarVersion := 1
  isActive := true
  role := roleMember
  isBillingAdmin := false
  isBot := false
  timezone := ""
  dateJoined := "2024-01-01T00:00:00+00:00"
  botOwnerId := none
  deliveryEmail := "aaron@zulip.com"
  botType := none
  longTermIdle := false
  emailAddressVisibility := emailAddressVisibilityEveryone
  defaultSendingStream := none
  assistantType := none
  evaluation := none

/-- The entry of that user. -/
def aaronEntry : APIUserDict :=
  plainLibrary.formatUserRow { aaronRow with evaluation := some [] } true false (some [])

/-- The state of a user with two subscriptions, in a realm with another user, a user without
access, and a user group. -/
def twoSubscriptions : RegisterState where
  drafts := [⟨1, "lunch", "pizza"⟩]
  scheduledMessages := [⟨1, 1700000000, "reminder"⟩]
  realmBots := [⟨20, "Welcome Bot", none⟩]
  streams := some [⟨7, "dinner", none, none⟩, ⟨8, "lunch", none, none⟩]
  subscriptions := [⟨7, "dinner", none, some [10, 11]⟩, ⟨8, "lunch", none, some [10, 11, 12]⟩]
  unsubscribed := [⟨9, "breakfast", none, some [11]⟩]
  neverSubscribed := [⟨6, "core team", none, some [12]⟩]
  starredMessages := some [3, 5]
  realmUserGroups := [⟨1, "cooks", [10, 11], [2]⟩, ⟨2, "guests", [12], []⟩]
  rawUsers := (Dict.empty.set 11 aaronEntry).set 12 (plainLibrary.getDataForInaccessibleUser 12)
  mutedTopics := [⟨"lunch", "pasta", 1700000000⟩]
  realmDomains := [⟨"zulip.com", true⟩]

theorem twoSubscriptions_fetched : FetchedState plainContext twoSubscriptions := by
  constructor
  case subscriptions =>
    refine ⟨by decide, fun _ => ?_⟩
    rintro stream (_ | ⟨_, _ | ⟨_, empty⟩⟩)
    · exact ⟨[10, 11], rfl, by decide⟩
    · exact ⟨[10, 11, 12], rfl, by decide⟩
    · cases empty
  case unsubscribed =>
    refine ⟨List.pairwise_singleton _ _, fun _ => List.forall_mem_singleton.mpr ?_⟩
    exact ⟨[11], rfl, by decide⟩
  case neverSubscribed =>
    refine ⟨List.pairwise_singleton _ _, fun _ => List.forall_mem_singleton.mpr ?_⟩
    exact ⟨[12], rfl, by decide⟩
  case streams =>
    intro streams isList
    cases isList
    decide
  case realmUserGroups =>
    rintro group (_ | ⟨_, _ | ⟨_, empty⟩⟩)
    · exact ⟨by decide, by decide⟩
    · exact ⟨by decide, by decide⟩
    · cases empty
  case rawUsers =>
    intro userId entry found
    rcases Dict.mem_entries_set.mp (Dict.get?_eq_some_iff.mp found) with added | ⟨earlier, -⟩
    · cases added
      exact .inaccessible 12
    · rcases Dict.mem_entries_set.mp earlier with added | ⟨empty, -⟩
      · cases added
        exact .accessible aaronRow [] true false []
      · cases empty

theorem twoSubscriptions_reflects :
    Reflects plainContext twoSubscriptions (.subscriptionPeerAdd [7, 9] [11]) := by
  simp [Reflects, twoSubscriptions, subscriptionLists]

/-- A user who has subscribed to two streams, in the state and in an event. -/
theorem applyEvent_eq_iff_peerAdd :
    twoSubscriptions.applyEvent plainContext (.subscriptionPeerAdd [7, 9] [11]) =
      some twoSubscriptions :=
  (applyEvent_eq_iff twoSubscriptions_fetched twoSubscriptions_reflects).mpr trivial

/-! ## A message that is starred while the client registers -/

/-- The state of a user who has starred one message and nothing else. -/
def oneStarred : RegisterState where
  drafts := []
  scheduledMessages := []
  realmBots := []
  streams := none
  subscriptions := []
  unsubscribed := []
  neverSubscribed := []
  starredMessages := some [5]
  realmUserGroups := []
  rawUsers := Dict.empty
  mutedTopics := []
  realmDomains := []

theorem oneStarred_fetched : FetchedState plainContext oneStarred := by
  constructor
  case subscriptions => constructor <;> simp [oneStarred]
  case unsubscribed => constructor <;> simp [oneStarred]
  case neverSubscribed => constructor <;> simp [oneStarred]
  all_goals simp [oneStarred]

theorem oneStarred_reflects : Reflects plainContext oneStarred (.starredAdd [5]) := by
  simp [Reflects, oneStarred]

/-- The message is starred after the queue exists and before the fetch: it is in the state twice
once the event is applied. -/
theorem applyEvent_stars_twice :
    ¬ ∀ (context : Context) (state : RegisterState) (event : Event),
      FetchedState context state → Reflects context state event →
        state.applyEvent context event = some state := by
  intro idempotent
  have same := idempotent _ _ _ oneStarred_fetched oneStarred_reflects
  have starred := congrArg RegisterState.starredMessages (Option.some.inj same)
  simp [oneStarred] at starred

end RegisterState

end Zulip.Register
