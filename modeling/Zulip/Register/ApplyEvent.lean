import Mathlib.Data.Finset.Sort
import Zulip.Register.Users

/-!
# The register state and its events

The parts of the register state that are lists of elements, and the branches of `apply_event`
that add an element to them or remove one.
-/

namespace Zulip.Register

/-! ## The state -/

/-- `Draft.to_dict`. -/
structure Draft where
  id : Nat
  topic : String
  content : String
deriving DecidableEq, Repr

/-- `ScheduledMessage.to_dict`. -/
structure ScheduledMessage where
  scheduledMessageId : Nat
  scheduledDeliveryTimestamp : Nat
  content : String
deriving DecidableEq, Repr

/-- A bot of `get_owned_bot_dicts`. -/
structure Bot where
  userId : Nat
  fullName : String
  ownerId : Option Nat
deriving DecidableEq, Repr

/-- `Subscription.API_FIELDS`, the personal settings of a subscription. -/
structure PersonalSettings where
  audibleNotifications : Option Bool
  color : String
  desktopNotifications : Option Bool
  emailNotifications : Option Bool
  isMuted : Bool
  pinToTop : Bool
  pushNotifications : Option Bool
  wildcardMentionsNotify : Option Bool
deriving DecidableEq, Repr

/-- A dictionary of a stream. The personal settings are there for a stream that the user is or
was subscribed to, `subscribers` when the client asked for it. -/
structure StreamDict where
  streamId : Nat
  name : String
  personal : Option PersonalSettings
  subscribers : Option (List Nat)
deriving DecidableEq, Repr

/-- A `UserGroupDict`. -/
structure UserGroup where
  id : Nat
  name : String
  members : List Nat
  directSubgroupIds : List Nat
deriving DecidableEq, Repr

/-- A `RealmDomainDict`. -/
structure RealmDomain where
  domain : String
  allowSubdomains : Bool
deriving DecidableEq, Repr

/-- A row of `get_topic_mutes`. -/
structure MutedTopic where
  streamName : String
  topicName : String
  dateMuted : Nat
deriving DecidableEq, Repr

/-- The register state; `none` stands for a key that the client did not ask for, where a branch
looks whether the key is there. -/
structure RegisterState where
  drafts : List Draft
  scheduledMessages : List ScheduledMessage
  realmBots : List Bot
  streams : Option (List StreamDict)
  subscriptions : List StreamDict
  unsubscribed : List StreamDict
  neverSubscribed : List StreamDict
  starredMessages : Option (List Nat)
  realmUserGroups : List UserGroup
  rawUsers : Dict Nat APIUserDict
  mutedTopics : List MutedTopic
  realmDomains : List RealmDomain

/-- The events whose branch adds or removes an element. -/
inductive Event where
  | draftsAdd (drafts : List Draft)
  | scheduledMessagesAdd (scheduledMessages : List ScheduledMessage)
  | realmBotAdd (bot : Bot)
  | realmBotDelete (userId : Nat)
  | streamCreate (streams : List StreamDict)
  | streamDelete (streams : List StreamDict)
  | subscriptionAdd (subscriptions : List StreamDict)
  | subscriptionRemove (subscriptions : List StreamDict)
  | subscriptionPeerAdd (streamIds userIds : List Nat)
  | subscriptionPeerRemove (streamIds userIds : List Nat)
  | starredAdd (messages : List Nat)
  | starredRemove (messages : List Nat)
  | userGroupAdd (group : UserGroup)
  | userGroupAddMembers (groupId : Nat) (userIds : List Nat)
  | userGroupRemoveMembers (groupId : Nat) (userIds : List Nat)
  | userGroupAddSubgroups (groupId : Nat) (directSubgroupIds : List Nat)
  | userGroupRemoveSubgroups (groupId : Nat) (directSubgroupIds : List Nat)
  | realmUserAdd (person : APIUserDict)
  | mutedTopics (mutedTopics : List MutedTopic)
  | realmDomainsAdd (realmDomain : RealmDomain)
  | realmDomainsRemove (domain : String)

/-- The arguments of `apply_event` besides the state and the event, and what it reads from the
database. -/
structure Context where
  /-- The id of `user_profile`. -/
  userId : Nat
  includeSubscribers : Bool
  clientGravatar : Bool
  /-- The row of the user in the table `Subscription` for a stream. -/
  subscriptionRow : Nat → Option PersonalSettings
  users : UserLibrary

/-! ## The branches -/

/-- `list.sort` with a key, which is stable. -/
def sortBy {α β : Type*} [LE β] [DecidableLE β] (key : α → β) (items : List α) : List α :=
  items.mergeSort fun first second => decide (key first ≤ key second)

/-- `sorted` of a set of ids. -/
def sorted (ids : Finset Nat) : List Nat := ids.sort (· ≤ ·)

/-- The ids of the streams in a list of dictionaries. -/
def streamIdsOf (streams : List StreamDict) : List Nat := streams.map (·.streamId)

/-- The dictionaries whose stream is not among the given ones. -/
def withoutStreams (streamIds : List Nat) (streams : List StreamDict) : List StreamDict :=
  streams.filter fun stream => stream.streamId ∉ streamIds

namespace RegisterState

/-- The body of the loop over the created streams. -/
def createStream (context : Context) (state : RegisterState) (stream : StreamDict) :
    RegisterState :=
  let streamData :=
    if context.includeSubscribers then { stream with subscribers := some [] } else stream
  let state :=
    match context.subscriptionRow stream.streamId with
    | some row =>
      -- `build_unsubscribed_sub_from_stream_dict` keeps the fields of the stream, and not the
      -- key `subscribers`, which is set afterwards.
      let unsubscribedStreamDict :=
        { streamData with
          personal := some row
          subscribers := if context.includeSubscribers then some [] else none }
      { state with unsubscribed := state.unsubscribed ++ [unsubscribedStreamDict] }
    | none => { state with neverSubscribed := state.neverSubscribed ++ [streamData] }
  { state with streams := state.streams.map (· ++ [stream]) }

/-- The branch for created streams. -/
def createStreams (context : Context) (state : RegisterState) (streams : List StreamDict) :
    RegisterState :=
  let state := streams.foldl (createStream context) state
  { state with
    unsubscribed := sortBy (·.name) state.unsubscribed
    neverSubscribed := sortBy (·.name) state.neverSubscribed
    streams := state.streams.map (sortBy (·.name)) }

/-- The branch for deleted streams. -/
def deleteStreams (state : RegisterState) (streams : List StreamDict) : RegisterState :=
  let deletedStreamIds := streamIdsOf streams
  { state with
    streams := state.streams.map (withoutStreams deletedStreamIds)
    subscriptions := withoutStreams deletedStreamIds state.subscriptions
    unsubscribed := withoutStreams deletedStreamIds state.unsubscribed
    neverSubscribed := withoutStreams deletedStreamIds state.neverSubscribed }

/-- The branch for added subscriptions. -/
def addSubscriptions (context : Context) (state : RegisterState) (subs : List StreamDict) :
    RegisterState :=
  let addedStreamIds := streamIdsOf subs
  let existingStreamIds := streamIdsOf state.subscriptions
  let added := (subs.filter fun sub => sub.streamId ∉ existingStreamIds).map fun sub =>
    if context.includeSubscribers then sub else { sub with subscribers := none }
  { state with
    subscriptions := state.subscriptions ++ added
    unsubscribed := withoutStreams addedStreamIds state.unsubscribed
    neverSubscribed := withoutStreams addedStreamIds state.neverSubscribed }

/-- `sub["subscribers"].remove(user_profile.id)`, which raises an error when the key or the id is
missing. -/
def removeSubscriber (userId : Nat) (sub : StreamDict) : Option StreamDict :=
  match sub.subscribers with
  | some subscribers =>
    if userId ∈ subscribers then some { sub with subscribers := some (subscribers.erase userId) }
    else none
  | none => none

/-- The branch for removed subscriptions. -/
def removeSubscriptions (context : Context) (state : RegisterState) (subs : List StreamDict) :
    Option RegisterState := do
  let removedStreamIds := streamIdsOf subs
  let affected := state.subscriptions.filter fun sub => sub.streamId ∈ removedStreamIds
  let removedSubs ←
    if context.includeSubscribers then affected.mapM (removeSubscriber context.userId)
    else some affected
  some { state with
    unsubscribed := state.unsubscribed ++ removedSubs
    subscriptions := withoutStreams removedStreamIds state.subscriptions }

/-- A subscription whose peers change by `change`; it raises an error when the key `subscribers`
is missing. -/
def changePeersOf (streamIds : List Nat) (change : Finset Nat → Finset Nat) (sub : StreamDict) :
    Option StreamDict :=
  if sub.streamId ∈ streamIds then
    sub.subscribers.map fun subscribers =>
      { sub with subscribers := some (sorted (change subscribers.toFinset)) }
  else some sub

/-- The loops of the branches `peer_add` and `peer_remove`. -/
def changePeers (context : Context) (state : RegisterState) (streamIds : List Nat)
    (change : Finset Nat → Finset Nat) : Option RegisterState :=
  if context.includeSubscribers then do
    let subscriptions ← state.subscriptions.mapM (changePeersOf streamIds change)
    let unsubscribed ← state.unsubscribed.mapM (changePeersOf streamIds change)
    let neverSubscribed ← state.neverSubscribed.mapM (changePeersOf streamIds change)
    some { state with
      subscriptions := subscriptions
      unsubscribed := unsubscribed
      neverSubscribed := neverSubscribed }
  else some state

/-- The branch `peer_add`. -/
def peerAdd (context : Context) (state : RegisterState) (streamIds userIds : List Nat) :
    Option RegisterState :=
  state.changePeers context streamIds fun subscribers => subscribers ∪ userIds.toFinset

/-- The branch `peer_remove`. -/
def peerRemove (context : Context) (state : RegisterState) (streamIds userIds : List Nat) :
    Option RegisterState :=
  state.changePeers context streamIds fun subscribers => subscribers \ userIds.toFinset

/-- The loop of the branches that change one user group. -/
def changeGroup (state : RegisterState) (groupId : Nat) (change : UserGroup → UserGroup) :
    RegisterState :=
  { state with
    realmUserGroups := state.realmUserGroups.map fun group =>
      if group.id = groupId then change group else group }

/-- `apply_event`; `none` when it raises an error. -/
def applyEvent (context : Context) (state : RegisterState) : Event → Option RegisterState
  | .draftsAdd drafts => some { state with drafts := state.drafts ++ drafts }
  | .scheduledMessagesAdd [scheduledMessage] =>
    some { state with
      scheduledMessages :=
        sortBy (·.scheduledDeliveryTimestamp) (state.scheduledMessages ++ [scheduledMessage]) }
  | .scheduledMessagesAdd _ => none
  | .realmBotAdd bot => some { state with realmBots := state.realmBots ++ [bot] }
  | .realmBotDelete userId =>
    some { state with realmBots := state.realmBots.filter fun item => item.userId != userId }
  | .streamCreate streams => some (state.createStreams context streams)
  | .streamDelete streams => some (state.deleteStreams streams)
  | .subscriptionAdd subs => some (state.addSubscriptions context subs)
  | .subscriptionRemove subs => state.removeSubscriptions context subs
  | .subscriptionPeerAdd streamIds userIds => state.peerAdd context streamIds userIds
  | .subscriptionPeerRemove streamIds userIds => state.peerRemove context streamIds userIds
  | .starredAdd messages =>
    some { state with starredMessages := state.starredMessages.map (· ++ messages) }
  | .starredRemove messages =>
    some { state with
      starredMessages := state.starredMessages.map fun starred =>
        starred.filter fun message => message ∉ messages }
  | .userGroupAdd group =>
    some { state with realmUserGroups := sortBy (·.id) (state.realmUserGroups ++ [group]) }
  | .userGroupAddMembers groupId userIds =>
    some (state.changeGroup groupId fun group =>
      { group with members := sortBy id (group.members ++ userIds) })
  | .userGroupRemoveMembers groupId userIds =>
    some (state.changeGroup groupId fun group =>
      { group with members := sorted (group.members.toFinset \ userIds.toFinset) })
  | .userGroupAddSubgroups groupId directSubgroupIds =>
    some (state.changeGroup groupId fun group =>
      { group with directSubgroupIds := sortBy id (group.directSubgroupIds ++ directSubgroupIds) })
  | .userGroupRemoveSubgroups groupId directSubgroupIds =>
    some (state.changeGroup groupId fun group =>
      { group with
        directSubgroupIds :=
          sorted (group.directSubgroupIds.toFinset \ directSubgroupIds.toFinset) })
  | .realmUserAdd person =>
    (context.users.addedPerson context.clientGravatar person).map fun person =>
      { state with rawUsers := state.rawUsers.set person.userId person }
  | .mutedTopics mutedTopics => some { state with mutedTopics := mutedTopics }
  | .realmDomainsAdd realmDomain =>
    some { state with realmDomains := state.realmDomains ++ [realmDomain] }
  | .realmDomainsRemove domain =>
    some { state with
      realmDomains := state.realmDomains.filter fun realmDomain => realmDomain.domain != domain }

end RegisterState

end Zulip.Register
