import Zulip.Messages.Flags

/-!
# Tables that access to messages depends on

`Recipient` rows are keyed by their type and type id, so a `recipient_id` is modelled by that pair.
A `realm` column holds the row of the realm. Queries that end in `get` fail when there is no row or
more than one.
-/

namespace Zulip.Access

open Zulip.Messages

/-- A `Recipient` row with its `type` and `type_id`. -/
inductive Recipient where
  /-- `Recipient.PERSONAL` -/
  | personal (userId : Nat)
  /-- `Recipient.STREAM` -/
  | stream (streamId : Nat)
  /-- `Recipient.DIRECT_MESSAGE_GROUP` -/
  | directMessageGroup (groupId : Nat)
deriving DecidableEq, Repr

namespace Recipient

/-- `recipient.type == Recipient.STREAM`. -/
def isStream : Recipient → Bool
  | .stream _ => true
  | _ => false

end Recipient

/-- A `Realm` row. -/
structure Realm where
  id : Nat
  isZephyrMirrorRealm : Bool
  deactivated : Bool
deriving DecidableEq, Repr

/-- A `Stream` row. -/
structure Stream where
  id : Nat
  realm : Realm
  name : String
  inviteOnly : Bool
  historyPublicToSubscribers : Bool
  isWebPublic : Bool
  deactivated : Bool
  isInZephyrRealm : Bool
  /-- The field is populated directly from the realm. -/
  populated : isInZephyrRealm = realm.isZephyrMirrorRealm
deriving DecidableEq

namespace Stream

/-- `stream.recipient`. -/
def recipient (stream : Stream) : Recipient := .stream stream.id

/-- `Stream.is_public`: all streams are private in Zephyr mirroring realms. -/
def isPublic (stream : Stream) : Bool := !stream.inviteOnly && !stream.isInZephyrRealm

/-- `Stream.is_history_realm_public`. -/
def isHistoryRealmPublic (stream : Stream) : Bool := stream.isPublic

/-- `Stream.is_history_public_to_subscribers`. -/
def isHistoryPublicToSubscribers (stream : Stream) : Bool := stream.historyPublicToSubscribers

end Stream

/-- `UserProfile.role`. -/
inductive Role where
  | realmOwner
  | realmAdministrator
  | moderator
  | member
  | guest
deriving DecidableEq, Repr

/-- A `UserProfile` row. -/
structure UserProfile where
  id : Nat
  realm : Realm
  role : Role
  email : String
  deliveryEmail : String
deriving DecidableEq, Repr

namespace UserProfile

/-- `user_profile.recipient`. -/
def recipient (user : UserProfile) : Recipient := .personal user.id

/-- `UserProfile.is_guest`. -/
def isGuest (user : UserProfile) : Bool := user.role = .guest

/-- `UserProfile.is_realm_admin`. -/
def isRealmAdmin (user : UserProfile) : Bool :=
  user.role = .realmAdministrator ∨ user.role = .realmOwner

/-- `UserProfile.can_access_public_streams`. -/
def canAccessPublicStreams (user : UserProfile) : Bool :=
  !(user.isGuest || user.realm.isZephyrMirrorRealm)

end UserProfile

/-- A `Subscription` row. -/
structure Subscription where
  userProfileId : Nat
  recipient : Recipient
  active : Bool
  isMuted : Bool
deriving DecidableEq, Repr

/-- A `Message` row. -/
structure Message where
  id : Nat
  realm : Realm
  senderId : Nat
  recipient : Recipient
  subject : String
  content : String
  hasAttachment : Bool
  hasImage : Bool
  hasLink : Bool
deriving DecidableEq, Repr

/-- A `UserMessage` row. -/
structure UserMessage where
  userProfileId : Nat
  messageId : Nat
  flags : Flags
deriving DecidableEq

/-- `UserTopic.VisibilityPolicy`. -/
inductive VisibilityPolicy where
  | inherit
  | muted
  | unmuted
  | followed
deriving DecidableEq, Repr

/-- A `UserTopic` row. -/
structure UserTopic where
  userProfileId : Nat
  recipient : Recipient
  topicName : String
  visibilityPolicy : VisibilityPolicy
deriving DecidableEq, Repr

/-- A `DirectMessageGroup` row. -/
structure DirectMessageGroup where
  id : Nat
  huddleHash : String
deriving DecidableEq, Repr

namespace DirectMessageGroup

/-- `direct_message_group.recipient`. -/
def recipient (group : DirectMessageGroup) : Recipient := .directMessageGroup group.id

end DirectMessageGroup

/-- The database, with the constraints that its writers keep. -/
structure Database where
  streams : List Stream := []
  users : List UserProfile := []
  subscriptions : List Subscription := []
  messages : List Message := []
  userMessages : List UserMessage := []
  userTopics : List UserTopic := []
  directMessageGroups : List DirectMessageGroup := []
  /-- The `message_id` column of the `Reaction` rows. -/
  reactions : List Nat := []
  streamKeys : (streams.map (·.id)).Nodup := by decide
  messageKeys : (messages.map (·.id)).Nodup := by decide
  userMessageKeys : (userMessages.map fun row => (row.userProfileId, row.messageId)).Nodup := by
    decide
  /-- A stream message belongs to a stream, and to its realm. -/
  streamOfMessage : ∀ message ∈ messages, ∀ streamId, message.recipient = .stream streamId →
    ∃ stream ∈ streams, stream.id = streamId ∧ stream.realm = message.realm

/-- Why a query that ends in `get` fails. -/
inductive GetError where
  | doesNotExist
  | multipleObjectsReturned
deriving DecidableEq, Repr

/-- `queryset.get()`. -/
def getUnique {Row : Type} : List Row → Except GetError Row
  | [] => .error .doesNotExist
  | [row] => .ok row
  | _ :: _ :: _ => .error .multipleObjectsReturned

section GetUnique

variable {Row : Type} {rows : List Row} {row : Row}

theorem getUnique_eq_ok_iff : getUnique rows = .ok row ↔ rows = [row] := by
  rcases rows with _ | ⟨first, _ | ⟨second, rest⟩⟩
  · simp [getUnique]
  · simp [getUnique]
  · simp [getUnique]

theorem mem_of_getUnique_filter {test : Row → Bool}
    (found : getUnique (rows.filter test) = .ok row) : row ∈ rows ∧ test row = true := by
  rw [getUnique_eq_ok_iff] at found
  exact List.mem_filter.mp (found ▸ List.mem_singleton_self row)

/-- A lookup by a key that no two rows share. -/
theorem getUnique_filter_of_key {Key : Type} [DecidableEq Key] {key : Row → Key} {test : Row → Bool}
    (keyed : (rows.map key).Nodup) (member : row ∈ rows)
    (isTest : ∀ other ∈ rows, test other = true ↔ key other = key row) :
    getUnique (rows.filter test) = .ok row := by
  rw [getUnique_eq_ok_iff]
  induction rows with
  | nil => cases member
  | cons head rest inductionHypothesis =>
      rw [List.map_cons, List.nodup_cons] at keyed
      have restTest : ∀ other ∈ rest, test other = true ↔ key other = key row :=
        fun other isRest => isTest other (List.mem_cons_of_mem _ isRest)
      rcases List.mem_cons.mp member with rfl | isRest
      · have noneLeft : rest.filter test = [] := by
          rw [List.filter_eq_nil_iff]
          intro other isRest isMatch
          exact keyed.1 (List.mem_map.mpr ⟨other, isRest, (restTest other isRest).mp isMatch⟩)
        rw [List.filter_cons_of_pos ((isTest row List.mem_cons_self).mpr rfl), noneLeft]
      · have notHead : test head ≠ true := by
          intro isMatch
          have sameKey := (isTest head List.mem_cons_self).mp isMatch
          exact keyed.1 (sameKey ▸ List.mem_map_of_mem isRest)
        rw [List.filter_cons_of_neg notHead]
        exact inductionHypothesis keyed.2 isRest restTest

/-- The first row with a key that no two rows share. -/
theorem find?_of_key {Key : Type} {key : Row → Key} {test : Row → Bool}
    (keyed : (rows.map key).Nodup) (member : row ∈ rows) (isMatch : test row = true)
    (sameKey : ∀ other ∈ rows, test other = true → key other = key row) :
    rows.find? test = some row := by
  cases found : rows.find? test with
  | none => exact absurd isMatch (List.find?_eq_none.mp found row member)
  | some other =>
      have otherMember := List.mem_of_find?_eq_some found
      have sameRow := sameKey other otherMember (List.find?_some found)
      rw [List.inj_on_of_nodup_map keyed otherMember member sameRow]

end GetUnique

namespace Database

variable {db : Database}

/-- `UserMessage.objects.filter(user_profile=user, message_id=message_id).exists()`. -/
def hasUserMessage (db : Database) (userId messageId : Nat) : Bool :=
  db.userMessages.any fun row => row.userProfileId = userId ∧ row.messageId = messageId

/-- `Subscription.objects.filter(user_profile=user, active=True, recipient=recipient).exists()`. -/
def isSubscribed (db : Database) (userId : Nat) (recipient : Recipient) : Bool :=
  db.subscriptions.any fun row =>
    row.userProfileId = userId ∧ row.active = true ∧ row.recipient = recipient

/-- `Stream.objects.get(id=stream_id)`. -/
def getStreamById (db : Database) (streamId : Nat) : Except GetError Stream :=
  getUnique (db.streams.filter fun stream => stream.id = streamId)

theorem getStreamById_of_mem {stream : Stream} (member : stream ∈ db.streams) :
    db.getStreamById stream.id = .ok stream :=
  getUnique_filter_of_key db.streamKeys member fun other _ => by simp

/-- The stream that a stream message was sent to. -/
theorem exists_stream {message : Message} (stored : message ∈ db.messages) {streamId : Nat}
    (isStream : message.recipient = .stream streamId) :
    ∃ stream ∈ db.streams, stream.recipient = message.recipient ∧ stream.realm = message.realm ∧
      db.getStreamById streamId = .ok stream := by
  obtain ⟨stream, member, rfl, sameRealm⟩ := db.streamOfMessage message stored streamId isStream
  exact ⟨stream, member, isStream.symm, sameRealm, getStreamById_of_mem member⟩

end Database

end Zulip.Access
