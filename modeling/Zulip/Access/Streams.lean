import Zulip.Access.Messages

/-!
# Access to streams and to their history

The functions of `lib/streams.py` that message queries rely on. Text is compared case-insensitively
as `UPPER` of the database does it; `upper` and Python's `strip` are parameters.
-/

namespace Zulip.Access

/-- The text functions that lookups by name use. -/
structure TextFunctions where
  /-- `UPPER` of the database, with which `__iexact` lookups and topics are compared. -/
  upper : String → String
  /-- Python's `str.lower`. -/
  lower : String → String
  /-- Python's `str.strip`. -/
  strip : String → String

namespace Database

variable (text : TextFunctions) (db : Database)

/-- `get_stream`, which is `get_realm_stream` for the id of the realm. -/
def getStream (streamName : String) (realm : Realm) : Except GetError Stream :=
  getUnique (db.streams.filter fun stream =>
    text.upper stream.name = text.upper (text.strip streamName) ∧ stream.realm = realm)

/-- `get_stream_by_id_in_realm`. -/
def getStreamByIdInRealm (streamId : Int) (realm : Realm) : Except GetError Stream :=
  getUnique (db.streams.filter fun stream => (stream.id : Int) = streamId ∧ stream.realm = realm)

/-- `get_active_streams`. -/
def getActiveStreams (realm : Realm) : List Stream :=
  db.streams.filter fun stream => stream.realm = realm ∧ stream.deactivated = false

/-- `get_public_streams_queryset`. -/
def getPublicStreamsQueryset (realm : Realm) : List Stream :=
  db.streams.filter fun stream =>
    stream.realm = realm ∧ stream.inviteOnly = false ∧ stream.historyPublicToSubscribers = true

/-- `get_web_public_streams_queryset`. -/
def getWebPublicStreamsQueryset (realm : Realm) : List Stream :=
  db.streams.filter fun stream =>
    stream.realm = realm ∧ stream.isWebPublic = true ∧ stream.deactivated = false ∧
      stream.inviteOnly = false ∧ stream.historyPublicToSubscribers = true

end Database

section Lookups

variable {text : TextFunctions} {db : Database} {realm : Realm} {stream : Stream}

theorem getStream_mem {streamName : String} (found : db.getStream text streamName realm = .ok stream) :
    stream ∈ db.streams ∧ stream.realm = realm := by
  obtain ⟨member, isMatch⟩ := mem_of_getUnique_filter found
  rw [decide_eq_true_eq] at isMatch
  exact ⟨member, isMatch.2⟩

theorem getStreamByIdInRealm_mem {streamId : Int}
    (found : db.getStreamByIdInRealm streamId realm = .ok stream) :
    stream ∈ db.streams ∧ stream.realm = realm ∧ (stream.id : Int) = streamId := by
  obtain ⟨member, isMatch⟩ := mem_of_getUnique_filter found
  rw [decide_eq_true_eq] at isMatch
  exact ⟨member, isMatch.2, isMatch.1⟩

theorem getStreamByIdInRealm_of_mem (member : stream ∈ db.streams) :
    db.getStreamByIdInRealm stream.id stream.realm = .ok stream := by
  refine getUnique_filter_of_key db.streamKeys member fun other otherMember => ?_
  rw [decide_eq_true_eq, Int.natCast_inj]
  constructor
  · exact fun isMatch => isMatch.1
  · intro sameId
    exact ⟨sameId, by rw [List.inj_on_of_nodup_map db.streamKeys otherMember member sameId]⟩

theorem mem_getActiveStreams :
    stream ∈ db.getActiveStreams realm ↔
      stream ∈ db.streams ∧ stream.realm = realm ∧ stream.deactivated = false := by
  simp [Database.getActiveStreams]

theorem mem_getPublicStreamsQueryset :
    stream ∈ db.getPublicStreamsQueryset realm ↔
      stream ∈ db.streams ∧ stream.realm = realm ∧ stream.inviteOnly = false ∧
        stream.historyPublicToSubscribers = true := by
  simp [Database.getPublicStreamsQueryset]

theorem mem_getWebPublicStreamsQueryset :
    stream ∈ db.getWebPublicStreamsQueryset realm ↔
      stream ∈ db.streams ∧ stream.realm = realm ∧ stream.isWebPublic = true ∧
        stream.deactivated = false ∧ stream.inviteOnly = false ∧
          stream.historyPublicToSubscribers = true := by
  simp [Database.getWebPublicStreamsQueryset]

end Lookups

/-- `check_basic_stream_access`, given whether there is a subscription. -/
def checkBasicStreamAccess (user : UserProfile) (stream : Stream) (sub : Option Subscription)
    (allowRealmAdmin : Bool) : Bool :=
  -- Any realm user, even guests, can access web_public streams
  stream.isWebPublic ||
    (stream.isPublic && !user.isGuest) ||
    sub.isSome ||
    (user.isRealmAdmin && allowRealmAdmin)

/-- `access_stream_common`; the subscription of a user to a recipient is unique. -/
def accessStreamCommon (db : Database) (user : UserProfile) (stream : Stream) (error : String)
    (requireActive : Bool := true) (allowRealmAdmin : Bool := false) :
    Except AccessError (Option Subscription) :=
  if stream.realm ≠ user.realm then .error .assertionError
  else
    let sub := db.subscriptions.find? fun row =>
      row.userProfileId = user.id ∧ row.recipient = stream.recipient ∧ row.active = requireActive
    if checkBasicStreamAccess user stream sub allowRealmAdmin then .ok sub
    else .error (.jsonable error)

/-- `can_access_stream_history`. -/
def canAccessStreamHistory (db : Database) (user : UserProfile) (stream : Stream) :
    Except AccessError Bool :=
  if user.realm ≠ stream.realm then .error .assertionError
  else if stream.isWebPublic then .ok true
  else if stream.isHistoryRealmPublic && !user.isGuest then .ok true
  else if stream.isHistoryPublicToSubscribers then
    -- In this case, we check if the user is subscribed
    match accessStreamCommon db user stream ("Invalid channel name '" ++ stream.name ++ "'") with
    | .ok _ => .ok true
    | .error (.jsonable _) => .ok false
    | .error error => .error error
  else .ok false

/-- `can_access_stream_history_by_name`. -/
def canAccessStreamHistoryByName (text : TextFunctions) (db : Database) (user : UserProfile)
    (streamName : String) : Except AccessError Bool :=
  match db.getStream text streamName user.realm with
  | .ok stream => canAccessStreamHistory db user stream
  | .error .doesNotExist => .ok false
  | .error error => .error (.get error)

/-- `can_access_stream_history_by_id`. -/
def canAccessStreamHistoryById (db : Database) (user : UserProfile) (streamId : Int) :
    Except AccessError Bool :=
  match db.getStreamByIdInRealm streamId user.realm with
  | .ok stream => canAccessStreamHistory db user stream
  | .error .doesNotExist => .ok false
  | .error error => .error (.get error)

section History

variable {text : TextFunctions} {db : Database} {user : UserProfile} {stream : Stream}

/-- The subscription that `access_stream_common` looks at is there when the user is subscribed. -/
theorem accessStreamCommon_eq (db : Database) (sameRealm : stream.realm = user.realm)
    (error : String) :
    ∃ sub : Option Subscription, sub.isSome = db.isSubscribed user.id stream.recipient ∧
      accessStreamCommon db user stream error =
        if checkBasicStreamAccess user stream sub false then .ok sub
        else .error (.jsonable error) := by
  refine ⟨db.subscriptions.find? fun row =>
    row.userProfileId = user.id ∧ row.recipient = stream.recipient ∧ row.active = true, ?_, ?_⟩
  · rw [Bool.eq_iff_iff, List.find?_isSome]
    simp only [Database.isSubscribed, List.any_eq_true, decide_eq_true_eq]
    exact exists_congr fun row => and_congr_right fun _ => and_congr_right fun _ => and_comm
  · unfold accessStreamCommon
    rw [if_neg (by simp [sameRealm])]

/-- Who may read the whole history of a stream. -/
theorem canAccessStreamHistory_iff (sameRealm : stream.realm = user.realm) :
    canAccessStreamHistory db user stream = .ok true ↔
      stream.isWebPublic = true ∨ (stream.isPublic = true ∧ user.isGuest = false) ∨
        (stream.isHistoryPublicToSubscribers = true ∧
          db.isSubscribed user.id stream.recipient = true) := by
  obtain ⟨sub, isSub, accessEq⟩ := accessStreamCommon_eq db sameRealm
    ("Invalid channel name '" ++ stream.name ++ "'")
  unfold canAccessStreamHistory
  rw [accessEq, if_neg (by simp [sameRealm]), ← isSub]
  unfold checkBasicStreamAccess
  cases stream.isWebPublic <;> cases isPublic : stream.isPublic <;> cases user.isGuest <;>
    cases stream.isHistoryPublicToSubscribers <;> cases sub <;>
    simp [Stream.isHistoryRealmPublic, isPublic]

/-- A stream that history access by name was granted for. -/
theorem exists_stream_of_byName {streamName : String}
    (granted : canAccessStreamHistoryByName text db user streamName = .ok true) :
    ∃ stream, db.getStream text streamName user.realm = .ok stream ∧
      canAccessStreamHistory db user stream = .ok true := by
  unfold canAccessStreamHistoryByName at granted
  split at granted
  · next stream found => exact ⟨stream, found, granted⟩
  · cases granted
  · cases granted

/-- A stream that history access by id was granted for. -/
theorem exists_stream_of_byId {streamId : Int}
    (granted : canAccessStreamHistoryById db user streamId = .ok true) :
    ∃ stream, db.getStreamByIdInRealm streamId user.realm = .ok stream ∧
      canAccessStreamHistory db user stream = .ok true := by
  unfold canAccessStreamHistoryById at granted
  split at granted
  · next stream found => exact ⟨stream, found, granted⟩
  · cases granted
  · cases granted

end History

end Zulip.Access
