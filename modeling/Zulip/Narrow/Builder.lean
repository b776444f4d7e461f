import Zulip.Narrow.Clauses
import Zulip.Narrow.Terms

/-!
# `NarrowBuilder`

`add_term` and the `by_*` methods. A method checks its operand, computes a condition and adds it to
the query through `maybe_negate`; where the condition is not a single expression it has a definition
of its own.
-/

namespace Zulip.Narrow

open Zulip.Access Zulip.Messages

/-- A query for messages. -/
abbrev Query := Select Row ClauseElement

/-- `ConditionTransform`. -/
abbrev ConditionTransform := ClauseElement → ClauseElement

/-- What the builder is made for. -/
structure NarrowContext where
  userProfile : Option UserProfile
  realm : Realm
  isWebPublicQuery : Bool := false
deriving DecidableEq, Repr

/-- `NarrowBuilder`. -/
structure NarrowBuilder extends NarrowContext where
  isChannelNarrow : Bool := false
  isDmNarrow : Bool := false
deriving DecidableEq, Repr

/-- The methods of `by_method_map`. -/
inductive Method where
  | byHas
  | byIn
  | byIs
  | byChannel
  | byChannels
  | byTopic
  | bySender
  | byNear
  | byId
  | bySearch
  | byDm
  | byDmIncluding
  | byGroupPmWith
deriving DecidableEq, Repr

/-- `by_method_map`. -/
def byMethodMap : List (String × Method) :=
  [("has", .byHas), ("in", .byIn), ("is", .byIs), ("channel", .byChannel),
    -- "stream" is a legacy alias for "channel"
    ("stream", .byChannel), ("channels", .byChannels),
    -- "streams" is a legacy alias for "channels"
    ("streams", .byChannels), ("topic", .byTopic), ("sender", .bySender), ("near", .byNear),
    ("id", .byId), ("search", .bySearch), ("dm", .byDm),
    -- "pm-with:" is a legacy alias for "dm:"
    ("pm-with", .byDm), ("dm-including", .byDmIncluding),
    -- "group-pm-with:" was deprecated by the addition of "dm-including:"
    ("group-pm-with", .byGroupPmWith), ("pm_with", .byDm), ("group_pm_with", .byGroupPmWith)]

/-- The operands that `by_is` knows. -/
inductive IsOperand where
  | dm
  | starred
  | unread
  | mentioned
  | alerted
  | resolved
  | followed
deriving DecidableEq, Repr

/-- The names of the operands; `"private"` is a legacy alias for `"dm"`. -/
def isOperands : List (String × IsOperand) :=
  [("dm", .dm), ("private", .dm), ("starred", .starred), ("unread", .unread),
    ("mentioned", .mentioned), ("alerted", .alerted), ("resolved", .resolved),
    ("followed", .followed)]

/-- The operand as one that `by_is` knows. -/
def IsOperand.of? : Operand → Option IsOperand
  | .str text => isOperands.lookup text
  | _ => none

/-- `mention_flags_mask`. -/
def mentionFlagsMask : Flags :=
  {.mentioned, .streamWildcardMentioned, .topicWildcardMentioned, .groupMentioned}

/-- `column("flags", Integer).op("&")(UserMessage.flags.is_private.mask) != 0`. -/
def isPrivateCondition : ClauseElement := .flagsSet {.isPrivate}

/-- The condition of `by_is`. -/
def IsOperand.condition (user : UserProfile) : IsOperand → ClauseElement
  | .dm => isPrivateCondition
  | .starred => .flagsSet {.starred}
  | .unread => .flagsClear {.read}
  | .mentioned => .flagsSet mentionFlagsMask
  | .alerted => .flagsSet {.hasAlertWord}
  | .resolved => .resolvedTopic
  | .followed => .followedTopic user.id

section Lookups

variable (backend : Backend) (db : Database)

/-- `is_cross_realm_bot_email`. -/
def isCrossRealmBotEmail (email : String) : Bool :=
  backend.lower email ∈ backend.crossRealmBotEmails

/-- `get_user_including_cross_realm`: a system bot or a user of the realm, by email. -/
def getUserIncludingCrossRealm (email : String) (realm : Realm) : Except GetError UserProfile :=
  getUnique (db.users.filter fun user =>
    backend.upper user.email = backend.upper (backend.strip email) ∧
      (isCrossRealmBotEmail backend email = true ∨ user.realm = realm))

/-- `get_user_by_id_in_realm_including_cross_realm`. -/
def getUserByIdInRealmIncludingCrossRealm (userId : Int) (realm : Realm) :
    Except GetError UserProfile := do
  let user ← getUnique (db.users.filter fun user => (user.id : Int) = userId)
  if user.realm = realm ∨ isCrossRealmBotEmail backend user.deliveryEmail = true then .ok user
  else .error .doesNotExist

/-- The user that an operand of `sender`, `dm-including` or `group-pm-with` names. -/
def userOfOperand (operand : Operand) (realm : Realm) : Except NarrowError UserProfile :=
  let found := match operand with
    | .str email => some (getUserIncludingCrossRealm backend db email realm)
    | .int userId => some (getUserByIdInRealmIncludingCrossRealm backend db userId realm)
    | .ids _ => none
  match found with
  | some (.ok user) => .ok user
  | some (.error .doesNotExist) => .error (.badNarrowOperator ("unknown user " ++ operand.toStr))
  | some (.error .multipleObjectsReturned) => .error .multipleObjectsReturned
  | none => .error .typeError

/-- The users of an operand of `dm`: `get_user_profiles` or `get_user_profiles_by_ids`. -/
def usersOfOperand (operand : Operand) (realm : Realm) : Except NarrowError (List UserProfile) :=
  let lookUp (found : Except GetError UserProfile) : Except NarrowError UserProfile :=
    match found with
    | .ok user => .ok user
    | .error .doesNotExist =>
        .error (.badNarrowOperator ("unknown user in " ++ operand.toStr))
    | .error .multipleObjectsReturned => .error .multipleObjectsReturned
  match operand with
  | .str emails =>
      (emails.splitOn ",").mapM fun email =>
        lookUp (getUserIncludingCrossRealm backend db email realm)
  | .ids userIds =>
      userIds.mapM fun userId =>
        lookUp (getUserByIdInRealmIncludingCrossRealm backend db userId realm)
  | .int _ => .error .typeError

/-- The checks of `validate_recipient_user_profiles`; deactivated users are allowed here. -/
def recipientsAllowed (userProfiles : List UserProfile) (sender : UserProfile) : Bool :=
  let realms := (if isCrossRealmBotEmail backend sender.email then [] else [sender.realm]) ++
    (userProfiles.filter fun user => !isCrossRealmBotEmail backend user.email).map (·.realm)
  (userProfiles.all fun user => !user.realm.deactivated) && realms.dedup.length ≤ 1

/-- `recipient_for_user_profiles` as `by_dm` calls it. There is no recipient for a group that does
not exist. -/
def recipientForUserProfiles (userProfiles : List UserProfile) (sender : UserProfile)
    (operand : Operand) : Except NarrowError (Option Recipient) :=
  if !recipientsAllowed backend userProfiles sender then
    .error (.badNarrowOperator ("unknown user in " ++ operand.toStr))
  else
    let userIds := (userProfiles.map (·.id)).dedup
    -- A message between the sender and another person is a personal one
    let userIds := if userIds.length = 2 then userIds.filter fun id => id ≠ sender.id else userIds
    match userIds with
    | [] => .error .assertionError
    | [userId] => .ok (some (.personal userId))
    | userIds =>
        let userIds := insert sender.id userIds.toFinset
        let groups := db.directMessageGroups.filter fun group =>
          group.huddleHash = backend.directMessageGroupHash userIds
        match getUnique groups with
        | .ok group => .ok (some group.recipient)
        | .error .doesNotExist => .ok none
        | .error .multipleObjectsReturned => .error .multipleObjectsReturned

/-- `_get_direct_message_group_recipients`. -/
def getDirectMessageGroupRecipients (user otherUser : UserProfile) : List Recipient :=
  let recipientsOf (userId : Nat) :=
    (db.subscriptions.filter fun row =>
      row.userProfileId = userId ∧ row.recipient matches .directMessageGroup _).map (·.recipient)
  (recipientsOf user.id).filter fun recipient => recipient ∈ recipientsOf otherUser.id

/-- `exclude_topic_mutes` without a stream. -/
def excludeTopicMutes (user : UserProfile) : List ClauseElement :=
  let rows := db.userTopics.filter fun row =>
    row.userProfileId = user.id ∧ row.visibilityPolicy = .muted
  if rows = [] then []
  else
    [.not_ (.any (rows.map fun row => .and_ (.recipientIs row.recipient) (.topicMatch row.topicName)))]

/-- `exclude_muting_conditions(user_profile, [])`. -/
def excludeMutingConditions (user : UserProfile) : List ClauseElement :=
  let mutedRecipientIds := (db.subscriptions.filter fun row =>
    row.userProfileId = user.id ∧ row.active = true ∧ row.isMuted = true ∧
      row.recipient.isStream = true).map (·.recipient)
  (if mutedRecipientIds = [] then [] else [.not_ (.recipientIn mutedRecipientIds)]) ++
    excludeTopicMutes db user

end Lookups

/-- `assert not self.is_web_public_query` and `assert self.user_profile is not None`. -/
def NarrowContext.requireUser (context : NarrowContext) : Except NarrowError UserProfile :=
  match context.isWebPublicQuery, context.userProfile with
  | false, some user => .ok user
  | _, _ => .error .assertionError

section Conditions

variable (backend : Backend) (db : Database) (context : NarrowContext)

/-- The condition of `by_has`. -/
def hasCondition (operand : Operand) : Except NarrowError ClauseElement :=
  if operand = .str "reaction" then .ok .hasReaction
  else if operand = .str "attachment" then .ok .hasAttachment
  else if operand = .str "image" then .ok .hasImage
  else if operand = .str "link" then .ok .hasLink
  else .error (.badNarrowOperator ("unknown 'has' operand " ++ operand.toStr))

/-- The channel that `by_channel` narrows to. -/
def channelOfOperand (operand : Operand) : Except NarrowError Stream :=
  let found := match operand with
    | .str name => some (db.getStream backend.toTextFunctions name context.realm)
    | .int streamId => some (db.getStreamByIdInRealm streamId context.realm)
    | .ids _ => none
  match found with
  | some (.ok channel) =>
      if context.isWebPublicQuery = true ∧ channel.isWebPublic = false then
        .error (.badNarrowOperator ("unknown web-public channel " ++ operand.toStr))
      else .ok channel
  | some (.error .doesNotExist) => .error (.badNarrowOperator ("unknown channel " ++ operand.toStr))
  | some (.error .multipleObjectsReturned) => .error .multipleObjectsReturned
  | none => .error .typeError

/-- The channels that the Zephyr mirroring realm shows together with a channel. -/
def matchingChannels (channel : Stream) : List Stream :=
  (db.getActiveStreams context.realm).filter fun other =>
    matchesChannelName backend.upper (baseChannelName channel.name) other.name

/-- The condition of `by_channel`. -/
def channelCondition (operand : Operand) : Except NarrowError ClauseElement := do
  let channel ← channelOfOperand backend db context operand
  if context.realm.isZephyrMirrorRealm then
    -- All channels in a Zephyr realm are private
    if channel.isPublic then .error .assertionError
    else .ok (.recipientIn ((matchingChannels backend db context channel).map (·.recipient)))
  else .ok (.recipientIs channel.recipient)

/-- The condition of `by_channels`. -/
def channelsCondition (operand : Operand) : Except NarrowError ClauseElement :=
  if operand = .str "public" then
    .ok (.recipientIn ((db.getPublicStreamsQueryset context.realm).map (·.recipient)))
  else if operand = .str "web-public" then
    .ok (.recipientIn ((db.getWebPublicStreamsQueryset context.realm).map (·.recipient)))
  else .error (.badNarrowOperator ("unknown channels operand " ++ operand.toStr))

/-- A topic of the Zephyr mirroring realm with up to four `.d`. -/
def topicWithDotDs (topic : String) : List ClauseElement :=
  ["", ".d", ".d.d", ".d.d.d", ".d.d.d.d"].map fun suffix => .topicMatch (topic ++ suffix)

/-- The condition of `by_topic`. -/
def topicCondition (operand : Operand) : Except NarrowError ClauseElement :=
  match operand with
  | .str topicName =>
      if context.realm.isZephyrMirrorRealm then
        match baseTopic topicName with
        | none => .error .assertionError
        | some base =>
            if base ∈ ["", "personal", "(instance \"\")"] then
              .ok (.any (topicWithDotDs "" ++ topicWithDotDs "personal" ++
                topicWithDotDs "(instance \"\")"))
            else .ok (.any (topicWithDotDs base))
      else .ok (.topicMatch topicName)
  | _ => .error .typeError

/-- The condition of `by_sender`. -/
def senderCondition (operand : Operand) : Except NarrowError ClauseElement := do
  let sender ← userOfOperand backend db operand context.realm
  return .senderIs sender.id

/-- `Message.MAX_POSSIBLE_MESSAGE_ID`. -/
def maxPossibleMessageId : Nat := 2147483647

/-- `int(operand)` for a text of digits. -/
def intOfDigits (digits : List Char) : Nat :=
  digits.foldl (fun value digit => value * 10 + (digit.toNat - '0'.toNat)) 0

/-- The condition of `by_id`. A text with other digits than these passes `isdigit`, but it is not a
number for the database. -/
def idCondition (operand : Operand) : Except NarrowError ClauseElement :=
  let digits := operand.toStr.toList
  if digits ≠ [] ∧ digits.all Char.isDigit = true ∧
      intOfDigits digits ≤ maxPossibleMessageId then
    .ok (.messageIs (intOfDigits digits))
  else .error (.badNarrowOperator "Invalid message ID")

/-- The condition of `by_dm`. -/
def dmCondition (operand : Operand) : Except NarrowError ClauseElement := do
  let user ← context.requireUser
  let userProfiles ← usersOfOperand backend db operand context.realm
  let recipient ← recipientForUserProfiles backend db userProfiles user operand
  match recipient with
  -- Group DM where huddle doesn't exist
  | none => return .false_
  | some (.directMessageGroup groupId) => return .recipientIs (.directMessageGroup groupId)
  | some recipient =>
      -- Find if another person is in direct message
      match (userProfiles.filter fun other => other.id ≠ user.id).getLast? with
      -- Direct message with another person
      | some otherParticipant =>
          return .all [isPrivateCondition, .realmIs context.realm,
            .or_ (.and_ (.senderIs otherParticipant.id) (.recipientIs user.recipient))
              (.and_ (.senderIs user.id) (.recipientIs recipient))]
      -- Direct message with self
      | none =>
          return .all [isPrivateCondition, .realmIs context.realm, .senderIs user.id,
            .recipientIs recipient]

/-- The condition of `by_dm_including`. -/
def dmIncludingCondition (operand : Operand) : Except NarrowError ClauseElement := do
  let user ← context.requireUser
  let narrowUserProfile ← userOfOperand backend db operand context.realm
  if narrowUserProfile.id = user.id then return isPrivateCondition
  else
    return .all [isPrivateCondition, .realmIs context.realm,
      .any [.and_ (.senderIs narrowUserProfile.id) (.recipientIs user.recipient),
        .and_ (.senderIs user.id) (.recipientIs narrowUserProfile.recipient),
        .recipientIn (getDirectMessageGroupRecipients db user narrowUserProfile)]]

/-- The condition of `by_group_pm_with`. -/
def groupPmWithCondition (operand : Operand) : Except NarrowError ClauseElement := do
  let user ← context.requireUser
  let narrowProfile ← userOfOperand backend db operand context.realm
  return .all [isPrivateCondition, .realmIs context.realm,
    .recipientIn (getDirectMessageGroupRecipients db user narrowProfile)]

/-- The condition of `by_is`. -/
def isCondition (operand : Operand) : Except NarrowError ClauseElement := do
  let user ← context.requireUser
  match IsOperand.of? operand with
  | some isOperand => return isOperand.condition user
  | none => .error (.badNarrowOperator ("unknown 'is' operand " ++ operand.toStr))

end Conditions

/-- The quoted terms of `re.findall(r'"[^"]+"|\S+', operand)`, without their quotes. -/
def quotedTerms (isSpace : Char → Bool) : Nat → List Char → List String
  | 0, _ => []
  | _, [] => []
  | fuel + 1, char :: rest =>
      let phrase := rest.takeWhile (· ≠ '"')
      let afterPhrase := rest.dropWhile (· ≠ '"')
      let word := (char :: rest).takeWhile fun other => !isSpace other
      let afterWord := (char :: rest).dropWhile fun other => !isSpace other
      if char = '"' ∧ phrase ≠ [] ∧ afterPhrase ≠ [] then
        String.ofList phrase :: quotedTerms isSpace fuel afterPhrase.tail
      else if isSpace char then quotedTerms isSpace fuel rest
      -- A word between quotes that is no phrase, such as a quote alone
      else if char = '"' ∧ word.getLast? = some '"' then
        String.ofList (word.drop 1).dropLast :: quotedTerms isSpace fuel afterWord
      else quotedTerms isSpace fuel afterWord

/-- The conditions of `_by_search_pgroonga` and `_by_search_tsearch`, in the order in which they are
added. -/
def searchConditions (backend : Backend) (operand : String) : List ClauseElement :=
  if backend.usingPgroonga then [.pgroonga operand]
  else
    (quotedTerms backend.isSpace operand.length operand.toList).map
        (fun term => .or_ (.contentIlike term) (.topicIlike term)) ++
      [.tsvector operand]

namespace NarrowBuilder

/-- `check_not_both_channel_and_dm_narrow`. -/
def checkNotBothChannelAndDmNarrow (self : NarrowBuilder) (isDmNarrow isChannelNarrow : Bool) :
    Except NarrowError NarrowBuilder :=
  let self := { self with
    isDmNarrow := self.isDmNarrow || isDmNarrow
    isChannelNarrow := self.isChannelNarrow || isChannelNarrow }
  if self.isChannelNarrow ∧ self.isDmNarrow then
    .error (.badNarrowOperator "No message can be both a channel message and direct message")
  else .ok self

/-- The check of `by_is`, for the operands that are about direct messages. -/
def checkIs (self : NarrowBuilder) (operand : Operand) : Except NarrowError NarrowBuilder :=
  if IsOperand.of? operand = some .dm then self.checkNotBothChannelAndDmNarrow true false
  else .ok self

section Methods

variable (backend : Backend) (db : Database) (self : NarrowBuilder) (query : Query)
  (operand : Operand) (maybeNegate : ConditionTransform)

/-- `by_has`. -/
def byHas : Except NarrowError (NarrowBuilder × Query) := do
  let condition ← hasCondition operand
  return (self, query.filterBy (maybeNegate condition))

/-- `by_in`, which does not look at the negation. -/
def byIn : Except NarrowError (NarrowBuilder × Query) := do
  let user ← self.requireUser
  if operand = .str "home" then
    return (self, query.filterByAll (excludeMutingConditions db user))
  else if operand = .str "all" then return (self, query)
  else .error (.badNarrowOperator ("unknown 'in' operand " ++ operand.toStr))

/-- `by_is`. -/
def byIs : Except NarrowError (NarrowBuilder × Query) := do
  let self ← self.checkIs operand
  let condition ← isCondition self.toNarrowContext operand
  return (self, query.filterBy (maybeNegate condition))

/-- `by_channel`. -/
def byChannel : Except NarrowError (NarrowBuilder × Query) := do
  let self ← self.checkNotBothChannelAndDmNarrow false true
  let condition ← channelCondition backend db self.toNarrowContext operand
  return (self, query.filterBy (maybeNegate condition))

/-- `by_channels`. -/
def byChannels : Except NarrowError (NarrowBuilder × Query) := do
  let self ← self.checkNotBothChannelAndDmNarrow false true
  let condition ← channelsCondition db self.toNarrowContext operand
  return (self, query.filterBy (maybeNegate condition))

/-- `by_topic`. -/
def byTopic : Except NarrowError (NarrowBuilder × Query) := do
  let self ← self.checkNotBothChannelAndDmNarrow false true
  let condition ← topicCondition self.toNarrowContext operand
  return (self, query.filterBy (maybeNegate condition))

/-- `by_sender`. -/
def bySender : Except NarrowError (NarrowBuilder × Query) := do
  let condition ← senderCondition backend db self.toNarrowContext operand
  return (self, query.filterBy (maybeNegate condition))

/-- `by_near`. -/
def byNear : Except NarrowError (NarrowBuilder × Query) := return (self, query)

/-- `by_id`. -/
def byId : Except NarrowError (NarrowBuilder × Query) := do
  let condition ← idCondition operand
  return (self, query.filterBy (maybeNegate condition))

/-- `by_dm`. -/
def byDm : Except NarrowError (NarrowBuilder × Query) := do
  let self ← self.checkNotBothChannelAndDmNarrow true false
  let condition ← dmCondition backend db self.toNarrowContext operand
  return (self, query.filterBy (maybeNegate condition))

/-- `by_dm_including`. -/
def byDmIncluding : Except NarrowError (NarrowBuilder × Query) := do
  let self ← self.checkNotBothChannelAndDmNarrow true false
  let condition ← dmIncludingCondition backend db self.toNarrowContext operand
  return (self, query.filterBy (maybeNegate condition))

/-- `by_group_pm_with`. -/
def byGroupPmWith : Except NarrowError (NarrowBuilder × Query) := do
  let self ← self.checkNotBothChannelAndDmNarrow true false
  let condition ← groupPmWithCondition backend db self.toNarrowContext operand
  return (self, query.filterBy (maybeNegate condition))

/-- `by_search`; the columns it adds for the matches are left out. -/
def bySearch : Except NarrowError (NarrowBuilder × Query) :=
  match operand with
  | .str operand =>
      return (self, query.filterByAll ((searchConditions backend operand).map maybeNegate))
  | _ => .error .typeError

end Methods

/-- The method that a name of `by_method_map` stands for. -/
def callMethod (backend : Backend) (db : Database) (self : NarrowBuilder) :
    Method → Query → Operand → ConditionTransform → Except NarrowError (NarrowBuilder × Query)
  | .byHas => byHas self
  | .byIn => fun query operand _ => byIn db self query operand
  | .byIs => byIs self
  | .byChannel => byChannel backend db self
  | .byChannels => byChannels db self
  | .byTopic => byTopic self
  | .bySender => bySender backend db self
  | .byNear => fun query _ _ => byNear self query
  | .byId => byId self
  | .bySearch => bySearch backend self
  | .byDm => byDm backend db self
  | .byDmIncluding => byDmIncluding backend db self
  | .byGroupPmWith => byGroupPmWith backend db self

/-- `add_term`. -/
def addTerm (backend : Backend) (db : Database) (self : NarrowBuilder) (query : Query)
    (term : NarrowParameter) : Except NarrowError (NarrowBuilder × Query) :=
  match byMethodMap.lookup term.operator with
  | none => .error (.badNarrowOperator ("unknown operator " ++ term.operator))
  | some method =>
      callMethod backend db self method query term.operand
        (if term.negated then .not_ else id)

end NarrowBuilder

end Zulip.Narrow
