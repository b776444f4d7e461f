import Mathlib
import Zulip.Narrow.EventAgreement

/-!
# The `with` operator

`update_narrow_terms_containing_with_operator` replaces the terms of a narrow that name a
conversation by those of the conversation of a message. `NarrowBuilder` reads an operand of `dm`
relative to the user, and the recipient of a one-to-one message is the user who received it: a
message that the user received from somebody else leads to the messages of the user to themselves.
-/

namespace Zulip.Narrow

open Zulip.Access Zulip.Messages

/-- `access_message`. -/
def accessMessage (db : Database) (user : UserProfile) (messageId : Int) :
    Except AccessError Message :=
  match getUnique (db.messages.filter fun message => (message.id : Int) = messageId) with
  | .error .doesNotExist => .error (.jsonable "Invalid message(s)")
  | .error error => .error (.get error)
  | .ok message => do
      let hasUserMessage := fun _ => db.hasUserMessage user.id message.id
      if ← hasMessageAccess db user message hasUserMessage none none then .ok message
      else .error (.jsonable "Invalid message(s)")

/-- `access_web_public_message`, given whether the realm has web-public streams enabled. -/
def accessWebPublicMessage (db : Database) (webPublicStreamsEnabled : Bool) (realm : Realm)
    (messageId : Int) : Except NarrowError Message :=
  if !webPublicStreamsEnabled then .error .missingAuthentication
  else
    match getUnique (db.messages.filter fun message => (message.id : Int) = messageId) with
    | .error .doesNotExist => .error .missingAuthentication
    | .error _ => .error .multipleObjectsReturned
    | .ok message =>
        match message.recipient with
        | .stream typeId =>
            match getUnique ((db.getWebPublicStreamsQueryset realm).filter fun stream =>
              stream.id = typeId) with
            | .error .doesNotExist => .error .missingAuthentication
            | .error _ => .error .multipleObjectsReturned
            -- The assertions repeat the conditions of the queryset
            | .ok _ => .ok message
        | _ => .error .missingAuthentication

/-- `get_direct_message_group_user_ids`. -/
def getDirectMessageGroupUserIds (db : Database) (recipient : Recipient) : List Nat :=
  ((db.subscriptions.filter fun row => row.recipient = recipient).map
    (·.userProfileId)).insertionSort (· ≤ ·)

/-- The message that the operand of a term `with` leads to. There is none when the message is not
accessible. -/
def messageOfWith (db : Database) (webPublicStreamsEnabled : Bool) (messageId : Int) :
    Viewer → Except NarrowError (Option Message)
  | .user user =>
      match accessMessage db user messageId with
      | .ok message => .ok (some message)
      | .error (.jsonable _) => .ok none
      | .error (.get _) => .error .multipleObjectsReturned
      | .error .assertionError => .error .assertionError
  | .spectator realm =>
      match accessWebPublicMessage db webPublicStreamsEnabled realm messageId with
      | .ok message => .ok (some message)
      | .error .missingAuthentication => .ok none
      | .error error => .error error

/-- `int(operand)`, given its values on texts; a text that is no number raises `ValueError`. -/
def intOfOperand (int : String → Option Int) : Operand → Except NarrowError Int
  | .int value => .ok value
  | .str text =>
      match int text with
      | some value => .ok value
      | none => .error (.badNarrowOperator "Invalid 'with' operator")
  | .ids _ => .error .typeError

/-- The operators of the terms that are removed. -/
def replacedOperators : List String := ["stream", "channel", "topic", "dm", "pm-with"]

/-- The terms for the conversation of a message. -/
def conversationTerms (db : Database) (message : Message) : List NarrowParameter :=
  match message.recipient with
  | .stream channelId =>
      [{ operator := "channel", operand := .int channelId },
        { operator := "topic", operand := .str message.subject }]
  | .personal userId => [{ operator := "dm", operand := .ids [(userId : Int)] }]
  | .directMessageGroup groupId =>
      [{ operator := "dm",
         operand := .ids ((getDirectMessageGroupUserIds db (.directMessageGroup groupId)).map
           fun userId : Nat => (userId : Int)) }]

/-- `update_narrow_terms_containing_with_operator`. -/
def updateNarrowTermsContainingWithOperator (int : String → Option Int) (db : Database)
    (webPublicStreamsEnabled : Bool) (viewer : Viewer) (narrow : Option (List NarrowParameter)) :
    Except NarrowError (Option (List NarrowParameter)) :=
  match narrow with
  | none => .ok none
  | some narrow =>
      match narrow.filter fun term => term.operator = "with" with
      | _ :: _ :: _ =>
          .error (.jsonable "Invalid narrow operator combination: Duplicate 'with' operators.")
      | [] => .ok (some narrow)
      | [withTerm] => do
          let narrow := narrow.erase withTerm
          let messageId ← intOfOperand int withTerm.operand
          match ← messageOfWith db webPublicStreamsEnabled messageId viewer with
          | none => return some narrow
          | some message =>
              let filteredTerms := narrow.filter fun term => term.operator ∉ replacedOperators
              return some (conversationTerms db message ++ filteredTerms)

/-! ## Conversations -/

/-- What the writers of direct messages keep: a one-to-one message has a `UserMessage` row for its
sender and for the user it is sent to, a group message for the members of the group. A group of
direct messages is stored once, under the hash of its members, and there are more than two of
them. -/
structure DirectsKept (backend : Backend) (db : Database) : Prop extends DirectsMarked db where
  personalRows : ∀ userMessage ∈ db.userMessages, ∀ message ∈ db.messages,
    userMessage.messageId = message.id → ∀ userId, message.recipient = .personal userId →
      userMessage.userProfileId = userId ∨ userMessage.userProfileId = message.senderId
  groupRows : ∀ userMessage ∈ db.userMessages, ∀ message ∈ db.messages,
    userMessage.messageId = message.id → ∀ groupId, message.recipient = .directMessageGroup groupId →
      userMessage.userProfileId ∈ getDirectMessageGroupUserIds db message.recipient
  groups : ∀ message ∈ db.messages, ∀ groupId, message.recipient = .directMessageGroup groupId →
    ∃ group ∈ db.directMessageGroups, group.id = groupId ∧
      group.huddleHash = backend.directMessageGroupHash
        (getDirectMessageGroupUserIds db message.recipient).toFinset
  groupSize : ∀ message ∈ db.messages, ∀ groupId, message.recipient = .directMessageGroup groupId →
    2 < (getDirectMessageGroupUserIds db message.recipient).dedup.length
  groupHashes : (db.directMessageGroups.map (·.huddleHash)).Nodup

/-- The message belongs to the conversation of the target: to its channel and topic, to the same two
people, or to the same group. The Zephyr mirroring realm shows the active channels with a related
name as one, and the topics with a related name. -/
def InConversation (backend : Backend) (db : Database) (user : UserProfile)
    (target message : Message) : Prop :=
  match target.recipient with
  | .stream _ =>
      NamesTopic backend db user message target.subject ∧
        if user.realm.isZephyrMirrorRealm then
          ∃ channel ∈ db.streams, channel.recipient = target.recipient ∧
            message.recipient ∈
              (matchingChannels backend db (Viewer.user user).context channel).map (·.recipient)
        else message.recipient = target.recipient
  | .personal userId =>
      (message.senderId = target.senderId ∧ message.recipient = .personal userId) ∨
        (message.senderId = userId ∧ message.recipient = .personal target.senderId)
  | .directMessageGroup groupId => message.recipient = .directMessageGroup groupId

/-- The operators of the terms that name a conversation. -/
def conversationOperators : List String := ["channel", "topic", "dm"]

/-- The narrow selects, from the messages that the user has rows of or may read the history of,
those of the conversation of the target, which is one of them. -/
def SelectsConversation (backend : Backend) (db : Database) (user : UserProfile) (target : Message)
    (terms : List NarrowParameter) : Prop :=
  ∃ includeHistory rows,
    okToIncludeHistory backend db (some terms) (.user user) = .ok includeHistory ∧
      narrowRows backend db (.user user) (!includeHistory) terms = .ok rows ∧
        (∀ row ∈ baseRows db (!includeHistory) (.user user),
          row ∈ rows ↔ InConversation backend db user target row.message) ∧
          ∃ row ∈ rows, row.message = target

/-- The new narrow leads to the conversation of the target and keeps the other terms. -/
def LeadsToConversation (backend : Backend) (db : Database) (user : UserProfile)
    (narrow : List NarrowParameter) (target : Message)
    (updated : Except NarrowError (Option (List NarrowParameter))) : Prop :=
  ∃ terms, updated = .ok (some terms) ∧
    (terms.filter fun term => term.operator ∉ conversationOperators) =
        (narrow.filter fun term => term.operator ∉ "with" :: replacedOperators) ∧
      SelectsConversation backend db user target
        (terms.filter fun term => term.operator ∈ conversationOperators)

/-- Direct messages to these users are possible: they are found from the realm of the user, and
their realms are active and not different ones. -/
def Addressable (backend : Backend) (db : Database) (user : UserProfile) (userIds : List Nat) :
    Prop :=
  ∃ userProfiles, usersOfOperand backend db (.ids (userIds.map fun userId : Nat => (userId : Int)))
      user.realm = .ok userProfiles ∧
    recipientsAllowed backend userProfiles user = true

/-- The recipient of the message names its conversation for the user. A channel message of the
Zephyr mirroring realm must be one of an active channel, and its topic one of those that are shown
for it. A one-to-one message that the user received must be one to themselves. -/
def NamedByRecipient (backend : Backend) (db : Database) (user : UserProfile) (target : Message) :
    Prop :=
  match target.recipient with
  | .stream _ =>
      user.realm.isZephyrMirrorRealm = true →
        (∃ channel ∈ db.streams, channel.recipient = target.recipient ∧
          channel.deactivated = false) ∧
        NamesTopic backend db user target target.subject
  | .personal userId =>
      Addressable backend db user [userId] ∧ (userId = user.id → target.senderId = user.id) ∧
        ∀ row ∈ userRows db user, InConversation backend db user target row.message →
          row.message.realm = user.realm
  | .directMessageGroup groupId =>
      Addressable backend db user (getDirectMessageGroupUserIds db (.directMessageGroup groupId))

/-! ## The new terms -/

section Terms

variable {db : Database} {user : UserProfile} {target : Message} {narrow : List NarrowParameter}
  {withTerm : NarrowParameter}

/-- A message that `access_message` returns. -/
theorem accessMessage_eq_ok {messageId : Int}
    (accessible : accessMessage db user messageId = .ok target) :
    target ∈ db.messages ∧
      hasMessageAccess db user target (fun _ => db.hasUserMessage user.id target.id) none none =
        .ok true := by
  unfold accessMessage at accessible
  split at accessible
  · cases accessible
  · cases accessible
  · next message found =>
      obtain ⟨granted, isGranted, accessible⟩ := exists_of_bind_eq_ok accessible
      cases granted with
      | false => cases accessible
      | true =>
          cases accessible
          exact ⟨(mem_of_getUnique_filter found).1, isGranted⟩

/-- Without the only term `with`, the other terms are left. -/
theorem erase_eq_filter_of_single {Item : Type} [DecidableEq Item] {items : List Item} {item : Item}
    {test : Item → Bool} (single : items.filter test = [item]) :
    items.erase item = items.filter fun other => !test other := by
  induction items with
  | nil => rfl
  | cons head rest inductionHypothesis =>
      have isTest : test item = true :=
        (List.mem_filter.mp (single ▸ List.mem_singleton_self item)).2
      cases isHead : test head with
      | true =>
          rw [List.filter_cons_of_pos isHead, List.cons_eq_cons] at single
          obtain ⟨rfl, noneLeft⟩ := single
          rw [List.erase_cons_head, List.filter_cons_of_neg (by simp [isHead]), eq_comm,
            List.filter_eq_self]
          intro other isOther
          rw [List.filter_eq_nil_iff] at noneLeft
          simpa using noneLeft other isOther
      | false =>
          rw [List.filter_cons_of_neg (by simp [isHead])] at single
          have notHead : head ≠ item := by
            rintro rfl
            rw [isTest] at isHead
            cases isHead
          rw [List.erase_cons_tail (by simpa using notHead), inductionHypothesis single,
            List.filter_cons_of_pos (by simp [isHead])]

/-- What the narrow becomes when the message is accessible. -/
theorem updateNarrow_eq {int : String → Option Int} {webPublicStreamsEnabled : Bool}
    (accessible : accessMessage db user target.id = .ok target)
    (single : (narrow.filter fun term => term.operator = "with") = [withTerm])
    (isId : intOfOperand int withTerm.operand = .ok (target.id : Int)) :
    updateNarrowTermsContainingWithOperator int db webPublicStreamsEnabled (.user user)
        (some narrow) =
      .ok (some (conversationTerms db target ++
        narrow.filter fun term => term.operator ∉ "with" :: replacedOperators)) := by
  have isMessage : messageOfWith db webPublicStreamsEnabled target.id (.user user) =
      .ok (some target) := by
    rw [messageOfWith, accessible]
  have isLeft : ((narrow.erase withTerm).filter fun term => term.operator ∉ replacedOperators) =
      narrow.filter fun term => term.operator ∉ "with" :: replacedOperators := by
    rw [erase_eq_filter_of_single single, List.filter_filter]
    refine List.filter_congr fun term _ => ?_
    rw [Bool.eq_iff_iff]
    simp [and_comm]
  unfold updateNarrowTermsContainingWithOperator
  dsimp only
  rw [single]
  dsimp only
  rw [isId, ← isLeft]
  simp only [bind, Except.bind, isMessage]
  rfl

/-- The terms for a conversation name one, and the terms that are kept do not. -/
theorem conversationTerms_operator {term : NarrowParameter}
    (isTerm : term ∈ conversationTerms db target) : term.operator ∈ conversationOperators := by
  unfold conversationTerms at isTerm
  cases isRecipient : target.recipient with
  | stream channelId =>
      rw [isRecipient] at isTerm
      rcases List.mem_pair.mp isTerm with rfl | rfl <;> simp [conversationOperators]
  | personal userId =>
      rw [isRecipient] at isTerm
      obtain rfl := List.mem_singleton.mp isTerm
      simp [conversationOperators]
  | directMessageGroup groupId =>
      rw [isRecipient] at isTerm
      obtain rfl := List.mem_singleton.mp isTerm
      simp [conversationOperators]

theorem replaced_of_conversation {operator : String} (named : operator ∈ conversationOperators) :
    operator ∈ "with" :: replacedOperators := by
  simp only [conversationOperators, List.mem_cons, List.not_mem_nil, or_false] at named
  rcases named with rfl | rfl | rfl <;> decide

/-- The new narrow leads to the conversation when its first terms do. -/
theorem leadsToConversation_iff {backend : Backend} {int : String → Option Int}
    {webPublicStreamsEnabled : Bool}
    (accessible : accessMessage db user target.id = .ok target)
    (single : (narrow.filter fun term => term.operator = "with") = [withTerm])
    (isId : intOfOperand int withTerm.operand = .ok (target.id : Int)) :
    LeadsToConversation backend db user narrow target
        (updateNarrowTermsContainingWithOperator int db webPublicStreamsEnabled (.user user)
          (some narrow)) ↔
      SelectsConversation backend db user target (conversationTerms db target) := by
  have named : ∀ term ∈ conversationTerms db target,
      decide (term.operator ∈ conversationOperators) = true :=
    fun term isTerm => decide_eq_true (conversationTerms_operator isTerm)
  have kept : ∀ term ∈ narrow.filter fun term => term.operator ∉ "with" :: replacedOperators,
      decide (term.operator ∉ conversationOperators) = true := by
    intro term isKept
    have notReplaced := of_decide_eq_true (List.mem_filter.mp isKept).2
    exact decide_eq_true fun isNamed => notReplaced (replaced_of_conversation isNamed)
  rw [updateNarrow_eq accessible single isId]
  unfold LeadsToConversation
  have isNamed : ((conversationTerms db target ++ narrow.filter fun term =>
      term.operator ∉ "with" :: replacedOperators).filter fun term =>
        term.operator ∈ conversationOperators) = conversationTerms db target := by
    rw [List.filter_append, List.filter_eq_self.mpr named, List.filter_eq_nil_iff.mpr,
      List.append_nil]
    intro term isKept isConversation
    exact of_decide_eq_true (kept term isKept) (of_decide_eq_true isConversation)
  have isKept : ((conversationTerms db target ++ narrow.filter fun term =>
      term.operator ∉ "with" :: replacedOperators).filter fun term =>
        term.operator ∉ conversationOperators) =
          narrow.filter fun term => term.operator ∉ "with" :: replacedOperators := by
    rw [List.filter_append, List.filter_eq_self.mpr kept, List.filter_eq_nil_iff.mpr,
      List.nil_append]
    intro term isTerm notConversation
    exact of_decide_eq_true notConversation (conversationTerms_operator isTerm)
  constructor
  · rintro ⟨terms, isTerms, -, selects⟩
    cases isTerms
    rwa [isNamed] at selects
  · intro selects
    exact ⟨_, rfl, isKept, by rwa [isNamed]⟩

end Terms

/-! ## Direct messages -/

section Directs

variable {backend : Backend} {db : Database} {user : UserProfile} {target : Message}

/-- The row of a message that the user received. -/
theorem exists_mem_userRows (stored : target ∈ db.messages)
    (received : db.hasUserMessage user.id target.id = true) :
    ∃ row ∈ userRows db user, row.message = target := by
  obtain ⟨userMessage, isStored, isRow⟩ := List.any_eq_true.mp received
  obtain ⟨ofUser, ofMessage⟩ := of_decide_eq_true isRow
  refine ⟨⟨target, some userMessage.flags⟩, ?_, rfl⟩
  refine List.mem_filterMap.mpr ⟨userMessage, List.mem_filter.mpr
    ⟨isStored, decide_eq_true ofUser⟩, Option.map_eq_some_iff.mpr ⟨target, ?_, rfl⟩⟩
  refine find?_of_key db.messageKeys stored (decide_eq_true ofMessage.symm) fun other _ isMatch => ?_
  rw [of_decide_eq_true isMatch, ofMessage]

/-- A row of a user is made from one of the user's `UserMessage` rows. -/
theorem exists_userMessage {row : Row} (member : row ∈ userRows db user) :
    ∃ userMessage ∈ db.userMessages, userMessage.userProfileId = user.id ∧
      userMessage.messageId = row.message.id ∧ row.flags = some userMessage.flags ∧
        row.message ∈ db.messages := by
  obtain ⟨userMessage, isRow, found⟩ := List.mem_filterMap.mp member
  obtain ⟨stored, ofUser⟩ := List.mem_filter.mp isRow
  obtain ⟨message, isMessage, rfl⟩ := Option.map_eq_some_iff.mp found
  have sameId : message.id = userMessage.messageId := by simpa using List.find?_some isMessage
  exact ⟨userMessage, stored, of_decide_eq_true ofUser, sameId.symm, rfl,
    List.mem_of_find?_eq_some isMessage⟩

/-- A term `dm` selects from the rows of the user. -/
theorem selectsConversation_dm_iff {operand : Operand} :
    SelectsConversation backend db user target [{ operator := "dm", operand := operand }] ↔
      ∃ condition, dmCondition backend db (Viewer.user user).context operand = .ok condition ∧
        (∀ row ∈ userRows db user, condition.eval backend db row = some true ↔
          InConversation backend db user target row.message) ∧
          ∃ row ∈ userRows db user, condition.eval backend db row = some true ∧
            row.message = target := by
  have noHistory : okToIncludeHistory backend db
      (some [{ operator := "dm", operand := operand }]) (.user user) = .ok false := by
    simp [okToIncludeHistory, historyOfTerm, channelOperators, channelsOperators, pure, Except.pure,
      bind, Except.bind]
  have isCondition : termConditions backend db (Viewer.user user).context
      { operator := "dm", operand := operand } =
        (dmCondition backend db (Viewer.user user).context operand).map fun condition =>
          [condition] := rfl
  unfold SelectsConversation
  constructor
  · rintro ⟨includeHistory, rows, decided, isRows, selected, row, isRow, isTarget⟩
    rw [noHistory] at decided
    cases decided
    obtain ⟨-, conditions, isConditions, -, rfl⟩ :=
      (narrowRows_singleton_eq_ok_iff (by simp)).mp isRows
    rw [isCondition] at isConditions
    obtain ⟨condition, isFound, rfl⟩ := ok_of_map_ok isConditions
    refine ⟨condition, isFound, fun row isRow => ?_, row, ?_⟩
    · rw [← selected row isRow, Select.mem_rows]
      exact ⟨fun meets => ⟨isRow, by simpa using meets⟩, fun meets => by simpa using meets.2⟩
    · obtain ⟨isBase, meets⟩ := Select.mem_rows.mp isRow
      exact ⟨isBase, by simpa using meets, isTarget⟩
  · rintro ⟨condition, isFound, selected, row, isRow, meets, isTarget⟩
    refine ⟨false, _, noHistory, (narrowRows_singleton_eq_ok_iff (by simp)).mpr
      ⟨fun _ => ⟨user, rfl⟩, [condition], by rw [isCondition, isFound]; rfl, by simp, rfl⟩,
      fun row isRow => ?_, row, Select.mem_rows.mpr ⟨isRow, by simpa using meets⟩, isTarget⟩
    rw [← selected row isRow, Select.mem_rows]
    exact ⟨fun meets => by simpa using meets.2, fun meets => ⟨isRow, by simpa using meets⟩⟩

/-- The users that some ids name have these ids. -/
theorem usersOfOperand_ids {userIds : List Nat} {realm : Realm} {userProfiles : List UserProfile}
    (found : usersOfOperand backend db (.ids (userIds.map fun userId : Nat => (userId : Int)))
      realm = .ok userProfiles) :
    userProfiles.map (·.id) = userIds := by
  unfold usersOfOperand at found
  dsimp only at found
  generalize Operand.toStr _ = shown at found
  induction userIds generalizing userProfiles with
  | nil =>
      cases found
      rfl
  | cons userId rest inductionHypothesis =>
      rw [List.map_cons, List.mapM_cons] at found
      obtain ⟨user, isUser, found⟩ := exists_of_bind_eq_ok found
      obtain ⟨others, areOthers, found⟩ := exists_of_bind_eq_ok found
      cases found
      rw [List.map_cons, inductionHypothesis areOthers, List.cons_eq_cons]
      refine ⟨?_, rfl⟩
      split at isUser
      · next profile isFound =>
          cases isUser
          unfold getUserByIdInRealmIncludingCrossRealm at isFound
          obtain ⟨profile, isUnique, isFound⟩ := exists_of_bind_eq_ok isFound
          split_ifs at isFound
          cases isFound
          have sameId := of_decide_eq_true (mem_of_getUnique_filter isUnique).2
          exact Int.natCast_inj.mp sameId
      · cases isUser
      · cases isUser

/-- What `by_dm` asks for when it is given one user. -/
def oneToOneCondition (user : UserProfile) (userId : Nat) : ClauseElement :=
  if userId = user.id then
    .all [isPrivateCondition, .realmIs user.realm, .senderIs user.id,
      .recipientIs (.personal userId)]
  else
    .all [isPrivateCondition, .realmIs user.realm,
      .or_ (.and_ (.senderIs userId) (.recipientIs user.recipient))
        (.and_ (.senderIs user.id) (.recipientIs (.personal userId)))]

theorem dmCondition_personal_iff {userId : Nat} {condition : ClauseElement} :
    dmCondition backend db (Viewer.user user).context (.ids [(userId : Int)]) = .ok condition ↔
      Addressable backend db user [userId] ∧ condition = oneToOneCondition user userId := by
  have recipientFound : ∀ userProfiles : List UserProfile, userProfiles.map (·.id) = [userId] →
      recipientForUserProfiles backend db userProfiles user (.ids [(userId : Int)]) =
        if recipientsAllowed backend userProfiles user then .ok (some (.personal userId))
        else .error (.badNarrowOperator ("unknown user in " ++
          Operand.toStr (.ids [(userId : Int)]))) := by
    intro userProfiles named
    unfold recipientForUserProfiles
    rw [named]
    cases recipientsAllowed backend userProfiles user <;> rfl
  unfold dmCondition
  constructor
  · intro returns
    obtain ⟨viewer, isViewer, returns⟩ := exists_of_bind_eq_ok returns
    cases isViewer
    obtain ⟨userProfiles, found, returns⟩ := exists_of_bind_eq_ok returns
    have named := @usersOfOperand_ids backend db [userId] user.realm userProfiles found
    obtain ⟨recipient, isRecipient, returns⟩ := exists_of_bind_eq_ok returns
    rw [recipientFound userProfiles named] at isRecipient
    split_ifs at isRecipient with allowed
    cases isRecipient
    refine ⟨⟨userProfiles, found, allowed⟩, ?_⟩
    obtain ⟨profile, rfl, rfl⟩ := List.map_eq_singleton_iff.mp named
    dsimp only at returns
    unfold oneToOneCondition
    by_cases isUser : profile.id = user.id
    · rw [List.filter_cons_of_neg (by simp [isUser]), List.filter_nil, isUser] at returns
      rw [if_pos isUser, isUser]
      exact (Except.ok.inj returns).symm
    · rw [List.filter_cons_of_pos (by simp [isUser]), List.filter_nil] at returns
      rw [if_neg isUser]
      exact (Except.ok.inj returns).symm
  · rintro ⟨⟨userProfiles, found, allowed⟩, rfl⟩
    have named := usersOfOperand_ids found
    refine bind_eq_ok_iff.mpr ⟨user, rfl, bind_eq_ok_iff.mpr ⟨userProfiles, found,
      bind_eq_ok_iff.mpr ⟨some (.personal userId), ?_, ?_⟩⟩⟩
    · rw [recipientFound userProfiles named, if_pos allowed]
    · obtain ⟨profile, rfl, rfl⟩ := List.map_eq_singleton_iff.mp named
      unfold oneToOneCondition
      dsimp only
      by_cases isUser : profile.id = user.id
      · rw [List.filter_cons_of_neg (by simp [isUser]), List.filter_nil, if_pos isUser]
        rfl
      · rw [List.filter_cons_of_pos (by simp [isUser]), List.filter_nil, if_neg isUser]
        rfl

/-- The rows that are selected for one user. -/
theorem eval_oneToOneCondition_iff (marked : DirectsMarked db) {row : Row}
    (member : row ∈ userRows db user) {userId : Nat} :
    (oneToOneCondition user userId).eval backend db row = some true ↔
      row.message.realm = user.realm ∧
        if userId = user.id then
          row.message.senderId = user.id ∧ row.message.recipient = .personal userId
        else
          (row.message.senderId = userId ∧ row.message.recipient = .personal user.id) ∨
            (row.message.senderId = user.id ∧ row.message.recipient = .personal userId) := by
  obtain ⟨userMessage, isStored, -, ofMessage, isFlags, stored⟩ := exists_userMessage member
  have isPrivate : isPrivateCondition.eval backend db row =
      some (decide (row.message.recipient.isStream = false)) := by
    rw [isPrivateCondition, ClauseElement.eval, isFlags, Option.map_some, Option.some.injEq,
      Bool.eq_iff_iff, Flags.test_singleton, decide_eq_true_eq]
    exact marked.privateFlag userMessage isStored row.message stored ofMessage
  have notStream : ∀ other, row.message.recipient = .personal other →
      row.message.recipient.isStream = false := by
    intro other isPersonal
    rw [isPersonal]
    rfl
  unfold oneToOneCondition
  by_cases isUser : userId = user.id
  · rw [if_pos isUser, if_pos isUser]
    simp only [ClauseElement.all, ClauseElement.eval, isPrivate, Truth.and_eq_true_iff,
      Option.some.injEq, decide_eq_true_eq]
    exact ⟨fun meets => meets.2, fun meets => ⟨notStream _ meets.2.2, meets⟩⟩
  · rw [if_neg isUser, if_neg isUser]
    simp only [ClauseElement.all, ClauseElement.eval, isPrivate, Truth.and_eq_true_iff,
      Truth.or_eq_true_iff, Option.some.injEq, decide_eq_true_eq]
    exact ⟨fun meets => meets.2, fun meets =>
      ⟨meets.2.elim (fun sent => notStream _ sent.2) fun sent => notStream _ sent.2, meets⟩⟩

/-- A one-to-one message leads to its conversation unless the user received it from somebody
else. -/
theorem selectsConversation_personal_iff (kept : DirectsKept backend db)
    (stored : target ∈ db.messages) (received : db.hasUserMessage user.id target.id = true)
    {userId : Nat} (isPersonal : target.recipient = .personal userId) :
    SelectsConversation backend db user target
        [{ operator := "dm", operand := .ids [(userId : Int)] }] ↔
      Addressable backend db user [userId] ∧ (userId = user.id → target.senderId = user.id) ∧
        ∀ row ∈ userRows db user, InConversation backend db user target row.message →
          row.message.realm = user.realm := by
  have inConversation : ∀ message, InConversation backend db user target message ↔
      (message.senderId = target.senderId ∧ message.recipient = .personal userId) ∨
        (message.senderId = userId ∧ message.recipient = .personal target.senderId) := by
    intro message
    rw [InConversation, isPersonal]
  have evaluated := fun row isRow => @eval_oneToOneCondition_iff backend db user
    kept.toDirectsMarked row isRow userId
  obtain ⟨targetRow, isRow, rfl⟩ := exists_mem_userRows stored received
  have onTarget := evaluated targetRow isRow
  rw [selectsConversation_dm_iff]
  constructor
  · rintro ⟨condition, isCondition, selected, other, isOther, meets, sameMessage⟩
    obtain ⟨addressable, rfl⟩ := dmCondition_personal_iff.mp isCondition
    refine ⟨addressable, fun isUser => ?_, fun row isRow together =>
      ((evaluated row isRow).mp ((selected row isRow).mpr together)).1⟩
    have onOther := (evaluated other isOther).mp meets
    rw [if_pos isUser, sameMessage] at onOther
    exact onOther.2.1
  · rintro ⟨addressable, fromUser, inRealm⟩
    -- The user is the sender of the message, to somebody else or to themselves.
    have isSender : targetRow.message.senderId = user.id := by
      obtain ⟨userMessage, isStored, ofUser, ofMessage, -, -⟩ := exists_userMessage isRow
      rcases kept.personalRows userMessage isStored _ stored ofMessage userId isPersonal with
        isReceiver | isSender
      · exact fromUser (isReceiver.symm.trans ofUser)
      · exact isSender.symm.trans ofUser
    have selected : ∀ row ∈ userRows db user,
        (oneToOneCondition user userId).eval backend db row = some true ↔
          InConversation backend db user targetRow.message row.message := by
      intro row isRow
      rw [evaluated row isRow, inConversation, isSender]
      have inRealmOfRow := inRealm row isRow
      rw [inConversation, isSender] at inRealmOfRow
      by_cases isUser : userId = user.id
      · rw [if_pos isUser]
        constructor
        · exact fun meets => .inl meets.2
        · intro together
          refine ⟨inRealmOfRow together, ?_⟩
          rcases together with sent | sent
          · exact sent
          · rwa [isUser] at sent ⊢
      · rw [if_neg isUser]
        exact ⟨fun meets => meets.2.symm, fun together => ⟨inRealmOfRow together, together.symm⟩⟩
    refine ⟨_, dmCondition_personal_iff.mpr ⟨addressable, rfl⟩, selected, targetRow, isRow, ?_, rfl⟩
    exact (selected targetRow isRow).mpr ((inConversation _).mpr (.inl ⟨rfl, isPersonal⟩))

/-- The members of a group lead to the group: it is the only one with the hash of them. -/
theorem exists_group_of_members (kept : DirectsKept backend db) (stored : target ∈ db.messages)
    {groupId : Nat} (isGroup : target.recipient = .directMessageGroup groupId)
    (isMember : user.id ∈ getDirectMessageGroupUserIds db target.recipient) :
    ∃ group, getUnique (db.directMessageGroups.filter fun other => other.huddleHash =
        backend.directMessageGroupHash (insert user.id
          (getDirectMessageGroupUserIds db target.recipient).dedup.toFinset)) = .ok group ∧
      group.recipient = target.recipient := by
  obtain ⟨group, isStored, sameId, isHash⟩ := kept.groups target stored groupId isGroup
  have sameMembers :
      insert user.id (getDirectMessageGroupUserIds db target.recipient).dedup.toFinset =
        (getDirectMessageGroupUserIds db target.recipient).toFinset := by
    ext userId
    simp only [Finset.mem_insert, List.mem_toFinset, List.mem_dedup, or_iff_right_iff_imp]
    rintro rfl
    exact isMember
  refine ⟨group, ?_, ?_⟩
  · rw [sameMembers, ← isHash]
    exact getUnique_filter_of_key kept.groupHashes isStored fun other _ => by simp
  · rw [isGroup, ← sameId]
    rfl

/-- The recipient for the members of a group is the group, when they are allowed as recipients. -/
theorem recipientForUserProfiles_group (kept : DirectsKept backend db)
    (stored : target ∈ db.messages) {groupId : Nat}
    (isGroup : target.recipient = .directMessageGroup groupId)
    (isMember : user.id ∈ getDirectMessageGroupUserIds db target.recipient)
    {userProfiles : List UserProfile}
    (named : userProfiles.map (·.id) = getDirectMessageGroupUserIds db target.recipient)
    (operand : Operand) :
    recipientForUserProfiles backend db userProfiles user operand =
      if recipientsAllowed backend userProfiles user then .ok (some target.recipient)
      else .error (.badNarrowOperator ("unknown user in " ++ operand.toStr)) := by
  have size := kept.groupSize target stored groupId isGroup
  obtain ⟨group, isFound, groupRecipient⟩ := exists_group_of_members kept stored isGroup isMember
  unfold recipientForUserProfiles
  rw [named]
  generalize getDirectMessageGroupUserIds db target.recipient = members at *
  cases recipientsAllowed backend userProfiles user with
  | false => rfl
  | true =>
      dsimp only
      rw [if_neg (by simp), if_neg (by omega), if_pos rfl]
      split
      · next isEmpty =>
          rw [isEmpty] at size
          simp at size
      · next userId isSingle =>
          rw [isSingle] at size
          simp at size
      · rw [isFound]
        dsimp only
        rw [groupRecipient]

/-- What `by_dm` asks for when it is given the members of a group. -/
theorem dmCondition_group_iff (kept : DirectsKept backend db) (stored : target ∈ db.messages)
    {groupId : Nat} (isGroup : target.recipient = .directMessageGroup groupId)
    (isMember : user.id ∈ getDirectMessageGroupUserIds db target.recipient)
    {condition : ClauseElement} :
    dmCondition backend db (Viewer.user user).context
        (.ids ((getDirectMessageGroupUserIds db target.recipient).map
          fun userId : Nat => (userId : Int))) = .ok condition ↔
      Addressable backend db user (getDirectMessageGroupUserIds db target.recipient) ∧
        condition = .recipientIs target.recipient := by
  have recipientFound := fun operand userProfiles named =>
    @recipientForUserProfiles_group backend db user target kept stored groupId isGroup isMember
      userProfiles named operand
  unfold dmCondition
  constructor
  · intro returns
    obtain ⟨viewer, isViewer, returns⟩ := exists_of_bind_eq_ok returns
    cases isViewer
    obtain ⟨userProfiles, found, returns⟩ := exists_of_bind_eq_ok returns
    obtain ⟨recipient, isRecipient, returns⟩ := exists_of_bind_eq_ok returns
    rw [recipientFound _ userProfiles (usersOfOperand_ids found)] at isRecipient
    split_ifs at isRecipient with allowed
    cases isRecipient
    rw [isGroup] at returns ⊢
    rw [isGroup] at found
    exact ⟨⟨userProfiles, found, allowed⟩, (Except.ok.inj returns).symm⟩
  · rintro ⟨⟨userProfiles, found, allowed⟩, rfl⟩
    refine bind_eq_ok_iff.mpr ⟨user, rfl, bind_eq_ok_iff.mpr ⟨userProfiles, found,
      bind_eq_ok_iff.mpr ⟨some target.recipient, ?_, ?_⟩⟩⟩
    · rw [recipientFound _ userProfiles (usersOfOperand_ids found), if_pos allowed]
    · rw [isGroup]
      rfl

/-- A group message leads to its conversation when the members of the group can be addressed. -/
theorem selectsConversation_group_iff (kept : DirectsKept backend db)
    (stored : target ∈ db.messages) (received : db.hasUserMessage user.id target.id = true)
    {groupId : Nat} (isGroup : target.recipient = .directMessageGroup groupId) :
    SelectsConversation backend db user target
        [{ operator := "dm"
           operand := .ids ((getDirectMessageGroupUserIds db target.recipient).map
             fun userId : Nat => (userId : Int)) }] ↔
      Addressable backend db user (getDirectMessageGroupUserIds db target.recipient) := by
  obtain ⟨targetRow, isRow, rfl⟩ := exists_mem_userRows stored received
  have isMember : user.id ∈ getDirectMessageGroupUserIds db targetRow.message.recipient := by
    obtain ⟨userMessage, isStored, ofUser, ofMessage, -, -⟩ := exists_userMessage isRow
    rw [← ofUser]
    exact kept.groupRows userMessage isStored _ stored ofMessage groupId isGroup
  have isCondition := fun condition =>
    @dmCondition_group_iff backend db user _ kept stored groupId isGroup isMember condition
  have evaluated : ∀ row, (ClauseElement.recipientIs targetRow.message.recipient).eval backend db
      row = some true ↔ InConversation backend db user targetRow.message row.message := by
    intro row
    rw [InConversation, isGroup, ClauseElement.eval]
    simp
  rw [selectsConversation_dm_iff]
  constructor
  · rintro ⟨condition, found, -, -⟩
    exact ((isCondition condition).mp found).1
  · intro addressable
    exact ⟨_, (isCondition _).mpr ⟨addressable, rfl⟩, fun row _ => evaluated row, targetRow, isRow,
      by simp [ClauseElement.eval], rfl⟩

end Directs

/-! ## Channel messages -/

section Channels

/-- What is left after the `un`s is among what may be left after some of them. -/
theorem dropUns_mem_afterUns (chars : List Char) : dropUns chars ∈ afterUns chars := by
  fun_induction dropUns chars with
  | case1 first second third rest isUn inductionHypothesis =>
      rw [afterUns, if_pos isUn]
      exact List.mem_cons_of_mem _ inductionHypothesis
  | case2 first second third rest notUn =>
      rw [afterUns]
      exact List.mem_cons_self
  | case3 chars notLong =>
      rcases chars with _ | ⟨first, _ | ⟨second, rest⟩⟩
      · exact List.mem_cons_self
      · exact List.mem_cons_self
      · exact List.mem_cons_self

theorem dropDotDs_mem_beforeDotDs (chars : List Char) : dropDotDs chars ∈ beforeDotDs chars := by
  fun_induction dropDotDs chars with
  | case1 last before third rest isDotD inductionHypothesis =>
      rw [beforeDotDs, if_pos isDotD]
      exact List.mem_cons_of_mem _ inductionHypothesis
  | case2 last before third rest notDotD =>
      rw [beforeDotDs]
      exact List.mem_cons_self
  | case3 chars notLong =>
      rcases chars with _ | ⟨last, _ | ⟨before, rest⟩⟩
      · exact List.mem_cons_self
      · exact List.mem_cons_self
      · exact List.mem_cons_self

/-- A channel is related to itself. -/
theorem matchesChannelName_self (upper : String → String) (name : String) :
    matchesChannelName upper (baseChannelName name) name = true := by
  unfold matchesChannelName baseChannelName
  refine List.any_eq_true.mpr ⟨_, dropUns_mem_afterUns name.toList, List.any_eq_true.mpr
    ⟨_, dropDotDs_mem_beforeDotDs _, decide_eq_true rfl⟩⟩

variable {backend : Backend} {db : Database} {user : UserProfile} {target : Message}

/-- The condition on the channel of the target. -/
def targetChannelCondition (backend : Backend) (db : Database) (user : UserProfile)
    (channel : Stream) : ClauseElement :=
  if user.realm.isZephyrMirrorRealm then
    .recipientIn ((matchingChannels backend db (Viewer.user user).context channel).map (·.recipient))
  else .recipientIs channel.recipient

theorem channelCondition_int {channel : Stream} (stored : channel ∈ db.streams)
    (sameRealm : channel.realm = user.realm) :
    channelCondition backend db (Viewer.user user).context (.int channel.id) =
      .ok (targetChannelCondition backend db user channel) := by
  have found : channelOfOperand backend db (Viewer.user user).context (.int channel.id) =
      .ok channel := by
    have isChannel := getStreamByIdInRealm_of_mem stored
    rw [sameRealm] at isChannel
    simp only [channelOfOperand, Viewer.context, isChannel]
    simp
  unfold channelCondition targetChannelCondition
  rw [found]
  by_cases isZephyr : user.realm.isZephyrMirrorRealm = true
  · have notPublic : channel.isPublic = false := by
      simp [Stream.isPublic, channel.populated, sameRealm, isZephyr]
    simp [bind, Except.bind, Viewer.context, isZephyr, notPublic]
  · simp [bind, Except.bind, Viewer.context, isZephyr]

/-- The condition of the topic term is about the message only. -/
theorem eval_topicCondition_iff {topic : String} {condition : ClauseElement}
    (isCondition : topicCondition (Viewer.user user).context (.str topic) = .ok condition)
    (row : Row) :
    condition.eval backend db row = some true ↔
      NamesTopic backend db user row.message topic := by
  unfold NamesTopic
  split_ifs with isZephyr
  · have sameValue : condition.eval backend db row =
        condition.eval backend db ⟨row.message, none⟩ :=
      ClauseElement.eval_congr (topicCondition_readsFlags isCondition) rfl
    rw [isCondition, sameValue]
    simp
  · have inContext : ¬(Viewer.user user).context.realm.isZephyrMirrorRealm = true := isZephyr
    rw [topicCondition, if_neg inContext] at isCondition
    cases isCondition
    simp [ClauseElement.eval]

/-- Outside the Zephyr mirroring realm, each topic has a condition; in it, the topics that name
some. -/
theorem exists_topicCondition {topic : String} {message : Message}
    (named : user.realm.isZephyrMirrorRealm = true → NamesTopic backend db user message topic) :
    ∃ condition, topicCondition (Viewer.user user).context (.str topic) = .ok condition := by
  by_cases isZephyr : user.realm.isZephyrMirrorRealm = true
  · have isNamed := named isZephyr
    rw [NamesTopic, if_pos isZephyr] at isNamed
    obtain ⟨condition, isCondition, -⟩ := isNamed
    exact ⟨condition, isCondition⟩
  · have inContext : ¬(Viewer.user user).context.realm.isZephyrMirrorRealm = true := isZephyr
    rw [topicCondition, if_neg inContext]
    exact ⟨_, rfl⟩

/-- What the channel and the topic select. -/
theorem narrowRows_channel_eq_ok_iff {needUserMessage : Bool} {rows : List Row} {channel : Stream}
    {topic : String} (stored : channel ∈ db.streams) (sameRealm : channel.realm = user.realm) :
    narrowRows backend db (.user user) needUserMessage
        [{ operator := "channel", operand := .int channel.id },
          { operator := "topic", operand := .str topic }] = .ok rows ↔
      ∃ condition, topicCondition (Viewer.user user).context (.str topic) = .ok condition ∧
        ({ source := baseRows db needUserMessage (.user user)
           conditions := [targetChannelCondition backend db user channel, condition] } :
          Query).rows (ClauseElement.eval backend db) = rows := by
  have channelTerm : termConditions backend db (Viewer.user user).context
      { operator := "channel", operand := .int channel.id } =
        .ok [targetChannelCondition backend db user channel] := by
    rw [termConditions_channel (by simp [channelOperators]) rfl,
      channelCondition_int stored sameRealm]
    rfl
  have topicTerm : termConditions backend db (Viewer.user user).context
      { operator := "topic", operand := .str topic } =
        (topicCondition (Viewer.user user).context (.str topic)).map fun condition =>
          [condition] := rfl
  have noFlags : (targetChannelCondition backend db user channel).readsFlags = false := by
    unfold targetChannelCondition
    split_ifs <;> rfl
  have notConflicting : ¬Conflicting [{ operator := "channel", operand := .int channel.id },
      ({ operator := "topic", operand := .str topic } : NarrowParameter)] := by
    simp [Conflicting, termKind, byMethodMap, List.lookup, methodKind]
  rw [narrowRows_eq_ok_iff]
  have plain : plainTerms [{ operator := "channel", operand := .int channel.id },
      ({ operator := "topic", operand := .str topic } : NarrowParameter)] =
        [{ operator := "channel", operand := .int channel.id },
          { operator := "topic", operand := .str topic }] := rfl
  have noSearch : searchTerms [{ operator := "channel", operand := .int channel.id },
      ({ operator := "topic", operand := .str topic } : NarrowParameter)] = [] := rfl
  rw [plain, noSearch]
  constructor
  · rintro ⟨-, -, conditions, isConditions, operands, isOperands, -, -, isRows⟩
    cases isOperands
    simp only [List.mapM_cons, List.mapM_nil, channelTerm, topicTerm, bind_eq_ok_iff] at isConditions
    obtain ⟨first, isFirst, others, ⟨second, isSecond, nothing, isNothing, areOthers⟩,
      areConditions⟩ := isConditions
    obtain ⟨condition, isCondition, rfl⟩ := ok_of_map_ok isSecond
    cases isFirst
    cases isNothing
    cases areOthers
    cases areConditions
    exact ⟨condition, isCondition, by simpa [joinedSearch] using isRows⟩
  · rintro ⟨condition, isCondition, rfl⟩
    refine ⟨fun _ => ⟨user, rfl⟩, notConflicting,
      [[targetChannelCondition backend db user channel], [condition]], ?_, [], rfl, by simp, ?_, ?_⟩
    · simp [channelTerm, topicTerm, isCondition, Except.map, pure, Except.pure, bind, Except.bind]
    · intro _
      simp [joinedSearch, noFlags, topicCondition_readsFlags isCondition]
    · simp [joinedSearch]

/-- The messages that both terms select are those of the conversation. -/
theorem eval_targetChannelCondition_iff {channel : Stream} (stored : channel ∈ db.streams)
    (toChannel : channel.recipient = target.recipient) (row : Row) :
    (targetChannelCondition backend db user channel).eval backend db row = some true ∧
        NamesTopic backend db user row.message target.subject ↔
      InConversation backend db user target row.message := by
  have isStream : target.recipient = .stream channel.id := toChannel.symm
  rw [InConversation, isStream, and_comm]
  refine and_congr_right fun _ => ?_
  unfold targetChannelCondition
  split_ifs with isZephyr
  · simp only [ClauseElement.eval, Option.some.injEq, decide_eq_true_eq]
    constructor
    · exact fun related => ⟨channel, stored, rfl, related⟩
    · rintro ⟨other, otherStored, sameRecipient, related⟩
      rwa [stream_eq_of_recipient stored otherStored sameRecipient.symm]
  · simp only [ClauseElement.eval, Option.some.injEq, decide_eq_true_eq]
    exact Iff.rfl

/-- A channel message that the user may read is among the rows that a narrow to its channel selects
from. -/
theorem exists_mem_baseRows {channel : Stream} (stored : target ∈ db.messages)
    (mayRead : mayReadOn db user channel target = true) (sameRealm : target.realm = user.realm)
    {includeHistory : Bool}
    (decided : canAccessStreamHistory db user channel = .ok includeHistory) :
    ∃ row ∈ baseRows db (!includeHistory) (.user user), row.message = target := by
  cases includeHistory with
  | true => exact ⟨⟨target, none⟩, mem_realmRows.mpr ⟨stored, sameRealm, rfl⟩, rfl⟩
  | false =>
      refine exists_mem_userRows stored ?_
      obtain ⟨channelRealm, access⟩ := of_decide_eq_true mayRead
      have noHistory : ¬canAccessStreamHistory db user channel = .ok true := by
        rw [decided]
        simp
      rw [canAccessStreamHistory_iff channelRealm] at noHistory
      push Not at noHistory
      obtain ⟨-, notPublic, notShared⟩ := noHistory
      rcases access with ⟨isPublic, canAccess⟩ | ⟨subscribed, shared | received⟩
      · have notGuest : user.isGuest = false := by
          rw [UserProfile.canAccessPublicStreams, Bool.not_eq_true', Bool.or_eq_false_iff] at canAccess
          exact canAccess.1
        exact absurd notGuest (notPublic isPublic)
      · exact absurd subscribed (notShared shared)
      · exact received

/-- The terms of a channel message let the history of its channel in when the user may read it. -/
theorem okToIncludeHistory_channel {channel : Stream} (stored : channel ∈ db.streams)
    (sameRealm : channel.realm = user.realm) {includeHistory : Bool}
    (decided : canAccessStreamHistory db user channel = .ok includeHistory) (topic : String) :
    okToIncludeHistory backend db
      (some [{ operator := "channel", operand := .int channel.id },
        { operator := "topic", operand := .str topic }]) (.user user) = .ok includeHistory := by
  have byId : canAccessStreamHistoryById db user channel.id = .ok includeHistory := by
    have isChannel := getStreamByIdInRealm_of_mem stored
    rw [sameRealm] at isChannel
    rw [canAccessStreamHistoryById, isChannel]
    exact decided
  simp [okToIncludeHistory, historyOfTerm, needsUserMessage, channelOperators, channelsOperators,
    byId, ofAccess, pure, Except.pure, bind, Except.bind]

/-- The rows of both terms are the rows of the conversation that the query starts from. -/
theorem mem_rows_channel_iff {channel : Stream} (stored : channel ∈ db.streams)
    (toChannel : channel.recipient = target.recipient) {condition : ClauseElement}
    (isCondition : topicCondition (Viewer.user user).context (.str target.subject) = .ok condition)
    (source : List Row) (row : Row) :
    row ∈ ({ source, conditions := [targetChannelCondition backend db user channel, condition] } :
        Query).rows (ClauseElement.eval backend db) ↔
      row ∈ source ∧ InConversation backend db user target row.message := by
  rw [Select.mem_rows, ← eval_targetChannelCondition_iff stored toChannel,
    ← eval_topicCondition_iff isCondition]
  simp

/-- A channel message is in its own conversation unless the Zephyr mirroring realm does not show it
there. -/
theorem inConversation_self_iff {channel : Stream} (stored : channel ∈ db.streams)
    (toChannel : channel.recipient = target.recipient) (sameRealm : channel.realm = user.realm) :
    InConversation backend db user target target ↔
      (user.realm.isZephyrMirrorRealm = true →
        (∃ channel ∈ db.streams, channel.recipient = target.recipient ∧
          channel.deactivated = false) ∧
        NamesTopic backend db user target target.subject) := by
  have isStream : target.recipient = .stream channel.id := toChannel.symm
  rw [InConversation, isStream]
  dsimp only
  constructor
  · rintro ⟨topicNamed, isRelated⟩ isZephyr
    rw [if_pos isZephyr] at isRelated
    obtain ⟨_, -, -, isRelated⟩ := isRelated
    obtain ⟨other, isMatching, sameRecipient⟩ := List.mem_map.mp isRelated
    obtain ⟨otherStored, -, active⟩ := mem_getActiveStreams.mp (List.mem_of_mem_filter isMatching)
    exact ⟨⟨other, otherStored, sameRecipient, active⟩, topicNamed⟩
  · intro shown
    split_ifs with isZephyr
    · obtain ⟨⟨other, otherStored, sameRecipient, active⟩, topicNamed⟩ := shown isZephyr
      obtain rfl := stream_eq_of_recipient stored otherStored sameRecipient.symm
      have isActive := mem_getActiveStreams.mpr ⟨stored, sameRealm, active⟩
      exact ⟨topicNamed, channel, stored, rfl, List.mem_map_of_mem
        (List.mem_filter.mpr ⟨isActive, matchesChannelName_self _ _⟩)⟩
    · refine ⟨?_, rfl⟩
      rw [NamesTopic, if_neg isZephyr]

/-- A channel message leads to its conversation unless the Zephyr mirroring realm does not show
it there. -/
theorem selectsConversation_channel_iff (stored : target ∈ db.messages) {channelId : Nat}
    (isStream : target.recipient = .stream channelId)
    (granted : hasMessageAccess db user target (fun _ => db.hasUserMessage user.id target.id) none
      none = .ok true) :
    SelectsConversation backend db user target
        [{ operator := "channel", operand := .int channelId },
          { operator := "topic", operand := .str target.subject }] ↔
      (user.realm.isZephyrMirrorRealm = true →
        (∃ channel ∈ db.streams, channel.recipient = target.recipient ∧
          channel.deactivated = false) ∧
        NamesTopic backend db user target target.subject) := by
  obtain ⟨channel, channelStored, toChannel, targetRealm, found⟩ := db.exists_stream stored isStream
  have sameId : channel.id = channelId := by
    rw [isStream] at toChannel
    exact Recipient.stream.inj toChannel
  subst sameId
  have mayRead : mayReadOn db user channel target = true := by
    rw [hasMessageAccess_stream toChannel found (.inl rfl) rfl] at granted
    exact Except.ok.inj granted
  have sameRealm : channel.realm = user.realm := (of_decide_eq_true mayRead).1
  obtain ⟨includeHistory, decided⟩ := exists_canAccessStreamHistory db sameRealm
  have history := @okToIncludeHistory_channel backend db user channel channelStored sameRealm
    includeHistory decided target.subject
  rw [← inConversation_self_iff channelStored toChannel sameRealm]
  constructor
  · rintro ⟨history', rows, decided', isRows, -, row, isRow, rfl⟩
    rw [history] at decided'
    cases decided'
    obtain ⟨condition, isCondition, rfl⟩ :=
      (narrowRows_channel_eq_ok_iff channelStored sameRealm).mp isRows
    exact ((mem_rows_channel_iff channelStored toChannel isCondition _ row).mp isRow).2
  · intro inOwn
    obtain ⟨condition, isCondition⟩ := exists_topicCondition fun isZephyr =>
      ((inConversation_self_iff channelStored toChannel sameRealm).mp inOwn isZephyr).2
    obtain ⟨row, isBase, rfl⟩ := exists_mem_baseRows stored mayRead
      (targetRealm.symm.trans sameRealm) decided
    have selected := @mem_rows_channel_iff backend db user row.message channel channelStored
      toChannel condition isCondition (baseRows db (!includeHistory) (.user user))
    refine ⟨includeHistory, _, history, (narrowRows_channel_eq_ok_iff channelStored sameRealm).mpr
      ⟨condition, isCondition, rfl⟩, fun other isOther => ?_, row, ?_, rfl⟩
    · rw [selected]
      exact and_iff_right isOther
    · exact (selected row).mpr ⟨isBase, inOwn⟩

end Channels

/-! ## The operator -/

/-- A narrow with one term `with` for an accessible message becomes one to the conversation of the
message exactly when the recipient of the message names the conversation for the user. It does not
for a one-to-one message that the user received from somebody else. -/
theorem withOperator_leads_iff (backend : Backend) (int : String → Option Int)
    (webPublicStreamsEnabled : Bool) (db : Database) (kept : DirectsKept backend db)
    (user : UserProfile) (target : Message)
    (accessible : accessMessage db user target.id = .ok target) (narrow : List NarrowParameter)
    (withTerm : NarrowParameter)
    (single : (narrow.filter fun term => term.operator = "with") = [withTerm])
    (isId : intOfOperand int withTerm.operand = .ok (target.id : Int)) :
    LeadsToConversation backend db user narrow target
        (updateNarrowTermsContainingWithOperator int db webPublicStreamsEnabled (.user user)
          (some narrow)) ↔
      NamedByRecipient backend db user target := by
  rw [leadsToConversation_iff accessible single isId]
  obtain ⟨stored, granted⟩ := accessMessage_eq_ok accessible
  have received : target.recipient.isStream = false →
      db.hasUserMessage user.id target.id = true := by
    intro isDirect
    rw [hasMessageAccess_direct isDirect] at granted
    exact Except.ok.inj granted
  unfold conversationTerms NamedByRecipient
  cases isRecipient : target.recipient with
  | stream channelId =>
      dsimp only
      rw [← isRecipient]
      exact selectsConversation_channel_iff stored isRecipient granted
  | personal userId =>
      exact selectsConversation_personal_iff kept stored (received (by rw [isRecipient]; rfl))
        isRecipient
  | directMessageGroup groupId =>
      dsimp only
      rw [← isRecipient]
      exact selectsConversation_group_iff kept stored (received (by rw [isRecipient]; rfl))
        isRecipient

/-- A message from one user to another. -/
def greeting : Message :=
  ⟨100, ⟨1, false, false⟩, 11, .personal 10, "", "hello", false, false, false⟩

/-- The sender of the message. -/
def greetingSender : UserProfile :=
  ⟨11, ⟨1, false, false⟩, .member, "b@example.com", "b@example.com"⟩

/-- A message of the same user to a group of three. -/
def groupGreeting : Message :=
  ⟨101, ⟨1, false, false⟩, 11, .directMessageGroup 4, "", "hello all", false, false, false⟩

def thirdMember : UserProfile :=
  ⟨12, ⟨1, false, false⟩, .member, "c@example.com", "c@example.com"⟩

/-- The database with the messages. -/
def greetings : Database where
  users := [coreMember, greetingSender, thirdMember]
  subscriptions := [⟨10, .directMessageGroup 4, true, false⟩,
    ⟨12, .directMessageGroup 4, true, false⟩, ⟨11, .directMessageGroup 4, true, false⟩]
  messages := [greeting, groupGreeting]
  directMessageGroups := [⟨4, asciiBackend.directMessageGroupHash {10, 11, 12}⟩]
  userMessages := [⟨10, 100, {.isPrivate}⟩, ⟨11, 100, {.isPrivate, .read}⟩,
    ⟨10, 101, {.isPrivate}⟩, ⟨11, 101, {.isPrivate, .read}⟩, ⟨12, 101, {.isPrivate}⟩]
  streamOfMessage := by
    intro message stored streamId toStream
    rcases List.mem_pair.mp stored with rfl | rfl
    · cases toStream
    · cases toStream

theorem greetings_members :
    getDirectMessageGroupUserIds greetings (.directMessageGroup 4) = [10, 11, 12] := by
  decide +kernel

theorem greetings_kept : DirectsKept asciiBackend greetings where
  privateFlag := by decide
  emptyTopic := by decide
  personalRows := by
    intro userMessage isStored message stored ofMessage userId toUser
    rcases List.mem_pair.mp stored with rfl | rfl
    · cases toUser
      have ofSenderOrReceiver : ∀ row ∈ greetings.userMessages, row.messageId = greeting.id →
          row.userProfileId = 10 ∨ row.userProfileId = 11 := by decide
      exact ofSenderOrReceiver userMessage isStored ofMessage
    · cases toUser
  groupRows := by
    intro userMessage isStored message stored ofMessage groupId toGroup
    rcases List.mem_pair.mp stored with rfl | rfl
    · cases toGroup
    · cases toGroup
      have ofMember : ∀ row ∈ greetings.userMessages, row.messageId = groupGreeting.id →
          row.userProfileId ∈ [10, 11, 12] := by decide
      exact greetings_members ▸ ofMember userMessage isStored ofMessage
  groups := by
    intro message stored groupId toGroup
    rcases List.mem_pair.mp stored with rfl | rfl
    · cases toGroup
    · cases toGroup
      exact ⟨_, List.mem_singleton_self _, rfl, by rw [groupGreeting, greetings_members]; rfl⟩
  groupSize := by
    intro message stored groupId toGroup
    rcases List.mem_pair.mp stored with rfl | rfl
    · cases toGroup
    · cases toGroup
      rw [groupGreeting, greetings_members]
      decide
  groupHashes := List.nodup_singleton _

/-- A link to the message, as a narrow. -/
def greetingNarrow : List NarrowParameter :=
  [{ operator := "dm", operand := .ids [10, 12] }, { operator := "with", operand := .int 100 },
    { operator := "is", operand := .str "starred" }]

/-- A link to the message of the group. -/
def groupNarrow : List NarrowParameter :=
  [{ operator := "with", operand := .int 101 }, { operator := "is", operand := .str "starred" }]

/-- The sender of the messages is led to both conversations. -/
theorem withOperator_leads_iff_sender :
    LeadsToConversation asciiBackend greetings greetingSender greetingNarrow greeting
        (updateNarrowTermsContainingWithOperator String.toInt? greetings false
          (.user greetingSender) (some greetingNarrow)) ∧
      LeadsToConversation asciiBackend greetings greetingSender groupNarrow groupGreeting
        (updateNarrowTermsContainingWithOperator String.toInt? greetings false
          (.user greetingSender) (some groupNarrow)) := by
  constructor
  · refine (withOperator_leads_iff asciiBackend String.toInt? false greetings greetings_kept
      greetingSender greeting rfl greetingNarrow { operator := "with", operand := .int 100 } rfl
        rfl).mpr ⟨⟨[coreMember], by decide +kernel, by decide +kernel⟩, ?_, ?_⟩
    · exact fun isUser => absurd isUser (by decide)
    · intro row isRow _
      obtain ⟨-, -, -, -, -, stored⟩ := exists_userMessage isRow
      rcases List.mem_pair.mp stored with isGreeting | isGreeting
      · rw [isGreeting]
        rfl
      · rw [isGreeting]
        rfl
  · refine (withOperator_leads_iff asciiBackend String.toInt? false greetings greetings_kept
      greetingSender groupGreeting rfl groupNarrow { operator := "with", operand := .int 101 } rfl
        rfl).mpr ?_
    refine ⟨[coreMember, greetingSender, thirdMember], ?_, ?_⟩
    · decide +kernel
    · decide +kernel

/-- The receiver of the message is led to their own messages to themselves. -/
theorem received_message_not_led_to :
    accessMessage greetings coreMember greeting.id = .ok greeting ∧
      ¬LeadsToConversation asciiBackend greetings coreMember greetingNarrow greeting
        (updateNarrowTermsContainingWithOperator String.toInt? greetings false
          (.user coreMember) (some greetingNarrow)) := by
  refine ⟨rfl, ?_⟩
  rintro ⟨terms, isUpdated, -, includeHistory, rows, decided, isRows, -, row, isRow, -⟩
  have isTerms : terms = [{ operator := "dm", operand := .ids [10] },
      { operator := "is", operand := .str "starred" }] :=
    (Option.some.inj (Except.ok.inj isUpdated)).symm
  subst isTerms
  have noHistory : includeHistory = false := (Except.ok.inj decided).symm
  subst noHistory
  have noRows : rows = [] := (Except.ok.inj isRows).symm
  rw [noRows] at isRow
  cases isRow

end Zulip.Narrow
