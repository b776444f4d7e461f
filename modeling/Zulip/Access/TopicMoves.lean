import Mathlib.Data.Finset.Dedup
import Mathlib.Logic.Function.Basic
import Zulip.Access.MovedMessages
import Zulip.Access.UserTopics
import Zulip.Foundation.Pointwise

/-!
# Topic policies when a topic moves

`do_update_message` takes the policies of a topic along when the whole topic has moved. The
migration goes over groups of users; `policiesOf_migrateUserTopics` says what it does for one user.
-/

namespace Zulip.Access

open Zulip.Messages (PropagateMode truncateTopic)

/-- `get_visibility_policy_after_merge` -/
def getVisibilityPolicyAfterMerge (origTopicVisibilityPolicy targetTopicVisibilityPolicy :
    VisibilityPolicy) : VisibilityPolicy :=
  if origTopicVisibilityPolicy = targetTopicVisibilityPolicy then origTopicVisibilityPolicy
  else if VisibilityPolicy.unmuted ∈ [origTopicVisibilityPolicy, targetTopicVisibilityPolicy] then
    .unmuted
  else .inherit

/-- A user without a policy for the old topic keeps the one for the target topic, or loses it. -/
theorem getVisibilityPolicyAfterMerge_inherit (policy : VisibilityPolicy) :
    getVisibilityPolicyAfterMerge .inherit policy = policy ∨
      getVisibilityPolicyAfterMerge .inherit policy = .inherit := by
  cases policy <;> decide

/-- `messages_for_topic` -/
def messagesForTopic (upper : String → String) (db : Database) (realm : Realm)
    (recipient : Recipient) (topicName : String) : List Message :=
  db.messages.filter fun message =>
    message.realm = realm ∧ message.recipient = recipient ∧ upper message.subject = upper topicName

/-- A call of `do_update_message` for a message of a stream. -/
structure TopicMove (db : Database) where
  userProfile : UserProfile
  targetMessage : Message
  streamBeingEdited : Stream
  newStream : Option Stream
  topicName : Option String
  propagateMode : PropagateMode
  targetStored : targetMessage ∈ db.messages
  toStream : targetMessage.recipient = streamBeingEdited.recipient
  streamStored : streamBeingEdited ∈ db.streams
  /-- `get_stream_by_id_in_realm` -/
  sameRealm : streamBeingEdited.realm = userProfile.realm

namespace TopicMove

variable {db : Database} (move : TopicMove db)

def origTopicName : String := move.targetMessage.subject

def targetStream : Stream := move.newStream.getD move.streamBeingEdited

def targetTopicName : String := move.topicName.elim move.origTopicName truncateTopic

/-- Whether there is a message in the target topic, before any message is moved. -/
def targetTopicHasMessages (upper : String → String) : Bool :=
  !(messagesForTopic upper db move.userProfile.realm move.targetStream.recipient
    move.targetTopicName).isEmpty

/-- The users with a subscription to the old stream, active or not. -/
def oldStreamAllUsers : List Nat :=
  (db.subscriptions.filter fun row => row.recipient = move.streamBeingEdited.recipient).map
    (·.userProfileId)

def newStreamCurrentUsers (newStream : Stream) : List Nat :=
  (db.subscriptions.filter fun row =>
    row.recipient = newStream.recipient ∧ row.active = true).map (·.userProfileId)

def usersLosingAccess : List Nat :=
  match move.newStream with
  | none => []
  | some newStream =>
      let oldUsers :=
        if newStream.isPublic then
          -- Only guests lose access, if it is moving to a public stream.
          move.oldStreamAllUsers.filter fun userId =>
            db.users.any fun user => user.id = userId ∧ user.isGuest
        else move.oldStreamAllUsers
      oldUsers.filter fun userId => userId ∉ @newStreamCurrentUsers db newStream

/-- Whether the whole topic has moved, as the acting user sees it in the database `after` the
messages have been saved. -/
def movedAllVisibleMessages (upper : String → String) (after : Database) : Bool :=
  (move.topicName.isSome || move.newStream.isSome) &&
    (move.propagateMode = .changeAll ||
      (bulkAccessStreamMessagesQuery after move.userProfile
        (messagesForTopic upper after move.userProfile.realm move.streamBeingEdited.recipient
          move.origTopicName) move.streamBeingEdited).isEmpty)

/-! ## The migration -/

section Migration

variable {upper : String → String} (table : UserTopicTable upper)

/-- The user cannot access the new stream. -/
def losesAccess (userId : Nat) : Bool :=
  move.newStream.isSome && userId ∈ move.usersLosingAccess

/-- `stream_inaccessible_to_user_profiles` -/
def streamInaccessibleTo : List Nat :=
  ((table.rowsOfTopic move.streamBeingEdited move.origTopicName).filter fun row =>
    move.losesAccess row.userProfileId).map (·.userProfileId)

/-- `orig_topic_user_profile_to_visibility_policy` -/
def origTopicPolicies : Dict Nat VisibilityPolicy :=
  Dict.ofList (((table.rowsOfTopic move.streamBeingEdited move.origTopicName).filter fun row =>
    !move.losesAccess row.userProfileId).map fun row => (row.userProfileId, row.visibilityPolicy))

/-- `target_topic_user_profile_to_visibility_policy` -/
def targetTopicPolicies : Dict Nat VisibilityPolicy :=
  Dict.ofList ((table.rowsOfTopic move.targetStream move.targetTopicName).map fun row =>
    (row.userProfileId, row.visibilityPolicy))

/-- `user_profiles_having_visibility_policy` -/
def usersHavingVisibilityPolicy : List Nat :=
  ((move.origTopicPolicies table).keys ++ (move.targetTopicPolicies table).keys).dedup

/-- The policies of a user for the two topics. -/
def visibilityPolicyPair (userId : Nat) : VisibilityPolicy × VisibilityPolicy :=
  ((move.origTopicPolicies table).getD userId .inherit,
    (move.targetTopicPolicies table).getD userId .inherit)

/-- `user_profiles_for_visibility_policy_pair` -/
def usersForVisibilityPolicyPair : Dict (VisibilityPolicy × VisibilityPolicy) (List Nat) :=
  Dict.groupBy (move.visibilityPolicyPair table) (move.usersHavingVisibilityPolicy table)

/-- `new_visibility_policy` -/
def newVisibilityPolicy (upper : String → String)
    (policies : VisibilityPolicy × VisibilityPolicy) : VisibilityPolicy :=
  if move.targetTopicHasMessages upper then
    getVisibilityPolicyAfterMerge policies.1 policies.2
  else policies.1

/-- The body of the loop over the pairs of policies. -/
def migrateUsers (table : UserTopicTable upper)
    (group : (VisibilityPolicy × VisibilityPolicy) × List Nat) : UserTopicTable upper :=
  let table :=
    if group.1.1 ≠ .inherit then
      (table.bulkSetInDatabase group.2 move.streamBeingEdited move.origTopicName .inherit).1
    else table
  if move.newVisibilityPolicy upper group.1 = group.1.2 then table
  else
    (table.bulkSetInDatabase group.2 move.targetStream move.targetTopicName
      (move.newVisibilityPolicy upper group.1)).1

/-- The migration of the `UserTopic` rows. -/
def migrateUserTopics : UserTopicTable upper :=
  (move.usersForVisibilityPolicyPair table).entries.foldl move.migrateUsers
    (table.bulkSetInDatabase (move.streamInaccessibleTo table) move.streamBeingEdited
      move.origTopicName .inherit).1

/-- The `UserTopic` rows after `do_update_message`. -/
def userTopicsAfter (after : Database) : UserTopicTable upper :=
  if move.movedAllVisibleMessages upper after then move.migrateUserTopics table else table

end Migration

end TopicMove

/-! ## The policies of one user -/

namespace UserTopicTable

variable {upper : String → String} {table : UserTopicTable upper}

/-- The policies of a user, by stream and topic. -/
def policiesOf (table : UserTopicTable upper) (userId : Nat) :
    Recipient × String → VisibilityPolicy :=
  fun topic => table.policyAt (userId, topic)

theorem policiesOf_bulkSetInDatabase (userIds : List Nat) (stream : Stream) (topicName : String)
    (visibilityPolicy : VisibilityPolicy) (userId : Nat) :
    (table.bulkSetInDatabase userIds stream topicName visibilityPolicy).1.policiesOf userId =
      if userId ∈ userIds then
        Function.update (table.policiesOf userId) (stream.recipient, upper topicName)
          visibilityPolicy
      else table.policiesOf userId := by
  funext topic
  unfold policiesOf
  rw [policyAt_bulkSetInDatabase]
  by_cases member : userId ∈ userIds
  · by_cases isTopic : topic = (stream.recipient, upper topicName) <;> simp [member, isTopic]
  · simp [member]

/-- The policies by user in the rows of a topic, for the users that are kept. -/
def policiesByUser (table : UserTopicTable upper) (keep : Nat → Bool) (stream : Stream)
    (topicName : String) : List (Nat × VisibilityPolicy) :=
  ((table.rowsOfTopic stream topicName).filter fun row => keep row.userProfileId).map fun row =>
    (row.userProfileId, row.visibilityPolicy)

section PoliciesByUser

variable {keep : Nat → Bool} {stream : Stream} {topicName : String} {userId : Nat}

theorem policiesByUser_nodup : ((table.policiesByUser keep stream topicName).map Prod.fst).Nodup := by
  have sub : (((table.rowsOfTopic stream topicName).filter fun row =>
      keep row.userProfileId).map (UserTopic.key upper)).Nodup :=
    table.unique.sublist ((List.filter_sublist.trans List.filter_sublist).map _)
  have sameKeys : ((table.policiesByUser keep stream topicName).map Prod.fst).map
      (fun userId => (userId, stream.recipient, upper topicName)) =
      ((table.rowsOfTopic stream topicName).filter fun row =>
        keep row.userProfileId).map (UserTopic.key upper) := by
    unfold policiesByUser
    rw [List.map_map, List.map_map]
    exact List.map_congr_left fun row member =>
      (mem_rowsOfTopic.mp (List.mem_of_mem_filter member)).2.symm
  exact List.Nodup.of_map _ (sameKeys ▸ sub)

theorem mem_policiesByUser {policy : VisibilityPolicy} :
    (userId, policy) ∈ table.policiesByUser keep stream topicName ↔
      keep userId = true ∧ policy ≠ .inherit ∧
        table.policiesOf userId (stream.recipient, upper topicName) = policy := by
  unfold policiesByUser policiesOf
  rw [List.mem_map]
  constructor
  · rintro ⟨row, member, same⟩
    rw [Prod.mk.injEq] at same
    obtain ⟨rfl, rfl⟩ := same
    obtain ⟨listed, kept⟩ := List.mem_filter.mp member
    obtain ⟨stored, sameKey⟩ := mem_rowsOfTopic.mp listed
    exact ⟨kept, table.explicit row stored, policyAt_of_mem stored sameKey⟩
  · rintro ⟨kept, explicit, rfl⟩
    obtain ⟨row, stored, sameKey⟩ := exists_row explicit
    have ofUser : row.userProfileId = userId := congrArg Prod.fst sameKey
    refine ⟨row, List.mem_filter.mpr ⟨mem_rowsOfTopic.mpr ⟨stored, ?_⟩, ?_⟩, ?_⟩
    · rw [sameKey, ofUser]
    · rw [ofUser]
      exact kept
    · rw [policyAt_of_mem stored sameKey, ofUser]

/-- The dictionary of these policies. -/
theorem getD_policiesByUser :
    (Dict.ofList (table.policiesByUser keep stream topicName)).getD userId .inherit =
      if keep userId then table.policiesOf userId (stream.recipient, upper topicName)
      else .inherit := by
  unfold Dict.getD
  cases found : (Dict.ofList (table.policiesByUser keep stream topicName)).get? userId with
  | some policy =>
      obtain ⟨kept, _, same⟩ :=
        mem_policiesByUser.mp ((Dict.get?_ofList policiesByUser_nodup).mp found)
      rw [if_pos kept, same]
      rfl
  | none =>
      split_ifs with kept
      · by_contra explicit
        have member := mem_policiesByUser.mpr ⟨kept, fun same => explicit same.symm, rfl⟩
        rw [← Dict.get?_ofList policiesByUser_nodup, found] at member
        simp at member
      · rfl

theorem mem_keys_policiesByUser :
    userId ∈ (Dict.ofList (table.policiesByUser keep stream topicName)).keys ↔
      (Dict.ofList (table.policiesByUser keep stream topicName)).getD userId .inherit ≠
        .inherit := by
  rw [Dict.mem_keys_iff]
  unfold Dict.getD
  constructor
  · rintro ⟨policy, found⟩
    rw [found]
    exact (mem_policiesByUser.mp ((Dict.get?_ofList policiesByUser_nodup).mp found)).2.1
  · intro explicit
    cases found : (Dict.ofList (table.policiesByUser keep stream topicName)).get? userId with
    | none => exact absurd (by rw [found]; rfl) explicit
    | some policy => exact ⟨policy, rfl⟩

end PoliciesByUser

end UserTopicTable

namespace TopicMove

variable {db : Database} (move : TopicMove db) {upper : String → String}

/-- The old topic, as lookups find it. -/
def origTopic (upper : String → String) : Recipient × String :=
  (move.streamBeingEdited.recipient, upper move.origTopicName)

/-- The target topic, as lookups find it. -/
def targetTopic (upper : String → String) : Recipient × String :=
  (move.targetStream.recipient, upper move.targetTopicName)

variable {move} {table : UserTopicTable upper} {userId : Nat}

theorem targetTopicPolicies_eq : move.targetTopicPolicies table = Dict.ofList
    (table.policiesByUser (fun _ => true) move.targetStream move.targetTopicName) := by
  unfold targetTopicPolicies UserTopicTable.policiesByUser
  rw [List.filter_true]

theorem visibilityPolicyPair_eq : move.visibilityPolicyPair table userId =
    (if move.losesAccess userId then .inherit
      else table.policiesOf userId (move.origTopic upper),
      table.policiesOf userId (move.targetTopic upper)) := by
  have ofOrig := @UserTopicTable.getD_policiesByUser _ table
    (fun userId => !move.losesAccess userId) move.streamBeingEdited move.origTopicName userId
  have ofTarget := @UserTopicTable.getD_policiesByUser _ table (fun _ => true)
    move.targetStream move.targetTopicName userId
  unfold visibilityPolicyPair
  rw [targetTopicPolicies_eq, ofTarget]
  refine Prod.ext (ofOrig.trans ?_) rfl
  cases move.losesAccess userId <;> rfl

theorem mem_usersHavingVisibilityPolicy : userId ∈ move.usersHavingVisibilityPolicy table ↔
    move.visibilityPolicyPair table userId ≠ (.inherit, .inherit) := by
  have ofOrig := @UserTopicTable.mem_keys_policiesByUser _ table
    (fun userId => !move.losesAccess userId) move.streamBeingEdited move.origTopicName userId
  have ofTarget := @UserTopicTable.mem_keys_policiesByUser _ table (fun _ => true)
    move.targetStream move.targetTopicName userId
  unfold usersHavingVisibilityPolicy visibilityPolicyPair
  rw [List.mem_dedup, List.mem_append, targetTopicPolicies_eq, ofTarget]
  refine (or_congr ofOrig Iff.rfl).trans (not_and_or.symm.trans (not_congr ?_))
  exact Prod.mk_inj.symm

/-- The users of a group are those with its policies. -/
theorem mem_group {group : (VisibilityPolicy × VisibilityPolicy) × List Nat}
    (listed : group ∈ (move.usersForVisibilityPolicyPair table).entries) :
    userId ∈ group.2 ↔ userId ∈ move.usersHavingVisibilityPolicy table ∧
      move.visibilityPolicyPair table userId = group.1 := by
  have found := Dict.get?_eq_some_iff.mpr listed
  unfold usersForVisibilityPolicyPair at found
  rw [Dict.get?_groupBy] at found
  split_ifs at found
  rw [← Option.some.inj found, List.mem_filter, decide_eq_true_eq]

/-- A user with a policy is in a group. -/
theorem exists_group (having : userId ∈ move.usersHavingVisibilityPolicy table) :
    ∃ group ∈ (move.usersForVisibilityPolicyPair table).entries,
      group.1 = move.visibilityPolicyPair table userId := by
  have found := Dict.get?_groupBy (move.visibilityPolicyPair table)
    (move.usersHavingVisibilityPolicy table) (move.visibilityPolicyPair table userId)
  rw [if_pos (List.mem_map_of_mem having)] at found
  exact ⟨_, Dict.get?_eq_some_iff.mp found, rfl⟩

/-! ## What the migration does for a user -/

/-- The policy that a user has for the target topic after the migration. -/
def policyAfterMove (move : TopicMove db) (table : UserTopicTable upper) (userId : Nat) :
    VisibilityPolicy :=
  move.newVisibilityPolicy upper (move.visibilityPolicyPair table userId)

/-- The effect of a group on the policies of a user in it. -/
def migratePolicies (move : TopicMove db) (upper : String → String)
    (pair : VisibilityPolicy × VisibilityPolicy)
    (policies : Recipient × String → VisibilityPolicy) : Recipient × String → VisibilityPolicy :=
  let policies :=
    if pair.1 ≠ .inherit then Function.update policies (move.origTopic upper) .inherit
    else policies
  if move.newVisibilityPolicy upper pair = pair.2 then policies
  else Function.update policies (move.targetTopic upper) (move.newVisibilityPolicy upper pair)

theorem policiesOf_migrateUsers_of_mem
    {group : (VisibilityPolicy × VisibilityPolicy) × List Nat} (member : userId ∈ group.2)
    (table : UserTopicTable upper) :
    (move.migrateUsers table group).policiesOf userId =
      move.migratePolicies upper group.1 (table.policiesOf userId) := by
  unfold migrateUsers migratePolicies
  dsimp only
  split_ifs with same explicit explicit
  · rw [UserTopicTable.policiesOf_bulkSetInDatabase, if_pos member]
    rfl
  · rfl
  · rw [UserTopicTable.policiesOf_bulkSetInDatabase,
      UserTopicTable.policiesOf_bulkSetInDatabase, if_pos member, if_pos member]
    rfl
  · rw [UserTopicTable.policiesOf_bulkSetInDatabase, if_pos member]
    rfl

theorem policiesOf_migrateUsers_of_not_mem
    {group : (VisibilityPolicy × VisibilityPolicy) × List Nat} (absent : userId ∉ group.2)
    (table : UserTopicTable upper) :
    (move.migrateUsers table group).policiesOf userId = table.policiesOf userId := by
  unfold migrateUsers
  dsimp only
  split_ifs <;> simp only [UserTopicTable.policiesOf_bulkSetInDatabase, if_neg absent]

/-- The rows of users who cannot access the new stream are deleted first. -/
theorem policiesOf_inaccessible :
    (table.bulkSetInDatabase (move.streamInaccessibleTo table) move.streamBeingEdited
        move.origTopicName .inherit).1.policiesOf userId =
      if move.losesAccess userId then
        Function.update (table.policiesOf userId) (move.origTopic upper) .inherit
      else table.policiesOf userId := by
  rw [UserTopicTable.policiesOf_bulkSetInDatabase]
  have listed : userId ∈ move.streamInaccessibleTo table ↔ move.losesAccess userId = true ∧
      table.policiesOf userId (move.origTopic upper) ≠ .inherit := by
    have asPolicies : move.streamInaccessibleTo table =
        (table.policiesByUser move.losesAccess move.streamBeingEdited
          move.origTopicName).map Prod.fst := by
      unfold streamInaccessibleTo UserTopicTable.policiesByUser
      rw [List.map_map]
      rfl
    rw [asPolicies, List.mem_map]
    constructor
    · rintro ⟨⟨other, policy⟩, member, rfl⟩
      obtain ⟨loses, explicit, rfl⟩ := UserTopicTable.mem_policiesByUser.mp member
      exact ⟨loses, explicit⟩
    · rintro ⟨loses, explicit⟩
      exact ⟨(userId, _), UserTopicTable.mem_policiesByUser.mpr ⟨loses, explicit, rfl⟩, rfl⟩
  by_cases loses : move.losesAccess userId
  · rw [if_pos loses]
    split_ifs with member
    · rfl
    · have inherits : table.policiesOf userId (move.origTopic upper) = .inherit := by
        by_contra explicit
        exact member (listed.mpr ⟨loses, explicit⟩)
      rw [← inherits, Function.update_eq_self]
  · rw [if_neg loses, if_neg fun member => loses (listed.mp member).1]

/-- The groups act on the policies of a user through the user's own group. -/
theorem policiesOf_foldl_migrateUsers (start : UserTopicTable upper) :
    ((move.usersForVisibilityPolicyPair table).entries.foldl move.migrateUsers start).policiesOf
        userId =
      if userId ∈ move.usersHavingVisibilityPolicy table then
        move.migratePolicies upper (move.visibilityPolicyPair table userId)
          (start.policiesOf userId)
      else start.policiesOf userId := by
  split_ifs with having
  · obtain ⟨group, listed, samePair⟩ := exists_group having
    have member := (mem_group listed).mpr ⟨having, samePair.symm⟩
    rw [← samePair]
    refine @foldl_of_others _ _ _ (fun table => table.policiesOf userId) move.migrateUsers
      (move.migratePolicies upper group.1) _ group
      (List.Nodup.of_map Prod.fst (move.usersForVisibilityPolicyPair table).nodupKeys) listed
      (policiesOf_migrateUsers_of_mem member) ?_ start
    intro other otherListed different
    refine policiesOf_migrateUsers_of_not_mem fun otherMember => different ?_
    have sameKey := ((mem_group otherListed).mp otherMember).2.symm.trans samePair.symm
    exact List.inj_on_of_nodup_map (move.usersForVisibilityPolicyPair table).nodupKeys
      otherListed listed sameKey
  · have kept : ∀ groups, groups ⊆ (move.usersForVisibilityPolicyPair table).entries →
        ∀ start : UserTopicTable upper,
          (groups.foldl move.migrateUsers start).policiesOf userId = start.policiesOf userId := by
      intro groups sub
      induction groups with
      | nil => exact fun _ => rfl
      | cons group rest inductionHypothesis =>
          intro start
          rw [List.foldl_cons,
            inductionHypothesis fun _ isRest => sub (List.mem_cons_of_mem _ isRest)]
          exact policiesOf_migrateUsers_of_not_mem (fun member =>
            having ((mem_group (sub List.mem_cons_self)).mp member).1) start
    exact kept _ (List.Subset.refl _) start

/-- Without a policy for the old topic, the new policy is the one for the target topic or none. -/
theorem newVisibilityPolicy_of_inherit (move : TopicMove db) (upper : String → String)
    (policy : VisibilityPolicy) :
    move.newVisibilityPolicy upper (.inherit, policy) = policy ∨
      move.newVisibilityPolicy upper (.inherit, policy) = .inherit := by
  unfold newVisibilityPolicy
  split_ifs
  · exact getVisibilityPolicyAfterMerge_inherit policy
  · exact Or.inr rfl

/-- Of two equal policies nothing is changed. -/
theorem newVisibilityPolicy_self (move : TopicMove db) (upper : String → String)
    (policy : VisibilityPolicy) : move.newVisibilityPolicy upper (policy, policy) = policy := by
  unfold newVisibilityPolicy getVisibilityPolicyAfterMerge
  dsimp only
  rw [if_pos rfl, ite_self]

/-- When the old topic has been cleared and the target topic is another one, setting its policy
only if it changes is setting it. -/
theorem migratePolicies_of_cleared {pair : VisibilityPolicy × VisibilityPolicy}
    {policies start : Recipient × String → VisibilityPolicy}
    (cleared : (if pair.1 ≠ .inherit then Function.update start (move.origTopic upper) .inherit
      else start) = Function.update policies (move.origTopic upper) .inherit)
    (isTarget : pair.2 = policies (move.targetTopic upper))
    (another : move.targetTopic upper ≠ move.origTopic upper) :
    move.migratePolicies upper pair start =
      Function.update (Function.update policies (move.origTopic upper) .inherit)
        (move.targetTopic upper) (move.newVisibilityPolicy upper pair) := by
  unfold migratePolicies
  dsimp only
  rw [cleared]
  split_ifs with same
  · rw [same, isTarget]
    have kept : policies (move.targetTopic upper) =
        Function.update policies (move.origTopic upper) .inherit (move.targetTopic upper) :=
      (Function.update_of_ne another _ _).symm
    rw [kept, Function.update_eq_self]
  · rfl

/-- When both topics are the same one, its policy is cleared. -/
theorem migratePolicies_of_same {pair : VisibilityPolicy × VisibilityPolicy}
    {policies start : Recipient × String → VisibilityPolicy}
    (cleared : (if pair.1 ≠ .inherit then Function.update start (move.origTopic upper) .inherit
      else start) = Function.update policies (move.origTopic upper) .inherit)
    (equalOrNone : pair.1 = pair.2 ∨ pair.1 = .inherit)
    (same : move.targetTopic upper = move.origTopic upper) :
    move.migratePolicies upper pair start =
      Function.update policies (move.origTopic upper) .inherit := by
  have newPolicy : move.newVisibilityPolicy upper pair = pair.2 ∨
      move.newVisibilityPolicy upper pair = .inherit := by
    rcases equalOrNone with equal | inherits
    · rw [show pair = (pair.2, pair.2) from Prod.ext equal rfl]
      exact Or.inl (newVisibilityPolicy_self move upper pair.2)
    · rw [show pair = (.inherit, pair.2) from Prod.ext inherits rfl]
      exact newVisibilityPolicy_of_inherit move upper pair.2
  unfold migratePolicies
  dsimp only
  rw [cleared, same]
  split_ifs with unchanged
  · rfl
  · rw [newPolicy.resolve_left unchanged, Function.update_idem]

/-- After the migration a user has no policy for the old topic, and for the target topic the one
that follows from the two policies before. -/
theorem policiesOf_migrateUserTopics :
    (move.migrateUserTopics table).policiesOf userId =
      if move.targetTopic upper = move.origTopic upper then
        Function.update (table.policiesOf userId) (move.origTopic upper) .inherit
      else
        Function.update
          (Function.update (table.policiesOf userId) (move.origTopic upper) .inherit)
          (move.targetTopic upper) (move.policyAfterMove table userId) := by
  unfold migrateUserTopics policyAfterMove
  rw [policiesOf_foldl_migrateUsers, policiesOf_inaccessible]
  simp only [mem_usersHavingVisibilityPolicy, visibilityPolicyPair_eq]
  generalize table.policiesOf userId = policies
  generalize move.losesAccess userId = loses
  -- Whether or not the user loses access, nothing is left for the old topic.
  have cleared : (if (if loses then .inherit else policies (move.origTopic upper)) ≠
        VisibilityPolicy.inherit then
      Function.update (if loses then Function.update policies (move.origTopic upper) .inherit
        else policies) (move.origTopic upper) .inherit
      else if loses then Function.update policies (move.origTopic upper) .inherit
        else policies) = Function.update policies (move.origTopic upper) .inherit := by
    cases loses with
    | true => simp
    | false =>
        simp only [Bool.false_eq_true, if_false]
        split_ifs with explicit
        · rfl
        · rw [not_ne_iff] at explicit
          rw [← explicit, Function.update_eq_self]
  by_cases having : ((if loses then .inherit else policies (move.origTopic upper)),
      policies (move.targetTopic upper)) ≠ (VisibilityPolicy.inherit, VisibilityPolicy.inherit)
  · rw [if_pos having]
    by_cases same : move.targetTopic upper = move.origTopic upper
    · rw [if_pos same]
      refine migratePolicies_of_same cleared ?_ same
      cases loses with
      | true => exact Or.inr rfl
      | false => exact Or.inl (congrArg policies same.symm)
    · rw [if_neg same]
      exact migratePolicies_of_cleared cleared rfl same
  · rw [if_neg having]
    rw [not_ne_iff, Prod.mk.injEq] at having
    obtain ⟨origInherits, targetInherits⟩ := having
    rw [origInherits, targetInherits, newVisibilityPolicy_self]
    rw [origInherits, if_neg (fun explicit => explicit rfl)] at cleared
    rw [cleared]
    split_ifs with same
    · rfl
    · have kept : Function.update policies (move.origTopic upper) .inherit
          (move.targetTopic upper) = .inherit :=
        (Function.update_of_ne same _ _).trans targetInherits
      exact Function.eq_update_self_iff.mpr kept

end TopicMove

end Zulip.Access
