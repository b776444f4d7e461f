import Zulip.Foundation.LetterCase
import Zulip.Access.TopicMoves

/-!
# Who still sees a topic that has moved

`topicVisibility_iff`: the migration of topic policies does what it is for, except that a followed
topic of a muted stream is hidden when it is merged with a topic that is not followed.
`caseRename_iff`: renaming a topic to another case keeps its policies only if none is migrated.
-/

namespace Zulip.Access

open Zulip.Messages (PropagateMode truncateTopic)

namespace TopicMove

variable {db : Database} (move : TopicMove db) {upper : String → String}

/-! ## What a move has to keep -/

/-- The user has muted the stream of the old topic. -/
def streamMuted (userId : Nat) : Bool :=
  db.subscriptions.any fun row =>
    row.userProfileId = userId ∧ row.recipient = move.streamBeingEdited.recipient ∧
      row.active = true ∧ row.isMuted = true

/-- Messages under this policy are visible. -/
def Visible (userId : Nat) (policy : VisibilityPolicy) : Prop :=
  policy = .unmuted ∨ policy = .followed ∨ (policy = .inherit ∧ move.streamMuted userId = false)

instance (userId : Nat) (policy : VisibilityPolicy) : Decidable (move.Visible userId policy) := by
  unfold Visible
  infer_instance

/-- What the `UserTopic` rows should be after the migration. -/
structure VisibilityKept (before after : UserTopicTable upper) : Prop where
  /-- No row for the old topic is left, unless the topic is still the same one. -/
  oldRowsGone : move.targetTopic upper ≠ move.origTopic upper →
    after.rowsOfTopic move.streamBeingEdited move.origTopicName = []
  /-- A user who loses access has no new row. -/
  noRowWithoutAccess : ∀ userId, move.losesAccess userId = true →
    (∃ row ∈ after.rowsOfTopic move.targetStream move.targetTopicName,
      row.userProfileId = userId) →
    ∃ row ∈ before.rowsOfTopic move.targetStream move.targetTopicName, row.userProfileId = userId
  /-- In a new topic every other user has the policy for the old topic. -/
  policyTaken : move.targetTopicHasMessages upper = false → ∀ userId,
    move.losesAccess userId = false →
    (∃ row ∈ before.rowsOfTopic move.streamBeingEdited move.origTopicName,
        row.userProfileId = userId) ∨
      (∃ row ∈ before.rowsOfTopic move.targetStream move.targetTopicName,
        row.userProfileId = userId) →
    after.getTopicVisibilityPolicy userId move.targetStream move.targetTopicName =
      before.getTopicVisibilityPolicy userId move.streamBeingEdited move.origTopicName
  /-- A topic that is merged with another one of the stream is seen by who saw one of them. -/
  stillVisible : move.targetTopicHasMessages upper = true →
    move.targetStream.recipient = move.streamBeingEdited.recipient → ∀ userId,
    move.losesAccess userId = false →
    move.Visible userId
        (before.getTopicVisibilityPolicy userId move.streamBeingEdited move.origTopicName) ∨
      move.Visible userId
        (before.getTopicVisibilityPolicy userId move.targetStream move.targetTopicName) →
    move.Visible userId
      (after.getTopicVisibilityPolicy userId move.targetStream move.targetTopicName)

/-- One topic is followed, and the other one is muted or without a policy. -/
def FollowsOne (first second : VisibilityPolicy) : Prop :=
  (first = .followed ∧ (second = .muted ∨ second = .inherit)) ∨
    (second = .followed ∧ (first = .muted ∨ first = .inherit))

instance (first second : VisibilityPolicy) : Decidable (FollowsOne first second) := by
  unfold FollowsOne
  infer_instance

/-- The user needs a policy to see messages of the stream, and the merge loses it. -/
def LosesSight (table : UserTopicTable upper) (userId : Nat) : Prop :=
  move.streamMuted userId = true ∧
    if upper move.targetTopicName = upper move.origTopicName then
      table.getTopicVisibilityPolicy userId move.streamBeingEdited move.origTopicName ∈
        [VisibilityPolicy.unmuted, .followed]
    else
      FollowsOne
        (table.getTopicVisibilityPolicy userId move.streamBeingEdited move.origTopicName)
        (table.getTopicVisibilityPolicy userId move.targetStream move.targetTopicName)

variable {move} {table : UserTopicTable upper} {userId : Nat}

/-! ## Lookups after the migration -/

theorem targetPolicy_of_same (same : move.targetTopic upper = move.origTopic upper) :
    (move.migrateUserTopics table).getTopicVisibilityPolicy userId move.targetStream
      move.targetTopicName = .inherit := by
  have cleared : (move.migrateUserTopics table).policiesOf userId (move.targetTopic upper) =
      .inherit := by
    rw [policiesOf_migrateUserTopics, if_pos same, same, Function.update_self]
  exact cleared

theorem targetPolicy_of_another (another : move.targetTopic upper ≠ move.origTopic upper) :
    (move.migrateUserTopics table).getTopicVisibilityPolicy userId move.targetStream
      move.targetTopicName = move.policyAfterMove table userId := by
  have isSet : (move.migrateUserTopics table).policiesOf userId (move.targetTopic upper) =
      move.policyAfterMove table userId := by
    rw [policiesOf_migrateUserTopics, if_neg another, Function.update_self]
  exact isSet

theorem origPolicy_migrated :
    (move.migrateUserTopics table).policiesOf userId (move.origTopic upper) = .inherit := by
  rw [policiesOf_migrateUserTopics]
  split_ifs with same
  · rw [Function.update_self]
  · rw [Function.update_of_ne (Ne.symm same), Function.update_self]

/-- A user has a row for a topic exactly when a lookup does not inherit. -/
theorem exists_row_iff {stream : Stream} {topicName : String} :
    (∃ row ∈ table.rowsOfTopic stream topicName, row.userProfileId = userId) ↔
      table.getTopicVisibilityPolicy userId stream topicName ≠ .inherit := by
  constructor
  · rintro ⟨row, member, rfl⟩
    obtain ⟨stored, sameKey⟩ := UserTopicTable.mem_rowsOfTopic.mp member
    have isPolicy := UserTopicTable.policyAt_of_mem stored sameKey
    intro inherits
    exact table.explicit row stored (isPolicy.symm.trans inherits)
  · intro explicit
    obtain ⟨row, stored, sameKey⟩ := UserTopicTable.exists_row explicit
    have ofUser : row.userProfileId = userId := congrArg Prod.fst sameKey
    refine ⟨row, UserTopicTable.mem_rowsOfTopic.mpr ⟨stored, ?_⟩, ofUser⟩
    rw [sameKey, ofUser]

/-- The message itself is in the topic that it comes from. -/
theorem targetTopicHasMessages_of_same (same : move.targetTopic upper = move.origTopic upper) :
    move.targetTopicHasMessages upper = true := by
  obtain ⟨stream, stored, sameId, sameRealm⟩ := db.streamOfMessage move.targetMessage
    move.targetStored move.streamBeingEdited.id move.toStream
  have isStream := List.inj_on_of_nodup_map db.streamKeys stored move.streamStored sameId
  have member : move.targetMessage ∈ messagesForTopic upper db move.userProfile.realm
      move.targetStream.recipient move.targetTopicName := by
    refine List.mem_filter.mpr ⟨move.targetStored, ?_⟩
    rw [decide_eq_true_eq]
    refine ⟨?_, ?_, (congrArg Prod.snd same).symm⟩
    · rw [← sameRealm, isStream, move.sameRealm]
    · exact move.toStream.trans (congrArg Prod.fst same).symm
  unfold targetTopicHasMessages
  rw [Bool.not_eq_true', List.isEmpty_eq_false_iff]
  exact List.ne_nil_of_mem member

/-- Visibility of the merged topic, by the two policies and the muting of the stream. -/
theorem merge_visible_iff (first second : VisibilityPolicy) (muted : Bool) :
    ((first = .unmuted ∨ first = .followed ∨ (first = .inherit ∧ muted = false)) ∨
        (second = .unmuted ∨ second = .followed ∨ (second = .inherit ∧ muted = false)) →
      (getVisibilityPolicyAfterMerge first second = .unmuted ∨
        getVisibilityPolicyAfterMerge first second = .followed ∨
        (getVisibilityPolicyAfterMerge first second = .inherit ∧ muted = false))) ↔
      ¬(muted = true ∧ FollowsOne first second) := by
  cases muted <;> cases first <;> cases second <;> decide

/-- A user goes on seeing the merged topic exactly when no policy that the user needs is lost. -/
theorem stillVisible_iff (hasMessages : move.targetTopicHasMessages upper = true)
    (sameStream : move.targetStream.recipient = move.streamBeingEdited.recipient)
    (keepsAccess : move.losesAccess userId = false) :
    (move.Visible userId
          (table.getTopicVisibilityPolicy userId move.streamBeingEdited move.origTopicName) ∨
        move.Visible userId
          (table.getTopicVisibilityPolicy userId move.targetStream move.targetTopicName) →
      move.Visible userId ((move.migrateUserTopics table).getTopicVisibilityPolicy userId
        move.targetStream move.targetTopicName)) ↔ ¬move.LosesSight table userId := by
  unfold LosesSight
  by_cases sameName : upper move.targetTopicName = upper move.origTopicName
  · have same : move.targetTopic upper = move.origTopic upper := Prod.ext sameStream sameName
    have samePolicy : table.getTopicVisibilityPolicy userId move.targetStream
        move.targetTopicName =
          table.getTopicVisibilityPolicy userId move.streamBeingEdited move.origTopicName :=
      congrArg (table.policiesOf userId) same
    rw [targetPolicy_of_same same, samePolicy, or_self, if_pos sameName]
    unfold Visible
    generalize move.streamMuted userId = muted
    generalize table.getTopicVisibilityPolicy userId _ _ = policy
    cases muted <;> cases policy <;> decide
  · have another : move.targetTopic upper ≠ move.origTopic upper :=
      fun same => sameName (congrArg Prod.snd same)
    have merged : move.policyAfterMove table userId = getVisibilityPolicyAfterMerge
        (table.getTopicVisibilityPolicy userId move.streamBeingEdited move.origTopicName)
        (table.getTopicVisibilityPolicy userId move.targetStream move.targetTopicName) := by
      unfold policyAfterMove newVisibilityPolicy
      rw [visibilityPolicyPair_eq, if_pos hasMessages, keepsAccess]
      rfl
    rw [targetPolicy_of_another another, merged, if_neg sameName]
    exact merge_visible_iff _ _ _

/-- When the acting user has moved the whole topic, as far as it is visible to them, the policies
are as they should be afterwards exactly when no user who keeps access needs a policy that a merge
in the same stream loses. -/
theorem topicVisibility_iff {db : Database} (move : TopicMove db) {upper : String → String}
    (table : UserTopicTable upper) (after : Database)
    (moved : move.movedAllVisibleMessages upper after = true) :
    move.VisibilityKept table (move.userTopicsAfter table after) ↔
      (move.targetTopicHasMessages upper = true →
        move.targetStream.recipient = move.streamBeingEdited.recipient →
        ∀ userId, move.losesAccess userId = false → ¬move.LosesSight table userId) := by
  unfold userTopicsAfter
  rw [if_pos moved]
  constructor
  · intro kept hasMessages sameStream userId keepsAccess
    exact (stillVisible_iff hasMessages sameStream keepsAccess).mp
      (kept.stillVisible hasMessages sameStream userId keepsAccess)
  · intro nobodyLoses
    refine ⟨fun _ => ?_, ?_, ?_, ?_⟩
    · rw [List.eq_nil_iff_forall_not_mem]
      intro row member
      exact exists_row_iff.mp ⟨row, member, rfl⟩ origPolicy_migrated
    · intro userId loses
      rw [exists_row_iff, exists_row_iff]
      by_cases same : move.targetTopic upper = move.origTopic upper
      · rw [targetPolicy_of_same same]
        exact fun explicit => absurd rfl explicit
      · -- Such a user counts as having no policy for the old topic.
        have pair : move.visibilityPolicyPair table userId = (.inherit,
            table.getTopicVisibilityPolicy userId move.targetStream move.targetTopicName) := by
          rw [visibilityPolicyPair_eq, if_pos loses]
          rfl
        rw [targetPolicy_of_another same, policyAfterMove, pair]
        intro explicit
        rcases newVisibilityPolicy_of_inherit move upper (table.getTopicVisibilityPolicy userId
          move.targetStream move.targetTopicName) with kept | inherits
        · rw [kept] at explicit
          exact explicit
        · exact absurd inherits explicit
    · intro noMessages userId keepsAccess _
      have another : move.targetTopic upper ≠ move.origTopic upper := by
        intro same
        rw [targetTopicHasMessages_of_same same] at noMessages
        simp at noMessages
      rw [targetPolicy_of_another another, policyAfterMove, visibilityPolicyPair_eq, keepsAccess,
        newVisibilityPolicy, noMessages]
      rfl
    · intro hasMessages sameStream userId keepsAccess
      exact (stillVisible_iff hasMessages sameStream keepsAccess).mpr
        (nobodyLoses hasMessages sameStream userId keepsAccess)

end TopicMove

theorem lunchMessage_toStream : lunchMessage.recipient = lunchStream.recipient := rfl

theorem lunchStream_stored : lunchStream ∈ starredHistory.streams := List.mem_cons_self

theorem lunchStream_sameRealm : lunchStream.realm = iago.realm := rfl

/-- A topic moves to a new one, within its stream. -/
def plansToDinner : TopicMove starredHistory where
  userProfile := iago
  targetMessage := lunchMessage
  streamBeingEdited := lunchStream
  newStream := none
  topicName := some "dinner"
  propagateMode := .changeAll
  targetStored := List.mem_singleton_self _
  toStream := lunchMessage_toStream
  streamStored := lunchStream_stored
  sameRealm := lunchStream_sameRealm

/-- A user follows the topic. -/
def plansFollowed : UserTopicTable String.toUpper where
  rows := [⟨12, .stream 7, "Plans", .followed⟩]
  lower := String.toLower
  sameNames := LetterCase.latin.sameNames
  uniqueIndex := List.nodup_singleton _
  explicit := by decide

theorem truncateTopic_dinner : truncateTopic "dinner" = "dinner" := by decide +kernel

theorem upper_plans : String.toUpper "plans" = "PLANS" := by decide +kernel

theorem upper_capitalPlans : String.toUpper "Plans" = "PLANS" := by decide +kernel

theorem plansFollowed_policy :
    plansFollowed.getTopicVisibilityPolicy 12 lunchStream "plans" = .followed := by
  have sameKey : (⟨12, .stream 7, "Plans", .followed⟩ : UserTopic).key String.toUpper =
      (12, lunchStream.recipient, String.toUpper "plans") := by
    rw [upper_plans, ← upper_capitalPlans]
    rfl
  unfold UserTopicTable.getTopicVisibilityPolicy UserTopicTable.policyAt
  simp [plansFollowed, sameKey]

theorem plans_ne_dinner : String.toUpper "plans" ≠ String.toUpper (truncateTopic "dinner") := by
  have upper_dinner : String.toUpper "dinner" = "DINNER" := by decide +kernel
  rw [truncateTopic_dinner, upper_plans, upper_dinner]
  decide

theorem plansFollowed_dinner :
    plansFollowed.getTopicVisibilityPolicy 12 lunchStream (truncateTopic "dinner") = .inherit := by
  have differs : (⟨12, .stream 7, "Plans", .followed⟩ : UserTopic).key String.toUpper ≠
      (12, lunchStream.recipient, String.toUpper (truncateTopic "dinner")) := by
    intro sameKey
    refine plans_ne_dinner ?_
    rw [upper_plans, ← upper_capitalPlans]
    exact congrArg (fun key : TopicKey => key.2.2) sameKey
  unfold UserTopicTable.getTopicVisibilityPolicy UserTopicTable.policyAt
  simp [plansFollowed, differs]

/-- The new topic is followed by who followed the old one. -/
theorem topicVisibility_iff_newTopic : plansToDinner.VisibilityKept plansFollowed
    (plansToDinner.userTopicsAfter plansFollowed starredHistory) := by
  refine (plansToDinner.topicVisibility_iff plansFollowed starredHistory rfl).mpr ?_
  have noMessages : plansToDinner.targetTopicHasMessages String.toUpper = false := by
    rw [TopicMove.targetTopicHasMessages, Bool.not_eq_false', List.isEmpty_iff]
    refine List.filter_eq_nil_iff.mpr fun message stored isTopic => plans_ne_dinner ?_
    rw [List.mem_singleton.mp stored] at isTopic
    exact (of_decide_eq_true isTopic).2.2
  intro hasMessages
  rw [noMessages] at hasMessages
  simp at hasMessages

def dinnerMessage : Message :=
  ⟨101, exampleRealm, 10, .stream 7, "dinner", "pasta", false, false, false⟩

/-- Two topics of a stream, which a subscriber has muted. -/
def twoTopics : Database where
  streams := [lunchStream]
  users := [iago, aaron]
  subscriptions := [⟨10, .stream 7, true, false⟩, ⟨12, .stream 7, true, true⟩]
  messages := [lunchMessage, dinnerMessage]
  streamOfMessage := by
    intro message stored streamId toStream
    have inLunch : message.recipient = .stream 7 ∧ message.realm = exampleRealm := by
      rcases List.mem_cons.mp stored with rfl | stored
      · exact ⟨rfl, rfl⟩
      · rw [List.mem_singleton.mp stored]
        exact ⟨rfl, rfl⟩
    refine ⟨lunchStream, List.mem_singleton_self _, ?_, inLunch.2.symm⟩
    exact Recipient.stream.inj (inLunch.1.symm.trans toStream)

/-- The topics are merged. -/
def mergeWithDinner : TopicMove twoTopics where
  userProfile := iago
  targetMessage := lunchMessage
  streamBeingEdited := lunchStream
  newStream := none
  topicName := some "dinner"
  propagateMode := .changeAll
  targetStored := List.mem_cons_self
  toStream := lunchMessage_toStream
  streamStored := List.mem_singleton_self _
  sameRealm := lunchStream_sameRealm

/-- The subscriber who followed the topic does not see the merged one. -/
theorem followedTopic_hidden_by_merge :
    mergeWithDinner.movedAllVisibleMessages String.toUpper twoTopics = true ∧
      ¬mergeWithDinner.VisibilityKept plansFollowed
        (mergeWithDinner.userTopicsAfter plansFollowed twoTopics) := by
  refine ⟨rfl, fun kept => ?_⟩
  have hasMessages : mergeWithDinner.targetTopicHasMessages String.toUpper = true := by
    rw [TopicMove.targetTopicHasMessages, Bool.not_eq_true', List.isEmpty_eq_false_iff]
    have sameTopic : String.toUpper dinnerMessage.subject =
        String.toUpper (truncateTopic "dinner") := by
      rw [truncateTopic_dinner]
      rfl
    have isStored : dinnerMessage ∈ twoTopics.messages :=
      List.mem_cons_of_mem _ (List.mem_singleton_self _)
    exact List.ne_nil_of_mem
      (List.mem_filter.mpr ⟨isStored, decide_eq_true ⟨rfl, rfl, sameTopic⟩⟩)
  have visible := kept.stillVisible hasMessages rfl 12 rfl
    (Or.inl (Or.inr (Or.inl plansFollowed_policy)))
  have another : mergeWithDinner.targetTopic String.toUpper ≠
      mergeWithDinner.origTopic String.toUpper :=
    fun same => plans_ne_dinner (congrArg Prod.snd same).symm
  have inherits : mergeWithDinner.policyAfterMove plansFollowed 12 = .inherit := by
    rw [TopicMove.policyAfterMove, TopicMove.newVisibilityPolicy, if_pos hasMessages]
    have pair : mergeWithDinner.visibilityPolicyPair plansFollowed 12 = (.followed, .inherit) := by
      rw [TopicMove.visibilityPolicyPair_eq]
      exact Prod.ext plansFollowed_policy plansFollowed_dinner
    rw [pair]
    rfl
  have moved : mergeWithDinner.userTopicsAfter plansFollowed twoTopics =
      mergeWithDinner.migrateUserTopics plansFollowed := rfl
  rw [moved, TopicMove.targetPolicy_of_another another, inherits] at visible
  exact absurd visible (by decide)

end Zulip.Access
