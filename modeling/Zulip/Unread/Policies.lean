import Mathlib.Data.List.Pairwise
import Zulip.Unread.Events

/-!
# Prefetched visibility policies

`extract_unread_data_from_um_rows` reads the user's policies from a dictionary that is built
once and looked up by the lower-cased topic; `apply_unread_message_event` asks the database,
which ignores case. Here the two answers are compared.
-/

namespace Zulip.Unread

/-- The policy of a row that may be missing. -/
def explicitPolicy (found : Option UserTopic) : VisibilityPolicy :=
  (found.map UserTopic.visibilityPolicy).getD .inherit

/-- Where at most one row is selected, the row that is found has a policy other than the default
exactly when some selected row has it. -/
theorem explicitPolicy_find?_eq_iff {rows : List UserTopic} {selects : UserTopic → Bool}
    {policy : VisibilityPolicy} (explicit : policy ≠ .inherit)
    (unique : ∀ first ∈ rows, ∀ second ∈ rows, selects first → selects second → first = second) :
    explicitPolicy (rows.find? selects) = policy ↔
      ∃ row ∈ rows, selects row ∧ row.visibilityPolicy = policy := by
  unfold explicitPolicy
  cases found : rows.find? selects with
  | none =>
      have nowhere := List.find?_eq_none.mp found
      constructor
      · intro default
        exact absurd default.symm explicit
      · rintro ⟨row, member, selected, _⟩
        exact absurd selected (nowhere row member)
  | some row =>
      have member := List.mem_of_find?_eq_some found
      have selected := List.find?_some found
      constructor
      · intro hasPolicy
        exact ⟨row, member, selected, hasPolicy⟩
      · rintro ⟨other, otherMember, otherSelected, hasPolicy⟩
        have same := unique row member other otherMember selected otherSelected
        rw [same]
        exact hasPolicy

/-- Two policies are equal when they are the same explicit one or both the default. -/
theorem VisibilityPolicy.eq_iff_forall_explicit {first second : VisibilityPolicy} :
    first = second ↔ ∀ policy, policy ≠ .inherit → (first = policy ↔ second = policy) := by
  constructor
  · intro same policy _
    rw [same]
  · intro agree
    by_cases explicit : first = .inherit
    · by_contra different
      have secondExplicit : second ≠ .inherit := fun default =>
        different (explicit.trans default.symm)
      exact different ((agree second secondExplicit).mpr rfl)
    · exact ((agree first explicit).mp rfl).symm

namespace UserProfile

variable {user : UserProfile} {streamId : Nat} {topicName : String}

/-- The unique constraint on `UserTopic`: a user has one row for a topic, up to case. -/
def UniqueTopics (user : UserProfile) : Prop :=
  user.userTopics.Pairwise fun first second =>
    ¬(first.streamId = second.streamId ∧ user.upper first.topicName = user.upper second.topicName)

theorem UniqueTopics.eq (unique : user.UniqueTopics) {first second : UserTopic}
    (firstMember : first ∈ user.userTopics) (secondMember : second ∈ user.userTopics)
    (sameStream : first.streamId = second.streamId)
    (sameTopic : user.upper first.topicName = user.upper second.topicName) : first = second := by
  by_contra different
  have : Std.Symm fun first second : UserTopic =>
      ¬(first.streamId = second.streamId ∧
        user.upper first.topicName = user.upper second.topicName) :=
    ⟨fun _ _ apart same => apart ⟨same.1.symm, same.2.symm⟩⟩
  exact List.Pairwise.forall unique firstMember secondMember different ⟨sameStream, sameTopic⟩

/-- A row of the stream with this policy is for the topic, as the database compares names. -/
def Matched (user : UserProfile) (streamId : Nat) (topicName : String)
    (policy : VisibilityPolicy) : Prop :=
  ∃ row ∈ user.userTopics, row.streamId = streamId ∧
    user.upper row.topicName = user.upper topicName ∧ row.visibilityPolicy = policy

/-- A row of the stream with this policy is stored under the lower-cased topic. -/
def StoredLowered (user : UserProfile) (streamId : Nat) (topicName : String)
    (policy : VisibilityPolicy) : Prop :=
  ∃ row ∈ user.userTopics, row.streamId = streamId ∧
    row.topicName = user.lower topicName ∧ row.visibilityPolicy = policy

theorem getTopicVisibilityPolicy_eq_iff (unique : user.UniqueTopics) {policy : VisibilityPolicy}
    (explicit : policy ≠ .inherit) :
    user.getTopicVisibilityPolicy streamId topicName = policy ↔
      user.Matched streamId topicName policy := by
  have asFound : user.getTopicVisibilityPolicy streamId topicName =
      explicitPolicy (user.userTopics.find? fun row =>
        row.streamId = streamId && user.upper row.topicName = user.upper topicName) := by
    unfold getTopicVisibilityPolicy explicitPolicy
    split <;> simp only [*, Option.map, Option.getD]
  rw [asFound, explicitPolicy_find?_eq_iff explicit]
  · simp only [Matched, Bool.and_eq_true, decide_eq_true_eq, and_assoc]
  · intro first firstMember second secondMember firstSelected secondSelected
    simp only [Bool.and_eq_true, decide_eq_true_eq] at firstSelected secondSelected
    exact unique.eq firstMember secondMember (firstSelected.1.trans secondSelected.1.symm)
      (firstSelected.2.trans secondSelected.2.symm)

theorem prefetchedVisibilityPolicy_eq_iff (unique : user.UniqueTopics)
    {policy : VisibilityPolicy} (explicit : policy ≠ .inherit) :
    user.prefetchedVisibilityPolicy streamId topicName = policy ↔
      user.StoredLowered streamId topicName policy := by
  have asFound : user.prefetchedVisibilityPolicy streamId topicName =
      explicitPolicy (user.userTopics.reverse.find? fun row =>
        row.streamId = streamId && row.topicName = user.lower topicName) := by
    unfold prefetchedVisibilityPolicy explicitPolicy
    split <;> simp only [*, Option.map, Option.getD]
  rw [asFound, explicitPolicy_find?_eq_iff explicit]
  · simp only [StoredLowered, List.mem_reverse, Bool.and_eq_true, decide_eq_true_eq, and_assoc]
  · intro first firstMember second secondMember firstSelected secondSelected
    rw [List.mem_reverse] at firstMember secondMember
    simp only [Bool.and_eq_true, decide_eq_true_eq] at firstSelected secondSelected
    have sameName := firstSelected.2.trans secondSelected.2.symm
    exact unique.eq firstMember secondMember (firstSelected.1.trans secondSelected.1.symm)
      (congrArg user.upper sameName)

/-- With equal policies a message is classified alike when it is fetched and when its event is
applied. -/
theorem isRowMuted_eq_of_policy_eq
    (same : user.prefetchedVisibilityPolicy streamId topicName =
      user.getTopicVisibilityPolicy streamId topicName) :
    user.isRowMuted streamId topicName =
      !RawUnreadMessagesResult.eventUnmuted user user.getMutedStreamIds streamId topicName := by
  unfold isRowMuted RawUnreadMessagesResult.eventUnmuted
  rw [same]
  by_cases streamMuted : streamId ∈ user.getMutedStreamIds <;>
    cases user.getTopicVisibilityPolicy streamId topicName <;> simp [streamMuted]

/-- The prefetched policy is the one the database gives, and a message of the topic is classified
alike when it is fetched and when its event is applied. -/
def PoliciesAgree (user : UserProfile) (streamId : Nat) (topicName : String) : Prop :=
  user.prefetchedVisibilityPolicy streamId topicName =
      user.getTopicVisibilityPolicy streamId topicName ∧
    user.isRowMuted streamId topicName =
      !RawUnreadMessagesResult.eventUnmuted user user.getMutedStreamIds streamId topicName

/-- The user's row for the topic, unless it only says to inherit, is stored in lower case. -/
def StoredInLowerCase (user : UserProfile) (streamId : Nat) (topicName : String) : Prop :=
  ∀ row ∈ user.userTopics, row.streamId = streamId →
    user.upper row.topicName = user.upper topicName → row.visibilityPolicy ≠ .inherit →
      row.topicName = user.lower topicName

theorem policiesAgree_iff (unique : user.UniqueTopics) :
    user.PoliciesAgree streamId topicName ↔
      ∀ policy, policy ≠ .inherit →
        (user.StoredLowered streamId topicName policy ↔
          user.Matched streamId topicName policy) := by
  have samePolicy : user.prefetchedVisibilityPolicy streamId topicName =
        user.getTopicVisibilityPolicy streamId topicName ↔
      ∀ policy, policy ≠ .inherit →
        (user.StoredLowered streamId topicName policy ↔
          user.Matched streamId topicName policy) := by
    rw [VisibilityPolicy.eq_iff_forall_explicit]
    refine forall_congr' fun policy => forall_congr' fun explicit => ?_
    rw [prefetchedVisibilityPolicy_eq_iff unique explicit,
      getTopicVisibilityPolicy_eq_iff unique explicit]
  rw [← samePolicy]
  exact and_iff_left_of_imp isRowMuted_eq_of_policy_eq

/-- Where lower-casing keeps a topic the same up to case, the two look-ups find the same explicit
policies exactly when the row is stored in lower case. -/
theorem stored_iff_matched_iff (folds : user.upper (user.lower topicName) = user.upper topicName)
    (unique : user.UniqueTopics) :
    (∀ policy, policy ≠ .inherit →
        (user.StoredLowered streamId topicName policy ↔
          user.Matched streamId topicName policy)) ↔
      user.StoredInLowerCase streamId topicName := by
  constructor
  · intro agree row member sameStream sameTopic explicit
    obtain ⟨stored, storedMember, storedStream, lowered, _⟩ :=
      (agree row.visibilityPolicy explicit).mpr ⟨row, member, sameStream, sameTopic, rfl⟩
    have storedTopic : user.upper stored.topicName = user.upper row.topicName := by
      rw [lowered, folds, sameTopic]
    rw [← unique.eq storedMember member (storedStream.trans sameStream.symm) storedTopic]
    exact lowered
  · intro inLowerCase policy explicit
    constructor
    · rintro ⟨row, member, sameStream, lowered, hasPolicy⟩
      exact ⟨row, member, sameStream, (congrArg user.upper lowered).trans folds, hasPolicy⟩
    · rintro ⟨row, member, sameStream, sameTopic, rfl⟩
      exact ⟨row, member, sameStream, inLowerCase row member sameStream sameTopic explicit, rfl⟩

/-- The policies agree exactly when the user's row for the topic is stored in lower case, where
lower-casing keeps the topic the same up to case. For any topic, they agree exactly when each
explicit policy that matches it up to case is stored under the lower-cased topic, and the other way
round. -/
theorem prefetchedVisibilityPolicy_eq_iff_stored (user : UserProfile) (unique : user.UniqueTopics)
    (streamId : Nat) (topicName : String) :
    (user.upper (user.lower topicName) = user.upper topicName →
      (user.PoliciesAgree streamId topicName ↔ user.StoredInLowerCase streamId topicName)) ∧
    (user.PoliciesAgree streamId topicName ↔
      ∀ policy, policy ≠ .inherit →
        (user.StoredLowered streamId topicName policy ↔
          user.Matched streamId topicName policy)) :=
  ⟨fun folds => (policiesAgree_iff unique).trans (stored_iff_matched_iff folds unique),
    policiesAgree_iff unique⟩

/-- A user who muted one topic. -/
def lunchUser (storedName : String) : UserProfile where
  id := 7
  isGuest := false
  longTermIdle := false
  firstVisibleMessageId := 0
  subscriptions := Dict.empty.set 1 ⟨true, false⟩
  userTopics := [⟨1, storedName, .muted⟩]
  streams := fun _ => ⟨true, true⟩
  isDefaultBot := fun _ => false
  lower := String.toLower
  upper := String.toUpper

theorem lunchUser_unique (storedName : String) : (lunchUser storedName).UniqueTopics :=
  List.pairwise_singleton _ _

theorem lower_capitalLunch : String.toLower "Lunch" = "lunch" := by decide +kernel

theorem upper_lunch : String.toUpper "lunch" = "LUNCH" := by decide +kernel

theorem upper_capitalLunch : String.toUpper "Lunch" = "LUNCH" := by decide +kernel

/-- A topic that was muted in lower case is muted for both, also when it is asked for with a
capital. -/
theorem prefetchedVisibilityPolicy_eq_iff_stored_lunch :
    (lunchUser "lunch").PoliciesAgree 1 "Lunch" := by
  have folds : String.toUpper (String.toLower "Lunch") = String.toUpper "Lunch" := by
    rw [lower_capitalLunch, upper_lunch, upper_capitalLunch]
  refine ((prefetchedVisibilityPolicy_eq_iff_stored (lunchUser "lunch") (lunchUser_unique _) 1
    "Lunch").1 folds).mpr ?_
  intro row member _ _ _
  rw [List.mem_singleton.mp member]
  exact lower_capitalLunch.symm

/-- A topic that was muted with a capital is muted for the database only. -/
theorem prefetched_misses_capital :
    (lunchUser "Lunch").UniqueTopics ∧
      (lunchUser "Lunch").getTopicVisibilityPolicy 1 "Lunch" = .muted ∧
      (lunchUser "Lunch").prefetchedVisibilityPolicy 1 "Lunch" = .inherit ∧
      (lunchUser "Lunch").isRowMuted 1 "Lunch" = false ∧
      RawUnreadMessagesResult.eventUnmuted (lunchUser "Lunch")
        (lunchUser "Lunch").getMutedStreamIds 1 "Lunch" = false :=
  ⟨lunchUser_unique _, by decide +kernel⟩

end UserProfile

end Zulip.Unread
