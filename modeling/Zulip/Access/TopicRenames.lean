import Zulip.Access.TopicVisibility

/-!
# Renaming a topic to another case

In another case a topic is the same one to every lookup. `caseRename_iff`: all policies stay as they
are exactly when there are none, or when the policies are not migrated.
-/

namespace Zulip.Access

open Zulip.Messages (PropagateMode truncateTopic)

namespace TopicMove

variable {db : Database} (move : TopicMove db) {upper : String → String}

/-- The messages that get the new topic, when the stream stays the same. -/
def renames (upper : String → String) (message : Message) : Bool :=
  message.id = move.targetMessage.id ||
    (message.realm = move.streamBeingEdited.realm &&
      message.recipient = move.streamBeingEdited.recipient &&
      upper message.subject = upper move.origTopicName &&
      match move.propagateMode with
      | .changeOne => false
      | .changeLater => decide (move.targetMessage.id < message.id)
      | .changeAll => decide (message.id ≠ move.targetMessage.id))

def renameMessage (upper : String → String) (message : Message) : Message :=
  if move.renames upper message then { message with subject := move.targetTopicName } else message

theorem renameMessage_eq (message : Message) : ∃ subject,
    move.renameMessage upper message = { message with subject } := by
  unfold renameMessage
  split
  · exact ⟨_, rfl⟩
  · exact ⟨message.subject, rfl⟩

/-- The database after `do_update_message` has saved the messages, without a new stream. -/
def renamed (upper : String → String) : Database :=
  { db with
    messages := db.messages.map (move.renameMessage upper)
    messageKeys := by
      have sameIds : (fun message : Message => message.id) ∘ move.renameMessage upper =
          fun message => message.id := by
        funext message
        obtain ⟨subject, same⟩ := @renameMessage_eq _ move upper message
        change (move.renameMessage upper message).id = message.id
        rw [same]
      rw [List.map_map, sameIds]
      exact db.messageKeys
    streamOfMessage := by
      intro message stored streamId toStream
      obtain ⟨before, isBefore, rfl⟩ := List.mem_map.mp stored
      obtain ⟨subject, same⟩ := @renameMessage_eq _ move upper before
      rw [same] at toStream ⊢
      exact db.streamOfMessage before isBefore streamId toStream }

variable {move}

/-- A renamed message was in the topic. -/
theorem upper_of_renames {message : Message} (stored : message ∈ db.messages)
    (renames : move.renames upper message = true) :
    upper message.subject = upper move.origTopicName := by
  unfold TopicMove.renames at renames
  rcases Bool.or_eq_true_iff.mp renames with isTarget | isOther
  · have same := List.inj_on_of_nodup_map db.messageKeys stored move.targetStored
      (of_decide_eq_true isTarget)
    rw [same]
    rfl
  · simp only [Bool.and_eq_true, decide_eq_true_eq] at isOther
    exact isOther.1.2

/-- Renamed to another case, a topic has the messages that it had. -/
theorem messagesForTopic_renamed
    (sameCase : upper move.targetTopicName = upper move.origTopicName) (realm : Realm)
    (recipient : Recipient) :
    messagesForTopic upper (move.renamed upper) realm recipient move.origTopicName =
      (messagesForTopic upper db realm recipient move.origTopicName).map
        (move.renameMessage upper) := by
  unfold messagesForTopic renamed
  rw [List.filter_map]
  congr 1
  refine List.filter_congr fun message stored => ?_
  rw [Function.comp_apply, decide_eq_decide]
  unfold renameMessage
  split
  · rename_i renames
    rw [sameCase, upper_of_renames stored renames]
  · rfl

/-- Access does not depend on the topics of messages. -/
theorem bulkAccessStreamMessagesQuery_renamed (user : UserProfile) (messages : List Message)
    (stream : Stream) :
    bulkAccessStreamMessagesQuery (move.renamed upper) user
        (messages.map (move.renameMessage upper)) stream =
      (bulkAccessStreamMessagesQuery db user messages stream).map (move.renameMessage upper) := by
  have sameRow : ∀ userId messageId,
      (move.renamed upper).hasUserMessage userId messageId = db.hasUserMessage userId messageId :=
    fun _ _ => rfl
  have sameSubscriptions : ∀ userId recipient,
      (move.renamed upper).isSubscribed userId recipient = db.isSubscribed userId recipient :=
    fun _ _ => rfl
  have keepsFilter : ∀ (test : Message → Bool) (messages : List Message),
      (∀ message subject, test { message with subject } = test message) →
      (messages.map (move.renameMessage upper)).filter test =
        (messages.filter test).map (move.renameMessage upper) := by
    intro test messages blind
    rw [List.filter_map]
    congr 2
    funext message
    obtain ⟨subject, same⟩ := @renameMessage_eq _ move upper message
    rw [Function.comp_apply, same, blind]
  unfold bulkAccessStreamMessagesQuery
  dsimp only
  rw [keepsFilter _ _ fun _ _ => rfl, sameSubscriptions]
  split_ifs
  · rfl
  · rfl
  · rw [keepsFilter _ _ fun _ _ => rfl]
    rfl
  · rfl

/-- A topic that is renamed to another case has moved as a whole when all of it was asked for, or
when the acting user sees nothing of it. -/
theorem movedAllVisibleMessages_renamed {topicName : String}
    (isRename : move.topicName = some topicName)
    (sameCase : upper move.targetTopicName = upper move.origTopicName) :
    move.movedAllVisibleMessages upper (move.renamed upper) = true ↔
      move.propagateMode = .changeAll ∨
        bulkAccessStreamMessagesQuery db move.userProfile
          (messagesForTopic upper db move.userProfile.realm move.streamBeingEdited.recipient
            move.origTopicName) move.streamBeingEdited = [] := by
  unfold movedAllVisibleMessages
  rw [messagesForTopic_renamed sameCase, bulkAccessStreamMessagesQuery_renamed, isRename,
    List.isEmpty_map]
  simp

/-- Renaming a topic to another case, within its stream, leaves every user's policy for it as it
was exactly when nobody has one, or when only a part of the topic was to be renamed and the acting
user sees messages of it. -/
theorem caseRename_iff {db : Database} (move : TopicMove db) {upper : String → String}
    (table : UserTopicTable upper) (_sameStream : move.newStream = none) {topicName : String}
    (isRename : move.topicName = some topicName)
    (sameCase : upper (truncateTopic topicName) = upper move.origTopicName) :
    (∀ userId, (move.userTopicsAfter table (move.renamed upper)).getTopicVisibilityPolicy userId
        move.streamBeingEdited move.origTopicName =
      table.getTopicVisibilityPolicy userId move.streamBeingEdited move.origTopicName) ↔
    table.rowsOfTopic move.streamBeingEdited move.origTopicName = [] ∨
      (move.propagateMode ≠ .changeAll ∧
        bulkAccessStreamMessagesQuery db move.userProfile
          (messagesForTopic upper db move.userProfile.realm move.streamBeingEdited.recipient
            move.origTopicName) move.streamBeingEdited ≠ []) := by
  have sameName : upper move.targetTopicName = upper move.origTopicName := by
    unfold targetTopicName
    rw [isRename]
    exact sameCase
  have noRows : table.rowsOfTopic move.streamBeingEdited move.origTopicName = [] ↔
      ∀ userId, .inherit =
        table.getTopicVisibilityPolicy userId move.streamBeingEdited move.origTopicName := by
    rw [List.eq_nil_iff_forall_not_mem]
    constructor
    · intro absent userId
      by_contra explicit
      obtain ⟨row, member, _⟩ := exists_row_iff.mpr (Ne.symm explicit)
      exact absent row member
    · intro inherits row member
      exact exists_row_iff.mp ⟨row, member, rfl⟩ (inherits row.userProfileId).symm
  rw [← not_iff_not.mpr (movedAllVisibleMessages_renamed isRename sameName) |>.trans not_or]
  unfold userTopicsAfter
  by_cases moved : move.movedAllVisibleMessages upper (move.renamed upper) = true
  · have cleared : ∀ userId, (move.migrateUserTopics table).getTopicVisibilityPolicy userId
        move.streamBeingEdited move.origTopicName = .inherit :=
      fun _ => origPolicy_migrated
    rw [if_pos moved, noRows]
    simp only [cleared, moved, not_true_eq_false, or_false]
  · rw [if_neg moved]
    exact ⟨fun _ => Or.inr moved, fun _ _ => rfl⟩

end TopicMove

/-- One message of a topic is renamed to another case. -/
def plansToCapital (propagateMode : PropagateMode) : TopicMove starredHistory where
  userProfile := iago
  targetMessage := lunchMessage
  streamBeingEdited := lunchStream
  newStream := none
  topicName := some "Plans"
  propagateMode
  targetStored := List.mem_singleton_self _
  toStream := lunchMessage_toStream
  streamStored := lunchStream_stored
  sameRealm := lunchStream_sameRealm

theorem plans_sameCase : String.toUpper (truncateTopic "Plans") = String.toUpper "plans" := by
  have short : truncateTopic "Plans" = "Plans" := by decide +kernel
  rw [short, upper_capitalPlans, upper_plans]

/-- The acting user reads the message of the topic. -/
theorem plans_readable : bulkAccessStreamMessagesQuery starredHistory iago
    (messagesForTopic String.toUpper starredHistory iago.realm lunchStream.recipient "plans")
      lunchStream ≠ [] := by
  have ofTopic : messagesForTopic String.toUpper starredHistory iago.realm lunchStream.recipient
      "plans" = [lunchMessage] := by
    refine List.filter_eq_self.mpr fun message stored => decide_eq_true ?_
    rw [List.mem_singleton.mp stored]
    exact ⟨rfl, lunchMessage_toStream, rfl⟩
  rw [ofTopic]
  decide

/-- With `change_one` the policy stays. -/
theorem caseRename_iff_changeOne :
    ((plansToCapital .changeOne).userTopicsAfter plansFollowed
        ((plansToCapital .changeOne).renamed String.toUpper)).getTopicVisibilityPolicy 12
          lunchStream "plans" =
      plansFollowed.getTopicVisibilityPolicy 12 lunchStream "plans" := by
  refine ((plansToCapital .changeOne).caseRename_iff plansFollowed rfl rfl plans_sameCase).mpr ?_ 12
  exact Or.inr ⟨by decide, plans_readable⟩

/-- With `change_all` the policy is deleted. -/
theorem caseRename_changeAll_deletes :
    plansFollowed.getTopicVisibilityPolicy 12 lunchStream "plans" = .followed ∧
      ((plansToCapital .changeAll).userTopicsAfter plansFollowed
        ((plansToCapital .changeAll).renamed String.toUpper)).getTopicVisibilityPolicy 12
          lunchStream "plans" = .inherit := by
  refine ⟨plansFollowed_policy, ?_⟩
  have moved : (plansToCapital .changeAll).movedAllVisibleMessages String.toUpper
      ((plansToCapital .changeAll).renamed String.toUpper) = true :=
    (TopicMove.movedAllVisibleMessages_renamed rfl plans_sameCase).mpr (.inl rfl)
  rw [TopicMove.userTopicsAfter, if_pos moved]
  exact TopicMove.origPolicy_migrated

end Zulip.Access
