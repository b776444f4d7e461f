import Zulip.Foundation.Program
import Zulip.Messages.Flags

/-!
# Flags that follow the content of a message

Sending a message computes the flags of its rows from nothing; an edit of its content patches the
flags that are there. `contentFlags_iff`: after the last edit, every row has the flags of the final
content exactly when the wildcards that the row has seen before do not outlive their content.
-/

namespace Zulip.Messages

/-- What rendering finds in a content, with what `MentionData` finds before rendering. -/
structure MessageRenderingResult where
  mentionsUserIds : List ℕ
  mentionsUserGroupIds : List ℕ
  mentionsStreamWildcard : Bool
  mentionsTopicWildcard : Bool
  userIdsWithAlertWords : List ℕ
  messageHasTopicWildcards : Bool
  topicWildcardIsPossible : mentionsTopicWildcard = true → messageHasTopicWildcards = true

inductive RecipientType where
  | personal
  | stream
  | directMessageGroup
deriving DecidableEq

/-- A message, with the participants of its topic and the members of groups. -/
structure MessageAudience where
  recipientType : RecipientType
  senderId : ℕ
  participantsForTopic : List ℕ
  getGroupMembers : ℕ → List ℕ

/-- `topic_participant_user_ids` of `get_recipient_info` -/
def MessageAudience.topicParticipantUserIds (audience : MessageAudience)
    (possibleTopicWildcardMention : Bool) : List ℕ :=
  match audience.recipientType with
  | .stream =>
      if possibleTopicWildcardMention then audience.senderId :: audience.participantsForTopic
      else []
  | .personal | .directMessageGroup => []

/-- The mentioned users, with the members of mentioned groups. -/
def MessageRenderingResult.mentionedUserIds (result : MessageRenderingResult)
    (audience : MessageAudience) : List ℕ :=
  result.mentionsUserIds ++ result.mentionsUserGroupIds.flatMap audience.getGroupMembers

/-- The participants of the topic, when rendering has found a topic wildcard. -/
def MessageRenderingResult.topicParticipantUserIds (result : MessageRenderingResult)
    (audience : MessageAudience) : List ℕ :=
  if result.mentionsTopicWildcard then
    audience.topicParticipantUserIds result.messageHasTopicWildcards
  else []

structure UserMessageLite where
  userProfileId : ℕ
  flags : Flags
deriving DecidableEq

/-! ## Sending -/

structure SendMessageRequest where
  umEligibleUserIds : List ℕ
  longTermIdleUserIds : List ℕ
  streamPushUserIds : List ℕ
  streamEmailUserIds : List ℕ
  followedTopicPushUserIds : List ℕ
  followedTopicEmailUserIds : List ℕ
  markAsReadUserIds : List ℕ
  limitUnreadUserIds : Option (List ℕ)

/-- The flags that the loop of `create_user_messages` computes for a user. -/
def sentFlags (audience : MessageAudience) (request : SendMessageRequest)
    (result : MessageRenderingResult) (userProfileId : ℕ) : Flags :=
  (if result.mentionsStreamWildcard then {.streamWildcardMentioned} else ∅) ∪
    (if audience.recipientType = .stream then ∅ else {.isPrivate}) ∪
    (if userProfileId ∈ request.markAsReadUserIds ∨
        ∃ unread ∈ request.limitUnreadUserIds, userProfileId ∉ unread then {.read} else ∅) ∪
    (if userProfileId ∈ result.mentionedUserIds audience then {.mentioned} else ∅) ∪
    (if userProfileId ∈ result.userIdsWithAlertWords then {.hasAlertWord} else ∅) ∪
    (if result.mentionsTopicWildcard ∧ userProfileId ∈ result.topicParticipantUserIds audience then
      {.topicWildcardMentioned}
    else ∅)

/-- No row is needed for a user who is away and is not notified. -/
def SendMessageRequest.skips (request : SendMessageRequest) (audience : MessageAudience)
    (userProfileId : ℕ) (flags : Flags) : Bool :=
  request.longTermIdleUserIds.contains userProfileId &&
    !request.streamPushUserIds.contains userProfileId &&
    !request.streamEmailUserIds.contains userProfileId &&
    !request.followedTopicPushUserIds.contains userProfileId &&
    !request.followedTopicEmailUserIds.contains userProfileId &&
    audience.recipientType == .stream && flags == ∅

def createUserMessages (audience : MessageAudience) (request : SendMessageRequest)
    (result : MessageRenderingResult) : List UserMessageLite :=
  request.umEligibleUserIds.filterMap fun userProfileId =>
    let flags := sentFlags audience request result userProfileId
    if request.skips audience userProfileId flags then none else some ⟨userProfileId, flags⟩

/-! ## Editing -/

def updateFlag (shouldSet : Bool) (flag : Flag) (flags : Flags) : Flags :=
  if shouldSet then insert flag flags else flags.erase flag

/-- The flags that `update_user_message_flags` leaves in a row. -/
def editedFlags (audience : MessageAudience) (result : MessageRenderingResult)
    (userProfileId : ℕ) (flags : Flags) : Flags :=
  let flags := updateFlag (result.userIdsWithAlertWords.contains userProfileId) .hasAlertWord flags
  let flags :=
    updateFlag ((result.mentionedUserIds audience).contains userProfileId) .mentioned flags
  if result.mentionsStreamWildcard then updateFlag true .streamWildcardMentioned flags
  else if result.mentionsTopicWildcard then
    updateFlag ((result.topicParticipantUserIds audience).contains userProfileId)
      .topicWildcardMentioned flags
  else flags

def updateUserMessageFlags (audience : MessageAudience) (result : MessageRenderingResult)
    (ums : List UserMessageLite) : List UserMessageLite :=
  ums.map fun um => { um with flags := editedFlags audience result um.userProfileId um.flags }

/-- The flags that follow from the content. -/
def contentFlags : Flags :=
  {.mentioned, .streamWildcardMentioned, .topicWildcardMentioned, .hasAlertWord}

/-- A row that is made after sending, for a historical message or for a user who comes back. -/
structure LaterRow where
  userProfileId : ℕ
  flags : Flags
  hasNoContentFlags : Disjoint flags contentFlags

theorem defaultHistoricalFlags_disjoint : Disjoint defaultHistoricalFlags contentFlags := by decide

/-- The row that `create_historical_user_messages` makes. -/
def LaterRow.historical (userProfileId : ℕ) : LaterRow :=
  ⟨userProfileId, defaultHistoricalFlags, defaultHistoricalFlags_disjoint⟩

/-- The row that `add_missing_messages` makes. -/
def LaterRow.missing (userProfileId : ℕ) : LaterRow :=
  ⟨userProfileId, ∅, Finset.disjoint_empty_left contentFlags⟩

inductive ContentStep where
  | edit (result : MessageRenderingResult)
  | create (row : LaterRow)

/-- A row that exists is not made again. -/
def performContentStep (audience : MessageAudience) (ums : List UserMessageLite) :
    ContentStep → List UserMessageLite
  | .edit result => updateUserMessageFlags audience result ums
  | .create row =>
      if row.userProfileId ∈ ums.map UserMessageLite.userProfileId then ums
      else ums ++ [⟨row.userProfileId, row.flags⟩]

/-- The rows of a message that has been sent and edited. -/
def messageRows (audience : MessageAudience) (request : SendMessageRequest)
    (sent : MessageRenderingResult) (steps : List ContentStep) : List UserMessageLite :=
  steps.foldl (performContentStep audience) (createUserMessages audience request sent)

/-! ## The contents that a row has seen -/

structure SeenContents where
  userProfileId : ℕ
  sent : Option MessageRenderingResult
  edits : List MessageRenderingResult

def seeContentStep (seen : List SeenContents) : ContentStep → List SeenContents
  | .edit result => seen.map fun row => { row with edits := row.edits ++ [result] }
  | .create row =>
      if row.userProfileId ∈ seen.map SeenContents.userProfileId then seen
      else seen ++ [⟨row.userProfileId, none, []⟩]

/-- Rows, with the contents that each has seen. -/
def seenContents (audience : MessageAudience) (request : SendMessageRequest)
    (sent : MessageRenderingResult) (steps : List ContentStep) : List SeenContents :=
  steps.foldl seeContentStep
    ((createUserMessages audience request sent).map fun um => ⟨um.userProfileId, some sent, []⟩)

/-- A content with a stream wildcard. -/
def SeenContents.StreamWildcard (seen : SeenContents) : Prop :=
  (∃ result ∈ seen.sent, result.mentionsStreamWildcard = true) ∨
    ∃ result ∈ seen.edits, result.mentionsStreamWildcard = true

/-- A content with a topic wildcard, which an edit looks at only without a stream wildcard. -/
def SeenContents.TopicWildcard (seen : SeenContents) : Prop :=
  (∃ result ∈ seen.sent, result.mentionsTopicWildcard = true) ∨
    ∃ result ∈ seen.edits, result.mentionsStreamWildcard = false ∧
      result.mentionsTopicWildcard = true

/-- The wildcards that a row has seen are in the final content, and a topic wildcard has been seen
before, where the final content also has a stream wildcard. -/
structure SeenContents.Current (seen : SeenContents) (audience : MessageAudience)
    (final : MessageRenderingResult) : Prop where
  streamWildcard : seen.StreamWildcard → final.mentionsStreamWildcard = true
  topicWildcard : seen.userProfileId ∈ audience.topicParticipantUserIds true →
    seen.TopicWildcard → final.mentionsTopicWildcard = true
  bothWildcards : seen.userProfileId ∈ audience.topicParticipantUserIds true →
    final.mentionsTopicWildcard = true → final.mentionsStreamWildcard = true → seen.TopicWildcard

/-! ## The flags of a row -/

section Rows

variable {audience : MessageAudience} {request : SendMessageRequest}
  {result : MessageRenderingResult} {userProfileId : ℕ} {flags : Flags}

theorem mem_updateFlag {shouldSet : Bool} {flag other : Flag} :
    other ∈ updateFlag shouldSet flag flags ↔
      (other = flag ∧ shouldSet = true) ∨ (other ≠ flag ∧ other ∈ flags) := by
  cases shouldSet with
  | true =>
      rw [updateFlag, if_pos rfl, Finset.mem_insert]
      by_cases same : other = flag <;> simp [same]
  | false => simp [updateFlag]

/-- Rendering finds no topic wildcard that `MentionData` has not found. -/
theorem mem_topicParticipantUserIds :
    userProfileId ∈ result.topicParticipantUserIds audience ↔
      result.mentionsTopicWildcard = true ∧
        userProfileId ∈ audience.topicParticipantUserIds true := by
  rw [MessageRenderingResult.topicParticipantUserIds]
  cases found : result.mentionsTopicWildcard with
  | false => simp
  | true => simp [result.topicWildcardIsPossible found]

theorem mentioned_mem_editedFlags :
    .mentioned ∈ editedFlags audience result userProfileId flags ↔
      userProfileId ∈ result.mentionedUserIds audience := by
  rw [editedFlags]
  split_ifs <;> simp [mem_updateFlag]

theorem hasAlertWord_mem_editedFlags :
    .hasAlertWord ∈ editedFlags audience result userProfileId flags ↔
      userProfileId ∈ result.userIdsWithAlertWords := by
  rw [editedFlags]
  split_ifs <;> simp [mem_updateFlag]

/-- An edit never clears the flag of a stream wildcard. -/
theorem streamWildcard_mem_editedFlags :
    .streamWildcardMentioned ∈ editedFlags audience result userProfileId flags ↔
      .streamWildcardMentioned ∈ flags ∨ result.mentionsStreamWildcard = true := by
  rw [editedFlags]
  split_ifs with isStream <;> simp [mem_updateFlag, isStream]

/-- An edit looks at a topic wildcard only without a stream wildcard. -/
theorem topicWildcard_mem_editedFlags :
    .topicWildcardMentioned ∈ editedFlags audience result userProfileId flags ↔
      if result.mentionsStreamWildcard = false ∧ result.mentionsTopicWildcard = true then
        userProfileId ∈ audience.topicParticipantUserIds true
      else .topicWildcardMentioned ∈ flags := by
  rw [editedFlags]
  cases isStream : result.mentionsStreamWildcard with
  | true => simp [mem_updateFlag]
  | false =>
      cases isTopic : result.mentionsTopicWildcard with
      | true => simp [mem_updateFlag, mem_topicParticipantUserIds, isTopic]
      | false => simp [mem_updateFlag]

theorem mentioned_mem_sentFlags :
    .mentioned ∈ sentFlags audience request result userProfileId ↔
      userProfileId ∈ result.mentionedUserIds audience := by
  simp only [sentFlags, Finset.mem_union, apply_ite (Flag.mentioned ∈ ·)]
  simp

theorem hasAlertWord_mem_sentFlags :
    .hasAlertWord ∈ sentFlags audience request result userProfileId ↔
      userProfileId ∈ result.userIdsWithAlertWords := by
  simp only [sentFlags, Finset.mem_union, apply_ite (Flag.hasAlertWord ∈ ·)]
  simp

theorem streamWildcard_mem_sentFlags :
    .streamWildcardMentioned ∈ sentFlags audience request result userProfileId ↔
      result.mentionsStreamWildcard = true := by
  simp only [sentFlags, Finset.mem_union, apply_ite (Flag.streamWildcardMentioned ∈ ·)]
  simp

theorem topicWildcard_mem_sentFlags :
    .topicWildcardMentioned ∈ sentFlags audience request result userProfileId ↔
      result.mentionsTopicWildcard = true ∧
        userProfileId ∈ audience.topicParticipantUserIds true := by
  simp only [sentFlags, Finset.mem_union, apply_ite (Flag.topicWildcardMentioned ∈ ·)]
  simp [mem_topicParticipantUserIds]

theorem flags_of_mem_createUserMessages {um : UserMessageLite}
    (member : um ∈ createUserMessages audience request result) :
    um.flags = sentFlags audience request result um.userProfileId := by
  obtain ⟨userId, -, isRow⟩ := List.mem_filterMap.mp member
  dsimp only at isRow
  split_ifs at isRow
  cases isRow
  rfl

end Rows

/-- The wildcard flags of a row tell the contents that it has seen. -/
structure UserMessageLite.Follows (audience : MessageAudience) (seen : SeenContents)
    (um : UserMessageLite) : Prop where
  user : um.userProfileId = seen.userProfileId
  streamWildcard : .streamWildcardMentioned ∈ um.flags ↔ seen.StreamWildcard
  topicWildcard : .topicWildcardMentioned ∈ um.flags ↔
    seen.userProfileId ∈ audience.topicParticipantUserIds true ∧ seen.TopicWildcard

section Runs

variable {audience : MessageAudience} {request : SendMessageRequest}
  {sent : MessageRenderingResult}

theorem follows_sent {um : UserMessageLite}
    (member : um ∈ createUserMessages audience request sent) :
    um.Follows audience ⟨um.userProfileId, some sent, []⟩ where
  user := rfl
  streamWildcard := by
    rw [flags_of_mem_createUserMessages member, streamWildcard_mem_sentFlags]
    simp [SeenContents.StreamWildcard]
  topicWildcard := by
    rw [flags_of_mem_createUserMessages member, topicWildcard_mem_sentFlags, and_comm]
    simp [SeenContents.TopicWildcard]

theorem follows_edit {seen : SeenContents} {um : UserMessageLite}
    (follows : um.Follows audience seen) (result : MessageRenderingResult) :
    UserMessageLite.Follows audience { seen with edits := seen.edits ++ [result] }
      { um with flags := editedFlags audience result um.userProfileId um.flags } where
  user := follows.user
  streamWildcard := by
    rw [streamWildcard_mem_editedFlags, follows.streamWildcard]
    simp [SeenContents.StreamWildcard, or_and_right, exists_or, or_assoc]
  topicWildcard := by
    rw [topicWildcard_mem_editedFlags, follows.topicWildcard, follows.user]
    by_cases isSet : result.mentionsStreamWildcard = false ∧ result.mentionsTopicWildcard = true
    · rw [if_pos isSet]
      refine (and_iff_left ?_).symm
      exact .inr ⟨result, List.mem_append_right _ (List.mem_singleton_self _), isSet⟩
    · rw [if_neg isSet]
      refine and_congr_right fun _ => or_congr_right ?_
      simp only [List.mem_append, List.mem_singleton, or_and_right, exists_or, exists_eq_left,
        or_iff_left isSet]

theorem follows_create (audience : MessageAudience) (row : LaterRow) :
    UserMessageLite.Follows audience ⟨row.userProfileId, none, []⟩
      ⟨row.userProfileId, row.flags⟩ where
  user := rfl
  streamWildcard := by
    have absent : Flag.streamWildcardMentioned ∉ row.flags := fun member =>
      Finset.disjoint_left.mp row.hasNoContentFlags member (by decide)
    simp [SeenContents.StreamWildcard, absent]
  topicWildcard := by
    have absent : Flag.topicWildcardMentioned ∉ row.flags := fun member =>
      Finset.disjoint_left.mp row.hasNoContentFlags member (by decide)
    simp [SeenContents.TopicWildcard, absent]

theorem userProfileIds_eq_of_follows {seen : List SeenContents} {ums : List UserMessageLite}
    (follow : List.Forall₂ (fun row um => um.Follows audience row) seen ums) :
    seen.map SeenContents.userProfileId = ums.map UserMessageLite.userProfileId := by
  induction follow with
  | nil => rfl
  | cons follows _ inductionHypothesis =>
      rw [List.map_cons, List.map_cons, inductionHypothesis, follows.user]

theorem follow_step {seen : List SeenContents} {ums : List UserMessageLite}
    (follow : List.Forall₂ (fun row um => um.Follows audience row) seen ums) (step : ContentStep) :
    List.Forall₂ (fun row um => um.Follows audience row) (seeContentStep seen step)
      (performContentStep audience ums step) := by
  cases step with
  | edit result =>
      rw [seeContentStep, performContentStep, updateUserMessageFlags, List.forall₂_map_left_iff,
        List.forall₂_map_right_iff]
      exact follow.imp fun _ _ follows => follows_edit follows result
  | create row =>
      rw [seeContentStep, performContentStep, userProfileIds_eq_of_follows follow]
      split_ifs
      · exact follow
      · exact List.rel_append follow (.cons (follows_create audience row) .nil)

/-- After any steps, every row follows the contents that it has seen. -/
theorem follow_run (steps : List ContentStep) :
    List.Forall₂ (fun row um => um.Follows audience row) (seenContents audience request sent steps)
      (messageRows audience request sent steps) := by
  induction steps using List.reverseRecOn with
  | nil =>
      rw [seenContents, messageRows, List.foldl_nil, List.foldl_nil, List.forall₂_map_left_iff,
        List.forall₂_same]
      exact fun um member => follows_sent member
  | append_singleton steps step inductionHypothesis =>
      rw [seenContents, messageRows, List.foldl_append, List.foldl_append]
      exact follow_step inductionHypothesis step

end Runs

/-! ## Rows after the last edit -/

/-- A row has the flags that sending the content gives. -/
def UserMessageLite.HasContentFlags (audience : MessageAudience) (request : SendMessageRequest)
    (final : MessageRenderingResult) (um : UserMessageLite) : Prop :=
  um.flags ∩ contentFlags = sentFlags audience request final um.userProfileId ∩ contentFlags

theorem inter_contentFlags_eq_iff {left right : Flags} :
    left ∩ contentFlags = right ∩ contentFlags ↔
      (.mentioned ∈ left ↔ .mentioned ∈ right) ∧
        (.streamWildcardMentioned ∈ left ↔ .streamWildcardMentioned ∈ right) ∧
        (.topicWildcardMentioned ∈ left ↔ .topicWildcardMentioned ∈ right) ∧
        (.hasAlertWord ∈ left ↔ .hasAlertWord ∈ right) := by
  rw [Finset.ext_iff]
  simp [contentFlags, Finset.mem_inter, and_congr_left_iff, or_imp, forall_and]

/-- One row: the last edit leaves the flags of the final content exactly when what the row has seen
is current. -/
theorem hasContentFlags_iff {audience : MessageAudience} {request : SendMessageRequest}
    {seen : SeenContents} {um : UserMessageLite} (follows : um.Follows audience seen)
    (final : MessageRenderingResult) :
    UserMessageLite.HasContentFlags audience request final
        { um with flags := editedFlags audience final um.userProfileId um.flags } ↔
      seen.Current audience final := by
  rw [UserMessageLite.HasContentFlags, inter_contentFlags_eq_iff, mentioned_mem_editedFlags,
    mentioned_mem_sentFlags, hasAlertWord_mem_editedFlags, hasAlertWord_mem_sentFlags,
    streamWildcard_mem_editedFlags, streamWildcard_mem_sentFlags, topicWildcard_mem_editedFlags,
    topicWildcard_mem_sentFlags, follows.streamWildcard, follows.topicWildcard, follows.user]
  constructor
  · rintro ⟨-, stream, topic, -⟩
    refine ⟨fun seenStream => stream.mp (.inl seenStream), fun participant seenTopic => ?_,
      fun participant isTopic isStream => ?_⟩
    · split_ifs at topic with isSet
      · exact isSet.2
      · exact (topic.mp ⟨participant, seenTopic⟩).1
    · rw [isStream, if_neg (by simp)] at topic
      exact (topic.mpr ⟨isTopic, participant⟩).2
  · rintro ⟨stream, topic, both⟩
    refine ⟨Iff.rfl, or_iff_right_of_imp stream, ?_, Iff.rfl⟩
    split_ifs with isSet
    · rw [and_iff_right isSet.2]
    · constructor
      · rintro ⟨participant, seenTopic⟩
        exact ⟨topic participant seenTopic, participant⟩
      · rintro ⟨isTopic, participant⟩
        cases isStream : final.mentionsStreamWildcard with
        | false => exact absurd ⟨isStream, isTopic⟩ isSet
        | true => exact ⟨participant, both participant isTopic isStream⟩

/-- After the last edit, the rows of a message have the flags of its final content exactly when
what each row has seen before is current. -/
theorem contentFlags_iff (audience : MessageAudience) (request resent : SendMessageRequest)
    (sent : MessageRenderingResult) (steps : List ContentStep) (final : MessageRenderingResult) :
    (∀ um ∈ messageRows audience request sent (steps ++ [.edit final]),
        um.HasContentFlags audience resent final) ↔
      ∀ seen ∈ seenContents audience request sent steps, seen.Current audience final := by
  rw [messageRows, List.foldl_append, List.foldl_cons, List.foldl_nil, performContentStep,
    updateUserMessageFlags, List.forall_mem_map]
  exact forall_mem_iff_of_forall₂ (follow_run steps) fun follows =>
    hasContentFlags_iff follows final

def lunchAudience : MessageAudience := ⟨.stream, 10, [], fun _ => []⟩

def lunchRequest : SendMessageRequest := ⟨[10, 11], [], [], [], [], [], [10], none⟩

def plainResult : MessageRenderingResult :=
  ⟨[], [], false, false, [], false, fun isTopic => absurd isTopic Bool.false_ne_true⟩

/-- Users who get their rows between two edits. -/
example : messageRows lunchAudience lunchRequest plainResult
    [.create (.historical 12), .edit { plainResult with mentionsUserIds := [11, 12] },
      .create (.missing 13), .edit { plainResult with mentionsUserIds := [12] }] =
    [⟨10, {.read}⟩, ⟨11, ∅⟩, ⟨12, {.mentioned, .historical, .read}⟩, ⟨13, ∅⟩] := by decide

/-- A message to everyone that is edited to a message to nobody stays a mention. -/
theorem removedWildcard_stays :
    ¬ ∀ um ∈ messageRows lunchAudience lunchRequest
        { plainResult with mentionsStreamWildcard := true } ([] ++ [.edit plainResult]),
      um.HasContentFlags lunchAudience lunchRequest plainResult := by
  intro current
  have stale := current ⟨11, {.streamWildcardMentioned}⟩ (by decide)
  exact absurd stale (by rw [UserMessageLite.HasContentFlags]; decide)

end Zulip.Messages
