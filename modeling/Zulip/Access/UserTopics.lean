import Zulip.Access.Tables

/-!
# The table of topic policies

The `UserTopic` rows of all users, and `bulk_set_user_topic_visibility_policy_in_database`. A row
is found by its user, its stream and its topic in any case, and `policyAt` is what a lookup says.
-/

namespace Zulip.Access

/-- What a row is found by. -/
abbrev TopicKey := Nat × Recipient × String

def UserTopic.key (upper : String → String) (row : UserTopic) : TopicKey :=
  (row.userProfileId, row.recipient, upper row.topicName)

/-- The `UserTopic` rows. `UPPER` compares in `__iexact`; the unique index folds case with `lower`,
and the two are taken to identify the same names. No row says to inherit. -/
structure UserTopicTable (upper : String → String) where
  rows : List UserTopic
  lower : String → String
  sameNames : ∀ first second, upper first = upper second ↔ lower first = lower second
  uniqueIndex : (rows.map (UserTopic.key lower)).Nodup
  explicit : ∀ row ∈ rows, row.visibilityPolicy ≠ .inherit

namespace UserTopicTable

variable {upper : String → String}

/-- A row is found by the keys it is kept apart by. -/
theorem key_eq_iff (table : UserTopicTable upper) (row : UserTopic) (userId : Nat)
    (recipient : Recipient) (topicName : String) :
    row.key table.lower = (userId, recipient, table.lower topicName) ↔
      row.key upper = (userId, recipient, upper topicName) := by
  unfold UserTopic.key
  simp only [Prod.mk.injEq, table.sameNames]

/-- Not more than one row is found. -/
theorem unique (table : UserTopicTable upper) : (table.rows.map (UserTopic.key upper)).Nodup := by
  have apart := List.pairwise_map.mp table.uniqueIndex
  refine List.pairwise_map.mpr (apart.imp fun {first second} different sameKey => different ?_)
  exact (table.key_eq_iff first _ _ _).mpr sameKey

/-- The policy under a key. -/
def policyAt (table : UserTopicTable upper) (key : TopicKey) : VisibilityPolicy :=
  ((table.rows.find? fun row => row.key upper = key).map UserTopic.visibilityPolicy).getD .inherit

/-- `get_topic_visibility_policy` -/
def getTopicVisibilityPolicy (table : UserTopicTable upper) (userId : Nat) (stream : Stream)
    (topicName : String) : VisibilityPolicy :=
  table.policyAt (userId, stream.recipient, upper topicName)

/-- `get_users_with_user_topic_visibility_policy` -/
def rowsOfTopic (table : UserTopicTable upper) (stream : Stream) (topicName : String) :
    List UserTopic :=
  table.rows.filter fun row =>
    row.recipient = stream.recipient ∧ upper row.topicName = upper topicName

/-- The rows of the topic that belong to some users. -/
def rowsOfUsers (table : UserTopicTable upper) (userIds : List Nat) (stream : Stream)
    (topicName : String) : List UserTopic :=
  (table.rowsOfTopic stream topicName).filter fun row => row.userProfileId ∈ userIds

/-- `rows.delete()`, for the rows of the topic that belong to some users. -/
def delete (table : UserTopicTable upper) (userIds : List Nat) (stream : Stream)
    (topicName : String) : UserTopicTable upper where
  rows := table.rows.filter fun row =>
    ¬(row.recipient = stream.recipient ∧ upper row.topicName = upper topicName ∧
      row.userProfileId ∈ userIds)
  lower := table.lower
  sameNames := table.sameNames
  uniqueIndex := table.uniqueIndex.sublist (List.filter_sublist.map _)
  explicit := fun row member => table.explicit row (List.mem_of_mem_filter member)

/-- The row with its new policy, if it is the one under the key. -/
def setPolicy (lower : String → String) (key : TopicKey) (visibilityPolicy : VisibilityPolicy)
    (row : UserTopic) : UserTopic :=
  if row.key lower = key then { row with visibilityPolicy } else row

theorem key_setPolicy (fold lower : String → String) (key : TopicKey)
    (visibilityPolicy : VisibilityPolicy) (row : UserTopic) :
    (setPolicy lower key visibilityPolicy row).key fold = row.key fold := by
  unfold setPolicy
  split <;> rfl

/-- `INSERT ... ON CONFLICT (user_profile_id, stream_id, lower(topic_name)) DO UPDATE`. -/
def upsert (table : UserTopicTable upper) (stream : Stream) (topicName : String)
    (visibilityPolicy : VisibilityPolicy) (explicit : visibilityPolicy ≠ .inherit)
    (userId : Nat) : UserTopicTable upper :=
  let key : TopicKey := (userId, stream.recipient, table.lower topicName)
  if conflict : key ∈ table.rows.map (UserTopic.key table.lower) then
    { rows := table.rows.map (setPolicy table.lower key visibilityPolicy)
      lower := table.lower
      sameNames := table.sameNames
      uniqueIndex := by
        have sameKeys : UserTopic.key table.lower ∘ setPolicy table.lower key visibilityPolicy =
            UserTopic.key table.lower := funext (key_setPolicy _ _ key visibilityPolicy)
        rw [List.map_map, sameKeys]
        exact table.uniqueIndex
      explicit := by
        intro row member
        obtain ⟨before, stored, rfl⟩ := List.mem_map.mp member
        unfold setPolicy
        split
        · exact explicit
        · exact table.explicit before stored }
  else
    { rows := table.rows ++ [⟨userId, stream.recipient, topicName, visibilityPolicy⟩]
      lower := table.lower
      sameNames := table.sameNames
      uniqueIndex := by
        rw [List.map_append, List.map_singleton]
        refine List.nodup_append'.mpr ⟨table.uniqueIndex, List.nodup_singleton _, ?_⟩
        rw [List.disjoint_singleton]
        exact conflict
      explicit := by
        intro row member
        rcases List.mem_append.mp member with stored | new
        · exact table.explicit row stored
        · rw [List.mem_singleton.mp new]
          exact explicit }

/-- The users whose row an `INSERT` has to make or to change. -/
def usersSeekingUpdateOrCreate (table : UserTopicTable upper) (userIds : List Nat)
    (stream : Stream) (topicName : String) (visibilityPolicy : VisibilityPolicy) : List Nat :=
  let rows := table.rowsOfUsers userIds stream topicName
  (userIds.filter fun userId => userId ∉ rows.map (·.userProfileId)) ++
    (rows.filter fun row => row.visibilityPolicy ≠ visibilityPolicy).map (·.userProfileId)

/-- `bulk_set_user_topic_visibility_policy_in_database`: the rows afterwards, and the users whose
row has been deleted, updated or created. -/
def bulkSetInDatabase (table : UserTopicTable upper) (userIds : List Nat) (stream : Stream)
    (topicName : String) (visibilityPolicy : VisibilityPolicy) :
    UserTopicTable upper × List Nat :=
  if removes : visibilityPolicy = .inherit then
    (table.delete userIds stream topicName,
      (table.rowsOfUsers userIds stream topicName).map (·.userProfileId))
  else
    let seeking := table.usersSeekingUpdateOrCreate userIds stream topicName visibilityPolicy
    (seeking.foldl (fun table => table.upsert stream topicName visibilityPolicy removes) table,
      seeking)

/-! ## What lookups say afterwards -/

section Lookups

variable {table : UserTopicTable upper} {key : TopicKey} {stream : Stream} {topicName : String}
  {userIds : List Nat}

/-- The policy of a row is what a lookup under its key says. -/
theorem policyAt_of_mem {row : UserTopic} (stored : row ∈ table.rows)
    (sameKey : row.key upper = key) : table.policyAt key = row.visibilityPolicy := by
  have found : (table.rows.find? fun row => row.key upper = key) = some row := by
    refine find?_of_key table.unique stored (decide_eq_true sameKey) fun other _ matched => ?_
    exact (of_decide_eq_true matched).trans sameKey.symm
  unfold policyAt
  rw [found]
  rfl

theorem policyAt_of_absent (absent : ∀ row ∈ table.rows, row.key upper ≠ key) :
    table.policyAt key = .inherit := by
  unfold policyAt
  rw [List.find?_eq_none.mpr fun row stored => by simpa using absent row stored]
  rfl

/-- A lookup inherits exactly when there is no row. -/
theorem policyAt_eq_inherit_iff :
    table.policyAt key = .inherit ↔ ∀ row ∈ table.rows, row.key upper ≠ key := by
  constructor
  · intro inherits row stored sameKey
    rw [policyAt_of_mem stored sameKey] at inherits
    exact table.explicit row stored inherits
  · exact policyAt_of_absent

theorem exists_row (explicit : table.policyAt key ≠ .inherit) :
    ∃ row ∈ table.rows, row.key upper = key := by
  by_contra nowhere
  exact explicit (policyAt_of_absent fun row stored sameKey => nowhere ⟨row, stored, sameKey⟩)

/-- Deleting rows makes the lookups of these users for the topic inherit. -/
theorem policyAt_delete : (table.delete userIds stream topicName).policyAt key =
    if key.1 ∈ userIds ∧ key.2 = (stream.recipient, upper topicName) then .inherit
    else table.policyAt key := by
  split_ifs with deleted
  · refine policyAt_of_absent fun row kept sameKey => ?_
    obtain ⟨_, notDeleted⟩ := List.mem_filter.mp kept
    rw [decide_eq_true_eq] at notDeleted
    subst sameKey
    obtain ⟨ofUser, ofTopic⟩ := deleted
    exact notDeleted ⟨congrArg Prod.fst ofTopic, congrArg Prod.snd ofTopic, ofUser⟩
  · by_cases explicit : table.policyAt key = .inherit
    · rw [explicit]
      refine policyAt_of_absent fun row kept => ?_
      exact policyAt_eq_inherit_iff.mp explicit row (List.mem_of_mem_filter kept)
    · obtain ⟨row, stored, rfl⟩ := exists_row explicit
      rw [policyAt_of_mem stored rfl]
      refine policyAt_of_mem (List.mem_filter.mpr ⟨stored, ?_⟩) rfl
      rw [decide_eq_true_eq]
      rintro ⟨ofStream, ofTopic, ofUser⟩
      exact deleted ⟨ofUser, Prod.ext ofStream ofTopic⟩

theorem policyAt_upsert {visibilityPolicy : VisibilityPolicy}
    (explicit : visibilityPolicy ≠ .inherit) (userId : Nat) :
    (table.upsert stream topicName visibilityPolicy explicit userId).policyAt key =
      if key = (userId, stream.recipient, upper topicName) then visibilityPolicy
      else table.policyAt key := by
  unfold upsert
  dsimp only
  split_ifs with conflict isKey isKey
  · obtain ⟨row, stored, sameKey⟩ := List.mem_map.mp conflict
    have changed : setPolicy table.lower (userId, stream.recipient, table.lower topicName)
        visibilityPolicy row = { row with visibilityPolicy } := if_pos sameKey
    refine (policyAt_of_mem (List.mem_map_of_mem stored) ?_).trans ?_
    · rw [key_setPolicy, (table.key_eq_iff row _ _ _).mp sameKey, isKey]
    · rw [changed]
  · by_cases inherits : table.policyAt key = .inherit
    · rw [inherits]
      refine policyAt_of_absent fun row member => ?_
      obtain ⟨before, stored, rfl⟩ := List.mem_map.mp member
      rw [key_setPolicy]
      exact policyAt_eq_inherit_iff.mp inherits before stored
    · obtain ⟨row, stored, rfl⟩ := exists_row inherits
      have kept : setPolicy table.lower (userId, stream.recipient, table.lower topicName)
          visibilityPolicy row = row := if_neg fun sameKey =>
            isKey ((table.key_eq_iff row _ _ _).mp sameKey)
      rw [policyAt_of_mem stored rfl]
      refine (policyAt_of_mem (List.mem_map_of_mem stored) ?_).trans ?_
      · rw [key_setPolicy]
      · rw [kept]
  · rw [isKey]
    refine @policyAt_of_mem _ _ _ ⟨userId, stream.recipient, topicName, visibilityPolicy⟩ ?_ rfl
    exact List.mem_append_right _ (List.mem_singleton_self _)
  · by_cases inherits : table.policyAt key = .inherit
    · rw [inherits]
      refine policyAt_of_absent fun row member => ?_
      rcases List.mem_append.mp member with stored | new
      · exact policyAt_eq_inherit_iff.mp inherits row stored
      · rw [List.mem_singleton.mp new]
        exact fun sameKey => isKey sameKey.symm
    · obtain ⟨row, stored, rfl⟩ := exists_row inherits
      rw [policyAt_of_mem stored rfl]
      exact policyAt_of_mem (List.mem_append_left _ stored) rfl

theorem policyAt_foldl_upsert {visibilityPolicy : VisibilityPolicy}
    (explicit : visibilityPolicy ≠ .inherit) :
    (userIds.foldl (fun table => table.upsert stream topicName visibilityPolicy explicit)
        table).policyAt key =
      if key.1 ∈ userIds ∧ key.2 = (stream.recipient, upper topicName) then visibilityPolicy
      else table.policyAt key := by
  induction userIds generalizing table with
  | nil => simp
  | cons userId rest inductionHypothesis =>
      rw [List.foldl_cons, inductionHypothesis, policyAt_upsert]
      obtain ⟨keyUser, keyTopic⟩ := key
      simp only [List.mem_cons, Prod.mk.injEq]
      split_ifs <;> grind

theorem mem_rowsOfTopic {row : UserTopic} : row ∈ table.rowsOfTopic stream topicName ↔
    row ∈ table.rows ∧ row.key upper = (row.userProfileId, stream.recipient, upper topicName) := by
  unfold rowsOfTopic UserTopic.key
  rw [List.mem_filter, decide_eq_true_eq, Prod.mk.injEq, Prod.mk.injEq]
  simp only [true_and]

/-- After setting a policy, it is what these users' lookups for the topic say, and nothing else
has changed. -/
theorem policyAt_bulkSetInDatabase (table : UserTopicTable upper) (userIds : List Nat)
    (stream : Stream) (topicName : String) (visibilityPolicy : VisibilityPolicy)
    (key : TopicKey) :
    (table.bulkSetInDatabase userIds stream topicName visibilityPolicy).1.policyAt key =
      if key.1 ∈ userIds ∧ key.2 = (stream.recipient, upper topicName) then visibilityPolicy
      else table.policyAt key := by
  unfold bulkSetInDatabase
  split_ifs with removes requested requested
  · rw [removes, policyAt_delete, if_pos requested]
  · rw [policyAt_delete, if_neg requested]
  · -- A user who seeks nothing has a row with this policy.
    rw [policyAt_foldl_upsert]
    split_ifs with seeks
    · rfl
    · obtain ⟨keyUser, keyTopic⟩ := key
      obtain ⟨ofUser, rfl⟩ := requested
      have notSeeking : keyUser ∉
          table.usersSeekingUpdateOrCreate userIds stream topicName visibilityPolicy :=
        fun member => seeks ⟨member, rfl⟩
      unfold usersSeekingUpdateOrCreate at notSeeking
      rw [List.mem_append, not_or, List.mem_filter, decide_eq_true_eq] at notSeeking
      have hasRow : keyUser ∈ (table.rowsOfUsers userIds stream topicName).map
          (·.userProfileId) := by
        by_contra absent
        exact notSeeking.1 ⟨ofUser, absent⟩
      obtain ⟨row, member, rfl⟩ := List.mem_map.mp hasRow
      obtain ⟨stored, sameKey⟩ := mem_rowsOfTopic.mp (List.mem_of_mem_filter member)
      rw [policyAt_of_mem stored sameKey]
      by_contra different
      refine notSeeking.2 (List.mem_map_of_mem (List.mem_filter.mpr ⟨member, ?_⟩))
      rw [decide_eq_true_eq]
      exact different
  · rw [policyAt_foldl_upsert, if_neg]
    rintro ⟨seeks, ofTopic⟩
    refine requested ⟨?_, ofTopic⟩
    rcases List.mem_append.mp seeks with without | changed
    · exact List.mem_of_mem_filter without
    · obtain ⟨row, member, sameUser⟩ := List.mem_map.mp changed
      have ofUser := (List.mem_filter.mp (List.mem_of_mem_filter member)).2
      rw [decide_eq_true_eq, sameUser] at ofUser
      exact ofUser

end Lookups

end UserTopicTable

end Zulip.Access
