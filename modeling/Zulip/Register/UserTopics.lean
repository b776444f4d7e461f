import Mathlib.Data.Int.Notation
import Mathlib.Data.List.Basic
import Mathlib.Tactic.Push
import Zulip.Foundation.LetterCase
import Zulip.Foundation.Transition

/-!
# Visibility policies of topics

`userTopics_always_iff`: after `user_topic` events, the policies in the state of a queue are those of
the database until a policy is changed to another one, or removed under a name in another case.
-/

namespace Zulip.UserTopics

inductive VisibilityPolicy where
  | inherit
  | muted
  | unmuted
  | followed
deriving DecidableEq

/-- A row of a user; `lastUpdated` is in microseconds. -/
structure UserTopic where
  streamId : ℕ
  topicName : String
  visibilityPolicy : VisibilityPolicy
  lastUpdated : ℤ
deriving DecidableEq

/-- What clients see of a row. -/
structure UserTopicDict where
  streamId : ℕ
  topicName : String
  visibilityPolicy : VisibilityPolicy
  lastUpdated : ℤ
deriving DecidableEq

/-- The request to set the policy of a topic. -/
structure SetPolicy where
  streamId : ℕ
  topicName : String
  visibilityPolicy : VisibilityPolicy
  lastUpdated : ℤ
deriving DecidableEq

def datetimeToTimestamp (time : ℤ) : ℤ := time / 1000000

def UserTopic.toDict (row : UserTopic) : UserTopicDict :=
  ⟨row.streamId, row.topicName, row.visibilityPolicy, datetimeToTimestamp row.lastUpdated⟩

/-- The data of the `user_topic` event. -/
def SetPolicy.event (request : SetPolicy) : UserTopicDict :=
  ⟨request.streamId, request.topicName, request.visibilityPolicy,
    datetimeToTimestamp request.lastUpdated⟩

/-! ## The database -/

section Database

variable (fold : String → String) (letterCase : LetterCase)

/-- The topic has this name, in any case. -/
def UserTopic.isTopic (row : UserTopic) (streamId : ℕ) (topicName : String) : Bool :=
  row.streamId == streamId && fold row.topicName == fold topicName

def getTopicVisibilityPolicy (rows : List UserTopic) (streamId : ℕ) (topicName : String) :
    VisibilityPolicy :=
  ((rows.find? fun row => row.isTopic letterCase.upper streamId topicName).map
    UserTopic.visibilityPolicy).getD .inherit

/-- `INSERT ... ON CONFLICT (user_profile_id, stream_id, lower(topic_name)) DO UPDATE`. -/
def upsert (rows : List UserTopic) (request : SetPolicy) : List UserTopic :=
  if rows.any fun row => row.isTopic letterCase.lower request.streamId request.topicName then
    rows.map fun row =>
      if row.isTopic letterCase.lower request.streamId request.topicName then
        { row with
          lastUpdated := request.lastUpdated, visibilityPolicy := request.visibilityPolicy }
      else row
  else
    rows ++ [⟨request.streamId, request.topicName, request.visibilityPolicy, request.lastUpdated⟩]

/-- The rows after a request for one user, and whether the row of the user was changed. -/
def setUserTopicVisibilityPolicyInDatabase (rows : List UserTopic) (request : SetPolicy) :
    List UserTopic × Bool :=
  let found := rows.filter fun row => row.isTopic letterCase.upper request.streamId request.topicName
  if request.visibilityPolicy = .inherit then
    (rows.filter fun row => !row.isTopic letterCase.upper request.streamId request.topicName, !found.isEmpty)
  else if found.isEmpty ||
      found.any fun row => decide (row.visibilityPolicy ≠ request.visibilityPolicy) then
    (upsert letterCase rows request, true)
  else (rows, false)

end Database

/-! ## The state of a queue -/

/-- What `apply_event` does to `user_topics`. -/
def applyEvent (userTopics : List UserTopicDict) (event : UserTopicDict) : List UserTopicDict :=
  if event.visibilityPolicy = .inherit then
    userTopics.eraseP fun entry =>
      entry.streamId == event.streamId && entry.topicName == event.topicName
  else userTopics ++ [event]

/-- The rows of the user, and the state of a queue that was registered before. -/
structure RegisterState where
  rows : List UserTopic
  userTopics : List UserTopicDict
deriving DecidableEq

/-- The list of the rows, as the state has it at first. -/
def getUserTopics (rows : List UserTopic) : RegisterState := ⟨rows, rows.map UserTopic.toDict⟩

namespace RegisterState

variable (letterCase : LetterCase)

/-- `do_set_user_topic_visibility_policy`, and its event. -/
def doSetUserTopicVisibilityPolicy (state : RegisterState) (request : SetPolicy) : RegisterState :=
  let changed := setUserTopicVisibilityPolicyInDatabase letterCase state.rows request
  ⟨changed.1,
    if changed.2 then applyEvent state.userTopics request.event else state.userTopics⟩

def Step (state : RegisterState) (request : SetPolicy) (next : RegisterState) : Prop :=
  state.doSetUserTopicVisibilityPolicy letterCase request = next

/-- The entries of a topic. -/
def entriesOf (state : RegisterState) (streamId : ℕ) (topicName : String) : List UserTopicDict :=
  state.userTopics.filter fun entry =>
    entry.streamId == streamId &&
      letterCase.upper entry.topicName == letterCase.upper topicName

/-- Every topic has at most one entry, with the policy of its row, and none without a row. -/
def Agrees (state : RegisterState) : Prop :=
  ∀ streamId topicName, (state.entriesOf letterCase streamId topicName).map
      UserTopicDict.visibilityPolicy =
    if getTopicVisibilityPolicy letterCase state.rows streamId topicName = .inherit then []
    else [getTopicVisibilityPolicy letterCase state.rows streamId topicName]

/-- The policy of a topic that has one stays as it is, or is removed under the name of the row. -/
def Allowed (state : RegisterState) (request : SetPolicy) : Prop :=
  ∀ row ∈ state.rows, row.isTopic letterCase.upper request.streamId request.topicName = true →
    request.visibilityPolicy = row.visibilityPolicy ∨
      request.visibilityPolicy = .inherit ∧ row.topicName = request.topicName

instance (state : RegisterState) (request : SetPolicy) : Decidable (state.Allowed letterCase request) :=
  inferInstanceAs (Decidable (∀ row ∈ state.rows,
    row.isTopic letterCase.upper request.streamId request.topicName = true →
      request.visibilityPolicy = row.visibilityPolicy ∨
        request.visibilityPolicy = .inherit ∧ row.topicName = request.topicName))

end RegisterState

/-- The rows that the database can have: none for `INHERIT`, and one for each topic. -/
structure Stored (letterCase : LetterCase) (rows : List UserTopic) : Prop where
  unique : rows.Pairwise fun row other =>
    row.isTopic letterCase.lower other.streamId other.topicName = false
  notInherit : ∀ row ∈ rows, row.visibilityPolicy ≠ .inherit

instance (letterCase : LetterCase) (rows : List UserTopic) : Decidable (Stored letterCase rows) :=
  decidable_of_iff ((rows.Pairwise fun row other =>
      row.isTopic letterCase.lower other.streamId other.topicName = false) ∧
    ∀ row ∈ rows, row.visibilityPolicy ≠ .inherit)
    ⟨fun both => ⟨both.1, both.2⟩, fun stored => ⟨stored.unique, stored.notInherit⟩⟩

section Steps

variable {letterCase : LetterCase} {rows : List UserTopic} {streamId : ℕ} {topicName : String}

theorem isTopic_iff {row : UserTopic} : row.isTopic letterCase.upper streamId topicName = true ↔
    row.streamId = streamId ∧ letterCase.upper row.topicName = letterCase.upper topicName := by
  simp [UserTopic.isTopic]

/-- The unique index and the lookups tell the same topics apart. -/
theorem isTopic_lower (row : UserTopic) :
    row.isTopic letterCase.lower streamId topicName =
      row.isTopic letterCase.upper streamId topicName := by
  rw [Bool.eq_iff_iff]
  simp [UserTopic.isTopic, letterCase.sameNames]

/-- The row of a topic is the only one. -/
theorem Stored.exists_split (stored : Stored letterCase rows) {row : UserTopic} (member : row ∈ rows)
    (isTopic : row.isTopic letterCase.upper streamId topicName = true) :
    ∃ before after, rows = before ++ row :: after ∧
      (∀ other ∈ before, other.isTopic letterCase.upper streamId topicName = false) ∧
        ∀ other ∈ after, other.isTopic letterCase.upper streamId topicName = false := by
  have same : ∀ {first second : UserTopic}, first.isTopic letterCase.upper streamId topicName = true →
      second.isTopic letterCase.upper streamId topicName = true →
        first.isTopic letterCase.upper second.streamId second.topicName = true := by
    intro first second isFirst isSecond
    rw [isTopic_iff] at *
    exact ⟨isFirst.1.trans isSecond.1.symm, isFirst.2.trans isSecond.2.symm⟩
  obtain ⟨before, after, rfl⟩ := List.append_of_mem member
  obtain ⟨-, afterUnique, beforeAfter⟩ := List.pairwise_append.mp stored.unique
  refine ⟨before, after, rfl, fun other isBefore => ?_, fun other isAfter => ?_⟩
  · refine Bool.eq_false_iff.mpr fun isOther => ?_
    have differs := beforeAfter other isBefore row List.mem_cons_self
    rw [isTopic_lower, same isOther isTopic] at differs
    cases differs
  · refine Bool.eq_false_iff.mpr fun isOther => ?_
    have differs := (List.pairwise_cons.mp afterUnique).1 other isAfter
    rw [isTopic_lower, same isTopic isOther] at differs
    cases differs

/-- Another topic has another name. -/
theorem not_sameName {row : UserTopic} (other : row.isTopic letterCase.upper streamId topicName = false) :
    ¬(row.toDict.streamId == streamId && row.toDict.topicName == topicName) = true := by
  intro same
  obtain ⟨sameStream, sameName⟩ := Bool.and_eq_true_iff.mp same
  have isTopic : row.isTopic letterCase.upper streamId topicName = true :=
    isTopic_iff.mpr ⟨beq_iff_eq.mp sameStream, congrArg letterCase.upper (beq_iff_eq.mp sameName)⟩
  exact absurd (other.symm.trans isTopic) Bool.false_ne_true

theorem filter_of_absent (absent : ∀ row ∈ rows, row.isTopic letterCase.upper streamId topicName = false) :
    rows.filter (fun row => row.isTopic letterCase.upper streamId topicName) = [] ∧
      rows.filter (fun row => !row.isTopic letterCase.upper streamId topicName) = rows := by
  refine ⟨List.filter_eq_nil_iff.mpr fun row member => ?_,
    List.filter_eq_self.mpr fun row member => ?_⟩
  · rw [absent row member]
    exact Bool.false_ne_true
  · rw [absent row member]
    rfl

theorem Stored.filter_eq (stored : Stored letterCase rows) {row : UserTopic} (member : row ∈ rows)
    (isTopic : row.isTopic letterCase.upper streamId topicName = true) :
    rows.filter (fun row => row.isTopic letterCase.upper streamId topicName) = [row] := by
  obtain ⟨before, after, rfl, notBefore, notAfter⟩ := stored.exists_split member isTopic
  have kept : List.filter (fun row => row.isTopic letterCase.upper streamId topicName) (row :: after) =
      row :: after.filter fun row => row.isTopic letterCase.upper streamId topicName :=
    List.filter_cons_of_pos isTopic
  rw [List.filter_append, kept, (filter_of_absent notBefore).1, (filter_of_absent notAfter).1]
  rfl

theorem getTopicVisibilityPolicy_eq :
    getTopicVisibilityPolicy letterCase rows streamId topicName =
      (((rows.filter fun row => row.isTopic letterCase.upper streamId topicName).head?).map
        UserTopic.visibilityPolicy).getD .inherit := by
  rw [getTopicVisibilityPolicy, List.head?_filter]

theorem entriesOf_map_toDict :
    (getUserTopics rows).entriesOf letterCase streamId topicName =
      (rows.filter fun row => row.isTopic letterCase.upper streamId topicName).map UserTopic.toDict := by
  rw [RegisterState.entriesOf, getUserTopics, List.filter_map]
  rfl

/-- The list of the rows agrees with them. -/
theorem Stored.agrees (stored : Stored letterCase rows) : (getUserTopics rows).Agrees letterCase := by
  intro streamId topicName
  have policy : getTopicVisibilityPolicy letterCase (getUserTopics rows).rows streamId topicName =
      (((rows.filter fun row => row.isTopic letterCase.upper streamId topicName).head?).map
        UserTopic.visibilityPolicy).getD .inherit := getTopicVisibilityPolicy_eq
  rw [entriesOf_map_toDict, policy]
  cases found : rows.filter (fun row => row.isTopic letterCase.upper streamId topicName) with
  | nil => rfl
  | cons row rest =>
      have isFirst : row ∈ rows.filter fun row => row.isTopic letterCase.upper streamId topicName := by
        rw [found]
        exact List.mem_cons_self
      obtain ⟨member, isTopic⟩ := List.mem_filter.mp isFirst
      rw [stored.filter_eq member isTopic] at found
      cases found
      rw [List.head?_cons, Option.map_some, Option.getD_some, if_neg (stored.notInherit row member)]
      rfl

theorem applyEvent_of_inherit {request : SetPolicy}
    (isInherit : request.visibilityPolicy = .inherit) (userTopics : List UserTopicDict) :
    applyEvent userTopics request.event = userTopics.eraseP fun entry =>
      entry.streamId == request.streamId && entry.topicName == request.topicName :=
  if_pos isInherit

theorem applyEvent_of_ne_inherit {request : SetPolicy}
    (notInherit : request.visibilityPolicy ≠ .inherit) (userTopics : List UserTopicDict) :
    applyEvent userTopics request.event = userTopics ++ [request.event] :=
  if_neg notInherit

/-- A request that is allowed keeps the list equal to the rows. -/
theorem Stored.setPolicy (stored : Stored letterCase rows) {request : SetPolicy}
    (allowed : (getUserTopics rows).Allowed letterCase request) :
    ∃ next, Stored letterCase next ∧
      (getUserTopics rows).doSetUserTopicVisibilityPolicy letterCase request = getUserTopics next := by
  cases found : rows.filter (fun row =>
      row.isTopic letterCase.upper request.streamId request.topicName) with
  | nil =>
      have absent : ∀ row ∈ rows, row.isTopic letterCase.upper request.streamId request.topicName = false :=
        fun row member => Bool.eq_false_iff.mpr (List.filter_eq_nil_iff.mp found row member)
      by_cases isInherit : request.visibilityPolicy = .inherit
      · refine ⟨rows, stored, ?_⟩
        have kept : rows.filter (fun row =>
            !row.isTopic letterCase.upper request.streamId request.topicName) = rows :=
          List.filter_eq_self.mpr fun row member => by rw [absent row member]; rfl
        rw [RegisterState.doSetUserTopicVisibilityPolicy, setUserTopicVisibilityPolicyInDatabase,
          if_pos isInherit]
        simp only [getUserTopics, found, kept]
        rfl
      · refine ⟨rows ++ [⟨request.streamId, request.topicName, request.visibilityPolicy,
          request.lastUpdated⟩], ⟨?_, ?_⟩, ?_⟩
        · refine List.pairwise_append.mpr ⟨stored.unique, List.pairwise_singleton _ _, ?_⟩
          intro row member other isNew
          rw [List.mem_singleton.mp isNew]
          exact (isTopic_lower row).trans (absent row member)
        · intro row member
          rcases List.mem_append.mp member with old | isNew
          · exact stored.notInherit row old
          · rw [List.mem_singleton.mp isNew]
            exact isInherit
        · have noConflict : (rows.any fun row =>
              row.isTopic letterCase.lower request.streamId request.topicName) = false :=
            List.any_eq_false.mpr fun row member => by simp [isTopic_lower, absent row member]
          rw [RegisterState.doSetUserTopicVisibilityPolicy, setUserTopicVisibilityPolicyInDatabase,
            if_neg isInherit]
          simp only [getUserTopics, found, List.isEmpty_nil, Bool.true_or, if_true, upsert,
            noConflict, Bool.false_eq_true, if_false, applyEvent_of_ne_inherit isInherit,
            List.map_append]
          rfl
  | cons row rest =>
      have isFirst : row ∈ rows.filter fun row =>
          row.isTopic letterCase.upper request.streamId request.topicName := by
        rw [found]
        exact List.mem_cons_self
      obtain ⟨member, isTopic⟩ := List.mem_filter.mp isFirst
      have only := stored.filter_eq member isTopic
      rcases allowed row member isTopic with samePolicy | ⟨isInherit, sameName⟩
      · refine ⟨rows, stored, ?_⟩
        have notInherit : request.visibilityPolicy ≠ .inherit :=
          fun isInherit => stored.notInherit row member (samePolicy.symm.trans isInherit)
        rw [RegisterState.doSetUserTopicVisibilityPolicy, setUserTopicVisibilityPolicyInDatabase,
          if_neg notInherit]
        simp only [getUserTopics, only]
        rw [if_neg (by simp [samePolicy])]
        rfl
      · refine ⟨rows.filter fun row => !row.isTopic letterCase.upper request.streamId request.topicName,
          ⟨stored.unique.filter _, fun other isOther =>
            stored.notInherit other (List.mem_filter.mp isOther).1⟩, ?_⟩
        rw [RegisterState.doSetUserTopicVisibilityPolicy, setUserTopicVisibilityPolicyInDatabase,
          if_pos isInherit]
        simp only [getUserTopics, only]
        rw [if_pos (by rfl), applyEvent_of_inherit isInherit]
        obtain ⟨before, after, rfl, notBefore, notAfter⟩ := stored.exists_split member isTopic
        have notErased : ∀ entry ∈ before.map UserTopic.toDict,
            ¬(entry.streamId == request.streamId && entry.topicName == request.topicName) = true := by
          intro entry isEntry
          obtain ⟨other, isBefore, rfl⟩ := List.mem_map.mp isEntry
          exact fun sameEntry => not_sameName (notBefore other isBefore) sameEntry
        have erased : (row.toDict.streamId == request.streamId &&
            row.toDict.topicName == request.topicName) = true := by
          simp [UserTopic.toDict, (isTopic_iff.mp isTopic).1, sameName]
        rw [List.filter_append, List.filter_cons_of_neg (by simp [isTopic]),
          (filter_of_absent notBefore).2, (filter_of_absent notAfter).2, List.map_append,
          List.map_cons, List.eraseP_append_right _ notErased, List.eraseP_cons, erased, cond_true,
          List.map_append]

/-- A request that is not allowed leaves the list with an entry too many. -/
theorem Stored.not_agrees (stored : Stored letterCase rows) {request : SetPolicy}
    (notAllowed : ¬(getUserTopics rows).Allowed letterCase request) :
    ¬((getUserTopics rows).doSetUserTopicVisibilityPolicy letterCase request).Agrees letterCase := by
  rw [RegisterState.Allowed] at notAllowed
  push Not at notAllowed
  obtain ⟨row, member, isTopic, otherPolicy, otherName⟩ := notAllowed
  have only := stored.filter_eq member isTopic
  have rowEntry : (getUserTopics rows).entriesOf letterCase request.streamId request.topicName =
      [row.toDict] := by
    rw [entriesOf_map_toDict, only]
    rfl
  intro agrees
  have entries := agrees request.streamId request.topicName
  by_cases isInherit : request.visibilityPolicy = .inherit
  · -- No entry has the name of the event, and the one of the row stays.
    have kept : (getUserTopics rows).userTopics.eraseP (fun entry =>
        entry.streamId == request.streamId && entry.topicName == request.topicName) =
          (getUserTopics rows).userTopics := by
      refine List.eraseP_of_forall_not fun entry isEntry sameEntry => ?_
      obtain ⟨other, isOther, rfl⟩ := List.mem_map.mp isEntry
      by_cases otherTopic : other.isTopic letterCase.upper request.streamId request.topicName = true
      · have isRow : other ∈ rows.filter fun row =>
            row.isTopic letterCase.upper request.streamId request.topicName :=
          List.mem_filter.mpr ⟨isOther, otherTopic⟩
        rw [only, List.mem_singleton] at isRow
        rw [isRow] at sameEntry
        exact otherName isInherit (beq_iff_eq.mp (Bool.and_eq_true_iff.mp sameEntry).2)
      · exact not_sameName (Bool.eq_false_iff.mpr otherTopic) sameEntry
    have next : (getUserTopics rows).doSetUserTopicVisibilityPolicy letterCase request =
        ⟨rows.filter fun row => !row.isTopic letterCase.upper request.streamId request.topicName,
          (getUserTopics rows).userTopics⟩ := by
      rw [RegisterState.doSetUserTopicVisibilityPolicy, setUserTopicVisibilityPolicyInDatabase,
        if_pos isInherit]
      simp only [getUserTopics, only] at kept ⊢
      rw [if_pos (by rfl), applyEvent_of_inherit isInherit, kept]
    have removed : getTopicVisibilityPolicy letterCase
        (rows.filter fun row => !row.isTopic letterCase.upper request.streamId request.topicName)
          request.streamId request.topicName = .inherit := by
      rw [getTopicVisibilityPolicy_eq, List.filter_filter]
      have none : rows.filter (fun row => row.isTopic letterCase.upper request.streamId request.topicName &&
          !row.isTopic letterCase.upper request.streamId request.topicName) = [] :=
        List.filter_eq_nil_iff.mpr fun row _ => by simp
      rw [none]
      rfl
    have stays : (RegisterState.mk
        (rows.filter fun row => !row.isTopic letterCase.upper request.streamId request.topicName)
          (getUserTopics rows).userTopics).entriesOf letterCase request.streamId request.topicName =
        [row.toDict] := rowEntry
    rw [next, removed, if_pos rfl, stays] at entries
    cases entries
  · -- The new entry comes after the one of the row.
    have next : ((getUserTopics rows).doSetUserTopicVisibilityPolicy letterCase request).userTopics =
        (getUserTopics rows).userTopics ++ [request.event] := by
      rw [RegisterState.doSetUserTopicVisibilityPolicy, setUserTopicVisibilityPolicyInDatabase,
        if_neg isInherit]
      simp only [getUserTopics, only]
      rw [if_pos (by simp [Ne.symm otherPolicy])]
      exact applyEvent_of_ne_inherit isInherit _
    have both : ((getUserTopics rows).doSetUserTopicVisibilityPolicy letterCase request).entriesOf letterCase
        request.streamId request.topicName = [row.toDict, request.event] := by
      rw [RegisterState.entriesOf] at rowEntry ⊢
      rw [next, List.filter_append, rowEntry, List.filter_cons_of_pos (by simp [SetPolicy.event])]
      rfl
    rw [both] at entries
    have lengths := congrArg List.length entries
    split_ifs at lengths
    · cases lengths
    · cases lengths

end Steps

open RegisterState in
/-- The entries agree with the rows after every request of a run exactly when every request is
allowed. -/
theorem userTopics_always_iff (letterCase : LetterCase) {rows : List UserTopic}
    (stored : Stored letterCase rows) {trace : List (RegisterState × SetPolicy)} {final : RegisterState}
    (run : Run (Step letterCase) (getUserTopics rows) trace final) :
    Run.Always (Agrees letterCase) trace final ↔ ∀ visit ∈ trace, visit.1.Allowed letterCase visit.2 := by
  have preserved : ∀ {state : RegisterState} {request : SetPolicy} {next : RegisterState},
      (∃ rows, Stored letterCase rows ∧ state = getUserTopics rows) → state.Agrees letterCase →
        Step letterCase state request next → state.Allowed letterCase request →
          ∃ rows, Stored letterCase rows ∧ next = getUserTopics rows := by
    rintro state request next ⟨rows, stored, rfl⟩ - rfl allowed
    exact stored.setPolicy allowed
  have stepIff : ∀ {state : RegisterState} {request : SetPolicy} {next : RegisterState},
      (∃ rows, Stored letterCase rows ∧ state = getUserTopics rows) → state.Agrees letterCase →
        Step letterCase state request next →
          (next.Agrees letterCase ↔ state.Allowed letterCase request) := by
    rintro state request next ⟨rows, stored, rfl⟩ - rfl
    constructor
    · intro agrees
      by_contra notAllowed
      exact stored.not_agrees notAllowed agrees
    · intro allowed
      obtain ⟨rows, stored, isNext⟩ := stored.setPolicy allowed
      rw [isNext]
      exact stored.agrees
  exact @Run.always_iff _ _ _ (fun state => ∃ rows, Stored letterCase rows ∧ state = getUserTopics rows)
    _ _ _ _ _ run ⟨rows, stored, rfl⟩ stored.agrees preserved stepIff

def lunchMuted : List UserTopic := [⟨1, "Lunch", .muted, 1000000⟩]

/-- A topic is followed, and the other one is not muted any more. -/
def allowedRequests : List SetPolicy :=
  [⟨1, "dinner", .followed, 2000000⟩, ⟨1, "Lunch", .inherit, 3000000⟩]

open RegisterState in
theorem userTopics_always_iff_lunch :
    ∃ (trace : List (RegisterState × SetPolicy)) (final : RegisterState),
      trace.map Prod.snd = allowedRequests ∧ final.userTopics = [⟨1, "dinner", .followed, 2⟩] ∧
        Run.Always (Agrees .latin) trace final := by
  have first : Step .latin (getUserTopics lunchMuted) ⟨1, "dinner", .followed, 2000000⟩ _ :=
    rfl
  have second := Run.step (Run.step .refl first)
    (rfl : Step .latin _ ⟨1, "Lunch", .inherit, 3000000⟩ _)
  exact ⟨_, _, rfl, by decide +kernel,
    (userTopics_always_iff .latin (by decide +kernel) second).mpr (by decide +kernel)⟩

open RegisterState in
/-- A muted topic is followed: the list has both policies. -/
theorem changedPolicy_listed_twice :
    ((getUserTopics lunchMuted).doSetUserTopicVisibilityPolicy .latin
        ⟨1, "Lunch", .followed, 2000000⟩).userTopics =
      [⟨1, "Lunch", .muted, 1⟩, ⟨1, "Lunch", .followed, 2⟩] := by
  decide +kernel

end Zulip.UserTopics
