import Zulip.Foundation.Program
import Zulip.UserGroups.Transactions

/-!
# Subgroups have no cycles

A transaction that adds subgroups holds locks on a set of groups that no membership leaves. Only the
holder of the lock of a group adds subgroups to it, so the set stays that way until the commit, and
the new memberships into it close no cycle.
-/

namespace Zulip.UserGroups

/-! ## What a lock protects -/

/-- Between two states of the tables, groups whose rows are locked get no subgroups and stay. -/
structure Undisturbed (locks : Finset GroupId) (tables next : Tables) : Prop where
  sources : ∀ membership ∈ next.memberships,
    membership ∈ tables.memberships ∨ membership.1 ∉ locks
  rows : ∀ group ∈ locks, group ∈ tables.groupIds → group ∈ next.groupIds

/-- Locked groups that exist and that no membership leaves. -/
structure Guards (locks : Finset GroupId) (tables : Tables) (set : Finset GroupId) : Prop where
  locked : set ⊆ locks
  closed : ClosedUnder tables.memberships set
  exist : set ⊆ tables.groupIds

/-- The locks that a write needs: new subgroups are in a guarded set without the supergroup. -/
def SafeWrite (locks : Finset GroupId) (tables : Tables) : Write → Prop
  | .createMemberships supergroup subgroups =>
      supergroup ∈ locks ∧
        ∃ set, Guards locks tables set ∧ supergroup ∉ set ∧ ∀ group ∈ subgroups, group ∈ set
  | .deleteMemberships _ _ => True
  | .deleteGroup group => group ∈ locks

/-- Each of a sequence of writes has its locks, in the tables that it finds. -/
def SafeWrites (locks : Finset GroupId) : Tables → List Write → Prop
  | _, [] => True
  | tables, write :: rest => SafeWrite locks tables write ∧ SafeWrites locks (write.apply tables) rest

section Writes

variable {locks others : Finset GroupId} {tables next : Tables} {set : Finset GroupId}
  {write : Write} {writes : List Write}

theorem Undisturbed.refl : Undisturbed locks tables tables where
  sources _ member := .inl member
  rows _ _ exists_ := exists_

theorem Undisturbed.trans {last : Tables} (first : Undisturbed locks tables next)
    (second : Undisturbed locks next last) : Undisturbed locks tables last where
  sources membership member := by
    rcases second.sources membership member with before | outside
    · exact first.sources membership before
    · exact .inr outside
  rows group isLocked exists_ := second.rows group isLocked (first.rows group isLocked exists_)

theorem mem_groupIds_deleteGroup {group other : GroupId} :
    other ∈ ((Write.deleteGroup group).apply tables).groupIds ↔
      other ∈ tables.groupIds ∧ other ≠ group := by
  simp only [Write.apply, Tables.mem_groupIds, List.mem_filter, decide_eq_true_eq]
  constructor
  · rintro ⟨row, ⟨member, different⟩, rfl⟩
    exact ⟨⟨row, member, rfl⟩, different⟩
  · rintro ⟨⟨row, member, rfl⟩, different⟩
    exact ⟨row, ⟨member, different⟩, rfl⟩

/-- A write does to both states what it does. -/
theorem Undisturbed.apply (undisturbed : Undisturbed locks tables next) (write : Write) :
    Undisturbed locks (write.apply tables) (write.apply next) := by
  cases write with
  | createMemberships supergroup subgroups =>
      refine ⟨fun membership member => ?_, undisturbed.rows⟩
      rcases Finset.mem_union.mp member with old | new
      · rcases undisturbed.sources membership old with before | outside
        · exact .inl (Finset.mem_union_left _ before)
        · exact .inr outside
      · exact .inl (Finset.mem_union_right _ new)
  | deleteMemberships supergroup subgroups =>
      refine ⟨fun membership member => ?_, undisturbed.rows⟩
      obtain ⟨old, stays⟩ := Finset.mem_filter.mp member
      rcases undisturbed.sources membership old with before | outside
      · exact .inl (Finset.mem_filter.mpr ⟨before, stays⟩)
      · exact .inr outside
  | deleteGroup group =>
      refine ⟨fun membership member => ?_, fun other isLocked exists_ => ?_⟩
      · obtain ⟨old, stays⟩ := Finset.mem_filter.mp member
        rcases undisturbed.sources membership old with before | outside
        · exact .inl (Finset.mem_filter.mpr ⟨before, stays⟩)
        · exact .inr outside
      · obtain ⟨before, different⟩ := mem_groupIds_deleteGroup.mp exists_
        exact mem_groupIds_deleteGroup.mpr ⟨undisturbed.rows other isLocked before, different⟩

theorem Undisturbed.applyAll (undisturbed : Undisturbed locks tables next) (writes : List Write) :
    Undisturbed locks (Write.applyAll tables writes) (Write.applyAll next writes) := by
  induction writes generalizing tables next with
  | nil => exact undisturbed
  | cons write rest inductionHypothesis => exact inductionHypothesis (undisturbed.apply write)

theorem Guards.undisturbed (guards : Guards locks tables set)
    (undisturbed : Undisturbed locks tables next) : Guards locks next set where
  locked := guards.locked
  closed membership member first := by
    rcases undisturbed.sources membership member with before | outside
    · exact guards.closed membership before first
    · exact absurd (guards.locked first) outside
  exist group member := undisturbed.rows group (guards.locked member) (guards.exist member)

theorem Guards.mono (guards : Guards locks tables set) (more : locks ⊆ others) :
    Guards others tables set :=
  ⟨guards.locked.trans more, guards.closed, guards.exist⟩

theorem SafeWrites.undisturbed (safe : SafeWrites locks tables writes)
    (undisturbed : Undisturbed locks tables next) : SafeWrites locks next writes := by
  induction writes generalizing tables next with
  | nil => trivial
  | cons write rest inductionHypothesis =>
      refine ⟨?_, inductionHypothesis safe.2 (undisturbed.apply write)⟩
      cases write with
      | createMemberships supergroup subgroups =>
          obtain ⟨isLocked, set, guards, outside, inside⟩ := safe.1
          exact ⟨isLocked, set, guards.undisturbed undisturbed, outside, inside⟩
      | deleteMemberships supergroup subgroups => trivial
      | deleteGroup group => exact safe.1

theorem SafeWrites.mono (safe : SafeWrites locks tables writes) (more : locks ⊆ others) :
    SafeWrites others tables writes := by
  induction writes generalizing tables with
  | nil => trivial
  | cons write rest inductionHypothesis =>
      refine ⟨?_, inductionHypothesis safe.2⟩
      cases write with
      | createMemberships supergroup subgroups =>
          obtain ⟨isLocked, set, guards, outside, inside⟩ := safe.1
          exact ⟨more isLocked, set, guards.mono more, outside, inside⟩
      | deleteMemberships supergroup subgroups => trivial
      | deleteGroup group => exact more safe.1

theorem SafeWrites.snoc (safe : SafeWrites locks tables writes)
    (last : SafeWrite locks (Write.applyAll tables writes) write) :
    SafeWrites locks tables (writes ++ [write]) := by
  induction writes generalizing tables with
  | nil => exact ⟨last, trivial⟩
  | cons first rest inductionHypothesis => exact ⟨safe.1, inductionHypothesis safe.2 last⟩

/-- Writes under some locks do not disturb the groups that others have locked. -/
theorem SafeWrites.undisturbed_others (safe : SafeWrites locks tables writes)
    (disjoint : Disjoint locks others) :
    Undisturbed others tables (Write.applyAll tables writes) := by
  induction writes generalizing tables with
  | nil => exact .refl
  | cons write rest inductionHypothesis =>
      refine Undisturbed.trans ?_ (inductionHypothesis safe.2)
      cases write with
      | createMemberships supergroup subgroups =>
          refine ⟨fun membership member => ?_, fun _ _ exists_ => exists_⟩
          rcases Finset.mem_union.mp member with old | new
          · exact .inl old
          · obtain ⟨group, -, rfl⟩ := List.mem_map.mp (List.mem_toFinset.mp new)
            exact .inr (Finset.disjoint_left.mp disjoint safe.1.1)
      | deleteMemberships supergroup subgroups =>
          exact ⟨fun membership member => .inl (Finset.mem_filter.mp member).1,
            fun _ _ exists_ => exists_⟩
      | deleteGroup group =>
          refine ⟨fun membership member => .inl (Finset.mem_filter.mp member).1,
            fun other isLocked exists_ => mem_groupIds_deleteGroup.mpr ⟨exists_, ?_⟩⟩
          rintro rfl
          exact Finset.disjoint_left.mp disjoint safe.1 isLocked

/-- A write with its locks closes no cycle. -/
theorem SafeWrite.acyclic (safe : SafeWrite locks tables write)
    (acyclic : Acyclic tables.memberships) : Acyclic (write.apply tables).memberships := by
  cases write with
  | createMemberships supergroup subgroups =>
      obtain ⟨-, set, guards, outside, inside⟩ := safe
      refine acyclic.union_of_closed guards.closed outside fun membership member => ?_
      obtain ⟨group, isSubgroup, rfl⟩ := List.mem_map.mp (List.mem_toFinset.mp member)
      exact ⟨rfl, inside group isSubgroup⟩
  | deleteMemberships supergroup subgroups => exact acyclic.mono (Finset.filter_subset _ _)
  | deleteGroup group => exact acyclic.mono (Finset.filter_subset _ _)

/-- A write with its locks leaves no membership without its subgroup. -/
theorem SafeWrite.foreignKeys (safe : SafeWrite locks tables write)
    (foreignKeys : tables.ForeignKeys) : (write.apply tables).ForeignKeys := by
  cases write with
  | createMemberships supergroup subgroups =>
      obtain ⟨-, set, guards, -, inside⟩ := safe
      intro membership member
      rcases Finset.mem_union.mp member with old | new
      · exact foreignKeys membership old
      · obtain ⟨group, isSubgroup, rfl⟩ := List.mem_map.mp (List.mem_toFinset.mp new)
        exact guards.exist (inside group isSubgroup)
  | deleteMemberships supergroup subgroups =>
      exact fun membership member => foreignKeys membership (Finset.mem_filter.mp member).1
  | deleteGroup group =>
      intro membership member
      obtain ⟨old, -, different⟩ := Finset.mem_filter.mp member
      exact mem_groupIds_deleteGroup.mpr ⟨foreignKeys membership old, different⟩

theorem SafeWrites.acyclic (safe : SafeWrites locks tables writes)
    (acyclic : Acyclic tables.memberships) :
    Acyclic (Write.applyAll tables writes).memberships := by
  induction writes generalizing tables with
  | nil => exact acyclic
  | cons write rest inductionHypothesis => exact inductionHypothesis safe.2 (safe.1.acyclic acyclic)

theorem SafeWrites.foreignKeys (safe : SafeWrites locks tables writes)
    (foreignKeys : tables.ForeignKeys) : (Write.applyAll tables writes).ForeignKeys := by
  induction writes generalizing tables with
  | nil => exact foreignKeys
  | cons write rest inductionHypothesis =>
      exact inductionHypothesis safe.2 (safe.1.foreignKeys foreignKeys)

end Writes

/-! ## What a transaction knows -/

/-- The ids of some groups. -/
def idsOf (groups : List NamedUserGroup) : Finset GroupId := (groups.map (·.id)).toFinset

/-- The recursive subgroups are guarded, and the direct ones are among them. -/
structure SoundContext (locks : Finset GroupId) (view : Tables) (operation : Operation)
    (context : LockedUserGroupContext) : Prop where
  supergroup : context.supergroup.id = operation.potentialSupergroupId
  locked : context.supergroup.id ∈ locks
  guards : Guards locks view (idsOf context.recursiveSubgroups)
  direct : ∀ group ∈ context.directSubgroups, group ∈ context.recursiveSubgroups

/-- What is known where a transaction is. -/
def Progress.Sound (locks : Finset GroupId) (view : Tables) : Progress → Prop
  | .ready _ => True
  | .lockedSubgroups _ recursiveSubgroups _ => Guards locks view (idsOf recursiveSubgroups)
  | .locked operation context _ => SoundContext locks view operation context
  | .checked operation context _ =>
      SoundContext locks view operation context ∧
        ∀ userGroupId subgroupIds, operation = .addSubgroupsToGroup userGroupId subgroupIds →
          context.supergroup.id ∉ idsOf context.recursiveSubgroups
  | .ended _ => True

/-- The writes have their locks, and so will the next one. -/
structure Transaction.Sound (tables : Tables) (transaction : Transaction) : Prop where
  writes : SafeWrites transaction.locks tables transaction.writes
  progress : transaction.progress.Sound transaction.locks (transaction.view tables)

section Transactions

variable {locks : Finset GroupId} {tables next view : Tables} {transaction : Transaction}

theorem SoundContext.undisturbed {operation : Operation} {context : LockedUserGroupContext}
    (sound : SoundContext locks view operation context) (undisturbed : Undisturbed locks view next) :
    SoundContext locks next operation context :=
  ⟨sound.supergroup, sound.locked, sound.guards.undisturbed undisturbed, sound.direct⟩

theorem Progress.Sound.undisturbed {progress : Progress} (sound : progress.Sound locks view)
    (undisturbed : Undisturbed locks view next) : progress.Sound locks next := by
  cases progress with
  | ready operations => trivial
  | lockedSubgroups operation recursiveSubgroups rest =>
      exact Guards.undisturbed sound undisturbed
  | locked operation context rest => exact SoundContext.undisturbed sound undisturbed
  | checked operation context rest => exact ⟨sound.1.undisturbed undisturbed, sound.2⟩
  | ended result => trivial

/-- What other transactions commit does not matter. -/
theorem Transaction.Sound.undisturbed (sound : transaction.Sound tables)
    (undisturbed : Undisturbed transaction.locks tables next) : transaction.Sound next where
  writes := sound.writes.undisturbed undisturbed
  progress := sound.progress.undisturbed (undisturbed.applyAll transaction.writes)

theorem Transaction.start_sound (actingUser : UserProfile) (operations : List Operation) :
    (Transaction.start actingUser operations).Sound tables := ⟨trivial, trivial⟩

theorem Transaction.rollback_sound (error : Failure) : (transaction.rollback error).Sound tables :=
  ⟨trivial, trivial⟩

/-- The recursive query returns existing groups that no membership leaves. -/
theorem recursiveSubgroups_guards (foreignKeys : view.ForeignKeys) (userGroupIds : List GroupId)
    (realmId : ℕ) (isLocked : idsOf (view.getRecursiveSubgroupsForGroups userGroupIds realmId) ⊆
      locks) :
    Guards locks view (idsOf (view.getRecursiveSubgroupsForGroups userGroupIds realmId)) := by
  have allJoined : (view.memberships.filter fun membership => membership.2 ∈ view.groupIds) =
      view.memberships := Finset.filter_true_of_mem foreignKeys
  have inQuery : ∀ {group : GroupId},
      group ∈ idsOf (view.getRecursiveSubgroupsForGroups userGroupIds realmId) ↔
        group ∈ view.groupIds ∧ group ∈ descendants view.memberships
          ((view.groups.filter fun group =>
            userGroupIds.contains group.id && group.realmId == realmId).map (·.id)).toFinset := by
    intro group
    rw [Tables.getRecursiveSubgroupsForGroups, allJoined]
    simp only [idsOf, List.mem_toFinset, List.mem_map, List.mem_filter, decide_eq_true_eq,
      Tables.mem_groupIds]
    constructor
    · rintro ⟨row, ⟨member, found⟩, rfl⟩
      exact ⟨⟨row, member, rfl⟩, found⟩
    · rintro ⟨⟨row, member, rfl⟩, found⟩
      exact ⟨row, ⟨member, found⟩, rfl⟩
  refine ⟨isLocked, fun membership member first => ?_, fun group member => (inQuery.mp member).1⟩
  exact inQuery.mpr ⟨foreignKeys membership member,
    descendants_closed _ membership member (inQuery.mp first).2⟩

theorem find?_eq_some {userGroupId : GroupId} {userProfile : UserProfile} {group : NamedUserGroup}
    (found : view.find? userGroupId userProfile = some group) : group.id = userGroupId := by
  have meets := List.find?_some found
  simp only [Bool.and_eq_true, decide_eq_true_eq] at meets
  exact meets.1

theorem accessUserGroupById_eq_ok {userGroupId : GroupId} {userProfile : UserProfile}
    {forRead : Bool} {group : NamedUserGroup}
    (returns : accessUserGroupById view userGroupId userProfile forRead = .ok group) :
    view.find? userGroupId userProfile = some group := by
  rw [accessUserGroupById] at returns
  cases found : view.find? userGroupId userProfile with
  | none =>
      rw [found] at returns
      cases returns
  | some row =>
      rw [found] at returns
      simp only at returns
      split_ifs at returns
      cases returns
      rfl

theorem lockedUserGroupContext_eq_ok {ids : List GroupId} {user : UserProfile}
    {recursiveSubgroups : List NamedUserGroup} {supergroup : NamedUserGroup}
    {context : LockedUserGroupContext}
    (returns : lockedUserGroupContext ids user recursiveSubgroups supergroup = .ok context) :
    context.supergroup = supergroup ∧ context.recursiveSubgroups = recursiveSubgroups ∧
      ∀ group ∈ context.directSubgroups, group ∈ recursiveSubgroups := by
  simp only [lockedUserGroupContext] at returns
  split at returns
  · cases returns
  · split_ifs at returns
    cases returns
    exact ⟨rfl, rfl, fun group member => (List.mem_filter.mp member).1⟩

/-- The check of an addition finds a supergroup among the recursive subgroups. -/
theorem check_add_eq_ok {context : LockedUserGroupContext} {userGroupId : GroupId}
    {subgroupIds : List GroupId}
    (returns : (Operation.addSubgroupsToGroup userGroupId subgroupIds).check view context = .ok ()) :
    userGroupId ∉ idsOf context.recursiveSubgroups := by
  simp only [Operation.check] at returns
  split at returns
  · cases returns
  · split_ifs at returns with notSubgroup
    simpa [idsOf] using notSubgroup

/-- What an operation writes after its check has its locks. -/
theorem SoundContext.safeWrite {operation : Operation} {context : LockedUserGroupContext}
    (sound : SoundContext locks view operation context)
    (separate : ∀ userGroupId subgroupIds,
      operation = .addSubgroupsToGroup userGroupId subgroupIds →
        context.supergroup.id ∉ idsOf context.recursiveSubgroups) :
    SafeWrite locks view (operation.write context) := by
  cases operation with
  | addSubgroupsToGroup userGroupId subgroupIds =>
      refine ⟨sound.locked, _, sound.guards, separate _ _ rfl, fun group member => ?_⟩
      obtain ⟨row, isDirect, rfl⟩ := List.mem_map.mp member
      exact List.mem_toFinset.mpr (List.mem_map_of_mem (sound.direct row isDirect))
  | removeSubgroupsFromGroup userGroupId subgroupIds => trivial
  | deleteUserGroup userGroupId => exact sound.locked

section Statements

variable {held : GroupId → Bool} {actingUser : UserProfile} {writes : List Write}
  {operation : Operation} {rest : List Operation} {after : Transaction}

/-- The rows that are locked with the subgroups were locked before or are free. -/
theorem Transaction.sound_lockSubgroups
    (sound : Transaction.Sound tables ⟨actingUser, .ready (operation :: rest), locks, writes⟩)
    (foreignKeys : tables.ForeignKeys)
    (executes : Transaction.execute tables held
      ⟨actingUser, .ready (operation :: rest), locks, writes⟩ .lockSubgroups = some after) :
    after.Sound tables ∧ ∀ group ∈ after.locks, group ∈ locks ∨ held group = false := by
  have viewKeys := sound.writes.foreignKeys foreignKeys
  simp only [Transaction.execute] at executes
  split_ifs at executes with conflict
  · cases executes
    exact ⟨rollback_sound _, by simp [Transaction.rollback]⟩
  · cases executes
    refine ⟨⟨sound.writes.mono Finset.subset_union_left,
      recursiveSubgroups_guards viewKeys _ _ Finset.subset_union_right⟩, ?_⟩
    intro group isLocked
    rcases Finset.mem_union.mp isLocked with old | new
    · exact .inl old
    · obtain ⟨row, member, rfl⟩ := List.mem_map.mp (List.mem_toFinset.mp new)
      have notHeld : ¬ held row.id = true := fun isHeld =>
        conflict (List.any_eq_true.mpr ⟨row, member, isHeld⟩)
      exact .inr (by simpa using notHeld)

/-- So is the row of the supergroup. -/
theorem Transaction.sound_lockSupergroup {recursiveSubgroups : List NamedUserGroup}
    (sound : Transaction.Sound tables
      ⟨actingUser, .lockedSubgroups operation recursiveSubgroups rest, locks, writes⟩)
    (executes : Transaction.execute tables held
      ⟨actingUser, .lockedSubgroups operation recursiveSubgroups rest, locks, writes⟩
        .lockSupergroup = some after) :
    after.Sound tables ∧ ∀ group ∈ after.locks, group ∈ locks ∨ held group = false := by
  simp only [Transaction.execute] at executes
  split_ifs at executes with waits
  split at executes
  · cases executes
    exact ⟨rollback_sound _, by simp [Transaction.rollback]⟩
  · rename_i context isContext
    cases executes
    obtain ⟨supergroup, accessed, isContext⟩ := exists_of_bind_eq_ok isContext
    have found := accessUserGroupById_eq_ok accessed
    obtain ⟨isSupergroup, isRecursive, direct⟩ := lockedUserGroupContext_eq_ok isContext
    have sameId : context.supergroup.id = operation.potentialSupergroupId := by
      rw [isSupergroup]
      exact find?_eq_some found
    refine ⟨⟨sound.writes.mono (Finset.subset_insert _ _), sameId,
      Finset.mem_insert_self _ _, ?_, ?_⟩, ?_⟩
    · rw [isRecursive]
      exact Guards.mono sound.progress (Finset.subset_insert _ _)
    · rw [isRecursive]
      exact direct
    · intro group isLocked
      rcases Finset.mem_insert.mp isLocked with rfl | old
      · rw [found] at waits
        exact .inr (by simpa [sameId] using waits)
      · exact .inl old

/-- The check finds out whether the write would close a cycle. -/
theorem Transaction.sound_check {context : LockedUserGroupContext}
    (sound : Transaction.Sound tables ⟨actingUser, .locked operation context rest, locks, writes⟩)
    (executes : Transaction.execute tables held
      ⟨actingUser, .locked operation context rest, locks, writes⟩ .check = some after) :
    after.Sound tables ∧ ∀ group ∈ after.locks, group ∈ locks ∨ held group = false := by
  simp only [Transaction.execute] at executes
  split at executes
  · cases executes
    exact ⟨rollback_sound _, by simp [Transaction.rollback]⟩
  · rename_i returns
    cases executes
    refine ⟨⟨sound.writes, sound.progress, ?_⟩, fun group isLocked => .inl isLocked⟩
    rintro userGroupId subgroupIds rfl
    rw [sound.progress.supergroup]
    exact check_add_eq_ok returns

end Statements

/-- A statement other than a commit keeps what a transaction knows, and locks only rows that no
other transaction has locked. -/
theorem Transaction.Sound.execute {held : GroupId → Bool} (sound : transaction.Sound tables)
    (foreignKeys : tables.ForeignKeys) {statement : Statement} {after : Transaction}
    (executes : transaction.execute tables held statement = some after) :
    after.Sound tables ∧ ∀ group ∈ after.locks, group ∈ transaction.locks ∨ held group = false := by
  obtain ⟨actingUser, progress, locks, writes⟩ := transaction
  have released : ∀ group ∈ (∅ : Finset GroupId), group ∈ locks ∨ held group = false := by simp
  cases statement with
  | lockSubgroups =>
      cases progress with
      | ready operations =>
          cases operations with
          | nil => cases executes
          | cons operation rest => exact sound_lockSubgroups sound foreignKeys executes
      | _ => cases executes
  | lockSupergroup =>
      cases progress with
      | lockedSubgroups operation recursiveSubgroups rest =>
          exact sound_lockSupergroup sound executes
      | _ => cases executes
  | check =>
      cases progress with
      | locked operation context rest => exact sound_check sound executes
      | _ => cases executes
  | write =>
      cases progress with
      | checked operation context rest =>
          cases executes
          exact ⟨⟨sound.writes.snoc (sound.progress.1.safeWrite sound.progress.2), trivial⟩,
            fun group isLocked => .inl isLocked⟩
      | _ => cases executes
  | commit =>
      cases progress with
      | ready operations =>
          cases operations with
          | nil =>
              cases executes
              exact ⟨⟨trivial, trivial⟩, released⟩
          | cons operation rest => cases executes
      | _ => cases executes
  | abort =>
      cases progress with
      | ended result => cases executes
      | _ =>
          cases executes
          exact ⟨rollback_sound _, released⟩

end Transactions

/-! ## All transactions -/

/-- There are no cycles, every transaction has its locks, and no two have one in common. -/
structure ServerState.Sound (state : ServerState) : Prop where
  acyclic : Acyclic state.tables.memberships
  foreignKeys : state.tables.ForeignKeys
  transactions : ∀ transaction ∈ state.transactions, transaction.Sound state.tables
  exclusive : ∀ {first second : ℕ} {left right : Transaction}, first ≠ second →
    state.transactions[first]? = some left → state.transactions[second]? = some right →
      Disjoint left.locks right.locks

namespace ServerState

variable {state next : ServerState}

/-- A transaction that is not the one at an index holds its locks against it. -/
theorem heldByOther_of_mem {index other : ℕ} {transaction : Transaction} {group : GroupId}
    (different : other ≠ index) (isOther : state.transactions[other]? = some transaction)
    (isLocked : group ∈ transaction.locks) : state.heldByOther index group = true := by
  obtain ⟨bound, isOther⟩ := List.getElem?_eq_some_iff.mp isOther
  exact List.any_eq_true.mpr ⟨transaction,
    List.mem_eraseIdx_iff_getElem.mpr ⟨other, bound, different, isOther⟩, decide_eq_true isLocked⟩

theorem Sound.begin (sound : state.Sound) (actingUser : UserProfile)
    (operations : List Operation) : (state.begin actingUser operations).Sound where
  acyclic := sound.acyclic
  foreignKeys := sound.foreignKeys
  transactions transaction member := by
    rcases List.mem_append.mp member with old | new
    · exact sound.transactions transaction old
    · rw [List.mem_singleton.mp new]
      exact Transaction.start_sound actingUser operations
  exclusive := by
    intro first second left right different isLeft isRight
    simp only [ServerState.begin, List.getElem?_append, List.getElem?_singleton] at isLeft isRight
    split_ifs at isLeft with leftOld leftNew
    · split_ifs at isRight with rightOld rightNew
      · exact sound.exclusive different isLeft isRight
      · cases isRight
        exact Finset.disjoint_empty_right _
    · cases isLeft
      exact Finset.disjoint_empty_left _

/-- The locks stay exclusive when one transaction locks rows that no other one has locked. -/
theorem Sound.exclusive_set (sound : state.Sound) {index : ℕ} {transaction after : Transaction}
    (isTransaction : state.transactions[index]? = some transaction)
    (locks : ∀ group ∈ after.locks,
      group ∈ transaction.locks ∨ state.heldByOther index group = false)
    {first second : ℕ} {left right : Transaction} (different : first ≠ second)
    (isLeft : (state.transactions.set index after)[first]? = some left)
    (isRight : (state.transactions.set index after)[second]? = some right) :
    Disjoint left.locks right.locks := by
  have fromOthers : ∀ {other : ℕ} {transaction' : Transaction}, other ≠ index →
      state.transactions[other]? = some transaction' → Disjoint after.locks transaction'.locks := by
    intro other transaction' notIndex isOther
    refine Finset.disjoint_left.mpr fun group isLocked otherLocked => ?_
    rcases locks group isLocked with old | free
    · exact Finset.disjoint_left.mp (sound.exclusive notIndex.symm isTransaction isOther) old
        otherLocked
    · rw [heldByOther_of_mem notIndex isOther otherLocked] at free
      cases free
  by_cases leftIndex : index = first
  · subst leftIndex
    rw [List.getElem?_set_ne different] at isRight
    rw [List.getElem?_set_self (List.getElem?_eq_some_iff.mp isTransaction).1] at isLeft
    cases isLeft
    exact fromOthers different.symm isRight
  · rw [List.getElem?_set_ne leftIndex] at isLeft
    by_cases rightIndex : index = second
    · subst rightIndex
      rw [List.getElem?_set_self (List.getElem?_eq_some_iff.mp isTransaction).1] at isRight
      cases isRight
      exact (fromOthers different isLeft).symm
    · rw [List.getElem?_set_ne rightIndex] at isRight
      exact sound.exclusive different isLeft isRight

/-- The transactions after a statement of one of them. -/
theorem mem_set {index : ℕ} {transaction after : Transaction} {transactions : List Transaction}
    (member : transaction ∈ transactions.set index after) :
    transaction = after ∨ ∃ other, other ≠ index ∧ transactions[other]? = some transaction := by
  obtain ⟨other, isOther⟩ := List.mem_iff_getElem?.mp member
  by_cases same : index = other
  · subst same
    have bound := (List.getElem?_eq_some_iff.mp isOther).1
    rw [List.length_set] at bound
    rw [List.getElem?_set_self bound] at isOther
    cases isOther
    exact .inl rfl
  · rw [List.getElem?_set_ne same] at isOther
    exact .inr ⟨other, Ne.symm same, isOther⟩

/-- What a transaction commits does not disturb the others. -/
theorem Sound.undisturbed_others (sound : state.Sound) {index other : ℕ}
    {transaction others : Transaction}
    (isTransaction : state.transactions[index]? = some transaction) (different : other ≠ index)
    (isOther : state.transactions[other]? = some others) :
    others.Sound (transaction.view state.tables) := by
  have otherSound := sound.transactions others (List.mem_of_getElem? isOther)
  have ownSound := sound.transactions transaction (List.mem_of_getElem? isTransaction)
  exact otherSound.undisturbed
    (ownSound.writes.undisturbed_others (sound.exclusive different.symm isTransaction isOther))

/-- A statement keeps the state sound. -/
theorem Sound.execute (sound : state.Sound) {index : ℕ} {transaction after : Transaction}
    {statement : Statement} (isTransaction : state.transactions[index]? = some transaction)
    (executes : transaction.execute state.tables (state.heldByOther index) statement = some after) :
    Sound ⟨state.tablesAfter transaction statement, state.transactions.set index after⟩ := by
  have ownSound := sound.transactions transaction (List.mem_of_getElem? isTransaction)
  obtain ⟨afterSound, locks⟩ := ownSound.execute sound.foreignKeys executes
  have keeps : ∀ statement, state.tablesAfter transaction statement = state.tables ∨
      statement = .commit := by
    intro statement
    cases statement <;> first | exact .inl rfl | exact .inr rfl
  rcases keeps statement with same | rfl
  · rw [same]
    refine ⟨sound.acyclic, sound.foreignKeys, fun other member => ?_, sound.exclusive_set
      isTransaction locks⟩
    rcases mem_set member with rfl | ⟨position, -, isOther⟩
    · exact afterSound
    · exact sound.transactions other (List.mem_of_getElem? isOther)
  · refine ⟨ownSound.writes.acyclic sound.acyclic, ownSound.writes.foreignKeys sound.foreignKeys,
      fun other member => ?_, sound.exclusive_set isTransaction locks⟩
    rcases mem_set member with rfl | ⟨position, different, isOther⟩
    · -- The transaction has ended, and has no writes left.
      have ended : other.writes = [] ∧ other.progress = .ended (.ok ()) := by
        obtain ⟨actingUser, progress, locks, writes⟩ := transaction
        cases progress with
        | ready operations =>
            cases operations with
            | nil =>
                cases executes
                exact ⟨rfl, rfl⟩
            | cons operation rest => cases executes
        | _ => cases executes
      refine ⟨?_, ?_⟩
      · rw [ended.1]
        trivial
      · rw [ended.2]
        trivial
    · exact sound.undisturbed_others isTransaction different isOther

/-- Every action keeps the state sound. -/
theorem Sound.step (sound : state.Sound) {action : Action} (step : Step state action next) :
    next.Sound := by
  cases action with
  | updateSubgroups actingUser userGroupId delete add =>
      simp only [Step, perform] at step
      split at step
      · cases step
        exact sound
      · cases step
        exact sound.begin _ _
  | deleteUserGroup actingUser userGroupId =>
      cases step
      exact sound.begin _ _
  | execute index statement =>
      simp only [Step, perform] at step
      split at step
      · cases step
      · rename_i transaction isTransaction
        obtain ⟨after, executes, rfl⟩ := Option.map_eq_some_iff.mp step
        exact sound.execute isTransaction executes

theorem initial_sound {tables : Tables} (acyclic : Acyclic tables.memberships)
    (foreignKeys : tables.ForeignKeys) : (initial tables).Sound where
  acyclic := acyclic
  foreignKeys := foreignKeys
  transactions transaction member := by cases member
  exclusive _ isLeft _ := by cases isLeft

end ServerState

open ServerState in
/-- However concurrent requests interleave, the committed memberships never have a cycle: no group
becomes a direct or indirect subgroup of itself. -/
theorem memberships_acyclic {tables : Tables} (acyclic : Acyclic tables.memberships)
    (foreignKeys : tables.ForeignKeys) {trace : List (ServerState × Action)} {final : ServerState}
    (run : Run Step (initial tables) trace final) :
    Run.Always (fun state => Acyclic state.tables.memberships ∧
      ∀ group, group ∉ state.tables.getRecursiveStrictSubgroups group) trace final := by
  refine @Run.always_of_condition _ _ _ Sound _ (fun _ _ => True) _ _ _ run
    (initial_sound acyclic foreignKeys) (fun sound => ?_) (fun sound step _ => sound.step step)
    (fun _ _ => trivial)
  exact ⟨sound.acyclic, Tables.acyclic_iff.mp sound.acyclic⟩

/-- Two groups without subgroups. -/
def twoGroups : Tables := ⟨[⟨1, 1, false, []⟩, ⟨2, 1, false, []⟩], ∅⟩

def realmAdmin : UserProfile := ⟨10, 1, false, true, false⟩

/-- Two requests make each of two groups a subgroup of the other one. Both lock their subgroup, and
wait for each other until one of them is aborted. -/
def racingRequests : List Action :=
  [.updateSubgroups realmAdmin 1 [] [2], .updateSubgroups realmAdmin 2 [] [1],
    .execute 0 .lockSubgroups, .execute 1 .lockSubgroups, .execute 1 .abort,
    .execute 0 .lockSupergroup, .execute 0 .check, .execute 0 .write, .execute 0 .commit]

open ServerState in
/-- One of the racing requests succeeds, without a cycle. -/
theorem memberships_acyclic_race :
    ∃ (trace : List (ServerState × Action)) (final : ServerState),
      trace.map Prod.snd = racingRequests ∧ final.tables.memberships = {(1, 2)} ∧
        Run.Always (fun state => Acyclic state.tables.memberships ∧
          ∀ group, group ∉ state.tables.getRecursiveStrictSubgroups group) trace final := by
  have performs : (racingRequests.foldlM perform (initial twoGroups)).map
      (fun state => state.tables.memberships) = some {(1, 2)} := by decide +kernel
  obtain ⟨final, performs, isFinal⟩ := Option.map_eq_some_iff.mp performs
  obtain ⟨run, isTrace⟩ := Run.of_foldlM performs
  have acyclic : Acyclic twoGroups.memberships := by
    intro node cycle
    obtain ⟨next, isEdge, -⟩ := Relation.TransGen.head'_iff.mp cycle
    exact absurd isEdge (Finset.notMem_empty _)
  have foreignKeys : twoGroups.ForeignKeys := by
    intro membership member
    exact absurd member (Finset.notMem_empty _)
  exact ⟨_, final, isTrace, isFinal, memberships_acyclic acyclic foreignKeys run⟩

end Zulip.UserGroups
