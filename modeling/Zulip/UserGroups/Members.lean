import Mathlib.Data.Set.Card
import Zulip.UserGroups.Tables

/-!
# The members of a group

`groupMembers_iff`: the queries that go down from a group and up from a user find the same
memberships, those along a path of subgroups. The list of the members of a group has a user once for
every group on such a path that the user is a direct member of.
-/

namespace Zulip.UserGroups

/-- The rows of users, groups, and memberships of users and groups in groups. -/
structure MembershipTables where
  userProfiles : List ℕ
  userGroups : List GroupId
  directMembers : List (GroupId × ℕ)
  groupMemberships : Finset (GroupId × GroupId)
  distinctUsers : userProfiles.Nodup
  distinctMembers : directMembers.Nodup
  memberKeys : ∀ membership ∈ directMembers,
    membership.1 ∈ userGroups ∧ membership.2 ∈ userProfiles
  subgroupKeys : ∀ membership ∈ groupMemberships,
    membership.1 ∈ userGroups ∧ membership.2 ∈ userGroups

namespace MembershipTables

variable (tables : MembershipTables)

/-- A group and its direct and indirect subgroups. -/
def getRecursiveSubgroups (userGroup : GroupId) : List GroupId :=
  let cte := descendants tables.groupMemberships
    (tables.userGroups.filter fun group => group == userGroup).toFinset
  tables.userGroups.filter fun group => group ∈ cte

/-- The join of the users with their memberships in these groups. -/
def getRecursiveGroupMembers (userGroup : GroupId) : List ℕ :=
  tables.userProfiles.flatMap fun user =>
    (tables.directMembers.filter fun membership =>
      membership.2 == user && (tables.getRecursiveSubgroups userGroup).contains membership.1).map
        Prod.snd

/-- The groups of a user and their direct and indirect supergroups. -/
def getRecursiveMembershipGroups (userProfile : ℕ) : List GroupId :=
  let directGroups :=
    (tables.directMembers.filter fun membership => membership.2 == userProfile).map Prod.fst
  let cte := descendants (tables.groupMemberships.image Prod.swap) directGroups.toFinset
  tables.userGroups.filter fun group => group ∈ cte

def getUserGroupDirectMembers (userGroup : GroupId) : List ℕ :=
  (tables.directMembers.filter fun membership => membership.1 == userGroup).map Prod.snd

def isUserInGroup (userGroup : GroupId) (user : ℕ) (directMemberOnly : Bool) : Bool :=
  if directMemberOnly then (tables.getUserGroupDirectMembers userGroup).contains user
  else (tables.getRecursiveGroupMembers userGroup).contains user

def getUserGroupMemberIds (userGroup : GroupId) (directMemberOnly : Bool) : List ℕ :=
  if directMemberOnly then tables.getUserGroupDirectMembers userGroup
  else tables.getRecursiveGroupMembers userGroup

/-! ## What membership is -/

/-- The second group is the first one, or one of its direct and indirect subgroups. -/
def Contains (outer inner : GroupId) : Prop :=
  Relation.ReflTransGen (Edge tables.groupMemberships) outer inner

/-- A path of subgroups leads to a group that has the user as a direct member. -/
def IsMember (userGroup : GroupId) (user : ℕ) : Prop :=
  ∃ inner, tables.Contains userGroup inner ∧ (inner, user) ∈ tables.directMembers

/-- No user is a direct member of two of the groups that a group contains. -/
def MembersOnce (userGroup : GroupId) : Prop :=
  ∀ user first second, tables.Contains userGroup first → tables.Contains userGroup second →
    (first, user) ∈ tables.directMembers → (second, user) ∈ tables.directMembers → first = second

variable {tables} {userGroup : GroupId} {user : ℕ}

/-- Only groups that exist contain a group that exists. -/
theorem Contains.mem_userGroups {inner : GroupId} (path : tables.Contains userGroup inner)
    (exists_inner : inner ∈ tables.userGroups) : userGroup ∈ tables.userGroups := by
  rcases Relation.ReflTransGen.cases_head path with rfl | ⟨next, isEdge, -⟩
  · exact exists_inner
  · exact (tables.subgroupKeys _ isEdge).1

theorem mem_getRecursiveSubgroups {inner : GroupId} (exists_inner : inner ∈ tables.userGroups) :
    inner ∈ tables.getRecursiveSubgroups userGroup ↔ tables.Contains userGroup inner := by
  rw [getRecursiveSubgroups, List.mem_filter, decide_eq_true_eq, mem_descendants_iff]
  constructor
  · rintro ⟨-, first, isFirst, path⟩
    obtain ⟨-, same⟩ := List.mem_filter.mp (List.mem_toFinset.mp isFirst)
    rw [beq_iff_eq.mp same] at path
    exact path
  · intro path
    have outer := path.mem_userGroups exists_inner
    exact ⟨exists_inner, userGroup,
      List.mem_toFinset.mpr (List.mem_filter.mpr ⟨outer, beq_self_eq_true _⟩), path⟩

/-- The memberships that make a user a member of a group. -/
theorem mem_memberships_iff {membership : GroupId × ℕ} :
    membership ∈ tables.directMembers.filter (fun membership => membership.2 == user &&
        (tables.getRecursiveSubgroups userGroup).contains membership.1) ↔
      membership ∈ tables.directMembers ∧ membership.2 = user ∧
        tables.Contains userGroup membership.1 := by
  rw [List.mem_filter, Bool.and_eq_true, beq_iff_eq, List.contains_iff_mem]
  refine and_congr_right fun isMember => and_congr_right fun _ => ?_
  exact mem_getRecursiveSubgroups (tables.memberKeys _ isMember).1

theorem mem_getRecursiveGroupMembers :
    user ∈ tables.getRecursiveGroupMembers userGroup ↔ tables.IsMember userGroup user := by
  simp only [getRecursiveGroupMembers, List.mem_flatMap, List.mem_map, mem_memberships_iff]
  constructor
  · rintro ⟨_, -, ⟨inner, member⟩, ⟨isMember, rfl, path⟩, rfl⟩
    exact ⟨inner, path, isMember⟩
  · rintro ⟨inner, path, isMember⟩
    exact ⟨user, (tables.memberKeys _ isMember).2, (inner, user), ⟨isMember, rfl, path⟩, rfl⟩

/-- Going up from a user reverses the paths that go down from a group. -/
theorem mem_getRecursiveMembershipGroups :
    userGroup ∈ tables.getRecursiveMembershipGroups user ↔ tables.IsMember userGroup user := by
  have reversed : ∀ {inner}, Relation.ReflTransGen
      (Edge (tables.groupMemberships.image Prod.swap)) inner userGroup ↔
        tables.Contains userGroup inner := by
    intro inner
    have sameEdge : Edge (tables.groupMemberships.image Prod.swap) =
        Function.swap (Edge tables.groupMemberships) := by
      funext first second
      simp [Edge, Function.swap]
    rw [sameEdge, Relation.reflTransGen_swap]
    rfl
  simp only [getRecursiveMembershipGroups, List.mem_filter, decide_eq_true_eq, mem_descendants_iff,
    List.mem_toFinset, List.mem_map, beq_iff_eq, reversed]
  constructor
  · rintro ⟨-, inner, ⟨⟨_, member⟩, ⟨isMember, rfl⟩, rfl⟩, path⟩
    exact ⟨_, path, isMember⟩
  · rintro ⟨inner, path, isMember⟩
    exact ⟨path.mem_userGroups (tables.memberKeys _ isMember).1, inner,
      ⟨(inner, user), ⟨isMember, rfl⟩, rfl⟩, path⟩

/-- The join has no row twice exactly when no user is a direct member of two of the groups. -/
theorem nodup_getRecursiveGroupMembers_iff :
    (tables.getRecursiveGroupMembers userGroup).Nodup ↔ tables.MembersOnce userGroup := by
  rw [getRecursiveGroupMembers, List.nodup_flatMap]
  have apart : tables.userProfiles.Pairwise (Function.onFun List.Disjoint fun user =>
      (tables.directMembers.filter fun membership => membership.2 == user &&
        (tables.getRecursiveSubgroups userGroup).contains membership.1).map Prod.snd) := by
    refine tables.distinctUsers.imp fun different user inFirst inSecond => different ?_
    obtain ⟨first, isFirst, rfl⟩ := List.mem_map.mp inFirst
    obtain ⟨second, isSecond, same⟩ := List.mem_map.mp inSecond
    calc
      _ = first.2 := (mem_memberships_iff.mp isFirst).2.1.symm
      _ = second.2 := same.symm
      _ = _ := (mem_memberships_iff.mp isSecond).2.1
  rw [and_iff_left apart]
  have once : ∀ user, ((tables.directMembers.filter fun membership => membership.2 == user &&
      (tables.getRecursiveSubgroups userGroup).contains membership.1).map Prod.snd).Nodup ↔
        ∀ first second, tables.Contains userGroup first → tables.Contains userGroup second →
          (first, user) ∈ tables.directMembers → (second, user) ∈ tables.directMembers →
            first = second := by
    intro user
    rw [List.nodup_map_iff_inj_on (tables.distinctMembers.filter _)]
    constructor
    · intro injective first second firstPath secondPath isFirst isSecond
      exact congrArg Prod.fst (injective (first, user)
        (mem_memberships_iff.mpr ⟨isFirst, rfl, firstPath⟩) (second, user)
          (mem_memberships_iff.mpr ⟨isSecond, rfl, secondPath⟩) rfl)
    · intro unique first isFirst second isSecond sameUser
      obtain ⟨firstMember, rfl, firstPath⟩ := mem_memberships_iff.mp isFirst
      obtain ⟨secondMember, -, secondPath⟩ := mem_memberships_iff.mp isSecond
      refine Prod.ext (unique first.1 second.1 firstPath secondPath firstMember ?_) sameUser
      rw [sameUser]
      exact secondMember
  constructor
  · intro distinct user first second firstPath secondPath isFirst isSecond
    exact (once user).mp (distinct user (tables.memberKeys _ isFirst).2) first second firstPath
      secondPath isFirst isSecond
  · exact fun membersOnce user _ => (once user).mpr (membersOnce user)

/-- Without duplicates, the length of the join is the number of members. -/
theorem length_getRecursiveGroupMembers (once : tables.MembersOnce userGroup) :
    (tables.getRecursiveGroupMembers userGroup).length =
      {user | tables.IsMember userGroup user}.ncard := by
  have members : {user | tables.IsMember userGroup user} =
      ((tables.getRecursiveGroupMembers userGroup).toFinset : Set ℕ) := by
    ext user
    simp [mem_getRecursiveGroupMembers]
  rw [members, Set.ncard_coe_finset,
    List.toFinset_card_of_nodup (nodup_getRecursiveGroupMembers_iff.mpr once)]

end MembershipTables

open MembershipTables in
/-- The queries agree on who is a member of a group. They list every member once, so that the
members can be counted, exactly when no user is a direct member of two of the groups that the group
contains. -/
theorem groupMembers_iff (tables : MembershipTables) (userGroup : GroupId) :
    (∀ user,
        (user ∈ tables.getRecursiveGroupMembers userGroup ↔ tables.IsMember userGroup user) ∧
        (userGroup ∈ tables.getRecursiveMembershipGroups user ↔ tables.IsMember userGroup user) ∧
        (tables.isUserInGroup userGroup user false = true ↔ tables.IsMember userGroup user) ∧
        (user ∈ tables.getUserGroupMemberIds userGroup false ↔ tables.IsMember userGroup user)) ∧
      (((∀ user, tables.IsMember userGroup user →
            (tables.getUserGroupMemberIds userGroup false).count user = 1) ∧
          (tables.getUserGroupMemberIds userGroup false).length =
            {user | tables.IsMember userGroup user}.ncard) ↔
        tables.MembersOnce userGroup) := by
  refine ⟨fun user => ⟨mem_getRecursiveGroupMembers, mem_getRecursiveMembershipGroups, ?_,
    mem_getRecursiveGroupMembers⟩, ?_⟩
  · rw [isUserInGroup, if_neg Bool.false_ne_true, List.contains_iff_mem]
    exact mem_getRecursiveGroupMembers
  · have isList : tables.getUserGroupMemberIds userGroup false =
        tables.getRecursiveGroupMembers userGroup := rfl
    rw [isList]
    constructor
    · rintro ⟨once, -⟩
      refine nodup_getRecursiveGroupMembers_iff.mp (List.nodup_iff_count_le_one.mpr fun user => ?_)
      by_cases member : user ∈ tables.getRecursiveGroupMembers userGroup
      · exact (once user (mem_getRecursiveGroupMembers.mp member)).le
      · rw [List.count_eq_zero_of_not_mem member]
        exact Nat.zero_le _
    · intro once
      exact ⟨fun user member => List.count_eq_one_of_mem
          (nodup_getRecursiveGroupMembers_iff.mpr once) (mem_getRecursiveGroupMembers.mpr member),
        length_getRecursiveGroupMembers once⟩

/-- A member of a group who is also a direct member of its supergroup. -/
def teamAndLead : MembershipTables where
  userProfiles := [7]
  userGroups := [1, 2]
  directMembers := [(1, 7), (2, 7)]
  groupMemberships := {(1, 2)}
  distinctUsers := by decide
  distinctMembers := by decide
  memberKeys := by decide
  subgroupKeys := by decide

/-- The list has the only member of the group twice. -/
theorem groupMember_listed_twice :
    teamAndLead.IsMember 1 7 ∧ teamAndLead.getUserGroupMemberIds 1 false = [7, 7] :=
  ⟨⟨1, .refl, by decide⟩, by decide⟩

end Zulip.UserGroups
