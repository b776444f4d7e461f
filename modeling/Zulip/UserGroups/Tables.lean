import Zulip.Foundation.Descendants

/-!
# User groups and their subgroups

The rows of the named user groups and of the memberships of groups in groups, the checks on
access to a group, and the checks of the requests that change subgroups.
-/

namespace Zulip.UserGroups

abbrev GroupId := ℤ

structure UserProfile where
  id : ℕ
  realmId : ℕ
  isGuest : Bool
  isRealmAdmin : Bool
  isModerator : Bool
deriving DecidableEq

structure NamedUserGroup where
  id : GroupId
  realmId : ℕ
  isSystemGroup : Bool
  directMembers : List ℕ
deriving DecidableEq

/-- A membership is a supergroup, which may be a group without a name, and a named subgroup. -/
structure Tables where
  groups : List NamedUserGroup
  memberships : Finset (GroupId × GroupId)
deriving DecidableEq

namespace Tables

def groupIds (tables : Tables) : Finset GroupId := (tables.groups.map (·.id)).toFinset

/-- The subgroup of every membership exists. -/
def ForeignKeys (tables : Tables) : Prop :=
  ∀ membership ∈ tables.memberships, membership.2 ∈ tables.groupIds

/-- The ids of the direct subgroups of a group. -/
def directSubgroups (tables : Tables) (supergroup : GroupId) : Finset GroupId :=
  successors tables.memberships {supergroup}

/-- The ids of all direct and indirect subgroups of a group. -/
def getRecursiveStrictSubgroups (tables : Tables) (group : GroupId) : Finset GroupId :=
  descendants tables.memberships (tables.directSubgroups group)

/-- The groups with some ids in a realm and all their direct and indirect subgroups. -/
def getRecursiveSubgroupsForGroups (tables : Tables) (userGroupIds : List GroupId)
    (realmId : ℕ) : List NamedUserGroup :=
  let base := tables.groups.filter fun group =>
    userGroupIds.contains group.id && group.realmId == realmId
  -- The join of a membership with the row of its subgroup.
  let joined := tables.memberships.filter fun membership => membership.2 ∈ tables.groupIds
  let cte := descendants joined (base.map (·.id)).toFinset
  tables.groups.filter fun group => group.id ∈ cte

/-- A group is not among its own direct and indirect subgroups when there are no cycles. -/
theorem acyclic_iff {tables : Tables} :
    Acyclic tables.memberships ↔ ∀ group, group ∉ tables.getRecursiveStrictSubgroups group := by
  refine forall_congr' fun group => not_congr ?_
  rw [getRecursiveStrictSubgroups, mem_descendants_iff, Relation.TransGen.head'_iff]
  constructor
  · rintro ⟨first, isEdge, path⟩
    exact ⟨first, by simpa [directSubgroups, Edge] using isEdge, path⟩
  · rintro ⟨first, isDirect, path⟩
    exact ⟨first, by simpa [directSubgroups, Edge] using isDirect, path⟩

theorem mem_groupIds {tables : Tables} {id : GroupId} :
    id ∈ tables.groupIds ↔ ∃ group ∈ tables.groups, group.id = id := by
  simp [groupIds]

end Tables

def hasUserGroupAccess (userGroup : NamedUserGroup) (userProfile : UserProfile)
    (forRead asSubgroup : Bool) : Bool :=
  if userGroup.realmId ≠ userProfile.realmId then false
  else if asSubgroup then true
  else if forRead && !userProfile.isGuest then true
  else if userGroup.isSystemGroup then false
  else if !userProfile.isRealmAdmin && !userProfile.isModerator &&
      !userGroup.directMembers.contains userProfile.id then false
  else true

/-- The row of a group in the realm of the user. -/
def Tables.find? (tables : Tables) (userGroupId : GroupId) (userProfile : UserProfile) :
    Option NamedUserGroup :=
  tables.groups.find? fun group =>
    decide (group.id = userGroupId) && decide (group.realmId = userProfile.realmId)

def accessUserGroupById (tables : Tables) (userGroupId : GroupId) (userProfile : UserProfile)
    (forRead : Bool) : Except String NamedUserGroup :=
  match tables.find? userGroupId userProfile with
  | none => .error "Invalid user group"
  | some userGroup =>
      if hasUserGroupAccess userGroup userProfile forRead false then .ok userGroup
      else .error "Insufficient permission"

/-- The groups that stay locked until the end of the transaction. -/
structure LockedUserGroupContext where
  supergroup : NamedUserGroup
  directSubgroups : List NamedUserGroup
  recursiveSubgroups : List NamedUserGroup
deriving DecidableEq

/-- The context of the locked groups, when the potential subgroups are among them. -/
def lockedUserGroupContext (potentialSubgroupIds : List GroupId) (actingUser : UserProfile)
    (recursiveSubgroups : List NamedUserGroup) (potentialSupergroup : NamedUserGroup) :
    Except String LockedUserGroupContext :=
  let potentialSubgroups := recursiveSubgroups.filter fun userGroup =>
    potentialSubgroupIds.contains userGroup.id
  let groupIdsFound := potentialSubgroups.map (·.id)
  match potentialSubgroupIds.find? fun groupId => !groupIdsFound.contains groupId with
  | some groupId => .error s!"Invalid user group ID: {groupId}"
  | none =>
      if potentialSubgroups.all fun subgroup => hasUserGroupAccess subgroup actingUser false true
      then .ok ⟨potentialSupergroup, potentialSubgroups, recursiveSubgroups⟩
      else .error "Insufficient permission"

/-! ## Writes -/

/-- A change of the tables within a transaction. -/
inductive Write where
  | createMemberships (supergroup : GroupId) (subgroups : List GroupId)
  | deleteMemberships (supergroup : GroupId) (subgroups : List GroupId)
  | deleteGroup (group : GroupId)
deriving DecidableEq

namespace Write

def apply (tables : Tables) : Write → Tables
  | .createMemberships supergroup subgroups =>
      { tables with
        memberships := tables.memberships ∪ (subgroups.map fun id => (supergroup, id)).toFinset }
  | .deleteMemberships supergroup subgroups =>
      { tables with
        memberships := tables.memberships.filter fun membership =>
          ¬ (membership.1 = supergroup ∧ membership.2 ∈ subgroups) }
  -- Deleting a group deletes the memberships that refer to it.
  | .deleteGroup group =>
      { groups := tables.groups.filter fun row => decide (row.id ≠ group)
        memberships := tables.memberships.filter fun membership =>
          membership.1 ≠ group ∧ membership.2 ≠ group }

/-- The tables after a sequence of writes. -/
def applyAll (tables : Tables) (writes : List Write) : Tables := writes.foldl apply tables

end Write

/-! ## Operations on subgroups -/

/-- An operation that runs with locked subgroups. -/
inductive Operation where
  | addSubgroupsToGroup (userGroupId : GroupId) (subgroupIds : List GroupId)
  | removeSubgroupsFromGroup (userGroupId : GroupId) (subgroupIds : List GroupId)
  | deleteUserGroup (userGroupId : GroupId)
deriving DecidableEq

namespace Operation

def potentialSubgroupIds : Operation → List GroupId
  | .addSubgroupsToGroup _ subgroupIds => subgroupIds
  | .removeSubgroupsFromGroup _ subgroupIds => subgroupIds
  | .deleteUserGroup userGroupId => [userGroupId]

def potentialSupergroupId : Operation → GroupId
  | .addSubgroupsToGroup userGroupId _ => userGroupId
  | .removeSubgroupsFromGroup userGroupId _ => userGroupId
  | .deleteUserGroup userGroupId => userGroupId

/-- What the operation checks once the groups are locked. -/
def check (tables : Tables) (context : LockedUserGroupContext) : Operation → Except String Unit
  | .addSubgroupsToGroup userGroupId _ =>
      let existingDirectSubgroupIds := tables.directSubgroups context.supergroup.id
      match context.directSubgroups.find? fun group => group.id ∈ existingDirectSubgroupIds with
      | some group => .error s!"User group {group.id} is already a subgroup of this group."
      | none =>
          if userGroupId ∈ context.recursiveSubgroups.map (·.id) then
            .error s!"User group {userGroupId} is already a subgroup of one of the passed subgroups."
          else .ok ()
  | .removeSubgroupsFromGroup _ _ =>
      let existingDirectSubgroupIds := tables.directSubgroups context.supergroup.id
      match context.directSubgroups.find? fun group => group.id ∉ existingDirectSubgroupIds with
      | some group => .error s!"User group {group.id} is not a subgroup of this group."
      | none => .ok ()
  | .deleteUserGroup _ => .ok ()

/-- What the operation writes. -/
def write (context : LockedUserGroupContext) : Operation → Write
  | .addSubgroupsToGroup _ _ =>
      .createMemberships context.supergroup.id (context.directSubgroups.map (·.id))
  | .removeSubgroupsFromGroup _ _ =>
      .deleteMemberships context.supergroup.id (context.directSubgroups.map (·.id))
  | .deleteUserGroup _ => .deleteGroup context.supergroup.id

end Operation

/-- The operations of a request to update the subgroups of a group; those without subgroups do
nothing. -/
def updateSubgroupsOfUserGroup (userGroupId : GroupId) (delete add : List GroupId) :
    Except String (List Operation) :=
  if add.isEmpty && delete.isEmpty then
    .error "Nothing to do. Specify at least one of \"add\" or \"delete\"."
  else
    .ok ((if add.isEmpty then [] else [.addSubgroupsToGroup userGroupId add]) ++
      if delete.isEmpty then [] else [.removeSubgroupsFromGroup userGroupId delete])

end Zulip.UserGroups
