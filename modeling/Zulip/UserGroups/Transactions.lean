import Zulip.Foundation.Transition
import Zulip.UserGroups.Tables

/-!
# Concurrent changes of subgroups

Every request runs in a transaction. For each of its operations it locks the potential subgroups
with all their subgroups, or fails when one of these rows is locked; then it waits for the lock of
the supergroup, checks, and writes. Other transactions see the writes, and get the locks, when it
has ended.
-/

namespace Zulip.UserGroups

/-- Why a request fails: with a message for the client, or with an exception of the database. -/
inductive Failure where
  | jsonableError (message : String)
  | databaseError
deriving DecidableEq

/-- Where a transaction is. -/
inductive Progress where
  | ready (operations : List Operation)
  | lockedSubgroups (operation : Operation) (recursiveSubgroups : List NamedUserGroup)
      (rest : List Operation)
  | locked (operation : Operation) (context : LockedUserGroupContext) (rest : List Operation)
  | checked (operation : Operation) (context : LockedUserGroupContext) (rest : List Operation)
  | ended (result : Except Failure Unit)

/-- A transaction with the rows that it has locked and what it has written. -/
structure Transaction where
  actingUser : UserProfile
  progress : Progress
  locks : Finset GroupId
  writes : List Write

/-- A statement of a transaction. -/
inductive Statement where
  | lockSubgroups
  | lockSupergroup
  | check
  | write
  | commit
  | abort

namespace Transaction

def start (actingUser : UserProfile) (operations : List Operation) : Transaction :=
  ⟨actingUser, .ready operations, ∅, []⟩

/-- What the transaction sees: what is committed, and its own writes. -/
def view (tables : Tables) (transaction : Transaction) : Tables :=
  Write.applyAll tables transaction.writes

/-- Undo the writes and release the locks. -/
def rollback (transaction : Transaction) (error : Failure) : Transaction :=
  ⟨transaction.actingUser, .ended (.error error), ∅, []⟩

/-- The transaction after a statement, if it does not have to wait. The rows that other
transactions have locked are `held`. -/
def execute (tables : Tables) (held : GroupId → Bool) (transaction : Transaction) :
    Statement → Option Transaction
  | .lockSubgroups =>
      match transaction.progress with
      | .ready (operation :: rest) =>
          let recursiveSubgroups := (transaction.view tables).getRecursiveSubgroupsForGroups
            operation.potentialSubgroupIds transaction.actingUser.realmId
          if recursiveSubgroups.any fun group => held group.id then
            some (transaction.rollback .databaseError)
          else
            some { transaction with
              progress := .lockedSubgroups operation recursiveSubgroups rest
              locks := transaction.locks ∪ (recursiveSubgroups.map (·.id)).toFinset }
      | _ => none
  | .lockSupergroup =>
      match transaction.progress with
      | .lockedSubgroups operation recursiveSubgroups rest =>
          let supergroupId := operation.potentialSupergroupId
          let view := transaction.view tables
          if (view.find? supergroupId transaction.actingUser).isSome && held supergroupId then none
          else
            let context := do
              let supergroup ← accessUserGroupById view supergroupId transaction.actingUser false
              lockedUserGroupContext operation.potentialSubgroupIds transaction.actingUser
                recursiveSubgroups supergroup
            match context with
            | .error message => some (transaction.rollback (.jsonableError message))
            | .ok context =>
                some { transaction with
                  progress := .locked operation context rest
                  locks := insert context.supergroup.id transaction.locks }
      | _ => none
  | .check =>
      match transaction.progress with
      | .locked operation context rest =>
          match operation.check (transaction.view tables) context with
          | .error message => some (transaction.rollback (.jsonableError message))
          | .ok () => some { transaction with progress := .checked operation context rest }
      | _ => none
  | .write =>
      match transaction.progress with
      | .checked operation context rest =>
          some { transaction with
            progress := .ready rest
            writes := transaction.writes ++ [operation.write context] }
      | _ => none
  | .commit =>
      match transaction.progress with
      | .ready [] => some ⟨transaction.actingUser, .ended (.ok ()), ∅, []⟩
      | _ => none
  -- A deadlock, or any other exception.
  | .abort =>
      match transaction.progress with
      | .ended _ => none
      | _ => some (transaction.rollback .databaseError)

end Transaction

/-- What is committed, and all transactions. -/
structure ServerState where
  tables : Tables
  transactions : List Transaction

/-- What happens on the server. -/
inductive Action where
  | updateSubgroups (actingUser : UserProfile) (userGroupId : GroupId) (delete add : List GroupId)
  | deleteUserGroup (actingUser : UserProfile) (userGroupId : GroupId)
  | execute (index : ℕ) (statement : Statement)

namespace ServerState

def initial (tables : Tables) : ServerState := ⟨tables, []⟩

/-- A transaction other than the one at an index has locked a row. -/
def heldByOther (state : ServerState) (index : ℕ) (group : GroupId) : Bool :=
  (state.transactions.eraseIdx index).any fun transaction => decide (group ∈ transaction.locks)

/-- The tables after a statement: a commit makes the writes of its transaction visible. -/
def tablesAfter (state : ServerState) (transaction : Transaction) : Statement → Tables
  | .commit => transaction.view state.tables
  | _ => state.tables

/-- Begin a transaction. -/
def begin (state : ServerState) (actingUser : UserProfile) (operations : List Operation) :
    ServerState :=
  { state with transactions := state.transactions ++ [.start actingUser operations] }

/-- The state after an action, if it can happen. -/
def perform (state : ServerState) : Action → Option ServerState
  | .updateSubgroups actingUser userGroupId delete add =>
      match updateSubgroupsOfUserGroup userGroupId delete add with
      | .error _ => some state
      | .ok operations => some (state.begin actingUser operations)
  | .deleteUserGroup actingUser userGroupId =>
      some (state.begin actingUser [.deleteUserGroup userGroupId])
  | .execute index statement =>
      match state.transactions[index]? with
      | none => none
      | some transaction =>
          (transaction.execute state.tables (state.heldByOther index) statement).map fun next =>
            ⟨state.tablesAfter transaction statement, state.transactions.set index next⟩

/-- One action. -/
def Step (state : ServerState) (action : Action) (next : ServerState) : Prop :=
  state.perform action = some next

end ServerState

end Zulip.UserGroups
