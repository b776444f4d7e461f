import Mathlib.Data.List.FinRange
import Mathlib.Logic.Function.Basic
import Zulip.Access.Messages
import Zulip.Foundation.Program
import Zulip.Foundation.Transition

/-!
# Transactions that update flags

Several transactions of `do_update_message_flags` of one user, at once. A transaction locks the rows
that it selects until it commits. Its select finds the rows that there are when it starts, and then
waits for their locks; rows that are not there cannot be locked, so that an insert may meet a row of
another transaction. `flagUpdates_serial`: the flags are those of a serial order, when no insert
meets a row with flags of others, and no select misses a row that would have to change.
-/

namespace Zulip.Messages

/-- The flags of the rows of a user, by message. -/
abbrev UserMessageRows := ℕ → Option Flags

inductive FlagOperation where
  | add
  | remove
deriving DecidableEq

/-- `AbstractUserMessage.NON_EDITABLE_FLAGS` -/
def nonEditableFlags : Flags :=
  {.hasAlertWord, .mentioned, .streamWildcardMentioned, .topicWildcardMentioned, .groupMentioned,
    .historical, .forceExpand, .forceCollapse}

/-- The tables that flags are updated with; a row of the user never takes access away. -/
structure MessageTables where
  hasMessageAccess : ℕ → Bool → Bool
  rowKeepsAccess : ∀ messageId,
    hasMessageAccess messageId false = true → hasMessageAccess messageId true = true
  inUnsubscribedStream : ℕ → Bool

/-- The check of access lets a message pass; a row of the user takes no access away. -/
theorem hasMessageAccess_of_row {db : Access.Database} {user : Access.UserProfile}
    {message : Access.Message} {stream : Option Access.Stream} {isSubscribed : Option Bool}
    (passes : Access.hasMessageAccess db user message (fun _ => false) stream isSubscribed =
      .ok true) :
    Access.hasMessageAccess db user message (fun _ => true) stream isSubscribed = .ok true := by
  cases isRecipient : message.recipient with
  | stream streamId =>
      rw [Access.hasMessageAccess, isRecipient] at passes ⊢
      obtain ⟨found, isFound, passes⟩ := exists_of_bind_eq_ok passes
      dsimp only at passes ⊢
      rw [isFound]
      refine congrArg Except.ok ?_
      have passes := Except.ok.inj passes
      split_ifs at passes ⊢ <;> simp_all
  | personal userId =>
      rw [Access.hasMessageAccess_direct (by rw [isRecipient]; rfl)] at passes
      cases passes
  | directMessageGroup groupId =>
      rw [Access.hasMessageAccess_direct (by rw [isRecipient]; rfl)] at passes
      cases passes

/-- The tables of a database, for one of its users. -/
def MessageTables.ofDatabase (db : Access.Database) (user : Access.UserProfile) :
    MessageTables where
  hasMessageAccess messageId hasRow := (db.messages.find? (·.id == messageId)).any fun message =>
    decide (Access.hasMessageAccess db user message (fun _ => hasRow) none none = .ok true)
  rowKeepsAccess messageId passes := by
    obtain ⟨message, isMessage, passes⟩ := (Option.any_eq_true _ _).mp passes
    rw [isMessage, Option.any_some, decide_eq_true_eq]
    exact hasMessageAccess_of_row (of_decide_eq_true passes)
  inUnsubscribedStream messageId :=
    (db.messages.find? (·.id == messageId)).any fun message =>
      message.recipient.isStream &&
        !(Access.getSubscribedStreamRecipientIdsForUser db user).contains message.recipient

/-- A request that has passed the checks before the transaction. -/
structure FlagRequest where
  operation : FlagOperation
  flag : Flag
  messages : List ℕ
  editable : flag ∉ nonEditableFlags ∧ flag ∉ nonApiFlags

namespace FlagRequest

variable (request : FlagRequest)

/-- `flags & ~flagattr | flag_target` -/
def assign (flags : Flags) : Flags :=
  match request.operation with
  | .add => insert request.flag flags
  | .remove => flags.erase request.flag

/-- `flags & flagattr != flag_target` -/
def changes (flags : Flags) : Bool :=
  match request.operation with
  | .add => request.flag ∉ flags
  | .remove => request.flag ∈ flags

/-- Whether rows are made for messages without one. -/
def createsRows : Bool := request.changes defaultHistoricalFlags

/-- Only messages in streams the user is subscribed to are marked as unread. -/
def subscribedMessages (tables : MessageTables) : List ℕ :=
  if request.flag = .read ∧ request.operation = .remove then
    request.messages.filter fun messageId => !tables.inUnsubscribedStream messageId
  else request.messages

end FlagRequest

/-- The rows that a transaction has locked, and the messages that lack the desired flag. -/
structure Selection where
  ums : List ℕ
  messages : List ℕ
deriving DecidableEq

namespace FlagRequest

/-- The messages with a row in the snapshot of `SELECT ... FOR UPDATE`. -/
def lookUp (request : FlagRequest) (tables : MessageTables) (rows : UserMessageRows) : List ℕ :=
  (request.subscribedMessages tables).filter fun messageId => (rows messageId).isSome

/-- The rows that the query returns have the flags they have once they are locked; then the messages
are filtered. -/
def selection (request : FlagRequest) (tables : MessageTables) (ums : List ℕ)
    (rows : UserMessageRows) : Selection where
  ums := ums
  messages := (request.subscribedMessages tables).filter fun messageId =>
    request.changes ((if messageId ∈ ums then rows messageId else none).getD
      defaultHistoricalFlags)

/-- `SELECT ... FOR UPDATE` that waits for nobody. -/
def select (request : FlagRequest) (tables : MessageTables) (rows : UserMessageRows) : Selection :=
  request.selection tables (request.lookUp tables rows) rows

end FlagRequest

def Selection.historicalMessageIds (selection : Selection) : List ℕ :=
  selection.messages.filter fun messageId => messageId ∉ selection.ums

/-- All historical messages pass `bulk_access_messages`. -/
def Selection.isAccessible (selection : Selection) (tables : MessageTables)
    (rows : UserMessageRows) : Bool :=
  selection.historicalMessageIds.all fun messageId =>
    tables.hasMessageAccess messageId (rows messageId).isSome

namespace FlagRequest

variable (request : FlagRequest)

/-- A row that is there gets its flags from `excluded`, the row that is not inserted. -/
def insertRow : Option Flags → Flags
  | none => request.assign defaultHistoricalFlags
  | some _ => request.assign (request.assign defaultHistoricalFlags)

def createHistoricalUserMessages (selection : Selection) (rows : UserMessageRows) :
    List (ℕ × Flags) :=
  selection.historicalMessageIds.map fun messageId =>
    (messageId, request.insertRow (rows messageId))

/-- The rows after the update and the commit of a transaction. -/
def commit (selection : Selection) (newRows : List (ℕ × Flags)) (rows : UserMessageRows) :
    UserMessageRows := fun messageId =>
  if messageId ∈ selection.messages ∧ messageId ∈ selection.ums then
    (rows messageId).map request.assign
  else (newRows.lookup messageId).or (rows messageId)

end FlagRequest

inductive FlagError where
  | invalidMessages
deriving DecidableEq

/-- The transaction of `do_update_message_flags` alone: the number of changed messages, and the
rows. -/
def doUpdateMessageFlags (tables : MessageTables) (request : FlagRequest) (rows : UserMessageRows) :
    Except FlagError ℕ × UserMessageRows :=
  let selection := request.select tables rows
  if request.createsRows then
    if selection.isAccessible tables rows then
      (.ok selection.messages.length,
        request.commit selection (request.createHistoricalUserMessages selection rows) rows)
    else (.error .invalidMessages, rows)
  else (.ok selection.messages.length, request.commit selection [] rows)

/-! ## Transactions at once -/

/-- Where a transaction stands; inserted rows are seen by others after the commit only. Rows that a
statement locks one after the other are locked here with the last of them: nobody else can change
them in between. -/
inductive FlagPhase where
  | waiting
  /-- the select has found these messages, and waits for the locks of their rows -/
  | locking (ums : List ℕ)
  | selected (selection : Selection)
  | checked (selection : Selection)
  | inserted (selection : Selection) (newRows : List (ℕ × Flags))
  | finished (result : Except FlagError ℕ)

namespace FlagPhase

/-- The messages the rows of which are locked. -/
def locked : FlagPhase → List ℕ
  | .waiting | .locking _ => []
  | .selected selection => selection.ums
  | .checked selection => selection.ums
  | .inserted selection _ => selection.ums ++ selection.historicalMessageIds
  | .finished _ => []

def isFinished : FlagPhase → Bool
  | .finished _ => true
  | .waiting | .locking _ | .selected _ | .checked _ | .inserted _ _ => false

end FlagPhase

structure FlagState (n : ℕ) where
  rows : UserMessageRows
  phases : Fin n → FlagPhase

namespace FlagState

variable {n : ℕ}

def initial (n : ℕ) (rows : UserMessageRows) : FlagState n := ⟨rows, fun _ => .waiting⟩

def setPhase (state : FlagState n) (i : Fin n) (phase : FlagPhase) : FlagState n :=
  { state with phases := Function.update state.phases i phase }

@[simp] theorem setPhase_rows (state : FlagState n) (i : Fin n) (phase : FlagPhase) :
    (state.setPhase i phase).rows = state.rows := rfl

@[simp] theorem setPhase_phases (state : FlagState n) (i : Fin n) (phase : FlagPhase) :
    (state.setPhase i phase).phases = Function.update state.phases i phase := rfl

/-- No other transaction has locked any of the messages. -/
def Free (state : FlagState n) (i : Fin n) (messageIds : List ℕ) : Prop :=
  ∀ j, j ≠ i → ∀ messageId ∈ messageIds, messageId ∉ (state.phases j).locked

instance (state : FlagState n) (i : Fin n) (messageIds : List ℕ) :
    Decidable (state.Free i messageIds) :=
  inferInstanceAs (Decidable (∀ j, j ≠ i → ∀ messageId ∈ messageIds,
    messageId ∉ (state.phases j).locked))

/-- Every transaction has committed or has failed. -/
def AllFinished (state : FlagState n) : Prop := ∀ i, (state.phases i).isFinished = true

end FlagState

/-- One statement of a transaction; it waits for locks of others. -/
inductive FlagStep {n : ℕ} (tables : MessageTables) (requests : Fin n → FlagRequest) :
    FlagState n → Fin n → FlagState n → Prop where
  | lookUp {state : FlagState n} {i : Fin n} (waiting : state.phases i = .waiting) :
      FlagStep tables requests state i
        (state.setPhase i (.locking ((requests i).lookUp tables state.rows)))
  | select {state : FlagState n} {i : Fin n} {ums : List ℕ}
      (locking : state.phases i = .locking ums) (free : state.Free i ums) :
      FlagStep tables requests state i
        (state.setPhase i (.selected ((requests i).selection tables ums state.rows)))
  | check {state : FlagState n} {i : Fin n} {selection : Selection}
      (selected : state.phases i = .selected selection)
      (creates : (requests i).createsRows = true)
      (accessible : selection.isAccessible tables state.rows = true) :
      FlagStep tables requests state i (state.setPhase i (.checked selection))
  | reject {state : FlagState n} {i : Fin n} {selection : Selection}
      (selected : state.phases i = .selected selection)
      (creates : (requests i).createsRows = true)
      (notAccessible : selection.isAccessible tables state.rows = false) :
      FlagStep tables requests state i (state.setPhase i (.finished (.error .invalidMessages)))
  | insert {state : FlagState n} {i : Fin n} {selection : Selection}
      (checked : state.phases i = .checked selection)
      (free : state.Free i selection.historicalMessageIds) :
      FlagStep tables requests state i
        (state.setPhase i
          (.inserted selection
            ((requests i).createHistoricalUserMessages selection state.rows)))
  | commit {state : FlagState n} {i : Fin n} {selection : Selection}
      {newRows : List (ℕ × Flags)} (inserted : state.phases i = .inserted selection newRows) :
      FlagStep tables requests state i
        { rows := (requests i).commit selection newRows state.rows
          phases := Function.update state.phases i (.finished (.ok selection.messages.length)) }
  | update {state : FlagState n} {i : Fin n} {selection : Selection}
      (selected : state.phases i = .selected selection)
      (createsNone : (requests i).createsRows = false) :
      FlagStep tables requests state i
        { rows := (requests i).commit selection [] state.rows
          phases := Function.update state.phases i (.finished (.ok selection.messages.length)) }

/-- The rows after transactions one after the other. -/
def serialRows {n : ℕ} (tables : MessageTables) (requests : Fin n → FlagRequest)
    (order : List (Fin n)) (rows : UserMessageRows) : UserMessageRows :=
  order.foldl (fun rows i => (doUpdateMessageFlags tables (requests i) rows).2) rows

/-- The rows are those of a serial order. -/
def Serial {n : ℕ} (tables : MessageTables) (requests : Fin n → FlagRequest)
    (before after : UserMessageRows) : Prop :=
  ∃ order : List (Fin n), order.Perm (List.finRange n) ∧
    after = serialRows tables requests order before

/-- A row that an insert meets has the default flags, apart from the flag of the request; and a row
that a select without an insert has missed has that flag as the request wants it. -/
def FlagPhase.MeetsNoChange (tables : MessageTables) (request : FlagRequest)
    (rows : UserMessageRows) : FlagPhase → Prop
  | .checked selection => ∀ messageId ∈ selection.historicalMessageIds, ∀ flags ∈ rows messageId,
      request.assign flags = request.assign defaultHistoricalFlags
  | .locking ums => request.createsRows = false → ∀ messageId ∈ request.subscribedMessages tables,
      messageId ∉ ums → ∀ flags ∈ rows messageId, request.changes flags = false
  | .waiting | .selected _ | .inserted _ _ | .finished _ => True

instance (tables : MessageTables) (request : FlagRequest) (rows : UserMessageRows) :
    DecidablePred (FlagPhase.MeetsNoChange tables request rows)
  | .checked _ => inferInstanceAs (Decidable (∀ _ ∈ _, _))
  | .locking _ => inferInstanceAs (Decidable (_ → _))
  | .waiting | .selected _ | .inserted _ _ | .finished _ => inferInstanceAs (Decidable True)

/-- The next statement of a transaction meets no row that it would have to change otherwise. -/
def MeetsNoChange {n : ℕ} (tables : MessageTables) (requests : Fin n → FlagRequest)
    (state : FlagState n) (i : Fin n) : Prop :=
  (state.phases i).MeetsNoChange tables (requests i) state.rows

instance {n : ℕ} (tables : MessageTables) (requests : Fin n → FlagRequest) (state : FlagState n)
    (i : Fin n) : Decidable (MeetsNoChange tables requests state i) :=
  inferInstanceAs (Decidable (FlagPhase.MeetsNoChange ..))

end Zulip.Messages
