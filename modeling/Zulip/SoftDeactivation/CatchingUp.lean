import Zulip.SoftDeactivation.Replay

/-!
# Catch-up runs that stop

`Ledger` says that up to `last_active_message_id` no row is missing. Each statement of a run
of `add_missing_messages` keeps it, so the run may stop after any of them
(`Ledger.executeAll_take`); a run that does not stop leaves nothing missing.
-/

namespace Zulip.SoftDeactivation

/-- What is true of the user's rows in every state of a run. -/
structure Ledger (db : Database) : Prop where
  distinct : db.userMessageIds.Nodup
  rowsDue : ∀ messageId ∈ db.userMessageIds, messageId ∈ db.due
  direct : ∀ message ∈ db.messages, message.recipient = .direct true →
    message.id ∈ db.userMessageIds
  bounded : ∀ bound ∈ db.lastActiveMessageId, bound ≤ db.getLastMessageId ∧
    (db.userMessageIds = [] ∨ ∃ messageId ∈ db.userMessageIds, bound ≤ messageId)
  covered : db.longTermIdle = true → ∃ bound, db.lastActiveMessageId = some bound ∧
    CoveredUpTo db.due db.userMessageIds bound
  complete : db.longTermIdle = false → ∀ messageId ∈ db.due, messageId ∈ db.userMessageIds

/-! ## Statements -/

section Statements

variable {db : Database}

namespace Database

@[simp] theorem execute_messages (write : Write) : (db.execute write).messages = db.messages := by
  cases write <;> rfl

@[simp] theorem execute_subscriptions (write : Write) :
    (db.execute write).subscriptions = db.subscriptions := by
  cases write <;> rfl

@[simp] theorem execute_auditLogs (write : Write) :
    (db.execute write).auditLogs = db.auditLogs := by
  cases write <;> rfl

@[simp] theorem execute_longTermIdle (write : Write) :
    (db.execute write).longTermIdle = db.longTermIdle := by
  cases write <;> rfl

/-- What is due depends on the messages and the log. -/
theorem due_congr {other : Database} (messages : other.messages = db.messages)
    (auditLogs : other.auditLogs = db.auditLogs) : other.due = db.due := by
  simp only [due, receives, streamLogs, messages, auditLogs]

theorem getLastMessageId_congr {other : Database} (messages : other.messages = db.messages) :
    other.getLastMessageId = db.getLastMessageId := by
  rw [getLastMessageId, messages, getLastMessageId]

@[simp] theorem execute_due (write : Write) : (db.execute write).due = db.due :=
  due_congr (execute_messages write) (execute_auditLogs write)

@[simp] theorem execute_getLastMessageId (write : Write) :
    (db.execute write).getLastMessageId = db.getLastMessageId :=
  getLastMessageId_congr (execute_messages write)

end Database

theorem Consistent.congr (consistent : Consistent db) {other : Database}
    (messages : other.messages = db.messages) (subscriptions : other.subscriptions = db.subscriptions)
    (auditLogs : other.auditLogs = db.auditLogs) : Consistent other := by
  have sameLogs : ∀ streamId, other.streamLogs streamId = db.streamLogs streamId := fun streamId =>
    by rw [Database.streamLogs, auditLogs, Database.streamLogs]
  constructor
  · rw [messages]
    exact consistent.increasing
  · rw [auditLogs]
    exact consistent.logIds
  · rw [auditLogs]
    exact consistent.logIdsBelow
  · rw [auditLogs, subscriptions, Database.getLastMessageId_congr messages]
    exact consistent.recorded
  · rw [auditLogs]
    exact consistent.chronological
  · intro streamId
    rw [subscriptions, sameLogs]
    exact consistent.logged streamId
  · intro streamId
    rw [subscriptions, sameLogs]
    exact consistent.ends streamId

theorem Database.mem_userMessageIds_bulkInsertAllUms {messageIds : List Int} {flags : Nat}
    {messageId : Int} :
    messageId ∈ (db.execute (.bulkInsertAllUms messageIds flags)).userMessageIds ↔
      messageId ∈ db.userMessageIds ∨ messageId ∈ messageIds := by
  simp [execute, mem_userMessageIds_bulkInsertUms]

/-- A message that is due and has no row is after the bound. -/
theorem Ledger.bound_lt (ledger : Ledger db) {bound messageId : Int}
    (isBound : bound ∈ db.lastActiveMessageId) (isDue : messageId ∈ db.due)
    (noRow : messageId ∉ db.userMessageIds) : bound < messageId := by
  cases idle : db.longTermIdle with
  | false => exact absurd (ledger.complete idle messageId isDue) noRow
  | true =>
      obtain ⟨_, isSame, covered⟩ := ledger.covered idle
      rw [isSame] at isBound
      cases isBound
      exact not_le.mp fun within => noRow (covered messageId isDue within)

theorem Database.le_getLastMessageId_of_due {messageId : Int} (isDue : messageId ∈ db.due) :
    messageId ≤ db.getLastMessageId := by
  obtain ⟨message, member, rfl, _⟩ := isDue
  exact id_le_getLastMessageId member

/-- New rows leave a row at or after the bound, if there is a row. -/
theorem Ledger.bounded_of_subset (ledger : Ledger db) {rows : List Int} {bound : Int}
    (isBound : bound ∈ db.lastActiveMessageId)
    (kept : ∀ messageId ∈ db.userMessageIds, messageId ∈ rows)
    (added : ∀ messageId ∈ rows, messageId ∈ db.userMessageIds ∨ bound < messageId) :
    rows = [] ∨ ∃ messageId ∈ rows, bound ≤ messageId := by
  rcases (ledger.bounded bound isBound).2 with none | ⟨messageId, hasRow, within⟩
  · rcases rows.eq_nil_or_concat with empty | ⟨before, newest, rfl⟩
    · exact Or.inl empty
    · have isNew := added newest (by simp)
      rw [none] at isNew
      exact Or.inr ⟨newest, by simp, le_of_lt (isNew.resolve_left List.not_mem_nil)⟩
  · exact Or.inr ⟨messageId, kept messageId hasRow, within⟩

/-- Rows that are due can be inserted. -/
theorem Ledger.bulkInsertAllUms (ledger : Ledger db) {messageIds : List Int} (flags : Nat)
    (areDue : ∀ messageId ∈ messageIds, messageId ∈ db.due) :
    Ledger (db.execute (.bulkInsertAllUms messageIds flags)) where
  distinct := Database.nodup_bulkInsertUms ledger.distinct
  rowsDue messageId hasRow := by
    rw [Database.execute_due]
    rcases Database.mem_userMessageIds_bulkInsertAllUms.mp hasRow with known | inserted
    · exact ledger.rowsDue messageId known
    · exact areDue messageId inserted
  direct message member recipient :=
    Database.mem_userMessageIds_bulkInsertAllUms.mpr (Or.inl (ledger.direct message member recipient))
  bounded bound isBound := by
    have within := (ledger.bounded bound isBound).1
    refine ⟨by rwa [Database.execute_getLastMessageId], ledger.bounded_of_subset isBound
      (fun _ known => Database.mem_userMessageIds_bulkInsertAllUms.mpr (Or.inl known)) ?_⟩
    intro messageId hasRow
    by_cases known : messageId ∈ db.userMessageIds
    · exact Or.inl known
    · have inserted := (Database.mem_userMessageIds_bulkInsertAllUms.mp hasRow).resolve_left known
      exact Or.inr (ledger.bound_lt isBound (areDue messageId inserted) known)
  covered isIdle := by
    obtain ⟨bound, isBound, covered⟩ := ledger.covered isIdle
    refine ⟨bound, isBound, ?_⟩
    rw [Database.execute_due]
    exact covered.extend
      (fun _ known => Database.mem_userMessageIds_bulkInsertAllUms.mpr (Or.inl known))
      fun _ isDue => Or.inl isDue
  complete isActive messageId isDue := by
    rw [Database.execute_due] at isDue
    exact Database.mem_userMessageIds_bulkInsertAllUms.mpr
      (Or.inl (ledger.complete isActive messageId isDue))

/-- The bound can be raised to a message up to which no row is missing. -/
theorem Ledger.updateLastActiveMessageId (ledger : Ledger db) {messageId : Int}
    (hasRow : messageId ∈ db.userMessageIds)
    (covered : CoveredUpTo db.due db.userMessageIds messageId) :
    Ledger (db.execute (.updateLastActiveMessageId messageId)) where
  distinct := ledger.distinct
  rowsDue := ledger.rowsDue
  direct := ledger.direct
  bounded := by
    have upToLast : messageId ≤ db.getLastMessageId :=
      Database.le_getLastMessageId_of_due (ledger.rowsDue messageId hasRow)
    rintro _ ⟨⟩
    rw [Database.execute_getLastMessageId]
    cases last : db.lastActiveMessageId with
    | none => exact ⟨upToLast, Or.inr ⟨messageId, hasRow, le_rfl⟩⟩
    | some bound =>
        obtain ⟨boundUpToLast, none | ⟨row, isRow, within⟩⟩ := ledger.bounded bound last
        · rw [none] at hasRow
          cases hasRow
        · refine ⟨max_le boundUpToLast upToLast, Or.inr ?_⟩
          rcases le_total bound messageId with below | above
          · exact ⟨messageId, hasRow, max_le below le_rfl⟩
          · exact ⟨row, isRow, max_le within (le_trans above within)⟩
  covered isIdle := by
    obtain ⟨bound, isBound, boundCovered⟩ := ledger.covered isIdle
    exact ⟨max bound messageId, by simp [Database.execute, isBound], boundCovered.larger covered⟩
  complete := ledger.complete

/-- All statements together change nothing but the rows and the bound. -/
theorem Database.executeAll_frame (writes : List Write) :
    (db.executeAll writes).messages = db.messages ∧
      (db.executeAll writes).subscriptions = db.subscriptions ∧
      (db.executeAll writes).auditLogs = db.auditLogs ∧
      (db.executeAll writes).longTermIdle = db.longTermIdle := by
  unfold executeAll
  induction writes generalizing db with
  | nil => exact ⟨rfl, rfl, rfl, rfl⟩
  | cons write rest inductionHypothesis => simpa using @inductionHypothesis (db.execute write)

theorem Database.executeAll_due (writes : List Write) : (db.executeAll writes).due = db.due :=
  due_congr (executeAll_frame writes).1 (executeAll_frame writes).2.2.1

theorem Consistent.executeAll (consistent : Consistent db) (writes : List Write) :
    Consistent (db.executeAll writes) := by
  obtain ⟨messages, subscriptions, auditLogs, _⟩ := db.executeAll_frame writes
  exact consistent.congr messages subscriptions auditLogs

/-- One round of the loop: the batch, and the bound after it. -/
theorem Ledger.round (ledger : Ledger db) {ids : List Int}
    (missing : Missing db.due db.userMessageIds ids) {last : Int} (size : Nat) (isLast : (ids.take size).getLast? = some last)
    (flags : Nat) :
    Ledger (db.execute (.bulkInsertAllUms (ids.take size) flags)) ∧
      Ledger ((db.execute (.bulkInsertAllUms (ids.take size) flags)).execute
        (.updateLastActiveMessageId last)) ∧
      Missing db.due ((db.execute (.bulkInsertAllUms (ids.take size) flags)).execute
        (.updateLastActiveMessageId last)).userMessageIds (ids.drop size) := by
  have areDue : ∀ messageId ∈ ids.take size, messageId ∈ db.due := fun messageId member =>
    ((missing.mem_iff messageId).mp (List.mem_of_mem_take member)).1
  have inserted := ledger.bulkInsertAllUms flags areDue
  have inBatch : last ∈ ids.take size := List.mem_of_getLast? isLast
  rw [← List.take_append_drop size ids] at missing
  have written : ∀ messageId,
      messageId ∈ (db.execute (.bulkInsertAllUms (ids.take size) flags)).userMessageIds ↔
        messageId ∈ db.userMessageIds ∨ messageId ∈ ids.take size :=
    fun _ => Database.mem_userMessageIds_bulkInsertAllUms
  refine ⟨inserted, inserted.updateLastActiveMessageId ((written last).mpr (Or.inr inBatch)) ?_,
    missing.advance written⟩
  rw [Database.execute_due]
  exact missing.raise written inBatch

/-- A catch-up run may stop anywhere. -/
theorem Ledger.executeAll_take (ledger : Ledger db) {ids : List Int}
    (missing : Missing db.due db.userMessageIds ids) (rounds statements : Nat) :
    Ledger (db.executeAll ((insertBatches rounds ids).take statements)) := by
  induction rounds generalizing db ids statements with
  | zero => simpa [insertBatches, Database.executeAll] using ledger
  | succ rounds inductionHypothesis =>
      unfold insertBatches
      split
      · simpa [Database.executeAll] using ledger
      · rename_i last isLast
        obtain ⟨inserted, raised, rest⟩ := ledger.round missing bulkCreateBatchSize isLast 0
        match statements with
        | 0 => exact ledger
        | 1 => exact inserted
        | statements + 2 =>
            refine inductionHypothesis raised ?_ statements
            rw [Database.execute_due, Database.execute_due]
            exact rest

/-- A catch-up run that does not stop leaves nothing missing. -/
theorem Ledger.missing_executeAll (ledger : Ledger db) {ids : List Int}
    (missing : Missing db.due db.userMessageIds ids) {rounds : Nat} (enough : ids.length ≤ rounds) :
    Missing db.due (db.executeAll (insertBatches rounds ids)).userMessageIds [] := by
  induction rounds generalizing db ids with
  | zero =>
      rw [List.length_eq_zero_iff.mp (Nat.le_zero.mp enough)] at missing
      exact missing
  | succ rounds inductionHypothesis =>
      unfold insertBatches
      split
      · rename_i exhausted
        have none : ids = [] := by
          simpa [bulkCreateBatchSize] using List.getLast?_eq_none_iff.mp exhausted
        rw [none] at missing
        exact missing
      · rename_i last isLast
        obtain ⟨_, raised, rest⟩ := ledger.round missing bulkCreateBatchSize isLast 0
        have shorter : (ids.drop bulkCreateBatchSize).length ≤ rounds := by
          rw [List.length_drop, bulkCreateBatchSize]
          omega
        have result := inductionHypothesis raised
          (by rwa [Database.execute_due, Database.execute_due]) shorter
        rwa [Database.execute_due, Database.execute_due] at result

end Statements

end Zulip.SoftDeactivation
