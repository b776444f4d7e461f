import Zulip.Messages.FlagTransactions

/-!
# A serial order of flag updates

A transaction that makes no rows counts from the end of its select on, and one that makes rows from
its commit on. The rows of the transactions that count, one after the other, are the rows of the table, but for
the rows that a counted transaction has locked and not written yet.
-/

namespace Zulip.Messages

namespace FlagRequest

variable {request : FlagRequest} {tables : MessageTables} {flags : Flags}

theorem assign_assign : request.assign (request.assign flags) = request.assign flags := by
  cases operation : request.operation <;> simp [assign, operation]

theorem assign_of_changes_eq_false (same : request.changes flags = false) :
    request.assign flags = flags := by
  cases operation : request.operation with
  | add =>
      rw [changes, operation] at same
      rw [assign, operation]
      exact Finset.insert_eq_self.mpr (by simpa using same)
  | remove =>
      rw [changes, operation] at same
      rw [assign, operation]
      exact Finset.erase_eq_self.mpr (by simpa using same)

theorem insertRow_eq (existing : Option Flags) :
    request.insertRow existing = request.assign defaultHistoricalFlags := by
  cases existing with
  | none => rfl
  | some flags => exact assign_assign

/-- A flag that is not the one of the request stays as it is. -/
theorem mem_assign_of_ne {flag : Flag} (other : request.flag ≠ flag) :
    flag ∈ request.assign flags ↔ flag ∈ flags := by
  cases operation : request.operation with
  | add => simp [assign, operation, other.symm]
  | remove => simp [assign, operation, other.symm]

theorem mem_assign_self : request.flag ∈ request.assign flags ↔ request.operation = .add := by
  cases operation : request.operation <;> simp [assign, operation]

theorem changes_eq_false_iff :
    request.changes flags = false ↔ (request.flag ∈ flags ↔ request.operation = .add) := by
  cases operation : request.operation <;> simp [changes, operation]

/-- What a request that makes no rows would leave as it is, another such request leaves so. -/
theorem changes_assign_eq_false {other : FlagRequest} (createsNone : request.createsRows = false)
    (otherCreatesNone : other.createsRows = false) (same : request.changes flags = false) :
    request.changes (other.assign flags) = false := by
  rw [createsRows, changes_eq_false_iff] at createsNone otherCreatesNone
  rw [changes_eq_false_iff] at same ⊢
  by_cases sameFlag : other.flag = request.flag
  · -- the defaults have the flag as both requests want it
    rw [← createsNone, ← sameFlag, otherCreatesNone]
    exact mem_assign_self
  · rw [mem_assign_of_ne sameFlag]
    exact same

theorem mem_messages_of_subscribed {messageId : ℕ}
    (member : messageId ∈ request.subscribedMessages tables) : messageId ∈ request.messages := by
  rw [subscribedMessages] at member
  split_ifs at member
  · exact List.mem_of_mem_filter member
  · exact member

/-- What a transaction alone does to the row of a message. -/
def effect (request : FlagRequest) (tables : MessageTables) (messageId : ℕ) (row : Option Flags) :
    Option Flags :=
  if messageId ∈ request.subscribedMessages tables then
    row.elim (if request.createsRows then some (request.assign defaultHistoricalFlags) else none)
      fun flags => some (request.assign flags)
  else row

theorem effect_of_not_mem {messageId : ℕ} {row : Option Flags}
    (absent : messageId ∉ request.subscribedMessages tables) :
    request.effect tables messageId row = row := by
  rw [effect, if_neg absent]

theorem effect_some {messageId : ℕ} (member : messageId ∈ request.subscribedMessages tables) :
    request.effect tables messageId (some flags) = some (request.assign flags) := by
  rw [effect, if_pos member, Option.elim_some]

theorem effect_none {messageId : ℕ} (member : messageId ∈ request.subscribedMessages tables) :
    request.effect tables messageId none =
      if request.createsRows then some (request.assign defaultHistoricalFlags) else none := by
  rw [effect, if_pos member, Option.elim_none]

end FlagRequest

/-- What a selection knows of the rows that are locked, and of the messages without a row. -/
structure Selection.Agrees (selection : Selection) (tables : MessageTables)
    (request : FlagRequest) (rows : UserMessageRows) : Prop where
  requested : ∀ messageId ∈ selection.ums, messageId ∈ request.subscribedMessages tables
  found : ∀ messageId ∈ selection.ums, ∃ flags, rows messageId = some flags ∧
    (messageId ∈ selection.messages ↔ request.changes flags = true)
  missing : ∀ messageId, messageId ∉ selection.ums → (messageId ∈ selection.messages ↔
    messageId ∈ request.subscribedMessages tables ∧ request.createsRows = true)

namespace Selection

variable {selection : Selection} {tables : MessageTables} {request : FlagRequest}
  {rows : UserMessageRows} {messageId : ℕ}

theorem mem_historicalMessageIds :
    messageId ∈ selection.historicalMessageIds ↔
      messageId ∈ selection.messages ∧ messageId ∉ selection.ums := by
  simp [historicalMessageIds]

theorem mem_lookUp :
    messageId ∈ request.lookUp tables rows ↔
      messageId ∈ request.subscribedMessages tables ∧ (rows messageId).isSome = true :=
  List.mem_filter

theorem agrees_selection {ums : List ℕ}
    (requested : ∀ messageId ∈ ums, messageId ∈ request.subscribedMessages tables)
    (found : ∀ messageId ∈ ums, (rows messageId).isSome = true) :
    (request.selection tables ums rows).Agrees tables request rows where
  requested := requested
  found messageId member := by
    obtain ⟨flags, isRow⟩ := Option.isSome_iff_exists.mp (found messageId member)
    have isFound : messageId ∈ ums := member
    refine ⟨flags, isRow, ?_⟩
    rw [FlagRequest.selection, List.mem_filter, if_pos isFound, isRow, Option.getD_some]
    exact and_iff_right (requested messageId member)
  missing messageId absent := by
    have notFound : messageId ∉ ums := absent
    rw [FlagRequest.selection, List.mem_filter, if_neg notFound, Option.getD_none,
      FlagRequest.createsRows]

theorem agrees_select (tables : MessageTables) (request : FlagRequest) (rows : UserMessageRows) :
    (request.select tables rows).Agrees tables request rows :=
  agrees_selection (fun _ member => (mem_lookUp.mp member).1)
    fun _ member => (mem_lookUp.mp member).2

/-- Rows that are not locked do not matter. -/
theorem Agrees.of_rows_eq {after : UserMessageRows} (agrees : selection.Agrees tables request rows)
    (same : ∀ messageId ∈ selection.ums, after messageId = rows messageId) :
    selection.Agrees tables request after where
  requested := agrees.requested
  found messageId member := by
    rw [same messageId member]
    exact agrees.found messageId member
  missing := agrees.missing

theorem Agrees.mem_historicalMessageIds (agrees : selection.Agrees tables request rows) :
    messageId ∈ selection.historicalMessageIds ↔ messageId ∉ selection.ums ∧
      messageId ∈ request.subscribedMessages tables ∧ request.createsRows = true := by
  rw [Selection.mem_historicalMessageIds, and_comm]
  exact and_congr_right fun absent => agrees.missing messageId absent

end Selection

namespace FlagRequest

variable {request : FlagRequest} {tables : MessageTables} {rows : UserMessageRows}
  {selection : Selection} {newRows : List (ℕ × Flags)} {messageId : ℕ}

/-- A locked row gets the flag, whether it has been filtered out or not. -/
theorem commit_of_mem (agrees : selection.Agrees tables request rows)
    (notInserted : newRows.lookup messageId = none) (member : messageId ∈ selection.ums) :
    request.commit selection newRows rows messageId = (rows messageId).map request.assign := by
  rw [commit]
  split_ifs with changed
  · rfl
  · obtain ⟨flags, isRow, changes⟩ := agrees.found messageId member
    rw [notInserted, Option.none_or, isRow, Option.map_some, assign_of_changes_eq_false]
    rw [← Bool.not_eq_true, ← changes]
    exact fun isMessage => changed ⟨isMessage, member⟩

theorem commit_of_not_mem (absent : messageId ∉ selection.ums) :
    request.commit selection newRows rows messageId =
      (newRows.lookup messageId).or (rows messageId) := by
  rw [commit, if_neg fun both => absent both.2]

theorem lookup_createHistoricalUserMessages (request : FlagRequest) (selection : Selection)
    (rows : UserMessageRows) (messageId : ℕ) :
    (request.createHistoricalUserMessages selection rows).lookup messageId =
      if messageId ∈ selection.historicalMessageIds then
        some (request.assign defaultHistoricalFlags)
      else none := by
  rw [createHistoricalUserMessages]
  induction selection.historicalMessageIds with
  | nil => rfl
  | cons head tail inductionHypothesis =>
      rw [List.map_cons, List.lookup_cons, inductionHypothesis, insertRow_eq]
      by_cases same : messageId = head
      · simp [same]
      · rw [beq_false_of_ne same]
        simp [same]

/-- A commit with inserted rows has the effect of the transaction alone, when the inserts have met
default flags. -/
theorem commit_eq_effect (agrees : selection.Agrees tables request rows)
    (creates : request.createsRows = true)
    (isInserted : ∀ messageId, newRows.lookup messageId =
      if messageId ∈ selection.historicalMessageIds then
        some (request.assign defaultHistoricalFlags)
      else none)
    (meetsDefault : ∀ messageId ∈ selection.historicalMessageIds, ∀ flags ∈ rows messageId,
      request.assign flags = request.assign defaultHistoricalFlags) (messageId : ℕ) :
    request.commit selection newRows rows messageId =
      request.effect tables messageId (rows messageId) := by
  by_cases member : messageId ∈ selection.ums
  · obtain ⟨flags, isRow, -⟩ := agrees.found messageId member
    have notHistorical : messageId ∉ selection.historicalMessageIds := fun historical =>
      (agrees.mem_historicalMessageIds.mp historical).1 member
    rw [commit_of_mem agrees (by rw [isInserted, if_neg notHistorical]) member, isRow,
      Option.map_some, effect_some (agrees.requested messageId member)]
  · rw [commit_of_not_mem member, isInserted]
    by_cases requested : messageId ∈ request.subscribedMessages tables
    · have historical := agrees.mem_historicalMessageIds.mpr ⟨member, requested, creates⟩
      rw [if_pos historical, Option.some_or]
      cases isRow : rows messageId with
      | none => rw [effect_none requested, creates, if_pos rfl]
      | some flags => rw [effect_some requested, meetsDefault messageId historical flags isRow]
    · have notHistorical : messageId ∉ selection.historicalMessageIds := fun historical =>
        requested (agrees.mem_historicalMessageIds.mp historical).2.1
      rw [if_neg notHistorical, Option.none_or, effect_of_not_mem requested]

/-! ## A transaction alone -/

theorem effect_of_alone (accepted : request.createsRows = true →
      (request.select tables rows).isAccessible tables rows = true) :
    (doUpdateMessageFlags tables request rows).2 =
      fun messageId => request.effect tables messageId (rows messageId) := by
  funext messageId
  have agrees := Selection.agrees_select tables request rows
  cases creates : request.createsRows with
  | true =>
      rw [doUpdateMessageFlags, if_pos creates, if_pos (accepted creates)]
      refine commit_eq_effect agrees creates
        (lookup_createHistoricalUserMessages request _ rows) ?_ messageId
      -- The rows have not changed since the select.
      intro messageId historical flags isRow
      obtain ⟨absent, requested, -⟩ := agrees.mem_historicalMessageIds.mp historical
      exact absurd (Selection.mem_lookUp.mpr ⟨requested, Option.isSome_of_mem isRow⟩) absent
  | false =>
      rw [doUpdateMessageFlags, if_neg (by rw [creates]; exact Bool.false_ne_true)]
      dsimp only
      by_cases member : messageId ∈ (request.select tables rows).ums
      · obtain ⟨flags, isRow, -⟩ := agrees.found messageId member
        have requested := agrees.requested messageId member
        rw [commit_of_mem agrees List.lookup_nil member, isRow, Option.map_some,
          effect_some requested]
      · rw [commit_of_not_mem member, List.lookup_nil, Option.none_or]
        by_cases requested : messageId ∈ request.subscribedMessages tables
        · have noRow : rows messageId = none := by
            rw [← Option.not_isSome_iff_eq_none]
            exact fun isSome => member (Selection.mem_lookUp.mpr ⟨requested, isSome⟩)
          rw [noRow, effect_none requested, creates, if_neg Bool.false_ne_true]
        · rw [effect_of_not_mem requested]

theorem rejected_alone (creates : request.createsRows = true)
    (notAccessible : (request.select tables rows).isAccessible tables rows = false) :
    (doUpdateMessageFlags tables request rows).2 = rows := by
  rw [doUpdateMessageFlags, if_pos creates, notAccessible, if_neg Bool.false_ne_true]

/-- A transaction alone leaves the other flags as they are. -/
theorem mem_alone_iff {flag : Flag} (untouched : messageId ∈ request.messages →
      request.flag ≠ flag) :
    flag ∈ ((doUpdateMessageFlags tables request rows).2 messageId).getD defaultHistoricalFlags ↔
      flag ∈ (rows messageId).getD defaultHistoricalFlags := by
  by_cases accepted : request.createsRows = true →
      (request.select tables rows).isAccessible tables rows = true
  · rw [effect_of_alone accepted]
    dsimp only
    by_cases requested : messageId ∈ request.subscribedMessages tables
    · have other := untouched (mem_messages_of_subscribed requested)
      cases isRow : rows messageId with
      | none =>
          rw [effect_none requested]
          split_ifs
          · exact mem_assign_of_ne other
          · rfl
      | some flags =>
          rw [effect_some requested]
          exact mem_assign_of_ne other
    · rw [effect_of_not_mem requested]
  · rw [Classical.not_imp, Bool.not_eq_true] at accepted
    rw [rejected_alone accepted.1 accepted.2]

end FlagRequest

/-! ## Counted transactions -/

/-- The historical messages of a transaction that has passed the check. -/
structure Selection.Accepted (selection : Selection) (tables : MessageTables)
    (request : FlagRequest) (before : UserMessageRows) : Prop where
  creates : request.createsRows = true
  noRow : ∀ messageId ∈ selection.historicalMessageIds, before messageId = none
  accessible : ∀ messageId ∈ selection.historicalMessageIds,
    tables.hasMessageAccess messageId false = true

/-- What a select knows while it waits: the rows that it has found stay there, and the others were
not there before. -/
structure FlagRequest.Found (request : FlagRequest) (tables : MessageTables) (ums : List ℕ)
    (before rows : UserMessageRows) : Prop where
  requested : ∀ messageId ∈ ums, messageId ∈ request.subscribedMessages tables
  found : ∀ messageId ∈ ums, (rows messageId).isSome = true
  missing : ∀ messageId ∈ request.subscribedMessages tables, messageId ∉ ums →
    before messageId = none

/-- The rows that a transaction is going to commit. -/
structure Selection.Inserted (selection : Selection) (request : FlagRequest)
    (rows : UserMessageRows) (newRows : List (ℕ × Flags)) : Prop where
  lookup : ∀ messageId, newRows.lookup messageId =
    if messageId ∈ selection.historicalMessageIds then
      some (request.assign defaultHistoricalFlags)
    else none
  meetsDefault : ∀ messageId ∈ selection.historicalMessageIds, ∀ flags ∈ rows messageId,
    request.assign flags = request.assign defaultHistoricalFlags

namespace FlagPhase

variable {tables : MessageTables} {request : FlagRequest} {before rows : UserMessageRows}

/-- What is known of a transaction; `before` is the table before all of them. -/
def Known (tables : MessageTables) (request : FlagRequest) (before rows : UserMessageRows) :
    FlagPhase → Prop
  | .waiting => True
  | .locking ums => request.Found tables ums before rows
  | .selected selection =>
      selection.Agrees tables request rows ∧
        ∀ messageId ∈ selection.historicalMessageIds, before messageId = none
  | .checked selection =>
      selection.Agrees tables request rows ∧ selection.Accepted tables request before
  | .inserted selection newRows =>
      selection.Agrees tables request rows ∧ selection.Accepted tables request before ∧
        selection.Inserted request rows newRows
  | .finished _ => True

theorem Known.of_rows_eq {after : UserMessageRows} {phase : FlagPhase}
    (known : phase.Known tables request before rows)
    (stays : ∀ messageId, (rows messageId).isSome = true → (after messageId).isSome = true)
    (same : ∀ messageId ∈ phase.locked, after messageId = rows messageId) :
    phase.Known tables request before after := by
  cases phase with
  | waiting => trivial
  | locking ums =>
      exact ⟨known.requested, fun messageId member => stays messageId (known.found messageId member),
        known.missing⟩
  | selected selection => exact ⟨known.1.of_rows_eq same, known.2⟩
  | checked selection => exact ⟨known.1.of_rows_eq same, known.2⟩
  | inserted selection newRows =>
      obtain ⟨agrees, accepted, isInserted⟩ := known
      refine ⟨agrees.of_rows_eq fun messageId member => same messageId
        (List.mem_append_left _ member), accepted, isInserted.lookup, ?_⟩
      intro messageId historical flags isRow
      rw [same messageId (List.mem_append_right _ historical)] at isRow
      exact isInserted.meetsDefault messageId historical flags isRow
  | finished result => trivial

/-- A transaction that makes no rows counts from the end of its select on, the others from their
end on. -/
def counts (request : FlagRequest) : FlagPhase → Bool
  | .selected _ => !request.createsRows
  | .finished _ => true
  | .waiting | .locking _ | .checked _ | .inserted _ _ => false

/-- The rows that a counted transaction is going to write. -/
def ahead (request : FlagRequest) : FlagPhase → List ℕ
  | .selected selection => if request.createsRows then [] else selection.ums
  | .waiting | .locking _ | .checked _ | .inserted _ _ | .finished _ => []

theorem ahead_locked {phase : FlagPhase} {messageId : ℕ}
    (member : messageId ∈ phase.ahead request) : messageId ∈ phase.locked := by
  cases phase with
  | selected selection =>
      rw [ahead] at member
      split_ifs at member
      · simp at member
      · exact member
  | waiting => simp [ahead] at member
  | locking ums => simp [ahead] at member
  | checked selection => simp [ahead] at member
  | inserted selection newRows => simp [ahead] at member
  | finished result => simp [ahead] at member

/-- Only transactions that make no rows write ahead. -/
theorem createsNone_of_ahead {phase : FlagPhase} {messageId : ℕ}
    (member : messageId ∈ phase.ahead request) : request.createsRows = false := by
  cases creates : request.createsRows with
  | false => rfl
  | true => cases phase <;> simp [ahead, creates] at member

/-- Rows that are going to be written are there. -/
theorem Known.isSome_of_ahead {phase : FlagPhase} (known : phase.Known tables request before rows)
    {messageId : ℕ} (member : messageId ∈ phase.ahead request) :
    (rows messageId).isSome = true := by
  cases phase with
  | selected selection =>
      obtain ⟨flags, isRow, -⟩ := known.1.found messageId (ahead_locked member)
      exact Option.isSome_of_mem isRow
  | waiting => simp [ahead] at member
  | locking ums => simp [ahead] at member
  | checked selection => simp [ahead] at member
  | inserted selection newRows => simp [ahead] at member
  | finished result => simp [ahead] at member

end FlagPhase

section Transactions

variable {n : ℕ} {tables : MessageTables} {requests : Fin n → FlagRequest}
  {before : UserMessageRows} {order : List (Fin n)} {state next : FlagState n} {i : Fin n}

/-- No row is locked twice. -/
def Exclusive (phases : Fin n → FlagPhase) : Prop :=
  ∀ i j, i ≠ j → ∀ messageId ∈ (phases i).locked, messageId ∉ (phases j).locked

theorem Exclusive.update {phases : Fin n → FlagPhase} (exclusive : Exclusive phases)
    {phase : FlagPhase}
    (free : ∀ j, j ≠ i → ∀ messageId ∈ phase.locked, messageId ∉ (phases j).locked) :
    Exclusive (Function.update phases i phase) := by
  intro first second distinct messageId member
  rw [Function.update_apply] at member ⊢
  by_cases isFirst : first = i
  · rw [if_pos isFirst] at member
    rw [if_neg fun isSecond => distinct (isFirst.trans isSecond.symm)]
    exact free second (fun isSecond => distinct (isFirst.trans isSecond.symm)) messageId member
  · rw [if_neg isFirst] at member
    split_ifs
    · exact fun locked => free first isFirst messageId locked member
    · exact exclusive first second distinct messageId member

/-- The rows of the counted transactions in their order are those of the table, but for rows that
are going to be written. -/
structure Counted (tables : MessageTables) (requests : Fin n → FlagRequest)
    (before : UserMessageRows) (order : List (Fin n)) (state : FlagState n) : Prop where
  nodup : order.Nodup
  counts : ∀ i, i ∈ order ↔ (state.phases i).counts (requests i) = true
  known : ∀ i, (state.phases i).Known tables (requests i) before state.rows
  exclusive : Exclusive state.phases
  kept : ∀ messageId, (before messageId).isSome = true → (state.rows messageId).isSome = true
  accessible : ∀ messageId, (state.rows messageId).isSome = true →
    (before messageId).isSome = true ∨ tables.hasMessageAccess messageId false = true
  written : ∀ i, ∀ messageId ∈ (state.phases i).ahead (requests i),
    serialRows tables requests order before messageId =
      (state.rows messageId).map (requests i).assign
  level : ∀ messageId, (∀ i, messageId ∉ (state.phases i).ahead (requests i)) →
    serialRows tables requests order before messageId = state.rows messageId

theorem counted_initial (rows : UserMessageRows) :
    Counted tables requests rows [] (FlagState.initial n rows) where
  nodup := List.nodup_nil
  counts i := by simp [FlagState.initial, FlagPhase.counts]
  known i := by simp [FlagState.initial, FlagPhase.Known]
  exclusive i j _ messageId member := by simp [FlagState.initial, FlagPhase.locked] at member
  kept messageId isSome := isSome
  accessible messageId isSome := .inl isSome
  written i messageId member := by simp [FlagState.initial, FlagPhase.ahead] at member
  level messageId _ := rfl

namespace Counted

variable (counted : Counted tables requests before order state)

include counted

/-- Rows of others stay as they are. -/
theorem known_update {rows : UserMessageRows} {phase : FlagPhase}
    (known : phase.Known tables (requests i) before rows)
    (stays : ∀ messageId, (state.rows messageId).isSome = true → (rows messageId).isSome = true)
    (same : ∀ j, j ≠ i → ∀ messageId ∈ (state.phases j).locked,
      rows messageId = state.rows messageId) (j : Fin n) :
    (Function.update state.phases i phase j).Known tables (requests j) before rows := by
  by_cases isSame : j = i
  · subst isSame
    rw [Function.update_self]
    exact known
  · rw [Function.update_of_ne isSame]
    exact (counted.known j).of_rows_eq stays (same j isSame)

/-- A transaction goes on that is not going to write rows. -/
theorem progress {phase : FlagPhase} {later : List (Fin n)}
    (known : phase.Known tables (requests i) before state.rows)
    (free : state.Free i phase.locked)
    (notAhead : (state.phases i).ahead (requests i) = [])
    (stillNotAhead : phase.ahead (requests i) = []) (nodup : later.Nodup)
    (counts : ∀ j, j ∈ later ↔
      (Function.update state.phases i phase j).counts (requests j) = true)
    (sameRows : serialRows tables requests later before =
      serialRows tables requests order before) :
    Counted tables requests before later (state.setPhase i phase) where
  nodup := nodup
  counts := counts
  known := counted.known_update known (fun _ isSome => isSome) fun _ _ _ _ => rfl
  exclusive := counted.exclusive.update free
  kept := counted.kept
  accessible := counted.accessible
  written j messageId member := by
    rw [FlagState.setPhase_phases, Function.update_apply] at member
    split_ifs at member with isSame
    · rw [isSame, stillNotAhead] at member
      simp at member
    · rw [sameRows]
      exact counted.written j messageId member
  level messageId level := by
    rw [sameRows]
    refine counted.level messageId fun j => ?_
    by_cases isSame : j = i
    · rw [isSame, notAhead]
      exact List.not_mem_nil
    · have unchanged := level j
      rwa [FlagState.setPhase_phases, Function.update_of_ne isSame] at unchanged

theorem counts_update {phase : FlagPhase}
    (notCounted : (state.phases i).counts (requests i) = false)
    (stillNotCounted : phase.counts (requests i) = false) (j : Fin n) :
    j ∈ order ↔ (Function.update state.phases i phase j).counts (requests j) = true := by
  rw [counted.counts, Function.update_apply]
  split_ifs with isSame
  · rw [isSame, notCounted, stillNotCounted]
  · rfl

theorem nodup_snoc (notCounted : (state.phases i).counts (requests i) = false) :
    (order ++ [i]).Nodup := by
  refine List.Nodup.append counted.nodup (List.nodup_singleton i) ?_
  rw [List.disjoint_singleton, counted.counts, notCounted]
  exact Bool.false_ne_true

theorem counts_snoc {phase : FlagPhase} (isCounted : phase.counts (requests i) = true)
    (j : Fin n) : j ∈ order ++ [i] ↔
      (Function.update state.phases i phase j).counts (requests j) = true := by
  rw [List.mem_append, List.mem_singleton, Function.update_apply]
  split_ifs with isSame
  · rw [isSame, isCounted]
    simp
  · rw [or_iff_left isSame, counted.counts]

end Counted

theorem serialRows_snoc :
    serialRows tables requests (order ++ [i]) before =
      (doUpdateMessageFlags tables (requests i) (serialRows tables requests order before)).2 := by
  rw [serialRows, List.foldl_append]
  rfl

namespace Counted

/-- A message without a lock has the row of the counted transactions. -/
theorem level_of_free (counted : Counted tables requests before order state) {messageId : ℕ}
    (notAhead : (state.phases i).ahead (requests i) = [])
    (free : ∀ j, j ≠ i → messageId ∉ (state.phases j).locked) :
    serialRows tables requests order before messageId = state.rows messageId := by
  refine counted.level messageId fun j member => ?_
  by_cases isSame : j = i
  · rw [isSame, notAhead] at member
    simp at member
  · exact free j isSame (FlagPhase.ahead_locked member)

theorem known_lookUp (counted : Counted tables requests before order state) (i : Fin n) :
    (requests i).Found tables ((requests i).lookUp tables state.rows) before state.rows where
  requested _ member := (Selection.mem_lookUp.mp member).1
  found _ member := (Selection.mem_lookUp.mp member).2
  missing messageId requested absent := by
    rw [← Option.not_isSome_iff_eq_none]
    exact fun isSome => absent (Selection.mem_lookUp.mpr
      ⟨requested, counted.kept messageId isSome⟩)

theorem known_select {ums : List ℕ} (found : (requests i).Found tables ums before state.rows) :
    FlagPhase.Known tables (requests i) before state.rows
      (.selected ((requests i).selection tables ums state.rows)) := by
  have agrees := Selection.agrees_selection found.requested found.found
  refine ⟨agrees, fun messageId historical => ?_⟩
  obtain ⟨absent, requested, -⟩ := agrees.mem_historicalMessageIds.mp historical
  exact found.missing messageId requested absent

/-- A transaction that makes no rows counts from the end of its select on. What it has missed, and
what another one is going to write there, has its flag already. -/
theorem select_counts (counted : Counted tables requests before order state) {ums : List ℕ}
    (createsNone : (requests i).createsRows = false) (locking : state.phases i = .locking ums)
    (free : state.Free i ums) (meetsNoChange : MeetsNoChange tables requests state i) :
    Counted tables requests before (order ++ [i])
      (state.setPhase i (.selected ((requests i).selection tables ums state.rows))) := by
  have found : (requests i).Found tables ums before state.rows := by
    have known := counted.known i
    rwa [locking] at known
  rw [MeetsNoChange, locking] at meetsNoChange
  have missed := meetsNoChange createsNone
  have notAhead : (state.phases i).ahead (requests i) = [] := by rw [locking, FlagPhase.ahead]
  have isAhead : FlagPhase.ahead (requests i)
      (.selected ((requests i).selection tables ums state.rows)) = ums := by
    rw [FlagPhase.ahead, createsNone, if_neg Bool.false_ne_true, FlagRequest.selection]
  have alone : serialRows tables requests (order ++ [i]) before = fun messageId =>
      (requests i).effect tables messageId (serialRows tables requests order before messageId) := by
    rw [serialRows_snoc]
    refine FlagRequest.effect_of_alone fun creates => ?_
    rw [createsNone] at creates
    exact absurd creates Bool.false_ne_true
  refine ⟨?_, ?_, ?_, counted.exclusive.update free, counted.kept, counted.accessible, ?_, ?_⟩
  · exact counted.nodup_snoc (by rw [locking, FlagPhase.counts])
  · exact counted.counts_snoc (by rw [FlagPhase.counts, createsNone, Bool.not_false])
  · exact counted.known_update (known_select found) (fun _ isSome => isSome) fun _ _ _ _ => rfl
  · intro j messageId member
    rw [alone]
    dsimp only
    rw [FlagState.setPhase_phases, Function.update_apply] at member
    split_ifs at member with isSame
    · rw [isSame, isAhead] at member
      obtain ⟨flags, isRow⟩ := Option.isSome_iff_exists.mp (found.found messageId member)
      rw [counted.level_of_free notAhead fun j distinct => free j distinct messageId member,
        FlagState.setPhase_rows, isRow, FlagRequest.effect_some (found.requested messageId member),
        isSame, Option.map_some]
    · -- Another transaction is going to write the row, which the select has missed.
      have notFound : messageId ∉ ums := fun isFound =>
        free j isSame messageId isFound (FlagPhase.ahead_locked member)
      obtain ⟨flags, isRow⟩ :=
        Option.isSome_iff_exists.mp ((counted.known j).isSome_of_ahead member)
      rw [counted.written j messageId member, FlagState.setPhase_rows, isRow, Option.map_some]
      by_cases requested : messageId ∈ (requests i).subscribedMessages tables
      · have same := FlagRequest.changes_assign_eq_false createsNone
          (FlagPhase.createsNone_of_ahead member) (missed messageId requested notFound flags isRow)
        rw [FlagRequest.effect_some requested, FlagRequest.assign_of_changes_eq_false same]
      · rw [FlagRequest.effect_of_not_mem requested]
  · intro messageId level
    have notSelected := level i
    rw [FlagState.setPhase_phases, Function.update_self, isAhead] at notSelected
    have isLevel : serialRows tables requests order before messageId = state.rows messageId := by
      refine counted.level messageId fun j => ?_
      by_cases isSame : j = i
      · rw [isSame, notAhead]
        exact List.not_mem_nil
      · have unchanged := level j
        rwa [FlagState.setPhase_phases, Function.update_of_ne isSame] at unchanged
    rw [alone, FlagState.setPhase_rows]
    dsimp only
    rw [isLevel]
    by_cases requested : messageId ∈ (requests i).subscribedMessages tables
    · cases isRow : state.rows messageId with
      | none => rw [FlagRequest.effect_none requested, createsNone, if_neg Bool.false_ne_true]
      | some flags =>
          have same := missed messageId requested notSelected flags isRow
          rw [FlagRequest.effect_some requested, FlagRequest.assign_of_changes_eq_false same]
    · exact FlagRequest.effect_of_not_mem requested

/-- A transaction that fails its check fails in the serial order as well. -/
theorem reject_counts (counted : Counted tables requests before order state)
    {selection : Selection} (selected : state.phases i = .selected selection)
    (creates : (requests i).createsRows = true)
    (notAccessible : selection.isAccessible tables state.rows = false) :
    Counted tables requests before (order ++ [i])
      (state.setPhase i (.finished (.error .invalidMessages))) := by
  have notAhead : (state.phases i).ahead (requests i) = [] := by
    rw [selected, FlagPhase.ahead, if_pos creates]
  obtain ⟨agrees, noRow⟩ : FlagPhase.Known tables (requests i) before state.rows
      (.selected selection) := selected ▸ counted.known i
  obtain ⟨messageId, historical, refused⟩ := List.all_eq_false.mp notAccessible
  obtain ⟨absent, requested, -⟩ := agrees.mem_historicalMessageIds.mp historical
  -- A row that is there now would be that of a message the user may see.
  have stillNoRow : state.rows messageId = none := by
    rw [← Option.not_isSome_iff_eq_none]
    intro isSome
    rcases counted.accessible messageId isSome with wasThere | accessible
    · rw [noRow messageId historical] at wasThere
      exact Bool.false_ne_true wasThere
    · rw [isSome] at refused
      exact refused (tables.rowKeepsAccess messageId accessible)
  have isLevel : serialRows tables requests order before messageId = none := by
    rw [counted.level messageId fun j member => ?_, stillNoRow]
    have isSome := (counted.known j).isSome_of_ahead member
    rw [stillNoRow] at isSome
    exact Bool.false_ne_true isSome
  have known : FlagPhase.Known tables (requests i) before state.rows
    (.finished (.error .invalidMessages)) := trivial
  refine counted.progress known ?_ notAhead rfl ?_ ?_ ?_
  · intro j _ messageId member
    simp [FlagPhase.locked] at member
  · exact counted.nodup_snoc (by rw [selected, FlagPhase.counts, creates, Bool.not_true])
  · exact counted.counts_snoc rfl
  · rw [serialRows_snoc]
    refine FlagRequest.rejected_alone creates ?_
    rw [Selection.isAccessible, List.all_eq_false]
    refine ⟨messageId, ?_, ?_⟩
    · refine (Selection.agrees_select tables _ _).mem_historicalMessageIds.mpr
        ⟨fun member => ?_, requested, creates⟩
      have isSome := (Selection.mem_lookUp.mp member).2
      rw [isLevel] at isSome
      exact Bool.false_ne_true isSome
    · rw [isLevel]
      rwa [stillNoRow] at refused

/-- Before its commit, a transaction that makes rows has locked every message that is asked for. -/
theorem mem_locked_of_inserted (counted : Counted tables requests before order state)
    {selection : Selection} {newRows : List (ℕ × Flags)}
    (isInserted : state.phases i = .inserted selection newRows) {messageId : ℕ}
    (requested : messageId ∈ (requests i).subscribedMessages tables) :
    messageId ∈ (state.phases i).locked := by
  obtain ⟨agrees, accepted, -⟩ : FlagPhase.Known tables (requests i) before state.rows
      (.inserted selection newRows) := isInserted ▸ counted.known i
  rw [isInserted, FlagPhase.locked, List.mem_append, agrees.mem_historicalMessageIds]
  by_cases member : messageId ∈ selection.ums
  · exact .inl member
  · exact .inr ⟨member, requested, accepted.creates⟩

/-- In the serial order the request is accepted as well, and has its effect. -/
theorem serialRows_of_inserted (counted : Counted tables requests before order state)
    {selection : Selection} {newRows : List (ℕ × Flags)}
    (isInserted : state.phases i = .inserted selection newRows) :
    serialRows tables requests (order ++ [i]) before = fun messageId =>
      (requests i).effect tables messageId (serialRows tables requests order before messageId) := by
  obtain ⟨agrees, accepted, -⟩ : FlagPhase.Known tables (requests i) before state.rows
      (.inserted selection newRows) := isInserted ▸ counted.known i
  have notAhead : (state.phases i).ahead (requests i) = [] := by
    rw [isInserted, FlagPhase.ahead]
  rw [serialRows_snoc]
  refine FlagRequest.effect_of_alone fun _ => List.all_eq_true.mpr fun messageId historical => ?_
  obtain ⟨absent, requested, -⟩ :=
    (Selection.agrees_select tables _ _).mem_historicalMessageIds.mp historical
  have isLocked := counted.mem_locked_of_inserted isInserted requested
  have isLevel : serialRows tables requests order before messageId = state.rows messageId :=
    counted.level_of_free notAhead fun j distinct =>
      counted.exclusive i j distinct.symm messageId isLocked
  have noRow : serialRows tables requests order before messageId = none := by
    rw [← Option.not_isSome_iff_eq_none]
    exact fun isSome => absent (Selection.mem_lookUp.mpr ⟨requested, isSome⟩)
  rw [noRow, Option.isSome_none]
  refine accepted.accessible messageId (agrees.mem_historicalMessageIds.mpr
    ⟨fun member => ?_, requested, accepted.creates⟩)
  obtain ⟨flags, isRow, -⟩ := agrees.found messageId member
  rw [noRow, isRow] at isLevel
  cases isLevel

/-- A transaction that makes rows counts from its commit on. -/
theorem commit_counts (counted : Counted tables requests before order state)
    {selection : Selection} {newRows : List (ℕ × Flags)}
    (isInserted : state.phases i = .inserted selection newRows) :
    Counted tables requests before (order ++ [i])
      { rows := (requests i).commit selection newRows state.rows
        phases :=
          Function.update state.phases i (.finished (.ok selection.messages.length)) } := by
  obtain ⟨agrees, accepted, inserted⟩ : FlagPhase.Known tables (requests i) before state.rows
      (.inserted selection newRows) := isInserted ▸ counted.known i
  have notAhead : (state.phases i).ahead (requests i) = [] := by
    rw [isInserted, FlagPhase.ahead]
  have rowsEq := FlagRequest.commit_eq_effect agrees accepted.creates inserted.lookup
    inserted.meetsDefault
  have alone := counted.serialRows_of_inserted isInserted
  have sameRow : ∀ j, j ≠ i → ∀ messageId ∈ (state.phases j).locked,
      (requests i).commit selection newRows state.rows messageId = state.rows messageId := by
    intro j distinct messageId member
    rw [rowsEq, FlagRequest.effect_of_not_mem]
    exact fun requested => counted.exclusive j i distinct messageId member
      (counted.mem_locked_of_inserted isInserted requested)
  have stays : ∀ messageId, (state.rows messageId).isSome = true →
      ((requests i).commit selection newRows state.rows messageId).isSome = true := by
    intro messageId isSome
    rw [rowsEq]
    obtain ⟨flags, isRow⟩ := Option.isSome_iff_exists.mp isSome
    rw [isRow]
    by_cases requested : messageId ∈ (requests i).subscribedMessages tables
    · rw [FlagRequest.effect_some requested, Option.isSome_some]
    · rw [FlagRequest.effect_of_not_mem requested, Option.isSome_some]
  refine ⟨?_, ?_, ?_, ?_, ?_, ?_, ?_, ?_⟩
  · exact counted.nodup_snoc (by rw [isInserted, FlagPhase.counts])
  · exact counted.counts_snoc rfl
  · exact counted.known_update (show FlagPhase.Known _ _ _ _ (.finished _) from trivial) stays
      sameRow
  · exact counted.exclusive.update fun j _ messageId member => by
      simp [FlagPhase.locked] at member
  · exact fun messageId wasThere => stays messageId (counted.kept messageId wasThere)
  · intro messageId isSome
    dsimp only at isSome
    by_cases historical : messageId ∈ selection.historicalMessageIds
    · exact .inr (accepted.accessible messageId historical)
    · refine counted.accessible messageId ?_
      by_cases member : messageId ∈ selection.ums
      · obtain ⟨flags, isRow, -⟩ := agrees.found messageId member
        exact Option.isSome_of_mem isRow
      · rwa [FlagRequest.commit_of_not_mem member, inserted.lookup, if_neg historical,
          Option.none_or] at isSome
  · intro j messageId member
    dsimp only at member ⊢
    rw [Function.update_apply] at member
    split_ifs at member with isSame
    · simp [FlagPhase.ahead] at member
    · have held := FlagPhase.ahead_locked member
      rw [alone, sameRow j isSame messageId held, ← counted.written j messageId member]
      refine FlagRequest.effect_of_not_mem fun requested => ?_
      exact counted.exclusive j i isSame messageId held
        (counted.mem_locked_of_inserted isInserted requested)
  · intro messageId level
    dsimp only at level ⊢
    rw [alone, rowsEq]
    dsimp only
    rw [counted.level messageId fun j => ?_]
    by_cases isSame : j = i
    · rw [isSame, notAhead]
      exact List.not_mem_nil
    · have unchanged := level j
      rwa [Function.update_of_ne isSame] at unchanged

/-- A transaction that counts already writes its rows. -/
theorem update_counts (counted : Counted tables requests before order state)
    {selection : Selection} (selected : state.phases i = .selected selection)
    (createsNone : (requests i).createsRows = false) :
    Counted tables requests before order
      { rows := (requests i).commit selection [] state.rows
        phases :=
          Function.update state.phases i (.finished (.ok selection.messages.length)) } := by
  obtain ⟨agrees, noRow⟩ : FlagPhase.Known tables (requests i) before state.rows
      (.selected selection) := selected ▸ counted.known i
  have isAhead : (state.phases i).ahead (requests i) = selection.ums := by
    rw [selected, FlagPhase.ahead, createsNone, if_neg Bool.false_ne_true]
  have locked : (state.phases i).locked = selection.ums := by rw [selected, FlagPhase.locked]
  have ofMember : ∀ messageId ∈ selection.ums,
      (requests i).commit selection [] state.rows messageId =
        (state.rows messageId).map (requests i).assign :=
    fun messageId member => FlagRequest.commit_of_mem agrees List.lookup_nil member
  have ofNotMember : ∀ messageId, messageId ∉ selection.ums →
      (requests i).commit selection [] state.rows messageId = state.rows messageId := by
    intro messageId absent
    rw [FlagRequest.commit_of_not_mem absent, List.lookup_nil, Option.none_or]
  have sameIsSome : ∀ messageId,
      ((requests i).commit selection [] state.rows messageId).isSome =
        (state.rows messageId).isSome := by
    intro messageId
    by_cases member : messageId ∈ selection.ums
    · rw [ofMember messageId member, Option.isSome_map]
    · rw [ofNotMember messageId member]
  have sameRow : ∀ j, j ≠ i → ∀ messageId ∈ (state.phases j).locked,
      (requests i).commit selection [] state.rows messageId = state.rows messageId := by
    intro j distinct messageId member
    refine ofNotMember messageId fun isUm => counted.exclusive j i distinct messageId member ?_
    rwa [locked]
  refine ⟨counted.nodup, ?_, ?_, ?_, ?_, ?_, ?_, ?_⟩
  · intro j
    rw [counted.counts]
    dsimp only
    rw [Function.update_apply]
    split_ifs with isSame
    · rw [isSame, selected, FlagPhase.counts, FlagPhase.counts, createsNone, Bool.not_false]
    · rfl
  · exact counted.known_update (show FlagPhase.Known _ _ _ _ (.finished _) from trivial)
      (fun messageId isSome => (sameIsSome messageId).trans isSome) sameRow
  · exact counted.exclusive.update fun j _ messageId member => by
      simp [FlagPhase.locked] at member
  · intro messageId wasThere
    exact (sameIsSome messageId).trans (counted.kept messageId wasThere)
  · intro messageId isSome
    exact counted.accessible messageId ((sameIsSome messageId).symm.trans isSome)
  · intro j messageId member
    dsimp only at member ⊢
    rw [Function.update_apply] at member
    split_ifs at member with isSame
    · simp [FlagPhase.ahead] at member
    · rw [sameRow j isSame messageId (FlagPhase.ahead_locked member)]
      exact counted.written j messageId member
  · intro messageId level
    dsimp only at level ⊢
    by_cases member : messageId ∈ selection.ums
    · rw [ofMember messageId member]
      exact counted.written i messageId (isAhead ▸ member)
    · rw [ofNotMember messageId member]
      refine counted.level messageId fun j => ?_
      by_cases isSame : j = i
      · rw [isSame, isAhead]
        exact member
      · have unchanged := level j
        rwa [Function.update_of_ne isSame] at unchanged

/-- The rows that a transaction makes are those of messages the user may see without a row. -/
theorem accepted_of_check (counted : Counted tables requests before order state)
    {selection : Selection} (creates : (requests i).createsRows = true)
    (noRow : ∀ messageId ∈ selection.historicalMessageIds, before messageId = none)
    (accessible : selection.isAccessible tables state.rows = true) :
    selection.Accepted tables (requests i) before := by
  refine ⟨creates, noRow, fun messageId historical => ?_⟩
  have isAccessible := List.all_eq_true.mp accessible messageId historical
  cases isRow : (state.rows messageId).isSome with
  | false => rwa [isRow] at isAccessible
  | true =>
      rcases counted.accessible messageId isRow with wasThere | withoutRow
      · rw [noRow messageId historical] at wasThere
        cases wasThere
      · exact withoutRow

theorem lookUp_progress (counted : Counted tables requests before order state)
    (waiting : state.phases i = .waiting) :
    Counted tables requests before order
      (state.setPhase i (.locking ((requests i).lookUp tables state.rows))) := by
  have known : FlagPhase.Known tables (requests i) before state.rows
      (.locking ((requests i).lookUp tables state.rows)) := counted.known_lookUp i
  have notCounted : (state.phases i).counts (requests i) = false := by
    rw [waiting, FlagPhase.counts]
  refine counted.progress known ?_ ?_ rfl counted.nodup (counted.counts_update notCounted rfl) rfl
  · intro j _ messageId member
    simp [FlagPhase.locked] at member
  · rw [waiting, FlagPhase.ahead]

theorem select_progress (counted : Counted tables requests before order state) {ums : List ℕ}
    (creates : (requests i).createsRows = true) (locking : state.phases i = .locking ums)
    (free : state.Free i ums) :
    Counted tables requests before order
      (state.setPhase i (.selected ((requests i).selection tables ums state.rows))) := by
  have found : (requests i).Found tables ums before state.rows := by
    have known := counted.known i
    rwa [locking] at known
  have notCounted : (state.phases i).counts (requests i) = false := by
    rw [locking, FlagPhase.counts]
  have stillNotCounted : FlagPhase.counts (requests i)
      (.selected ((requests i).selection tables ums state.rows)) = false := by
    rw [FlagPhase.counts, creates, Bool.not_true]
  refine counted.progress (known_select found) free ?_ ?_ counted.nodup
    (counted.counts_update notCounted stillNotCounted) rfl
  · rw [locking, FlagPhase.ahead]
  · rw [FlagPhase.ahead, if_pos creates]

theorem check_progress (counted : Counted tables requests before order state)
    {selection : Selection} (selected : state.phases i = .selected selection)
    (creates : (requests i).createsRows = true)
    (accessible : selection.isAccessible tables state.rows = true) :
    Counted tables requests before order (state.setPhase i (.checked selection)) := by
  obtain ⟨agrees, noRow⟩ : FlagPhase.Known tables (requests i) before state.rows
      (.selected selection) := selected ▸ counted.known i
  have known : FlagPhase.Known tables (requests i) before state.rows (.checked selection) :=
    ⟨agrees, counted.accepted_of_check creates noRow accessible⟩
  have notCounted : (state.phases i).counts (requests i) = false := by
    rw [selected, FlagPhase.counts, creates, Bool.not_true]
  refine counted.progress known ?_ ?_ rfl counted.nodup (counted.counts_update notCounted rfl) rfl
  · intro j distinct messageId member
    refine counted.exclusive i j distinct.symm messageId ?_
    rw [selected]
    exact member
  · rw [selected, FlagPhase.ahead, if_pos creates]

theorem insert_progress (counted : Counted tables requests before order state)
    {selection : Selection} (checked : state.phases i = .checked selection)
    (free : state.Free i selection.historicalMessageIds)
    (meetsNoChange : MeetsNoChange tables requests state i) :
    Counted tables requests before order
      (state.setPhase i (.inserted selection
        ((requests i).createHistoricalUserMessages selection state.rows))) := by
  obtain ⟨agrees, accepted⟩ : FlagPhase.Known tables (requests i) before state.rows
      (.checked selection) := checked ▸ counted.known i
  rw [MeetsNoChange, checked] at meetsNoChange
  have inserted : selection.Inserted (requests i) state.rows
      ((requests i).createHistoricalUserMessages selection state.rows) :=
    ⟨FlagRequest.lookup_createHistoricalUserMessages (requests i) selection state.rows,
      meetsNoChange⟩
  have known : FlagPhase.Known tables (requests i) before state.rows (.inserted selection
      ((requests i).createHistoricalUserMessages selection state.rows)) :=
    ⟨agrees, accepted, inserted⟩
  have notCounted : (state.phases i).counts (requests i) = false := by
    rw [checked, FlagPhase.counts]
  refine counted.progress known ?_ ?_ rfl counted.nodup (counted.counts_update notCounted rfl) rfl
  · intro j distinct messageId member
    rcases List.mem_append.mp member with isUm | historical
    · refine counted.exclusive i j distinct.symm messageId ?_
      rw [checked]
      exact isUm
    · exact free j distinct messageId historical
  · rw [checked, FlagPhase.ahead]

end Counted

/-- Every statement of a transaction keeps the counted transactions in a serial order. -/
theorem counted_step (counted : Counted tables requests before order state)
    (transition : FlagStep tables requests state i next)
    (meetsNoChange : MeetsNoChange tables requests state i) :
    ∃ later, Counted tables requests before later next := by
  cases transition with
  | lookUp waiting => exact ⟨_, counted.lookUp_progress waiting⟩
  | select locking free =>
      cases creates : (requests i).createsRows with
      | false => exact ⟨_, counted.select_counts creates locking free meetsNoChange⟩
      | true => exact ⟨_, counted.select_progress creates locking free⟩
  | check selected creates accessible =>
      exact ⟨_, counted.check_progress selected creates accessible⟩
  | reject selected creates notAccessible =>
      exact ⟨_, counted.reject_counts selected creates notAccessible⟩
  | insert checked free => exact ⟨_, counted.insert_progress checked free meetsNoChange⟩
  | commit isInserted => exact ⟨_, counted.commit_counts isInserted⟩
  | update selected createsNone => exact ⟨_, counted.update_counts selected createsNone⟩

/-- When all have finished, all count, and none is going to write anything. -/
theorem Counted.serial (counted : Counted tables requests before order state)
    (allFinished : state.AllFinished) : Serial tables requests before state.rows := by
  refine ⟨order, ?_, ?_⟩
  · refine (List.perm_ext_iff_of_nodup counted.nodup (List.nodup_finRange n)).mpr fun i => ?_
    refine iff_of_true ((counted.counts i).mpr ?_) (List.mem_finRange i)
    have finished := allFinished i
    cases phase : state.phases i with
    | finished result => rfl
    | _ =>
        rw [phase] at finished
        cases finished
  · funext messageId
    refine (counted.level messageId fun i member => ?_).symm
    have finished := allFinished i
    cases phase : state.phases i with
    | finished result =>
        rw [phase] at member
        simp [FlagPhase.ahead] at member
    | _ =>
        rw [phase] at finished
        cases finished

/-- Serial transactions change no flags but their own. -/
theorem mem_serialRows_iff {messageId : ℕ} {flag : Flag}
    (untouched : ∀ i, messageId ∈ (requests i).messages → (requests i).flag ≠ flag) :
    flag ∈ (serialRows tables requests order before messageId).getD defaultHistoricalFlags ↔
      flag ∈ (before messageId).getD defaultHistoricalFlags := by
  induction order using List.reverseRecOn with
  | nil => rfl
  | append_singleton order i inductionHypothesis =>
      rw [serialRows_snoc, FlagRequest.mem_alone_iff (untouched i), inductionHypothesis]

end Transactions

/-- The rows are those of a serial order, in which no transaction changes flags but its own. -/
structure NothingLost {n : ℕ} (tables : MessageTables) (requests : Fin n → FlagRequest)
    (before after : UserMessageRows) : Prop where
  serial : Serial tables requests before after
  untouched : ∀ (messageId : ℕ) (flag : Flag),
    (∀ i, messageId ∈ (requests i).messages → (requests i).flag ≠ flag) →
      (flag ∈ (after messageId).getD defaultHistoricalFlags ↔
        flag ∈ (before messageId).getD defaultHistoricalFlags)

/-- When no insert meets a row with flags of others, and no select without an insert misses a row that
would have to change, the transactions of every run that has finished leave the flags of a serial
order. -/
theorem flagUpdates_serial {n : ℕ} (tables : MessageTables) (requests : Fin n → FlagRequest)
    (before : UserMessageRows) {trace : List (FlagState n × Fin n)} {final : FlagState n}
    (run : Run (FlagStep tables requests) (FlagState.initial n before) trace final)
    (meetsNoChange : ∀ visit ∈ trace, MeetsNoChange tables requests visit.1 visit.2) :
    Run.Always (fun state => state.AllFinished → NothingLost tables requests before state.rows)
      trace final := by
  refine @Run.always_of_condition _ _ _
    (fun state => ∃ order, Counted tables requests before order state) _
    (MeetsNoChange tables requests) _ _ _ run ⟨[], counted_initial before⟩ ?_ ?_ meetsNoChange
  · rintro state ⟨order, counted⟩ allFinished
    have serial := counted.serial allFinished
    refine ⟨serial, fun messageId flag untouched => ?_⟩
    obtain ⟨order, -, isSerial⟩ := serial
    rw [isSerial]
    exact mem_serialRows_iff untouched
  · rintro state i next ⟨order, counted⟩ transition condition
    exact counted_step counted transition condition

theorem starred_editable : Flag.starred ∉ nonEditableFlags ∧ Flag.starred ∉ nonApiFlags := by
  decide

theorem collapsed_editable : Flag.collapsed ∉ nonEditableFlags ∧ Flag.collapsed ∉ nonApiFlags := by
  decide

def openTables : MessageTables := ⟨fun _ _ => true, fun _ _ => rfl, fun _ => false⟩

/-- A request about a message with a row, and one without. -/
def starRequest : FlagRequest := ⟨.add, .starred, [5, 7], starred_editable⟩

def collapseRequest : FlagRequest := ⟨.add, .collapsed, [5, 7], collapsed_editable⟩

def expandRequest : FlagRequest := ⟨.remove, .collapsed, [5, 7], collapsed_editable⟩

def unstarRequest : FlagRequest := ⟨.remove, .starred, [5, 7], starred_editable⟩

/-- Message 5 has been read, and message 7 has no row. -/
def oneRow (messageId : ℕ) : Option Flags := if messageId = 5 then some {.read} else none

/-- Two requests to star the messages, and one to expand them. -/
def starRequests (i : Fin 3) : FlagRequest := if i = 2 then expandRequest else starRequest

/-- All three have looked their rows up before the first commits. -/
theorem flagUpdates_serial_star :
    ∃ (trace : List (FlagState 3 × Fin 3)) (final : FlagState 3),
      Run (FlagStep openTables starRequests) (FlagState.initial 3 oneRow) trace final ∧
        final.AllFinished ∧ final.rows 7 = some {.read, .historical, .starred} ∧
        Run.Always (fun state => state.AllFinished →
          NothingLost openTables starRequests oneRow state.rows) trace final := by
  have lookedUp := Run.step (Run.step (Run.step .refl
    (@FlagStep.lookUp _ openTables starRequests (FlagState.initial 3 oneRow) 0 rfl))
    (@FlagStep.lookUp _ _ _ _ 1 rfl)) (@FlagStep.lookUp _ _ _ _ 2 rfl)
  have selectedFirst := Run.step lookedUp (@FlagStep.select _ _ _ _ 0 _ rfl (by decide))
  have checkedFirst :=
    Run.step selectedFirst (@FlagStep.check _ _ _ _ 0 _ rfl (by decide) (by decide))
  have insertedFirst := Run.step checkedFirst (@FlagStep.insert _ _ _ _ 0 _ rfl (by decide))
  have committedFirst := Run.step insertedFirst (@FlagStep.commit _ _ _ _ 0 _ _ rfl)
  have selectedThird := Run.step committedFirst (@FlagStep.select _ _ _ _ 2 _ rfl (by decide))
  have updatedThird := Run.step selectedThird (@FlagStep.update _ _ _ _ 2 _ rfl (by decide))
  have selectedSecond := Run.step updatedThird (@FlagStep.select _ _ _ _ 1 _ rfl (by decide))
  have checkedSecond :=
    Run.step selectedSecond (@FlagStep.check _ _ _ _ 1 _ rfl (by decide) (by decide))
  have insertedSecond := Run.step checkedSecond (@FlagStep.insert _ _ _ _ 1 _ rfl (by decide))
  have committedSecond := Run.step insertedSecond (@FlagStep.commit _ _ _ _ 1 _ _ rfl)
  exact ⟨_, _, committedSecond, by rw [FlagState.AllFinished]; decide, by decide,
    flagUpdates_serial openTables starRequests _ committedSecond (by decide)⟩

/-- Two requests have two orders. -/
theorem serial_two {tables : MessageTables} {requests : Fin 2 → FlagRequest}
    {before after : UserMessageRows} (serial : Serial tables requests before after) :
    after = serialRows tables requests [0, 1] before ∨
      after = serialRows tables requests [1, 0] before := by
  obtain ⟨order, isOrder, isSerial⟩ := serial
  have twoRequests : order.length = 2 := isOrder.length_eq.trans List.length_finRange
  obtain ⟨first, second, rfl⟩ := List.length_eq_two.mp twoRequests
  have distinct : first ≠ second := by
    have nodup := (List.Perm.nodup_iff isOrder).mpr (List.nodup_finRange 2)
    simpa using nodup
  have orders : ∀ first second : Fin 2, first ≠ second →
      first = 0 ∧ second = 1 ∨ first = 1 ∧ second = 0 := by decide
  rcases orders first second distinct with ⟨rfl, rfl⟩ | ⟨rfl, rfl⟩
  · exact .inl isSerial
  · exact .inr isSerial

/-- Two requests, one to star the messages and one to collapse them. -/
def raceRequests (i : Fin 2) : FlagRequest := if i = 0 then starRequest else collapseRequest

/-- When both have looked their rows up before the other one commits, the star is lost. -/
theorem raced_star_lost :
    ∃ (trace : List (FlagState 2 × Fin 2)) (final : FlagState 2),
      Run (FlagStep openTables raceRequests) (FlagState.initial 2 oneRow) trace final ∧
        final.AllFinished ∧ ¬Serial openTables raceRequests oneRow final.rows := by
  have lookedUp := Run.step (Run.step .refl
    (@FlagStep.lookUp _ openTables raceRequests (FlagState.initial 2 oneRow) 0 rfl))
    (@FlagStep.lookUp _ _ _ _ 1 rfl)
  have selectedStar := Run.step lookedUp (@FlagStep.select _ _ _ _ 0 _ rfl (by decide))
  have checkedStar :=
    Run.step selectedStar (@FlagStep.check _ _ _ _ 0 _ rfl (by decide) (by decide))
  have insertedStar := Run.step checkedStar (@FlagStep.insert _ _ _ _ 0 _ rfl (by decide))
  have committedStar := Run.step insertedStar (@FlagStep.commit _ _ _ _ 0 _ _ rfl)
  have selectedCollapse := Run.step committedStar (@FlagStep.select _ _ _ _ 1 _ rfl (by decide))
  have checkedCollapse :=
    Run.step selectedCollapse (@FlagStep.check _ _ _ _ 1 _ rfl (by decide) (by decide))
  have insertedCollapse := Run.step checkedCollapse (@FlagStep.insert _ _ _ _ 1 _ rfl (by decide))
  have committedCollapse := Run.step insertedCollapse (@FlagStep.commit _ _ _ _ 1 _ _ rfl)
  refine ⟨_, _, committedCollapse, by rw [FlagState.AllFinished]; decide, ?_⟩
  intro serial
  rcases serial_two serial with isSerial | isSerial
  · exact absurd (congrFun isSerial 7) (by decide)
  · exact absurd (congrFun isSerial 7) (by decide)

/-- Two requests, one to star the messages and one to take the stars away. -/
def unstarRequests (i : Fin 2) : FlagRequest := if i = 0 then starRequest else unstarRequest

/-- A row that is made while the second request waits for another one keeps its star. -/
theorem missed_star_kept :
    ∃ (trace : List (FlagState 2 × Fin 2)) (final : FlagState 2),
      Run (FlagStep openTables unstarRequests) (FlagState.initial 2 oneRow) trace final ∧
        final.AllFinished ∧ ¬Serial openTables unstarRequests oneRow final.rows := by
  have lookedUp := Run.step (Run.step .refl
    (@FlagStep.lookUp _ openTables unstarRequests (FlagState.initial 2 oneRow) 0 rfl))
    (@FlagStep.lookUp _ _ _ _ 1 rfl)
  have selectedStar := Run.step lookedUp (@FlagStep.select _ _ _ _ 0 _ rfl (by decide))
  have checkedStar :=
    Run.step selectedStar (@FlagStep.check _ _ _ _ 0 _ rfl (by decide) (by decide))
  have insertedStar := Run.step checkedStar (@FlagStep.insert _ _ _ _ 0 _ rfl (by decide))
  have committedStar := Run.step insertedStar (@FlagStep.commit _ _ _ _ 0 _ _ rfl)
  have selectedUnstar := Run.step committedStar (@FlagStep.select _ _ _ _ 1 _ rfl (by decide))
  have updatedUnstar := Run.step selectedUnstar (@FlagStep.update _ _ _ _ 1 _ rfl (by decide))
  refine ⟨_, _, updatedUnstar, by rw [FlagState.AllFinished]; decide, ?_⟩
  intro serial
  rcases serial_two serial with isSerial | isSerial
  · exact absurd (congrFun isSerial 7) (by decide)
  · exact absurd (congrFun isSerial 5) (by decide)

end Zulip.Messages
