import Mathlib.Data.Prod.Lex
import Mathlib.Order.WithBot
import Zulip.Foundation.Index
import Zulip.Foundation.Watermark
import Zulip.SoftDeactivation.UserMessages

/-!
# Adding the missing rows

`add_missing_messages` finds the messages that a soft-deactivated user is due and has no row
for, and inserts the rows in batches. `addMissingMessages_eq` says that what it inserts is
exactly what is missing, though it skips streams that the user left before
`last_active_message_id` and asks only for messages after it.
-/

namespace Zulip.SoftDeactivation

/-- `BULK_CREATE_BATCH_SIZE`. -/
def bulkCreateBatchSize : Nat := 10000

/-- One statement that `add_missing_messages` executes on the database. Each is committed by
itself. -/
inductive Write where
  | bulkInsertAllUms (messageIds : List Int) (flags : Nat)
  | updateLastActiveMessageId (messageId : Int)
deriving DecidableEq

/-- The order of the log query. Postgres sorts `NULL` last. -/
def logOrder (log : RealmAuditLog) : WithTop Int ×ₗ Nat := toLex (log.eventLastMessageId, log.id)

/-- The loop that groups the log entries by stream. -/
def groupLogs (subscriptionLogs : List RealmAuditLog) :
    Except Failure (Dict Nat (List RealmAuditLog)) :=
  subscriptionLogs.foldlM (fun allStreamSubscriptionLogs log => do
    let streamId ← assertIsNotNone log.modifiedStreamId
    .ok (allStreamSubscriptionLogs.append streamId log)) Dict.empty

/-- The condition of the `continue` in the loop that collects `recipient_ids`. -/
def isSkipped (streamSubscriptionLogs : List RealmAuditLog) (lastActiveMessageId : Int) :
    Except Failure Bool :=
  match streamSubscriptionLogs.getLast? with
  | none => .error .indexError
  | some last =>
      if last.eventType = .subscriptionDeactivated then do
        let eventLastMessageId ← assertIsNotNone last.eventLastMessageId
        .ok (decide (eventLastMessageId ≤ lastActiveMessageId))
      else .ok false

/-- The loop that collects `recipient_ids`. -/
def collectRecipientIds (allStreamSubscriptionLogs : Dict Nat (List RealmAuditLog))
    (lastActiveMessageId : Int) : List Nat → Except Failure (List Nat)
  | [] => .ok []
  | streamId :: rest => do
      let skipped ← isSkipped (allStreamSubscriptionLogs.getD streamId []) lastActiveMessageId
      let recipientIds ← collectRecipientIds allStreamSubscriptionLogs lastActiveMessageId rest
      .ok (if skipped then recipientIds else streamId :: recipientIds)

/-- The loop that inserts the rows. It ends after as many rounds as there are messages. -/
def insertBatches : Nat → List Int → List Write
  | 0, _ => []
  | rounds + 1, messageIdsToInsert =>
      match (messageIdsToInsert.take bulkCreateBatchSize).getLast? with
      | none => []
      | some last =>
          .bulkInsertAllUms (messageIdsToInsert.take bulkCreateBatchSize) 0 ::
            .updateLastActiveMessageId last ::
              insertBatches rounds (messageIdsToInsert.drop bulkCreateBatchSize)

namespace Database

/-- The rows of `Subscription` that the user has, active or not. -/
def allStreamSubs (db : Database) : List Nat := db.subscriptions.keys

/-- The query for the subscription log. -/
def subscriptionLogs (db : Database) : List RealmAuditLog :=
  ascending logOrder (db.auditLogs.filter fun log =>
    log.eventType.isSubscriptionEvent &&
      log.modifiedStreamId.any fun streamId => streamId ∈ db.allStreamSubs)

/-- The filter of the query for the messages without a row. -/
def withoutRow (db : Database) (recipientIds : List Nat) (lastActiveMessageId : Int)
    (message : Message) : Option MissingMessageDict :=
  match message.recipient with
  | .stream streamId =>
      if message.id ∉ db.userMessageIds ∧ streamId ∈ recipientIds ∧
          lastActiveMessageId < message.id then some ⟨message.id, streamId⟩ else none
  | .direct _ => none

/-- The query for the messages without a row. -/
def newStreamMsgs (db : Database) (recipientIds : List Nat) (lastActiveMessageId : Int) :
    List MissingMessageDict :=
  ascending MissingMessageDict.id
    (db.messages.filterMap (db.withoutRow recipientIds lastActiveMessageId))

/-- `add_missing_messages`: the statements that it executes. -/
def addMissingMessages (db : Database) : Except Failure (List Write) := do
  let lastActiveMessageId ← assertIsNotNone db.lastActiveMessageId
  let allStreamSubscriptionLogs ← groupLogs db.subscriptionLogs
  let recipientIds ←
    collectRecipientIds allStreamSubscriptionLogs lastActiveMessageId db.allStreamSubs
  let streamMessages :=
    Dict.group MissingMessageDict.recipientTypeId (db.newStreamMsgs recipientIds lastActiveMessageId)
  let messageIdsToInsert ← filterBySubscriptionHistory streamMessages allStreamSubscriptionLogs
  .ok (insertBatches messageIdsToInsert.length messageIdsToInsert)

/-- What a statement does. -/
def execute (db : Database) : Write → Database
  | .bulkInsertAllUms messageIds flags =>
      db.bulkInsertUms (messageIds.map fun messageId => ⟨messageId, flags⟩)
  | .updateLastActiveMessageId messageId =>
      { db with
        lastActiveMessageId :=
          some (db.lastActiveMessageId.elim messageId fun last => max last messageId) }

/-- What several statements do. -/
def executeAll (db : Database) (writes : List Write) : Database := writes.foldl execute db

/-- `do_soft_deactivate_user`, with the log entry of `do_soft_deactivate_users`. -/
def doSoftDeactivateUser (db : Database) : Except Failure Database := do
  let lastActiveMessageId ←
    match db.userMessageIds.max? with
    | some lastReceived => .ok lastReceived
    | none => assertIsNotNone (db.messages.map Message.id).max?
  .ok ({ db with
    longTermIdle := true
    lastActiveMessageId := some lastActiveMessageId }.logEvent .userSoftDeactivated none none)

/-- `reactivate_user_if_soft_deactivated`. -/
def reactivateUserIfSoftDeactivated (db : Database) : Except Failure Database :=
  if db.longTermIdle then do
    let writes ← db.addMissingMessages
    .ok ({ db.executeAll writes with longTermIdle := false }.logEvent .userSoftActivated none none)
  else .ok db

end Database

/-! ## The queries -/

section Queries

variable {db : Database}

/-- The entries of the subscription log are in the order of the query already. -/
theorem subscriptionLogs_eq (consistent : Consistent db) :
    db.subscriptionLogs = db.auditLogs.filter fun log => log.eventType.isSubscriptionEvent := by
  have selected : (db.auditLogs.filter fun log => log.eventType.isSubscriptionEvent &&
      log.modifiedStreamId.any fun streamId => streamId ∈ db.allStreamSubs) =
        db.auditLogs.filter fun log => log.eventType.isSubscriptionEvent := by
    refine List.filter_congr fun log member => ?_
    cases subscriptionEvent : log.eventType.isSubscriptionEvent with
    | false => rfl
    | true =>
        obtain ⟨streamId, _, ofStream, _, _, known⟩ :=
          consistent.recorded log member subscriptionEvent
        rw [ofStream, Option.any_some, Bool.true_and]
        exact decide_eq_true known
  have ordered : Increasing logOrder
      (db.auditLogs.filter fun log => log.eventType.isSubscriptionEvent) := by
    refine List.Pairwise.imp_of_mem ?_
      (consistent.chronological.and (consistent.logIds.filter fun log =>
        log.eventType.isSubscriptionEvent))
    rintro earlier later earlierMember laterMember ⟨chronological, idBelow⟩
    obtain ⟨isLog, isSubscriptionEvent⟩ := List.mem_filter.mp earlierMember
    obtain ⟨_, first, _, firstDated, _⟩ := consistent.recorded earlier isLog isSubscriptionEvent
    obtain ⟨isLog, isSubscriptionEvent⟩ := List.mem_filter.mp laterMember
    obtain ⟨_, second, _, secondDated, _⟩ := consistent.recorded later isLog isSubscriptionEvent
    have within : first ≤ second := chronological first firstDated second secondDated
    rw [logOrder, logOrder, Prod.Lex.toLex_lt_toLex, firstDated, secondDated]
    rcases lt_or_eq_of_le within with below | same
    · exact Or.inl (WithTop.coe_lt_coe.mpr below)
    · exact Or.inr ⟨congrArg some same, idBelow⟩
  rw [Database.subscriptionLogs, selected]
  exact ordered.ascending_eq (List.Perm.refl _)

theorem groupLogs_eq {logs : List RealmAuditLog}
    (ofStream : ∀ log ∈ logs, log.modifiedStreamId.isSome) :
    groupLogs logs = .ok (Dict.group (fun log => log.modifiedStreamId.getD 0) logs) := by
  unfold groupLogs Dict.group
  generalize (Dict.empty : Dict Nat (List RealmAuditLog)) = dict
  induction logs generalizing dict with
  | nil => rfl
  | cons log rest inductionHypothesis =>
      obtain ⟨streamId, isStream⟩ := Option.isSome_iff_exists.mp (ofStream log List.mem_cons_self)
      simp only [List.foldlM_cons, List.foldl_cons, isStream, assertIsNotNone_some,
        Option.getD_some, bind, Except.bind]
      exact inductionHypothesis (fun other member => ofStream other (List.mem_cons_of_mem _ member)) _

/-- The loop gives every stream its log. -/
theorem groupLogs_subscriptionLogs (consistent : Consistent db) :
    ∃ logs, groupLogs db.subscriptionLogs = .ok logs ∧
      ∀ streamId, logs.getD streamId [] = db.streamLogs streamId := by
  have ofStream : ∀ log ∈ db.subscriptionLogs, log.modifiedStreamId.isSome := by
    intro log member
    rw [subscriptionLogs_eq consistent] at member
    obtain ⟨isLog, isSubscriptionEvent⟩ := List.mem_filter.mp member
    obtain ⟨streamId, _, ofStream, _⟩ := consistent.recorded log isLog isSubscriptionEvent
    simp [ofStream]
  refine ⟨_, groupLogs_eq ofStream, fun streamId => ?_⟩
  rw [Dict.getD_group]
  have sameKey : ∀ log ∈ db.subscriptionLogs,
      decide (log.modifiedStreamId.getD 0 = streamId) =
        decide (log.modifiedStreamId = some streamId) := by
    intro log member
    obtain ⟨known, isKnown⟩ := Option.isSome_iff_exists.mp (ofStream log member)
    simp [isKnown]
  rw [List.filter_congr sameKey, subscriptionLogs_eq consistent, List.filter_filter]
  exact List.filter_congr fun log _ => Bool.and_comm _ _

/-- The user left the stream before the bound. -/
def LeftBefore (logs : List RealmAuditLog) (bound : Int) : Prop :=
  ∃ last, logs.getLast? = some last ∧ last.eventType = .subscriptionDeactivated ∧
    ∃ left ∈ last.eventLastMessageId, left ≤ bound

theorem isSkipped_eq {logs : List RealmAuditLog} (history : SubscriptionHistory logs)
    (bound : Int) :
    ∃ skipped, isSkipped logs bound = .ok skipped ∧ (skipped = true ↔ LeftBefore logs bound) := by
  obtain ⟨last, isLast⟩ : ∃ last, logs.getLast? = some last :=
    ⟨_, List.getLast?_eq_some_getLast history.nonempty⟩
  obtain ⟨left, dated⟩ := Option.isSome_iff_exists.mp
    (history.dated last (List.mem_of_getLast? isLast))
  by_cases unsubscribed : last.eventType = .subscriptionDeactivated
  · exact ⟨decide (left ≤ bound), by simp [isSkipped, isLast, dated, unsubscribed, bind, Except.bind],
      by simp [LeftBefore, isLast, dated, unsubscribed]⟩
  · exact ⟨false, by simp [isSkipped, isLast, unsubscribed],
      by simp [LeftBefore, isLast, unsubscribed]⟩

/-- The streams that are not skipped. -/
theorem collectRecipientIds_eq {logs : Dict Nat (List RealmAuditLog)} (bound : Int)
    {streamIds : List Nat} (histories : ∀ streamId ∈ streamIds,
      SubscriptionHistory (logs.getD streamId [])) :
    ∃ recipientIds, collectRecipientIds logs bound streamIds = .ok recipientIds ∧
      ∀ streamId, streamId ∈ recipientIds ↔
        streamId ∈ streamIds ∧ ¬ LeftBefore (logs.getD streamId []) bound := by
  induction streamIds with
  | nil => exact ⟨[], rfl, by simp⟩
  | cons streamId rest inductionHypothesis =>
      obtain ⟨recipientIds, collected, members⟩ := inductionHypothesis
        fun other member => histories other (List.mem_cons_of_mem _ member)
      obtain ⟨skipped, decided, leftBefore⟩ :=
        isSkipped_eq (histories streamId List.mem_cons_self) bound
      refine ⟨if skipped then recipientIds else streamId :: recipientIds,
        by simp only [collectRecipientIds, decided, collected, bind, Except.bind],
        fun other => ?_⟩
      cases skipped with
      | true =>
          rw [if_pos rfl, members, List.mem_cons]
          constructor
          · rintro ⟨member, stays⟩
            exact ⟨Or.inr member, stays⟩
          · rintro ⟨rfl | member, stays⟩
            · exact absurd (leftBefore.mp rfl) stays
            · exact ⟨member, stays⟩
      | false =>
          rw [if_neg Bool.false_ne_true, List.mem_cons, members, List.mem_cons]
          constructor
          · rintro (rfl | ⟨member, stays⟩)
            · exact ⟨Or.inl rfl, fun left => Bool.false_ne_true (leftBefore.mpr left)⟩
            · exact ⟨Or.inr member, stays⟩
          · rintro ⟨rfl | member, stays⟩
            · exact Or.inl rfl
            · exact Or.inr ⟨member, stays⟩

/-- Nothing that the user received in a stream left before the bound is after the bound. -/
theorem LeftBefore.le_of_received {logs : List RealmAuditLog} {bound : Int}
    (leftBefore : LeftBefore logs bound)
    (chronological : logs.Pairwise fun earlier later => ∀ first ∈ earlier.eventLastMessageId,
      ∀ second ∈ later.eventLastMessageId, first ≤ second)
    {messageId : Int} (isReceived : received logs messageId = true) : messageId ≤ bound := by
  obtain ⟨last, isLast, unsubscribed, left, dated, within⟩ := leftBefore
  rcases received_iff.mp isReceived with ⟨before, log, after, split, _, reaches, _⟩ | ⟨_, ends⟩
  · obtain ⟨reached, logDated, upTo⟩ := reaches_iff.mp reaches
    have lastMember : log = last ∨ last ∈ after := by
      have inTail : (log :: after).getLast? = some last := by
        rw [split, List.getLast?_append_of_ne_nil _ (List.cons_ne_nil _ _)] at isLast
        exact isLast
      rcases List.mem_cons.mp (List.mem_of_getLast? inTail) with same | later
      · exact Or.inl same.symm
      · exact Or.inr later
    have reachedLeft : reached ≤ left := by
      rcases lastMember with rfl | later
      · rw [dated] at logDated
        cases logDated
        exact le_rfl
      · rw [split] at chronological
        exact (List.pairwise_cons.mp (List.pairwise_append.mp chronological).2.1).1 last later
          reached logDated left dated
    exact le_trans upTo (le_trans reachedLeft within)
  · obtain ⟨other, isOther, kind⟩ := endsSubscribed_iff.mp ends
    rw [isLast] at isOther
    cases isOther
    rw [unsubscribed] at kind
    rcases kind with impossible | impossible <;> cases impossible

variable {recipientIds : List Nat} {bound : Int}

theorem withoutRow_eq_some_iff {message : Message} {missing : MissingMessageDict} :
    db.withoutRow recipientIds bound message = some missing ↔
      message.id = missing.id ∧ message.recipient = .stream missing.recipientTypeId ∧
        message.id ∉ db.userMessageIds ∧ missing.recipientTypeId ∈ recipientIds ∧
          bound < message.id := by
  obtain ⟨id, recipientTypeId⟩ := missing
  unfold Database.withoutRow
  cases message.recipient with
  | direct toUser => simp
  | stream streamId =>
      dsimp only
      by_cases selected : message.id ∉ db.userMessageIds ∧ streamId ∈ recipientIds ∧
          bound < message.id
      · rw [if_pos selected]
        constructor
        · rintro ⟨⟩
          exact ⟨rfl, rfl, selected⟩
        · rintro ⟨rfl, ⟨⟩, _⟩
          rfl
      · rw [if_neg selected]
        refine ⟨fun impossible => absurd impossible (by simp), ?_⟩
        rintro ⟨_, ⟨⟩, wouldBe⟩
        exact absurd wouldBe selected

theorem mem_newStreamMsgs {missing : MissingMessageDict} :
    missing ∈ db.newStreamMsgs recipientIds bound ↔ ∃ message ∈ db.messages,
      message.id = missing.id ∧ message.recipient = .stream missing.recipientTypeId ∧
        message.id ∉ db.userMessageIds ∧ missing.recipientTypeId ∈ recipientIds ∧
          bound < message.id := by
  simp only [Database.newStreamMsgs, ascending, List.mem_insertionSort, List.mem_filterMap,
    withoutRow_eq_some_iff]

theorem increasing_newStreamMsgs (consistent : Consistent db) :
    Increasing MissingMessageDict.id (db.newStreamMsgs recipientIds bound) := by
  refine Increasing.ascending (List.pairwise_map.mpr ?_)
  refine List.Pairwise.filterMap _ ?_ consistent.increasing
  intro earlier later below first isFirst second isSecond
  rw [← (withoutRow_eq_some_iff.mp isFirst).1, ← (withoutRow_eq_some_iff.mp isSecond).1]
  exact ne_of_lt below

/-- The log of a stream that the user was ever subscribed to can be replayed. -/
theorem Consistent.subscriptionHistory (consistent : Consistent db) {streamId : Nat}
    (known : streamId ∈ db.subscriptions.keys) :
    SubscriptionHistory (db.streamLogs streamId) where
  nonempty := consistent.logged streamId known
  dated log member := by
    obtain ⟨isLog, matching⟩ := List.mem_filter.mp member
    rw [Bool.and_eq_true] at matching
    obtain ⟨_, last, _, dated, _⟩ := consistent.recorded log isLog matching.1
    simp [dated]
  subscriptionEvent log member := by
    have matching := (List.mem_filter.mp member).2
    rw [Bool.and_eq_true] at matching
    exact matching.1

/-- The user was subscribed to the streams whose messages are due. -/
theorem Consistent.known_of_received (consistent : Consistent db) {streamId : Nat}
    {messageId : Int} (isReceived : received (db.streamLogs streamId) messageId = true) :
    streamId ∈ db.subscriptions.keys := by
  have nonempty : db.streamLogs streamId ≠ [] := by
    intro none
    rw [none] at isReceived
    cases isReceived
  obtain ⟨log, member⟩ := List.exists_mem_of_ne_nil _ nonempty
  obtain ⟨isLog, matching⟩ := List.mem_filter.mp member
  rw [Bool.and_eq_true, decide_eq_true_eq] at matching
  obtain ⟨other, _, ofStream, _, _, known⟩ := consistent.recorded log isLog matching.1
  rw [matching.2] at ofStream
  cases ofStream
  exact known

theorem Consistent.chronological_streamLogs (consistent : Consistent db) (streamId : Nat) :
    (db.streamLogs streamId).Pairwise fun earlier later =>
      ∀ first ∈ earlier.eventLastMessageId, ∀ second ∈ later.eventLastMessageId,
        first ≤ second := by
  have part : (db.streamLogs streamId).Sublist
      (db.auditLogs.filter fun log => log.eventType.isSubscriptionEvent) := by
    refine List.monotone_filter_right _ fun log matching => ?_
    rw [Bool.and_eq_true] at matching
    exact matching.1
  exact consistent.chronological.sublist part

/-- What `add_missing_messages` inserts is what is missing, when nothing is missing up to the
bound and direct messages have their rows. -/
theorem addMissingMessages_eq (consistent : Consistent db)
    (isBound : db.lastActiveMessageId = some bound)
    (covered : CoveredUpTo db.due db.userMessageIds bound)
    (direct : ∀ message ∈ db.messages, message.recipient = .direct true →
      message.id ∈ db.userMessageIds) :
    ∃ ids, db.addMissingMessages = .ok (insertBatches ids.length ids) ∧
      Missing db.due db.userMessageIds ids := by
  obtain ⟨logs, grouped, logOf⟩ := groupLogs_subscriptionLogs consistent
  have historyOf : ∀ streamId ∈ db.allStreamSubs, SubscriptionHistory (logs.getD streamId []) := by
    intro streamId known
    rw [logOf]
    exact consistent.subscriptionHistory known
  obtain ⟨recipientIds, collected, recipients⟩ := collectRecipientIds_eq bound historyOf
  have isGroup : ∀ entry ∈ (Dict.group MissingMessageDict.recipientTypeId
      (db.newStreamMsgs recipientIds bound)).entries, ∀ missing, missing ∈ entry.2 ↔
        missing ∈ db.newStreamMsgs recipientIds bound ∧ missing.recipientTypeId = entry.1 := by
    intro entry member missing
    rw [(Dict.mem_entries_group.mp member).2, List.mem_filter, decide_eq_true_eq]
  have histories : ∀ entry ∈ (Dict.group MissingMessageDict.recipientTypeId
      (db.newStreamMsgs recipientIds bound)).entries,
        SubscriptionHistory (logs.getD entry.1 []) := by
    intro entry member
    obtain ⟨missing, inEntry⟩ :=
      List.exists_mem_of_ne_nil _ (Dict.mem_entries_group.mp member).1
    obtain ⟨isNew, ofStream⟩ := (isGroup entry member missing).mp inEntry
    obtain ⟨_, _, _, _, _, isRecipient, _⟩ := mem_newStreamMsgs.mp isNew
    rw [← ofStream]
    exact historyOf _ ((recipients _).mp isRecipient).1
  have ascending : ∀ entry ∈ (Dict.group MissingMessageDict.recipientTypeId
      (db.newStreamMsgs recipientIds bound)).entries, Ascending entry.2 := by
    intro entry member
    rw [(Dict.mem_entries_group.mp member).2]
    exact ((increasing_newStreamMsgs consistent).filter _).imp le_of_lt
  obtain ⟨ids, filtered, increasing, members⟩ := filterBySubscriptionHistory_eq histories ascending
  refine ⟨ids, ?_, increasing, fun messageId => ?_⟩
  · simp only [Database.addMissingMessages, isBound, assertIsNotNone_some, grouped, collected,
      filtered, bind, Except.bind]
  rw [members]
  constructor
  · rintro ⟨entry, isEntry, isId, isReceived⟩
    obtain ⟨missing, inEntry, rfl⟩ := List.mem_map.mp isId
    obtain ⟨isNew, ofStream⟩ := (isGroup entry isEntry missing).mp inEntry
    obtain ⟨message, member, sameId, recipient, noRow, _, _⟩ := mem_newStreamMsgs.mp isNew
    refine ⟨⟨message, member, sameId, ?_⟩, sameId ▸ noRow⟩
    rw [logOf, ← ofStream, ← sameId] at isReceived
    rw [Database.receives, recipient]
    exact isReceived
  · rintro ⟨⟨message, member, rfl, receives⟩, noRow⟩
    cases recipient : message.recipient with
    | direct toUser =>
        rw [Database.receives, recipient] at receives
        cases receives
        exact absurd (direct message member recipient) noRow
    | stream streamId =>
        have isReceived : received (db.streamLogs streamId) message.id = true := by
          rw [Database.receives, recipient] at receives
          exact receives
        have afterBound : bound < message.id := not_le.mp fun within =>
          noRow (covered message.id ⟨message, member, rfl, receives⟩ within)
        -- The shortcut never skips a stream in which something is missing.
        have notLeft : ¬ LeftBefore (logs.getD streamId []) bound := by
          rw [logOf]
          exact fun leftBefore => absurd
            (leftBefore.le_of_received (consistent.chronological_streamLogs streamId) isReceived)
            (not_le.mpr afterBound)
        have isRecipient : streamId ∈ recipientIds :=
          (recipients streamId).mpr ⟨consistent.known_of_received isReceived, notLeft⟩
        have isNew : ⟨message.id, streamId⟩ ∈ db.newStreamMsgs recipientIds bound :=
          mem_newStreamMsgs.mpr ⟨message, member, rfl, recipient, noRow, isRecipient, afterBound⟩
        have inGroup : (⟨message.id, streamId⟩ : MissingMessageDict) ∈
            (db.newStreamMsgs recipientIds bound).filter
              fun missing => missing.recipientTypeId = streamId :=
          List.mem_filter.mpr ⟨isNew, by simp⟩
        refine ⟨(streamId, _), Dict.mem_entries_group.mpr ⟨List.ne_nil_of_mem inGroup, rfl⟩,
          List.mem_map.mpr ⟨_, inGroup, rfl⟩, ?_⟩
        rw [logOf]
        exact isReceived

end Queries

end Zulip.SoftDeactivation
