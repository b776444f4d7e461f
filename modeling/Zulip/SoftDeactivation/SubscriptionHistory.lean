import Zulip.Foundation.Dict
import Zulip.Foundation.Window

/-!
# Replaying a subscription history

`filter_by_subscription_history` decides which messages of the user's streams the user
received, from the log of the user's subscription changes. `filterBySubscriptionHistory_eq`
says that the loop, which drops messages on a subscription and keeps them on an
unsubscription, answers for each message from the first log entry at or after it.
-/

namespace Zulip.SoftDeactivation

/-- The exceptions of this code. -/
inductive Failure where
  | assertionError (message : String)
  | indexError
deriving DecidableEq

/-- The `RealmAuditLog` event types that concern soft deactivation. -/
inductive EventType where
  | userSoftActivated
  | userSoftDeactivated
  | subscriptionCreated
  | subscriptionActivated
  | subscriptionDeactivated
  | other (code : Nat)
deriving DecidableEq

namespace EventType

/-- The integer in the database. -/
def code : EventType → Nat
  | userSoftActivated => 120
  | userSoftDeactivated => 121
  | subscriptionCreated => 301
  | subscriptionActivated => 302
  | subscriptionDeactivated => 303
  | other code => code

/-- `event_type in (SUBSCRIPTION_ACTIVATED, SUBSCRIPTION_CREATED)`. -/
def subscribes : EventType → Bool
  | subscriptionCreated | subscriptionActivated => true
  | _ => false

/-- The event types that `add_missing_messages` asks the log for. -/
def isSubscriptionEvent (eventType : EventType) : Bool :=
  eventType.subscribes || eventType = subscriptionDeactivated

@[simp] theorem isSubscriptionEvent_userSoftActivated :
    userSoftActivated.isSubscriptionEvent = false := rfl

@[simp] theorem isSubscriptionEvent_userSoftDeactivated :
    userSoftDeactivated.isSubscriptionEvent = false := rfl

end EventType

/-- The fields of a `RealmAuditLog` row that are read here. -/
structure RealmAuditLog where
  id : Nat
  eventType : EventType
  modifiedStreamId : Option Nat
  eventLastMessageId : Option Int
deriving DecidableEq

/-- `MissingMessageDict`. -/
structure MissingMessageDict where
  id : Int
  recipientTypeId : Nat
deriving DecidableEq

/-- `assert_is_not_none`. -/
def assertIsNotNone {α : Type} : Option α → Except Failure α
  | some value => .ok value
  | none => .error (.assertionError "")

/-- The loop on an unsubscription: add the ids up to the event. -/
def addUpTo (eventLastMessageId : Int) : List MissingMessageDict → List Int → List Int
  | [], messageIds => messageIds
  | message :: rest, messageIds =>
      if message.id ≤ eventLastMessageId then
        addUpTo eventLastMessageId rest (messageIds.insert message.id)
      else messageIds

/-- The loop on a subscription: slice the messages up to the event away, if one is after it. -/
def sliceAfter (eventLastMessageId : Int) (streamMessages : List MissingMessageDict) :
    List MissingMessageDict :=
  match streamMessages.findIdx? fun message => eventLastMessageId < message.id with
  | some index => streamMessages.drop index
  | none => streamMessages

/-- The branch for a subscription. -/
def skipUpTo (eventLastMessageId : Int) (streamMessages : List MissingMessageDict) :
    List MissingMessageDict :=
  let sliced := sliceAfter eventLastMessageId streamMessages
  -- Nothing is sliced when the first message is after the event and when none is.
  if streamMessages.length = sliced.length &&
      sliced.getLast?.any fun last => last.id ≤ eventLastMessageId then []
  else sliced

/-- The inner loop, over the log entries of one stream. -/
def replayLogs : List RealmAuditLog → List MissingMessageDict → List Int →
    Except Failure (List MissingMessageDict × List Int)
  | [], streamMessages, messageIds => .ok (streamMessages, messageIds)
  | logEntry :: rest, streamMessages, messageIds =>
      if streamMessages.length = 0 then .ok (streamMessages, messageIds)
      else do
        let eventLastMessageId ← assertIsNotNone logEntry.eventLastMessageId
        if logEntry.eventType = .subscriptionDeactivated then
          replayLogs rest streamMessages (addUpTo eventLastMessageId streamMessages messageIds)
        else if logEntry.eventType.subscribes then
          replayLogs rest (skipUpTo eventLastMessageId streamMessages) messageIds
        else
          .error (.assertionError
            (toString logEntry.eventType.code ++ " is not a subscription event."))

/-- The body of the outer loop. -/
def replayStream (streamSubscriptionLogs : List RealmAuditLog)
    (streamMessages : List MissingMessageDict) (messageIds : List Int) :
    Except Failure (List Int) := do
  let (streamMessages, messageIds) ← replayLogs streamSubscriptionLogs streamMessages messageIds
  if streamMessages.length > 0 then
    match streamSubscriptionLogs.getLast? with
    | none => .error .indexError
    | some last =>
        .ok (if last.eventType.subscribes then
          streamMessages.map MissingMessageDict.id ∪ messageIds else messageIds)
  else .ok messageIds

/-- `filter_by_subscription_history`. -/
def filterBySubscriptionHistory (allStreamMessages : Dict Nat (List MissingMessageDict))
    (allStreamSubscriptionLogs : Dict Nat (List RealmAuditLog)) : Except Failure (List Int) := do
  let messageIds ← allStreamMessages.entries.foldlM (fun messageIds entry =>
    replayStream (allStreamSubscriptionLogs.getD entry.1 []) entry.2 messageIds) []
  .ok (ascending id messageIds)

/-! ## What a history says of a message -/

/-- The entry was written when the message already existed. -/
def RealmAuditLog.reaches (log : RealmAuditLog) (messageId : Int) : Bool :=
  log.eventLastMessageId.any fun last => messageId ≤ last

/-- Whether the user was subscribed when a message was sent, for a user who after the last
entry is subscribed or not as given. -/
def subscribedAt (logs : List RealmAuditLog) (afterwards : Bool) (messageId : Int) : Bool :=
  match logs.find? fun log => log.reaches messageId with
  | some log => log.eventType = .subscriptionDeactivated
  | none => afterwards

/-- The last entry is a subscription. -/
def endsSubscribed (logs : List RealmAuditLog) : Bool :=
  logs.getLast?.any fun last => last.eventType.subscribes

/-- The first entry at or after the message is an unsubscription, or there is none and the
last entry is a subscription. -/
def received (logs : List RealmAuditLog) (messageId : Int) : Bool :=
  subscribedAt logs (endsSubscribed logs) messageId

/-- A log that the loop can read. -/
structure SubscriptionHistory (logs : List RealmAuditLog) : Prop where
  nonempty : logs ≠ []
  dated : ∀ log ∈ logs, log.eventLastMessageId.isSome
  subscriptionEvent : ∀ log ∈ logs, log.eventType.isSubscriptionEvent

instance (logs : List RealmAuditLog) : Decidable (SubscriptionHistory logs) :=
  decidable_of_iff (logs ≠ [] ∧ (∀ log ∈ logs, log.eventLastMessageId.isSome) ∧
      ∀ log ∈ logs, log.eventType.isSubscriptionEvent)
    ⟨fun ⟨nonempty, dated, subscriptionEvent⟩ => ⟨nonempty, dated, subscriptionEvent⟩,
      fun ⟨nonempty, dated, subscriptionEvent⟩ => ⟨nonempty, dated, subscriptionEvent⟩⟩

/-- Messages in ascending order. -/
def Ascending (messages : List MissingMessageDict) : Prop :=
  messages.Pairwise fun left right => left.id ≤ right.id

instance : DecidablePred Ascending := fun messages =>
  inferInstanceAs (Decidable (messages.Pairwise fun left right => left.id ≤ right.id))

section Loop

variable {eventLastMessageId : Int} {messages : List MissingMessageDict} {messageIds : List Int}

theorem mem_addUpTo (ascending : Ascending messages) {id : Int} :
    id ∈ addUpTo eventLastMessageId messages messageIds ↔
      id ∈ messageIds ∨ id ∈ messages.map MissingMessageDict.id ∧ id ≤ eventLastMessageId := by
  induction messages generalizing messageIds with
  | nil => simp [addUpTo]
  | cons head tail inductionHypothesis =>
      obtain ⟨headBelow, tailAscending⟩ := List.pairwise_cons.mp ascending
      rw [addUpTo, List.map_cons, List.mem_cons]
      by_cases within : head.id ≤ eventLastMessageId
      · rw [if_pos within, inductionHypothesis tailAscending, List.mem_insert_iff]
        constructor
        · rintro ((rfl | known) | ⟨member, reached⟩)
          · exact Or.inr ⟨Or.inl rfl, within⟩
          · exact Or.inl known
          · exact Or.inr ⟨Or.inr member, reached⟩
        · rintro (known | ⟨rfl | member, reached⟩)
          · exact Or.inl (Or.inr known)
          · exact Or.inl (Or.inl rfl)
          · exact Or.inr ⟨member, reached⟩
      · -- The loop breaks: no later message is within the event either.
        rw [if_neg within]
        refine ⟨Or.inl, ?_⟩
        rintro (known | ⟨rfl | member, reached⟩)
        · exact known
        · exact absurd reached within
        · obtain ⟨message, later, rfl⟩ := List.mem_map.mp member
          exact absurd (le_trans (headBelow message later) reached) within

theorem nodup_addUpTo (eventLastMessageId : Int) (messages : List MissingMessageDict)
    (distinct : messageIds.Nodup) : (addUpTo eventLastMessageId messages messageIds).Nodup := by
  induction messages generalizing messageIds with
  | nil => exact distinct
  | cons head tail inductionHypothesis =>
      rw [addUpTo]
      split
      · exact inductionHypothesis distinct.insert
      · exact distinct

theorem dropWhile_eq_filter (ascending : Ascending messages) :
    (messages.dropWhile fun message => message.id ≤ eventLastMessageId) =
      messages.filter fun message => eventLastMessageId < message.id := by
  induction messages with
  | nil => rfl
  | cons head tail inductionHypothesis =>
      obtain ⟨headBelow, tailAscending⟩ := List.pairwise_cons.mp ascending
      by_cases within : head.id ≤ eventLastMessageId
      · rw [List.dropWhile_cons_of_pos (by simpa using within),
          List.filter_cons_of_neg (by simpa using within), inductionHypothesis tailAscending]
      · have kept : (head :: tail).filter (fun message => eventLastMessageId < message.id) =
            head :: tail := by
          refine List.filter_eq_self.mpr fun message member => ?_
          rcases List.mem_cons.mp member with rfl | later
          · simpa using within
          · simpa using lt_of_lt_of_le (not_le.mp within) (headBelow message later)
        rw [List.dropWhile_cons_of_neg (by simpa using within), kept]

theorem sliceAfter_eq (ascending : Ascending messages)
    (found : ∃ message ∈ messages, eventLastMessageId < message.id) :
    sliceAfter eventLastMessageId messages =
      messages.filter fun message => eventLastMessageId < message.id := by
  have isSome : (messages.findIdx? fun message => eventLastMessageId < message.id).isSome := by
    simpa using found
  obtain ⟨index, isIndex⟩ := Option.isSome_iff_exists.mp isSome
  rw [sliceAfter, isIndex, ← dropWhile_eq_filter ascending, List.dropWhile_eq_drop_findIdx_not,
    ← (List.findIdx?_eq_some_iff_findIdx_eq.mp isIndex).2]
  simp only [← decide_not, not_le]

/-- A subscription leaves the messages after it. -/
theorem skipUpTo_eq (ascending : Ascending messages) :
    skipUpTo eventLastMessageId messages =
      messages.filter fun message => eventLastMessageId < message.id := by
  unfold skipUpTo
  by_cases found : ∃ message ∈ messages, eventLastMessageId < message.id
  · rw [sliceAfter_eq ascending found]
    dsimp only
    rcases last : (messages.filter fun message => eventLastMessageId < message.id).getLast? with
      _ | message
    · rw [last, Option.any_none, Bool.and_false, if_neg Bool.false_ne_true]
    · have kept : eventLastMessageId < message.id := by
        simpa using (List.mem_filter.mp (List.mem_of_getLast? last)).2
      rw [last, Option.any_some, decide_eq_false (not_le.mpr kept), Bool.and_false,
        if_neg Bool.false_ne_true]
  · have allWithin : ∀ message ∈ messages, message.id ≤ eventLastMessageId := by simpa using found
    have whole : sliceAfter eventLastMessageId messages = messages := by
      have notFound : (messages.findIdx? fun message => eventLastMessageId < message.id) = none := by
        simpa using allWithin
      rw [sliceAfter, notFound]
    have noneKept : messages.filter (fun message => eventLastMessageId < message.id) = [] := by
      simpa using allWithin
    rw [whole, noneKept]
    cases last : messages.getLast? with
    | none => simp [List.getLast?_eq_none_iff.mp last]
    | some message => simp [last, allWithin message (List.mem_of_getLast? last)]

end Loop

theorem mem_map_filter {messages : List MissingMessageDict} {last id : Int} :
    id ∈ (messages.filter fun message => last < message.id).map MissingMessageDict.id ↔
      id ∈ messages.map MissingMessageDict.id ∧ last < id := by
  simp only [List.mem_map, List.mem_filter, decide_eq_true_eq]
  constructor
  · rintro ⟨message, ⟨member, above⟩, rfl⟩
    exact ⟨⟨message, member, rfl⟩, above⟩
  · rintro ⟨⟨message, member, rfl⟩, above⟩
    exact ⟨message, ⟨member, above⟩, rfl⟩

theorem Ascending.filter {messages : List MissingMessageDict} (ascending : Ascending messages)
    (keep : MissingMessageDict → Bool) : Ascending (messages.filter keep) :=
  List.Pairwise.filter keep ascending

@[simp] theorem assertIsNotNone_some {α : Type} (value : α) :
    assertIsNotNone (some value) = .ok value := rfl

theorem subscribedAt_cons {log : RealmAuditLog} {rest : List RealmAuditLog} {last : Int}
    (dated : log.eventLastMessageId = some last) (afterwards : Bool) (messageId : Int) :
    subscribedAt (log :: rest) afterwards messageId =
      if messageId ≤ last then decide (log.eventType = .subscriptionDeactivated)
      else subscribedAt rest afterwards messageId := by
  by_cases reached : messageId ≤ last <;>
    simp [subscribedAt, RealmAuditLog.reaches, dated, reached]

/-- What the loop has found, with what it leaves over for the check of the last entry. -/
theorem replayLogs_eq {logs : List RealmAuditLog}
    (dated : ∀ log ∈ logs, log.eventLastMessageId.isSome)
    (subscriptionEvent : ∀ log ∈ logs, log.eventType.isSubscriptionEvent)
    {messages : List MissingMessageDict} (ascending : Ascending messages) {messageIds : List Int}
    (distinct : messageIds.Nodup) :
    ∃ rest found, replayLogs logs messages messageIds = .ok (rest, found) ∧ found.Nodup ∧
      ∀ afterwards : Bool, ∀ id,
        (id ∈ found ∨ afterwards = true ∧ id ∈ rest.map MissingMessageDict.id) ↔
          id ∈ messageIds ∨ id ∈ messages.map MissingMessageDict.id ∧
            subscribedAt logs afterwards id = true := by
  induction logs generalizing messages messageIds with
  | nil =>
      refine ⟨messages, messageIds, rfl, distinct, fun afterwards id => ?_⟩
      rw [subscribedAt, List.find?_nil, and_comm]
  | cons log logs inductionHypothesis =>
      obtain ⟨last, logDated⟩ := Option.isSome_iff_exists.mp (dated log List.mem_cons_self)
      have restHypothesis := @inductionHypothesis
        (fun other member => dated other (List.mem_cons_of_mem _ member))
        (fun other member => subscriptionEvent other (List.mem_cons_of_mem _ member))
      by_cases exhausted : messages.length = 0
      · refine ⟨messages, messageIds, by rw [replayLogs, if_pos exhausted], distinct, ?_⟩
        simp [List.length_eq_zero_iff.mp exhausted]
      · rw [replayLogs, if_neg exhausted, logDated, assertIsNotNone_some]
        by_cases unsubscribes : log.eventType = .subscriptionDeactivated
        · -- The messages up to the event are found, and stay in the list.
          obtain ⟨rest, found, replayed, foundDistinct, members⟩ := restHypothesis ascending
            (nodup_addUpTo last messages distinct)
          refine ⟨rest, found, ?_, foundDistinct, fun afterwards id => ?_⟩
          · simpa [bind, Except.bind, unsubscribes] using replayed
          · rw [members, mem_addUpTo ascending, subscribedAt_cons logDated]
            by_cases reached : id ≤ last
            · rw [if_pos reached, decide_eq_true unsubscribes]
              tauto
            · rw [if_neg reached]
              tauto
        · -- The messages up to the event are dropped.
          have subscribes : log.eventType.subscribes = true := by
            simpa [EventType.isSubscriptionEvent, unsubscribes] using
              subscriptionEvent log List.mem_cons_self
          obtain ⟨rest, found, replayed, foundDistinct, members⟩ := restHypothesis
            (ascending.filter fun message => last < message.id) distinct
          refine ⟨rest, found, ?_, foundDistinct, fun afterwards id => ?_⟩
          · simpa [bind, Except.bind, unsubscribes, subscribes, skipUpTo_eq ascending] using replayed
          · rw [members, mem_map_filter, subscribedAt_cons logDated]
            by_cases reached : id ≤ last
            · rw [if_pos reached, decide_eq_false unsubscribes]
              have notAbove := not_lt.mpr reached
              tauto
            · rw [if_neg reached]
              have above := not_le.mp reached
              tauto

/-- A stream's messages add those that the user received. -/
theorem replayStream_eq {logs : List RealmAuditLog} (history : SubscriptionHistory logs)
    {messages : List MissingMessageDict} (ascending : Ascending messages) {messageIds : List Int}
    (distinct : messageIds.Nodup) :
    ∃ found, replayStream logs messages messageIds = .ok found ∧ found.Nodup ∧
      ∀ id, id ∈ found ↔ id ∈ messageIds ∨ id ∈ messages.map MissingMessageDict.id ∧
        received logs id = true := by
  obtain ⟨rest, found, replayed, foundDistinct, members⟩ :=
    replayLogs_eq history.dated history.subscriptionEvent ascending distinct
  obtain ⟨last, isLast⟩ : ∃ last, logs.getLast? = some last :=
    ⟨_, List.getLast?_eq_some_getLast history.nonempty⟩
  have ends : endsSubscribed logs = last.eventType.subscribes := by simp [endsSubscribed, isLast]
  unfold replayStream received
  simp only [replayed, isLast, bind, Except.bind]
  by_cases some : rest.length > 0
  · rw [if_pos some]
    refine ⟨_, rfl, ?_, fun id => ?_⟩
    · split
      · exact foundDistinct.union _
      · exact foundDistinct
    · rw [← members, ends]
      cases last.eventType.subscribes <;> simp [or_comm]
  · have none : rest = [] := by simpa using some
    rw [if_neg some]
    refine ⟨found, rfl, foundDistinct, fun id => ?_⟩
    rw [← members, none]
    simp

/-- The outer loop collects what the streams add. -/
theorem foldlM_replayStream_eq {logs : Dict Nat (List RealmAuditLog)}
    {entries : List (Nat × List MissingMessageDict)}
    (histories : ∀ entry ∈ entries, SubscriptionHistory (logs.getD entry.1 []))
    (ascending : ∀ entry ∈ entries, Ascending entry.2) {messageIds : List Int}
    (distinct : messageIds.Nodup) :
    ∃ found, entries.foldlM (fun messageIds entry =>
        replayStream (logs.getD entry.1 []) entry.2 messageIds) messageIds = .ok found ∧
      found.Nodup ∧ ∀ id, id ∈ found ↔ id ∈ messageIds ∨ ∃ entry ∈ entries,
        id ∈ entry.2.map MissingMessageDict.id ∧ received (logs.getD entry.1 []) id = true := by
  induction entries generalizing messageIds with
  | nil => exact ⟨messageIds, rfl, distinct, by simp⟩
  | cons entry rest inductionHypothesis =>
      obtain ⟨added, replayed, addedDistinct, addedMembers⟩ :=
        replayStream_eq (histories entry List.mem_cons_self) (ascending entry List.mem_cons_self)
          distinct
      obtain ⟨found, collected, foundDistinct, foundMembers⟩ := inductionHypothesis
        (fun other member => histories other (List.mem_cons_of_mem _ member))
        (fun other member => ascending other (List.mem_cons_of_mem _ member)) addedDistinct
      refine ⟨found, ?_, foundDistinct, fun id => ?_⟩
      · rw [List.foldlM_cons, replayed]
        exact collected
      · rw [foundMembers, addedMembers, or_assoc, List.exists_mem_cons_iff]

/-- The ids of the messages that the user received, in order. -/
theorem filterBySubscriptionHistory_eq {messages : Dict Nat (List MissingMessageDict)}
    {logs : Dict Nat (List RealmAuditLog)}
    (histories : ∀ entry ∈ messages.entries, SubscriptionHistory (logs.getD entry.1 []))
    (ascending : ∀ entry ∈ messages.entries, Ascending entry.2) :
    ∃ ids, filterBySubscriptionHistory messages logs = .ok ids ∧ Increasing id ids ∧
      ∀ messageId, messageId ∈ ids ↔ ∃ entry ∈ messages.entries,
        messageId ∈ entry.2.map MissingMessageDict.id ∧
          received (logs.getD entry.1 []) messageId = true := by
  obtain ⟨found, collected, distinct, members⟩ :=
    foldlM_replayStream_eq histories ascending List.nodup_nil
  refine ⟨Zulip.ascending id found, ?_, Increasing.ascending (by simpa using distinct), ?_⟩
  · simp only [filterBySubscriptionHistory, collected, bind, Except.bind]
  · intro messageId
    rw [Zulip.ascending, List.mem_insertionSort, members]
    simp

/-- Nothing in the log is after the message: what counts is how the log ends. -/
theorem received_of_newest {logs : List RealmAuditLog} {messageId : Int}
    (newest : ∀ log ∈ logs, log.reaches messageId = false) :
    received logs messageId = endsSubscribed logs := by
  have noneReaches : logs.find? (fun log => log.reaches messageId) = none := by simpa using newest
  rw [received, subscribedAt, noneReaches]

@[simp] theorem endsSubscribed_snoc (logs : List RealmAuditLog) (log : RealmAuditLog) :
    endsSubscribed (logs ++ [log]) = log.eventType.subscribes := by
  simp [endsSubscribed]

/-- A change of the subscription is logged after the messages that were sent before it, and
does not change what was received of them. -/
theorem received_snoc {logs : List RealmAuditLog} {log : RealmAuditLog} {messageId : Int}
    (reaches : log.reaches messageId = true)
    (subscriptionEvent : log.eventType.isSubscriptionEvent = true)
    (changes : log.eventType.subscribes = !endsSubscribed logs) :
    received (logs ++ [log]) messageId = received logs messageId := by
  unfold received subscribedAt
  rw [List.find?_append, List.find?_singleton, if_pos reaches]
  cases logs.find? fun log => log.reaches messageId with
  | some first => rfl
  | none =>
      cases kind : log.eventType <;>
        simp_all [EventType.subscribes, EventType.isSubscriptionEvent]

/-! ## The contract -/

theorem reaches_eq_false_iff {log : RealmAuditLog} {messageId : Int} :
    log.reaches messageId = false ↔ ∀ last ∈ log.eventLastMessageId, last < messageId := by
  cases dated : log.eventLastMessageId <;> simp [RealmAuditLog.reaches, dated]

theorem reaches_iff {log : RealmAuditLog} {messageId : Int} :
    log.reaches messageId = true ↔ ∃ last ∈ log.eventLastMessageId, messageId ≤ last := by
  cases dated : log.eventLastMessageId <;> simp [RealmAuditLog.reaches, dated]

theorem endsSubscribed_iff {logs : List RealmAuditLog} :
    endsSubscribed logs = true ↔ ∃ last, logs.getLast? = some last ∧
      (last.eventType = .subscriptionCreated ∨ last.eventType = .subscriptionActivated) := by
  unfold endsSubscribed
  cases logs.getLast? with
  | none => simp
  | some last => cases kind : last.eventType <;> simp [EventType.subscribes, kind]

/-- `received` in terms of positions in the log. -/
theorem received_iff {logs : List RealmAuditLog} {messageId : Int} :
    received logs messageId = true ↔
      (∃ before log after, logs = before ++ log :: after ∧
        (∀ earlier ∈ before, earlier.reaches messageId = false) ∧
        log.reaches messageId = true ∧ log.eventType = .subscriptionDeactivated) ∨
      (∀ log ∈ logs, log.reaches messageId = false) ∧ endsSubscribed logs = true := by
  unfold received subscribedAt
  cases first : logs.find? fun log => log.reaches messageId with
  | none =>
      have noneReaches : ∀ log ∈ logs, log.reaches messageId = false := by simpa using first
      constructor
      · exact fun ends => Or.inr ⟨noneReaches, ends⟩
      · rintro (⟨before, log, after, rfl, _, reaches, _⟩ | ⟨_, ends⟩)
        · exact absurd reaches (by simp [noneReaches log (by simp)])
        · exact ends
  | some log =>
      obtain ⟨reaches, before, after, split, earlier⟩ := List.find?_eq_some_iff_append.mp first
      constructor
      · intro unsubscribes
        exact Or.inl ⟨before, log, after, split, by simpa using earlier, reaches,
          by simpa using unsubscribes⟩
      · rintro (⟨otherBefore, other, otherAfter, otherSplit, noneBefore, otherReaches, kind⟩ |
          ⟨noneReaches, _⟩)
        · have same : logs.find? (fun log => log.reaches messageId) = some other :=
            List.find?_eq_some_iff_append.mpr ⟨otherReaches, otherBefore, otherAfter, otherSplit,
              by simpa using noneBefore⟩
          rw [first] at same
          cases same
          simpa using kind
        · exact absurd reaches (by simp [noneReaches log (by simp [split])])

/-- The replay returns, in order and without duplicates, the messages whose first log entry
at or after them is an unsubscription, and those that no entry is after when the last entry
is a subscription. -/
theorem filterBySubscriptionHistory_exact {messages : Dict Nat (List MissingMessageDict)}
    {logs : Dict Nat (List RealmAuditLog)}
    (histories : ∀ entry ∈ messages.entries, SubscriptionHistory (logs.getD entry.1 []))
    (ascending : ∀ entry ∈ messages.entries, Ascending entry.2) :
    ∃ ids, filterBySubscriptionHistory messages logs = .ok ids ∧
      ids.Pairwise (fun left right => left < right) ∧
      ∀ messageId, messageId ∈ ids ↔ ∃ streamId stream, (streamId, stream) ∈ messages.entries ∧
        (∃ message ∈ stream, message.id = messageId) ∧
        ((∃ before log after, logs.getD streamId [] = before ++ log :: after ∧
            (∀ earlier ∈ before, ∀ last ∈ earlier.eventLastMessageId, last < messageId) ∧
            (∃ last ∈ log.eventLastMessageId, messageId ≤ last) ∧
            log.eventType = .subscriptionDeactivated) ∨
          (∀ log ∈ logs.getD streamId [], ∀ last ∈ log.eventLastMessageId, last < messageId) ∧
            ∃ last, (logs.getD streamId []).getLast? = some last ∧
              (last.eventType = .subscriptionCreated ∨ last.eventType = .subscriptionActivated)) := by
  obtain ⟨ids, filtered, increasing, members⟩ := filterBySubscriptionHistory_eq histories ascending
  refine ⟨ids, filtered, increasing, fun messageId => ?_⟩
  rw [members, Prod.exists]
  refine exists_congr fun streamId => exists_congr fun stream => and_congr_right fun _ => ?_
  simp only [List.mem_map, received_iff, reaches_eq_false_iff, reaches_iff, endsSubscribed_iff]

section Resubscribed

private def resubscribedMessages : Dict Nat (List MissingMessageDict) :=
  Dict.ofList [(7, [⟨1, 7⟩, ⟨2, 7⟩, ⟨3, 7⟩, ⟨4, 7⟩, ⟨5, 7⟩])]

private def resubscribedLogs : Dict Nat (List RealmAuditLog) :=
  Dict.ofList [(7, [⟨0, .subscriptionCreated, some 7, some 1⟩,
    ⟨1, .subscriptionDeactivated, some 7, some 2⟩, ⟨2, .subscriptionActivated, some 7, some 3⟩])]

/-- A user who subscribed after message 1, unsubscribed after 2 and came back after 3. -/
theorem filterBySubscriptionHistory_exact_resubscribed :
    ∃ ids, filterBySubscriptionHistory resubscribedMessages resubscribedLogs = .ok ids ∧
      ids.Pairwise (fun left right => left < right) ∧ ids = [2, 4, 5] := by
  obtain ⟨ids, filtered, sorted, _⟩ :=
    @filterBySubscriptionHistory_exact resubscribedMessages resubscribedLogs (by decide) (by decide)
  have evaluated : filterBySubscriptionHistory resubscribedMessages resubscribedLogs =
      .ok [2, 4, 5] := by decide
  exact ⟨ids, filtered, sorted, Except.ok.inj (filtered.symm.trans evaluated)⟩

end Resubscribed

end Zulip.SoftDeactivation
