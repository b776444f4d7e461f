import Mathlib.Data.Finset.Basic
import Zulip.Tornado.EventQueue

/-!
# What compressing flag updates preserves

A client replays `update_message_flags` events on its map from message ids to
flags. `push` merges the additions of a flag into one event and, apart from `read`,
its removals into another; each merged event takes the place of its latest part.
`Tracks` says what the queue then holds, and `Overtaken` when a replay of it ends
in another map than a replay of the pushed events.
-/

namespace Zulip.Tornado

/-- The flags that a client keeps for each message id. -/
abbrev FlagMap := Int → Finset String

/-- The update concerns this message. -/
def FlagsUpdate.names (update : FlagsUpdate) (message : Int) : Bool :=
  update.all || update.messages.contains message

namespace FlagMap

/-- What a client does with an `update_message_flags` event. -/
def applyUpdate (map : FlagMap) (update : FlagsUpdate) : FlagMap := fun message =>
  if update.names message then
    match update.operation with
    | .add => insert update.flag (map message)
    | .remove => (map message).erase update.flag
  else map message

/-- Other events do not concern the map. -/
def applyEvent (map : FlagMap) : EventBody → FlagMap
  | .updateMessageFlags update => map.applyUpdate update
  | _ => map

/-- Apply events in order. -/
def applyEvents (map : FlagMap) (events : List EventBody) : FlagMap :=
  events.foldl applyEvent map

end FlagMap

/-- The operation by which an event changes a flag of a message, if it does. -/
def EventBody.flagWrite (flag : String) (message : Int) : EventBody → Option FlagOperation
  | .updateMessageFlags update =>
      if update.flag = flag ∧ update.names message then
        some update.operation
      else none
  | _ => none

/-- Whether a flag is set after an operation on it, given whether it was before. -/
def FlagOperation.Leaves (before : Prop) : Option FlagOperation → Prop
  | some .add => True
  | some .remove => False
  | none => before

namespace FlagMap

theorem mem_applyEvent {map : FlagMap} {body : EventBody} {flag : String} {message : Int} :
    flag ∈ map.applyEvent body message ↔
      FlagOperation.Leaves (flag ∈ map message) (body.flagWrite flag message) := by
  cases body with
  | message event => rfl
  | plain event => rfl
  | updateMessageFlags update =>
      cases named : update.names message with
      | false => simp [applyEvent, applyUpdate, EventBody.flagWrite, named, FlagOperation.Leaves]
      | true =>
          by_cases sameFlag : update.flag = flag
          · cases operation : update.operation <;>
              simp [applyEvent, applyUpdate, EventBody.flagWrite, named, sameFlag, operation,
                FlagOperation.Leaves]
          · have otherFlag : flag ≠ update.flag := Ne.symm sameFlag
            cases operation : update.operation <;>
              simp [applyEvent, applyUpdate, EventBody.flagWrite, named, sameFlag, otherFlag,
                operation, FlagOperation.Leaves]

/-- After a replay, the last operation on a flag of a message decides. -/
theorem mem_applyEvents {map : FlagMap} {events : List EventBody} {flag : String} {message : Int} :
    flag ∈ map.applyEvents events message ↔
      FlagOperation.Leaves (flag ∈ map message)
        (lastWrite (EventBody.flagWrite flag message) events) := by
  induction events using List.reverseRecOn with
  | nil => rfl
  | append_singleton events last inductionHypothesis =>
      rw [applyEvents, List.foldl_append, List.foldl_cons, List.foldl_nil, mem_applyEvent,
        lastWrite_snoc]
      cases last.flagWrite flag message with
      | none => exact inductionHypothesis
      | some operation => cases operation <;> rfl

/-- Two replays agree from every map exactly when the last operation on every flag
of every message is the same in both. -/
theorem applyEvents_eq_iff {left right : List EventBody} :
    (∀ map : FlagMap, map.applyEvents left = map.applyEvents right) ↔
      ∀ flag message, lastWrite (EventBody.flagWrite flag message) left =
        lastWrite (EventBody.flagWrite flag message) right := by
  constructor
  · intro same flag message
    -- The empty map and the full one tell the three outcomes apart.
    have fromEmpty := congrFun (same fun _ => ∅) message
    have fromFull := congrFun (same fun _ => {flag}) message
    have emptyIff : flag ∈ (applyEvents (fun _ => ∅) left) message ↔
        flag ∈ (applyEvents (fun _ => ∅) right) message := by rw [fromEmpty]
    have fullIff : flag ∈ (applyEvents (fun _ => {flag}) left) message ↔
        flag ∈ (applyEvents (fun _ => {flag}) right) message := by rw [fromFull]
    rw [mem_applyEvents, mem_applyEvents] at emptyIff fullIff
    generalize lastWrite (EventBody.flagWrite flag message) left = leftWrite at *
    generalize lastWrite (EventBody.flagWrite flag message) right = rightWrite at *
    rcases leftWrite with _ | leftOperation <;> rcases rightWrite with _ | rightOperation <;>
      (try cases leftOperation) <;> (try cases rightOperation) <;>
      simp [FlagOperation.Leaves] at emptyIff fullIff ⊢
  · intro same map
    funext message
    ext flag
    rw [mem_applyEvents, mem_applyEvents, same]

end FlagMap

/-! ## Full types and writes -/

/-- The other operation. -/
def FlagOperation.opposite : FlagOperation → FlagOperation
  | .add => .remove
  | .remove => .add

theorem FlagOperation.eq_opposite {left right : FlagOperation} (differ : left ≠ right) :
    left = right.opposite := by
  cases left <;> cases right <;> first | rfl | exact absurd rfl differ

theorem FlagOperation.opposite_ne (operation : FlagOperation) : operation.opposite ≠ operation := by
  cases operation <;> simp [opposite]

/-- The full type determines the operation and the flag. -/
theorem flagsType_inj {leftOperation rightOperation : FlagOperation} {leftFlag rightFlag : String}
    (same : flagsType leftOperation leftFlag = flagsType rightOperation rightFlag) :
    leftOperation = rightOperation ∧ leftFlag = rightFlag := by
  have characters := congrArg String.toList same
  cases leftOperation <;> cases rightOperation <;>
    simp [flagsType, FlagOperation.name] at characters ⊢ <;> exact String.toList_inj.mp characters

namespace EventBody

/-- The event is no flag update for all messages. -/
def Listed : EventBody → Prop
  | .updateMessageFlags update => update.all = false
  | _ => True

/-- `push` compresses the event, as this operation on this flag. -/
def CompressedAs (operation : FlagOperation) (flag : String) (body : EventBody) : Prop :=
  body.compressible = true ∧ computeFullEventType body = flagsType operation flag

theorem flagWrite_updateMessageFlags {update : FlagsUpdate} {flag : String} {message : Int}
    {operation : FlagOperation} :
    (updateMessageFlags update).flagWrite flag message = some operation ↔
      update.flag = flag ∧ update.names message = true ∧ update.operation = operation := by
  simp [flagWrite, and_assoc]

theorem computeFullEventType_of_flagWrite {body : EventBody} (listed : body.Listed) {flag : String}
    {message : Int} {operation : FlagOperation}
    (writes : body.flagWrite flag message = some operation) :
    computeFullEventType body = flagsType operation flag := by
  cases body with
  | message event => cases writes
  | plain event => cases writes
  | updateMessageFlags update =>
      rw [computeFullEventType_updateMessageFlags listed]
      obtain ⟨rfl, _, rfl⟩ := flagWrite_updateMessageFlags.mp writes
      rfl

@[simp] theorem flagWrite_pruneInternalData (flag : String) (message : Int) (body : EventBody) :
    body.pruneInternalData.flagWrite flag message = body.flagWrite flag message := by
  cases body <;> rfl

end EventBody

/-- A merged event writes what either of its parts writes. -/
theorem flagWrite_mergeIntoVirtual {stored event : Event} {key : String}
    (storedUnder : EventQueue.StoredUnder key stored) (eventUnder : EventQueue.StoredUnder key event)
    {flag : String} {message : Int} {operation : FlagOperation} :
    (EventQueue.mergeIntoVirtual stored event).body.flagWrite flag message = some operation ↔
      stored.body.flagWrite flag message = some operation ∨
        event.body.flagWrite flag message = some operation := by
  have updateOf : ∀ {event : Event}, EventQueue.StoredUnder key event →
      ∃ update, event.body = .updateMessageFlags update ∧ update.all = false := by
    intro event under
    have compressible : event.body.compressible = true := by
      rw [EventBody.compressible, under.fullType]
      exact under.virtual
    obtain ⟨update, isUpdate, listed, _⟩ := compressible_iff.mp compressible
    exact ⟨update, isUpdate, listed⟩
  obtain ⟨first, isFirst, firstListed⟩ := updateOf storedUnder
  obtain ⟨second, isSecond, secondListed⟩ := updateOf eventUnder
  have sameType : flagsType first.operation first.flag = flagsType second.operation second.flag := by
    rw [← computeFullEventType_updateMessageFlags firstListed, ← isFirst, storedUnder.fullType,
      ← computeFullEventType_updateMessageFlags secondListed, ← isSecond, eventUnder.fullType]
  obtain ⟨sameOperation, sameFlag⟩ := flagsType_inj sameType
  have namesMerged : FlagsUpdate.names { first with
      messages := first.messages ++ second.messages
      timestamp := second.timestamp <|> first.timestamp } message =
        (first.names message || second.names message) := by
    simp [FlagsUpdate.names, firstListed, secondListed]
  simp only [EventQueue.mergeIntoVirtual, isFirst, isSecond,
    EventBody.flagWrite_updateMessageFlags]
  rw [namesMerged, Bool.or_eq_true, sameOperation, sameFlag]
  tauto

/-! ## What the queue holds -/

/-- The pushed events with the ids that a fresh queue gives them. -/
def stamped (events : List EventBody) : List Event :=
  events.mapIdx fun position body => ⟨position, body⟩

@[simp] theorem stamped_snoc (events : List EventBody) (body : EventBody) :
    stamped (events ++ [body]) = stamped events ++ [⟨events.length, body⟩] := by
  simp [stamped]

@[simp] theorem map_body_stamped (events : List EventBody) :
    (stamped events).map Event.body = events := by
  induction events using List.reverseRecOn with
  | nil => rfl
  | append_singleton events body inductionHypothesis => simp [inductionHypothesis]

/-- Push events in order. -/
def EventQueue.pushAll (self : EventQueue) (events : List EventBody) : EventQueue :=
  events.foldl EventQueue.push self

/-- A virtual event stands for the compressed events of its full type: it has the
id of the latest one and writes what any of them writes. -/
structure MergedUnder (history : List Event) (fullEventType : String) (merged : Event) : Prop where
  latest : ∃ event ∈ history, event.body.compressible = true ∧
    computeFullEventType event.body = fullEventType ∧ event.id = merged.id
  newest : ∀ event ∈ history, event.body.compressible = true →
    computeFullEventType event.body = fullEventType → event.id ≤ merged.id
  writes : ∀ flag message operation, merged.body.flagWrite flag message = some operation ↔
    ∃ event ∈ history, event.body.compressible = true ∧
      computeFullEventType event.body = fullEventType ∧
      event.body.flagWrite flag message = some operation

/-- The queue holds the events of a history: those that are not compressed as they
were pushed, the others merged. -/
structure Tracks (history : List Event) (eventQueue : EventQueue) : Prop where
  valid : eventQueue.Valid
  increasing : Increasing Event.id history
  below : ∀ event ∈ history, event.id < eventQueue.nextEventId
  queued : eventQueue.queue = history.filter fun event => !event.body.compressible
  merged : ∀ entry ∈ eventQueue.virtualEvents.entries, MergedUnder history entry.1 entry.2
  covered : ∀ event ∈ history, event.body.compressible = true →
    computeFullEventType event.body ∈ eventQueue.virtualEvents.keys

namespace MergedUnder

variable {history : List Event} {key : String} {merged event : Event}

/-- An event that is not compressed under this full type does not matter. -/
theorem snoc_other (mergedUnder : MergedUnder history key merged)
    (other : event.body.compressible = true → computeFullEventType event.body ≠ key) :
    MergedUnder (history ++ [event]) key merged := by
  obtain ⟨⟨newest, member, isNewest⟩, newestBound, writes⟩ := mergedUnder
  refine ⟨⟨newest, List.mem_append_left _ member, isNewest⟩, ?_, ?_⟩
  · intro found foundMember compressible sameType
    rcases List.mem_append.mp foundMember with earlier | latest
    · exact newestBound found earlier compressible sameType
    · rw [List.mem_singleton.mp latest] at compressible sameType
      exact absurd sameType (other compressible)
  · intro flag message operation
    rw [writes]
    constructor
    · rintro ⟨found, foundMember, isFound⟩
      exact ⟨found, List.mem_append_left _ foundMember, isFound⟩
    · rintro ⟨found, foundMember, compressible, sameType, write⟩
      rcases List.mem_append.mp foundMember with earlier | latest
      · exact ⟨found, earlier, compressible, sameType, write⟩
      · rw [List.mem_singleton.mp latest] at compressible sameType
        exact absurd sameType (other compressible)

/-- The first event of a full type stands for itself. -/
theorem first (none : ∀ earlier ∈ history, earlier.body.compressible = true →
      computeFullEventType earlier.body ≠ key)
    (under : EventQueue.StoredUnder key event) : MergedUnder (history ++ [event]) key event := by
  have compressible : event.body.compressible = true := by
    rw [EventBody.compressible, under.fullType]
    exact under.virtual
  refine ⟨⟨event, by simp, compressible, under.fullType, rfl⟩, ?_, ?_⟩
  · intro found member foundCompressible sameType
    rcases List.mem_append.mp member with earlier | latest
    · exact absurd sameType (none found earlier foundCompressible)
    · rw [List.mem_singleton.mp latest]
  · intro flag message operation
    constructor
    · intro writes
      exact ⟨event, by simp, compressible, under.fullType, writes⟩
    · rintro ⟨found, member, foundCompressible, sameType, writes⟩
      rcases List.mem_append.mp member with earlier | latest
      · exact absurd sameType (none found earlier foundCompressible)
      · rwa [List.mem_singleton.mp latest] at writes

/-- A later event of the same full type is merged in. -/
theorem merge (mergedUnder : MergedUnder history key merged)
    (stored : EventQueue.StoredUnder key merged) (under : EventQueue.StoredUnder key event)
    (below : ∀ earlier ∈ history, earlier.id < event.id) :
    MergedUnder (history ++ [event]) key (EventQueue.mergeIntoVirtual merged event) := by
  have compressible : event.body.compressible = true := by
    rw [EventBody.compressible, under.fullType]
    exact under.virtual
  refine ⟨⟨event, by simp, compressible, under.fullType, rfl⟩, ?_, ?_⟩
  · intro found member _ _
    rcases List.mem_append.mp member with earlier | latest
    · exact le_of_lt (below found earlier)
    · rw [List.mem_singleton.mp latest]
      exact le_refl _
  · intro flag message operation
    rw [flagWrite_mergeIntoVirtual stored under, mergedUnder.writes]
    constructor
    · rintro (⟨found, member, isFound⟩ | writes)
      · exact ⟨found, List.mem_append_left _ member, isFound⟩
      · exact ⟨event, by simp, compressible, under.fullType, writes⟩
    · rintro ⟨found, member, foundCompressible, sameType, writes⟩
      rcases List.mem_append.mp member with earlier | latest
      · exact Or.inl ⟨found, earlier, foundCompressible, sameType, writes⟩
      · rw [List.mem_singleton.mp latest] at writes
        exact Or.inr writes

end MergedUnder

namespace Tracks

theorem new (id : String) : Tracks [] (.new id) where
  valid := EventQueue.new_valid id
  increasing := Increasing.nil
  below := by simp
  queued := rfl
  merged := by simp [EventQueue.new]
  covered := by simp

variable {history : List Event} {eventQueue : EventQueue}

/-- What a compressed push stores stands for its full type. -/
theorem nextVirtualEvent (tracks : Tracks history eventQueue) {body : EventBody}
    (compressible : body.compressible = true) :
    MergedUnder (history ++ [⟨eventQueue.nextEventId, body⟩]) (computeFullEventType body)
      (eventQueue.nextVirtualEvent ⟨eventQueue.nextEventId, body⟩) := by
  have under : EventQueue.StoredUnder (computeFullEventType body)
      ⟨eventQueue.nextEventId, body⟩ := ⟨rfl, compressible⟩
  unfold EventQueue.nextVirtualEvent
  cases found : eventQueue.virtualEvents.get? (computeFullEventType body) with
  | none =>
      refine MergedUnder.first ?_ under
      intro earlier member earlierCompressible sameType
      have listed := tracks.covered earlier member earlierCompressible
      rw [sameType] at listed
      exact Dict.get?_eq_none_iff.mp found listed
  | some stored =>
      have entry := Dict.get?_eq_some_iff.mp found
      exact (tracks.merged _ entry).merge (tracks.valid.stored _ entry) under tracks.below

/-- Pushing an event tracks the history with that event at its end. -/
theorem push (tracks : Tracks history eventQueue) (body : EventBody) :
    Tracks (history ++ [⟨eventQueue.nextEventId, body⟩]) (eventQueue.push body) := by
  refine ⟨EventQueue.push_valid tracks.valid body, ?_, ?_, ?_, ?_, ?_⟩
  · simpa using ⟨tracks.increasing, tracks.below⟩
  · intro event member
    rw [EventQueue.push_nextEventId]
    rcases List.mem_append.mp member with earlier | latest
    · exact lt_trans (tracks.below event earlier) (Int.lt_succ _)
    · rw [List.mem_singleton.mp latest]
      exact Int.lt_succ _
  · rw [EventQueue.push_queue, List.filter_append, tracks.queued]
    cases compressible : body.compressible <;> simp [compressible]
  · intro entry member
    cases compressible : body.compressible with
    | false =>
        rw [EventQueue.push_of_not_compressible compressible] at member
        exact (tracks.merged entry member).snoc_other (by simp [compressible])
    | true =>
        rcases (EventQueue.mem_virtualEvents_push compressible).mp member with rfl | ⟨old, other⟩
        · exact tracks.nextVirtualEvent compressible
        · exact (tracks.merged entry old).snoc_other fun _ => Ne.symm other
  · intro event member eventCompressible
    cases compressible : body.compressible with
    | false =>
        rw [EventQueue.push_of_not_compressible compressible]
        rcases List.mem_append.mp member with earlier | latest
        · exact tracks.covered event earlier eventCompressible
        · rw [List.mem_singleton.mp latest, compressible] at eventCompressible
          cases eventCompressible
    | true =>
        rw [EventQueue.push_of_compressible compressible, Dict.mem_keys_set]
        rcases List.mem_append.mp member with earlier | latest
        · exact Or.inr (tracks.covered event earlier eventCompressible)
        · rw [List.mem_singleton.mp latest]
          exact Or.inl rfl

/-- A fresh queue tracks everything that is pushed into it. -/
theorem pushAll (id : String) (events : List EventBody) :
    Tracks (stamped events) ((EventQueue.new id).pushAll events) ∧
      ((EventQueue.new id).pushAll events).nextEventId = events.length := by
  induction events using List.reverseRecOn with
  | nil => exact ⟨new id, rfl⟩
  | append_singleton events body inductionHypothesis =>
      obtain ⟨tracks, next⟩ := inductionHypothesis
      have pushed : (EventQueue.new id).pushAll (events ++ [body]) =
          ((EventQueue.new id).pushAll events).push body := by
        simp [EventQueue.pushAll]
      rw [pushed, stamped_snoc, ← next]
      refine ⟨tracks.push body, ?_⟩
      rw [EventQueue.push_nextEventId, next, List.length_append]
      rfl

end Tracks

/-! ## When a replay of the queue goes wrong -/

/-- The last operation that names the message for the flag is overtaken: a merged
event of the opposite operation, which names the message too, moves behind it, and no
merged event of its own operation moves further back. -/
def OvertakenAt (flag : String) (message : Int) (history : List Event) : Prop :=
  ∃ operation, ∃ settled ∈ history, settled.body.flagWrite flag message = some operation ∧
    (∀ other ∈ history, other.body.flagWrite flag message ≠ none → other.id ≤ settled.id) ∧
    (∃ named ∈ history, named.body.compressible = true ∧
      named.body.flagWrite flag message = some operation.opposite) ∧
    ∃ later ∈ history, settled.id < later.id ∧ later.body.CompressedAs operation.opposite flag ∧
      ∀ after ∈ history, later.id < after.id → ¬ after.body.CompressedAs operation flag

/-- Some message and flag are overtaken. -/
def Overtaken (history : List Event) : Prop :=
  ∃ flag message, OvertakenAt flag message history

namespace Tracks

variable {history : List Event} {eventQueue : EventQueue} {flag : String} {message : Int}

/-- What `contents` returns: an event that was pushed as it is, or a merged one. -/
theorem flattened_cases (tracks : Tracks history eventQueue) {event : Event}
    (member : event ∈ eventQueue.flattened) :
    (event ∈ history ∧ event.body.compressible = false) ∨ ∃ key, MergedUnder history key event := by
  rcases (EventQueue.mem_flattened tracks.valid).mp member with virtual | queued
  · obtain ⟨key, entry⟩ := Dict.mem_values.mp virtual
    exact Or.inr ⟨key, tracks.merged _ entry⟩
  · rw [tracks.queued] at queued
    exact Or.inl (by simpa using List.mem_filter.mp queued)

/-- A pushed event that is not compressed is returned as it is. -/
theorem flattened_of_not_compressible (tracks : Tracks history eventQueue) {event : Event}
    (member : event ∈ history) (compressible : event.body.compressible = false) :
    event ∈ eventQueue.flattened := by
  rw [EventQueue.mem_flattened tracks.valid, tracks.queued]
  exact Or.inr (List.mem_filter.mpr ⟨member, by simp [compressible]⟩)

/-- A compressed event is returned as part of the merged event of its full type. -/
theorem flattened_of_compressible (tracks : Tracks history eventQueue) {event : Event}
    (member : event ∈ history) (compressible : event.body.compressible = true) :
    ∃ merged ∈ eventQueue.flattened,
      MergedUnder history (computeFullEventType event.body) merged := by
  obtain ⟨merged, found⟩ := Dict.mem_keys_iff.mp (tracks.covered event member compressible)
  have entry := Dict.get?_eq_some_iff.mp found
  refine ⟨merged, ?_, tracks.merged _ entry⟩
  exact (EventQueue.mem_flattened tracks.valid).mpr (Or.inl (Dict.mem_values.mpr ⟨_, entry⟩))

/-- Every write that is returned goes back to a pushed one, at or before its place. -/
theorem write_back (tracks : Tracks history eventQueue) {event : Event}
    (member : event ∈ eventQueue.flattened) {operation : FlagOperation}
    (writes : event.body.flagWrite flag message = some operation) :
    ∃ pushed ∈ history, pushed.body.flagWrite flag message = some operation ∧
      pushed.id ≤ event.id := by
  rcases tracks.flattened_cases member with ⟨pushed, _⟩ | ⟨key, merged⟩
  · exact ⟨event, pushed, writes, le_refl _⟩
  · obtain ⟨pushed, pushedMember, compressible, sameType, pushedWrites⟩ :=
      (merged.writes flag message operation).mp writes
    exact ⟨pushed, pushedMember, pushedWrites, merged.newest pushed pushedMember compressible sameType⟩

/-- Every pushed write is returned, at or behind its place. -/
theorem write_forward (tracks : Tracks history eventQueue) {pushed : Event}
    (member : pushed ∈ history) {operation : FlagOperation}
    (writes : pushed.body.flagWrite flag message = some operation) :
    ∃ event ∈ eventQueue.flattened, event.body.flagWrite flag message = some operation ∧
      pushed.id ≤ event.id := by
  cases compressible : pushed.body.compressible with
  | false =>
      exact ⟨pushed, tracks.flattened_of_not_compressible member compressible, writes, le_refl _⟩
  | true =>
      obtain ⟨merged, mergedMember, mergedUnder⟩ :=
        tracks.flattened_of_compressible member compressible
      exact ⟨merged, mergedMember,
        (mergedUnder.writes flag message operation).mpr ⟨pushed, member, compressible, rfl, writes⟩,
        mergedUnder.newest pushed member compressible rfl⟩

/-- An overtaken operation is undone: the replay of the queue ends with its opposite. -/
theorem lastWrite_of_overtaken (tracks : Tracks history eventQueue)
    (listed : ∀ event ∈ history, event.body.Listed)
    (overtaken : OvertakenAt flag message history) :
    ∃ operation,
      lastWrite (fun event => event.body.flagWrite flag message) history = some operation ∧
      lastWrite (fun event => event.body.flagWrite flag message) eventQueue.flattened =
        some operation.opposite := by
  obtain ⟨operation, settled, settledMember, settledWrites, settledLast,
    ⟨named, namedMember, namedCompressible, namedWrites⟩,
    later, laterMember, settledBefore, ⟨laterCompressible, laterType⟩, lastOfOperation⟩ := overtaken
  refine ⟨operation, ?_, ?_⟩
  · exact tracks.increasing.lastWrite_eq_some_iff.mpr
      ⟨settled, settledMember, settledWrites, settledLast⟩
  obtain ⟨merged, mergedMember, mergedUnder⟩ :=
    tracks.flattened_of_compressible namedMember namedCompressible
  have key := EventBody.computeFullEventType_of_flagWrite (listed named namedMember) namedWrites
  have laterWithin : later.id ≤ merged.id :=
    mergedUnder.newest later laterMember laterCompressible (laterType.trans key.symm)
  refine (EventQueue.flattened_increasing tracks.valid).lastWrite_eq_some_iff.mpr
    ⟨merged, mergedMember, (mergedUnder.writes flag message _).mpr
      ⟨named, namedMember, namedCompressible, rfl, namedWrites⟩, ?_⟩
  intro event eventMember eventWrites
  rcases tracks.flattened_cases eventMember with ⟨pushed, _⟩ | ⟨eventKey, eventMerged⟩
  · have settledWithin := settledLast event pushed eventWrites
    omega
  · obtain ⟨written, isWritten⟩ := Option.ne_none_iff_exists'.mp eventWrites
    obtain ⟨part, partMember, partCompressible, partType, partWrites⟩ :=
      (eventMerged.writes flag message written).mp isWritten
    have eventKeyIs : eventKey = flagsType written flag :=
      partType.symm.trans
        (EventBody.computeFullEventType_of_flagWrite (listed part partMember) partWrites)
    obtain ⟨newest, newestMember, newestCompressible, newestType, newestId⟩ := eventMerged.latest
    by_cases sameOperation : written = operation
    · -- The merged event of the settled operation does not get past `later`.
      have notAfter : ¬ later.id < newest.id := fun after =>
        lastOfOperation newest newestMember after
          ⟨newestCompressible, by rw [newestType, eventKeyIs, sameOperation]⟩
      omega
    · have isOpposite := FlagOperation.eq_opposite sameOperation
      have within := mergedUnder.newest newest newestMember newestCompressible
        (by rw [newestType, eventKeyIs, isOpposite, key])
      omega

/-- An operation that is not overtaken is the last one in the replay of the queue too. -/
theorem lastWrite_or_overtaken (tracks : Tracks history eventQueue)
    (listed : ∀ event ∈ history, event.body.Listed) {operation : FlagOperation}
    (isLast : lastWrite (fun event => event.body.flagWrite flag message) history =
      some operation) :
    lastWrite (fun event => event.body.flagWrite flag message) eventQueue.flattened =
      some operation ∨ OvertakenAt flag message history := by
  obtain ⟨settled, settledMember, settledWrites, settledLast⟩ :=
    tracks.increasing.lastWrite_eq_some_iff.mp isLast
  obtain ⟨returned, returnedMember, returnedWrites, settledWithin⟩ :=
    tracks.write_forward settledMember settledWrites
  have flattenedIncreasing := EventQueue.flattened_increasing tracks.valid
  cases final : lastWrite (fun event => event.body.flagWrite flag message)
      eventQueue.flattened with
  | none =>
      have noWrite := lastWrite_eq_none_iff.mp final returned returnedMember
      simp [returnedWrites] at noWrite
  | some written =>
      by_cases sameOperation : written = operation
      · exact Or.inl (by rw [sameOperation])
      right
      obtain ⟨last, lastMember, lastWrites, lastLargest⟩ :=
        flattenedIncreasing.lastWrite_eq_some_iff.mp final
      have settledBound : settled.id ≤ last.id :=
        le_trans settledWithin (lastLargest returned returnedMember (by simp [returnedWrites]))
      rcases tracks.flattened_cases lastMember with ⟨pushed, _⟩ | ⟨key, merged⟩
      · -- A write that was pushed as it is cannot be behind the last one.
        have bound := settledLast last pushed (by simp [lastWrites])
        have same := tracks.increasing.eq_of_key_eq pushed settledMember (le_antisymm bound settledBound)
        rw [same, settledWrites] at lastWrites
        exact absurd (Option.some.inj lastWrites).symm sameOperation
      · obtain ⟨named, namedMember, namedCompressible, namedType, namedWrites⟩ :=
          (merged.writes flag message written).mp lastWrites
        have keyIs : key = flagsType written flag := namedType.symm.trans
          (EventBody.computeFullEventType_of_flagWrite (listed named namedMember) namedWrites)
        obtain ⟨later, laterMember, laterCompressible, laterType, laterId⟩ := merged.latest
        have settledType := EventBody.computeFullEventType_of_flagWrite
          (listed settled settledMember) settledWrites
        have isOpposite := FlagOperation.eq_opposite sameOperation
        refine ⟨operation, settled, settledMember, settledWrites, settledLast,
          ⟨named, namedMember, namedCompressible, by rw [namedWrites, isOpposite]⟩,
          later, laterMember, ?_, ⟨laterCompressible, by rw [laterType, keyIs, isOpposite]⟩, ?_⟩
        · refine lt_of_le_of_ne (laterId ▸ settledBound) fun sameId => sameOperation ?_
          have same := tracks.increasing.eq_of_key_eq settledMember laterMember sameId
          rw [← same, settledType, keyIs] at laterType
          exact (flagsType_inj laterType).1.symm
        · -- Otherwise the merged event of the settled operation would come last.
          rintro after afterMember afterLater ⟨afterCompressible, afterType⟩
          have settledCompressible : settled.body.compressible = true := by
            rw [EventBody.compressible, settledType, ← afterType]
            exact afterCompressible
          obtain ⟨own, ownMember, ownMerged⟩ :=
            tracks.flattened_of_compressible settledMember settledCompressible
          have ownWrites := (ownMerged.writes flag message operation).mpr
            ⟨settled, settledMember, settledCompressible, rfl, settledWrites⟩
          have ownBound := lastLargest own ownMember (by simp [ownWrites])
          have afterBound := ownMerged.newest after afterMember afterCompressible
            (afterType.trans settledType.symm)
          omega

/-- The replay of the queue ends with the same operation exactly when the last one
is not overtaken. -/
theorem lastWrite_eq_iff (tracks : Tracks history eventQueue)
    (listed : ∀ event ∈ history, event.body.Listed) :
    lastWrite (fun event => event.body.flagWrite flag message) eventQueue.flattened =
        lastWrite (fun event => event.body.flagWrite flag message) history ↔
      ¬ OvertakenAt flag message history := by
  constructor
  · intro same overtaken
    obtain ⟨operation, original, replayed⟩ := tracks.lastWrite_of_overtaken listed overtaken
    rw [same, original] at replayed
    exact operation.opposite_ne (Option.some.inj replayed).symm
  · intro notOvertaken
    cases original : lastWrite (fun event => event.body.flagWrite flag message) history with
    | some operation =>
        exact (tracks.lastWrite_or_overtaken listed original).resolve_right notOvertaken
    | none =>
        rw [lastWrite_eq_none_iff] at original ⊢
        intro event member
        by_contra writes
        obtain ⟨written, isWritten⟩ := Option.ne_none_iff_exists'.mp writes
        obtain ⟨pushed, pushedMember, pushedWrites, _⟩ := tracks.write_back member isWritten
        simp [original pushed pushedMember] at pushedWrites

end Tracks

/-- Replaying what `contents` returns gives the map that the pushed events give, from
every map, exactly when no operation is overtaken. -/
theorem applyEvents_contents_iff (id : String) (events : List EventBody)
    (listed : ∀ event ∈ events, event.Listed) :
    (∀ map : FlagMap,
      map.applyEvents (((EventQueue.new id).pushAll events).contents.2.map Event.body) =
        map.applyEvents events) ↔ ¬ Overtaken (stamped events) := by
  have tracks := (Tracks.pushAll id events).1
  have stampedListed : ∀ event ∈ stamped events, event.body.Listed := by
    intro event member
    refine listed event.body ?_
    rw [← map_body_stamped events]
    exact List.mem_map_of_mem member
  rw [FlagMap.applyEvents_eq_iff]
  have sides : ∀ flag message,
      (lastWrite (EventBody.flagWrite flag message)
          (((EventQueue.new id).pushAll events).contents.2.map Event.body) =
        lastWrite (EventBody.flagWrite flag message) events) ↔
      ¬ OvertakenAt flag message (stamped events) := by
    intro flag message
    rw [← tracks.lastWrite_eq_iff stampedListed]
    have returned : (((EventQueue.new id).pushAll events).contents.2.map Event.body) =
        ((EventQueue.new id).pushAll events).flattened.map
          (EventBody.pruneInternalData ∘ Event.body) := by
      simp [EventQueue.contents, pruneInternalData, Function.comp_def]
    have original : lastWrite (EventBody.flagWrite flag message) events =
        lastWrite (fun event : Event => event.body.flagWrite flag message) (stamped events) := by
      rw [← map_body_stamped events, lastWrite_map, map_body_stamped]
      rfl
    rw [returned, lastWrite_map, original]
    simp [Function.comp_def]
  simp only [sides, Overtaken, not_exists]

/-- Marking one message as read, then as unread, then another one as read. -/
def markedUnreadBetween : List EventBody :=
  [.updateMessageFlags { operation := .add, flag := "read", all := false, messages := [1] },
   .updateMessageFlags { operation := .remove, flag := "read", all := false, messages := [1] },
   .updateMessageFlags { operation := .add, flag := "read", all := false, messages := [2] }]

/-- The message that was marked as unread ends up as read. -/
theorem applyEvents_contents_markedUnread :
    ¬ ∀ (id : String) (events : List EventBody), (∀ event ∈ events, event.Listed) →
      ∀ map : FlagMap,
        map.applyEvents (((EventQueue.new id).pushAll events).contents.2.map Event.body) =
          map.applyEvents events := by
  intro preserves
  have same := congrFun (preserves "q" markedUnreadBetween (by
    simp [markedUnreadBetween, EventBody.Listed]) fun _ => ∅) 1
  revert same
  decide

/-- Marking two messages as read in turn is compressed without loss. -/
theorem applyEvents_contents_iff_read :
    let events : List EventBody :=
      [.updateMessageFlags { operation := .add, flag := "read", all := false, messages := [1] },
       .updateMessageFlags { operation := .add, flag := "read", all := false, messages := [2] }]
    (∀ map : FlagMap,
      map.applyEvents (((EventQueue.new "q").pushAll events).contents.2.map Event.body) =
        map.applyEvents events) ↔ ¬ Overtaken (stamped events) :=
  applyEvents_contents_iff "q" _ (by simp [EventBody.Listed])

end Zulip.Tornado
