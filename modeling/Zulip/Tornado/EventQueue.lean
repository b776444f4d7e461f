import Mathlib.Data.List.Sort
import Mathlib.Data.Int.Order.Basic
import Zulip.Foundation.Dict
import Zulip.Foundation.Increasing
import Zulip.Tornado.Event

/-!
# Event queues

`EventQueue` with `push`, `prune` and `contents`. `EventQueue.Valid` is what every
sequence of these calls keeps: ids below `next_event_id`, a queue in id order,
and virtual events that are stored under their own full type with ids that no
other stored event has. Under it `contents` is determined by its members.
-/

namespace Zulip.Tornado

/-- `EventQueue`. -/
structure EventQueue where
  queue : List Event
  nextEventId : Int
  /-- `none` only for queues loaded from releases that did not store it. -/
  newestPrunedId : Option Int
  id : String
  virtualEvents : Dict String Event
deriving DecidableEq

namespace EventQueue

/-- The constructor `EventQueue(id)`. -/
def new (id : String) : EventQueue := ⟨[], 0, some (-1), id, .empty⟩

/-- The virtual event after `push` has merged one more event into it. The body
cases left over never meet: `Valid.stored` puts a flag update under every key. -/
def mergeIntoVirtual (virtualEvent event : Event) : Event where
  id := event.id
  body :=
    match virtualEvent.body, event.body with
    | .updateMessageFlags stored, .updateMessageFlags update =>
        .updateMessageFlags { stored with
          messages := stored.messages ++ update.messages
          timestamp := update.timestamp <|> stored.timestamp }
    | body, _ => body

/-- What `push` stores under the full type of a compressed event: a copy of the
first one, afterwards the merged event. -/
def nextVirtualEvent (self : EventQueue) (event : Event) : Event :=
  match self.virtualEvents.get? (computeFullEventType event.body) with
  | none => event
  | some virtualEvent => mergeIntoVirtual virtualEvent event

/-- `EventQueue.push`. -/
def push (self : EventQueue) (origEvent : EventBody) : EventQueue :=
  let event : Event := ⟨self.nextEventId, origEvent⟩
  let self := { self with nextEventId := self.nextEventId + 1 }
  let fullEventType := computeFullEventType origEvent
  if isVirtual fullEventType then
    { self with virtualEvents :=
        self.virtualEvents.set fullEventType (self.nextVirtualEvent event) }
  else
    { self with queue := self.queue ++ [event] }

/-- `EventQueue.empty`. -/
def empty (self : EventQueue) : Bool :=
  self.queue.isEmpty && self.virtualEvents.entries.isEmpty

/-- The loop of `prune`: pop from the left while the id is at most `throughId`. -/
def pruneLoop (throughId : Int) : List Event → Option Int → List Event × Option Int
  | [], newest => ([], newest)
  | event :: rest, newest =>
      if event.id ≤ throughId then pruneLoop throughId rest (some event.id)
      else (event :: rest, newest)

/-- `EventQueue.prune`. Virtual events are not looked at. -/
def prune (self : EventQueue) (throughId : Int) : EventQueue :=
  let pruned := pruneLoop throughId self.queue self.newestPrunedId
  { self with queue := pruned.1, newestPrunedId := pruned.2 }

/-- The map from ids to virtual events that `contents` builds. -/
def virtualIdMap (self : EventQueue) : Dict Int Event :=
  self.virtualEvents.values.foldl (fun map event => map.set event.id event) .empty

/-- The virtual events in the order of `sorted(virtual_id_map.keys())`. -/
def sortedVirtualEvents (self : EventQueue) : List Event :=
  (self.virtualIdMap.keys.insertionSort (· ≤ ·)).filterMap self.virtualIdMap.get?

/-- The queue with the virtual events merged into their final places. -/
def flattened (self : EventQueue) : List Event :=
  interleave Event.id self.sortedVirtualEvents self.queue

/-- `EventQueue.contents`: the flattened queue becomes the stored one; the caller
gets it with or without the internal data. -/
def contents (self : EventQueue) (includeInternalData : Bool := false) :
    EventQueue × List Event :=
  ({ self with virtualEvents := .empty, queue := self.flattened },
    if includeInternalData then self.flattened else pruneInternalData self.flattened)

/-! ## Projections -/

theorem push_of_compressible {self : EventQueue} {body : EventBody}
    (compressible : body.compressible = true) :
    self.push body = { self with
      nextEventId := self.nextEventId + 1
      virtualEvents := self.virtualEvents.set (computeFullEventType body)
        (self.nextVirtualEvent ⟨self.nextEventId, body⟩) } := by
  have virtual : isVirtual (computeFullEventType body) = true := compressible
  simp only [push, virtual, if_true]
  rfl

theorem push_of_not_compressible {self : EventQueue} {body : EventBody}
    (compressible : body.compressible = false) :
    self.push body = { self with
      nextEventId := self.nextEventId + 1
      queue := self.queue ++ [⟨self.nextEventId, body⟩] } := by
  have virtual : isVirtual (computeFullEventType body) = false := compressible
  simp [push, virtual]

@[simp] theorem push_nextEventId (self : EventQueue) (body : EventBody) :
    (self.push body).nextEventId = self.nextEventId + 1 := by
  cases compressible : body.compressible with
  | true => rw [push_of_compressible compressible]
  | false => rw [push_of_not_compressible compressible]

@[simp] theorem push_newestPrunedId (self : EventQueue) (body : EventBody) :
    (self.push body).newestPrunedId = self.newestPrunedId := by
  cases compressible : body.compressible with
  | true => rw [push_of_compressible compressible]
  | false => rw [push_of_not_compressible compressible]

@[simp] theorem push_id (self : EventQueue) (body : EventBody) :
    (self.push body).id = self.id := by
  cases compressible : body.compressible with
  | true => rw [push_of_compressible compressible]
  | false => rw [push_of_not_compressible compressible]

theorem push_queue (self : EventQueue) (body : EventBody) :
    (self.push body).queue =
      self.queue ++ if body.compressible then [] else [⟨self.nextEventId, body⟩] := by
  cases compressible : body.compressible with
  | true => simp [push_of_compressible compressible]
  | false => simp [push_of_not_compressible compressible]

@[simp] theorem prune_nextEventId (self : EventQueue) (throughId : Int) :
    (self.prune throughId).nextEventId = self.nextEventId := rfl

@[simp] theorem prune_virtualEvents (self : EventQueue) (throughId : Int) :
    (self.prune throughId).virtualEvents = self.virtualEvents := rfl

@[simp] theorem prune_id (self : EventQueue) (throughId : Int) :
    (self.prune throughId).id = self.id := rfl

@[simp] theorem contents_nextEventId (self : EventQueue) (includeInternalData : Bool) :
    (self.contents includeInternalData).1.nextEventId = self.nextEventId := rfl

@[simp] theorem contents_newestPrunedId (self : EventQueue) (includeInternalData : Bool) :
    (self.contents includeInternalData).1.newestPrunedId = self.newestPrunedId := rfl

@[simp] theorem contents_id (self : EventQueue) (includeInternalData : Bool) :
    (self.contents includeInternalData).1.id = self.id := rfl

@[simp] theorem contents_queue (self : EventQueue) (includeInternalData : Bool) :
    (self.contents includeInternalData).1.queue = self.flattened := rfl

@[simp] theorem contents_virtualEvents (self : EventQueue) (includeInternalData : Bool) :
    (self.contents includeInternalData).1.virtualEvents = .empty := rfl

/-! ## The invariant -/

/-- A stored virtual event is a flag update of the type it is stored under. -/
structure StoredUnder (fullEventType : String) (event : Event) : Prop where
  fullType : computeFullEventType event.body = fullEventType
  virtual : isVirtual fullEventType = true

/-- What any sequence of `push`, `prune` and `contents` keeps. -/
structure Valid (eventQueue : EventQueue) : Prop where
  increasing : Increasing Event.id eventQueue.queue
  queueBelow : ∀ event ∈ eventQueue.queue, event.id < eventQueue.nextEventId
  virtualBelow : ∀ event ∈ eventQueue.virtualEvents.values, event.id < eventQueue.nextEventId
  virtualDistinct : ∀ left ∈ eventQueue.virtualEvents.entries, ∀ right ∈ eventQueue.virtualEvents.entries,
    left.2.id = right.2.id → left = right
  apart : ∀ event ∈ eventQueue.virtualEvents.values, ∀ queued ∈ eventQueue.queue, event.id ≠ queued.id
  stored : ∀ entry ∈ eventQueue.virtualEvents.entries, StoredUnder entry.1 entry.2
  prunedBelow : ∀ pruned, eventQueue.newestPrunedId = some pruned → pruned < eventQueue.nextEventId
  nonnegative : 0 ≤ eventQueue.nextEventId

theorem new_valid (id : String) : (new id).Valid where
  increasing := Increasing.nil
  queueBelow := by simp [new]
  virtualBelow := by simp [new]
  virtualDistinct := by simp [new]
  apart := by simp [new]
  stored := by simp [new]
  prunedBelow := by simp [new]
  nonnegative := le_refl _

/-! ### Pushing -/

@[simp] theorem mergeIntoVirtual_id (virtualEvent event : Event) :
    (mergeIntoVirtual virtualEvent event).id = event.id := rfl

theorem computeFullEventType_mergeIntoVirtual (virtualEvent event : Event) :
    computeFullEventType (mergeIntoVirtual virtualEvent event).body =
      computeFullEventType virtualEvent.body := by
  unfold mergeIntoVirtual
  split
  · rename_i stored _ same _
    simp [computeFullEventType, same]
  · rfl

@[simp] theorem nextVirtualEvent_id (self : EventQueue) (event : Event) :
    (self.nextVirtualEvent event).id = event.id := by
  unfold nextVirtualEvent
  split <;> rfl

theorem nextVirtualEvent_storedUnder {self : EventQueue} (valid : self.Valid) {body : EventBody}
    (compressible : body.compressible = true) (id : Int) :
    StoredUnder (computeFullEventType body) (self.nextVirtualEvent ⟨id, body⟩) := by
  unfold nextVirtualEvent
  split
  · exact ⟨rfl, compressible⟩
  · rename_i virtualEvent found
    have stored := valid.stored _ (Dict.get?_eq_some_iff.mp found)
    exact ⟨(computeFullEventType_mergeIntoVirtual virtualEvent ⟨id, body⟩).trans stored.fullType,
      compressible⟩

/-- An entry of the virtual events after a compressed push: the new one, whose
id is the one just handed out, or an untouched one under another type. -/
theorem mem_virtualEvents_push {self : EventQueue} {body : EventBody}
    (compressible : body.compressible = true) {entry : String × Event} :
    entry ∈ (self.push body).virtualEvents.entries ↔
      entry = (computeFullEventType body, self.nextVirtualEvent ⟨self.nextEventId, body⟩) ∨
        (entry ∈ self.virtualEvents.entries ∧ entry.1 ≠ computeFullEventType body) := by
  rw [push_of_compressible compressible]
  exact Dict.mem_entries_set

theorem mem_values_push {self : EventQueue} {body : EventBody}
    (compressible : body.compressible = true) {event : Event}
    (member : event ∈ (self.push body).virtualEvents.values) :
    event = self.nextVirtualEvent ⟨self.nextEventId, body⟩ ∨ event ∈ self.virtualEvents.values := by
  obtain ⟨fullEventType, stored⟩ := Dict.mem_values.mp member
  rcases (mem_virtualEvents_push compressible).mp stored with new | ⟨old, _⟩
  · exact Or.inl (Prod.mk.inj new).2
  · exact Or.inr (Dict.mem_values.mpr ⟨fullEventType, old⟩)

/-- After a push a virtual event has the new id or was there before. -/
theorem id_of_mem_values_push {self : EventQueue} {body : EventBody} {event : Event}
    (member : event ∈ (self.push body).virtualEvents.values) :
    event.id = self.nextEventId ∨ event ∈ self.virtualEvents.values := by
  cases compressible : body.compressible with
  | true =>
      rcases mem_values_push compressible member with rfl | old
      · exact Or.inl (nextVirtualEvent_id _ _)
      · exact Or.inr old
  | false =>
      rw [push_of_not_compressible compressible] at member
      exact Or.inr member

/-- A push that is not compressed appends an event with the largest id so far. -/
theorem push_valid_of_not_compressible {self : EventQueue} (valid : self.Valid) {body : EventBody}
    (compressible : body.compressible = false) : (self.push body).Valid := by
  rw [push_of_not_compressible compressible]
  refine ⟨?_, ?_, ?_, valid.virtualDistinct, ?_, valid.stored, ?_, ?_⟩
  · simpa using ⟨valid.increasing, valid.queueBelow⟩
  · intro event member
    rcases List.mem_append.mp member with old | new
    · exact lt_trans (valid.queueBelow event old) (Int.lt_succ _)
    · rw [List.mem_singleton.mp new]
      exact Int.lt_succ _
  · intro event member
    exact lt_trans (valid.virtualBelow event member) (Int.lt_succ _)
  · intro event member queued queuedMember
    rcases List.mem_append.mp queuedMember with old | new
    · exact valid.apart event member queued old
    · rw [List.mem_singleton.mp new]
      exact ne_of_lt (valid.virtualBelow event member)
  · intro pruned isPruned
    exact lt_trans (valid.prunedBelow pruned isPruned) (Int.lt_succ _)
  · exact le_trans valid.nonnegative (le_of_lt (Int.lt_succ _))

/-- A compressed push gives the largest id so far to one virtual event. -/
theorem push_valid_of_compressible {self : EventQueue} (valid : self.Valid) {body : EventBody}
    (compressible : body.compressible = true) : (self.push body).Valid := by
  have entries : ∀ entry, entry ∈ (self.push body).virtualEvents.entries ↔
      entry = (computeFullEventType body, self.nextVirtualEvent ⟨self.nextEventId, body⟩) ∨
        (entry ∈ self.virtualEvents.entries ∧ entry.1 ≠ computeFullEventType body) :=
    fun _ => mem_virtualEvents_push compressible
  have queueSame : (self.push body).queue = self.queue := by
    rw [push_of_compressible compressible]
  have below : ∀ entry ∈ self.virtualEvents.entries, entry.2.id < self.nextEventId :=
    fun entry member => valid.virtualBelow entry.2 (Dict.mem_values.mpr ⟨entry.1, member⟩)
  have nextId : (self.nextVirtualEvent ⟨self.nextEventId, body⟩).id = self.nextEventId :=
    nextVirtualEvent_id _ _
  refine ⟨?_, ?_, ?_, ?_, ?_, ?_, ?_, ?_⟩
  · rw [queueSame]
    exact valid.increasing
  · intro event member
    rw [queueSame] at member
    rw [push_nextEventId]
    exact lt_trans (valid.queueBelow event member) (Int.lt_succ _)
  · intro event member
    rw [push_nextEventId]
    rcases mem_values_push compressible member with rfl | old
    · rw [nextId]
      exact Int.lt_succ _
    · exact lt_trans (valid.virtualBelow event old) (Int.lt_succ _)
  · intro left leftMember right rightMember sameId
    rcases (entries left).mp leftMember with rfl | ⟨leftOld, _⟩ <;>
      rcases (entries right).mp rightMember with rfl | ⟨rightOld, _⟩
    · rfl
    · exact absurd (sameId.symm.trans nextId) (ne_of_lt (below right rightOld))
    · exact absurd (sameId.trans nextId) (ne_of_lt (below left leftOld))
    · exact valid.virtualDistinct left leftOld right rightOld sameId
  · intro event member queued queuedMember
    rw [queueSame] at queuedMember
    rcases mem_values_push compressible member with rfl | old
    · rw [nextId]
      exact (ne_of_lt (valid.queueBelow queued queuedMember)).symm
    · exact valid.apart event old queued queuedMember
  · intro entry member
    rcases (entries entry).mp member with rfl | ⟨old, _⟩
    · exact nextVirtualEvent_storedUnder valid compressible _
    · exact valid.stored entry old
  · intro pruned isPruned
    rw [push_newestPrunedId] at isPruned
    rw [push_nextEventId]
    exact lt_trans (valid.prunedBelow pruned isPruned) (Int.lt_succ _)
  · rw [push_nextEventId]
    exact le_trans valid.nonnegative (le_of_lt (Int.lt_succ _))

theorem push_valid {self : EventQueue} (valid : self.Valid) (body : EventBody) :
    (self.push body).Valid := by
  cases compressible : body.compressible with
  | false => exact push_valid_of_not_compressible valid compressible
  | true => exact push_valid_of_compressible valid compressible

/-! ### Pruning -/

theorem pruneLoop_queue (throughId : Int) (events : List Event) (newest : Option Int) :
    (pruneLoop throughId events newest).1 = events.dropWhile fun event => event.id ≤ throughId := by
  induction events generalizing newest with
  | nil => rfl
  | cons event rest inductionHypothesis =>
      by_cases within : event.id ≤ throughId
      · simp [pruneLoop, within, inductionHypothesis]
      · simp [pruneLoop, within]

/-- The id that pruning remembers is the old one or that of a popped event. -/
theorem pruneLoop_newest (throughId : Int) (events : List Event) (newest : Option Int) :
    (pruneLoop throughId events newest).2 = newest ∨
      ∃ event ∈ events, (pruneLoop throughId events newest).2 = some event.id := by
  induction events generalizing newest with
  | nil => exact Or.inl rfl
  | cons event rest inductionHypothesis =>
      by_cases within : event.id ≤ throughId
      · simp only [pruneLoop, if_pos within]
        rcases inductionHypothesis (some event.id) with same | ⟨popped, member, found⟩
        · exact Or.inr ⟨event, List.mem_cons_self, same⟩
        · exact Or.inr ⟨popped, List.mem_cons_of_mem _ member, found⟩
      · simp [pruneLoop, within]

/-- Under the invariant, pruning keeps exactly the queued events above the bound. -/
theorem prune_queue {self : EventQueue} (valid : self.Valid) (throughId : Int) :
    (self.prune throughId).queue = self.queue.filter fun event => throughId < event.id := by
  rw [← valid.increasing.dropWhile_le]
  exact pruneLoop_queue _ _ _

/-- Pruning through the id of a queued event remembers that id. -/
theorem pruneLoop_newest_of_mem {throughId : Int} {events : List Event} {newest : Option Int}
    (increasing : Increasing Event.id events) (queued : ∃ event ∈ events, event.id = throughId) :
    (pruneLoop throughId events newest).2 = some throughId := by
  induction events generalizing newest with
  | nil => simp at queued
  | cons head rest inductionHypothesis =>
      obtain ⟨headBelow, restIncreasing⟩ := Increasing.cons.mp increasing
      obtain ⟨event, member, rfl⟩ := queued
      rcases List.mem_cons.mp member with rfl | later
      · simp only [pruneLoop, le_refl, if_true]
        -- Nothing further is popped: the rest lies above.
        cases rest with
        | nil => rfl
        | cons next tail =>
            have above := headBelow next List.mem_cons_self
            simp [pruneLoop, not_le.mpr above]
      · have within := le_of_lt (headBelow event later)
        simp only [pruneLoop, if_pos within]
        exact inductionHypothesis restIncreasing ⟨event, later, rfl⟩

/-- Pruning below every queued event changes nothing. -/
theorem prune_eq_self {self : EventQueue} {throughId : Int}
    (above : ∀ event ∈ self.queue, throughId < event.id) : self.prune throughId = self := by
  obtain ⟨queue, nextEventId, newestPrunedId, id, virtualEvents⟩ := self
  cases queue with
  | nil => rfl
  | cons head rest =>
      have headAbove := above head List.mem_cons_self
      simp [prune, pruneLoop, not_le.mpr headAbove]

theorem prune_valid {self : EventQueue} (valid : self.Valid) (throughId : Int) :
    (self.prune throughId).Valid := by
  have kept : ∀ event ∈ (self.prune throughId).queue, event ∈ self.queue := by
    intro event member
    rw [prune_queue valid] at member
    exact List.mem_of_mem_filter member
  refine ⟨?_, fun event member => valid.queueBelow event (kept event member), valid.virtualBelow,
    valid.virtualDistinct, fun event member queued queuedMember =>
      valid.apart event member queued (kept queued queuedMember), valid.stored, ?_,
    valid.nonnegative⟩
  · rw [prune_queue valid]
    exact valid.increasing.filter _
  · intro pruned isPruned
    rcases pruneLoop_newest throughId self.queue self.newestPrunedId with same | ⟨event, member, found⟩
    · exact valid.prunedBelow pruned (same ▸ isPruned)
    · have samePruned : some event.id = some pruned := found.symm.trans isPruned
      cases samePruned
      exact valid.queueBelow event member

/-! ### Reading the contents -/

theorem virtualIdMap_get? {self : EventQueue} (valid : self.Valid) {id : Int} {event : Event} :
    self.virtualIdMap.get? id = some event ↔ event ∈ self.virtualEvents.values ∧ event.id = id := by
  have distinct : ∀ left ∈ self.virtualEvents.values, ∀ right ∈ self.virtualEvents.values,
      left.id = right.id → left = right := by
    intro left leftMember right rightMember sameId
    obtain ⟨leftType, leftEntry⟩ := Dict.mem_values.mp leftMember
    obtain ⟨rightType, rightEntry⟩ := Dict.mem_values.mp rightMember
    exact congrArg Prod.snd (valid.virtualDistinct _ leftEntry _ rightEntry sameId)
  rw [virtualIdMap, Dict.get?_index distinct]
  simp

theorem mem_sortedVirtualEvents {self : EventQueue} (valid : self.Valid) {event : Event} :
    event ∈ self.sortedVirtualEvents ↔ event ∈ self.virtualEvents.values := by
  simp only [sortedVirtualEvents, List.mem_filterMap, List.mem_insertionSort, Dict.mem_keys_iff,
    virtualIdMap_get? valid]
  constructor
  · rintro ⟨id, _, member, _⟩
    exact member
  · intro member
    exact ⟨event.id, ⟨event, member, rfl⟩, member, rfl⟩

theorem sortedVirtualEvents_increasing {self : EventQueue} (valid : self.Valid) :
    Increasing Event.id self.sortedVirtualEvents := by
  have sorted : (self.virtualIdMap.keys.insertionSort (· ≤ ·)).Pairwise (· < ·) := by
    have weak := @List.pairwise_insertionSort Int (· ≤ ·) _ _ _ self.virtualIdMap.keys
    have distinct := (List.perm_insertionSort (· ≤ ·) self.virtualIdMap.keys).nodup_iff.mpr
      self.virtualIdMap.keys_nodup
    exact weak.imp₂ (fun _ _ within differs => lt_of_le_of_ne within differs) distinct
  refine List.Pairwise.filterMap _ ?_ sorted
  intro left right below first firstFound second secondFound
  rw [((virtualIdMap_get? valid).mp firstFound).2, ((virtualIdMap_get? valid).mp secondFound).2]
  exact below

/-- `contents` returns exactly the queued and the virtual events. -/
theorem mem_flattened {self : EventQueue} (valid : self.Valid) {event : Event} :
    event ∈ self.flattened ↔ event ∈ self.virtualEvents.values ∨ event ∈ self.queue := by
  rw [flattened, mem_interleave, mem_sortedVirtualEvents valid]

/-- `contents` returns its events in the order of their ids. -/
theorem flattened_increasing {self : EventQueue} (valid : self.Valid) :
    Increasing Event.id self.flattened :=
  (sortedVirtualEvents_increasing valid).interleave valid.increasing
    fun event member queued queuedMember =>
      valid.apart event ((mem_sortedVirtualEvents valid).mp member) queued queuedMember

theorem contents_valid {self : EventQueue} (valid : self.Valid) (includeInternalData : Bool) :
    (self.contents includeInternalData).1.Valid where
  increasing := flattened_increasing valid
  queueBelow event member := by
    rcases (mem_flattened valid).mp member with virtual | queued
    · exact valid.virtualBelow event virtual
    · exact valid.queueBelow event queued
  virtualBelow := by simp
  virtualDistinct := by simp
  apart := by simp
  stored := by simp
  prunedBelow := valid.prunedBelow
  nonnegative := valid.nonnegative

/-- Every virtual event is a compressed one. -/
theorem virtual_compressible {self : EventQueue} (valid : self.Valid) {event : Event}
    (member : event ∈ self.virtualEvents.values) : event.body.compressible = true := by
  obtain ⟨fullEventType, stored⟩ := Dict.mem_values.mp member
  have under := valid.stored _ stored
  rw [EventBody.compressible, under.fullType]
  exact under.virtual

/-- Compression apart, `contents` returns the queue. -/
theorem filter_flattened {self : EventQueue} (valid : self.Valid) :
    (self.flattened.filter fun event => !event.body.compressible) =
      self.queue.filter fun event => !event.body.compressible := by
  refine Increasing.eq_of_mem_iff ((flattened_increasing valid).filter _)
    (valid.increasing.filter _) fun event => ?_
  simp only [List.mem_filter, mem_flattened valid]
  constructor
  · rintro ⟨virtual | queued, plain⟩
    · simp [virtual_compressible valid virtual] at plain
    · exact ⟨queued, plain⟩
  · rintro ⟨queued, plain⟩
    exact ⟨Or.inr queued, plain⟩

end EventQueue

end Zulip.Tornado
