import Zulip.Foundation.Transition
import Zulip.Tornado.ClientDescriptor

/-!
# Delivery of queued events

A `Session` is one event queue together with the client that polls it. The queue
side is the model's `push`, `add_event` and `fetch_events`; the client side keeps
what it has asked for and the last response that reached it. A client has one
request open at a time, so a response reaches it at once or never.
-/

namespace Zulip.Tornado

/-- An event queue and its client. `pushed`, `requests` and `lastReceived` record the
run; no answer depends on them. -/
structure Session where
  client : ClientDescriptor
  /-- Every event pushed so far, with the id that it got. -/
  pushed : List Event
  /-- The `last_event_id` of every request so far, latest first. -/
  requests : List Int
  /-- The id of the last event in the last response that the client received. -/
  lastReceived : Option Int

/-- The arguments of one `fetch_events` call for the session's queue. -/
structure FetchRequest where
  lastEventId : Int
  dontBlock : Bool
  handlerId : Nat
  clientTypeName : String
  now : Rat

/-- What can happen next. The flags tell whether the answers given reach the client. -/
inductive SessionAction where
  | push (event : EventBody)
  | addEvent (event : EventBody) (received : Bool)
  | disconnect
  | request (request : FetchRequest) (supplantedReceived received : Bool)

/-- The events that an action pushes. -/
def SessionAction.pushed : SessionAction → List EventBody
  | .push event => [event]
  | .addEvent event _ => [event]
  | .disconnect => []
  | .request .. => []

namespace Session

/-- A fresh `EventQueue(id)` that nobody has asked about yet. -/
def start (client : ClientDescriptor) (id : String) : Session :=
  ⟨{ client with eventQueue := .new id }, [], [], none⟩

/-- What the client remembers after a response, if it is received. An empty
response has no last event. -/
def received (reaches : Bool) (events : List Event) (lastReceived : Option Int) : Option Int :=
  if reaches then (events.getLast?.map Event.id) <|> lastReceived else lastReceived

/-- Push an event and record it. -/
def push (session : Session) (event : EventBody) : Session :=
  { session with
    client := session.client.push event
    pushed := session.pushed ++ [⟨session.client.eventQueue.nextEventId, event⟩] }

/-- The client's memory after the answer to its waiting request, if there is one. -/
def finished (lastReceived : Option Int) (reaches : Bool) :
    Option (Nat × List Event) → Option Int
  | none => lastReceived
  | some (_, events) => received reaches events lastReceived

/-- The answers that leave the server when a waiting request is finished. -/
def finishedReplies : Option (Nat × List Event) → List FetchResult
  | none => []
  | some (_, events) => [.response events]

/-- Finish the waiting request. -/
def finish (session : Session) (reaches : Bool) : Session × List FetchResult :=
  let outcome := session.client.finishCurrentHandler
  ({ session with
    client := outcome.1
    lastReceived := finished session.lastReceived reaches outcome.2 },
    finishedReplies outcome.2)

/-- One `fetch_events` call: its effect and the answers that it causes. -/
def fetch (session : Session) (request : FetchRequest) (supplantedReceived reaches : Bool) :
    Session × List FetchResult :=
  let outcome := session.client.fetchEvents request.dontBlock request.lastEventId
  let lastReceived := finished session.lastReceived supplantedReceived outcome.supplanted
  let session := { session with
    client := outcome.client
    requests := request.lastEventId :: session.requests
    lastReceived := lastReceived }
  let session := match outcome.result with
    | .error _ => session
    | .response events => { session with lastReceived := received reaches events lastReceived }
    | .async => { session with client :=
        session.client.connectHandler request.handlerId request.clientTypeName request.now }
  (session, finishedReplies outcome.supplanted ++ [outcome.result])

/-- The effect of an action and the answers that it causes. -/
def perform (session : Session) : SessionAction → Session × List FetchResult
  | .push event => (session.push event, [])
  | .addEvent event reaches => (session.push event).finish reaches
  | .disconnect => ({ session with client := session.client.disconnectHandler }, [])
  | .request request supplantedReceived reaches =>
      session.fetch request supplantedReceived reaches

/-- The request that a well-behaved client makes: -1 at first, later a repeat or
the id of the last event that it received. -/
def wellBehaved (session : Session) (lastEventId : Int) : Prop :=
  match session.requests with
  | [] => lastEventId = -1
  | previous :: _ => lastEventId = previous ∨ session.lastReceived = some lastEventId

/-- One action of the server or of a well-behaved client. -/
def Step (session : Session) (action : SessionAction) (next : Session) : Prop :=
  (∀ request supplantedReceived reaches,
    action = .request request supplantedReceived reaches → session.wellBehaved request.lastEventId) ∧
  next = (session.perform action).1

theorem perform_step (session : Session) (action : SessionAction)
    (behaved : ∀ request supplantedReceived reaches,
      action = .request request supplantedReceived reaches →
        session.wellBehaved request.lastEventId) :
    Step session action (session.perform action).1 :=
  ⟨behaved, rfl⟩

/-- The id that the latest request acknowledged. -/
def acknowledged (session : Session) : Int := session.requests.headD (-1)

/-- The pushed events that are not subject to compression and not acknowledged. -/
def owed (session : Session) : List Event :=
  session.pushed.filter fun event =>
    !event.body.compressible && session.requests.all fun request => request < event.id

/-- An answer that repeats nothing: no error, ids in order, and every id above
every `last_event_id` so far, its own request's included. -/
def Fresh (requests : List Int) : FetchResult → Prop
  | .error _ => False
  | .response events => Increasing Event.id events ∧
      ∀ event ∈ events, ∀ request ∈ requests, request < event.id
  | .async => True

/-! ## The invariant -/

/-- What every run of a well-behaved client keeps: the acknowledged id is the one
that pruning remembers, everything stored lies above it, and the last received id
is acknowledged or still queued, below every virtual event. -/
structure Consistent (session : Session) : Prop where
  valid : session.client.eventQueue.Valid
  pruned : session.client.eventQueue.newestPrunedId = some session.acknowledged
  requestsWithin : ∀ request ∈ session.requests, request ≤ session.acknowledged
  above : ∀ event ∈ session.client.eventQueue.queue, session.acknowledged < event.id
  virtualAbove : ∀ event ∈ session.client.eventQueue.virtualEvents.values,
    session.acknowledged < event.id
  received : ∀ last, session.lastReceived = some last → session.acknowledged ≤ last ∧
    (last = session.acknowledged ∨ ∃ event ∈ session.client.eventQueue.queue, event.id = last) ∧
    ∀ event ∈ session.client.eventQueue.virtualEvents.values, last < event.id
  pushedNonnegative : ∀ event ∈ session.pushed, 0 ≤ event.id
  queued : (session.client.eventQueue.queue.filter fun event => !event.body.compressible) =
    session.pushed.filter fun event =>
      !event.body.compressible && decide (session.acknowledged < event.id)

theorem start_consistent (client : ClientDescriptor) (id : String) :
    (start client id).Consistent where
  valid := EventQueue.new_valid id
  pruned := rfl
  requestsWithin := by simp [start]
  above := by simp [start, EventQueue.new]
  virtualAbove := by simp [start, EventQueue.new]
  received := by simp [start]
  pushedNonnegative := by simp [start]
  queued := rfl

namespace Consistent

variable {session : Session}

/-- The invariant looks at the descriptor's queue only. -/
theorem withClient (consistent : session.Consistent) {client : ClientDescriptor}
    (same : client.eventQueue = session.client.eventQueue) :
    { session with client := client }.Consistent := by
  obtain ⟨valid, pruned, requestsWithin, above, virtualAbove, received, nonnegative, queued⟩ :=
    consistent
  rw [← same] at valid pruned above virtualAbove received queued
  exact ⟨valid, pruned, requestsWithin, above, virtualAbove, received, nonnegative, queued⟩

theorem acknowledged_lt_next (consistent : session.Consistent) :
    session.acknowledged < session.client.eventQueue.nextEventId :=
  consistent.valid.prunedBelow _ consistent.pruned

theorem received_lt_next (consistent : session.Consistent) {last : Int}
    (isLast : session.lastReceived = some last) : last < session.client.eventQueue.nextEventId := by
  obtain ⟨_, acknowledged | ⟨event, member, rfl⟩, _⟩ := consistent.received last isLast
  · rw [acknowledged]
    exact consistent.acknowledged_lt_next
  · exact consistent.valid.queueBelow event member

/-- Pushing keeps the invariant: the new event lies above all the others. -/
theorem push (consistent : session.Consistent) (event : EventBody) :
    (session.push event).Consistent := by
  have queue : (session.push event).client.eventQueue.queue = session.client.eventQueue.queue ++
      if event.compressible then [] else [⟨session.client.eventQueue.nextEventId, event⟩] :=
    EventQueue.push_queue _ _
  have ids : ∀ stored ∈ (session.push event).client.eventQueue.virtualEvents.values,
      stored.id = session.client.eventQueue.nextEventId ∨
        stored ∈ session.client.eventQueue.virtualEvents.values :=
    fun _ => EventQueue.id_of_mem_values_push
  refine ⟨EventQueue.push_valid consistent.valid event, ?_, consistent.requestsWithin, ?_, ?_, ?_, ?_, ?_⟩
  · exact (EventQueue.push_newestPrunedId _ _).trans consistent.pruned
  · intro stored member
    rw [queue] at member
    rcases List.mem_append.mp member with old | new
    · exact consistent.above stored old
    · split at new
      · cases new
      · rw [List.mem_singleton.mp new]
        exact consistent.acknowledged_lt_next
  · intro stored member
    rcases ids stored member with new | old
    · rw [new]
      exact consistent.acknowledged_lt_next
    · exact consistent.virtualAbove stored old
  · intro last isLast
    obtain ⟨within, place, below⟩ := consistent.received last isLast
    refine ⟨within, place.imp_right ?_, ?_⟩
    · rintro ⟨stored, member, same⟩
      rw [queue]
      exact ⟨stored, List.mem_append_left _ member, same⟩
    · intro stored member
      rcases ids stored member with new | old
      · rw [new]
        exact consistent.received_lt_next isLast
      · exact below stored old
  · intro stored member
    rcases List.mem_append.mp member with old | new
    · exact consistent.pushedNonnegative stored old
    · rw [List.mem_singleton.mp new]
      exact consistent.valid.nonnegative
  · have newAbove := consistent.acknowledged_lt_next
    have acknowledgedSame : (session.push event).acknowledged = session.acknowledged := rfl
    have pushedSame : (session.push event).pushed =
        session.pushed ++ [⟨session.client.eventQueue.nextEventId, event⟩] := rfl
    rw [queue, pushedSame, acknowledgedSame, List.filter_append, List.filter_append,
      consistent.queued]
    cases compressible : event.compressible <;> simp [compressible, newAbove]

theorem acknowledged_le (consistent : session.Consistent) {lastEventId : Int}
    (behaved : session.wellBehaved lastEventId) :
    session.acknowledged ≤ lastEventId ∧
      (lastEventId = session.acknowledged ∨ session.lastReceived = some lastEventId) := by
  have either : lastEventId = session.acknowledged ∨ session.lastReceived = some lastEventId := by
    unfold wellBehaved at behaved
    unfold acknowledged
    cases asked : session.requests with
    | nil =>
        rw [asked] at behaved
        exact Or.inl behaved
    | cons previous _ =>
        rw [asked] at behaved
        exact behaved
  refine ⟨?_, either⟩
  rcases either with same | isLast
  · exact le_of_eq same.symm
  · exact (consistent.received _ isLast).1

/-- Pruning for a well-behaved request remembers exactly the requested id. -/
theorem newestPrunedId_prune (consistent : session.Consistent) {lastEventId : Int}
    (behaved : session.wellBehaved lastEventId) :
    (session.client.eventQueue.prune lastEventId).newestPrunedId = some lastEventId := by
  have unchanged : lastEventId = session.acknowledged →
      (session.client.eventQueue.prune lastEventId).newestPrunedId = some lastEventId := by
    rintro rfl
    rw [EventQueue.prune_eq_self consistent.above]
    exact consistent.pruned
  rcases (consistent.acknowledged_le behaved).2 with same | isLast
  · exact unchanged same
  · rcases (consistent.received _ isLast).2.1 with same | queued
    · exact unchanged same
    · exact EventQueue.pruneLoop_newest_of_mem consistent.valid.increasing queued

/-- A well-behaved request passes both checks. -/
theorem acknowledge (consistent : session.Consistent) {lastEventId : Int}
    (behaved : session.wellBehaved lastEventId) :
    session.client.acknowledge lastEventId =
      ({ session.client with eventQueue := session.client.eventQueue.prune lastEventId },
        .ok ()) := by
  refine ClientDescriptor.acknowledge_eq_ok ?_ (consistent.newestPrunedId_prune behaved)
  intro pruned isPruned
  rw [consistent.pruned] at isPruned
  cases isPruned
  exact (consistent.acknowledged_le behaved).1

/-- Accepting a request keeps the invariant, with its id acknowledged. -/
theorem prune (consistent : session.Consistent) {lastEventId : Int}
    (behaved : session.wellBehaved lastEventId) {client : ClientDescriptor}
    (same : client.eventQueue = session.client.eventQueue.prune lastEventId) :
    { session with client := client, requests := lastEventId :: session.requests }.Consistent := by
  obtain ⟨within, either⟩ := consistent.acknowledged_le behaved
  have queue : client.eventQueue.queue =
      session.client.eventQueue.queue.filter fun event => lastEventId < event.id := by
    rw [same]
    exact EventQueue.prune_queue consistent.valid _
  have virtualSame : client.eventQueue.virtualEvents = session.client.eventQueue.virtualEvents := by
    rw [same]
    rfl
  refine ⟨?_, ?_, ?_, ?_, ?_, ?_, consistent.pushedNonnegative, ?_⟩ <;>
    simp only [acknowledged, List.headD_cons]
  · rw [same]
    exact EventQueue.prune_valid consistent.valid _
  · rw [same]
    exact consistent.newestPrunedId_prune behaved
  · intro request member
    rcases List.mem_cons.mp member with rfl | earlier
    · exact le_refl _
    · exact le_trans (consistent.requestsWithin request earlier) within
  · intro event member
    rw [queue] at member
    simpa using (List.mem_filter.mp member).2
  · intro event member
    rw [virtualSame] at member
    rcases either with rfl | isLast
    · exact consistent.virtualAbove event member
    · exact (consistent.received _ isLast).2.2 event member
  · intro last isLast
    obtain ⟨lastWithin, place, below⟩ := consistent.received last isLast
    have idWithin : lastEventId ≤ last := by
      rcases either with rfl | sameLast
      · exact lastWithin
      · rw [isLast] at sameLast
        cases sameLast
        exact le_refl _
    refine ⟨idWithin, ?_, ?_⟩
    · rcases eq_or_lt_of_le idWithin with sameId | strictly
      · exact Or.inl sameId.symm
      · rcases place with sameId | ⟨event, member, rfl⟩
        · exact absurd strictly (not_lt.mpr (sameId ▸ within))
        · refine Or.inr ⟨event, ?_, rfl⟩
          rw [queue]
          exact List.mem_filter.mpr ⟨member, by simpa using strictly⟩
    · rw [virtualSame]
      exact below
  · rw [queue, List.filter_comm, consistent.queued, List.filter_filter]
    refine List.filter_congr fun event _ => ?_
    have weaker : lastEventId < event.id → session.acknowledged < event.id := lt_of_le_of_lt within
    by_cases above : lastEventId < event.id
    · simp [above, weaker above]
    · simp [above]

theorem mem_received {reaches : Bool} {events : List Event} {lastReceived : Option Int} {last : Int}
    (isLast : Session.received reaches events lastReceived = some last) :
    (∃ event ∈ events, event.id = last) ∨ lastReceived = some last := by
  unfold Session.received at isLast
  split at isLast
  · cases latest : events.getLast? with
    | none =>
        rw [latest] at isLast
        exact Or.inr isLast
    | some event =>
        rw [latest] at isLast
        exact Or.inl ⟨event, List.mem_of_getLast? latest, Option.some.inj isLast⟩
  · exact Or.inr isLast

/-- Answering with the contents keeps the invariant, whether or not the answer is received. -/
theorem deliver (consistent : session.Consistent) (reaches : Bool) {client : ClientDescriptor}
    (same : client.eventQueue = session.client.eventQueue.contents.1) :
    { session with
      client := client
      lastReceived := Session.received reaches session.client.eventQueue.contents.2
        session.lastReceived }.Consistent := by
  have stored : ∀ event ∈ session.client.eventQueue.flattened,
      session.acknowledged < event.id := by
    intro event member
    rcases (EventQueue.mem_flattened consistent.valid).mp member with virtual | queued
    · exact consistent.virtualAbove event virtual
    · exact consistent.above event queued
  refine ⟨?_, ?_, consistent.requestsWithin, ?_, ?_, ?_, consistent.pushedNonnegative, ?_⟩ <;>
    simp only [same]
  · exact EventQueue.contents_valid consistent.valid _
  · exact consistent.pruned
  · exact stored
  · simp
  · intro last isLast
    refine ⟨?_, ?_, by simp⟩
    · rcases mem_received isLast with ⟨event, member, rfl⟩ | earlier
      · obtain ⟨original, originalMember, rfl⟩ := mem_pruneInternalData.mp member
        exact le_of_lt (stored original originalMember)
      · exact (consistent.received last earlier).1
    · rcases mem_received isLast with ⟨event, member, rfl⟩ | earlier
      · obtain ⟨original, originalMember, rfl⟩ := mem_pruneInternalData.mp member
        exact Or.inr ⟨original, originalMember, rfl⟩
      · refine (consistent.received last earlier).2.1.imp_right ?_
        rintro ⟨event, member, sameId⟩
        exact ⟨event, (EventQueue.mem_flattened consistent.valid).mpr (Or.inr member), sameId⟩
  · rw [EventQueue.contents_queue, EventQueue.filter_flattened consistent.valid]
    exact consistent.queued

/-- The contents are a fresh answer. -/
theorem fresh (consistent : session.Consistent) :
    Fresh session.requests (.response session.client.eventQueue.contents.2) := by
  constructor
  · have increasing := EventQueue.flattened_increasing consistent.valid
    exact List.pairwise_map.mpr increasing
  · intro event member request requestMember
    obtain ⟨original, originalMember, rfl⟩ := mem_pruneInternalData.mp member
    refine lt_of_le_of_lt (consistent.requestsWithin request requestMember) ?_
    rcases (EventQueue.mem_flattened consistent.valid).mp originalMember with virtual | queued
    · exact consistent.virtualAbove original virtual
    · exact consistent.above original queued

end Consistent

/-! ## Runs -/

/-- Finishing the waiting request keeps the invariant and answers freshly. -/
theorem finish_spec {session : Session} (consistent : session.Consistent) (reaches : Bool) :
    (session.finish reaches).1.Consistent ∧
      ∀ reply ∈ (session.finish reaches).2, Fresh session.requests reply := by
  rcases session.client.finishCurrentHandler_cases with idle | ⟨client, handlerId, busy, same⟩
  · have unchanged : session.finish reaches = (session, []) := by
      simp [finish, idle, finished, finishedReplies]
    rw [unchanged]
    exact ⟨consistent, by simp⟩
  · simp only [finish, busy, finished, finishedReplies, List.mem_singleton, forall_eq]
    exact ⟨consistent.deliver reaches same, consistent.fresh⟩

/-- A well-behaved request keeps the invariant and causes fresh answers only. -/
theorem fetch_spec {session : Session} (consistent : session.Consistent) {request : FetchRequest}
    (behaved : session.wellBehaved request.lastEventId) (supplantedReceived reaches : Bool) :
    (session.fetch request supplantedReceived reaches).1.Consistent ∧
      ∀ reply ∈ (session.fetch request supplantedReceived reaches).2,
        Fresh (request.lastEventId :: session.requests) reply := by
  let pruned : ClientDescriptor :=
    { session.client with eventQueue := session.client.eventQueue.prune request.lastEventId }
  let accepted : Session :=
    { session with client := pruned, requests := request.lastEventId :: session.requests }
  have acceptedConsistent : accepted.Consistent := consistent.prune behaved rfl
  obtain ⟨finishConsistent, finishFresh⟩ := finish_spec acceptedConsistent supplantedReceived
  rcases ClientDescriptor.fetchEvents_cases request.dontBlock (consistent.acknowledge behaved) with
    answered | waiting
  · simp only [fetch, answered]
    refine ⟨finishConsistent.deliver reaches rfl, ?_⟩
    intro reply member
    rcases List.mem_append.mp member with earlier | latest
    · exact finishFresh reply earlier
    · rw [List.mem_singleton.mp latest]
      exact finishConsistent.fresh
  · simp only [fetch, waiting]
    refine ⟨finishConsistent.withClient (ClientDescriptor.connectHandler_eventQueue ..), ?_⟩
    intro reply member
    rcases List.mem_append.mp member with earlier | latest
    · exact finishFresh reply earlier
    · rw [List.mem_singleton.mp latest]
      trivial

/-- One step keeps the invariant and causes fresh answers only. -/
theorem step_spec {session next : Session} {action : SessionAction}
    (consistent : session.Consistent) (transition : Step session action next) :
    next.Consistent ∧ ∀ reply ∈ (session.perform action).2, Fresh next.requests reply := by
  obtain ⟨behaved, rfl⟩ := transition
  cases action with
  | push event => exact ⟨consistent.push event, by simp [perform]⟩
  | addEvent event reaches => exact finish_spec (consistent.push event) reaches
  | disconnect =>
      exact ⟨consistent.withClient (ClientDescriptor.disconnectHandler_eventQueue _),
        by simp [perform]⟩
  | request request supplantedReceived reaches =>
      have spec := fetch_spec consistent (behaved request supplantedReceived reaches rfl)
        supplantedReceived reaches
      have requests : (session.fetch request supplantedReceived reaches).1.requests =
          request.lastEventId :: session.requests := by
        simp only [fetch]
        split <;> rfl
      refine ⟨spec.1, ?_⟩
      simp only [perform, requests]
      exact spec.2

theorem run_consistent {client : ClientDescriptor} {id : String}
    {trace : List (Session × SessionAction)} {final : Session}
    (run : Run Step (start client id) trace final) : final.Consistent :=
  run.invariant (start_consistent client id) fun consistent transition =>
    (step_spec consistent transition).1

/-- What is owed is what the queue holds, compression apart. -/
theorem Consistent.owed_eq {session : Session} (consistent : session.Consistent) :
    session.owed =
      session.client.eventQueue.flattened.filter fun event => !event.body.compressible := by
  rw [EventQueue.filter_flattened consistent.valid, consistent.queued]
  refine List.filter_congr fun event member => ?_
  congr 1
  rw [Bool.eq_iff_iff, List.all_eq_true, decide_eq_true_iff]
  constructor
  · intro unacknowledged
    unfold acknowledged
    cases asked : session.requests with
    | nil => exact lt_of_lt_of_le (by decide) (consistent.pushedNonnegative event member)
    | cons latest _ => simpa using unacknowledged latest (by simp [asked])
  · intro above request requestMember
    simpa using lt_of_le_of_lt (consistent.requestsWithin request requestMember) above

/-- An action records exactly the events that it pushes, at the end. -/
theorem pushed_perform (session : Session) (action : SessionAction) :
    (session.perform action).1.pushed.map Event.body =
      session.pushed.map Event.body ++ action.pushed := by
  cases action with
  | push event => simp [perform, push, SessionAction.pushed]
  | addEvent event reaches => simp [perform, push, finish, SessionAction.pushed]
  | disconnect => simp [perform, SessionAction.pushed]
  | request request supplantedReceived reaches =>
      simp only [perform, fetch, SessionAction.pushed, List.append_nil]
      split <;> rfl

/-- Every answer of a run is fresh. -/
theorem run_fresh {client : ClientDescriptor} {id : String}
    {trace : List (Session × SessionAction)} {final : Session}
    (run : Run Step (start client id) trace final) :
    ∀ visit ∈ trace, ∀ reply ∈ (visit.1.perform visit.2).2,
      Fresh (visit.1.perform visit.2).1.requests reply := by
  let Inv (trace : List (Session × SessionAction)) (state : Session) : Prop :=
    state.Consistent ∧ ∀ visit ∈ trace, ∀ reply ∈ (visit.1.perform visit.2).2,
      Fresh (visit.1.perform visit.2).1.requests reply
  have both : Inv trace final := by
    refine run.history ⟨start_consistent client id, by simp⟩ ?_
    rintro trace state label next ⟨consistent, earlierFresh⟩ transition
    obtain ⟨nextConsistent, fresh⟩ := step_spec consistent transition
    rw [transition.2] at fresh
    refine ⟨nextConsistent, fun visit member => ?_⟩
    rcases List.mem_append.mp member with earlier | latest
    · exact earlierFresh visit earlier
    · rw [List.mem_singleton.mp latest]
      exact fresh
  exact both.2

/-- `pushed` records the events that the actions of a run pushed. -/
theorem run_pushed {client : ClientDescriptor} {id : String}
    {trace : List (Session × SessionAction)} {final : Session}
    (run : Run Step (start client id) trace final) :
    final.pushed.map Event.body = trace.flatMap fun visit => visit.2.pushed := by
  let Inv (trace : List (Session × SessionAction)) (state : Session) : Prop :=
    state.pushed.map Event.body = trace.flatMap fun visit => visit.2.pushed
  have recorded : Inv trace final := by
    refine run.history rfl ?_
    intro trace state label next earlier transition
    simp only [Inv, transition.2, pushed_perform, List.flatMap_append, List.flatMap_singleton]
    rw [earlier]
  exact recorded

/-- Delivery to a well-behaved client, over every run. No answer is an error, each
has its ids in order and above every acknowledged id, and the events that are not
subject to compression are, but for the acknowledged ones, what `contents` returns:
in full with the internal data, less that data without it. -/
theorem delivery_once_inOrder {client : ClientDescriptor} {id : String}
    {trace : List (Session × SessionAction)} {final : Session}
    (run : Run Step (start client id) trace final) :
    (∀ visit ∈ trace, ∀ reply ∈ (visit.1.perform visit.2).2,
      Fresh (visit.1.perform visit.2).1.requests reply) ∧
    final.pushed.map Event.body = trace.flatMap (fun visit => visit.2.pushed) ∧
    ((final.client.eventQueue.contents true).2.filter fun event => !event.body.compressible) =
      final.owed ∧
    (final.client.eventQueue.contents.2.filter fun event => !event.body.compressible) =
      pruneInternalData final.owed := by
  have consistent := run_consistent run
  refine ⟨run_fresh run, run_pushed run, consistent.owed_eq.symm, ?_⟩
  rw [consistent.owed_eq]
  exact filter_pruneInternalData _

/-- A queue of a web client. -/
def webClient : ClientDescriptor :=
  .initialized ⟨7, 2, .new "q", none, "website", true, true, false, false, 0, [], false, false,
    false, true, false, false, some []⟩ [] 0

/-- A direct message that its recipient was not notified of. -/
def unnotifiedMessage : EventBody :=
  .message
    { message := ⟨31, 8, .direct "[]", "", "website", "hi", "text/x-markdown", none, "Iago",
        "iago@zulip.com", none, none, []⟩
      flags := []
      internalData := some ⟨{ dmPushNotify := some true, pushNotified := some false }, rfl⟩ }

/-- A request, a delivery to the waiting client and its acknowledgement. -/
theorem delivery_once_inOrder_polled :
    ∃ trace final, Run Step (start webClient "q") trace final ∧ trace.length = 4 ∧
      final.requests = [0, -1] ∧
      (∀ visit ∈ trace, ∀ reply ∈ (visit.1.perform visit.2).2,
        Fresh (visit.1.perform visit.2).1.requests reply) ∧
      final.pushed.map Event.body = trace.flatMap (fun visit => visit.2.pushed) ∧
      ((final.client.eventQueue.contents true).2.filter fun event => !event.body.compressible) =
        final.owed ∧
      (final.client.eventQueue.contents.2.filter fun event => !event.body.compressible) =
        pruneInternalData final.owed := by
  have asked := Run.step Run.refl (perform_step (start webClient "q")
    (.request ⟨-1, false, 1, "website", 0⟩ true true) (by rintro _ _ _ ⟨⟩; rfl))
  have delivered := Run.step asked (perform_step _ (.addEvent unnotifiedMessage true) nofun)
  have acknowledged := Run.step delivered (perform_step _
    (.request ⟨0, false, 2, "website", 1⟩ true true) (by rintro _ _ _ ⟨⟩; exact Or.inr rfl))
  have pushedMore := Run.step acknowledged (perform_step _ (.push unnotifiedMessage) nofun)
  exact ⟨_, _, pushedMore, rfl, rfl, delivery_once_inOrder pushedMore⟩

/-- Without its internal data a message event is not what was pushed. -/
theorem contents_loses_internalData :
    ¬ ∀ (client : ClientDescriptor) (id : String) (trace : List (Session × SessionAction))
        (final : Session), Run Step (start client id) trace final →
      (final.client.eventQueue.contents.2.filter fun event => !event.body.compressible) =
        final.owed := by
  intro unchanged
  have same := unchanged webClient "q" _ _ (Run.step Run.refl
    (perform_step (start webClient "q") (.push unnotifiedMessage) nofun))
  revert same
  decide

end Session

end Zulip.Tornado
