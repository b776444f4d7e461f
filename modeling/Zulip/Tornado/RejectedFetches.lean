import Zulip.Tornado.Delivery

/-!
# Rejected requests

`fetch_events` prunes the queue before it finds out that the acknowledged id is not in it. A request
that is rejected for this reason has discarded the events below that id. Requests here are arbitrary:
any number can be acknowledged at any time.
-/

namespace Zulip.Tornado

namespace EventQueue

/-- The stored events of two queues, and what they remember of the others. -/
structure SameEvents (left right : EventQueue) : Prop where
  queue : left.queue = right.queue
  virtualEvents : left.virtualEvents = right.virtualEvents
  newestPrunedId : left.newestPrunedId = right.newestPrunedId

/-- Acknowledging the id is refused at once, prunes up to a queued event with this very id, or
prunes nothing. -/
def HarmlessAcknowledgement (self : EventQueue) (lastEventId : Int) : Prop :=
  (∃ pruned ∈ self.newestPrunedId, lastEventId < pruned) ∨
    (∃ event ∈ self.queue, event.id = lastEventId) ∨ ∀ event ∈ self.queue, lastEventId < event.id

/-- The event that is popped first, or a later one, is remembered. -/
theorem pruneLoop_newest_of_head {throughId : Int} {head : Event} {rest : List Event}
    (within : head.id ≤ throughId) :
    ∃ event ∈ head :: rest, event.id ≤ throughId ∧
      (pruneLoop throughId rest (some head.id)).2 = some event.id := by
  induction rest generalizing head with
  | nil => exact ⟨head, List.mem_cons_self, within, rfl⟩
  | cons next rest inductionHypothesis =>
      by_cases nextWithin : next.id ≤ throughId
      · obtain ⟨event, member, eventWithin, remembered⟩ := inductionHypothesis nextWithin
        refine ⟨event, List.mem_cons_of_mem _ member, eventWithin, ?_⟩
        simp only [pruneLoop, if_pos nextWithin]
        exact remembered
      · refine ⟨head, List.mem_cons_self, within, ?_⟩
        simp only [pruneLoop, if_neg nextWithin]

/-- When something is popped, the id of a popped event is remembered. -/
theorem prune_newest_of_popped {self : EventQueue} (valid : self.Valid) {throughId : Int}
    (popped : ∃ event ∈ self.queue, event.id ≤ throughId) :
    ∃ event ∈ self.queue, event.id ≤ throughId ∧
      (self.prune throughId).newestPrunedId = some event.id := by
  obtain ⟨queue, nextEventId, newestPrunedId, id, virtualEvents⟩ := self
  obtain ⟨event, member, within⟩ := popped
  cases queue with
  | nil => simp at member
  | cons head rest =>
      have headWithin : head.id ≤ throughId := by
        rcases List.mem_cons.mp member with rfl | later
        · exact within
        · exact le_trans (le_of_lt ((Increasing.cons.mp valid.increasing).1 event later)) within
      simp only [prune, pruneLoop, if_pos headWithin]
      exact pruneLoop_newest_of_head headWithin

end EventQueue

namespace ClientDescriptor

/-- If the request is rejected, the queue stores what it stored before, and all later requests are
answered as if it had not been made. -/
def RejectionLosesNothing (self : ClientDescriptor) (dontBlock : Bool) (lastEventId : Int) : Prop :=
  ∀ exception, (self.fetchEvents dontBlock lastEventId).result = .error exception →
    EventQueue.SameEvents (self.fetchEvents dontBlock lastEventId).client.eventQueue
        self.eventQueue ∧
      ∀ laterDontBlock laterId,
        (self.fetchEvents dontBlock lastEventId).client.fetchEvents laterDontBlock laterId =
          self.fetchEvents laterDontBlock laterId

/-- A rejection that leaves the descriptor alone loses nothing. -/
theorem rejectionLosesNothing_of_client {self : ClientDescriptor} {dontBlock : Bool}
    {lastEventId : Int} {answer : Except PyError Unit}
    (acknowledged : self.acknowledge lastEventId = (self, answer)) :
    self.RejectionLosesNothing dontBlock lastEventId := by
  intro exception rejected
  cases answer with
  | error exception =>
      have sameClient : (self.fetchEvents dontBlock lastEventId).client = self := by
        simp only [fetchEvents, acknowledged]
      rw [sameClient]
      exact ⟨⟨rfl, rfl, rfl⟩, fun _ _ => rfl⟩
  | ok =>
      rcases fetchEvents_cases dontBlock acknowledged with answered | answered <;>
      · rw [answered] at rejected
        cases rejected

/-- A request that passes the checks is not rejected. -/
theorem rejectionLosesNothing_of_ok {self client : ClientDescriptor} {dontBlock : Bool}
    {lastEventId : Int} (acknowledged : self.acknowledge lastEventId = (client, .ok ())) :
    self.RejectionLosesNothing dontBlock lastEventId := by
  intro exception rejected
  rcases fetchEvents_cases dontBlock acknowledged with answered | answered <;>
  · rw [answered] at rejected
    cases rejected

/-- The second check fails when events are pruned and none of them has the acknowledged id. -/
theorem acknowledge_unknown {self : ClientDescriptor} (valid : self.eventQueue.Valid)
    {lastEventId : Int} (notPruned : ¬ ∃ pruned ∈ self.eventQueue.newestPrunedId, lastEventId < pruned)
    (unknown : ¬ ∃ event ∈ self.eventQueue.queue, event.id = lastEventId)
    (popped : ∃ event ∈ self.eventQueue.queue, event.id ≤ lastEventId) :
    self.acknowledge lastEventId =
      ({ self with eventQueue := self.eventQueue.prune lastEventId },
        .error (.jsonable ("Event " ++ toString lastEventId ++ " was not in this queue"))) := by
  obtain ⟨event, member, -, remembered⟩ := EventQueue.prune_newest_of_popped valid popped
  have second : ∃ pruned ∈ (self.eventQueue.prune lastEventId).newestPrunedId,
      lastEventId ≠ pruned := by
    rw [remembered]
    exact ⟨event.id, rfl, fun same => unknown ⟨event, member, same.symm⟩⟩
  simp only [acknowledge, if_neg notPruned, if_pos second]

/-- A rejected request loses nothing exactly when it prunes nothing or is not rejected. -/
theorem rejectionLosesNothing_iff {self : ClientDescriptor} (valid : self.eventQueue.Valid)
    (dontBlock : Bool) (lastEventId : Int) :
    self.RejectionLosesNothing dontBlock lastEventId ↔
      self.eventQueue.HarmlessAcknowledgement lastEventId := by
  by_cases notPruned : ∃ pruned ∈ self.eventQueue.newestPrunedId, lastEventId < pruned
  · have refused : (self.acknowledge lastEventId).1 = self := by
      simp only [acknowledge, if_pos notPruned]
    exact iff_of_true (rejectionLosesNothing_of_client (Prod.ext refused rfl)) (Or.inl notPruned)
  by_cases known : ∃ event ∈ self.eventQueue.queue, event.id = lastEventId
  · have atMost : ∀ pruned ∈ self.eventQueue.newestPrunedId, pruned ≤ lastEventId :=
      fun pruned isPruned => not_lt.mp fun below => notPruned ⟨pruned, isPruned, below⟩
    have remembered : (self.eventQueue.prune lastEventId).newestPrunedId = some lastEventId :=
      EventQueue.pruneLoop_newest_of_mem valid.increasing known
    exact iff_of_true (rejectionLosesNothing_of_ok (acknowledge_eq_ok atMost remembered))
      (Or.inr (Or.inl known))
  by_cases popped : ∃ event ∈ self.eventQueue.queue, event.id ≤ lastEventId
  · have rejected := acknowledge_unknown valid notPruned known popped
    refine iff_of_false ?_ ?_
    · intro losesNothing
      have isError : (self.fetchEvents dontBlock lastEventId).result =
          .error (.jsonable ("Event " ++ toString lastEventId ++ " was not in this queue")) := by
        simp only [fetchEvents, rejected]
      have isPruned : (self.fetchEvents dontBlock lastEventId).client.eventQueue =
          self.eventQueue.prune lastEventId := by
        simp only [fetchEvents, rejected]
      obtain ⟨⟨sameQueue, -, -⟩, -⟩ := losesNothing _ isError
      -- The event that was popped is not in the queue any more.
      obtain ⟨event, member, within⟩ := popped
      rw [isPruned, EventQueue.prune_queue valid] at sameQueue
      rw [← sameQueue, List.mem_filter] at member
      simp only [decide_eq_true_eq] at member
      omega
    · rintro (pruned | found | above)
      · exact notPruned pruned
      · exact known found
      · obtain ⟨event, member, within⟩ := popped
        exact absurd (above event member) (not_lt.mpr within)
  · have above : ∀ event ∈ self.eventQueue.queue, lastEventId < event.id := fun event member =>
      not_le.mp fun within => popped ⟨event, member, within⟩
    have sameClient : (self.acknowledge lastEventId).1 = self := by
      simp only [acknowledge, if_neg notPruned, EventQueue.prune_eq_self above]
      split <;> rfl
    exact iff_of_true (rejectionLosesNothing_of_client (Prod.ext sameClient rfl))
      (Or.inr (Or.inr above))

theorem acknowledge_valid {self : ClientDescriptor} (valid : self.eventQueue.Valid)
    (lastEventId : Int) : (self.acknowledge lastEventId).1.eventQueue.Valid := by
  simp only [acknowledge]
  split
  · exact valid
  · split <;> exact EventQueue.prune_valid valid lastEventId

theorem finishCurrentHandler_valid {self : ClientDescriptor} (valid : self.eventQueue.Valid) :
    self.finishCurrentHandler.1.eventQueue.Valid := by
  rcases self.finishCurrentHandler_cases with finished | ⟨client, handlerId, finished, sameQueue⟩
  · rw [finished]
    exact valid
  · rw [finished, sameQueue]
    exact EventQueue.contents_valid valid false

theorem fetchEvents_valid {self : ClientDescriptor} (valid : self.eventQueue.Valid)
    (dontBlock : Bool) (lastEventId : Int) :
    (self.fetchEvents dontBlock lastEventId).client.eventQueue.Valid := by
  have kept := acknowledge_valid valid lastEventId
  rcases acknowledged : self.acknowledge lastEventId with ⟨client, answer⟩
  rw [acknowledged] at kept
  cases answer with
  | error exception =>
      simp only [fetchEvents, acknowledged]
      exact kept
  | ok =>
      have finished := finishCurrentHandler_valid kept
      rcases fetchEvents_cases dontBlock acknowledged with answered | answered
      · rw [answered]
        exact EventQueue.contents_valid finished false
      · rw [answered]
        exact finished

end ClientDescriptor

namespace Session

/-- One action of the server, or a request of any client. -/
def AnyStep (session : Session) (action : SessionAction) (next : Session) : Prop :=
  next = (session.perform action).1

theorem perform_anyStep (session : Session) (action : SessionAction) :
    AnyStep session action (session.perform action).1 := rfl

theorem finish_valid {session : Session} (valid : session.client.eventQueue.Valid)
    (reaches : Bool) : (session.finish reaches).1.client.eventQueue.Valid :=
  ClientDescriptor.finishCurrentHandler_valid valid

theorem fetch_valid {session : Session} (valid : session.client.eventQueue.Valid)
    (request : FetchRequest) (supplantedReceived reaches : Bool) :
    (session.fetch request supplantedReceived reaches).1.client.eventQueue.Valid := by
  have kept := ClientDescriptor.fetchEvents_valid valid request.dontBlock request.lastEventId
  cases answered : (session.client.fetchEvents request.dontBlock request.lastEventId).result <;>
  · simp only [fetch, answered]
    exact kept

theorem perform_valid {session : Session} (valid : session.client.eventQueue.Valid)
    (action : SessionAction) : (session.perform action).1.client.eventQueue.Valid := by
  cases action with
  | push event => exact EventQueue.push_valid valid event
  | addEvent event reaches =>
      have pushed : (session.push event).client.eventQueue.Valid :=
        EventQueue.push_valid valid event
      exact finish_valid pushed reaches
  | disconnect => exact valid
  | request request supplantedReceived reaches => exact fetch_valid valid _ _ _

/-- In every run from a fresh queue, the rejected requests lose nothing exactly when every request
is refused at once, acknowledges a queued event, or acknowledges an id below all queued ones. -/
theorem rejections_lose_nothing_iff {client : ClientDescriptor} {id : String}
    {trace : List (Session × SessionAction)} {final : Session}
    (run : Run AnyStep (start client id) trace final) :
    (∀ visit ∈ trace, ∀ request supplantedReceived reaches,
        visit.2 = .request request supplantedReceived reaches →
          visit.1.client.RejectionLosesNothing request.dontBlock request.lastEventId) ↔
      ∀ visit ∈ trace, ∀ request supplantedReceived reaches,
        visit.2 = .request request supplantedReceived reaches →
          visit.1.client.eventQueue.HarmlessAcknowledgement request.lastEventId := by
  have visited : ∀ session ∈ trace.map Prod.fst ++ [final], session.client.eventQueue.Valid := by
    refine run.visited (EventQueue.new_valid id) ?_
    rintro session action next before rfl
    exact perform_valid before action
  have valid : ∀ visit ∈ trace, visit.1.client.eventQueue.Valid := fun visit member =>
    visited visit.1 (List.mem_append_left _ (List.mem_map_of_mem member))
  constructor
  · intro losesNothing visit member request supplantedReceived reaches isRequest
    exact (ClientDescriptor.rejectionLosesNothing_iff (valid visit member) _ _).mp
      (losesNothing visit member request supplantedReceived reaches isRequest)
  · intro condition visit member request supplantedReceived reaches isRequest
    exact (ClientDescriptor.rejectionLosesNothing_iff (valid visit member) _ _).mpr
      (condition visit member request supplantedReceived reaches isRequest)

/-- A message is pushed, received and acknowledged. -/
theorem rejections_lose_nothing_iff_polled :
    ∃ trace final, Run AnyStep (start webClient "q") trace final ∧ trace.length = 3 ∧
      ((∀ visit ∈ trace, ∀ request supplantedReceived reaches,
          visit.2 = .request request supplantedReceived reaches →
            visit.1.client.RejectionLosesNothing request.dontBlock request.lastEventId) ↔
        ∀ visit ∈ trace, ∀ request supplantedReceived reaches,
          visit.2 = .request request supplantedReceived reaches →
            visit.1.client.eventQueue.HarmlessAcknowledgement request.lastEventId) := by
  have pushed := Run.step .refl (perform_anyStep (start webClient "q") (.push unnotifiedMessage))
  have received := Run.step pushed
    (perform_anyStep _ (.request ⟨-1, false, 1, "website", 0⟩ true true))
  have acknowledged := Run.step received
    (perform_anyStep _ (.request ⟨0, false, 2, "website", 1⟩ true true))
  exact ⟨_, _, acknowledged, rfl, rejections_lose_nothing_iff acknowledged⟩

/-- A request with a number that no event has yet is rejected, and the waiting message is lost. -/
theorem rejection_loses_message :
    ¬ ∀ (client : ClientDescriptor) (id : String) (trace : List (Session × SessionAction))
        (final : Session), Run AnyStep (start client id) trace final →
      ∀ dontBlock lastEventId, final.client.RejectionLosesNothing dontBlock lastEventId := by
  intro losesNothing
  have pushed := Run.step .refl (perform_anyStep (start webClient "q") (.push unnotifiedMessage))
  obtain ⟨same, -⟩ := losesNothing _ _ _ _ pushed true 5 _ rfl
  exact absurd same.queue (by decide)

end Session

end Zulip.Tornado
