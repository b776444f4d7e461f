import Zulip.Tornado.ServerRuns

/-!
# Messages that wait in event queues

The message events of a queue, which compression never touches, and `Settled`: what
the calls that neither publish notices nor deliver messages may do to them.
-/

namespace Zulip.Tornado

open Program

namespace EventBody

/-- The event, if it is a message event. -/
def message? : EventBody → Option MessageEvent
  | .message event => some event
  | _ => none

/-- Message events are not compressed. -/
theorem not_compressible_of_message? {body : EventBody} {event : MessageEvent}
    (isMessage : body.message? = some event) : body.compressible = false := by
  cases body with
  | message _ => rw [Bool.eq_false_iff, ne_eq, compressible_iff]; simp
  | updateMessageFlags _ => cases isMessage
  | plain _ => cases isMessage

end EventBody

/-- The message events among stored events. -/
def messagesOf (events : List Event) : List MessageEvent :=
  events.filterMap fun event => event.body.message?

/-- Compressed events are no messages. -/
theorem messagesOf_filter (events : List Event) :
    messagesOf (events.filter fun event => !event.body.compressible) = messagesOf events := by
  induction events with
  | nil => rfl
  | cons event rest inductionHypothesis =>
      unfold messagesOf at inductionHypothesis ⊢
      cases isMessage : event.body.message? with
      | none =>
          cases compressible : event.body.compressible <;>
            simp [compressible, isMessage, inductionHypothesis]
      | some message =>
          simp [EventBody.not_compressible_of_message? isMessage, isMessage, inductionHypothesis]

namespace EventQueue

/-- The message events of a queue. -/
def messages (self : EventQueue) : List MessageEvent := messagesOf self.queue

theorem messages_new (id : String) : (new id).messages = [] := rfl

theorem messages_push (self : EventQueue) (body : EventBody) :
    (self.push body).messages = self.messages ++ body.message?.toList := by
  unfold messages messagesOf
  rw [push_queue, List.filterMap_append]
  congr 1
  cases compressible : body.compressible with
  | false => cases isMessage : body.message? <;> simp [isMessage]
  | true =>
      cases isMessage : body.message? with
      | none => rfl
      | some event =>
          rw [EventBody.not_compressible_of_message? isMessage] at compressible
          cases compressible

/-- Pruning drops messages. -/
theorem messages_prune (self : EventQueue) (throughId : Int) :
    (self.prune throughId).messages.Sublist self.messages := by
  have dropped : (self.prune throughId).queue.Sublist self.queue := by
    rw [prune, pruneLoop_queue]
    exact List.dropWhile_sublist _
  exact dropped.filterMap _

theorem messagesOf_flattened {self : EventQueue} (valid : self.Valid) :
    messagesOf self.flattened = self.messages := by
  rw [← messagesOf_filter, filter_flattened valid, messagesOf_filter]
  rfl

theorem messages_contents {self : EventQueue} (valid : self.Valid) (includeInternalData : Bool) :
    (self.contents includeInternalData).1.messages = self.messages :=
  messagesOf_flattened valid

end EventQueue

/-! ## Calls that deliver no message -/

namespace ClientDescriptor

/-- The later descriptor is the same user's, and it holds no new message. -/
structure Retains (earlier later : ClientDescriptor) : Prop where
  user : later.userProfileId = earlier.userProfileId
  valid : earlier.eventQueue.Valid → later.eventQueue.Valid
  messages : earlier.eventQueue.Valid →
    later.eventQueue.messages.Sublist earlier.eventQueue.messages

namespace Retains

theorem refl (client : ClientDescriptor) : Retains client client :=
  ⟨rfl, id, fun _ => List.Sublist.refl _⟩

theorem trans {first second third : ClientDescriptor} (earlier : Retains first second)
    (later : Retains second third) : Retains first third where
  user := later.user.trans earlier.user
  valid valid := later.valid (earlier.valid valid)
  messages valid := (later.messages (earlier.valid valid)).trans (earlier.messages valid)

/-- A change of other fields. -/
theorem of_eq {earlier later : ClientDescriptor} (user : later.userProfileId = earlier.userProfileId)
    (queue : later.eventQueue = earlier.eventQueue) : Retains earlier later where
  user := user
  valid valid := by rwa [queue]
  messages _ := by rw [queue]

theorem contents (client : ClientDescriptor) (includeInternalData : Bool) :
    Retains client
      { client with eventQueue := (client.eventQueue.contents includeInternalData).1 } where
  user := rfl
  valid valid := EventQueue.contents_valid valid includeInternalData
  messages valid := by rw [EventQueue.messages_contents valid]

theorem prune (client : ClientDescriptor) (throughId : Int) :
    Retains client { client with eventQueue := client.eventQueue.prune throughId } where
  user := rfl
  valid valid := EventQueue.prune_valid valid throughId
  messages _ := EventQueue.messages_prune client.eventQueue throughId

theorem acknowledge (client : ClientDescriptor) (lastEventId : Int) :
    Retains client (client.acknowledge lastEventId).1 := by
  simp only [ClientDescriptor.acknowledge]
  split
  · exact refl client
  · split <;> exact prune client lastEventId

theorem push {event : EventBody} (noMessage : event.message? = none) (client : ClientDescriptor) :
    Retains client (client.push event) where
  user := rfl
  valid valid := EventQueue.push_valid valid event
  messages _ := by rw [push_eventQueue, EventQueue.messages_push, noMessage]; simp

end Retains

/-- A descriptor with a queue that holds no message. -/
structure HoldsNothing (client : ClientDescriptor) : Prop where
  valid : client.eventQueue.Valid
  messages : client.eventQueue.messages = []

theorem HoldsNothing.retains {earlier later : ClientDescriptor} (nothing : earlier.HoldsNothing)
    (retains : Retains earlier later) : later.HoldsNothing where
  valid := retains.valid nothing.valid
  messages := by
    have sublist := retains.messages nothing.valid
    rw [nothing.messages] at sublist
    exact List.sublist_nil.mp sublist

end ClientDescriptor

/-- No notice was published, and every client is a client from before that holds no new
message, or holds nothing. -/
structure Settled (before after : TornadoState) : Prop where
  published : after.published = before.published
  clients : ∀ ref ∈ after.clients.values, (after.heap ref).HoldsNothing ∨
    (ref ∈ before.clients.values ∧ (before.heap ref).Retains (after.heap ref))

namespace Settled

theorem refl (state : TornadoState) : Settled state state :=
  ⟨rfl, fun _ member => Or.inr ⟨member, .refl _⟩⟩

theorem updateClient {before state : TornadoState} (settled : Settled before state) (ref : Ref)
    {change : ClientDescriptor → ClientDescriptor}
    (retains : (state.heap ref).Retains (change (state.heap ref))) :
    Settled before (state.updateClient ref change) := by
  refine ⟨settled.published, fun other member => ?_⟩
  have later : (state.heap other).Retains ((state.updateClient ref change).heap other) := by
    by_cases isRef : other = ref
    · subst isRef
      simpa [TornadoState.updateClient] using retains
    · simpa [TornadoState.updateClient, isRef] using .refl (state.heap other)
  rcases settled.clients other member with nothing | ⟨old, earlier⟩
  · exact Or.inl (nothing.retains later)
  · exact Or.inr ⟨old, earlier.trans later⟩

/-- A new client that holds nothing. -/
theorem register {before state : TornadoState} (settled : Settled before state)
    {client : ClientDescriptor} (nothing : client.HoldsNothing) (queueId : String) :
    Settled before (TornadoState.file { state.create client with
      clients := state.clients.set queueId state.nextRef } state.nextRef) := by
  refine ⟨settled.published, fun ref member => ?_⟩
  show ((state.create client).heap ref).HoldsNothing ∨
    (ref ∈ before.clients.values ∧ (before.heap ref).Retains ((state.create client).heap ref))
  by_cases isNew : ref = state.nextRef
  · rw [isNew, TornadoState.heap_create_self]
    exact Or.inl nothing
  · have same : (state.create client).heap ref = state.heap ref := by
      simp [TornadoState.create, isNew]
    rw [same]
    obtain ⟨id, entry⟩ := Dict.mem_values.mp member
    have isEntry : (id, ref) ∈ (state.clients.set queueId state.nextRef).entries := entry
    rcases Dict.mem_entries_set.mp isEntry with new | ⟨old, _⟩
    · exact absurd (Prod.mk.inj new).2 isNew
    · exact settled.clients ref (Dict.mem_values.mpr ⟨id, old⟩)

end Settled

namespace Server

/-- A change of one object that keeps what it holds. -/
theorem updateClient_settled (ref : Ref) {change : ClientDescriptor → ClientDescriptor}
    (retains : ∀ client, ClientDescriptor.Retains client (change client)) :
    Frames Settled (updateClient ref change) :=
  Frames.modify fun _ _ settled => settled.updateClient ref (retains _)

theorem disconnectHandler_settled (ref : Ref) : Frames Settled (disconnectHandler ref) := by
  have cleared : ∀ handlerId, Frames Settled (clearDescriptorByHandlerId handlerId) := by
    intro handlerId
    refine Frames.bind (Frames.read _) fun found => ?_
    cases found with
    | none => exact Frames.raise _
    | some _ => exact Frames.modify fun _ _ settled => ⟨settled.published, settled.clients⟩
  have reset : Frames Settled (updateClient ref ClientDescriptor.disconnectHandler) :=
    updateClient_settled ref fun client => .of_eq rfl rfl
  refine Frames.bind (Frames.read _) fun client => ?_
  cases client.currentHandlerId with
  | none => exact reset
  | some handlerId =>
      dsimp only
      split
      · exact reset
      · exact Frames.bind (cleared handlerId) fun _ => reset

theorem finishCurrentHandler_settled (ref : Ref) : Frames Settled (finishCurrentHandler ref) := by
  refine Frames.bind (Frames.read _) fun client => ?_
  cases client.currentHandlerId with
  | none => exact Frames.pure false
  | some handlerId =>
      exact Frames.bind (updateClient_settled ref fun client => .contents client false) fun _ =>
        Frames.bind (disconnectHandler_settled ref) fun _ => Frames.pure true

theorem addEvent_settled (ref : Ref) {event : EventBody} (noMessage : event.message? = none) :
    Frames Settled (addEvent ref event) :=
  Frames.bind (updateClient_settled ref (.push noMessage)) fun _ =>
    Frames.bind (finishCurrentHandler_settled ref) fun _ => Frames.pure ()

theorem onConnectionClose_settled (handlerId : Nat) :
    Frames Settled (onConnectionClose handlerId) := by
  refine Frames.bind (Frames.modify fun _ _ settled => ⟨settled.published, settled.clients⟩)
    fun _ => Frames.bind (Frames.read _) fun found => ?_
  cases found with
  | none => exact Frames.pure ()
  | some ref => exact disconnectHandler_settled ref

theorem processEvent_settled (lower : String → String) {event : EventBody}
    (noMessage : event.message? = none) (users : List Int) :
    Frames Settled (processEvent lower event users) := by
  refine Frames.forEach fun userProfileId => Frames.bind (Frames.read _) fun refs =>
    Frames.forEach fun ref => Frames.bind (Frames.read _) fun client => ?_
  split
  · exact addEvent_settled ref noMessage
  · exact Frames.pure ()

theorem sendWebReloadClientEvents_settled (lower : String → String) (immediate : Bool)
    (count : Option Int) : Frames Settled (sendWebReloadClientEvents lower immediate count) := by
  have found : ∀ queueId, Frames Settled (clientAt queueId) := by
    intro queueId
    refine Frames.bind (Frames.read _) fun found => ?_
    cases found with
    | none => exact Frames.raise _
    | some ref => exact Frames.pure ref
  have each : ∀ queueId, Frames Settled (sendWebReloadClientEvent lower immediate queueId) := by
    intro queueId
    refine Frames.bind (Frames.read _) fun waiting => ?_
    cases waiting with
    | none => exact Frames.raise _
    | some _ =>
        refine Frames.bind (Frames.modify fun _ _ settled =>
          ⟨settled.published, settled.clients⟩) fun _ => Frames.bind (found queueId) fun ref =>
            Frames.bind (Frames.read _) fun client => ?_
        split
        · exact addEvent_settled ref rfl
        · exact Frames.pure ()
  exact Frames.bind (Frames.read _) fun waiting =>
    Frames.bind (Frames.forEach each) fun _ => Frames.pure _

theorem allocateClientDescriptor_settled (newQueueData : ClientDict) (queueId : String)
    (now : Rat) : Frames Settled (allocateClientDescriptor newQueueData queueId now) := by
  intro before state settled
  rcases allocateClientDescriptor_cases newQueueData queueId now state with
    ⟨exception, fails⟩ | ⟨client, isNew, _, registers⟩
  · rw [fails]
    exact settled
  · rw [registers]
    refine settled.register ⟨?_, ?_⟩ queueId
    · rw [isNew]
      exact EventQueue.new_valid queueId
    · rw [isNew]
      exact EventQueue.messages_new queueId

theorem queueToFetch_settled (args : FetchEventsArgs) : Frames Settled (queueToFetch args) := by
  unfold queueToFetch
  cases args.queueId with
  | none =>
      unfold fetchNewQueue
      dsimp only
      split
      · cases args.newQueueData with
        | none => exact Frames.raise _
        | some newQueueData => exact allocateClientDescriptor_settled _ _ _
      · exact Frames.raise _
  | some queueId =>
      unfold fetchExistingQueue
      cases args.lastEventId with
      | none => exact Frames.raise _
      | some lastEventId =>
          have accessed : Frames Settled (accessClientDescriptor args.userProfileId queueId) := by
            refine Frames.bind (Frames.read _) fun found => ?_
            cases found with
            | none => exact Frames.raise _
            | some ref =>
                refine Frames.bind (Frames.read _) fun client => ?_
                split
                · exact Frames.pure ref
                · exact Frames.raise _
          refine Frames.bind accessed fun ref => Frames.bind (Frames.read _) fun client =>
            Frames.bind (updateClient_settled ref fun client => .acknowledge client lastEventId)
              fun _ => ?_
          cases (client.acknowledge lastEventId).2 with
          | error exception => exact Frames.raise _
          | ok _ =>
              exact Frames.bind (finishCurrentHandler_settled ref) fun _ => Frames.pure ref

theorem fetchEvents_settled (args : FetchEventsArgs) : Frames Settled (fetchEvents args) := by
  refine Frames.bind (queueToFetch_settled args) fun ref =>
    Frames.bind (Frames.read _) fun client => ?_
  split
  · exact Frames.bind (updateClient_settled ref fun client => .contents client false) fun _ =>
      Frames.pure _
  · refine Frames.bind (Frames.bind (updateClient_settled ref fun client => .of_eq rfl rfl)
      fun _ => Frames.modify fun _ _ settled => ⟨settled.published, settled.clients⟩)
        fun _ => Frames.pure _

end Server

end Zulip.Tornado
