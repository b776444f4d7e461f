import Zulip.Tornado.EventQueue
import Zulip.Tornado.NarrowPredicate

/-!
# Client descriptors

`ClientDescriptor` with its constructor, event filters, handler fields and the
part of `fetch_events` that works on one existing descriptor. Times are exact
rationals; the descriptor's handler timer is kept as the fact that one is set.
-/

namespace Zulip.Tornado

/-- `DEFAULT_EVENT_QUEUE_TIMEOUT_SECS`. -/
def defaultEventQueueTimeoutSecs : Int := 60 * 10

/-- `MAX_QUEUE_TIMEOUT_SECS`. -/
def maxQueueTimeoutSecs : Int := 7 * 24 * 60 * 60

/-- `ClientDescriptor`. The compiled narrow predicate is the one of `narrowTerms`. -/
structure ClientDescriptor where
  userProfileId : Int
  realmId : Int
  currentHandlerId : Option Nat
  currentClientName : Option String
  eventQueue : EventQueue
  eventTypes : Option (List String)
  lastConnectionTime : Rat
  applyMarkdown : Bool
  clientGravatar : Bool
  slimPresence : Bool
  allPublicStreams : Bool
  clientTypeName : String
  timeoutHandle : Bool
  narrow : List (List String)
  narrowTerms : List NarrowTerm
  bulkMessageDeletion : Bool
  streamTypingNotifications : Bool
  userSettingsObject : Bool
  pronounsFieldTypeSupported : Bool
  linkifierUrlTemplate : Bool
  userListIncomplete : Bool
  senderApplyRawContent : Option (List String)
  queueTimeout : Int
deriving DecidableEq

/-- The parameters of the constructor, with their defaults. -/
structure ClientDescriptorArgs where
  userProfileId : Int
  realmId : Int
  eventQueue : EventQueue
  eventTypes : Option (List String)
  clientTypeName : String
  applyMarkdown : Bool := true
  clientGravatar : Bool := true
  slimPresence : Bool := false
  allPublicStreams : Bool := false
  lifespanSecs : Int := 0
  narrow : List (List String) := []
  bulkMessageDeletion : Bool := false
  streamTypingNotifications : Bool := false
  userSettingsObject : Bool := false
  pronounsFieldTypeSupported : Bool := true
  linkifierUrlTemplate : Bool := false
  userListIncomplete : Bool := false
  senderApplyRawContent : Option (List String) := some []
deriving DecidableEq

/-- How `fetch_events` answers. -/
inductive FetchResult where
  | error (exception : PyError)
  | response (events : List Event)
  /-- `type="async"`: the request waits for the next event. -/
  | async
deriving DecidableEq

/-- What one `fetch_events` call does to an existing descriptor. -/
structure FetchOutcome where
  client : ClientDescriptor
  /-- The waiting request that this one supplants, and the events it is finished with. -/
  supplanted : Option (Nat × List Event)
  result : FetchResult

namespace ClientDescriptor

/-- The lifespan that the constructor grants. -/
def grantedTimeout (lifespanSecs : Int) : Int :=
  let lifespanSecs := if lifespanSecs = 0 then defaultEventQueueTimeoutSecs else lifespanSecs
  min lifespanSecs maxQueueTimeoutSecs

/-- Granting a granted lifespan again changes nothing. -/
@[simp] theorem grantedTimeout_grantedTimeout (lifespanSecs : Int) :
    grantedTimeout (grantedTimeout lifespanSecs) = grantedTimeout lifespanSecs := by
  simp only [grantedTimeout, defaultEventQueueTimeoutSecs, maxQueueTimeoutSecs]
  split <;> split <;> omega

/-- The fields that `ClientDescriptor.__init__` sets at time `now`, once the narrow
has been read. -/
def initialized (args : ClientDescriptorArgs) (narrowTerms : List NarrowTerm) (now : Rat) :
    ClientDescriptor where
  userProfileId := args.userProfileId
  realmId := args.realmId
  currentHandlerId := none
  currentClientName := none
  eventQueue := args.eventQueue
  eventTypes := args.eventTypes
  lastConnectionTime := now
  applyMarkdown := args.applyMarkdown
  clientGravatar := args.clientGravatar
  slimPresence := args.slimPresence
  allPublicStreams := args.allPublicStreams
  clientTypeName := args.clientTypeName
  timeoutHandle := false
  narrow := args.narrow
  narrowTerms := narrowTerms
  bulkMessageDeletion := args.bulkMessageDeletion
  streamTypingNotifications := args.streamTypingNotifications
  userSettingsObject := args.userSettingsObject
  pronounsFieldTypeSupported := args.pronounsFieldTypeSupported
  linkifierUrlTemplate := args.linkifierUrlTemplate
  userListIncomplete := args.userListIncomplete
  senderApplyRawContent := args.senderApplyRawContent
  queueTimeout := grantedTimeout args.lifespanSecs

/-- `ClientDescriptor.__init__` at time `now`. -/
def new (args : ClientDescriptorArgs) (now : Rat) : Except PyError ClientDescriptor := do
  let narrowTerms ← buildNarrowTerms args.narrow
  return initialized args narrowTerms now

/-- `accepts_event`. -/
def acceptsEvent (lower : String → String) (self : ClientDescriptor) (event : EventBody) : Bool :=
  let acceptsType := match self.eventTypes with
    | none => true
    | some eventTypes =>
        -- `muted_topics` is suppressed for clients that support `user_topic`.
        eventTypes.contains event.type &&
          !(event.type = "muted_topics" && eventTypes.contains "user_topic")
  acceptsType &&
    match event with
    | .message event => narrowPredicate lower self.narrowTerms event.message event.flags
    | .plain event =>
        if event.type.name = "typing" && event.streamId.isSome then self.streamTypingNotifications
        else !(self.userSettingsObject && ["update_display_settings",
          "update_global_notifications"].contains event.type.name)
    | .updateMessageFlags _ => true

/-- `accepts_messages`. -/
def acceptsMessages (self : ClientDescriptor) : Bool :=
  match self.eventTypes with
  | none => true
  | some eventTypes => eventTypes.contains "message"

/-- `expired`. -/
def expired (self : ClientDescriptor) (now : Rat) : Bool :=
  self.currentHandlerId.isNone && decide (now - self.lastConnectionTime ≥ self.queueTimeout)

/-- The fields that `connect_handler` sets, at time `now`. Heartbeat tests get no timer. -/
def connectHandler (self : ClientDescriptor) (handlerId : Nat) (clientName : String)
    (now : Rat) : ClientDescriptor :=
  { self with
    currentHandlerId := some handlerId
    currentClientName := some clientName
    lastConnectionTime := now
    timeoutHandle :=
      if self.clientTypeName ≠ "API: heartbeat test" then true else self.timeoutHandle }

/-- The fields that `disconnect_handler` resets. -/
def disconnectHandler (self : ClientDescriptor) : ClientDescriptor :=
  { self with currentHandlerId := none, currentClientName := none, timeoutHandle := false }

/-- Push an event into the descriptor's queue. -/
def push (self : ClientDescriptor) (event : EventBody) : ClientDescriptor :=
  { self with eventQueue := self.eventQueue.push event }

/-- `finish_current_handler` on the descriptor: the contents that its handler, if
it has one, is finished with. -/
def finishCurrentHandler (self : ClientDescriptor) :
    ClientDescriptor × Option (Nat × List Event) :=
  match self.currentHandlerId with
  | none => (self, none)
  | some handlerId =>
      let contents := self.eventQueue.contents
      (disconnectHandler { self with eventQueue := contents.1 }, some (handlerId, contents.2))

@[simp] theorem push_eventQueue (self : ClientDescriptor) (event : EventBody) :
    (self.push event).eventQueue = self.eventQueue.push event := rfl

@[simp] theorem disconnectHandler_eventQueue (self : ClientDescriptor) :
    self.disconnectHandler.eventQueue = self.eventQueue := rfl

@[simp] theorem connectHandler_eventQueue (self : ClientDescriptor) (handlerId : Nat)
    (clientName : String) (now : Rat) :
    (self.connectHandler handlerId clientName now).eventQueue = self.eventQueue := rfl

/-- Without a handler nothing happens; with one, it is finished with the contents. -/
theorem finishCurrentHandler_cases (self : ClientDescriptor) :
    self.finishCurrentHandler = (self, none) ∨
      ∃ client handlerId, self.finishCurrentHandler =
        (client, some (handlerId, self.eventQueue.contents.2)) ∧
        client.eventQueue = self.eventQueue.contents.1 := by
  cases connected : self.currentHandlerId with
  | none => exact Or.inl (by simp [finishCurrentHandler, connected])
  | some handlerId =>
      refine Or.inr ⟨disconnectHandler { self with eventQueue := self.eventQueue.contents.1 },
        handlerId, ?_, rfl⟩
      simp only [finishCurrentHandler, connected]

/-! ## `fetch_events` on an existing descriptor -/

/-- The two checks of `fetch_events` and the pruning between them. A failure of
the second check keeps what was pruned. -/
def acknowledge (self : ClientDescriptor) (lastEventId : Int) :
    ClientDescriptor × Except PyError Unit :=
  if ∃ pruned ∈ self.eventQueue.newestPrunedId, lastEventId < pruned then
    (self, .error (.jsonable
      ("An event newer than " ++ toString lastEventId ++ " has already been pruned!")))
  else
    let self := { self with eventQueue := self.eventQueue.prune lastEventId }
    if ∃ pruned ∈ self.eventQueue.newestPrunedId, lastEventId ≠ pruned then
      (self, .error (.jsonable ("Event " ++ toString lastEventId ++ " was not in this queue")))
    else (self, .ok ())

/-- `fetch_events` with a `queue_id`, from `access_client_descriptor` on and up to
the final `connect_handler`. -/
def fetchEvents (self : ClientDescriptor) (dontBlock : Bool) (lastEventId : Int) : FetchOutcome :=
  match self.acknowledge lastEventId with
  | (client, .error exception) => ⟨client, none, .error exception⟩
  | (client, .ok ()) =>
      let finished := client.finishCurrentHandler
      let client := finished.1
      if !client.eventQueue.empty || dontBlock then
        let contents := client.eventQueue.contents
        ⟨{ client with eventQueue := contents.1 }, finished.2, .response contents.2⟩
      else ⟨client, finished.2, .async⟩

/-- The checks of `fetch_events` pass when nothing newer than `lastEventId` was
pruned and pruning through it remembers it. -/
theorem acknowledge_eq_ok {self : ClientDescriptor} {lastEventId : Int}
    (notPruned : ∀ pruned ∈ self.eventQueue.newestPrunedId, pruned ≤ lastEventId)
    (found : (self.eventQueue.prune lastEventId).newestPrunedId = some lastEventId) :
    self.acknowledge lastEventId =
      ({ self with eventQueue := self.eventQueue.prune lastEventId }, .ok ()) := by
  have first : ¬ ∃ pruned ∈ self.eventQueue.newestPrunedId, lastEventId < pruned := by
    rintro ⟨pruned, isPruned, below⟩
    exact absurd (notPruned pruned isPruned) (not_le.mpr below)
  have second : ¬ ∃ pruned ∈ (self.eventQueue.prune lastEventId).newestPrunedId,
      lastEventId ≠ pruned := by
    rw [found]
    simp
  simp only [acknowledge, if_neg first, if_neg second]

/-- A failing check is reported as a `JsonableError`. -/
theorem acknowledge_error {self : ClientDescriptor} {lastEventId : Int} {exception : PyError}
    (raised : (self.acknowledge lastEventId).2 = .error exception) :
    ∃ message, exception = .jsonable message := by
  simp only [acknowledge] at raised
  split at raised
  · cases raised
    exact ⟨_, rfl⟩
  · split at raised
    · cases raised
      exact ⟨_, rfl⟩
    · cases raised

@[simp] theorem acknowledge_currentHandlerId (self : ClientDescriptor) (lastEventId : Int) :
    (self.acknowledge lastEventId).1.currentHandlerId = self.currentHandlerId := by
  simp only [acknowledge]
  split
  · rfl
  · split <;> rfl

/-- After the checks, `fetch_events` finishes the waiting request and then answers
with the contents or waits. -/
theorem fetchEvents_cases {self client : ClientDescriptor} {lastEventId : Int} (dontBlock : Bool)
    (accepted : self.acknowledge lastEventId = (client, .ok ())) :
    self.fetchEvents dontBlock lastEventId =
        ⟨{ client.finishCurrentHandler.1 with
          eventQueue := client.finishCurrentHandler.1.eventQueue.contents.1 },
          client.finishCurrentHandler.2,
          .response client.finishCurrentHandler.1.eventQueue.contents.2⟩ ∨
      self.fetchEvents dontBlock lastEventId =
        ⟨client.finishCurrentHandler.1, client.finishCurrentHandler.2, .async⟩ := by
  simp only [fetchEvents, accepted]
  split
  · exact Or.inl rfl
  · exact Or.inr rfl

end ClientDescriptor

end Zulip.Tornado
