import Zulip.Foundation.Program
import Zulip.Tornado.EventTemplate

/-!
# Saving and restoring event queues

`to_dict` and `from_dict` of `EventQueue` and `ClientDescriptor`. A dictionary is a
record of optional keys, so that reading an absent one can fail. What `from_dict`
makes of `to_dict` is the descriptor without its handler and with the default
`sender_apply_raw_content`: the one key that is written and never read.
-/

namespace Zulip.Tornado

/-- The dictionary that `EventQueue.to_dict` writes. -/
structure EventQueueDict where
  id : Option String := none
  nextEventId : Option Int := none
  queue : Option (List Event) := none
  virtualEvents : Option (Dict String Event) := none
  newestPrunedId : Option Int := none
deriving DecidableEq

/-- The dictionary that `ClientDescriptor.to_dict` writes, and `client_type`, the key
that `client_type_name` had in earlier releases. -/
structure ClientDict where
  userProfileId : Option Int := none
  realmId : Option Int := none
  eventQueue : Option EventQueueDict := none
  queueTimeout : Option Int := none
  eventTypes : Option (Option (List String)) := none
  lastConnectionTime : Option Rat := none
  applyMarkdown : Option Bool := none
  clientGravatar : Option Bool := none
  slimPresence : Option Bool := none
  allPublicStreams : Option Bool := none
  narrow : Option (List (List String)) := none
  clientTypeName : Option String := none
  clientType : Option String := none
  bulkMessageDeletion : Option Bool := none
  streamTypingNotifications : Option Bool := none
  userSettingsObject : Option Bool := none
  pronounsFieldTypeSupported : Option Bool := none
  linkifierUrlTemplate : Option Bool := none
  userListIncomplete : Option Bool := none
  senderApplyRawContent : Option (Option (List String)) := none
deriving DecidableEq

/-- Python's `d[key]`. -/
def require {α : Type} : Option α → Except PyError α
  | some value => .ok value
  | none => .error .keyError

theorem require_eq_ok {α : Type} {stored : Option α} {value : α}
    (found : require stored = .ok value) : stored = some value := by
  cases stored <;> cases found
  rfl

namespace EventQueue

/-- `EventQueue.to_dict`. -/
def toDict (self : EventQueue) : EventQueueDict where
  id := some self.id
  nextEventId := some self.nextEventId
  queue := some self.queue
  virtualEvents := some self.virtualEvents
  newestPrunedId := self.newestPrunedId

/-- `EventQueue.from_dict`. -/
def fromDict (d : EventQueueDict) : Except PyError EventQueue := do
  let id ← require d.id
  let nextEventId ← require d.nextEventId
  let queue ← require d.queue
  return {
    id := id
    nextEventId := nextEventId
    newestPrunedId := d.newestPrunedId
    queue := queue
    virtualEvents := d.virtualEvents.getD .empty }

/-- A queue survives the round trip unchanged. -/
@[simp] theorem fromDict_toDict (self : EventQueue) : fromDict self.toDict = .ok self := rfl

/-- A restored queue has the id of its dictionary. -/
theorem id_of_fromDict {d : EventQueueDict} {self : EventQueue} {id : String}
    (restored : fromDict d = .ok self) (stored : d.id = some id) : self.id = id := by
  unfold fromDict at restored
  rw [stored] at restored
  obtain ⟨_, isId, restored⟩ := exists_of_bind_eq_ok restored
  obtain ⟨_, _, restored⟩ := exists_of_bind_eq_ok restored
  obtain ⟨_, _, restored⟩ := exists_of_bind_eq_ok restored
  cases isId
  cases restored
  rfl

end EventQueue

namespace ClientDescriptor

/-- `ClientDescriptor.to_dict`. -/
def toDict (self : ClientDescriptor) : ClientDict where
  userProfileId := some self.userProfileId
  realmId := some self.realmId
  eventQueue := some self.eventQueue.toDict
  queueTimeout := some self.queueTimeout
  eventTypes := some self.eventTypes
  lastConnectionTime := some self.lastConnectionTime
  applyMarkdown := some self.applyMarkdown
  clientGravatar := some self.clientGravatar
  slimPresence := some self.slimPresence
  allPublicStreams := some self.allPublicStreams
  narrow := some self.narrow
  clientTypeName := some self.clientTypeName
  bulkMessageDeletion := some self.bulkMessageDeletion
  streamTypingNotifications := some self.streamTypingNotifications
  userSettingsObject := some self.userSettingsObject
  pronounsFieldTypeSupported := some self.pronounsFieldTypeSupported
  linkifierUrlTemplate := some self.linkifierUrlTemplate
  userListIncomplete := some self.userListIncomplete
  senderApplyRawContent := some self.senderApplyRawContent

/-- `ClientDescriptor.from_dict` at time `now`. The constructor is left to its default
for `sender_apply_raw_content`. -/
def fromDict (d : ClientDict) (now : Rat) : Except PyError ClientDescriptor := do
  -- Temporary migrations of keys that were renamed or added.
  let clientTypeName := d.clientType <|> d.clientTypeName
  let clientGravatar := d.clientGravatar.getD false
  let slimPresence := d.slimPresence.getD false
  let ret ← new
    { userProfileId := ← require d.userProfileId
      realmId := ← require d.realmId
      eventQueue := ← EventQueue.fromDict (← require d.eventQueue)
      eventTypes := ← require d.eventTypes
      clientTypeName := ← require clientTypeName
      applyMarkdown := ← require d.applyMarkdown
      clientGravatar := clientGravatar
      slimPresence := slimPresence
      allPublicStreams := ← require d.allPublicStreams
      lifespanSecs := ← require d.queueTimeout
      narrow := d.narrow.getD []
      bulkMessageDeletion := d.bulkMessageDeletion.getD false
      streamTypingNotifications := d.streamTypingNotifications.getD false
      userSettingsObject := d.userSettingsObject.getD false
      pronounsFieldTypeSupported := d.pronounsFieldTypeSupported.getD true
      linkifierUrlTemplate := d.linkifierUrlTemplate.getD false
      userListIncomplete := d.userListIncomplete.getD false } now
  let lastConnectionTime ← require d.lastConnectionTime
  return { ret with lastConnectionTime := lastConnectionTime }

/-- What the constructor establishes and no later call changes: the compiled narrow is
that of `narrow`, and the queue timeout is a granted one. -/
structure Constructed (client : ClientDescriptor) : Prop where
  narrowTerms : buildNarrowTerms client.narrow = .ok client.narrowTerms
  granted : grantedTimeout client.queueTimeout = client.queueTimeout

/-- A successful constructor call: the narrow is read, the fields are set. -/
theorem new_eq_ok {args : ClientDescriptorArgs} {now : Rat} {client : ClientDescriptor}
    (built : new args now = .ok client) :
    ∃ narrowTerms, buildNarrowTerms args.narrow = .ok narrowTerms ∧
      client = initialized args narrowTerms now := by
  unfold new at built
  cases read : buildNarrowTerms args.narrow with
  | error exception =>
      rw [read] at built
      cases built
  | ok narrowTerms =>
      rw [read] at built
      cases built
      exact ⟨narrowTerms, rfl, rfl⟩

theorem new_constructed {args : ClientDescriptorArgs} {now : Rat} {client : ClientDescriptor}
    (built : new args now = .ok client) : client.Constructed := by
  obtain ⟨narrowTerms, read, rfl⟩ := new_eq_ok built
  exact ⟨read, grantedTimeout_grantedTimeout _⟩

/-- What is restored: everything but the handler and `sender_apply_raw_content`. -/
theorem fromDict_toDict {client : ClientDescriptor} (constructed : client.Constructed) (now : Rat) :
    fromDict client.toDict now = .ok { client with
      currentHandlerId := none
      currentClientName := none
      timeoutHandle := false
      senderApplyRawContent := some [] } := by
  have restored : fromDict client.toDict now = do
      let narrowTerms ← buildNarrowTerms client.narrow
      return { client with
        currentHandlerId := none
        currentClientName := none
        timeoutHandle := false
        narrowTerms := narrowTerms
        senderApplyRawContent := some []
        queueTimeout := grantedTimeout client.queueTimeout } := by
    unfold fromDict new
    cases read : buildNarrowTerms client.narrow <;>
      simp [toDict, require, initialized, bind, Except.bind, pure, Except.pure, read]
  rw [restored, constructed.narrowTerms, constructed.granted]
  rfl

/-- What a successful `from_dict` restored: the user and the queue of the dictionary,
and no handler. -/
theorem fromDict_eq_ok {d : ClientDict} {now : Rat} {client : ClientDescriptor}
    (built : fromDict d now = .ok client) :
    (∃ queueDict, d.eventQueue = some queueDict ∧
      EventQueue.fromDict queueDict = .ok client.eventQueue) ∧
      client.currentHandlerId = none ∧ d.userProfileId = some client.userProfileId := by
  unfold fromDict at built
  obtain ⟨userProfileId, isUser, built⟩ := exists_of_bind_eq_ok built
  obtain ⟨_, _, built⟩ := exists_of_bind_eq_ok built
  obtain ⟨queueDict, isQueueDict, built⟩ := exists_of_bind_eq_ok built
  obtain ⟨queue, isQueue, built⟩ := exists_of_bind_eq_ok built
  obtain ⟨_, _, built⟩ := exists_of_bind_eq_ok built
  obtain ⟨_, _, built⟩ := exists_of_bind_eq_ok built
  obtain ⟨_, _, built⟩ := exists_of_bind_eq_ok built
  obtain ⟨_, _, built⟩ := exists_of_bind_eq_ok built
  obtain ⟨_, _, built⟩ := exists_of_bind_eq_ok built
  obtain ⟨client, isClient, built⟩ := exists_of_bind_eq_ok built
  obtain ⟨_, _, built⟩ := exists_of_bind_eq_ok built
  obtain ⟨_, _, rfl⟩ := new_eq_ok isClient
  cases built
  refine ⟨⟨queueDict, require_eq_ok isQueueDict, isQueue⟩, rfl, require_eq_ok isUser⟩

/-! ## Calls before and after a restart -/

/-- A call on the event queue of a descriptor. -/
inductive QueueCall where
  | push (event : EventBody)
  | prune (throughId : Int)
  | contents (includeInternalData : Bool)

/-- The descriptor after a call on its queue. -/
def queueCall (self : ClientDescriptor) : QueueCall → ClientDescriptor
  | .push event => { self with eventQueue := self.eventQueue.push event }
  | .prune throughId => { self with eventQueue := self.eventQueue.prune throughId }
  | .contents includeInternalData =>
      { self with eventQueue := (self.eventQueue.contents includeInternalData).1 }

/-- The descriptor after several calls on its queue. -/
def queueCalls (self : ClientDescriptor) (calls : List QueueCall) : ClientDescriptor :=
  calls.foldl queueCall self

/-- Calls on the queue change the queue only. -/
theorem queueCalls_eq (self : ClientDescriptor) (calls : List QueueCall) :
    ∃ eventQueue, self.queueCalls calls = { self with eventQueue := eventQueue } := by
  induction calls generalizing self with
  | nil => exact ⟨self.eventQueue, rfl⟩
  | cons call calls inductionHypothesis =>
      obtain ⟨eventQueue, same⟩ := inductionHypothesis (self.queueCall call)
      refine ⟨eventQueue, same.trans ?_⟩
      cases call <;> rfl

/-- What the server can do with a restored descriptor. -/
inductive ClientCall where
  | queue (call : QueueCall)
  | acceptsEvent (event : EventBody)
  /-- The descriptor's turn in the last loop of `process_message_event`. -/
  | processMessageEvent (template : EventTemplate) (internalData : Option InternalData)
      (flags : List String) (isSender : Bool)

/-- What can be seen of a call. -/
inductive ClientAnswer where
  | done
  | events (events : List Event)
  | accepted (accepted : Bool)
  | added (event : Except PyError (Option MessageEvent))

/-- The effect of a call and what can be seen of it. -/
def call (env : PayloadEnvironment) (lower : String → String) (self : ClientDescriptor) :
    ClientCall → ClientDescriptor × ClientAnswer
  | .queue (.contents includeInternalData) =>
      (self.queueCall (.contents includeInternalData),
        .events (self.eventQueue.contents includeInternalData).2)
  | .queue call => (self.queueCall call, .done)
  | .acceptsEvent event => (self, .accepted (self.acceptsEvent lower event))
  | .processMessageEvent template internalData flags isSender =>
      let userEvent := template.userEvent env lower internalData self flags isSender
      (match userEvent with
        | .ok (some event) => (self.push (.message event)).finishCurrentHandler.1
        | _ => self, .added userEvent)

/-- What can be seen of several calls. -/
def answers (env : PayloadEnvironment) (lower : String → String) (self : ClientDescriptor) :
    List ClientCall → List ClientAnswer
  | [] => []
  | call :: calls =>
      let outcome := self.call env lower call
      outcome.2 :: outcome.1.answers env lower calls

/-- A restart gives back the same fields and the same answers, for every descriptor
that the constructor and calls on its queue can produce, exactly when the
constructor was given an empty `sender_apply_raw_content`. -/
theorem restart_invisible_iff {args : ClientDescriptorArgs} {now : Rat} {client : ClientDescriptor}
    (built : new args now = .ok client) (calls : List QueueCall) (restartTime : Rat) :
    (∃ restored, fromDict (client.queueCalls calls).toDict restartTime = .ok restored ∧
      restored.toDict = (client.queueCalls calls).toDict ∧
      ∀ env lower later, restored.answers env lower later =
        (client.queueCalls calls).answers env lower later) ↔
      args.senderApplyRawContent = some [] := by
  obtain ⟨eventQueue, called⟩ := client.queueCalls_eq calls
  obtain ⟨narrowTerms, read, isClient⟩ := new_eq_ok built
  have constructed : (client.queueCalls calls).Constructed := by
    obtain ⟨terms, granted⟩ := new_constructed built
    rw [called]
    exact ⟨terms, granted⟩
  have roundTrip : fromDict (client.queueCalls calls).toDict restartTime =
      .ok { client.queueCalls calls with senderApplyRawContent := some [] } := by
    rw [fromDict_toDict constructed, called, isClient]
    rfl
  rw [roundTrip]
  have given : (client.queueCalls calls).senderApplyRawContent = args.senderApplyRawContent := by
    rw [called, isClient]
    rfl
  constructor
  · rintro ⟨restored, isRestored, sameDict, _⟩
    cases isRestored
    have sameKey := congrArg ClientDict.senderApplyRawContent sameDict
    rw [← given]
    exact (Option.some.inj sameKey).symm
  · intro empty
    refine ⟨_, rfl, ?_⟩
    have unchanged : { client.queueCalls calls with senderApplyRawContent := some [] } =
        client.queueCalls calls := by
      rw [← empty, ← given]
    rw [unchanged]
    exact ⟨rfl, fun _ _ _ => rfl⟩

/-- A client that wants one sender's messages as raw text. -/
def rawContentArgs : ClientDescriptorArgs :=
  ⟨7, 2, .new "q", none, "website", true, true, false, false, 0, [], false, false, false, true,
    false, false, some ["Notification Bot"]⟩

/-- The senders whose messages are wanted as raw text are forgotten by a restart. -/
theorem restart_forgets_senderApplyRawContent :
    ¬ ∀ (args : ClientDescriptorArgs) (now : Rat) (client : ClientDescriptor),
      new args now = .ok client → ∀ (calls : List QueueCall) (restartTime : Rat),
        ∃ restored, fromDict (client.queueCalls calls).toDict restartTime = .ok restored ∧
          restored.toDict = (client.queueCalls calls).toDict ∧
          ∀ env lower later, restored.answers env lower later =
            (client.queueCalls calls).answers env lower later := by
  intro invisible
  obtain ⟨restored, isRestored, sameDict, _⟩ := invisible rawContentArgs 0 _ rfl [] 0
  cases isRestored
  have sameKey := congrArg ClientDict.senderApplyRawContent sameDict
  revert sameKey
  decide

/-- A web client with an event in its queue is restored as it was. -/
theorem restart_invisible_iff_webClient :
    let args : ClientDescriptorArgs :=
      ⟨7, 2, .new "q", none, "website", true, true, false, false, 3600, [["is", "dm"]], false,
        false, false, true, false, false, some []⟩
    let client := initialized args [⟨"is", "dm"⟩] 5
    let calls := [QueueCall.push (.updateMessageFlags
      { operation := .add, flag := "read", all := false, messages := [1] })]
    (∃ restored, fromDict (client.queueCalls calls).toDict 9 = .ok restored ∧
      restored.toDict = (client.queueCalls calls).toDict ∧
      ∀ env lower later, restored.answers env lower later =
        (client.queueCalls calls).answers env lower later) ↔
      args.senderApplyRawContent = some [] :=
  restart_invisible_iff rfl _ 9

end ClientDescriptor

end Zulip.Tornado
