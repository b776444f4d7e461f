import Mathlib.Data.List.Dedup
import Mathlib.Data.List.Sort
import Mathlib.Data.Rat.Defs
import Zulip.Foundation.Index
import Zulip.Foundation.Program
import Zulip.Tornado.Notices
import Zulip.Tornado.Persistence

/-!
# The state of a Tornado process

The module-level dictionaries of `event_queue.py`, `descriptors.py` and `handlers.py`,
and the functions that work on them. A `ClientDescriptor` is an object that several
dictionaries share, so descriptors live in a heap and the dictionaries hold references.
`published` records the notices that were published.
-/

namespace Zulip.Tornado

/-- A reference to a `ClientDescriptor` object. -/
abbrev Ref := Nat

/-- The state of the process. -/
structure TornadoState where
  /-- The descriptor objects; those from `nextRef` on are not created yet. -/
  heap : Ref → ClientDescriptor
  nextRef : Ref
  clients : Dict String Ref
  userClients : Dict Int (List Ref)
  realmClientsAllStreams : Dict Int (List Ref)
  webReloadClients : Dict String Unit
  descriptorsByHandlerId : Dict Nat Ref
  handlers : Dict Nat Unit
  /-- `current_handler_id` of `handlers.py`: the next id to hand out. -/
  currentHandlerId : Nat
  published : List Notice

/-- The settings and the registered hook that the functions consult. -/
structure Settings where
  mobileNotificationsShards : Int
  /-- `add_client_gc_hook(missedmessage_hook)` was called. -/
  missedmessageHookRegistered : Bool

/-- A function of the server. -/
abbrev Server := Program TornadoState PyError

namespace TornadoState

/-- A process whose dictionaries are empty. -/
def start : TornadoState where
  heap := fun _ => .initialized ⟨0, 0, .new "", none, "", true, true, false, false, 0, [], false,
    false, false, true, false, false, some []⟩ [] 0
  nextRef := 0
  clients := .empty
  userClients := .empty
  realmClientsAllStreams := .empty
  webReloadClients := .empty
  descriptorsByHandlerId := .empty
  handlers := .empty
  currentHandlerId := 0
  published := []

/-- Change one descriptor object. -/
def updateClient (state : TornadoState) (ref : Ref) (change : ClientDescriptor → ClientDescriptor) :
    TornadoState :=
  { state with heap := fun other =>
      if other = ref then change (state.heap ref) else state.heap other }

/-- Create a descriptor object. -/
def create (state : TornadoState) (client : ClientDescriptor) : TornadoState :=
  { state with
    heap := fun other => if other = state.nextRef then client else state.heap other
    nextRef := state.nextRef + 1 }

end TornadoState

namespace Server

/-- Read an object's fields. -/
def getClient (ref : Ref) : Server ClientDescriptor := .read fun state => state.heap ref

/-- Write an object's fields. -/
def updateClient (ref : Ref) (change : ClientDescriptor → ClientDescriptor) : Server Unit :=
  .modify fun state => state.updateClient ref change

/-- `clients[queue_id]`. -/
def clientAt (queueId : String) : Server Ref := do
  match ← Program.read fun state => state.clients.get? queueId with
  | some ref => return ref
  | none => Program.raise .keyError

/-! ## Handlers -/

/-- `allocate_handler_id`. -/
def allocateHandlerId : Server Nat := do
  let handlerId ← Program.read TornadoState.currentHandlerId
  Program.modify fun state => { state with
    handlers := state.handlers.set handlerId ()
    currentHandlerId := handlerId + 1 }
  return handlerId

/-- `clear_handler_by_id`. -/
def clearHandlerById (handlerId : Nat) : Server Unit :=
  .modify fun state => { state with handlers := state.handlers.erase handlerId }

/-- `clear_descriptor_by_handler_id`. -/
def clearDescriptorByHandlerId (handlerId : Nat) : Server Unit := do
  match ← Program.read fun state => state.descriptorsByHandlerId.get? handlerId with
  | some _ => Program.modify fun state => { state with
      descriptorsByHandlerId := state.descriptorsByHandlerId.erase handlerId }
  | none => Program.raise .keyError

/-- `ClientDescriptor.disconnect_handler`. -/
def disconnectHandler (ref : Ref) : Server Unit := do
  let client ← getClient ref
  match client.currentHandlerId with
  | none => pure ()
  | some handlerId =>
      -- The guard is the truth value of the id, which 0 has not.
      if handlerId = 0 then pure () else clearDescriptorByHandlerId handlerId
  updateClient ref ClientDescriptor.disconnectHandler

/-- `ClientDescriptor.connect_handler` at time `now`. -/
def connectHandler (ref : Ref) (handlerId : Nat) (clientName : String) (now : Rat) :
    Server Unit := do
  updateClient ref fun client => client.connectHandler handlerId clientName now
  Program.modify fun state => { state with
    descriptorsByHandlerId := state.descriptorsByHandlerId.set handlerId ref }

/-- `ClientDescriptor.finish_current_handler`. `finish_handler` hands the contents to
the handler, if it is still there, and changes nothing else. -/
def finishCurrentHandler (ref : Ref) : Server Bool := do
  let client ← getClient ref
  match client.currentHandlerId with
  | none => return false
  | some _ =>
      updateClient ref fun client => { client with eventQueue := client.eventQueue.contents.1 }
      disconnectHandler ref
      return true

/-- `ClientDescriptor.add_event`. -/
def addEvent (ref : Ref) (event : EventBody) : Server Unit := do
  updateClient ref fun client => client.push event
  let _ ← finishCurrentHandler ref

/-- `AsyncDjangoHandler.on_connection_close` of the handler with this id. -/
def onConnectionClose (handlerId : Nat) : Server Unit := do
  clearHandlerById handlerId
  match ← Program.read fun state => state.descriptorsByHandlerId.get? handlerId with
  | none => pure ()
  | some ref => disconnectHandler ref

/-! ## Registries -/

/-- `add_to_client_dicts`. -/
def addToClientDicts (ref : Ref) : Server Unit := do
  let client ← getClient ref
  Program.modify fun state => { state with
    userClients := state.userClients.append client.userProfileId ref }
  if client.allPublicStreams || !client.narrow.isEmpty then
    Program.modify fun state => { state with
      realmClientsAllStreams := state.realmClientsAllStreams.append client.realmId ref }
  else pure ()

/-- `access_client_descriptor`. -/
def accessClientDescriptor (userId : Int) (queueId : String) : Server Ref := do
  let badEventQueueId : PyError := .jsonable ("Bad event queue ID: " ++ queueId)
  match ← Program.read fun state => state.clients.get? queueId with
  | none => Program.raise badEventQueueId
  | some ref =>
      let client ← getClient ref
      if userId = client.userProfileId then return ref else Program.raise badEventQueueId

/-- `allocate_client_descriptor` at time `now`, where `queueId` is the new UUID. -/
def allocateClientDescriptor (newQueueData : ClientDict) (queueId : String) (now : Rat) :
    Server Ref := do
  let newQueueData := { newQueueData with eventQueue := some (EventQueue.new queueId).toDict }
  match ClientDescriptor.fromDict newQueueData now with
  | .error exception => Program.raise exception
  | .ok client =>
      let ref ← Program.read TornadoState.nextRef
      Program.modify fun state => state.create client
      Program.modify fun state => { state with clients := state.clients.set queueId ref }
      addToClientDicts ref
      return ref

/-- The `web_reload_client` event, whose other key no filter looks at. -/
def webReloadClientEvent (immediate : Bool) : EventBody :=
  .plain
    { type := ⟨"web_reload_client", by decide, by decide, by decide⟩
      rest := [("immediate", if immediate then "true" else "false")] }

/-- `mark_clients_to_reload`. -/
def markClientsToReload (lower : String → String) (queueIds : List String) : Server Unit := do
  let accepting ← Program.read fun state => queueIds.filter fun queueId =>
    match state.clients.get? queueId with
    | some ref => (state.heap ref).acceptsEvent lower (webReloadClientEvent false)
    | none => false
  let realmId ← Program.read fun state queueId =>
    ((state.clients.get? queueId).map fun ref => (state.heap ref).realmId).getD 0
  Program.forEach (accepting.insertionSort fun left right => realmId left ≤ realmId right)
    fun queueId => Program.modify fun state => { state with
      webReloadClients := state.webReloadClients.set queueId () }

/-- The persisted file: the queue ids with their dictionaries. -/
abbrev PersistentQueues := List (String × ClientDict)

/-- The list that `dump_event_queues` writes. -/
def dumpEventQueues (state : TornadoState) : PersistentQueues :=
  state.clients.entries.map fun entry => (entry.1, (state.heap entry.2).toDict)

/-- The dictionary comprehension of `load_event_queues`. -/
def restoreClients (loaded : List (String × ClientDescriptor)) : Server Unit := do
  Program.modify fun state => { state with clients := .empty }
  Program.forEach loaded fun pair => do
    let ref ← Program.read TornadoState.nextRef
    Program.modify fun state => state.create pair.2
    Program.modify fun state => { state with clients := state.clients.set pair.1 ref }

/-- `load_event_queues` at time `now`; without a readable file there is no data. What
cannot be deserialized is logged and leaves `clients` as it is. -/
def loadEventQueues (lower : String → String) (data : Option PersistentQueues) (now : Rat) :
    Server Unit := do
  match data with
  | none => pure ()
  | some data =>
      match data.mapM fun pair => (ClientDescriptor.fromDict pair.2 now).map (Prod.mk pair.1) with
      | .error _ => pure ()
      | .ok loaded => restoreClients loaded
  let queueIds ← Program.read fun state => state.clients.keys
  markClientsToReload lower queueIds
  let refs ← Program.read fun state => state.clients.values
  Program.forEach refs addToClientDicts

/-- Python's `items[:count]`. -/
def sliceTo {α : Type} (items : List α) (count : Int) : List α :=
  if count < 0 then items.take (items.length - count.natAbs) else items.take count.toNat

/-- The body of the loop of `send_web_reload_client_events`. -/
def sendWebReloadClientEvent (lower : String → String) (immediate : Bool) (queueId : String) :
    Server Unit := do
  match ← Program.read fun state => state.webReloadClients.get? queueId with
  | none => Program.raise .keyError
  | some _ => Program.modify fun state => { state with
      webReloadClients := state.webReloadClients.erase queueId }
  let ref ← clientAt queueId
  let client ← getClient ref
  if client.acceptsEvent lower (webReloadClientEvent immediate) then
    addEvent ref (webReloadClientEvent immediate)
  else pure ()

/-- `send_web_reload_client_events`. -/
def sendWebReloadClientEvents (lower : String → String) (immediate : Bool) (count : Option Int) :
    Server Nat := do
  let waiting ← Program.read fun state => state.webReloadClients.keys
  let queueIds := sliceTo waiting (count.getD waiting.length)
  Program.forEach queueIds (sendWebReloadClientEvent lower immediate)
  return queueIds.length

/-! ## Garbage collection -/

/-- The body of the loop of `missedmessage_hook`. -/
def hookEvent (settings : Settings) (userProfileId : Int) (event : Event) : Server Unit :=
  match event.body with
  | .message event => Program.modify fun state => { state with
      published := state.published ++
        event.hookNotices settings.mobileNotificationsShards userProfileId }
  | _ => pure ()

/-- `missedmessage_hook`. -/
def missedmessageHook (settings : Settings) (userProfileId : Int) (ref : Ref)
    (lastForClient : Bool) : Server Unit := do
  if !lastForClient then
    return ()
  let client ← getClient ref
  let contents := client.eventQueue.contents true
  updateClient ref fun client => { client with eventQueue := contents.1 }
  Program.forEach contents.2 (hookEvent settings userProfileId)

/-- The body of the last loop of `do_gc_event_queues`. -/
def gcEventQueue (settings : Settings) (id : String) : Server Unit := do
  Program.modify fun state => { state with webReloadClients := state.webReloadClients.erase id }
  let ref ← clientAt id
  let client ← getClient ref
  let lastForClient ← Program.read fun state =>
    decide (client.userProfileId ∉ state.userClients.keys)
  if settings.missedmessageHookRegistered then
    missedmessageHook settings client.userProfileId ref lastForClient
  else pure ()
  Program.modify fun state => { state with clients := state.clients.erase id }

/-- `do_gc_event_queues`. -/
def doGcEventQueues (settings : Settings) (toRemove : List String) (affectedUsers : List Int)
    (affectedRealms : List Int) : Server Unit := do
  let kept ← Program.read fun state (ref : Ref) =>
    !toRemove.contains (state.heap ref).eventQueue.id
  Program.modify fun state => { state with
    userClients := state.userClients.filterKeys affectedUsers kept }
  Program.modify fun state => { state with
    realmClientsAllStreams := state.realmClientsAllStreams.filterKeys affectedRealms kept }
  Program.forEach toRemove (gcEventQueue settings)

end Server

namespace TornadoState

/-- The entries of `clients` that have expired at time `now`. -/
def expiredClients (state : TornadoState) (now : Rat) : List (String × Ref) :=
  state.clients.entries.filter fun entry => (state.heap entry.2).expired now

end TornadoState

namespace Server

/-- `gc_event_queues` at time `start`, where `toRemove` lists the expired queues in the
order in which the set is iterated. -/
def gcEventQueues (settings : Settings) (start : Rat) (toRemove : List String) : Server Unit := do
  let expired ← Program.read fun state => (state.expiredClients start).map fun entry =>
    state.heap entry.2
  doGcEventQueues settings toRemove (expired.map ClientDescriptor.userProfileId).dedup
    (expired.map ClientDescriptor.realmId).dedup

/-- `ClientDescriptor.cleanup`. -/
def cleanup (settings : Settings) (ref : Ref) : Server Unit := do
  let _ ← finishCurrentHandler ref
  let client ← getClient ref
  doGcEventQueues settings [client.eventQueue.id] [client.userProfileId] [client.realmId]

/-- The view `cleanup_event_queue` of a user. -/
def cleanupEventQueue (settings : Settings) (userId : Int) (queueId : String) : Server Unit := do
  let ref ← accessClientDescriptor userId queueId
  cleanup settings ref

/-! ## Requests and events -/

/-- The arguments of `fetch_events`, with the new UUID and the time of the call. -/
structure FetchEventsArgs where
  queueId : Option String
  dontBlock : Bool
  lastEventId : Option Int
  userProfileId : Int
  newQueueData : Option ClientDict
  clientTypeName : String
  handlerId : Nat
  freshQueueId : String
  now : Rat

/-- The first branch of `fetch_events`: a new queue. -/
def fetchNewQueue (args : FetchEventsArgs) : Server Ref :=
  if args.dontBlock then
    match args.newQueueData with
    | none => Program.raise .assertionError
    | some newQueueData => allocateClientDescriptor newQueueData args.freshQueueId args.now
  else Program.raise (.jsonable "Missing 'queue_id' argument")

/-- The second branch of `fetch_events`: the checks, the pruning and the end of the
waiting request. -/
def fetchExistingQueue (args : FetchEventsArgs) (queueId : String) : Server Ref :=
  match args.lastEventId with
  | none => Program.raise (.jsonable "Missing 'last_event_id' argument")
  | some lastEventId => do
      let ref ← accessClientDescriptor args.userProfileId queueId
      let client ← getClient ref
      updateClient ref fun client => (client.acknowledge lastEventId).1
      match (client.acknowledge lastEventId).2 with
      | .error exception => Program.raise exception
      | .ok () =>
          let _ ← finishCurrentHandler ref
          return ref

/-- The queue that a request is about. -/
def queueToFetch (args : FetchEventsArgs) : Server Ref :=
  match args.queueId with
  | none => fetchNewQueue args
  | some queueId => fetchExistingQueue args queueId

/-- `fetch_events`. A `JsonableError`, which it returns, is raised here; `none` is the
response `async`. -/
def fetchEvents (args : FetchEventsArgs) : Server (Option (List Event)) := do
  let ref ← queueToFetch args
  let client ← getClient ref
  if !client.eventQueue.empty || args.dontBlock then
    updateClient ref fun client => { client with eventQueue := client.eventQueue.contents.1 }
    return some client.eventQueue.contents.2
  else
    connectHandler ref args.handlerId args.clientTypeName args.now
    return none

/-- `get_client_descriptors_for_user`. -/
def getClientDescriptorsForUser (userProfileId : Int) : Server (List Ref) :=
  .read fun state => state.userClients.getD userProfileId []

/-- `process_event`. -/
def processEvent (lower : String → String) (event : EventBody) (users : List Int) : Server Unit :=
  Program.forEach users fun userProfileId => do
    let refs ← getClientDescriptorsForUser userProfileId
    Program.forEach refs fun ref => do
      let client ← getClient ref
      if client.acceptsEvent lower event then addEvent ref event else pure ()

end Server

/-! ## New messages -/

/-- `ClientInfo`. -/
structure ClientInfo where
  client : Ref
  flags : List String
  isSender : Bool

namespace TornadoState

/-- The inner function `is_sender_client`. -/
def isSenderClient (state : TornadoState) (template : EventTemplate) (ref : Ref) : Bool :=
  template.senderQueueId = some (state.heap ref).eventQueue.id

/-- One assignment to `send_to_clients`. -/
def sendToClient (state : TornadoState) (template : EventTemplate) (flags : List String)
    (sendToClients : Dict String ClientInfo) (ref : Ref) : Dict String ClientInfo :=
  sendToClients.set (state.heap ref).eventQueue.id
    ⟨ref, flags, state.isSenderClient template ref⟩

/-- `get_client_info_for_message_event`. -/
def getClientInfoForMessageEvent (state : TornadoState) (template : EventTemplate)
    (users : List UserData) : Dict String ClientInfo :=
  let allStreams :=
    if template.streamName.isSome && !template.inviteOnly then
      state.realmClientsAllStreams.getD template.realmId []
    else []
  let sendToClients := allStreams.foldl (state.sendToClient template []) .empty
  users.foldl (fun sendToClients user =>
    (state.userClients.getD user.id []).foldl (state.sendToClient template user.flags) sendToClients)
    sendToClients

/-- `receiver_is_off_zulip`. -/
def receiverIsOffZulip (state : TornadoState) (userProfileId : Int) : Bool :=
  ((state.userClients.getD userProfileId []).filter fun ref =>
    (state.heap ref).acceptsMessages).isEmpty

end TornadoState

namespace Server

/-- The first loop of `process_message_event`: it fills `extra_user_data` and publishes. -/
def notifyUsers (settings : Settings) (template : EventTemplate) :
    List UserData → Dict Int InternalData → Server (Dict Int InternalData)
  | [], extraUserData => return extraUserData
  | user :: users, extraUserData => do
      let offZulip ← Program.read fun state => state.receiverIsOffZulip user.id
      match template.notifyUser settings.mobileNotificationsShards offZulip user with
      | none => Program.raise .assertionError
      | some (internalData, notices) =>
          Program.modify fun state => { state with published := state.published ++ notices }
          notifyUsers settings template users (extraUserData.set user.id internalData)

/-- The body of the last loop of `process_message_event`. -/
def sendMessageEvent (env : PayloadEnvironment) (lower : String → String) (template : EventTemplate)
    (extraUserData : Dict Int InternalData) (info : ClientInfo) : Server Unit := do
  let client ← getClient info.client
  match template.userEvent env lower (extraUserData.get? client.userProfileId) client info.flags
    info.isSender with
  | .error exception => Program.raise exception
  | .ok none => pure ()
  | .ok (some event) => addEvent info.client (.message event)

/-- `process_message_event`. -/
def processMessageEvent (settings : Settings) (env : PayloadEnvironment) (lower : String → String)
    (template : EventTemplate) (users : List UserData) : Server Unit := do
  let sendToClients ← Program.read fun state => state.getClientInfoForMessageEvent template users
  let extraUserData ← notifyUsers settings template users .empty
  Program.forEach sendToClients.values (sendMessageEvent env lower template extraUserData)

end Server

end Zulip.Tornado
