import Zulip.Foundation.Transition
import Zulip.Tornado.Registration

/-!
# Runs of a Tornado process

`ServerStep` is one call that changes the registries, the handlers or the queues.
`ServerInvariant` holds in every state that a run of such calls reaches from empty
registries, which is why collecting queues and sending reload events finds every key.
-/

namespace Zulip.Tornado

open Program

/-- The calls. -/
inductive ServerAction where
  | allocateClientDescriptor (newQueueData : ClientDict) (queueId : String) (now : Rat)
  | loadEventQueues (data : Option Server.PersistentQueues) (now : Rat)
  /-- The queues are dumped, and a new process loads them. -/
  | restart (now : Rat)
  | gcEventQueues (now : Rat) (toRemove : List String)
  | cleanup (ref : Ref)
  | sendWebReloadClientEvents (immediate : Bool) (count : Option Int)
  /-- A request, whose handler is allocated first. -/
  | fetchEvents (args : Server.FetchEventsArgs)
  | onConnectionClose (handlerId : Nat)
  | processEvent (event : EventBody) (users : List Int)
  | processMessageEvent (template : EventTemplate) (users : List UserData)

namespace ServerAction

/-- What a call runs. -/
def program (settings : Settings) (env : PayloadEnvironment) (lower : String → String) :
    ServerAction → Server Unit
  | .allocateClientDescriptor newQueueData queueId now => do
      let _ ← Server.allocateClientDescriptor newQueueData queueId now
  | .loadEventQueues data now => Server.loadEventQueues lower data now
  | .restart now => fun state =>
      Server.loadEventQueues lower (some (Server.dumpEventQueues state)) now
        { TornadoState.start with published := state.published }
  | .gcEventQueues now toRemove => Server.gcEventQueues settings now toRemove
  | .cleanup ref => Server.cleanup settings ref
  | .sendWebReloadClientEvents immediate count => do
      let _ ← Server.sendWebReloadClientEvents lower immediate count
  | .fetchEvents args => do
      let handlerId ← Server.allocateHandlerId
      let _ ← Server.fetchEvents { args with handlerId := handlerId }
  | .onConnectionClose handlerId => Server.onConnectionClose handlerId
  | .processEvent event users => Server.processEvent lower event users
  | .processMessageEvent template users =>
      Server.processMessageEvent settings env lower template users

/-- When a call can happen: a new UUID is new, loading comes at the start and reads a
saved file, the set of expired queues is iterated in some order, and only registered
clients are cleaned up. -/
def Admissible (state : TornadoState) : ServerAction → Prop
  | .allocateClientDescriptor _ queueId _ => queueId ∉ state.clients.keys
  | .loadEventQueues data _ => AtStart state ∧ ∀ queues ∈ data, Saved queues
  | .gcEventQueues now toRemove => toRemove.Perm ((state.expiredClients now).map Prod.fst)
  | .cleanup ref => ref ∈ state.clients.values
  | .fetchEvents args => args.freshQueueId ∉ state.clients.keys
  | _ => True

end ServerAction

/-- One call. -/
def ServerStep (settings : Settings) (env : PayloadEnvironment) (lower : String → String)
    (state : TornadoState) (action : ServerAction) (next : TornadoState) : Prop :=
  action.Admissible state ∧ next = (action.program settings env lower state).2

theorem ServerStep.perform {settings : Settings} {env : PayloadEnvironment}
    {lower : String → String} {state : TornadoState} (action : ServerAction)
    (admissible : action.Admissible state) :
    ServerStep settings env lower state action (action.program settings env lower state).2 :=
  ⟨admissible, rfl⟩

/-! ## What the calls keep -/

/-- The same invariant with a property of the registries. -/
theorem Quiet.keepsAnd {α : Type} {program : Server α} (quiet : Quiet program) (bound counter : Nat)
    (Fact : TornadoState → Prop)
    (respects : ∀ {before after}, SameRegistries before after → Fact before → Fact after) :
    Triple (fun state => ServerInvariant bound counter state ∧ Fact state) program
      (fun _ state => ServerInvariant bound counter state ∧ Fact state)
      (fun exception state => exception ≠ .keyError ∧ ServerInvariant bound counter state) := by
  intro state ⟨invariant, fact⟩
  have kept := quiet.keeps bound counter state invariant
  have same := quiet state bound state ⟨SameRegistries.refl state, invariant.handlers⟩
  rcases run : program state with ⟨exception | value, after⟩ <;> rw [run] at kept same
  · exact kept
  · exact ⟨kept, respects same.1 fact⟩

theorem ServerInvariant.start (published : List Notice) :
    ServerInvariant 0 0 { TornadoState.start with published := published } where
  registry :=
    ⟨RegistryInvariant.start.named, RegistryInvariant.start.created, RegistryInvariant.start.users,
      RegistryInvariant.start.realms, RegistryInvariant.start.webReload⟩
  handlers := fun _ _ connected => nomatch connected
  counter := rfl

/-- More ids may count as used. -/
theorem ServerInvariant.mono {bound larger counter : Nat} {state : TornadoState}
    (invariant : ServerInvariant bound counter state) (within : bound ≤ larger) :
    ServerInvariant larger counter state where
  registry := invariant.registry
  handlers ref handlerId connected :=
    ⟨lt_of_lt_of_le (invariant.handlers ref handlerId connected).1 within,
      (invariant.handlers ref handlerId connected).2⟩
  counter := invariant.counter

/-- Collecting queues keeps the handlers safe. -/
theorem ServerInvariant.collected {settings : Settings} {toRemove : List String}
    {bound counter : Nat} {before after : TornadoState}
    (invariant : ServerInvariant bound counter before)
    (result : GcResult settings toRemove before after) : ServerInvariant bound counter after where
  registry := result.invariant
  handlers ref handlerId connected := by
    rw [result.handlerIds] at connected
    rw [result.descriptorsByHandlerId]
    exact invariant.handlers ref handlerId connected
  counter := result.currentHandlerId.trans invariant.counter

namespace Server

/-- A new queue is registered or nothing changes. -/
theorem allocateClientDescriptor_keeps (newQueueData : ClientDict) (queueId : String) (now : Rat)
    (bound counter : Nat) :
    Triple (fun state => ServerInvariant bound counter state ∧ queueId ∉ state.clients.keys)
      (allocateClientDescriptor newQueueData queueId now)
      (fun _ => ServerInvariant bound counter) (fun _ => ServerInvariant bound counter) := by
  rintro state ⟨invariant, fresh⟩
  rcases allocateClientDescriptor_cases newQueueData queueId now state with
    ⟨exception, fails⟩ | ⟨client, isNew, idle, registers⟩
  · rw [fails]
    exact invariant
  · rw [registers]
    have stored : client.eventQueue.id = queueId := by rw [isNew]; rfl
    exact ⟨invariant.registry.register stored fresh, invariant.handlers.create idle,
      invariant.counter⟩

/-- The queues that have expired are listed once. -/
theorem expired_nodup {state : TornadoState} {now : Rat} {toRemove : List String}
    (order : toRemove.Perm ((state.expiredClients now).map Prod.fst)) : toRemove.Nodup := by
  rw [order.nodup_iff]
  exact state.clients.nodupKeys.sublist (List.filter_sublist.map Prod.fst)

/-- The queues that have expired are registered. -/
theorem expired_registered {state : TornadoState} {now : Rat} {toRemove : List String}
    (order : toRemove.Perm ((state.expiredClients now).map Prod.fst)) :
    ∀ id ∈ toRemove, id ∈ state.clients.keys := by
  intro id member
  obtain ⟨entry, isEntry, rfl⟩ := List.mem_map.mp (order.mem_iff.mp member)
  exact List.mem_map_of_mem (List.mem_of_mem_filter isEntry)

/-- Collecting the expired queues covers their users and realms. -/
theorem gcEventQueues_spec (settings : Settings) {state : TornadoState}
    (invariant : RegistryInvariant state) {now : Rat} {toRemove : List String}
    (order : toRemove.Perm ((state.expiredClients now).map Prod.fst)) :
    ∃ after, gcEventQueues settings now toRemove state = (.ok (), after) ∧
      GcResult settings toRemove state after := by
  have expired : ∀ id, id ∈ toRemove ↔ ∃ ref, (id, ref) ∈ state.expiredClients now := by
    intro id
    rw [order.mem_iff]
    simp
  have entryOf : ∀ entry ∈ state.expiredClients now, entry ∈ state.clients.entries :=
    fun entry member => List.mem_of_mem_filter member
  have isExpired : ∀ ref ∈ state.clients.values, (state.heap ref).eventQueue.id ∈ toRemove →
      ((state.heap ref).eventQueue.id, ref) ∈ state.expiredClients now := by
    intro ref member removed
    obtain ⟨id, entry⟩ := Dict.mem_values.mp member
    obtain ⟨expiredRef, isEntry⟩ := (expired _).mp removed
    have named : (state.heap ref).eventQueue.id = id := invariant.named _ entry
    have found := Dict.get?_eq_some_iff.mpr entry
    have expiredFound := Dict.get?_eq_some_iff.mpr (entryOf _ isEntry)
    rw [named, found] at expiredFound
    rw [Option.some.inj expiredFound]
    simpa [Option.some.inj expiredFound] using isEntry
  refine doGcEventQueues_spec invariant (expired_nodup order) (expired_registered order) ?_ ?_
  · intro ref member removed
    rw [List.mem_dedup]
    exact List.mem_map.mpr ⟨state.heap ref,
      List.mem_map.mpr ⟨_, isExpired ref member removed, rfl⟩, rfl⟩
  · intro ref member removed
    rw [List.mem_dedup]
    exact List.mem_map.mpr ⟨state.heap ref,
      List.mem_map.mpr ⟨_, isExpired ref member removed, rfl⟩, rfl⟩

/-- Collecting the one queue of a registered object. -/
theorem collectOne_spec (settings : Settings) {state : TornadoState}
    (invariant : RegistryInvariant state) {ref : Ref} (registered : ref ∈ state.clients.values) :
    ∃ after, doGcEventQueues settings [(state.heap ref).eventQueue.id]
        [(state.heap ref).userProfileId] [(state.heap ref).realmId] state = (.ok (), after) ∧
      GcResult settings [(state.heap ref).eventQueue.id] state after := by
  have only : ∀ other ∈ state.clients.values,
      (state.heap other).eventQueue.id ∈ [(state.heap ref).eventQueue.id] → other = ref := by
    intro other member same
    obtain ⟨otherId, otherEntry⟩ := Dict.mem_values.mp member
    obtain ⟨id, entry⟩ := Dict.mem_values.mp registered
    have otherNamed : (state.heap other).eventQueue.id = otherId := invariant.named _ otherEntry
    have named : (state.heap ref).eventQueue.id = id := invariant.named _ entry
    rw [List.mem_singleton, otherNamed, named] at same
    have otherFound := Dict.get?_eq_some_iff.mpr otherEntry
    rw [same, Dict.get?_eq_some_iff.mpr entry] at otherFound
    exact (Option.some.inj otherFound).symm
  refine doGcEventQueues_spec invariant (List.nodup_singleton _) ?_ ?_ ?_
  · intro id member
    obtain ⟨key, entry⟩ := Dict.mem_values.mp registered
    have named : (state.heap ref).eventQueue.id = key := invariant.named _ entry
    rw [List.mem_singleton.mp member, named]
    exact List.mem_map.mpr ⟨_, entry, rfl⟩
  · intro other member same
    rw [only other member same]
    exact List.mem_singleton_self _
  · intro other member same
    rw [only other member same]
    exact List.mem_singleton_self _

theorem cleanup_keeps (settings : Settings) (ref : Ref) (bound counter : Nat) :
    Triple (fun state => ServerInvariant bound counter state ∧ ref ∈ state.clients.values)
      (cleanup settings ref) (fun _ => ServerInvariant bound counter)
      (fun exception state => exception ≠ .keyError ∧ ServerInvariant bound counter state) := by
  refine Triple.bind _ ((finishCurrentHandler_quiet ref).keepsAnd bound counter
    (fun state => ref ∈ state.clients.values)
    fun same registered => by rw [same.clients]; exact registered) fun _ => ?_
  rintro state ⟨invariant, registered⟩
  obtain ⟨after, run, result⟩ := collectOne_spec settings invariant.registry registered
  simp only [getClient, run_read_bind, run]
  exact invariant.collected result

/-- A waiting client is taken off the list, found, and sent the event. -/
theorem run_sendWebReloadClientEvent {lower : String → String} {immediate : Bool} {queueId : String}
    {state : TornadoState} {ref : Ref} (waiting : queueId ∈ state.webReloadClients.keys)
    (found : state.clients.get? queueId = some ref) :
    sendWebReloadClientEvent lower immediate queueId state =
      (if (state.heap ref).acceptsEvent lower (webReloadClientEvent immediate) then
        addEvent ref (webReloadClientEvent immediate)
      else pure ()) { state with webReloadClients := state.webReloadClients.erase queueId } := by
  obtain ⟨mark, isMark⟩ := Dict.mem_keys_iff.mp waiting
  have findRef : clientAt queueId { state with
      webReloadClients := state.webReloadClients.erase queueId } = (.ok ref, { state with
        webReloadClients := state.webReloadClients.erase queueId }) := run_clientAt found
  simp only [sendWebReloadClientEvent, run_read_bind, isMark, run_modify_bind]
  rw [run_bind_of_ok findRef]
  rfl

/-- A loop over distinct waiting clients keeps the invariant and finds every key. -/
theorem sendReload_keeps (lower : String → String) (immediate : Bool) (bound counter : Nat)
    {queueIds : List String} (distinct : queueIds.Nodup) :
    Triple (fun state => ServerInvariant bound counter state ∧
        ∀ queueId ∈ queueIds, queueId ∈ state.webReloadClients.keys)
      (forEach queueIds (sendWebReloadClientEvent lower immediate))
      (fun _ => ServerInvariant bound counter)
      (fun exception state => exception ≠ .keyError ∧ ServerInvariant bound counter state) := by
  induction queueIds with
  | nil => exact fun state holds => holds.1
  | cons queueId rest inductionHypothesis =>
      obtain ⟨isNew, restDistinct⟩ := List.nodup_cons.mp distinct
      refine Triple.bind (fun _ state => ServerInvariant bound counter state ∧
        ∀ other ∈ rest, other ∈ state.webReloadClients.keys) ?_
          fun _ => inductionHypothesis restDistinct
      rintro state ⟨invariant, waiting⟩
      have isWaiting := waiting queueId List.mem_cons_self
      obtain ⟨ref, found⟩ := Dict.mem_keys_iff.mp (invariant.registry.webReload queueId isWaiting)
      rw [run_sendWebReloadClientEvent isWaiting found]
      have erased : ServerInvariant bound counter { state with
          webReloadClients := state.webReloadClients.erase queueId } := by
        refine ⟨⟨invariant.registry.named, invariant.registry.created, invariant.registry.users,
          invariant.registry.realms, fun other member => ?_⟩, invariant.handlers, invariant.counter⟩
        exact invariant.registry.webReload other (Dict.mem_keys_erase.mp member).2
      have stillWaiting : ∀ other ∈ rest,
          other ∈ (state.webReloadClients.erase queueId).keys := by
        intro other member
        refine Dict.mem_keys_erase.mpr ⟨?_, waiting other (List.mem_cons_of_mem _ member)⟩
        rintro rfl
        exact isNew member
      have quiet : Quiet (if (state.heap ref).acceptsEvent lower (webReloadClientEvent immediate) then
          addEvent ref (webReloadClientEvent immediate) else pure ()) := by
        split
        · exact addEvent_quiet ref _
        · exact Quiet.pure ()
      exact quiet.keepsAnd bound counter
        (fun state => ∀ other ∈ rest, other ∈ state.webReloadClients.keys)
        (fun same still => by rw [same.webReloadClients]; exact still) _ ⟨erased, stillWaiting⟩

theorem mem_sliceTo {α : Type} {items : List α} {count : Int} {item : α}
    (member : item ∈ sliceTo items count) : item ∈ items := by
  unfold sliceTo at member
  split at member <;> exact List.mem_of_mem_take member

theorem sliceTo_nodup {α : Type} {items : List α} (distinct : items.Nodup) (count : Int) :
    (sliceTo items count).Nodup := by
  unfold sliceTo
  split <;> exact distinct.sublist (List.take_sublist _ _)

theorem sendWebReloadClientEvents_keeps (lower : String → String) (immediate : Bool)
    (count : Option Int) (bound counter : Nat) :
    Triple (ServerInvariant bound counter) (sendWebReloadClientEvents lower immediate count)
      (fun _ => ServerInvariant bound counter)
      (fun exception state => exception ≠ .keyError ∧ ServerInvariant bound counter state) := by
  refine Triple.bind_read fun waiting => ?_
  rintro state ⟨invariant, rfl⟩
  have loop := sendReload_keeps lower immediate bound counter
    (sliceTo_nodup state.webReloadClients.keys_nodup
      (count.getD state.webReloadClients.keys.length))
  have whole : Triple _ (do
      forEach (sliceTo state.webReloadClients.keys (count.getD state.webReloadClients.keys.length))
        (sendWebReloadClientEvent lower immediate)
      return (sliceTo state.webReloadClients.keys
        (count.getD state.webReloadClients.keys.length)).length : Server Nat)
      (fun _ => ServerInvariant bound counter) _ :=
    Triple.bind _ loop fun _ => Triple.pure fun _ holds => holds
  exact whole state ⟨invariant, fun queueId member => mem_sliceTo member⟩

/-! ### Requests -/

/-- The first half of a request: a queue that is registered, or an exception. -/
theorem queueToFetch_keeps (args : FetchEventsArgs) (bound counter : Nat) :
    Triple (fun state => ServerInvariant bound counter state ∧
        args.freshQueueId ∉ state.clients.keys)
      (queueToFetch args)
      (fun _ => ServerInvariant bound counter) (fun _ => ServerInvariant bound counter) := by
  unfold queueToFetch
  cases args.queueId with
  | some queueId =>
      rintro state ⟨invariant, _⟩
      have kept := (fetchExistingQueue_quiet args queueId).keeps bound counter state invariant
      rcases run : fetchExistingQueue args queueId state with ⟨exception | ref, after⟩ <;>
        simp only [run] at kept ⊢
      · exact kept.2
      · exact kept
  | none =>
      unfold fetchNewQueue
      dsimp only
      split
      · cases args.newQueueData with
        | none => exact Triple.raise fun _ holds => holds.1
        | some newQueueData => exact allocateClientDescriptor_keeps _ _ _ bound counter
      · exact Triple.raise fun _ holds => holds.1

/-- Connecting a handler whose id was not in use. -/
theorem connectHandler_keeps (ref : Ref) (handlerId counter : Nat) (clientName : String)
    (now : Rat) :
    Triple (ServerInvariant handlerId counter) (connectHandler ref handlerId clientName now)
      (fun _ => ServerInvariant (handlerId + 1) counter) (fun _ _ => False) := by
  intro state invariant
  have same : SameRegistries state (state.updateClient ref fun client =>
      client.connectHandler handlerId clientName now) :=
    (SameRegistries.refl state).updateClient ref rfl
  refine ⟨invariant.registry.congr ⟨same.nextRef, same.clients, same.userClients,
    same.realmClientsAllStreams, same.webReloadClients, same.currentHandlerId, same.identity⟩, ?_,
    invariant.counter⟩
  intro other otherId connected
  by_cases isRef : other = ref
  · have newId : otherId = handlerId := by
      simpa [isRef, TornadoState.updateClient, ClientDescriptor.connectHandler, eq_comm]
        using connected
    rw [isRef, newId]
    exact ⟨Nat.lt_succ_self _, fun _ => Dict.get?_set_self _ _ _⟩
  · have wasConnected : (state.heap other).currentHandlerId = some otherId := by
      simpa [isRef, TornadoState.updateClient] using connected
    obtain ⟨below, listed⟩ := invariant.handlers other otherId wasConnected
    exact ⟨Nat.lt_succ_of_lt below, fun nonzero =>
      (Dict.get?_set_ne _ _ (ne_of_lt below)).trans (listed nonzero)⟩

/-- A request with the handler id that was handed out last. -/
theorem fetchEvents_keeps (args : FetchEventsArgs) (counter : Nat) :
    Triple (fun state => ServerInvariant args.handlerId counter state ∧
        args.freshQueueId ∉ state.clients.keys)
      (fetchEvents args) (fun _ => ServerInvariant (args.handlerId + 1) counter)
      (fun _ => ServerInvariant (args.handlerId + 1) counter) := by
  have used : ∀ state, ServerInvariant args.handlerId counter state →
      ServerInvariant (args.handlerId + 1) counter state :=
    fun _ invariant => invariant.mono (Nat.le_succ _)
  refine Triple.bind (fun _ => ServerInvariant args.handlerId counter)
    ((queueToFetch_keeps args args.handlerId counter).weaken (fun _ holds => holds)
      (fun _ _ holds => holds) fun _ => used) fun ref => ?_
  refine Triple.bind_read fun client => ?_
  split
  · have read : Quiet (do
        updateClient ref fun client => { client with eventQueue := client.eventQueue.contents.1 }
        return some client.eventQueue.contents.2 : Server (Option (List Event))) :=
      Quiet.bind (Quiet.updateClient ref (fun _ => rfl) fun _ => rfl) fun _ => Quiet.pure _
    exact (read.keeps args.handlerId counter).weaken (fun _ holds => holds.1) (fun _ => used)
      fun _ state holds => used state holds.2
  · refine Triple.bind (fun _ => ServerInvariant (args.handlerId + 1) counter) ?_
      fun _ => Triple.pure fun _ holds => holds
    exact (connectHandler_keeps ref args.handlerId counter args.clientTypeName args.now).weaken
      (fun _ holds => holds.1) (fun _ _ holds => holds) fun _ _ impossible => impossible.elim

end Server

/-- A file that this process writes is a saved one. -/
theorem RegistryInvariant.dump_saved {state : TornadoState} (invariant : RegistryInvariant state) :
    Saved (Server.dumpEventQueues state) := by
  intro pair member
  obtain ⟨entry, isEntry, rfl⟩ := List.mem_map.mp member
  exact ⟨_, rfl, congrArg some (invariant.named entry isEntry)⟩

/-- One call keeps the invariant, with as many handler ids used as were handed out. -/
theorem ServerStep.keeps {settings : Settings} {env : PayloadEnvironment}
    {lower : String → String} {state next : TornadoState} {action : ServerAction} {counter : Nat}
    (invariant : ServerInvariant counter counter state)
    (transition : ServerStep settings env lower state action next) :
    ∃ later, ServerInvariant later later next := by
  obtain ⟨admissible, rfl⟩ := transition
  have quiet : ∀ {program : Server Unit}, Quiet program →
      ServerInvariant counter counter (program state).2 := fun isQuiet =>
    ((isQuiet.keeps counter counter).weaken (fun _ holds => holds) (fun _ _ holds => holds)
      (fun _ _ holds => holds.2)).final invariant
  cases action with
  | allocateClientDescriptor newQueueData queueId now =>
      refine ⟨counter, Triple.final (Triple.bind _
        (Server.allocateClientDescriptor_keeps newQueueData queueId now counter counter) fun _ =>
          Triple.pure fun _ holds => holds) ⟨invariant, admissible⟩⟩
  | loadEventQueues data now =>
      obtain ⟨after, run, loaded, _⟩ :=
        Server.loadEventQueues_spec invariant.handlers admissible.1 admissible.2 lower now
      simp only [ServerAction.program, run]
      rw [invariant.counter] at loaded
      exact ⟨counter, loaded⟩
  | restart now =>
      let fresh : TornadoState := { TornadoState.start with published := state.published }
      have atStart : AtStart fresh := ⟨rfl, rfl, rfl, rfl⟩
      have saved : ∀ queues ∈ some (Server.dumpEventQueues state), Saved queues := by
        rintro _ ⟨⟩
        exact invariant.registry.dump_saved
      obtain ⟨after, run, loaded, _⟩ := Server.loadEventQueues_spec
        (ServerInvariant.start state.published).handlers atStart saved lower now
      refine ⟨0, ?_⟩
      show ServerInvariant 0 0 (Server.loadEventQueues lower _ now fresh).2
      rw [run]
      exact loaded
  | gcEventQueues now toRemove =>
      obtain ⟨after, run, result⟩ := Server.gcEventQueues_spec settings
        invariant.registry admissible
      simp only [ServerAction.program, run]
      exact ⟨counter, invariant.collected result⟩
  | cleanup ref =>
      exact ⟨counter, ((Server.cleanup_keeps settings ref counter counter).weaken
        (fun _ holds => holds) (fun _ _ holds => holds) (fun _ _ holds => holds.2)).final
          ⟨invariant, admissible⟩⟩
  | sendWebReloadClientEvents immediate count =>
      refine ⟨counter, Triple.final (Triple.bind _
        ((Server.sendWebReloadClientEvents_keeps lower immediate count counter counter).weaken
          (fun _ holds => holds) (fun _ _ holds => holds) (fun _ _ holds => holds.2)) fun _ =>
            Triple.pure fun _ holds => holds) invariant⟩
  | fetchEvents args =>
      refine ⟨counter + 1, ?_⟩
      let allocated : TornadoState := { state with
        handlers := state.handlers.set state.currentHandlerId ()
        currentHandlerId := state.currentHandlerId + 1 }
      have before : ServerInvariant counter (counter + 1) allocated :=
        ⟨⟨invariant.registry.named, invariant.registry.created, invariant.registry.users,
          invariant.registry.realms, invariant.registry.webReload⟩, invariant.handlers,
          congrArg (· + 1) invariant.counter⟩
      have fetched := Server.fetchEvents_keeps { args with handlerId := counter } (counter + 1)
      have whole : Triple _ (do
          let _ ← Server.fetchEvents { args with handlerId := counter } : Server Unit)
          (fun _ => ServerInvariant (counter + 1) (counter + 1)) _ :=
        Triple.bind _ fetched fun _ => Triple.pure fun _ holds => holds
      have final := @Triple.final _ _ _ _ _ _ allocated whole ⟨before, admissible⟩
      rw [← invariant.counter] at final ⊢
      exact final
  | onConnectionClose handlerId => exact ⟨counter, quiet (Server.onConnectionClose_quiet handlerId)⟩
  | processEvent event users => exact ⟨counter, quiet (Server.processEvent_quiet lower event users)⟩
  | processMessageEvent template users =>
      exact ⟨counter, quiet (Server.processMessageEvent_quiet settings env lower template users)⟩

theorem ServerStep.run_keeps {settings : Settings} {env : PayloadEnvironment}
    {lower : String → String} {trace : List (TornadoState × ServerAction)} {final : TornadoState}
    (run : Run (ServerStep settings env lower) TornadoState.start trace final) :
    ∃ counter, ServerInvariant counter counter final := by
  let Inv (state : TornadoState) : Prop := ∃ counter, ServerInvariant counter counter state
  have start : Inv TornadoState.start := ⟨0, ServerInvariant.start []⟩
  have kept : ∀ {state action next}, Inv state → ServerStep settings env lower state action next →
      Inv next := fun ⟨_, invariant⟩ transition => transition.keeps invariant
  exact run.invariant start kept

/-- In every state that a process reaches, the registries are consistent, and neither
collecting queues nor sending reload events raises a `KeyError`. -/
theorem registries_consistent {settings : Settings} {env : PayloadEnvironment}
    {lower : String → String} {trace : List (TornadoState × ServerAction)} {final : TornadoState}
    (run : Run (ServerStep settings env lower) TornadoState.start trace final) :
    RegistryInvariant final ∧
    (∀ now toRemove, toRemove.Perm ((final.expiredClients now).map Prod.fst) →
      ∃ after, Server.gcEventQueues settings now toRemove final = (.ok (), after)) ∧
    (∀ ref ∈ final.clients.values, (Server.cleanup settings ref final).1 ≠ .error .keyError) ∧
    ∀ immediate count,
      (Server.sendWebReloadClientEvents lower immediate count final).1 ≠ .error .keyError := by
  obtain ⟨counter, invariant⟩ := ServerStep.run_keeps run
  have noKeyError : ∀ {α : Type} {Pre : TornadoState → Prop} {program : Server α},
      Triple Pre program (fun _ => ServerInvariant counter counter)
        (fun exception state => exception ≠ .keyError ∧ ServerInvariant counter counter state) →
      Pre final → (program final).1 ≠ .error .keyError := by
    intro α Pre program triple holds raised
    have result := triple final holds
    rcases ran : program final with ⟨exception | value, after⟩ <;> rw [ran] at result raised
    · exact result.1 (Except.error.inj raised)
    · cases raised
  refine ⟨invariant.registry, ?_, ?_, ?_⟩
  · intro now toRemove order
    obtain ⟨after, ran, _⟩ := Server.gcEventQueues_spec settings invariant.registry order
    exact ⟨after, ran⟩
  · intro ref registered
    exact noKeyError (Server.cleanup_keeps settings ref counter counter) ⟨invariant, registered⟩
  · intro immediate count
    exact noKeyError
      (Server.sendWebReloadClientEvents_keeps lower immediate count counter counter) invariant

/-- What a web client sends to register its queue. -/
def webQueueData (userProfileId : Int) : ClientDict where
  userProfileId := some userProfileId
  realmId := some 2
  queueTimeout := some 0
  eventTypes := some none
  lastConnectionTime := some 0
  applyMarkdown := some true
  clientGravatar := some true
  slimPresence := some false
  allPublicStreams := some true
  clientTypeName := some "website"

/-- An environment without avatars. -/
def plainEnvironment : PayloadEnvironment :=
  ⟨fun _ _ _ _ _ _ _ => none, "", fun host => host, "Unknown user"⟩

/-- Two queues of one user are registered and one of them is cleaned up. -/
theorem registries_consistent_cleanup :
    ∃ trace final, Run (ServerStep ⟨1, true⟩ plainEnvironment id) TornadoState.start trace final ∧
      final.clients.keys = ["b"] ∧ final.userClients.get? 7 = some [1] ∧
      RegistryInvariant final ∧
      (∀ now toRemove, toRemove.Perm ((final.expiredClients now).map Prod.fst) →
        ∃ after, Server.gcEventQueues ⟨1, true⟩ now toRemove final = (.ok (), after)) ∧
      (∀ ref ∈ final.clients.values,
        (Server.cleanup ⟨1, true⟩ ref final).1 ≠ .error .keyError) ∧
      ∀ immediate count,
        (Server.sendWebReloadClientEvents id immediate count final).1 ≠ .error .keyError := by
  have first := Run.step (@Run.refl _ _ (ServerStep ⟨1, true⟩ plainEnvironment id)
    TornadoState.start) (ServerStep.perform
      (.allocateClientDescriptor (webQueueData 7) "a" 0) (show "a" ∉ _ by decide))
  have second := first.step (ServerStep.perform
    (.allocateClientDescriptor (webQueueData 7) "b" 0) (show "b" ∉ _ by decide))
  have third := second.step (ServerStep.perform (.cleanup 0) (show 0 ∈ _ by decide))
  exact ⟨_, _, third, by decide, by decide, registries_consistent third⟩

end Zulip.Tornado
