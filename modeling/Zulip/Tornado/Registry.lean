import Zulip.Foundation.Transition
import Zulip.Tornado.Server

/-!
# The registries of event queues

`RegistryInvariant` ties `user_clients`, `realm_clients_all_streams` and
`web_reload_clients` to `clients`. Functions that only work on the objects keep it
because they are `Quiet`; the ones that change the registries are run step by step.
-/

namespace Zulip.Tornado

namespace ClientDescriptor

/-- The fields by which the registries file a descriptor. They never change. -/
def identity (client : ClientDescriptor) : String × Int × Int × Bool × List (List String) :=
  (client.eventQueue.id, client.userProfileId, client.realmId, client.allPublicStreams,
    client.narrow)

/-- `all_public_streams` is set or the narrow is not empty. -/
def receivesAllStreams (client : ClientDescriptor) : Bool :=
  client.allPublicStreams || !client.narrow.isEmpty

@[simp] theorem identity_push (client : ClientDescriptor) (event : EventBody) :
    (client.push event).identity = client.identity := by
  simp [identity, push]

theorem identity_acknowledge (client : ClientDescriptor) (lastEventId : Int) :
    (client.acknowledge lastEventId).1.identity = client.identity := by
  simp only [acknowledge]
  split
  · rfl
  · split <;> rfl

end ClientDescriptor

/-- The registries are the same and every object is filed as before. -/
structure SameRegistries (before after : TornadoState) : Prop where
  nextRef : after.nextRef = before.nextRef
  clients : after.clients = before.clients
  userClients : after.userClients = before.userClients
  realmClientsAllStreams : after.realmClientsAllStreams = before.realmClientsAllStreams
  webReloadClients : after.webReloadClients = before.webReloadClients
  currentHandlerId : after.currentHandlerId = before.currentHandlerId
  identity : ∀ ref, (after.heap ref).identity = (before.heap ref).identity

namespace SameRegistries

theorem refl (state : TornadoState) : SameRegistries state state :=
  ⟨rfl, rfl, rfl, rfl, rfl, rfl, fun _ => rfl⟩

theorem updateClient {before after : TornadoState} (same : SameRegistries before after) (ref : Ref)
    {change : ClientDescriptor → ClientDescriptor}
    (keeps : (change (after.heap ref)).identity = (after.heap ref).identity) :
    SameRegistries before (after.updateClient ref change) := by
  refine ⟨same.nextRef, same.clients, same.userClients, same.realmClientsAllStreams,
    same.webReloadClients, same.currentHandlerId, fun other => ?_⟩
  by_cases isRef : other = ref
  · subst isRef
    simpa [TornadoState.updateClient] using keeps.trans (same.identity other)
  · simpa [TornadoState.updateClient, isRef] using same.identity other

end SameRegistries

/-- What `disconnect_handler` relies on: a handler id that it will clear is in
`descriptors_by_handler_id`, for this very object. Ids from `bound` on are unused. -/
def HandlersSafe (bound : Nat) (state : TornadoState) : Prop :=
  ∀ ref handlerId, (state.heap ref).currentHandlerId = some handlerId →
    handlerId < bound ∧
      (handlerId ≠ 0 → state.descriptorsByHandlerId.get? handlerId = some ref)

/-- A program that leaves the registries alone and raises no `KeyError`. -/
def Quiet {α : Type} (program : Server α) : Prop :=
  ∀ before bound,
    Program.Triple (fun state => SameRegistries before state ∧ HandlersSafe bound state) program
      (fun _ state => SameRegistries before state ∧ HandlersSafe bound state)
      (fun exception state => exception ≠ .keyError ∧
        SameRegistries before state ∧ HandlersSafe bound state)

namespace Quiet

open Program

variable {α β ι : Type}

theorem pure (value : α) : Quiet (pure value : Server α) :=
  fun _ _ => Triple.pure fun _ holds => holds

theorem raise {exception : PyError} (other : exception ≠ .keyError) :
    Quiet (raise exception : Server α) :=
  fun _ _ => Triple.raise fun _ holds => ⟨other, holds⟩

theorem read (look : TornadoState → α) : Quiet (read look) :=
  fun _ _ => Triple.read fun _ holds => holds

theorem bind {program : Server α} {next : α → Server β} (first : Quiet program)
    (second : ∀ value, Quiet (next value)) : Quiet (program >>= next) :=
  fun before bound => Triple.bind _ (first before bound) fun value => second value before bound

theorem forEach {items : List ι} {body : ι → Server Unit} (each : ∀ item, Quiet (body item)) :
    Quiet (forEach items body) :=
  fun before bound => Triple.forEach fun item _ => each item before bound

/-- An update that keeps the filed fields and the handler. -/
theorem updateClient (ref : Ref) {change : ClientDescriptor → ClientDescriptor}
    (identity : ∀ client, (change client).identity = client.identity)
    (handler : ∀ client, (change client).currentHandlerId = client.currentHandlerId) :
    Quiet (Server.updateClient ref change) := by
  refine fun before bound => Triple.modify fun state holds =>
    ⟨holds.1.updateClient ref (identity _), fun other handlerId connected => ?_⟩
  refine holds.2 other handlerId ?_
  by_cases isRef : other = ref
  · subst isRef
    simpa [TornadoState.updateClient, handler] using connected
  · simpa [TornadoState.updateClient, isRef] using connected

end Quiet

namespace Server

open Program

theorem run_clientAt {queueId : String} {ref : Ref} {state : TornadoState}
    (found : state.clients.get? queueId = some ref) :
    clientAt queueId state = (.ok ref, state) := by
  simp only [clientAt, run_read_bind, found, run_pure]

/-- A listed handler id is deleted. -/
theorem run_clearDescriptorByHandlerId {handlerId : Nat} {ref : Ref} {state : TornadoState}
    (found : state.descriptorsByHandlerId.get? handlerId = some ref) :
    clearDescriptorByHandlerId handlerId state = (.ok (), { state with
      descriptorsByHandlerId := state.descriptorsByHandlerId.erase handlerId }) := by
  simp only [clearDescriptorByHandlerId, run_read_bind, found, run_modify]

/-- Disconnecting clears at most the object's own handler id. -/
theorem disconnectHandler_quiet (ref : Ref) : Quiet (disconnectHandler ref) := by
  rintro before bound state ⟨same, safe⟩
  have cleared : ∀ other handlerId,
      ((state.updateClient ref ClientDescriptor.disconnectHandler).heap other).currentHandlerId =
        some handlerId → other ≠ ref ∧ (state.heap other).currentHandlerId = some handlerId := by
    intro other handlerId connected
    by_cases isRef : other = ref
    · simp [TornadoState.updateClient, isRef, ClientDescriptor.disconnectHandler] at connected
    · simpa [TornadoState.updateClient, isRef] using connected
  have unchanged : SameRegistries before (state.updateClient ref ClientDescriptor.disconnectHandler) :=
    same.updateClient ref rfl
  have withoutKey : HandlersSafe bound (state.updateClient ref ClientDescriptor.disconnectHandler) :=
    fun other handlerId connected => safe other handlerId (cleared other handlerId connected).2
  cases connected : (state.heap ref).currentHandlerId with
  | none =>
      simp only [disconnectHandler, getClient, run_read_bind, connected, updateClient, run_modify]
      exact ⟨unchanged, withoutKey⟩
  | some handlerId =>
      by_cases isZero : handlerId = 0
      · simp only [disconnectHandler, getClient, run_read_bind, connected, isZero, if_true,
          updateClient, run_modify]
        exact ⟨unchanged, withoutKey⟩
      · have found := (safe ref handlerId connected).2 isZero
        simp only [disconnectHandler, getClient, run_read_bind, connected, isZero, if_false]
        rw [run_bind_of_ok (run_clearDescriptorByHandlerId found)]
        refine ⟨⟨same.nextRef, same.clients, same.userClients, same.realmClientsAllStreams,
          same.webReloadClients, same.currentHandlerId, unchanged.identity⟩,
          fun other otherId otherConnected => ?_⟩
        obtain ⟨different, wasConnected⟩ := cleared other otherId otherConnected
        obtain ⟨below, listed⟩ := safe other otherId wasConnected
        refine ⟨below, fun nonzero => ?_⟩
        have otherKey : otherId ≠ handlerId := by
          rintro rfl
          exact different (Option.some.inj ((listed nonzero).symm.trans found))
        exact (Dict.get?_erase_ne _ otherKey).trans (listed nonzero)

theorem finishCurrentHandler_quiet (ref : Ref) : Quiet (finishCurrentHandler ref) := by
  refine Quiet.bind (Quiet.read _) fun client => ?_
  cases client.currentHandlerId with
  | none => exact Quiet.pure false
  | some handlerId =>
      exact Quiet.bind (Quiet.updateClient ref (fun _ => rfl) fun _ => rfl) fun _ =>
        Quiet.bind (disconnectHandler_quiet ref) fun _ => Quiet.pure true

theorem addEvent_quiet (ref : Ref) (event : EventBody) : Quiet (addEvent ref event) :=
  Quiet.bind (Quiet.updateClient ref (fun client => client.identity_push event) fun _ => rfl)
    fun _ => Quiet.bind (finishCurrentHandler_quiet ref) fun _ => Quiet.pure ()

theorem onConnectionClose_quiet (handlerId : Nat) : Quiet (onConnectionClose handlerId) := by
  have clears : Quiet (clearHandlerById handlerId) := fun _ _ => Triple.modify fun _ holds =>
    ⟨⟨holds.1.nextRef, holds.1.clients, holds.1.userClients, holds.1.realmClientsAllStreams,
      holds.1.webReloadClients, holds.1.currentHandlerId, holds.1.identity⟩, holds.2⟩
  refine Quiet.bind clears fun _ => Quiet.bind (Quiet.read _) fun found => ?_
  cases found with
  | none => exact Quiet.pure ()
  | some ref => exact disconnectHandler_quiet ref

theorem processEvent_quiet (lower : String → String) (event : EventBody) (users : List Int) :
    Quiet (processEvent lower event users) := by
  refine Quiet.forEach fun userProfileId => Quiet.bind (Quiet.read _) fun refs =>
    Quiet.forEach fun ref => Quiet.bind (Quiet.read _) fun client => ?_
  split
  · exact addEvent_quiet ref event
  · exact Quiet.pure ()

/-- The notices that were published are no registry. -/
theorem publish_quiet (notices : List Notice) : Quiet (Program.modify fun state =>
    { state with published := state.published ++ notices } : Server Unit) :=
  fun _ _ => Triple.modify fun _ holds =>
    ⟨⟨holds.1.nextRef, holds.1.clients, holds.1.userClients, holds.1.realmClientsAllStreams,
      holds.1.webReloadClients, holds.1.currentHandlerId, holds.1.identity⟩, holds.2⟩

theorem notifyUsers_quiet (settings : Settings) (template : EventTemplate) (users : List UserData)
    (extraUserData : Dict Int InternalData) :
    Quiet (notifyUsers settings template users extraUserData) := by
  induction users generalizing extraUserData with
  | nil => exact Quiet.pure extraUserData
  | cons user users inductionHypothesis =>
      refine Quiet.bind (Quiet.read _) fun offZulip => ?_
      cases template.notifyUser settings.mobileNotificationsShards offZulip user with
      | none => exact Quiet.raise (by decide)
      | some prepared => exact Quiet.bind (publish_quiet _) fun _ => inductionHypothesis _

theorem processMessageEvent_quiet (settings : Settings) (env : PayloadEnvironment)
    (lower : String → String) (template : EventTemplate) (users : List UserData) :
    Quiet (processMessageEvent settings env lower template users) := by
  refine Quiet.bind (Quiet.read _) fun sendToClients =>
    Quiet.bind (notifyUsers_quiet settings template users _) fun extraUserData =>
      Quiet.forEach fun info => Quiet.bind (Quiet.read _) fun client => ?_
  rcases prepared : template.userEvent env lower (extraUserData.get? client.userProfileId) client
    info.flags info.isSender with exception | _ | event
  · rw [EventTemplate.userEvent_error prepared]
    exact Quiet.raise (by decide)
  · exact Quiet.pure ()
  · exact addEvent_quiet _ _

theorem accessClientDescriptor_quiet (userId : Int) (queueId : String) :
    Quiet (accessClientDescriptor userId queueId) := by
  refine Quiet.bind (Quiet.read _) fun found => ?_
  cases found with
  | none => exact Quiet.raise nofun
  | some ref =>
      refine Quiet.bind (Quiet.read _) fun client => ?_
      split
      · exact Quiet.pure ref
      · exact Quiet.raise nofun

theorem fetchExistingQueue_quiet (args : FetchEventsArgs) (queueId : String) :
    Quiet (fetchExistingQueue args queueId) := by
  unfold fetchExistingQueue
  cases args.lastEventId with
  | none => exact Quiet.raise nofun
  | some lastEventId =>
      refine Quiet.bind (accessClientDescriptor_quiet _ _) fun ref =>
        Quiet.bind (Quiet.read _) fun client =>
          Quiet.bind (Quiet.updateClient ref (fun other => other.identity_acknowledge lastEventId)
            fun other => other.acknowledge_currentHandlerId lastEventId) fun _ => ?_
      rcases checked : (client.acknowledge lastEventId).2 with exception | _
      · obtain ⟨message, rfl⟩ := ClientDescriptor.acknowledge_error checked
        exact Quiet.raise nofun
      · exact Quiet.bind (finishCurrentHandler_quiet ref) fun _ => Quiet.pure ref

end Server

/-! ## The invariant -/

/-- The registries list what they should: `user_clients` the clients of each user,
`realm_clients_all_streams` those of each realm that receive all streams, and
`web_reload_clients` only clients. -/
structure RegistryInvariant (state : TornadoState) : Prop where
  named : ∀ entry ∈ state.clients.entries, (state.heap entry.2).eventQueue.id = entry.1
  created : ∀ ref ∈ state.clients.values, ref < state.nextRef
  users : Indexes state.userClients (fun ref => ref ∈ state.clients.values)
    fun ref => (state.heap ref).userProfileId
  realms : Indexes state.realmClientsAllStreams
    (fun ref => ref ∈ state.clients.values ∧ (state.heap ref).receivesAllStreams = true)
    fun ref => (state.heap ref).realmId
  webReload : ∀ queueId ∈ state.webReloadClients.keys, queueId ∈ state.clients.keys

namespace RegistryInvariant

theorem start : RegistryInvariant TornadoState.start where
  named := by simp [TornadoState.start]
  created := by simp [TornadoState.start]
  users := Indexes.empty (by simp [TornadoState.start])
  realms := Indexes.empty (by simp [TornadoState.start])
  webReload := by simp [TornadoState.start]

theorem congr {before after : TornadoState} (invariant : RegistryInvariant before)
    (same : SameRegistries before after) : RegistryInvariant after := by
  have identity := same.identity
  simp only [ClientDescriptor.identity, Prod.mk.injEq] at identity
  refine ⟨?_, ?_, ?_, ?_, ?_⟩
  · intro entry member
    rw [same.clients] at member
    rw [(identity entry.2).1]
    exact invariant.named entry member
  · intro ref member
    rw [same.clients] at member
    rw [same.nextRef]
    exact invariant.created ref member
  · rw [same.userClients, same.clients]
    exact invariant.users.congr (fun _ => Iff.rfl) fun ref _ => (identity ref).2.1
  · rw [same.realmClientsAllStreams, same.clients]
    refine invariant.realms.congr (fun ref => ?_) fun ref _ => (identity ref).2.2.1
    simp only [ClientDescriptor.receivesAllStreams, (identity ref).2.2.2.1,
      (identity ref).2.2.2.2]
  · rw [same.webReloadClients, same.clients]
    exact invariant.webReload

/-- Different keys of `clients` have different objects. -/
theorem eq_of_ref_eq {state : TornadoState} (invariant : RegistryInvariant state)
    {left right : String} {ref : Ref} (leftFound : state.clients.get? left = some ref)
    (rightFound : state.clients.get? right = some ref) : left = right :=
  (invariant.named _ (Dict.get?_eq_some_iff.mp leftFound)).symm.trans
    (invariant.named _ (Dict.get?_eq_some_iff.mp rightFound))

end RegistryInvariant

end Zulip.Tornado
