import Zulip.Tornado.Registry

/-!
# Collecting event queues

What `do_gc_event_queues` does when every queue that it removes is registered:
`Collected` describes its last loop, and `doGcEventQueues_spec` the whole call,
which raises nothing and keeps the registry invariant.
-/

namespace Zulip.Tornado

/-- The notices that the hook publishes for one event of a user's queue. -/
def Event.hookNotices (mobileNotificationsShards userProfileId : Int) (event : Event) :
    List Notice :=
  match event.body with
  | .message event => event.hookNotices mobileNotificationsShards userProfileId
  | _ => []

namespace ClientDescriptor

/-- The notices that the hook publishes for a descriptor's queue. -/
def lateNotices (mobileNotificationsShards : Int) (client : ClientDescriptor) : List Notice :=
  (client.eventQueue.contents true).2.flatMap
    (Event.hookNotices mobileNotificationsShards client.userProfileId)

/-- The descriptor after the hook has read its queue. -/
def read (client : ClientDescriptor) : ClientDescriptor :=
  { client with eventQueue := (client.eventQueue.contents true).1 }

end ClientDescriptor

namespace TornadoState

/-- The hook runs for this object: it is registered and the user has no queue left. -/
def hookRuns (state : TornadoState) (settings : Settings) (ref : Ref) : Prop :=
  settings.missedmessageHookRegistered = true ∧
    (state.heap ref).userProfileId ∉ state.userClients.keys

instance (state : TornadoState) (settings : Settings) (ref : Ref) :
    Decidable (state.hookRuns settings ref) :=
  inferInstanceAs (Decidable (_ ∧ ¬ _))

/-- The notices that collecting a queue publishes. -/
def gcNotices (state : TornadoState) (settings : Settings) (id : String) : List Notice :=
  match state.clients.get? id with
  | none => []
  | some ref =>
      if state.hookRuns settings ref then
        (state.heap ref).lateNotices settings.mobileNotificationsShards
      else []

/-- The object after its queue was collected. -/
def readIfHookRuns (state : TornadoState) (settings : Settings) (ref other : Ref) :
    ClientDescriptor :=
  if other = ref ∧ state.hookRuns settings ref then (state.heap other).read else state.heap other

end TornadoState

namespace Server

open Program

/-- The loop of the hook publishes the notices of the events in order. -/
theorem run_hookLoop (settings : Settings) (userProfileId : Int) (events : List Event)
    (state : TornadoState) :
    forEach events (hookEvent settings userProfileId) state = (.ok (), { state with
      published := state.published ++ events.flatMap
        (Event.hookNotices settings.mobileNotificationsShards userProfileId) }) := by
  induction events generalizing state with
  | nil => simp
  | cons event rest inductionHypothesis =>
      have first : hookEvent settings userProfileId event state = (.ok (), { state with
          published := state.published ++
            event.hookNotices settings.mobileNotificationsShards userProfileId }) := by
        obtain ⟨id, body⟩ := event
        cases body <;> simp [hookEvent, Event.hookNotices]
      rw [run_forEach_cons first, inductionHypothesis]
      simp

/-- Collecting one registered queue. -/
theorem run_gcEventQueue {settings : Settings} {state : TornadoState} {id : String} {ref : Ref}
    (found : state.clients.get? id = some ref) :
    gcEventQueue settings id state = (.ok (), { state with
      heap := state.readIfHookRuns settings ref
      clients := state.clients.erase id
      webReloadClients := state.webReloadClients.erase id
      published := state.published ++ state.gcNotices settings id }) := by
  have findRef : clientAt id { state with
      webReloadClients := state.webReloadClients.erase id } =
      (.ok ref, { state with webReloadClients := state.webReloadClients.erase id }) :=
    run_clientAt found
  simp only [gcEventQueue, run_modify_bind]
  rw [run_bind_of_ok findRef]
  simp only [getClient, run_read_bind]
  by_cases registered : settings.missedmessageHookRegistered = true
  · by_cases last : (state.heap ref).userProfileId ∈ state.userClients.keys
    · have notRuns : ¬ state.hookRuns settings ref := fun runs => runs.2 last
      have sameHeap : state.readIfHookRuns settings ref = state.heap := by
        funext other
        simp [TornadoState.readIfHookRuns, notRuns]
      simp [registered, last, missedmessageHook, sameHeap, TornadoState.gcNotices, found, notRuns]
    · have runs : state.hookRuns settings ref := ⟨registered, last⟩
      have newHeap : state.readIfHookRuns settings ref = fun other =>
          if other = ref then (state.heap ref).read else state.heap other := by
        funext other
        by_cases isRef : other = ref <;> simp [TornadoState.readIfHookRuns, runs, isRef]
      rw [if_pos registered]
      have hook : missedmessageHook settings (state.heap ref).userProfileId ref true
          { state with webReloadClients := state.webReloadClients.erase id } =
          (.ok (), { state with
            heap := state.readIfHookRuns settings ref
            webReloadClients := state.webReloadClients.erase id
            published := state.published ++ state.gcNotices settings id }) := by
        simp only [missedmessageHook, Bool.not_true, Bool.false_eq_true, if_false, getClient,
          run_read_bind, updateClient, run_modify_bind, run_hookLoop, newHeap,
          TornadoState.gcNotices, found, runs, if_true]
        rfl
      simp only [last, not_false_eq_true, decide_true]
      rw [run_bind_of_ok hook, run_modify]
  · have notRuns : ¬ state.hookRuns settings ref := fun runs => registered runs.1
    have sameHeap : state.readIfHookRuns settings ref = state.heap := by
      funext other
      simp [TornadoState.readIfHookRuns, notRuns]
    simp [registered, sameHeap, TornadoState.gcNotices, found, notRuns]

end Server

/-- What the last loop of `do_gc_event_queues` does with registered queues. -/
structure Collected (settings : Settings) (order : List String) (before after : TornadoState) :
    Prop where
  clients : ∀ id, after.clients.get? id = if id ∈ order then none else before.clients.get? id
  webReloadClients : ∀ id, id ∈ after.webReloadClients.keys ↔
    id ∈ before.webReloadClients.keys ∧ id ∉ order
  userClients : after.userClients = before.userClients
  realmClientsAllStreams : after.realmClientsAllStreams = before.realmClientsAllStreams
  nextRef : after.nextRef = before.nextRef
  descriptorsByHandlerId : after.descriptorsByHandlerId = before.descriptorsByHandlerId
  currentHandlerId : after.currentHandlerId = before.currentHandlerId
  identity : ∀ ref, (after.heap ref).identity = (before.heap ref).identity
  handlerIds : ∀ ref, (after.heap ref).currentHandlerId = (before.heap ref).currentHandlerId
  kept : ∀ ref, (before.heap ref).eventQueue.id ∉ order → after.heap ref = before.heap ref
  published : after.published = before.published ++ order.flatMap (before.gcNotices settings)

namespace Collected

variable {settings : Settings} {order : List String} {before after : TornadoState}

theorem nil (settings : Settings) (state : TornadoState) : Collected settings [] state state where
  clients id := by simp
  webReloadClients id := by simp
  userClients := rfl
  realmClientsAllStreams := rfl
  nextRef := rfl
  descriptorsByHandlerId := rfl
  currentHandlerId := rfl
  identity _ := rfl
  handlerIds _ := rfl
  kept _ _ := rfl
  published := by simp

end Collected

namespace TornadoState

/-- The state after collecting one registered queue. -/
def collect (state : TornadoState) (settings : Settings) (id : String) (ref : Ref) :
    TornadoState :=
  { state with
    heap := state.readIfHookRuns settings ref
    clients := state.clients.erase id
    webReloadClients := state.webReloadClients.erase id
    published := state.published ++ state.gcNotices settings id }

/-- The queue is registered under its own id. -/
def Registers (state : TornadoState) (id : String) : Prop :=
  ∃ ref, state.clients.get? id = some ref ∧ (state.heap ref).eventQueue.id = id

theorem identity_collect (state : TornadoState) (settings : Settings) (id : String)
    (ref other : Ref) :
    ((state.collect settings id ref).heap other).identity = (state.heap other).identity := by
  show (state.readIfHookRuns settings ref other).identity = _
  unfold readIfHookRuns
  split <;> rfl

theorem eventQueue_id_collect (state : TornadoState) (settings : Settings) (id : String)
    (ref other : Ref) :
    ((state.collect settings id ref).heap other).eventQueue.id = (state.heap other).eventQueue.id :=
  congrArg Prod.fst (state.identity_collect settings id ref other)

/-- Collecting one queue leaves the objects of the others as they are. -/
theorem heap_collect_ne {state : TornadoState} {settings : Settings} {id : String} {ref other : Ref}
    (different : other ≠ ref) :
    (state.collect settings id ref).heap other = state.heap other := by
  show state.readIfHookRuns settings ref other = _
  simp [readIfHookRuns, different]

/-- Collecting one queue does not change what another one publishes. -/
theorem gcNotices_collect {state : TornadoState} {settings : Settings} {id other : String}
    {ref : Ref} (stored : (state.heap ref).eventQueue.id = id) (registers : state.Registers other)
    (different : other ≠ id) :
    (state.collect settings id ref).gcNotices settings other = state.gcNotices settings other := by
  obtain ⟨otherRef, found, otherStored⟩ := registers
  have refDiffers : otherRef ≠ ref := by
    rintro rfl
    exact different (otherStored.symm.trans stored)
  have foundAfter : (state.collect settings id ref).clients.get? other = some otherRef :=
    (Dict.get?_erase_ne _ different).trans found
  have runs : (state.collect settings id ref).hookRuns settings otherRef ↔
      state.hookRuns settings otherRef := by
    unfold hookRuns
    rw [heap_collect_ne refDiffers]
    rfl
  simp only [gcNotices, found, foundAfter, runs, heap_collect_ne refDiffers]

end TornadoState

/-- The last loop of `do_gc_event_queues` for registered queues. -/
theorem Server.run_gcLoop (settings : Settings) {order : List String} {before : TornadoState}
    (distinct : order.Nodup) (registers : ∀ id ∈ order, before.Registers id) :
    ∃ after, Program.forEach order (Server.gcEventQueue settings) before = (.ok (), after) ∧
      Collected settings order before after := by
  induction order generalizing before with
  | nil => exact ⟨before, rfl, Collected.nil settings before⟩
  | cons id rest inductionHypothesis =>
      obtain ⟨ref, found, stored⟩ := registers id List.mem_cons_self
      obtain ⟨idNew, restDistinct⟩ := List.nodup_cons.mp distinct
      have others : ∀ other ∈ rest, other ≠ id := by
        rintro other member rfl
        exact idNew member
      have restRegisters : ∀ other ∈ rest, (before.collect settings id ref).Registers other := by
        intro other member
        obtain ⟨otherRef, otherFound, otherStored⟩ := registers other (List.mem_cons_of_mem _ member)
        refine ⟨otherRef, (Dict.get?_erase_ne _ (others other member)).trans otherFound, ?_⟩
        rw [before.eventQueue_id_collect]
        exact otherStored
      obtain ⟨after, run, collected⟩ := inductionHypothesis restDistinct restRegisters
      refine ⟨after, (Program.run_forEach_cons (Server.run_gcEventQueue found)).trans run, ?_⟩
      refine ⟨?_, ?_, collected.userClients, collected.realmClientsAllStreams, collected.nextRef,
        collected.descriptorsByHandlerId, collected.currentHandlerId, ?_, ?_, ?_, ?_⟩
      · intro other
        rw [collected.clients]
        by_cases isId : other = id
        · subst isId
          simp [TornadoState.collect]
        · simp [TornadoState.collect, Dict.get?_erase_ne _ isId, isId]
      · intro other
        rw [collected.webReloadClients]
        simp only [TornadoState.collect, Dict.mem_keys_erase, List.mem_cons]
        tauto
      · intro other
        exact (collected.identity other).trans (before.identity_collect settings id ref other)
      · intro other
        rw [collected.handlerIds]
        show (before.readIfHookRuns settings ref other).currentHandlerId = _
        unfold TornadoState.readIfHookRuns
        split <;> rfl
      · intro other notRemoved
        rw [List.mem_cons, not_or] at notRemoved
        have otherDiffers : other ≠ ref := by
          rintro rfl
          exact notRemoved.1 stored
        rw [collected.kept other, TornadoState.heap_collect_ne otherDiffers]
        rw [before.eventQueue_id_collect]
        exact notRemoved.2
      · rw [collected.published, List.flatMap_cons]
        have same : rest.flatMap ((before.collect settings id ref).gcNotices settings) =
            rest.flatMap (before.gcNotices settings) :=
          List.flatMap_congr fun other member => TornadoState.gcNotices_collect stored
            (registers other (List.mem_cons_of_mem _ member)) (others other member)
        rw [same, ← List.append_assoc]
        rfl

/-! ## A whole call -/

namespace TornadoState

/-- Removing these queues leaves the owner of the object without a queue. -/
def lastForClient (state : TornadoState) (toRemove : List String) (ref : Ref) : Prop :=
  ∀ other ∈ state.clients.values,
    (state.heap other).userProfileId = (state.heap ref).userProfileId →
      (state.heap other).eventQueue.id ∈ toRemove

instance (state : TornadoState) (toRemove : List String) (ref : Ref) :
    Decidable (state.lastForClient toRemove ref) :=
  inferInstanceAs (Decidable (∀ other ∈ state.clients.values, _ → _))

/-- The notices that removing these queues publishes for one of them. -/
def removalNotices (state : TornadoState) (settings : Settings) (toRemove : List String)
    (id : String) : List Notice :=
  match state.clients.get? id with
  | none => []
  | some ref =>
      if settings.missedmessageHookRegistered = true ∧ state.lastForClient toRemove ref then
        (state.heap ref).lateNotices settings.mobileNotificationsShards
      else []

/-- The state after the two filtering loops of `do_gc_event_queues`. -/
def filtered (state : TornadoState) (toRemove : List String) (affectedUsers affectedRealms : List Int) :
    TornadoState :=
  let kept := fun ref => !toRemove.contains (state.heap ref).eventQueue.id
  { state with
    userClients := state.userClients.filterKeys affectedUsers kept
    realmClientsAllStreams := state.realmClientsAllStreams.filterKeys affectedRealms kept }

end TornadoState

/-- What `do_gc_event_queues` leaves behind. -/
structure GcResult (settings : Settings) (toRemove : List String) (before after : TornadoState) :
    Prop where
  invariant : RegistryInvariant after
  clients : ∀ id, after.clients.get? id = if id ∈ toRemove then none else before.clients.get? id
  nextRef : after.nextRef = before.nextRef
  descriptorsByHandlerId : after.descriptorsByHandlerId = before.descriptorsByHandlerId
  currentHandlerId : after.currentHandlerId = before.currentHandlerId
  identity : ∀ ref, (after.heap ref).identity = (before.heap ref).identity
  handlerIds : ∀ ref, (after.heap ref).currentHandlerId = (before.heap ref).currentHandlerId
  kept : ∀ ref, (before.heap ref).eventQueue.id ∉ toRemove → after.heap ref = before.heap ref
  published : after.published =
    before.published ++ toRemove.flatMap (before.removalNotices settings toRemove)

section DoGcEventQueues

variable {settings : Settings} {toRemove : List String} {affectedUsers affectedRealms : List Int}
  {before : TornadoState}

/-- After the filtering, a user is a key of `user_clients` exactly when one of the
user's queues stays. -/
theorem RegistryInvariant.users_filtered (invariant : RegistryInvariant before)
    (affectedRealms : List Int)
    (usersCovered : ∀ ref ∈ before.clients.values, (before.heap ref).eventQueue.id ∈ toRemove →
      (before.heap ref).userProfileId ∈ affectedUsers) :
    Indexes (before.filtered toRemove affectedUsers affectedRealms).userClients
      (fun ref => ref ∈ before.clients.values ∧ (before.heap ref).eventQueue.id ∉ toRemove)
      fun ref => (before.heap ref).userProfileId := by
  have filtered := invariant.users.filterKeys affectedUsers
    (fun ref => !toRemove.contains (before.heap ref).eventQueue.id)
    fun ref member removed => usersCovered ref member (by simpa using removed)
  exact filtered.congr (by simp) fun _ _ => rfl

theorem RegistryInvariant.realms_filtered (invariant : RegistryInvariant before)
    (affectedUsers : List Int)
    (realmsCovered : ∀ ref ∈ before.clients.values, (before.heap ref).eventQueue.id ∈ toRemove →
      (before.heap ref).realmId ∈ affectedRealms) :
    Indexes (before.filtered toRemove affectedUsers affectedRealms).realmClientsAllStreams
      (fun ref => (ref ∈ before.clients.values ∧ (before.heap ref).receivesAllStreams = true) ∧
        (before.heap ref).eventQueue.id ∉ toRemove)
      fun ref => (before.heap ref).realmId := by
  have filtered := invariant.realms.filterKeys affectedRealms
    (fun ref => !toRemove.contains (before.heap ref).eventQueue.id)
    fun ref member removed => realmsCovered ref member.1 (by simpa using removed)
  exact filtered.congr (by simp) fun _ _ => rfl

/-- A call of `do_gc_event_queues` for registered queues whose users and realms are
listed raises nothing and keeps the invariant. -/
theorem Server.doGcEventQueues_spec (invariant : RegistryInvariant before)
    (distinct : toRemove.Nodup) (registered : ∀ id ∈ toRemove, id ∈ before.clients.keys)
    (usersCovered : ∀ ref ∈ before.clients.values, (before.heap ref).eventQueue.id ∈ toRemove →
      (before.heap ref).userProfileId ∈ affectedUsers)
    (realmsCovered : ∀ ref ∈ before.clients.values, (before.heap ref).eventQueue.id ∈ toRemove →
      (before.heap ref).realmId ∈ affectedRealms) :
    ∃ after, Server.doGcEventQueues settings toRemove affectedUsers affectedRealms before =
        (.ok (), after) ∧ GcResult settings toRemove before after := by
  have registers : ∀ id ∈ toRemove,
      (before.filtered toRemove affectedUsers affectedRealms).Registers id := by
    intro id member
    obtain ⟨ref, found⟩ := Dict.mem_keys_iff.mp (registered id member)
    exact ⟨ref, found, invariant.named _ (Dict.get?_eq_some_iff.mp found)⟩
  obtain ⟨after, run, collected⟩ := Server.run_gcLoop settings distinct registers
  have userIndex := invariant.users_filtered affectedRealms usersCovered
  have realmIndex := invariant.realms_filtered affectedUsers realmsCovered
  have identity := collected.identity
  simp only [ClientDescriptor.identity, Prod.mk.injEq] at identity
  have values : ∀ ref, ref ∈ after.clients.values ↔
      ref ∈ before.clients.values ∧ (before.heap ref).eventQueue.id ∉ toRemove := by
    intro ref
    simp only [Dict.mem_values, ← Dict.get?_eq_some_iff, collected.clients]
    constructor
    · rintro ⟨id, found⟩
      split at found
      · cases found
      · rename_i stays
        have stored : (before.heap ref).eventQueue.id = id :=
          invariant.named _ (Dict.get?_eq_some_iff.mp found)
        exact ⟨⟨id, found⟩, by rwa [stored]⟩
    · rintro ⟨⟨id, found⟩, stays⟩
      have stored : (before.heap ref).eventQueue.id = id :=
        invariant.named _ (Dict.get?_eq_some_iff.mp found)
      rw [stored] at stays
      exact ⟨id, by rw [if_neg stays]; exact found⟩
  refine ⟨after, run, ?_, collected.clients, collected.nextRef, collected.descriptorsByHandlerId,
    collected.currentHandlerId, collected.identity, collected.handlerIds, collected.kept, ?_⟩
  · refine ⟨?_, ?_, ?_, ?_, ?_⟩
    · intro entry member
      have found := Dict.get?_eq_some_iff.mpr member
      rw [collected.clients] at found
      split at found
      · cases found
      · rw [(identity entry.2).1]
        exact invariant.named _ (Dict.get?_eq_some_iff.mp found)
    · intro ref member
      rw [collected.nextRef]
      exact invariant.created ref ((values ref).mp member).1
    · rw [collected.userClients]
      exact userIndex.congr values fun ref _ => (identity ref).2.1
    · rw [collected.realmClientsAllStreams]
      refine realmIndex.congr (fun ref => ?_) fun ref _ => (identity ref).2.2.1
      simp only [values, ClientDescriptor.receivesAllStreams, (identity ref).2.2.2.1,
        (identity ref).2.2.2.2]
      tauto
    · intro id member
      obtain ⟨waiting, stays⟩ := (collected.webReloadClients id).mp member
      obtain ⟨ref, found⟩ := Dict.mem_keys_iff.mp (invariant.webReload id waiting)
      rw [Dict.mem_keys_iff]
      exact ⟨ref, by rw [collected.clients, if_neg stays]; exact found⟩
  · rw [collected.published]
    congr 1
    refine List.flatMap_congr fun id member => ?_
    obtain ⟨ref, found⟩ := Dict.mem_keys_iff.mp (registered id member)
    have runs : (before.filtered toRemove affectedUsers affectedRealms).hookRuns settings ref ↔
        settings.missedmessageHookRegistered = true ∧ before.lastForClient toRemove ref := by
      refine and_congr Iff.rfl ?_
      rw [userIndex.mem_keys_iff]
      constructor
      · intro none other otherMember sameUser
        by_contra stays
        exact none ⟨other, ⟨otherMember, stays⟩, sameUser⟩
      · rintro last ⟨other, ⟨otherMember, stays⟩, sameUser⟩
        exact stays (last other otherMember sameUser)
    have foundFiltered :
        (before.filtered toRemove affectedUsers affectedRealms).clients.get? id = some ref := found
    simp only [TornadoState.gcNotices, TornadoState.removalNotices, found, foundFiltered, runs]
    rfl

end DoGcEventQueues

end Zulip.Tornado
