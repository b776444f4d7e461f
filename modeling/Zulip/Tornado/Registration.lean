import Zulip.Tornado.Collection

/-!
# Registering event queues

`allocate_client_descriptor` and `load_event_queues` file new objects. `Filed` is the
part of the registry invariant that `add_to_client_dicts` extends by one object.
-/

namespace Zulip.Tornado

/-- The registry invariant with what `disconnect_handler` relies on, where the handler
ids from `bound` on are unused and `counter` is the next one. -/
structure ServerInvariant (bound counter : Nat) (state : TornadoState) : Prop where
  registry : RegistryInvariant state
  handlers : HandlersSafe bound state
  counter : state.currentHandlerId = counter

/-- A quiet program keeps the invariant of the server. -/
theorem Quiet.keeps {α : Type} {program : Server α} (quiet : Quiet program) (bound counter : Nat) :
    Program.Triple (ServerInvariant bound counter) program
      (fun _ => ServerInvariant bound counter)
      (fun exception state => exception ≠ .keyError ∧ ServerInvariant bound counter state) := by
  intro state invariant
  have result := quiet state bound state ⟨SameRegistries.refl state, invariant.handlers⟩
  have kept : ∀ {after}, SameRegistries state after → HandlersSafe bound after →
      ServerInvariant bound counter after := fun same safe =>
    ⟨invariant.registry.congr same, safe, same.currentHandlerId.trans invariant.counter⟩
  rcases run : program state with ⟨exception | value, after⟩ <;> rw [run] at result
  · exact ⟨result.1, kept result.2.1 result.2.2⟩
  · exact kept result.1 result.2

/-- These objects are listed under their user and, where they receive all streams,
under their realm. -/
structure Filed (state : TornadoState) (Member : Ref → Prop) : Prop where
  users : Indexes state.userClients Member fun ref => (state.heap ref).userProfileId
  realms : Indexes state.realmClientsAllStreams
    (fun ref => Member ref ∧ (state.heap ref).receivesAllStreams = true)
    fun ref => (state.heap ref).realmId

namespace TornadoState

/-- The state after `add_to_client_dicts`. -/
def file (state : TornadoState) (ref : Ref) : TornadoState :=
  { state with
    userClients := state.userClients.append (state.heap ref).userProfileId ref
    realmClientsAllStreams :=
      if (state.heap ref).receivesAllStreams then
        state.realmClientsAllStreams.append (state.heap ref).realmId ref
      else state.realmClientsAllStreams }

end TornadoState

theorem Server.run_addToClientDicts (ref : Ref) (state : TornadoState) :
    Server.addToClientDicts ref state = (.ok (), state.file ref) := by
  simp only [Server.addToClientDicts, Server.getClient, Program.run_read_bind,
    Program.run_modify_bind, Program.run_ite]
  unfold TornadoState.file ClientDescriptor.receivesAllStreams
  split <;> simp

/-- Filing one more object. -/
theorem Filed.file {state : TornadoState} {Member : Ref → Prop} (filed : Filed state Member)
    {ref : Ref} (new : ¬ Member ref) :
    Filed (state.file ref) fun other => other = ref ∨ Member other where
  users := filed.users.append new
  realms := by
    by_cases receives : (state.heap ref).receivesAllStreams = true
    · simp only [TornadoState.file, receives, if_true]
      refine (filed.realms.append fun member => new member.1).congr (fun other => ?_) fun _ _ => rfl
      constructor
      · rintro ⟨rfl | member, otherReceives⟩
        · exact Or.inl rfl
        · exact Or.inr ⟨member, otherReceives⟩
      · rintro (rfl | ⟨member, otherReceives⟩)
        · exact ⟨Or.inl rfl, receives⟩
        · exact ⟨Or.inr member, otherReceives⟩
    · simp only [TornadoState.file, receives]
      refine filed.realms.congr (fun other => ?_) fun _ _ => rfl
      constructor
      · rintro ⟨rfl | member, otherReceives⟩
        · exact absurd otherReceives receives
        · exact ⟨member, otherReceives⟩
      · rintro ⟨member, otherReceives⟩
        exact ⟨Or.inr member, otherReceives⟩

/-- Filing objects in order. -/
theorem Server.run_fileAll {refs : List Ref} {state : TornadoState} {Member : Ref → Prop}
    (distinct : refs.Nodup) (new : ∀ ref ∈ refs, ¬ Member ref) (filed : Filed state Member) :
    ∃ after, Program.forEach refs Server.addToClientDicts state = (.ok (), after) ∧
      Filed after (fun ref => ref ∈ refs ∨ Member ref) ∧
      after = { state with
        userClients := after.userClients
        realmClientsAllStreams := after.realmClientsAllStreams } := by
  induction refs generalizing state Member with
  | nil => exact ⟨state, rfl, by simpa using filed, rfl⟩
  | cons ref rest inductionHypothesis =>
      obtain ⟨refNew, restDistinct⟩ := List.nodup_cons.mp distinct
      have restNew : ∀ other ∈ rest, ¬ (other = ref ∨ Member other) := by
        rintro other member (rfl | filedBefore)
        · exact refNew member
        · exact new other (List.mem_cons_of_mem _ member) filedBefore
      obtain ⟨after, run, afterFiled, frame⟩ := inductionHypothesis restDistinct restNew
        (filed.file (new ref List.mem_cons_self))
      refine ⟨after, (Program.run_forEach_cons (Server.run_addToClientDicts ref state)).trans run,
        ?_, frame⟩
      have members : (fun other => other ∈ rest ∨ other = ref ∨ Member other) =
          fun other => other ∈ ref :: rest ∨ Member other := by
        funext other
        rw [List.mem_cons]
        exact propext (by tauto)
      rw [← members]
      exact afterFiled

/-! ## A new queue -/

/-- A new object changes no other. -/
theorem TornadoState.heap_create_of_lt {state : TornadoState} {ref : Ref}
    (old : ref < state.nextRef) (client : ClientDescriptor) :
    (state.create client).heap ref = state.heap ref := by
  simp [TornadoState.create, ne_of_lt old]

@[simp] theorem TornadoState.heap_create_self (state : TornadoState) (client : ClientDescriptor) :
    (state.create client).heap state.nextRef = client := by
  simp [TornadoState.create]

/-- A new object without a handler keeps the handlers safe. -/
theorem HandlersSafe.create {bound : Nat} {state : TornadoState} (safe : HandlersSafe bound state)
    {client : ClientDescriptor} (idle : client.currentHandlerId = none) :
    HandlersSafe bound (state.create client) := by
  intro ref handlerId connected
  by_cases new : ref = state.nextRef
  · rw [new, TornadoState.heap_create_self, idle] at connected
    cases connected
  · simp only [TornadoState.create, new, if_false] at connected
    exact safe ref handlerId connected

/-- Registering a new object under a new queue id. -/
theorem RegistryInvariant.register {state : TornadoState} (invariant : RegistryInvariant state)
    {client : ClientDescriptor} {queueId : String} (stored : client.eventQueue.id = queueId)
    (fresh : queueId ∉ state.clients.keys) :
    RegistryInvariant (TornadoState.file { state.create client with
      clients := state.clients.set queueId state.nextRef } state.nextRef) := by
  let created : TornadoState :=
    { state.create client with clients := state.clients.set queueId state.nextRef }
  have old : ∀ ref ∈ state.clients.values, created.heap ref = state.heap ref := fun ref member =>
    TornadoState.heap_create_of_lt (invariant.created ref member) client
  have new : created.heap state.nextRef = client := state.heap_create_self client
  have values : ∀ ref, ref ∈ created.clients.values ↔
      ref = state.nextRef ∨ ref ∈ state.clients.values := by
    intro ref
    simp [created, Dict.values, Dict.entries_set_of_not_mem state.nextRef fresh, or_comm]
  have filedBefore : Filed created fun ref => ref ∈ state.clients.values := by
    refine ⟨invariant.users.congr (fun _ => Iff.rfl) fun ref member => by rw [old ref member],
      invariant.realms.congr (fun ref => ?_) fun ref member => by rw [old ref member.1]⟩
    constructor <;> rintro ⟨member, receives⟩ <;> rw [old ref member] at * <;>
      exact ⟨member, receives⟩
  have notNew : state.nextRef ∉ state.clients.values := fun member =>
    absurd (invariant.created _ member) (lt_irrefl _)
  have filed := filedBefore.file notNew
  refine ⟨?_, ?_, ?_, ?_, ?_⟩
  · intro entry member
    have isEntry : entry ∈ created.clients.entries := member
    rcases Dict.mem_entries_set.mp isEntry with rfl | ⟨oldEntry, _⟩
    · show (created.heap state.nextRef).eventQueue.id = queueId
      rw [new]
      exact stored
    · show (created.heap entry.2).eventQueue.id = entry.1
      rw [old entry.2 (Dict.mem_values.mpr ⟨entry.1, oldEntry⟩)]
      exact invariant.named entry oldEntry
  · intro ref member
    rcases (values ref).mp member with rfl | oldMember
    · exact Nat.lt_succ_self _
    · exact Nat.lt_succ_of_lt (invariant.created ref oldMember)
  · exact filed.users.congr values fun _ _ => rfl
  · refine filed.realms.congr (fun ref => ?_) fun _ _ => rfl
    exact and_congr (values ref) Iff.rfl
  · intro other waiting
    exact Dict.mem_keys_set.mpr (Or.inr (invariant.webReload other waiting))

/-- `allocate_client_descriptor` with a new id either fails and changes nothing or
registers a new object. -/
theorem Server.allocateClientDescriptor_cases (newQueueData : ClientDict) (queueId : String)
    (now : Rat) (state : TornadoState) :
    (∃ exception, Server.allocateClientDescriptor newQueueData queueId now state =
      (.error exception, state)) ∨
    ∃ client : ClientDescriptor, client.eventQueue = .new queueId ∧
      client.currentHandlerId = none ∧
      Server.allocateClientDescriptor newQueueData queueId now state =
        (.ok state.nextRef, TornadoState.file { state.create client with
          clients := state.clients.set queueId state.nextRef } state.nextRef) := by
  unfold Server.allocateClientDescriptor
  rcases built : ClientDescriptor.fromDict
    { newQueueData with eventQueue := some (EventQueue.new queueId).toDict } now with
    exception | client
  · exact Or.inl ⟨exception, rfl⟩
  · obtain ⟨⟨queueDict, isDict, restored⟩, idle, _⟩ := ClientDescriptor.fromDict_eq_ok built
    cases isDict
    refine Or.inr ⟨client, (Except.ok.inj restored).symm, idle, ?_⟩
    simp only [Program.run_read_bind, Program.run_modify_bind]
    rw [Program.run_bind_of_ok (Server.run_addToClientDicts _ _)]
    rfl

/-! ## Loading -/

/-- The file is one that `dump_event_queues` could have written: every queue is saved
under its own id. -/
def Saved (data : Server.PersistentQueues) : Prop :=
  ∀ pair ∈ data, ∃ queueDict, pair.2.eventQueue = some queueDict ∧ queueDict.id = some pair.1

/-- The dictionaries of the registries are empty. -/
structure AtStart (state : TornadoState) : Prop where
  clients : state.clients = .empty
  userClients : state.userClients = .empty
  realmClientsAllStreams : state.realmClientsAllStreams = .empty
  webReloadClients : state.webReloadClients = .empty

/-- Every client is a loaded one, and nothing but `clients` and the heap has changed. -/
structure Restored (loaded : List (String × ClientDescriptor)) (bound : Nat)
    (before after : TornadoState) : Prop where
  entries : ∀ entry ∈ after.clients.entries,
    (entry.1, after.heap entry.2) ∈ loaded ∧ entry.2 < after.nextRef
  handlers : HandlersSafe bound after
  userClients : after.userClients = before.userClients
  realmClientsAllStreams : after.realmClientsAllStreams = before.realmClientsAllStreams
  webReloadClients : after.webReloadClients = before.webReloadClients
  currentHandlerId : after.currentHandlerId = before.currentHandlerId
  published : after.published = before.published

theorem Server.restoreClients_spec {loaded : List (String × ClientDescriptor)} {bound : Nat}
    {before : TornadoState} (safe : HandlersSafe bound before)
    (idle : ∀ pair ∈ loaded, pair.2.currentHandlerId = none) :
    ∃ after, Server.restoreClients loaded before = (.ok (), after) ∧
      Restored loaded bound before after := by
  have triple : Program.Triple (fun state => state = before) (Server.restoreClients loaded)
      (fun _ => Restored loaded bound before) (fun _ _ => False) := by
    refine Program.Triple.bind (fun _ => Restored loaded bound before)
      (Program.Triple.modify ?_) fun _ => Program.Triple.forEach fun pair member => ?_
    · rintro state rfl
      exact ⟨by simp, safe, rfl, rfl, rfl, rfl, rfl⟩
    · intro state restored
      refine ⟨?_, restored.handlers.create (idle pair member), restored.userClients,
        restored.realmClientsAllStreams, restored.webReloadClients, restored.currentHandlerId,
        restored.published⟩
      intro entry entryMember
      rcases Dict.mem_entries_set.mp entryMember with rfl | ⟨old, _⟩
      · refine ⟨?_, Nat.lt_succ_self _⟩
        show (pair.1, (state.create pair.2).heap state.nextRef) ∈ loaded
        rw [TornadoState.heap_create_self]
        exact member
      · obtain ⟨isLoaded, below⟩ := restored.entries entry old
        refine ⟨?_, Nat.lt_succ_of_lt below⟩
        show (entry.1, (state.create pair.2).heap entry.2) ∈ loaded
        rw [TornadoState.heap_create_of_lt below]
        exact isLoaded
  obtain ⟨value, after, run, restored⟩ := triple.returns rfl
  exact ⟨after, run, restored⟩

/-- Marking adds the given queue ids at most. -/
theorem Server.markClientsToReload_spec (lower : String → String) (queueIds : List String)
    (before : TornadoState) :
    ∃ after, Server.markClientsToReload lower queueIds before = (.ok (), after) ∧
      after = { before with webReloadClients := after.webReloadClients } ∧
      ∀ queueId ∈ after.webReloadClients.keys,
        queueId ∈ before.webReloadClients.keys ∨ queueId ∈ queueIds := by
  let Marked (state : TornadoState) : Prop :=
    state = { before with webReloadClients := state.webReloadClients } ∧
      ∀ queueId ∈ state.webReloadClients.keys,
        queueId ∈ before.webReloadClients.keys ∨ queueId ∈ queueIds
  have triple : Program.Triple (fun state => state = before)
      (Server.markClientsToReload lower queueIds) (fun _ => Marked) (fun _ _ => False) := by
    refine Program.Triple.bind_read fun accepting => Program.Triple.bind_read fun realmId => ?_
    rintro state ⟨⟨rfl, isAccepting⟩, _⟩
    have listed : ∀ queueId ∈ accepting.insertionSort fun left right => realmId left ≤ realmId right,
        queueId ∈ queueIds := by
      intro queueId member
      rw [List.mem_insertionSort, ← isAccepting] at member
      exact List.mem_of_mem_filter member
    have loop : Program.Triple Marked (Program.forEach
        (accepting.insertionSort fun left right => realmId left ≤ realmId right) fun queueId =>
          Program.modify fun state : TornadoState => { state with
            webReloadClients := state.webReloadClients.set queueId () })
        (fun _ => Marked) (fun (_ : PyError) _ => False) := by
      refine Program.Triple.forEach fun queueId member => Program.Triple.modify ?_
      rintro marked ⟨frame, within⟩
      refine ⟨by rw [frame], fun other otherMember => ?_⟩
      rcases Dict.mem_keys_set.mp otherMember with rfl | old
      · exact Or.inr (listed other member)
      · exact within other old
    exact loop state ⟨rfl, fun queueId member => Or.inl member⟩
  obtain ⟨value, after, run, marked⟩ := triple.returns rfl
  exact ⟨after, run, marked.1, marked.2⟩

/-- Different keys have different objects when every object is stored under its id. -/
theorem values_nodup {state : TornadoState}
    (named : ∀ entry ∈ state.clients.entries, (state.heap entry.2).eventQueue.id = entry.1) :
    state.clients.values.Nodup := by
  refine List.Nodup.map_on ?_ (List.Nodup.of_map _ state.clients.nodupKeys)
  intro left leftMember right rightMember sameRef
  have sameKey : left.1 = right.1 := by
    rw [← named left leftMember, ← named right rightMember, sameRef]
  exact Prod.ext sameKey sameRef

/-- From the clients that the file gave, filing them all establishes the invariant. -/
theorem Server.fileLoaded_spec {loaded : List (String × ClientDescriptor)} {bound : Nat}
    {before restored : TornadoState} (isRestored : Restored loaded bound before restored)
    (atStart : AtStart before) (stored : ∀ pair ∈ loaded, pair.2.eventQueue.id = pair.1)
    (lower : String → String) :
    ∃ marked after, Server.markClientsToReload lower restored.clients.keys restored =
        (.ok (), marked) ∧
      Program.forEach marked.clients.values Server.addToClientDicts marked = (.ok (), after) ∧
      ServerInvariant bound before.currentHandlerId after ∧
      after.published = before.published ∧ after.heap = restored.heap ∧
      after.clients = restored.clients := by
  obtain ⟨marked, markRun, markFrame, within⟩ :=
    Server.markClientsToReload_spec lower restored.clients.keys restored
  have sameClients : marked.clients = restored.clients := by rw [markFrame]
  have sameHeap : marked.heap = restored.heap := by rw [markFrame]
  have named : ∀ entry ∈ marked.clients.entries,
      (marked.heap entry.2).eventQueue.id = entry.1 := by
    intro entry member
    rw [sameClients] at member
    rw [sameHeap]
    exact stored _ (isRestored.entries entry member).1
  have filedNone : Filed marked fun _ => False := by
    have users : marked.userClients = .empty := by
      rw [markFrame]
      exact isRestored.userClients.trans atStart.userClients
    have realms : marked.realmClientsAllStreams = .empty := by
      rw [markFrame]
      exact isRestored.realmClientsAllStreams.trans atStart.realmClientsAllStreams
    refine ⟨?_, ?_⟩
    · rw [users]
      exact Indexes.empty fun _ none => none
    · rw [realms]
      exact Indexes.empty fun _ none => none.1
  obtain ⟨after, fileRun, filed, fileFrame⟩ :=
    Server.run_fileAll (values_nodup named) (fun _ _ none => none) filedNone
  have afterClients : after.clients = marked.clients := by rw [fileFrame]
  have afterHeap : after.heap = marked.heap := by rw [fileFrame]
  have afterNext : after.nextRef = restored.nextRef := by rw [fileFrame, markFrame]
  have afterWeb : after.webReloadClients = marked.webReloadClients := by rw [fileFrame]
  have afterDescriptors : after.descriptorsByHandlerId = restored.descriptorsByHandlerId := by
    rw [fileFrame, markFrame]
  refine ⟨marked, after, markRun, fileRun, ⟨⟨?_, ?_, ?_, ?_, ?_⟩, ?_, ?_⟩, ?_, ?_, ?_⟩
  · rw [afterClients, afterHeap]
    exact named
  · intro ref member
    rw [afterClients, sameClients] at member
    obtain ⟨id, entry⟩ := Dict.mem_values.mp member
    rw [afterNext]
    exact (isRestored.entries _ entry).2
  · rw [afterClients]
    exact filed.users.congr (by simp) fun _ _ => rfl
  · rw [afterClients]
    exact filed.realms.congr (by simp) fun _ _ => rfl
  · intro queueId member
    rw [afterWeb] at member
    rw [afterClients, sameClients]
    refine (within queueId member).resolve_left ?_
    rw [isRestored.webReloadClients, atStart.webReloadClients]
    simp
  · intro ref handlerId connected
    rw [afterHeap, sameHeap] at connected
    rw [afterDescriptors]
    exact isRestored.handlers ref handlerId connected
  · rw [fileFrame, markFrame]
    exact isRestored.currentHandlerId
  · rw [fileFrame, markFrame]
    exact isRestored.published
  · exact afterHeap.trans sameHeap
  · exact afterClients.trans sameClients

/-- `load_event_queues` at start, with a saved file, establishes the invariant; every
client is one that was saved. -/
theorem Server.loadEventQueues_spec {data : Option Server.PersistentQueues} {bound : Nat}
    {before : TornadoState} (safe : HandlersSafe bound before) (atStart : AtStart before)
    (saved : ∀ queues ∈ data, Saved queues) (lower : String → String) (now : Rat) :
    ∃ after, Server.loadEventQueues lower data now before = (.ok (), after) ∧
      ServerInvariant bound before.currentHandlerId after ∧ after.published = before.published ∧
      ∀ ref ∈ after.clients.values, ∃ queues ∈ data, ∃ pair ∈ queues,
        ClientDescriptor.fromDict pair.2 now = .ok (after.heap ref) := by
  -- Without data, or with data that cannot be deserialized, there are no clients.
  have unread : ∃ after, (do
      let queueIds ← Program.read fun state => state.clients.keys
      Server.markClientsToReload lower queueIds
      let refs ← Program.read fun state => state.clients.values
      Program.forEach refs Server.addToClientDicts : Server Unit) before = (.ok (), after) ∧
      ServerInvariant bound before.currentHandlerId after ∧ after.published = before.published ∧
      ∀ ref ∈ after.clients.values, ∃ queues ∈ data, ∃ pair ∈ queues,
        ClientDescriptor.fromDict pair.2 now = .ok (after.heap ref) := by
    have none : Restored [] bound before before := by
      refine ⟨?_, safe, rfl, rfl, rfl, rfl, rfl⟩
      rw [atStart.clients]
      simp
    obtain ⟨marked, after, markRun, fileRun, invariant, published, _, clients⟩ :=
      Server.fileLoaded_spec none atStart (by simp) lower
    refine ⟨after, ?_, invariant, published, ?_⟩
    · rw [Program.run_read_bind, Program.run_bind_of_ok markRun]
      exact fileRun
    · rw [clients, atStart.clients]
      simp
  unfold Server.loadEventQueues
  cases data with
  | none => exact unread
  | some queues =>
      rcases converted : queues.mapM (fun pair =>
        (ClientDescriptor.fromDict pair.2 now).map (Prod.mk pair.1)) with exception | loaded
      · simp only [converted]
        exact unread
      · have source : ∀ pair ∈ loaded, ∃ savedPair ∈ queues, savedPair.1 = pair.1 ∧
            ClientDescriptor.fromDict savedPair.2 now = .ok pair.2 := by
          intro pair member
          obtain ⟨savedPair, savedMember, isPair⟩ := exists_of_mapM_eq_ok converted pair member
          rcases built : ClientDescriptor.fromDict savedPair.2 now with exception | client
          · rw [built] at isPair
            cases isPair
          · rw [built] at isPair
            cases isPair
            exact ⟨savedPair, savedMember, rfl, built⟩
        have facts : ∀ pair ∈ loaded, pair.2.eventQueue.id = pair.1 ∧
            pair.2.currentHandlerId = none := by
          intro pair member
          obtain ⟨savedPair, savedMember, sameId, built⟩ := source pair member
          obtain ⟨⟨queueDict, isDict, restored⟩, idle, _⟩ := ClientDescriptor.fromDict_eq_ok built
          obtain ⟨savedDict, isSaved, savedId⟩ := saved queues rfl savedPair savedMember
          rw [isDict] at isSaved
          cases isSaved
          exact ⟨(EventQueue.id_of_fromDict restored savedId).trans sameId, idle⟩
        obtain ⟨restored, restoreRun, isRestored⟩ :=
          Server.restoreClients_spec safe fun pair member => (facts pair member).2
        obtain ⟨marked, after, markRun, fileRun, invariant, published, heap, clients⟩ :=
          Server.fileLoaded_spec isRestored atStart (fun pair member => (facts pair member).1) lower
        refine ⟨after, ?_, invariant, published, ?_⟩
        · simp only [converted]
          rw [Program.run_bind_of_ok restoreRun, Program.run_read_bind,
            Program.run_bind_of_ok markRun]
          exact fileRun
        · intro ref member
          rw [clients] at member
          obtain ⟨id, entry⟩ := Dict.mem_values.mp member
          obtain ⟨savedPair, savedMember, _, built⟩ := source _ (isRestored.entries _ entry).1
          exact ⟨queues, rfl, savedPair, savedMember, by rw [heap]; exact built⟩

end Zulip.Tornado
