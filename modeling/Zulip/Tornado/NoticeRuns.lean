import Zulip.Tornado.LateNotices

/-!
# Notices over whole runs

A process that handles each message once, and what its collections of queues publish.
`notices_once_iff` says that no user is notified twice of a message exactly when no
collection removes two queues of a user that owe the same notice.
-/

namespace Zulip.Tornado

open Program

/-- A process and the ids of the messages that it has processed. -/
structure NoticeState where
  server : TornadoState
  processed : List Int

namespace ServerAction

/-- A message is processed once and has each recipient once; message events come from
nowhere else, and only dumped queues are loaded. -/
def Once (processed : List Int) : ServerAction → Prop
  | .processMessageEvent template users =>
      template.messageDict.id ∉ processed ∧ (users.map UserData.id).Nodup
  | .processEvent event _ => event.message? = none
  | .loadEventQueues data _ => data = none
  | _ => True

/-- The processed messages after a call. -/
def processedAfter (processed : List Int) : ServerAction → List Int
  | .processMessageEvent template _ => template.messageDict.id :: processed
  | _ => processed

/-- A collection removes no two queues, of a user whom it leaves without a queue, that
owe the same notice. -/
def CollectsOnce (state : TornadoState) : ServerAction → Prop
  | .gcEventQueues _ toRemove => state.OwesOnce toRemove
  | _ => True

end ServerAction

/-- One call of a process that handles each message once. -/
structure NoticeStep (settings : Settings) (env : PayloadEnvironment) (lower : String → String)
    (state : NoticeState) (action : ServerAction) (next : NoticeState) : Prop where
  server : ServerStep settings env lower state.server action next.server
  once : action.Once state.processed
  processed : next.processed = action.processedAfter state.processed

theorem NoticeStep.perform {settings : Settings} {env : PayloadEnvironment}
    {lower : String → String} {state : NoticeState} (action : ServerAction)
    (admissible : action.Admissible state.server) (once : action.Once state.processed) :
    NoticeStep settings env lower state action
      ⟨(action.program settings env lower state.server).2,
        action.processedAfter state.processed⟩ :=
  ⟨⟨admissible, rfl⟩, once, rfl⟩

/-- The published notices have distinct keys. -/
def NotifiesEachOnce (state : NoticeState) : Prop :=
  (state.server.published.map Notice.key).Nodup

/-- What a call does to the notices. -/
structure NoticeEffect (processed : List Int) (condition : Prop) (before after : TornadoState) :
    Prop where
  invariant : NoticeInvariant processed after
  nodup_iff : (before.published.map Notice.key).Nodup →
    ((after.published.map Notice.key).Nodup ↔ condition)

namespace NoticeEffect

variable {processed : List Int} {before after : TornadoState}

/-- Nothing was published. -/
theorem of_published (invariant : NoticeInvariant processed after)
    (same : after.published = before.published) : NoticeEffect processed True before after := by
  refine ⟨invariant, fun once => ?_⟩
  rw [same]
  exact iff_of_true once trivial

theorem of_settled (invariant : NoticeInvariant processed before)
    (settled : Settled before after) : NoticeEffect processed True before after :=
  of_published (invariant.settled settled) settled.published

/-- New notices about a new message. -/
theorem of_processed {messageId : Int} (invariant : NoticeInvariant processed before)
    (fresh : messageId ∉ processed) (kept : NoticeInvariant (messageId :: processed) after)
    {notices : List Notice} (published : after.published = before.published ++ notices)
    (distinct : (notices.map Notice.key).Nodup)
    (about : ∀ notice ∈ notices, notice.messageId = messageId) :
    NoticeEffect (messageId :: processed) True before after := by
  refine ⟨kept, fun once => iff_of_true ?_ trivial⟩
  rw [published, List.map_append]
  refine once.append distinct fun key old new => ?_
  obtain ⟨notice, isOld, rfl⟩ := List.mem_map.mp old
  obtain ⟨other, isNew, same⟩ := List.mem_map.mp new
  have sameMessage : other.messageId = notice.messageId := congrArg (fun key => key.2.2) same
  rw [about other isNew] at sameMessage
  exact fresh (sameMessage ▸ invariant.published notice isOld)

end NoticeEffect

section Steps

variable {settings : Settings} {env : PayloadEnvironment} {lower : String → String}
  {processed : List Int} {state : TornadoState}

/-- A restart keeps the waiting messages. -/
theorem NoticeInvariant.restart (invariant : NoticeInvariant processed state)
    (registry : RegistryInvariant state) (now : Rat) :
    NoticeEffect processed True state
      (Server.loadEventQueues lower (some (Server.dumpEventQueues state)) now
        { TornadoState.start with published := state.published }).2 := by
  have saved : ∀ queues ∈ some (Server.dumpEventQueues state), Saved queues := by
    rintro _ ⟨⟩
    exact registry.dump_saved
  have atStart : AtStart { TornadoState.start with published := state.published } :=
    ⟨rfl, rfl, rfl, rfl⟩
  obtain ⟨after, run, _, published, restored⟩ := Server.loadEventQueues_spec
    (ServerInvariant.start state.published).handlers atStart saved lower now
  rw [run]
  refine .of_published ⟨fun ref member => ?_, ?_⟩ published
  · obtain ⟨queues, isDump, pair, isPair, built⟩ := restored ref member
    cases isDump
    obtain ⟨entry, isEntry, rfl⟩ := List.mem_map.mp isPair
    obtain ⟨⟨queueDict, isDict, isQueue⟩, _, isUser⟩ := ClientDescriptor.fromDict_eq_ok built
    cases isDict
    rw [EventQueue.fromDict_toDict] at isQueue
    rw [published]
    exact (invariant.waiting entry.2 (Dict.mem_values.mpr ⟨entry.1, isEntry⟩)).retains
      (.of_eq (Option.some.inj isUser).symm (Except.ok.inj isQueue).symm)
  · rw [published]
    exact invariant.published

/-- Cleaning up one queue publishes what it owes once. -/
theorem NoticeInvariant.cleanup (invariant : NoticeInvariant processed state)
    (hook : settings.missedmessageHookRegistered = true) {counter : Nat}
    (server : ServerInvariant counter counter state) {ref : Ref}
    (registered : ref ∈ state.clients.values) :
    NoticeEffect processed True state (Server.cleanup settings ref state).2 := by
  have settled := (Server.finishCurrentHandler_settled ref) state state (Settled.refl state)
  have kept := (Server.finishCurrentHandler_quiet ref).keepsAnd counter counter
    (fun state => ref ∈ state.clients.values)
    (fun same still => by rw [same.clients]; exact still) state ⟨server, registered⟩
  unfold Server.cleanup
  rcases run : Server.finishCurrentHandler ref state with ⟨exception | value, finished⟩ <;>
    rw [run] at settled kept
  · rw [run_bind_of_error run]
    exact .of_settled invariant settled
  · rw [run_bind_of_ok run]
    obtain ⟨after, collects, result⟩ := Server.collectOne_spec settings kept.1.registry kept.2
    simp only [Server.getClient, run_read_bind, collects]
    have waiting := invariant.settled settled
    refine ⟨waiting.collected hook kept.1.registry result, fun once => ?_⟩
    rw [result.nodup_iff waiting hook (by rwa [settled.published])]
    exact iff_of_true (List.pairwise_singleton _ _) trivial

/-- Collecting the expired queues. -/
theorem NoticeInvariant.gcEventQueues (invariant : NoticeInvariant processed state)
    (hook : settings.missedmessageHookRegistered = true) (registry : RegistryInvariant state)
    {now : Rat} {toRemove : List String}
    (order : toRemove.Perm ((state.expiredClients now).map Prod.fst)) :
    NoticeEffect processed (state.OwesOnce toRemove) state
      (Server.gcEventQueues settings now toRemove state).2 := by
  obtain ⟨after, run, result⟩ := Server.gcEventQueues_spec settings registry order
  rw [run]
  refine ⟨invariant.collected hook registry result, fun once => ?_⟩
  rw [result.nodup_iff invariant hook once]
  exact TornadoState.pairwise_removalKeys_iff invariant hook registry
    (Server.expired_nodup order)

/-- The effect of each call. -/
theorem ServerStep.noticeEffect {next : TornadoState} {action : ServerAction} {counter : Nat}
    (hook : settings.missedmessageHookRegistered = true)
    (server : ServerInvariant counter counter state) (invariant : NoticeInvariant processed state)
    (transition : ServerStep settings env lower state action next) (once : action.Once processed) :
    NoticeEffect (action.processedAfter processed) (action.CollectsOnce state) state next := by
  obtain ⟨admissible, rfl⟩ := transition
  have settles : ∀ {program : Server Unit}, Frames Settled program →
      NoticeEffect processed True state (program state).2 := fun frames =>
    .of_settled invariant (frames.final (Settled.refl state))
  cases action with
  | allocateClientDescriptor newQueueData queueId now =>
      exact settles (Frames.bind (Server.allocateClientDescriptor_settled _ _ _) fun _ =>
        Frames.pure ())
  | loadEventQueues data now =>
      obtain ⟨after, run, _, published, restored⟩ :=
        Server.loadEventQueues_spec server.handlers admissible.1 admissible.2 lower now
      simp only [ServerAction.program, run]
      refine .of_published ⟨fun ref member => ?_, ?_⟩ published
      · obtain ⟨queues, isData, _⟩ := restored ref member
        have noData : data = none := once
        rw [noData] at isData
        cases isData
      · rw [published]
        exact invariant.published
  | restart now => exact invariant.restart server.registry now
  | gcEventQueues now toRemove => exact invariant.gcEventQueues hook server.registry admissible
  | cleanup ref => exact invariant.cleanup hook server admissible
  | sendWebReloadClientEvents immediate count =>
      exact settles (Frames.bind (Server.sendWebReloadClientEvents_settled _ _ _) fun _ =>
        Frames.pure ())
  | fetchEvents args =>
      have allocates : Frames Settled Server.allocateHandlerId :=
        Frames.bind (Frames.read _) fun _ => Frames.bind
          (Frames.modify fun _ _ settled => ⟨settled.published, settled.clients⟩)
            fun _ => Frames.pure _
      exact settles (Frames.bind allocates fun handlerId =>
        Frames.bind (Server.fetchEvents_settled _) fun _ => Frames.pure ())
  | onConnectionClose handlerId => exact settles (Server.onConnectionClose_settled handlerId)
  | processEvent event users => exact settles (Server.processEvent_settled lower once users)
  | processMessageEvent template users =>
      obtain ⟨kept, notices, published, distinct, about⟩ :=
        Server.processMessageEvent_spec settings env lower invariant once.1 once.2
      exact .of_processed invariant once.1 kept published distinct about

end Steps

/-- In a run of a process with the hook registered, no user is ever notified twice in one
way of one message exactly when every collection of queues collects each notice once. -/
theorem notices_once_iff {settings : Settings} {env : PayloadEnvironment}
    {lower : String → String} (hook : settings.missedmessageHookRegistered = true)
    {trace : List (NoticeState × ServerAction)} {final : NoticeState}
    (run : Run (NoticeStep settings env lower) ⟨TornadoState.start, []⟩ trace final) :
    Run.Always NotifiesEachOnce trace final ↔
      ∀ visit ∈ trace, visit.2.CollectsOnce visit.1.server := by
  let Aux (state : NoticeState) : Prop :=
    (∃ counter, ServerInvariant counter counter state.server) ∧
      NoticeInvariant state.processed state.server
  have effect : ∀ {state action next}, Aux state → NoticeStep settings env lower state action next →
      NoticeEffect next.processed (action.CollectsOnce state.server) state.server next.server := by
    rintro state action next ⟨⟨_, server⟩, invariant⟩ step
    rw [step.processed]
    exact step.server.noticeEffect hook server invariant step.once
  have initial : Aux ⟨TornadoState.start, []⟩ :=
    ⟨⟨0, ServerInvariant.start []⟩, NoticeInvariant.start⟩
  have noNotices : NotifiesEachOnce ⟨TornadoState.start, []⟩ := List.nodup_nil
  refine @Run.always_iff _ _ _ Aux NotifiesEachOnce
    (fun state action => action.CollectsOnce state.server) _ _ _ run initial noNotices ?_ ?_
  · intro state action next aux _ step _
    exact ⟨aux.1.elim fun _ server => step.server.keeps server, (effect aux step).invariant⟩
  · intro state action next aux once step
    exact (effect aux step).nodup_iff once

/-- A direct message from another user. -/
def directMessageTemplate : EventTemplate where
  messageDict :=
    { id := 11
      senderId := 5
      displayRecipient := .direct "[]"
      subject := ""
      client := "website"
      content := "hello"
      renderedContent := "<p>hello</p>"
      senderFullName := "Iago"
      senderEmail := "iago@zulip.com"
      senderDeliveryEmail := "iago@zulip.com"
      senderRealmId := 2
      senderAvatarSource := "G"
      senderAvatarVersion := 1
      senderEmailAddressVisibility := 1
      rest := [] }
  realmId := 2

/-- A user with two queues is sent a message and loses one queue after the other. -/
theorem notices_once_iff_cleanup :
    ∃ trace final, Run (NoticeStep ⟨1, true⟩ plainEnvironment id) ⟨TornadoState.start, []⟩ trace
        final ∧
      final.server.published.map Notice.key = [(.push, 7, 11), (.email, 7, 11)] ∧
      Run.Always NotifiesEachOnce trace final := by
  have first := Run.step (@Run.refl _ _ (NoticeStep ⟨1, true⟩ plainEnvironment id)
    ⟨TornadoState.start, []⟩) (NoticeStep.perform
      (.allocateClientDescriptor (webQueueData 7) "a" 0) (show "a" ∉ _ by decide) trivial)
  have second := first.step (NoticeStep.perform
    (.allocateClientDescriptor (webQueueData 7) "b" 0) (show "b" ∉ _ by decide) trivial)
  have third := second.step (NoticeStep.perform
    (.processMessageEvent directMessageTemplate [⟨7, [], none⟩]) trivial
      ⟨List.not_mem_nil, List.nodup_singleton _⟩)
  have fourth := third.step (NoticeStep.perform (.cleanup 0) (show 0 ∈ _ by decide +kernel) trivial)
  have fifth := fourth.step (NoticeStep.perform (.gcEventQueues 1000 ["b"])
    (show List.Perm _ _ by decide +kernel) trivial)
  refine ⟨_, _, fifth, by decide +kernel, (notices_once_iff rfl fifth).mpr fun visit member => ?_⟩
  simp only [List.nil_append, List.cons_append, List.mem_cons, List.not_mem_nil, or_false] at member
  rcases member with rfl | rfl | rfl | rfl | rfl
  · trivial
  · trivial
  · trivial
  · trivial
  · show TornadoState.OwesOnce _ _
    decide +kernel

/-- When two queues of a user expire together, the hook takes each for the last one. -/
theorem notices_twice :
    ∃ trace final, Run (NoticeStep ⟨1, true⟩ plainEnvironment id) ⟨TornadoState.start, []⟩ trace
        final ∧
      ¬ NotifiesEachOnce final := by
  have first := Run.step (@Run.refl _ _ (NoticeStep ⟨1, true⟩ plainEnvironment id)
    ⟨TornadoState.start, []⟩) (NoticeStep.perform
      (.allocateClientDescriptor (webQueueData 7) "a" 0) (show "a" ∉ _ by decide) trivial)
  have second := first.step (NoticeStep.perform
    (.allocateClientDescriptor (webQueueData 7) "b" 0) (show "b" ∉ _ by decide) trivial)
  have third := second.step (NoticeStep.perform
    (.processMessageEvent directMessageTemplate [⟨7, [], none⟩]) trivial
      ⟨List.not_mem_nil, List.nodup_singleton _⟩)
  have fourth := third.step (NoticeStep.perform (.gcEventQueues 1000 ["a", "b"])
    (show List.Perm _ _ by decide +kernel) trivial)
  refine ⟨_, _, fourth, ?_⟩
  unfold NotifiesEachOnce
  decide +kernel

end Zulip.Tornado
