import Mathlib.Data.List.Pairwise
import Zulip.Tornado.WaitingMessages

/-!
# At most one notice of each kind

A notice is published when a message is processed or when the last queue of a user is
collected while the message waits in it. `NoticeInvariant` says that no waiting message
owes a notice that was published already; `notices_once_iff` says when collecting
queues publishes a notice twice.
-/

namespace Zulip.Tornado

open Program

/-! ## Notices for a new message -/

/-- What is recorded is what was sent now or before. -/
theorem InternalData.get_notified_update (internalData : InternalData) (sent : Notified)
    (kind : NoticeKind) :
    (internalData.update sent).notified.get kind =
      (sent.get kind || internalData.notified.get kind) := by
  obtain ⟨push, email⟩ := sent
  cases kind with
  | push => cases push <;> rfl
  | email => cases email <;> rfl

/-- The data is about the user for whom it was made. -/
theorem UserMessageNotificationsData.userId_of_fromUserIdSets {userId : Int} {flags : List String}
    {privateMessage disabled : Bool} {sets : NotificationUserIdSets}
    {data : UserMessageNotificationsData}
    (made : fromUserIdSets userId flags privateMessage disabled sets = some data) :
    data.userId = userId := by
  unfold fromUserIdSets ofFields at made
  split at made <;> split at made <;> cases made <;> rfl

/-- The notices that a user gets for a new message: at most one of each kind, and each
is recorded. -/
structure NotifiesOnce (userId messageId : Int) (internalData : InternalData)
    (notices : List Notice) : Prop where
  distinct : (notices.map Notice.key).Nodup
  about : ∀ notice ∈ notices, notice.userProfileId = userId ∧ notice.messageId = messageId
  recorded : ∀ notice ∈ notices, internalData.notified.get notice.kind = true

theorem NotifiesOnce.none (userId messageId : Int) (internalData : InternalData) :
    NotifiesOnce userId messageId internalData [] := by
  refine ⟨List.nodup_nil, ?_, ?_⟩ <;> simp

theorem NotifiesOnce.of_kinds {userId messageId : Int} {internalData : InternalData}
    {notices : List Notice} {kinds : List NoticeKind}
    (keys : notices.map Notice.key = kinds.map fun kind => (kind, userId, messageId))
    (distinct : kinds.Nodup) (recorded : ∀ kind ∈ kinds, internalData.notified.get kind = true) :
    NotifiesOnce userId messageId internalData notices := by
  have keyOf : ∀ notice ∈ notices, ∃ kind ∈ kinds,
      notice.kind = kind ∧ notice.userProfileId = userId ∧ notice.messageId = messageId := by
    intro notice member
    have keyMember : notice.key ∈ notices.map Notice.key := List.mem_map_of_mem member
    rw [keys] at keyMember
    obtain ⟨kind, isKind, same⟩ := List.mem_map.mp keyMember
    simp only [Notice.key, Prod.mk.injEq] at same
    exact ⟨kind, isKind, same.1.symm, same.2.1.symm, same.2.2.symm⟩
  refine ⟨?_, ?_, ?_⟩
  · rw [keys]
    exact distinct.map fun _ _ same => (Prod.mk.inj same).1
  · intro notice member
    obtain ⟨_, _, _, about⟩ := keyOf notice member
    exact about
  · intro notice member
    obtain ⟨kind, isKind, same, _⟩ := keyOf notice member
    rw [same]
    exact recorded kind isKind

theorem EventTemplate.notifyUser_spec {shards : Int} {template : EventTemplate} {offZulip : Bool}
    {user : UserData} {internalData : InternalData} {notices : List Notice}
    (notified : template.notifyUser shards offZulip user = some (internalData, notices)) :
    NotifiesOnce user.id template.messageDict.id internalData notices := by
  unfold notifyUser at notified
  obtain ⟨data, made, notified⟩ := Option.bind_eq_some_iff.mp notified
  have isUser := UserMessageNotificationsData.userId_of_fromUserIdSets made
  dsimp only at notified
  split at notified
  · cases notified
    exact NotifiesOnce.none ..
  · cases notified
    refine NotifiesOnce.of_kinds ?_ (sentKinds_nodup data template.messageDict.senderId
      (offZulip || template.presenceIdleUserIds.contains user.id) {}) ?_
    · rw [map_key_maybeEnqueueNotifications, isUser]
    · intro kind isSent
      obtain ⟨notifiable, _⟩ := mem_sentKinds.mp isSent
      rw [InternalData.get_notified_update, get_maybeEnqueueNotifications, notifiable]
      cases kind <;> rfl

/-- What `extra_user_data` records about the notices published so far for a message. -/
structure Prepared (messageId : Int) (extraUserData : Dict Int InternalData)
    (notices : List Notice) : Prop where
  distinct : (notices.map Notice.key).Nodup
  about : ∀ notice ∈ notices, notice.messageId = messageId
  recorded : ∀ notice ∈ notices, ∃ internalData,
    extraUserData.get? notice.userProfileId = some internalData ∧
      internalData.notified.get notice.kind = true

theorem Prepared.nil (messageId : Int) : Prepared messageId .empty [] := by
  refine ⟨List.nodup_nil, ?_, ?_⟩ <;> simp

/-- One more user. -/
theorem Prepared.append {messageId userId : Int} {extraUserData : Dict Int InternalData}
    {internalData : InternalData} {notices more : List Notice}
    (prepared : Prepared messageId extraUserData notices)
    (notifies : NotifiesOnce userId messageId internalData more)
    (new : userId ∉ extraUserData.keys) :
    Prepared messageId (extraUserData.set userId internalData) (notices ++ more) := by
  have others : ∀ notice ∈ notices, notice.userProfileId ≠ userId := by
    rintro notice member rfl
    obtain ⟨_, found, _⟩ := prepared.recorded notice member
    exact new (Dict.mem_keys_of_get? found)
  refine ⟨?_, ?_, ?_⟩
  · rw [List.map_append]
    refine prepared.distinct.append notifies.distinct fun key member moreMember => ?_
    obtain ⟨notice, isNotice, rfl⟩ := List.mem_map.mp member
    obtain ⟨other, isOther, same⟩ := List.mem_map.mp moreMember
    have sameUser : other.userProfileId = notice.userProfileId :=
      congrArg (fun key => key.2.1) same
    exact others notice isNotice (sameUser.symm.trans (notifies.about other isOther).1)
  · intro notice member
    rcases List.mem_append.mp member with old | isMore
    · exact prepared.about notice old
    · exact (notifies.about notice isMore).2
  · intro notice member
    rcases List.mem_append.mp member with old | isMore
    · obtain ⟨data, found, recorded⟩ := prepared.recorded notice old
      exact ⟨data, (Dict.get?_set_ne _ _ (others notice old)).trans found, recorded⟩
    · refine ⟨internalData, ?_, notifies.recorded notice isMore⟩
      rw [(notifies.about notice isMore).1]
      exact Dict.get?_set_self ..

/-- The first loop of `process_message_event` publishes at most one notice of each kind
for each user and records them all, whether or not an assertion fails. -/
theorem Server.run_notifyUsers (settings : Settings) (template : EventTemplate)
    {users : List UserData} {extraUserData : Dict Int InternalData} {notices : List Notice}
    (before : TornadoState) (distinct : (users.map UserData.id).Nodup)
    (new : ∀ user ∈ users, user.id ∉ extraUserData.keys)
    (prepared : Prepared template.messageDict.id extraUserData notices) :
    ∃ laterData more, Prepared template.messageDict.id laterData more ∧
      (Server.notifyUsers settings template users extraUserData
          { before with published := before.published ++ notices }).2 =
        { before with published := before.published ++ more } ∧
      ∀ result, (Server.notifyUsers settings template users extraUserData
        { before with published := before.published ++ notices }).1 = .ok result →
          result = laterData := by
  induction users generalizing extraUserData notices with
  | nil => exact ⟨extraUserData, notices, prepared, rfl, fun result same => (Except.ok.inj same).symm⟩
  | cons user users inductionHypothesis =>
      obtain ⟨userNew, restDistinct⟩ := List.nodup_cons.mp distinct
      simp only [Server.notifyUsers, run_read_bind]
      cases notified : template.notifyUser settings.mobileNotificationsShards
        ({ before with published := before.published ++ notices }.receiverIsOffZulip user.id)
          user with
      | none => exact ⟨extraUserData, notices, prepared, rfl, nofun⟩
      | some result =>
          obtain ⟨internalData, more⟩ := result
          have append := prepared.append (EventTemplate.notifyUser_spec notified)
            (new user List.mem_cons_self)
          have restNew : ∀ other ∈ users,
              other.id ∉ (extraUserData.set user.id internalData).keys := by
            intro other member isKey
            rcases Dict.mem_keys_set.mp isKey with same | old
            · exact userNew (same ▸ List.mem_map_of_mem member)
            · exact new other (List.mem_cons_of_mem _ member) old
          have rest := inductionHypothesis restDistinct restNew append
          rw [← List.append_assoc] at rest
          exact rest

/-! ## Waiting messages -/

/-- Which messages wait in a client's queue: messages that were processed, each once, and
none of them still owes a notice that was published. -/
structure MessagesWait (processed : List Int) (published : List Notice)
    (client : ClientDescriptor) : Prop where
  valid : client.eventQueue.Valid
  distinct : (client.eventQueue.messages.map fun event => event.message.id).Nodup
  processed : ∀ event ∈ client.eventQueue.messages, event.message.id ∈ processed
  unsent : ∀ event ∈ client.eventQueue.messages, ∀ kind ∈ event.lateKinds client.userProfileId,
    (kind, client.userProfileId, event.message.id) ∉ published.map Notice.key

namespace MessagesWait

variable {processed : List Int} {published : List Notice} {client : ClientDescriptor}

theorem of_holdsNothing (nothing : client.HoldsNothing) :
    MessagesWait processed published client := by
  refine ⟨nothing.valid, ?_, ?_, ?_⟩ <;> simp [nothing.messages]

theorem retains {later : ClientDescriptor} (wait : MessagesWait processed published client)
    (retained : client.Retains later) : MessagesWait processed published later := by
  have sublist := retained.messages wait.valid
  refine ⟨retained.valid wait.valid, wait.distinct.sublist (sublist.map _),
    fun event member => wait.processed event (sublist.subset member), ?_⟩
  intro event member kind late
  rw [retained.user] at late ⊢
  exact wait.unsent event (sublist.subset member) kind late

/-- Notices for other messages or other users may be published. -/
theorem publish {more : List Notice} (wait : MessagesWait processed published client)
    (others : ∀ notice ∈ more, notice.messageId ∉ processed ∨
      notice.userProfileId ≠ client.userProfileId) :
    MessagesWait processed (published ++ more) client := by
  refine ⟨wait.valid, wait.distinct, wait.processed, fun event member kind late sent => ?_⟩
  rw [List.map_append, List.mem_append] at sent
  rcases sent with old | new
  · exact wait.unsent event member kind late old
  · obtain ⟨notice, isNotice, same⟩ := List.mem_map.mp new
    simp only [Notice.key, Prod.mk.injEq] at same
    rcases others notice isNotice with fresh | otherUser
    · exact fresh (same.2.2 ▸ wait.processed event member)
    · exact otherUser same.2.1

theorem process (wait : MessagesWait processed published client) (messageId : Int) :
    MessagesWait (messageId :: processed) published client :=
  ⟨wait.valid, wait.distinct, fun event member => List.mem_cons_of_mem _ (wait.processed event member),
    wait.unsent⟩

/-- A new message whose notices were recorded joins the queue. -/
theorem push (wait : MessagesWait processed published client) {event : MessageEvent}
    (known : event.message.id ∈ processed)
    (new : event.message.id ∉ client.eventQueue.messages.map fun event => event.message.id)
    (unsent : ∀ kind ∈ event.lateKinds client.userProfileId,
      (kind, client.userProfileId, event.message.id) ∉ published.map Notice.key) :
    MessagesWait processed published (client.push (.message event)) := by
  have pushed : (client.push (.message event)).eventQueue.messages =
      client.eventQueue.messages ++ [event] := EventQueue.messages_push _ _
  refine ⟨EventQueue.push_valid wait.valid _, ?_, ?_, ?_⟩
  · rw [pushed, List.map_append]
    refine wait.distinct.append (List.nodup_singleton _) ?_
    simpa using new
  · intro other member
    rw [pushed] at member
    rcases List.mem_append.mp member with old | isNew
    · exact wait.processed other old
    · rw [List.mem_singleton.mp isNew]
      exact known
  · intro other member
    rw [pushed] at member
    rcases List.mem_append.mp member with old | isNew
    · exact wait.unsent other old
    · rw [List.mem_singleton.mp isNew]
      exact unsent

end MessagesWait

/-- The messages that wait with the clients of a process, and those it has published
notices for, were processed. -/
structure NoticeInvariant (processed : List Int) (state : TornadoState) : Prop where
  waiting : ∀ ref ∈ state.clients.values,
    MessagesWait processed state.published (state.heap ref)
  published : ∀ notice ∈ state.published, notice.messageId ∈ processed

namespace NoticeInvariant

variable {processed : List Int} {before after : TornadoState}

theorem start : NoticeInvariant [] TornadoState.start := by
  refine ⟨?_, ?_⟩ <;> simp [TornadoState.start]

theorem settled (invariant : NoticeInvariant processed before) (settled : Settled before after) :
    NoticeInvariant processed after := by
  refine ⟨fun ref member => ?_, ?_⟩
  · rw [settled.published]
    rcases settled.clients ref member with nothing | ⟨old, retained⟩
    · exact MessagesWait.of_holdsNothing nothing
    · exact (invariant.waiting ref old).retains retained
  · rw [settled.published]
    exact invariant.published

end NoticeInvariant

/-! ## Delivering a message -/

namespace TornadoState

/-- Each client is sent a message once. -/
theorem getClientInfoForMessageEvent_nodup (state : TornadoState) (template : EventTemplate)
    (users : List UserData) :
    ((state.getClientInfoForMessageEvent template users).values.map ClientInfo.client).Nodup := by
  let Named (infos : Dict String ClientInfo) : Prop :=
    ∀ entry ∈ infos.entries, (state.heap entry.2.client).eventQueue.id = entry.1
  have assign : ∀ flags infos ref, Named infos →
      Named (state.sendToClient template flags infos ref) := by
    intro flags infos ref named entry member
    rcases Dict.mem_entries_set.mp member with rfl | ⟨old, _⟩
    · rfl
    · exact named entry old
  have assignAll : ∀ flags (refs : List Ref) infos, Named infos →
      Named (refs.foldl (state.sendToClient template flags) infos) := by
    intro flags refs
    induction refs with
    | nil => exact fun _ named => named
    | cons ref rest inductionHypothesis =>
        exact fun infos named => inductionHypothesis _ (assign flags infos ref named)
  have assignUsers : ∀ (users : List UserData) infos, Named infos →
      Named (users.foldl (fun infos user => (state.userClients.getD user.id []).foldl
        (state.sendToClient template user.flags) infos) infos) := by
    intro users
    induction users with
    | nil => exact fun _ named => named
    | cons user rest inductionHypothesis =>
        exact fun infos named => inductionHypothesis _ (assignAll user.flags _ infos named)
  have named : Named (state.getClientInfoForMessageEvent template users) :=
    assignUsers users _ (assignAll [] _ _ (by simp [Named]))
  generalize state.getClientInfoForMessageEvent template users = infos at named
  rw [Dict.values, List.map_map]
  refine List.Nodup.map_on ?_ (List.Nodup.of_map _ infos.nodupKeys)
  intro left leftMember right rightMember sameClient
  refine List.inj_on_of_nodup_map infos.nodupKeys leftMember rightMember ?_
  rw [← named left leftMember, ← named right rightMember]
  exact congrArg (fun ref => (state.heap ref).eventQueue.id) sameClient

end TornadoState

/-- While a message is delivered: the remaining clients do not hold it yet. -/
structure Delivering (messageId : Int) (processed : List Int) (remaining : List Ref)
    (state : TornadoState) : Prop where
  invariant : NoticeInvariant processed state
  awaits : ∀ ref ∈ state.clients.values, ref ∈ remaining →
    messageId ∉ (state.heap ref).eventQueue.messages.map fun event => event.message.id

theorem Delivering.settled {messageId : Int} {processed : List Int} {remaining : List Ref}
    {before after : TornadoState} (delivering : Delivering messageId processed remaining before)
    (settled : Settled before after) : Delivering messageId processed remaining after := by
  refine ⟨delivering.invariant.settled settled, fun ref member isRemaining => ?_⟩
  rcases settled.clients ref member with nothing | ⟨old, retained⟩
  · simp [nothing.messages]
  · have sublist := retained.messages (delivering.invariant.waiting ref old).valid
    exact fun found => delivering.awaits ref old isRemaining ((sublist.map _).subset found)

/-- The notices of a message that its recorded data still owes were not published. -/
def Owed (messageId : Int) (extraUserData : Dict Int InternalData) (published : List Notice) :
    Prop :=
  ∀ userId (event : MessageEvent), event.message.id = messageId →
    event.internalData = extraUserData.get? userId → ∀ kind ∈ event.lateKinds userId,
      (kind, userId, messageId) ∉ published.map Notice.key

/-- Recorded notices are not owed. -/
theorem Prepared.owed {messageId : Int} {extraUserData : Dict Int InternalData}
    {published notices : List Notice} (prepared : Prepared messageId extraUserData notices)
    (fresh : ∀ notice ∈ published, notice.messageId ≠ messageId) :
    Owed messageId extraUserData (published ++ notices) := by
  intro userId event isMessage isData kind late sent
  rw [List.map_append, List.mem_append] at sent
  rcases sent with old | new
  · obtain ⟨notice, isNotice, same⟩ := List.mem_map.mp old
    exact fresh notice isNotice (congrArg (fun key => key.2.2) same)
  · obtain ⟨notice, isNotice, same⟩ := List.mem_map.mp new
    simp only [Notice.key, Prod.mk.injEq] at same
    obtain ⟨internalData, found, recorded⟩ := prepared.recorded notice isNotice
    rw [same.2.1, ← isData] at found
    have unsent := (mem_sentKinds.mp late).2
    rw [found, Option.getD_some, ← same.1, recorded] at unsent
    cases unsent

namespace Server

section Deliver

variable {messageId : Int} {processed : List Int} {published : List Notice}
  {extraUserData : Dict Int InternalData} {template : EventTemplate}

/-- One client is sent the message or passed over. -/
theorem sendMessageEvent_spec (env : PayloadEnvironment) (lower : String → String)
    (isTemplate : template.messageDict.id = messageId) (known : messageId ∈ processed)
    (owed : Owed messageId extraUserData published) {info : ClientInfo} {rest : List Ref}
    (once : info.client ∉ rest) :
    Triple (fun state => Delivering messageId processed (info.client :: rest) state ∧
        state.published = published)
      (sendMessageEvent env lower template extraUserData info)
      (fun _ state => Delivering messageId processed rest state ∧ state.published = published)
      (fun _ state => Delivering messageId processed rest state ∧ state.published = published) := by
  rintro state ⟨delivering, isPublished⟩
  have passedOver : Delivering messageId processed rest state :=
    ⟨delivering.invariant, fun ref member isRest =>
      delivering.awaits ref member (List.mem_cons_of_mem _ isRest)⟩
  simp only [sendMessageEvent, getClient, run_read_bind]
  rcases prepared : template.userEvent env lower
    (extraUserData.get? (state.heap info.client).userProfileId) (state.heap info.client)
    info.flags info.isSender with exception | _ | event
  · exact ⟨passedOver, isPublished⟩
  · exact ⟨passedOver, isPublished⟩
  · obtain ⟨isMessage, isData, _⟩ := EventTemplate.userEvent_some prepared
    rw [isTemplate] at isMessage
    have pushed : Delivering messageId processed rest
        (state.updateClient info.client fun client => client.push (.message event)) := by
      refine ⟨⟨fun ref member => ?_, delivering.invariant.published⟩, fun ref member isRest => ?_⟩
      · have waits := delivering.invariant.waiting ref member
        by_cases isClient : ref = info.client
        · subst isClient
          have awaits := delivering.awaits info.client member List.mem_cons_self
          have joined := waits.push (isMessage ▸ known) (isMessage ▸ awaits) fun kind late => by
            rw [isMessage, isPublished]
            exact owed _ event isMessage isData kind late
          simpa [TornadoState.updateClient] using joined
        · simpa [TornadoState.updateClient, isClient] using waits
      · have notClient : ref ≠ info.client := by
          rintro rfl
          exact once isRest
        simpa [TornadoState.updateClient, notClient] using passedOver.awaits ref member isRest
    have finished : Frames Settled (do let _ ← finishCurrentHandler info.client : Server Unit) :=
      Frames.bind (finishCurrentHandler_settled info.client) fun _ => Frames.pure ()
    exact (finished _).weaken (fun _ holds => holds)
      (fun _ _ settled => ⟨pushed.settled settled, settled.published.trans isPublished⟩)
      (fun _ _ settled => ⟨pushed.settled settled, settled.published.trans isPublished⟩) _
      (Settled.refl (state.updateClient info.client fun client => client.push (.message event)))

/-- The message is delivered to the clients in order. -/
theorem deliver_spec (env : PayloadEnvironment) (lower : String → String)
    (isTemplate : template.messageDict.id = messageId) (known : messageId ∈ processed)
    (owed : Owed messageId extraUserData published) {infos : List ClientInfo}
    (once : (infos.map ClientInfo.client).Nodup) :
    Triple (fun state => Delivering messageId processed (infos.map ClientInfo.client) state ∧
        state.published = published)
      (forEach infos (sendMessageEvent env lower template extraUserData))
      (fun _ state => NoticeInvariant processed state ∧ state.published = published)
      (fun _ state => NoticeInvariant processed state ∧ state.published = published) := by
  induction infos with
  | nil => exact fun state holds => ⟨holds.1.invariant, holds.2⟩
  | cons info rest inductionHypothesis =>
      obtain ⟨isNew, restOnce⟩ := List.nodup_cons.mp once
      have first := sendMessageEvent_spec env lower isTemplate known owed isNew
      exact Triple.bind _ (first.weaken (fun _ holds => holds) (fun _ _ holds => holds)
        fun _ _ holds => ⟨holds.1.invariant, holds.2⟩) fun _ => inductionHypothesis restOnce

end Deliver

/-- Processing a new message publishes notices about it only, each once, and keeps the
invariant. -/
theorem processMessageEvent_spec (settings : Settings) (env : PayloadEnvironment)
    (lower : String → String) {template : EventTemplate} {users : List UserData}
    {processed : List Int} {before : TornadoState} (invariant : NoticeInvariant processed before)
    (fresh : template.messageDict.id ∉ processed) (distinct : (users.map UserData.id).Nodup) :
    let after := (processMessageEvent settings env lower template users before).2
    NoticeInvariant (template.messageDict.id :: processed) after ∧
      ∃ notices, after.published = before.published ++ notices ∧
        (notices.map Notice.key).Nodup ∧
        ∀ notice ∈ notices, notice.messageId = template.messageDict.id := by
  obtain ⟨extraUserData, notices, prepared, afterNotices, recorded⟩ :=
    run_notifyUsers settings template before distinct (by simp) (Prepared.nil _)
  rw [List.append_nil] at afterNotices recorded
  have noticesNew : ∀ notice ∈ notices, notice.messageId ∉ processed := by
    intro notice member
    rw [prepared.about notice member]
    exact fresh
  have notified : NoticeInvariant (template.messageDict.id :: processed)
      { before with published := before.published ++ notices } := by
    refine ⟨fun ref member => ?_, fun notice member => ?_⟩
    · exact ((invariant.waiting ref member).publish fun notice isNotice =>
        Or.inl (noticesNew notice isNotice)).process _
    · rcases List.mem_append.mp member with old | new
      · exact List.mem_cons_of_mem _ (invariant.published notice old)
      · rw [prepared.about notice new]
        exact List.mem_cons_self
  have owed := prepared.owed fun notice old same => fresh (same ▸ invariant.published notice old)
  simp only [processMessageEvent, run_read_bind]
  rcases run : notifyUsers settings template users .empty before with ⟨exception | value, after⟩ <;>
    rw [run] at afterNotices recorded
  · have raised : (notifyUsers settings template users .empty >>= fun extraUserData =>
        forEach (before.getClientInfoForMessageEvent template users).values
          (sendMessageEvent env lower template extraUserData)) before =
        (.error exception, after) := run_bind_of_error run
    rw [raised]
    cases afterNotices
    exact ⟨notified, notices, rfl, prepared.distinct, prepared.about⟩
  · rw [run_bind_of_ok run]
    cases recorded value rfl
    cases afterNotices
    have delivered := (deliver_spec env lower rfl List.mem_cons_self owed
      (before.getClientInfoForMessageEvent_nodup template users)).final ⟨⟨notified, ?_⟩, rfl⟩
    · exact ⟨delivered.1, notices, delivered.2, prepared.distinct, prepared.about⟩
    · intro ref member _ waiting
      obtain ⟨event, isEvent, same⟩ := List.mem_map.mp waiting
      exact fresh (same ▸ (invariant.waiting ref member).processed event isEvent)

end Server

/-! ## Collecting queues -/

theorem map_key_flatMap_hookNotices (shards userProfileId : Int) (events : List Event) :
    (events.flatMap (Event.hookNotices shards userProfileId)).map Notice.key =
      (messagesOf events).flatMap fun event =>
        (event.lateKinds userProfileId).map fun kind => (kind, userProfileId, event.message.id) := by
  induction events with
  | nil => rfl
  | cons event rest inductionHypothesis =>
      obtain ⟨id, body⟩ := event
      rw [List.flatMap_cons, List.map_append, inductionHypothesis]
      cases body with
      | message event =>
          rw [Event.hookNotices, MessageEvent.map_key_hookNotices]
          rfl
      | updateMessageFlags _ => rfl
      | plain _ => rfl

namespace ClientDescriptor

/-- The notices that a client's queue owes, as the hook sees it. -/
def lateKeys (client : ClientDescriptor) : List (NoticeKind × Int × Int) :=
  client.eventQueue.messages.flatMap fun event =>
    (event.lateKinds client.userProfileId).map fun kind =>
      (kind, client.userProfileId, event.message.id)

theorem mem_lateKeys {client : ClientDescriptor} {key : NoticeKind × Int × Int} :
    key ∈ client.lateKeys ↔ ∃ event ∈ client.eventQueue.messages,
      ∃ kind ∈ event.lateKinds client.userProfileId,
        key = (kind, client.userProfileId, event.message.id) := by
  simp only [lateKeys, List.mem_flatMap, List.mem_map, eq_comm]

theorem map_key_lateNotices {client : ClientDescriptor} (valid : client.eventQueue.Valid)
    (shards : Int) : (client.lateNotices shards).map Notice.key = client.lateKeys := by
  have messages := EventQueue.messagesOf_flattened valid
  rw [lateNotices, map_key_flatMap_hookNotices, lateKeys, ← messages]
  rfl

/-- One queue owes each notice once. -/
theorem lateKeys_nodup {processed : List Int} {published : List Notice} {client : ClientDescriptor}
    (wait : MessagesWait processed published client) : client.lateKeys.Nodup := by
  refine List.nodup_flatMap.mpr ⟨fun event _ => ?_, ?_⟩
  · exact (sentKinds_nodup ..).map fun _ _ same => (Prod.mk.inj same).1
  · refine (List.pairwise_map.mp wait.distinct).imp fun {left right} differ key inLeft inRight => ?_
    obtain ⟨_, _, rfl⟩ := List.mem_map.mp inLeft
    obtain ⟨_, _, same⟩ := List.mem_map.mp inRight
    exact differ (congrArg (fun key => key.2.2) same).symm

end ClientDescriptor

namespace TornadoState

/-- No two queues whose removal leaves their owner without a queue owe the same notice. -/
def OwesOnce (state : TornadoState) (toRemove : List String) : Prop :=
  ∀ left ∈ state.clients.values, ∀ right ∈ state.clients.values, left ≠ right →
    state.lastForClient toRemove left →
      ∀ key ∈ (state.heap left).lateKeys, key ∉ (state.heap right).lateKeys

instance (state : TornadoState) (toRemove : List String) : Decidable (state.OwesOnce toRemove) :=
  inferInstanceAs (Decidable (∀ left ∈ state.clients.values, ∀ right ∈ state.clients.values,
    left ≠ right → state.lastForClient toRemove left →
      ∀ key ∈ (state.heap left).lateKeys, key ∉ (state.heap right).lateKeys))

/-- The keys of the notices that removing these queues publishes for one of them. -/
def removalKeys (state : TornadoState) (settings : Settings) (toRemove : List String)
    (id : String) : List (NoticeKind × Int × Int) :=
  (state.removalNotices settings toRemove id).map Notice.key

/-- A published key is owed by the removed queue of a user who keeps no queue. -/
theorem mem_removalKeys {state : TornadoState} {settings : Settings} {toRemove : List String}
    {processed : List Int} (invariant : NoticeInvariant processed state)
    (hook : settings.missedmessageHookRegistered = true) {id : String}
    {key : NoticeKind × Int × Int} :
    key ∈ state.removalKeys settings toRemove id ↔ ∃ ref, state.clients.get? id = some ref ∧
      state.lastForClient toRemove ref ∧ key ∈ (state.heap ref).lateKeys := by
  unfold removalKeys removalNotices
  cases found : state.clients.get? id with
  | none => simp
  | some ref =>
      have registered : ref ∈ state.clients.values :=
        Dict.mem_values.mpr ⟨id, Dict.get?_eq_some_iff.mp found⟩
      have keys := ClientDescriptor.map_key_lateNotices (invariant.waiting ref registered).valid
        settings.mobileNotificationsShards
      by_cases last : state.lastForClient toRemove ref
      · simp [hook, last, keys]
      · simp [last]

end TornadoState

section Collect

variable {settings : Settings} {toRemove : List String} {processed : List Int}
  {before after : TornadoState}

/-- Collecting queues keeps the invariant: a new notice is for a user without a queue. -/
theorem NoticeInvariant.collected (invariant : NoticeInvariant processed before)
    (hook : settings.missedmessageHookRegistered = true) (registry : RegistryInvariant before)
    (result : GcResult settings toRemove before after) : NoticeInvariant processed after := by
  have source : ∀ notice ∈ toRemove.flatMap (before.removalNotices settings toRemove),
      ∃ ref ∈ before.clients.values, before.lastForClient toRemove ref ∧
        notice.userProfileId = (before.heap ref).userProfileId ∧ notice.messageId ∈ processed := by
    intro notice member
    obtain ⟨id, _, isNotice⟩ := List.mem_flatMap.mp member
    have isKey : notice.key ∈ before.removalKeys settings toRemove id := List.mem_map_of_mem isNotice
    obtain ⟨ref, found, last, owed⟩ := (TornadoState.mem_removalKeys invariant hook).mp isKey
    obtain ⟨event, isEvent, kind, _, same⟩ := ClientDescriptor.mem_lateKeys.mp owed
    have registered := Dict.mem_values.mpr ⟨id, Dict.get?_eq_some_iff.mp found⟩
    refine ⟨ref, registered, last, congrArg (fun key => key.2.1) same, ?_⟩
    have isMessage : notice.messageId = event.message.id := congrArg (fun key => key.2.2) same
    rw [isMessage]
    exact (invariant.waiting ref registered).processed event isEvent
  refine ⟨fun ref member => ?_, fun notice member => ?_⟩
  · obtain ⟨id, entry⟩ := Dict.mem_values.mp member
    have found := Dict.get?_eq_some_iff.mpr entry
    rw [result.clients] at found
    split at found
    · cases found
    · rename_i stays
      have registered := Dict.mem_values.mpr ⟨id, Dict.get?_eq_some_iff.mp found⟩
      have named : (before.heap ref).eventQueue.id = id :=
        registry.named _ (Dict.get?_eq_some_iff.mp found)
      rw [result.published, result.kept ref (by rwa [named])]
      refine (invariant.waiting ref registered).publish fun notice isNew => Or.inr ?_
      obtain ⟨owner, _, last, isUser, _⟩ := source notice isNew
      rw [isUser]
      intro sameUser
      exact stays (named ▸ last ref registered sameUser.symm)
  · rw [result.published] at member
    rcases List.mem_append.mp member with old | new
    · exact invariant.published notice old
    · obtain ⟨_, _, _, _, isProcessed⟩ := source notice new
      exact isProcessed

/-- The notices stay distinct exactly when no two removed queues publish the same one. -/
theorem GcResult.nodup_iff (invariant : NoticeInvariant processed before)
    (hook : settings.missedmessageHookRegistered = true)
    (result : GcResult settings toRemove before after)
    (once : (before.published.map Notice.key).Nodup) :
    (after.published.map Notice.key).Nodup ↔ toRemove.Pairwise fun left right =>
      (before.removalKeys settings toRemove left).Disjoint
        (before.removalKeys settings toRemove right) := by
  have each : ∀ id ∈ toRemove, (before.removalKeys settings toRemove id).Nodup := by
    intro id _
    unfold TornadoState.removalKeys TornadoState.removalNotices
    cases found : before.clients.get? id with
    | none => exact List.nodup_nil
    | some ref =>
        have wait := invariant.waiting ref
          (Dict.mem_values.mpr ⟨id, Dict.get?_eq_some_iff.mp found⟩)
        dsimp only
        split
        · rw [ClientDescriptor.map_key_lateNotices wait.valid]
          exact ClientDescriptor.lateKeys_nodup wait
        · exact List.nodup_nil
  have unsent : List.Disjoint (before.published.map Notice.key)
      (toRemove.flatMap (before.removalKeys settings toRemove)) := by
    intro key sent owed
    obtain ⟨id, _, isKey⟩ := List.mem_flatMap.mp owed
    obtain ⟨ref, found, _, late⟩ := (TornadoState.mem_removalKeys invariant hook).mp isKey
    obtain ⟨event, isEvent, kind, isKind, rfl⟩ := ClientDescriptor.mem_lateKeys.mp late
    exact (invariant.waiting ref (Dict.mem_values.mpr ⟨id, Dict.get?_eq_some_iff.mp found⟩)).unsent
      event isEvent kind isKind sent
  have keys : after.published.map Notice.key = before.published.map Notice.key ++
      toRemove.flatMap (before.removalKeys settings toRemove) := by
    rw [result.published, List.map_append, List.map_flatMap]
    rfl
  rw [keys, List.nodup_append', List.nodup_flatMap]
  exact ⟨fun all => all.2.1.2, fun apart => ⟨once, ⟨each, apart⟩, unsent⟩⟩

/-- Two removed queues publish the same notice exactly when both owe it and their owner
keeps no queue. -/
theorem TornadoState.pairwise_removalKeys_iff (invariant : NoticeInvariant processed before)
    (hook : settings.missedmessageHookRegistered = true) (registry : RegistryInvariant before)
    (distinct : toRemove.Nodup) :
    (toRemove.Pairwise fun left right => (before.removalKeys settings toRemove left).Disjoint
      (before.removalKeys settings toRemove right)) ↔ before.OwesOnce toRemove := by
  constructor
  · intro apart left leftMember right rightMember differ last key leftOwes rightOwes
    obtain ⟨leftId, leftEntry⟩ := Dict.mem_values.mp leftMember
    obtain ⟨rightId, rightEntry⟩ := Dict.mem_values.mp rightMember
    have leftNamed : (before.heap left).eventQueue.id = leftId := registry.named _ leftEntry
    have rightNamed : (before.heap right).eventQueue.id = rightId := registry.named _ rightEntry
    obtain ⟨_, _, _, _, rfl⟩ := ClientDescriptor.mem_lateKeys.mp leftOwes
    obtain ⟨_, _, _, _, same⟩ := ClientDescriptor.mem_lateKeys.mp rightOwes
    have sameUser : (before.heap right).userProfileId = (before.heap left).userProfileId :=
      (congrArg (fun key => key.2.1) same).symm
    have rightLast : before.lastForClient toRemove right := fun other member otherUser =>
      last other member (otherUser.trans sameUser)
    have differentIds : leftId ≠ rightId := by
      rintro rfl
      have leftFound := Dict.get?_eq_some_iff.mpr leftEntry
      rw [Dict.get?_eq_some_iff.mpr rightEntry] at leftFound
      exact differ (Option.some.inj leftFound).symm
    have symmetric : Std.Symm fun left right =>
        (before.removalKeys settings toRemove left).Disjoint
          (before.removalKeys settings toRemove right) := ⟨fun _ _ => List.Disjoint.symm⟩
    have disjoint := apart.forall (leftNamed ▸ last left leftMember rfl)
      (rightNamed ▸ last right rightMember sameUser) differentIds
    exact disjoint
      ((mem_removalKeys invariant hook).mpr
        ⟨left, Dict.get?_eq_some_iff.mpr leftEntry, last, leftOwes⟩)
      ((mem_removalKeys invariant hook).mpr
        ⟨right, Dict.get?_eq_some_iff.mpr rightEntry, rightLast, rightOwes⟩)
  · intro owesOnce
    refine distinct.pairwise_of_forall_ne fun left _ right _ differ key inLeft inRight => ?_
    obtain ⟨leftRef, leftFound, last, leftOwes⟩ := (mem_removalKeys invariant hook).mp inLeft
    obtain ⟨rightRef, rightFound, _, rightOwes⟩ := (mem_removalKeys invariant hook).mp inRight
    refine owesOnce leftRef (Dict.mem_values.mpr ⟨left, Dict.get?_eq_some_iff.mp leftFound⟩) rightRef
      (Dict.mem_values.mpr ⟨right, Dict.get?_eq_some_iff.mp rightFound⟩) ?_ last key leftOwes
      rightOwes
    rintro rfl
    exact differ (registry.eq_of_ref_eq leftFound rightFound)

end Collect

end Zulip.Tornado
