import Mathlib.Logic.Relation
import Zulip.Client.LocalEcho
import Zulip.Foundation.Transition

/-!
# Local echoes over whole runs

The client sends, sends again and aborts, the server commits, and answers, events and fetched
messages arrive in any order. `noStaleEcho_always_iff` says when a message from the server stays
marked as an echo, and `reported_of_run` that an echo without an id from the server either waits for
an answer or is marked as failed. A failure while a reload is pending reloads the page instead of
marking the echo: a run ends there.
-/

namespace Zulip.Client.LocalEcho

open Relation

namespace ClientState

variable {client next : ClientState} {highlight : String → String}

/-- What holds of the client in every state. -/
structure Coherent (client : ClientState) : Prop where
  storedId : ∀ id object, client.stored.get? id = some object → (client.message object).id = id
  storedName : ∀ id object, client.stored.get? id = some object →
    object ∈ client.alreadyUsed ∨ object = id
  storedLocal : ∀ id object, client.stored.get? id = some object → isLocalonlyId id = true →
    client.waitingForId.get? id = some id
  waitingForId : ∀ localId object, client.waitingForId.get? localId = some object →
    object = localId ∧ client.stored.get? localId = some localId ∧ localId ∈ client.alreadyUsed
  waitingForAck : ∀ localId object, client.waitingForAck.get? localId = some object →
    object = localId ∧ localId ∈ client.alreadyUsed
  usedLocal : ∀ localId ∈ client.alreadyUsed, isLocalonlyId localId = true
  reified : ∀ localId ∈ client.alreadyUsed, client.waitingForId.get? localId = none →
    isLocalonlyId (client.message localId).id = false

/-- Being coherent does not look at the lists, nor at more than the ids of the objects. -/
theorem Coherent.congr (coherent : Coherent client)
    (sameId : ∀ object, (next.message object).id = (client.message object).id)
    (stored : next.stored = client.stored) (waitingForId : next.waitingForId = client.waitingForId)
    (waitingForAck : ∀ localId object, next.waitingForAck.get? localId = some object →
      client.waitingForAck.get? localId = some object)
    (alreadyUsed : next.alreadyUsed = client.alreadyUsed) : Coherent next where
  storedId := by
    simpa only [stored, sameId] using coherent.storedId
  storedName := by
    simpa only [stored, alreadyUsed] using coherent.storedName
  storedLocal := by
    simpa only [stored, waitingForId] using coherent.storedLocal
  waitingForId := by
    simpa only [stored, waitingForId, alreadyUsed] using coherent.waitingForId
  waitingForAck localId object waits := by
    rw [alreadyUsed]
    exact coherent.waitingForAck localId object (waitingForAck localId object waits)
  usedLocal := by
    simpa only [alreadyUsed] using coherent.usedLocal
  reified := by
    simpa only [alreadyUsed, waitingForId, sameId] using coherent.reified

/-- An object that is written keeps its id. -/
theorem Coherent.write (coherent : Coherent client) {object : ℚ} {message : EchoMessage}
    (sameId : message.id = (client.message object).id) :
    Coherent (client.write object message) := by
  refine coherent.congr (fun other => ?_) rfl rfl (fun _ _ waits => waits) rfl
  rw [message_write]
  split_ifs with same
  · rw [same, sameId]
  · rfl

/-- No echo uses up an id of the server. -/
theorem Coherent.natCast_not_used (coherent : Coherent client) (id : ℕ) :
    (id : ℚ) ∉ client.alreadyUsed := by
  intro isUsed
  have isLocal := coherent.usedLocal _ isUsed
  rw [isLocalonlyId_natCast] at isLocal
  cases isLocal

/-- Nothing in the store has a name that is not used up and not stored. -/
theorem Coherent.name_ne (coherent : Coherent client) {name id object : ℚ}
    (notUsed : name ∉ client.alreadyUsed) (notStored : client.stored.get? name = none)
    (isStored : client.stored.get? id = some object) : object ≠ name := by
  rintro rfl
  rcases coherent.storedName id _ isStored with isUsed | sameId
  · exact notUsed isUsed
  · rw [← sameId, notStored] at isStored
    cases isStored

/-! ## The id from the server -/

/-- What `reify_message_id` does to an echo that waits for its id. -/
structure Reified (client : ClientState) (localId serverId : ℚ) (next : ClientState) : Prop where
  message : ∀ object, next.message object = if object = localId then
    { client.message localId with id := serverId, locallyEchoed := false }
    else client.message object
  stored : ∀ id, next.stored.get? id =
    if id = localId then none else if id = serverId then some localId else client.stored.get? id
  waitingForId : ∀ id, next.waitingForId.get? id =
    if id = localId then none else client.waitingForId.get? id
  waitingForAck : next.waitingForAck = client.waitingForAck
  alreadyUsed : next.alreadyUsed = client.alreadyUsed

theorem Coherent.reified_of_waits (coherent : Coherent client) {localId object : ℚ}
    (waits : client.waitingForId.get? localId = some object) (serverId : ℚ) :
    Reified client localId serverId (client.reifyMessageId localId serverId) := by
  obtain ⟨rfl, isStored, -⟩ := coherent.waitingForId localId object waits
  have changed : ∀ before : ClientState, ∃ hash,
      before.changeMessageId object serverId = { before with hash } := by
    intro before
    unfold changeMessageId
    cases before.hash.get? object with
    | none => exact ⟨_, rfl⟩
    | some item => exact ⟨_, rfl⟩
  have renamed : client.reifyMessageId object serverId = ({ client with
      waitingForId := client.waitingForId.erase object
      objects := (client.objects.set object
        { client.message object with id := serverId, locallyEchoed := false }).set object
          { client.message object with id := serverId, locallyEchoed := false }
      stored := (client.stored.set serverId object).erase object } :
        ClientState).changeMessageId object serverId := by
    simp only [reifyMessageId, waits, storeReifyMessageId, ClientState.write, isStored, message,
      Dict.getD_set, if_true]
  obtain ⟨hash, isChanged⟩ := changed { client with
    waitingForId := client.waitingForId.erase object
    objects := (client.objects.set object
      { client.message object with id := serverId, locallyEchoed := false }).set object
        { client.message object with id := serverId, locallyEchoed := false }
    stored := (client.stored.set serverId object).erase object }
  rw [isChanged] at renamed
  refine ⟨fun other => ?_, fun id => ?_, fun id => ?_, ?_, ?_⟩
  all_goals rw [renamed]
  · simp only [message, Dict.getD_set]
    split_ifs <;> rfl
  · rw [Dict.get?_erase, Dict.get?_set]
  · exact Dict.get?_erase _ _ _

theorem Coherent.reifyMessageId (coherent : Coherent client) (localId : ℚ) (serverId : ℕ) :
    Coherent (client.reifyMessageId localId serverId) := by
  cases waits : client.waitingForId.get? localId with
  | none =>
      rw [ClientState.reifyMessageId, waits]
      exact coherent
  | some object =>
      have reified := coherent.reified_of_waits waits serverId
      obtain ⟨rfl, isStored, isUsed⟩ := coherent.waitingForId localId object waits
      have isLocal := coherent.usedLocal object isUsed
      have notLocal : isLocalonlyId (serverId : ℚ) = false := isLocalonlyId_natCast serverId
      constructor
      case storedId =>
        intro id other isOther
        rw [reified.stored] at isOther
        rw [reified.message]
        split_ifs at isOther with isOld isNew
        · rw [if_pos (Option.some.inj isOther).symm]
          exact isNew.symm
        · have sameId := coherent.storedId id other isOther
          rw [if_neg, sameId]
          rintro rfl
          exact isOld (sameId.symm.trans (coherent.storedId other other isStored))
      case storedName =>
        intro id other isOther
        rw [reified.stored] at isOther
        rw [reified.alreadyUsed]
        split_ifs at isOther
        · exact .inl (Option.some.inj isOther ▸ isUsed)
        · exact coherent.storedName id other isOther
      case storedLocal =>
        intro id other isOther localOnly
        rw [reified.stored] at isOther
        split_ifs at isOther with isOld isNew
        · rw [isNew, notLocal] at localOnly
          cases localOnly
        · rw [reified.waitingForId, if_neg isOld]
          exact coherent.storedLocal id other isOther localOnly
      case waitingForId =>
        intro id other otherWaits
        rw [reified.waitingForId] at otherWaits
        split_ifs at otherWaits with isOld
        obtain ⟨rfl, otherStored, otherUsed⟩ := coherent.waitingForId id other otherWaits
        rw [reified.stored, reified.alreadyUsed, if_neg isOld, if_neg]
        · exact ⟨rfl, otherStored, otherUsed⟩
        · rintro rfl
          rw [coherent.usedLocal _ otherUsed] at notLocal
          cases notLocal
      case waitingForAck =>
        rw [reified.waitingForAck, reified.alreadyUsed]
        exact coherent.waitingForAck
      case usedLocal =>
        rw [reified.alreadyUsed]
        exact coherent.usedLocal
      case reified =>
        intro id otherUsed notWaiting
        rw [reified.alreadyUsed] at otherUsed
        rw [reified.waitingForId] at notWaiting
        rw [reified.message]
        split_ifs at notWaiting ⊢ with isOld
        · exact notLocal
        · exact coherent.reified id otherUsed notWaiting

/-! ## What the client does without the user -/

/-- One write of the code that handles events, fetched messages and failures. -/
inductive Change (highlight : String → String) : ClientState → ClientState → Prop where
  | reify (client : ClientState) (localId : ℚ) (serverId : ℕ) :
      Change highlight client (client.reifyMessageId localId serverId)
  | succeed {client next : ClientState} {serverId : ℕ}
      (succeeds : client.failedMessageSuccess serverId = some next) : Change highlight client next
  | fail (client : ClientState) (object : ℚ) :
      Change highlight client (client.messageSendError object)
  | fields (client : ClientState) (object : ℚ) (fields : MessageFields) :
      Change highlight client (client.write object { client.message object with fields })
  | acknowledge (client : ClientState) (localId : ℚ) : Change highlight client
      { client with waitingForAck := client.waitingForAck.erase localId }
  | make {client : ClientState} (message : ServerMessage)
      (isNew : client.stored.get? message.id = none) : Change highlight client
        { client.write message.id (message.toMessage highlight) with
          stored := client.stored.set message.id message.id }
  | list (client : ClientState) (hash : Dict ℚ ℚ) (items : List ℚ) (foundNewest : Bool)
      (expectedMaxMessageId : ℚ) :
      Change highlight client { client with hash, items, foundNewest, expectedMaxMessageId }

theorem failedMessageSuccess_eq_some {messageId : ℚ}
    (succeeds : client.failedMessageSuccess messageId = some next) :
    ∃ object, client.stored.get? messageId = some object ∧
      next = client.write object { client.message object with failedRequest := false } := by
  obtain ⟨object, isStored, isNext⟩ := Option.map_eq_some_iff.mp succeeds
  exact ⟨object, isStored, isNext.symm⟩

/-- What a failure writes. -/
theorem messageSendError_cases (client : ClientState) (object : ℚ) :
    client.messageSendError object = client ∨
      ∃ failed, client.stored.get? (client.message object).id = some failed ∧
        client.messageSendError object =
          client.write failed { client.message failed with failedRequest := true } := by
  unfold messageSendError
  cases isStored : client.stored.get? (client.message object).id with
  | none => exact .inl rfl
  | some failed => exact .inr ⟨failed, rfl, rfl⟩

theorem reachable_processNewMessages (client : ClientState) (batch : List ServerMessage) :
    ReflTransGen (Change highlight) client
      (client.processNewMessages (batch.map (ServerMessage.toMessage highlight))).2 := by
  induction batch generalizing client with
  | nil => exact .refl
  | cons message rest inductionHypothesis =>
      have isId : (message.toMessage highlight).id = message.id := rfl
      rw [List.map_cons, processNewMessages, processNewMessage, isId]
      cases isStored : client.stored.get? message.id with
      | none => exact .trans (.single (.make message isStored)) (inductionHypothesis _)
      | some object => exact inductionHypothesis client

theorem change_addNewMessagesData (client : ClientState) (objects : List ℚ) :
    Change highlight client (client.addNewMessagesData objects) := by
  unfold addNewMessagesData
  split_ifs
  · exact .list _ _ _ _ _
  · exact .list _ _ _ _ _

theorem reachable_insertNewMessages (client : ClientState) (batch : List ServerMessage) :
    ReflTransGen (Change highlight) client
      (client.insertNewMessages (batch.map (ServerMessage.toMessage highlight))) :=
  .tail (reachable_processNewMessages client batch) (change_addNewMessagesData _ _)

theorem change_finishNewerBatch (client : ClientState) (maxMessageId : ℚ) (foundNewest : Bool) :
    Change highlight client (client.finishNewerBatch maxMessageId foundNewest) := by
  unfold finishNewerBatch
  split_ifs
  · exact .list _ _ _ _ _
  · exact .list _ _ _ _ _

theorem reachable_getMessagesSuccess (client : ClientState) (batch : List ServerMessage)
    (numAfter : ℕ) (foundNewest : Bool) :
    ReflTransGen (Change highlight) client
      (client.getMessagesSuccess (batch.map (ServerMessage.toMessage highlight)) numAfter
        foundNewest) := by
  unfold getMessagesSuccess
  refine .tail (ReflTransGen.trans ?_ (reachable_processNewMessages _ batch)) (.list _ _ _ _ _)
  split_ifs
  · exact .single (change_finishNewerBatch client _ foundNewest)
  · exact .refl

theorem reachable_processEcho (client : ClientState) (message : ServerMessage) (object : ℚ) :
    ReflTransGen (Change highlight) client (client.processEcho highlight message object).2 := by
  have reified : ReflTransGen (Change highlight) client
      (client.reifyMessageId (message.localId.getD 0) message.id) := .single (.reify client _ _)
  rw [processEcho]
  cases succeeds : (client.reifyMessageId (message.localId.getD 0)
      message.id).failedMessageSuccess message.id with
  | none => exact reified
  | some succeeded =>
      exact ((reified.tail (.succeed succeeds)).tail (.fields _ object _)).tail (.acknowledge _ _)

theorem reachable_processFromServer (client : ClientState) (batch : List ServerMessage) :
    ReflTransGen (Change highlight) client (client.processFromServer highlight batch).2 := by
  induction batch generalizing client with
  | nil => exact .refl
  | cons message rest inductionHypothesis =>
      rw [processFromServer]
      cases message.localId.bind client.waitingForAck.get? with
      | none => exact inductionHypothesis client
      | some object =>
          have processed : ReflTransGen (Change highlight) client
              (client.processEcho highlight message object).2 :=
            reachable_processEcho client message object
          dsimp only
          split_ifs
          · exact processed.trans (inductionHypothesis _)
          · exact processed

theorem reachable_getEventsSuccess (client : ClientState) (batch : List ServerMessage) :
    ReflTransGen (Change highlight) client (client.getEventsSuccess highlight batch) := by
  have processed : ReflTransGen (Change highlight) client
      (client.processFromServer highlight (sortByKey ServerMessage.id batch)).2 :=
    reachable_processFromServer client _
  rw [getEventsSuccess]
  generalize client.processFromServer highlight (sortByKey ServerMessage.id batch) = result at *
  obtain ⟨nonEchoMessages, last⟩ := result
  cases nonEchoMessages with
  | none => exact processed
  | some messages => exact processed.trans (reachable_insertNewMessages last messages)

/-- A new message from the server is made under its own id. -/
theorem Coherent.make (coherent : Coherent client) (message : ServerMessage) :
    Coherent { client.write message.id (message.toMessage highlight) with
      stored := client.stored.set message.id message.id } := by
  have notLocal : isLocalonlyId (message.id : ℚ) = false := isLocalonlyId_natCast message.id
  have notUsed := coherent.natCast_not_used message.id
  constructor
  case storedId =>
    intro id object isObject
    rw [Dict.get?_set] at isObject
    change ((client.write _ _).message object).id = id
    rw [message_write]
    split_ifs at isObject with isOwn
    · cases isObject
      rw [if_pos rfl, isOwn]
      rfl
    · have sameId := coherent.storedId id object isObject
      rw [if_neg, sameId]
      rintro rfl
      exact ((coherent.storedName id _ isObject).elim notUsed fun same => isOwn same.symm)
  case storedName =>
    intro id object isObject
    rw [Dict.get?_set] at isObject
    split_ifs at isObject with isOwn
    · exact .inr ((Option.some.inj isObject).symm.trans isOwn.symm)
    · exact coherent.storedName id object isObject
  case storedLocal =>
    intro id object isObject isLocal
    rw [Dict.get?_set] at isObject
    split_ifs at isObject with isOwn
    · rw [isOwn, notLocal] at isLocal
      cases isLocal
    · exact coherent.storedLocal id object isObject isLocal
  case waitingForId =>
    intro localId object waits
    obtain ⟨same, isStored, isUsed⟩ := coherent.waitingForId localId object waits
    refine ⟨same, ?_, isUsed⟩
    have different : localId ≠ message.id := ne_of_mem_of_not_mem isUsed notUsed
    rw [Dict.get?_set_ne _ _ different]
    exact isStored
  case waitingForAck => exact coherent.waitingForAck
  case usedLocal => exact coherent.usedLocal
  case reified =>
    intro localId isUsed notWaiting
    change isLocalonlyId ((client.write _ _).message localId).id = false
    have different : localId ≠ message.id := ne_of_mem_of_not_mem isUsed notUsed
    rw [message_write_ne _ _ different]
    exact coherent.reified localId isUsed notWaiting

theorem Coherent.change (coherent : Coherent client) (change : Change highlight client next) :
    Coherent next := by
  cases change with
  | reify localId serverId => exact coherent.reifyMessageId localId serverId
  | succeed succeeds =>
      obtain ⟨object, -, rfl⟩ := failedMessageSuccess_eq_some succeeds
      exact coherent.write rfl
  | fail object =>
      rcases messageSendError_cases client object with same | ⟨failed, -, isNext⟩
      · rw [same]
        exact coherent
      · rw [isNext]
        exact coherent.write rfl
  | fields object fields => exact coherent.write rfl
  | acknowledge localId =>
      refine coherent.congr (fun _ => rfl) rfl rfl (fun other object waits => ?_) rfl
      rw [Dict.get?_erase] at waits
      split_ifs at waits
      exact waits
  | make message _ => exact coherent.make message
  | list hash items foundNewest expected => exact coherent.congr (fun _ => rfl) rfl rfl (fun _ _ waits => waits) rfl

theorem Coherent.changes (coherent : Coherent client)
    (changes : ReflTransGen (Change highlight) client next) : Coherent next := by
  induction changes with
  | refl => exact coherent
  | tail _ change inductionHypothesis => exact inductionHypothesis.change change

/-! ## A new echo -/

/-- What the insertion of an echo does. -/
structure Echoed (client : ClientState) (localId : ℚ) (echo : EchoMessage) (next : ClientState) :
    Prop where
  message : ∀ object, next.message object =
    if object = localId then echo else client.message object
  stored : next.stored = client.stored.set localId localId
  waitingForId : next.waitingForId = client.waitingForId.set localId localId
  waitingForAck : next.waitingForAck = client.waitingForAck.set localId localId
  alreadyUsed : next.alreadyUsed = localId :: client.alreadyUsed

/-- A local id that is not used up is not in the store. -/
theorem Coherent.stored_of_new (coherent : Coherent client) {localId : ℚ}
    (isNew : localId ∉ client.alreadyUsed) (isLocal : isLocalonlyId localId = true) :
    client.stored.get? localId = none := by
  refine Option.eq_none_iff_forall_ne_some.mpr fun object isStored => isNew ?_
  have waits := coherent.storedLocal localId object isStored isLocal
  exact (coherent.waitingForId localId localId waits).2.2

theorem Coherent.echoed (coherent : Coherent client) {localId : ℚ}
    (isNew : localId ∉ client.alreadyUsed) (isLocal : isLocalonlyId localId = true)
    (rawContent : String) (fields : MessageFields) :
    Echoed client localId ⟨localId, rawContent, fields, true, false⟩
      (client.insertLocalMessage localId rawContent fields) := by
  have notStored := coherent.stored_of_new isNew isLocal
  constructor
  all_goals
    cases newest : client.foundNewest <;>
      simp [insertLocalMessage, insertNewMessages, processNewMessages, processNewMessage,
        notStored, addNewMessagesData, newest, addMessages, ClientState.write, message,
        Dict.getD_set]

theorem Coherent.insertLocalMessage (coherent : Coherent client) {localId : ℚ}
    (isNew : localId ∉ client.alreadyUsed) (isLocal : isLocalonlyId localId = true)
    (rawContent : String) (fields : MessageFields) :
    Coherent (client.insertLocalMessage localId rawContent fields) := by
  have echoed := coherent.echoed isNew isLocal rawContent fields
  have notStored := coherent.stored_of_new isNew isLocal
  constructor
  case storedId =>
    intro id object isObject
    rw [echoed.stored, Dict.get?_set] at isObject
    rw [echoed.message]
    split_ifs at isObject with isOwn
    · rw [if_pos (Option.some.inj isObject).symm, isOwn]
    · have sameId := coherent.storedId id object isObject
      rw [if_neg (coherent.name_ne isNew notStored isObject), sameId]
  case storedName =>
    intro id object isObject
    rw [echoed.stored, Dict.get?_set] at isObject
    rw [echoed.alreadyUsed]
    split_ifs at isObject with isOwn
    · exact .inr ((Option.some.inj isObject).symm.trans isOwn.symm)
    · exact (coherent.storedName id object isObject).imp_left (List.mem_cons_of_mem _)
  case storedLocal =>
    intro id object isObject localOnly
    rw [echoed.stored, Dict.get?_set] at isObject
    rw [echoed.waitingForId, Dict.get?_set]
    split_ifs at isObject ⊢ with isOwn
    · rw [isOwn]
    · exact coherent.storedLocal id object isObject localOnly
  case waitingForId =>
    intro id object waits
    rw [echoed.waitingForId, Dict.get?_set] at waits
    rw [echoed.stored, echoed.alreadyUsed, Dict.get?_set]
    split_ifs at waits ⊢ with isOwn
    · exact ⟨(Option.some.inj waits).symm.trans isOwn.symm, by rw [isOwn],
        isOwn ▸ List.mem_cons_self⟩
    · obtain ⟨same, isStored, isUsed⟩ := coherent.waitingForId id object waits
      exact ⟨same, isStored, List.mem_cons_of_mem _ isUsed⟩
  case waitingForAck =>
    intro id object waits
    rw [echoed.waitingForAck, Dict.get?_set] at waits
    rw [echoed.alreadyUsed]
    split_ifs at waits with isOwn
    · exact ⟨(Option.some.inj waits).symm.trans isOwn.symm, isOwn ▸ List.mem_cons_self⟩
    · exact (coherent.waitingForAck id object waits).imp_right (List.mem_cons_of_mem _)
  case usedLocal =>
    rw [echoed.alreadyUsed]
    exact List.forall_mem_cons.mpr ⟨isLocal, coherent.usedLocal⟩
  case reified =>
    intro id isUsed notWaiting
    rw [echoed.waitingForId, Dict.get?_set] at notWaiting
    rw [echoed.alreadyUsed] at isUsed
    rw [echoed.message]
    split_ifs at notWaiting ⊢ with isOwn
    exact coherent.reified id ((List.mem_cons.mp isUsed).resolve_left isOwn) notWaiting

/-! ## Sending again -/

/-- What the answer to a message that was sent again does: it marks the message as an echo, and then
the changes that an answer makes follow. -/
theorem reachable_resendSuccess (client : ClientState) (object localId : ℚ) (serverId : ℕ) :
    ReflTransGen (Change highlight)
      (client.write object { client.message object with locallyEchoed := true })
      (client.resendSuccess object localId serverId) := by
  have reified : ReflTransGen (Change highlight) _ _ := .single (.reify
    (client.write object { client.message object with locallyEchoed := true }) localId serverId)
  rw [resendSuccess]
  cases succeeds : ((client.write object { client.message object with
      locallyEchoed := true }).reifyMessageId localId serverId).failedMessageSuccess serverId with
  | none => exact reified
  | some succeeded => exact reified.tail (.succeed succeeds)

/-- An answer that comes after the event leaves the mark on the message. -/
theorem message_resendSuccess {localId : ℚ} (notWaiting : client.waitingForId.get? localId = none)
    (serverId : ℚ) : ∃ failed, (client.resendSuccess localId localId serverId).message localId =
      { client.message localId with locallyEchoed := true, failedRequest := failed } := by
  have unchanged : ∀ message : EchoMessage, (client.write localId message).reifyMessageId localId
      serverId = client.write localId message := by
    intro message
    unfold reifyMessageId
    rw [show (client.write localId message).waitingForId.get? localId = none from notWaiting]
  rw [resendSuccess, unchanged]
  cases succeeds : (client.write localId { client.message localId with
      locallyEchoed := true }).failedMessageSuccess serverId with
  | none => exact ⟨_, message_write_self _ _ _⟩
  | some succeeded =>
      obtain ⟨object, -, rfl⟩ := failedMessageSuccess_eq_some succeeds
      dsimp only [Option.getD_some]
      by_cases same : localId = object
      · subst same
        exact ⟨false, by rw [message_write_self, message_write_self]⟩
      · rw [message_write_ne _ _ same, message_write_self]
        exact ⟨_, rfl⟩

end ClientState

/-! ## The client, the server and what is under way -/

/-- The client, all messages of the server, the events that have not arrived, the local ids of
requests that the server has not handled, the requests without an answer, and the echoes that the
user has removed. A request is named by its local id; an answer also by whether it is one to a
request that was sent again. -/
structure EchoState where
  client : ClientState
  messages : List ServerMessage
  events : List ServerMessage
  requests : List ℚ
  calls : List (ℚ × Bool)
  aborted : List ℚ
deriving DecidableEq

/-- The messages of the server when the client registers. -/
structure History where
  messages : List ServerMessage
  increasing : Increasing ServerMessage.id messages
  notEchoed : ∀ message ∈ messages, message.localId = none

inductive EchoAction where
  /-- `try_deliver_locally`, with the id of the last message, and the request -/
  | send (latest : ℚ) (rawContent : String) (fields : MessageFields)
  /-- the server sends a message, of this client or of another one -/
  | commit (message : ServerMessage)
  /-- a request fails: it is rejected, or its answer is lost -/
  | fail (localId : ℚ) (resend : Bool)
  | succeed (localId : ℚ) (resend : Bool) (serverId : ℕ)
  /-- the user sends a message again, or removes it -/
  | resend (localId : ℚ)
  | abort (localId : ℚ)
  /-- `get_events_success` -/
  | getEvents (batch : List ServerMessage)
  /-- `get_messages_success`, for `all_messages_data` or for the list of a narrow -/
  | fetch (batch : List ServerMessage) (numAfter : ℕ) (foundNewest : Bool)
  | fetchNarrow (batch : List ServerMessage)
deriving DecidableEq

namespace EchoState

def start (history : History) : EchoState :=
  ⟨⟨.empty, .empty, .empty, [], false, 0, .empty, .empty, []⟩, history.messages, [], [], [], []⟩

/-- What an action does, if it can happen. Events may arrive in another order than their messages
were committed, and a request whose answer is lost may still be handled. -/
def perform (highlight : String → String) (state : EchoState) : EchoAction → Option EchoState
  | .send latest rawContent fields =>
      (state.client.getNextIdFloat latest).map fun localId => { state with
        client := state.client.insertLocalMessage localId rawContent fields
        requests := state.requests ++ [localId]
        calls := state.calls ++ [(localId, false)] }
  | .commit message =>
      if (∀ other ∈ state.messages, other.id < message.id) ∧
          ∀ localId ∈ message.localId, localId ∈ state.requests then some { state with
        messages := state.messages ++ [message]
        events := state.events ++ [message]
        requests := message.localId.elim state.requests state.requests.erase }
      else none
  | .fail localId resend =>
      if (localId, resend) ∈ state.calls then some { state with
        client := state.client.messageSendError localId
        calls := state.calls.erase (localId, resend) }
      else none
  | .succeed localId resend serverId =>
      if (localId, resend) ∈ state.calls ∧
          ∃ message ∈ state.messages, message.localId = some localId ∧ message.id = serverId then
        some { state with
          client :=
            if resend then state.client.resendSuccess localId localId serverId
            else state.client.reifyMessageId localId serverId
          calls := state.calls.erase (localId, resend) }
      else none
  | .resend localId =>
      if (state.client.waitingForAck.get? localId).isSome ∧ localId ∉ state.aborted then
        some { state with
          client := state.client.resendMessage localId
          requests := state.requests ++ [localId]
          calls := state.calls ++ [(localId, true)] }
      else none
  | .abort localId =>
      if (state.client.waitingForAck.get? localId).isSome ∧ localId ∉ state.aborted then
        some { state with
          client := state.client.abortMessage localId
          aborted := localId :: state.aborted }
      else none
  | .getEvents batch =>
      if batch.Nodup ∧ ∀ message ∈ batch, message ∈ state.events then some { state with
        client := state.client.getEventsSuccess highlight batch
        events := state.events.filter fun message => decide (message ∉ batch) }
      else none
  | .fetch batch numAfter foundNewest =>
      if ∀ message ∈ batch, message ∈ state.messages then some { state with
        client := state.client.getMessagesSuccess (batch.map (ServerMessage.toMessage highlight))
          numAfter foundNewest }
      else none
  | .fetchNarrow batch =>
      if ∀ message ∈ batch, message ∈ state.messages then some { state with
        client := (state.client.processNewMessages
          (batch.map (ServerMessage.toMessage highlight))).2 }
      else none

/-- One action happens. -/
def Step (highlight : String → String) (state : EchoState) (action : EchoAction)
    (next : EchoState) : Prop :=
  state.perform highlight action = some next

/-- What an action does to the client, and to the rest. -/
inductive Effect (highlight : String → String) (state : EchoState) :
    EchoAction → EchoState → Prop where
  | send {latest localId : ℚ} (rawContent : String) (fields : MessageFields)
      (isNew : localId ∉ state.client.alreadyUsed) (isLocal : isLocalonlyId localId = true) :
      Effect highlight state (.send latest rawContent fields) { state with
        client := state.client.insertLocalMessage localId rawContent fields
        requests := state.requests ++ [localId]
        calls := state.calls ++ [(localId, false)] }
  | commit {message : ServerMessage} (above : ∀ other ∈ state.messages, other.id < message.id)
      (requested : ∀ localId ∈ message.localId, localId ∈ state.requests) :
      Effect highlight state (.commit message) { state with
        messages := state.messages ++ [message]
        events := state.events ++ [message]
        requests := message.localId.elim state.requests state.requests.erase }
  | fail {localId : ℚ} {resend : Bool} (called : (localId, resend) ∈ state.calls) :
      Effect highlight state (.fail localId resend) { state with
        client := state.client.messageSendError localId
        calls := state.calls.erase (localId, resend) }
  | succeed {localId : ℚ} {message : ServerMessage} (called : (localId, false) ∈ state.calls)
      (committed : message ∈ state.messages) (isLocal : message.localId = some localId) :
      Effect highlight state (.succeed localId false message.id) { state with
        client := state.client.reifyMessageId localId message.id
        calls := state.calls.erase (localId, false) }
  | resendSuccess {localId : ℚ} {message : ServerMessage} (called : (localId, true) ∈ state.calls)
      (committed : message ∈ state.messages) (isLocal : message.localId = some localId) :
      Effect highlight state (.succeed localId true message.id) { state with
        client := state.client.resendSuccess localId localId message.id
        calls := state.calls.erase (localId, true) }
  | resend {localId object : ℚ} (waits : state.client.waitingForAck.get? localId = some object)
      (shown : localId ∉ state.aborted) : Effect highlight state (.resend localId) { state with
        client := state.client.resendMessage localId
        requests := state.requests ++ [localId]
        calls := state.calls ++ [(localId, true)] }
  | abort {localId object : ℚ} (waits : state.client.waitingForAck.get? localId = some object) :
      Effect highlight state (.abort localId) { state with
        client := state.client.abortMessage localId
        aborted := localId :: state.aborted }
  | getEvents {batch : List ServerMessage} (distinct : batch.Nodup)
      (waiting : ∀ message ∈ batch, message ∈ state.events) :
      Effect highlight state (.getEvents batch) { state with
        client := state.client.getEventsSuccess highlight batch
        events := state.events.filter fun message => decide (message ∉ batch) }
  | fetch {batch : List ServerMessage} {numAfter : ℕ} {foundNewest : Bool}
      (committed : ∀ message ∈ batch, message ∈ state.messages) :
      Effect highlight state (.fetch batch numAfter foundNewest) { state with
        client := state.client.getMessagesSuccess (batch.map (ServerMessage.toMessage highlight))
          numAfter foundNewest }
  | fetchNarrow {batch : List ServerMessage}
      (committed : ∀ message ∈ batch, message ∈ state.messages) :
      Effect highlight state (.fetchNarrow batch) { state with
        client := (state.client.processNewMessages
          (batch.map (ServerMessage.toMessage highlight))).2 }

variable {highlight : String → String} {state next : EchoState} {action : EchoAction}

/-- Everything that a step can do. -/
theorem effect_of_step (step : Step highlight state action next) :
    Effect highlight state action next := by
  cases action with
  | send latest rawContent fields =>
      obtain ⟨localId, isNext, rfl⟩ := Option.map_eq_some_iff.mp step
      obtain ⟨isNew, isLocal⟩ := ClientState.getNextIdFloat_eq_some isNext
      exact .send rawContent fields isNew isLocal
  | commit message =>
      obtain ⟨⟨above, requested⟩, isNext⟩ := Option.ite_none_right_eq_some.mp step
      cases isNext
      exact .commit above requested
  | fail localId resend =>
      obtain ⟨called, isNext⟩ := Option.ite_none_right_eq_some.mp step
      cases isNext
      exact .fail called
  | succeed localId resend serverId =>
      obtain ⟨⟨called, message, committed, isLocal, rfl⟩, isNext⟩ :=
        Option.ite_none_right_eq_some.mp step
      cases isNext
      cases resend with
      | false => exact .succeed called committed isLocal
      | true => exact .resendSuccess called committed isLocal
  | resend localId =>
      obtain ⟨⟨waits, shown⟩, isNext⟩ := Option.ite_none_right_eq_some.mp step
      obtain ⟨object, waits⟩ := Option.isSome_iff_exists.mp waits
      cases isNext
      exact .resend waits shown
  | abort localId =>
      obtain ⟨⟨waits, -⟩, isNext⟩ := Option.ite_none_right_eq_some.mp step
      obtain ⟨object, waits⟩ := Option.isSome_iff_exists.mp waits
      cases isNext
      exact .abort waits
  | getEvents batch =>
      obtain ⟨⟨distinct, waiting⟩, isNext⟩ := Option.ite_none_right_eq_some.mp step
      cases isNext
      exact .getEvents distinct waiting
  | fetch batch numAfter foundNewest =>
      obtain ⟨committed, isNext⟩ := Option.ite_none_right_eq_some.mp step
      cases isNext
      exact .fetch committed
  | fetchNarrow batch =>
      obtain ⟨committed, isNext⟩ := Option.ite_none_right_eq_some.mp step
      cases isNext
      exact .fetchNarrow committed

end EchoState

/-! ## Marks of echoes -/

namespace ClientState

variable {client next : ClientState} {highlight : String → String}

/-- Only messages without an id from the server are marked as echoes. -/
def NoStaleEcho (client : ClientState) : Prop :=
  ∀ object, (client.message object).locallyEchoed = true →
    isLocalonlyId (client.message object).id = true

/-- A write that keeps the marks and the ids keeps them right. -/
theorem NoStaleEcho.write (noStale : NoStaleEcho client) {object : ℚ} {message : EchoMessage}
    (sameId : message.id = (client.message object).id)
    (sameMark : message.locallyEchoed = (client.message object).locallyEchoed) :
    NoStaleEcho (client.write object message) := by
  intro other
  rw [message_write]
  split_ifs with same
  · rw [sameId, sameMark]
    exact noStale object
  · exact noStale other

theorem NoStaleEcho.reifyMessageId (noStale : NoStaleEcho client) (coherent : Coherent client)
    (localId : ℚ) (serverId : ℕ) : NoStaleEcho (client.reifyMessageId localId serverId) := by
  cases waits : client.waitingForId.get? localId with
  | none =>
      rw [ClientState.reifyMessageId, waits]
      exact noStale
  | some object =>
      have reified := coherent.reified_of_waits waits serverId
      intro other
      rw [reified.message]
      split_ifs
      · intro marked
        cases marked
      · exact noStale other

theorem NoStaleEcho.change (noStale : NoStaleEcho client) (coherent : Coherent client)
    (change : Change highlight client next) : NoStaleEcho next := by
  cases change with
  | reify localId serverId => exact noStale.reifyMessageId coherent localId serverId
  | succeed succeeds =>
      obtain ⟨object, -, rfl⟩ := failedMessageSuccess_eq_some succeeds
      exact noStale.write rfl rfl
  | fail object =>
      rcases messageSendError_cases client object with same | ⟨failed, -, isNext⟩
      · rw [same]
        exact noStale
      · rw [isNext]
        exact noStale.write rfl rfl
  | fields object fields => exact noStale.write rfl rfl
  | acknowledge localId => exact noStale
  | make message isNew =>
      intro other
      change ((client.write _ _).message other).locallyEchoed = true →
        isLocalonlyId ((client.write _ _).message other).id = true
      rw [message_write]
      split_ifs
      · intro marked
        cases marked
      · exact noStale other
  | list => exact noStale

theorem NoStaleEcho.changes (noStale : NoStaleEcho client) (coherent : Coherent client)
    (changes : ReflTransGen (Change highlight) client next) : NoStaleEcho next := by
  induction changes with
  | refl => exact noStale
  | tail before change inductionHypothesis =>
      exact inductionHypothesis.change (coherent.changes before) change

end ClientState

namespace EchoState

variable {highlight : String → String} {state next : EchoState} {action : EchoAction}

/-- The client is coherent, and requests are of echoes. -/
structure Coherent (state : EchoState) : Prop where
  client : state.client.Coherent
  calls : ∀ call ∈ state.calls, call.1 ∈ state.client.alreadyUsed
  requests : ∀ localId ∈ state.requests, localId ∈ state.client.alreadyUsed

theorem Coherent.start (history : History) : Coherent (start history) := by
  refine ⟨?_, by simp [EchoState.start], by simp [EchoState.start]⟩
  constructor <;> simp [EchoState.start]

/-- Local ids are only used up. -/
theorem alreadyUsed_of_changes {client next : ClientState}
    (coherent : client.Coherent)
    (changes : ReflTransGen (ClientState.Change highlight) client next) :
    next.alreadyUsed = client.alreadyUsed := by
  induction changes with
  | refl => rfl
  | @tail before after earlier change inductionHypothesis =>
      refine Eq.trans ?_ inductionHypothesis
      cases change with
      | reify localId serverId =>
          cases waits : before.waitingForId.get? localId with
          | none => rw [ClientState.reifyMessageId, waits]
          | some object =>
              exact ((coherent.changes earlier).reified_of_waits waits serverId).alreadyUsed
      | succeed succeeds =>
          obtain ⟨object, -, rfl⟩ := ClientState.failedMessageSuccess_eq_some succeeds
          rfl
      | fail object =>
          rcases ClientState.messageSendError_cases before object with same | ⟨failed, -, isNext⟩
          · rw [same]
          · rw [isNext]
            rfl
      | fields | acknowledge | make | list => rfl

/-- What an action of the client alone does to its ids is done by changes. -/
theorem Coherent.changes (coherent : Coherent state) {client : ClientState} {messages events :
    List ServerMessage} {calls : List (ℚ × Bool)} {requests aborted : List ℚ}
    (changes : ReflTransGen (ClientState.Change highlight) state.client client)
    (fewerCalls : ∀ call ∈ calls, call ∈ state.calls)
    (fewerRequests : ∀ localId ∈ requests, localId ∈ state.requests) :
    Coherent { state with client, messages, events, calls, requests, aborted } := by
  have sameUsed := alreadyUsed_of_changes coherent.client changes
  refine ⟨coherent.client.changes changes, fun call member => ?_, fun localId member => ?_⟩
  · rw [sameUsed]
    exact coherent.calls call (fewerCalls call member)
  · rw [sameUsed]
    exact coherent.requests localId (fewerRequests localId member)

theorem Effect.coherent (effect : Effect highlight state action next) (coherent : Coherent state) :
    Coherent next := by
  have sameRequests : ∀ localId ∈ state.requests, localId ∈ state.requests := fun _ member => member
  have sameCalls : ∀ call ∈ state.calls, call ∈ state.calls := fun _ member => member
  cases effect with
  | @send _ localId rawContent fields isNew isLocal =>
      have echoed := coherent.client.echoed isNew isLocal rawContent fields
      refine ⟨coherent.client.insertLocalMessage isNew isLocal rawContent fields, ?_, ?_⟩
      all_goals
        rw [echoed.alreadyUsed]
        intro other member
        rcases List.mem_append.mp member with before | isLast
      · exact List.mem_cons_of_mem _ (coherent.calls other before)
      · rw [List.mem_singleton.mp isLast]
        exact List.mem_cons_self
      · exact List.mem_cons_of_mem _ (coherent.requests other before)
      · rw [List.mem_singleton.mp isLast]
        exact List.mem_cons_self
  | @commit message above requested =>
      have unchanged : ReflTransGen (ClientState.Change highlight) state.client state.client :=
        .refl
      refine coherent.changes unchanged sameCalls fun localId member => ?_
      cases isLocal : message.localId with
      | none => simpa [isLocal] using member
      | some sent => exact List.mem_of_mem_erase (by simpa [isLocal] using member)
  | @fail localId resend called =>
      have failed : ClientState.Change highlight state.client _ := .fail state.client localId
      exact coherent.changes (.single failed)
        (fun call member => List.mem_of_mem_erase member) sameRequests
  | @succeed localId message called committed isLocal =>
      have reified : ClientState.Change highlight state.client _ :=
        .reify state.client localId message.id
      exact coherent.changes (.single reified)
        (fun call member => List.mem_of_mem_erase member) sameRequests
  | @resendSuccess localId message called committed isLocal =>
      have marked : Coherent { state with client := (state.client.write localId
          { state.client.message localId with locallyEchoed := true }) } :=
        ⟨coherent.client.write rfl, coherent.calls, coherent.requests⟩
      have answered : ReflTransGen (ClientState.Change highlight) _ _ :=
        ClientState.reachable_resendSuccess state.client localId localId message.id
      exact marked.changes answered (fun call member => List.mem_of_mem_erase member) sameRequests
  | @resend localId object waits shown =>
      obtain ⟨rfl, isUsed⟩ := coherent.client.waitingForAck localId object waits
      refine ⟨coherent.client.write rfl, fun call member => ?_, fun other member => ?_⟩
      · rcases List.mem_append.mp member with before | isLast
        · exact coherent.calls call before
        · rw [List.mem_singleton.mp isLast]
          exact isUsed
      · rcases List.mem_append.mp member with before | isLast
        · exact coherent.requests other before
        · rw [List.mem_singleton.mp isLast]
          exact isUsed
  | @abort localId object waits =>
      have listed : ClientState.Change highlight state.client (state.client.abortMessage localId) :=
        .list _ _ _ _ _
      exact coherent.changes (.single listed) sameCalls sameRequests
  | @getEvents batch distinct waiting =>
      have received : ReflTransGen (ClientState.Change highlight) _ _ :=
        ClientState.reachable_getEventsSuccess state.client batch
      exact coherent.changes received sameCalls sameRequests
  | @fetch batch numAfter foundNewest committed =>
      have inserted : ReflTransGen (ClientState.Change highlight) _ _ :=
        ClientState.reachable_getMessagesSuccess state.client batch numAfter foundNewest
      exact coherent.changes inserted sameCalls sameRequests
  | @fetchNarrow batch committed =>
      have stored : ReflTransGen (ClientState.Change highlight) _ _ :=
        ClientState.reachable_processNewMessages state.client batch
      exact coherent.changes stored sameCalls sameRequests

/-- The answer to a message that was sent again comes before the event of the message. -/
def AnswerComesFirst (state : EchoState) : EchoAction → Prop
  | .succeed localId true _ => (state.client.waitingForId.get? localId).isSome = true
  | _ => True

instance (state : EchoState) (action : EchoAction) : Decidable (AnswerComesFirst state action) :=
  match action with
  | .succeed localId true _ =>
      inferInstanceAs (Decidable ((state.client.waitingForId.get? localId).isSome = true))
  | .succeed _ false _ | .send .. | .commit _ | .fail .. | .resend _ | .abort _ | .getEvents _
  | .fetch .. | .fetchNarrow _ => .isTrue trivial

theorem Effect.noStaleEcho_iff (effect : Effect highlight state action next)
    (coherent : Coherent state) (noStale : state.client.NoStaleEcho) :
    next.client.NoStaleEcho ↔ AnswerComesFirst state action := by
  cases effect with
  | @send _ localId rawContent fields isNew isLocal =>
      refine iff_of_true (fun other => ?_) trivial
      rw [(coherent.client.echoed isNew isLocal rawContent fields).message]
      split_ifs
      · exact fun _ => isLocal
      · exact noStale other
  | commit => exact iff_of_true noStale trivial
  | @fail localId resend called =>
      have failed : ClientState.Change highlight state.client _ := .fail state.client localId
      exact iff_of_true (noStale.change coherent.client failed) trivial
  | @succeed localId message called committed isLocal =>
      exact iff_of_true (noStale.reifyMessageId coherent.client localId message.id) trivial
  | @resendSuccess localId message called committed isLocal =>
      have isUsed := coherent.calls _ called
      have answered : ReflTransGen (ClientState.Change highlight) _ _ :=
        ClientState.reachable_resendSuccess state.client localId localId message.id
      have marked : (state.client.write localId
          { state.client.message localId with locallyEchoed := true }).Coherent :=
        coherent.client.write rfl
      cases waits : state.client.waitingForId.get? localId with
      | some object =>
          obtain ⟨rfl, isStored, -⟩ := coherent.client.waitingForId localId object waits
          refine iff_of_true (ClientState.NoStaleEcho.changes ?_ marked answered) (by
            rw [AnswerComesFirst, waits]
            rfl)
          intro other
          rw [ClientState.message_write]
          split_ifs
          · intro _
            rw [coherent.client.storedId object object isStored]
            exact coherent.client.usedLocal object isUsed
          · exact noStale other
      | none =>
          refine iff_of_false (fun after => ?_) (by
            rw [AnswerComesFirst, waits]
            exact Bool.false_ne_true)
          have notLocal := coherent.client.reified localId isUsed waits
          obtain ⟨failed, isMessage⟩ := ClientState.message_resendSuccess waits message.id
          have isLocalId := after localId (by rw [isMessage])
          rw [isMessage, notLocal] at isLocalId
          cases isLocalId
  | resend => exact iff_of_true (noStale.write rfl rfl) trivial
  | abort => exact iff_of_true noStale trivial
  | @getEvents batch distinct waiting =>
      exact iff_of_true (noStale.changes coherent.client
        (ClientState.reachable_getEventsSuccess state.client batch)) trivial
  | @fetch batch numAfter foundNewest committed =>
      have inserted : ReflTransGen (ClientState.Change highlight) _ _ :=
        ClientState.reachable_getMessagesSuccess state.client batch numAfter foundNewest
      exact iff_of_true (noStale.changes coherent.client inserted) trivial
  | @fetchNarrow batch committed =>
      have stored : ReflTransGen (ClientState.Change highlight) _ _ :=
        ClientState.reachable_processNewMessages state.client batch
      exact iff_of_true (noStale.changes coherent.client stored) trivial

/-- A run marks only echoes as echoes exactly when every message that is sent again is answered
before its event comes. -/
theorem noStaleEcho_always_iff {history : History} {trace : List (EchoState × EchoAction)}
    {final : EchoState} (run : Run (Step highlight) (start history) trace final) :
    Run.Always (fun state => state.client.NoStaleEcho) trace final ↔
      ∀ visit ∈ trace, AnswerComesFirst visit.1 visit.2 := by
  refine run.always_iff (Coherent.start history) ?_ ?_ ?_
  · intro object marked
    cases marked
  · exact fun coherent _ step _ => (effect_of_step step).coherent coherent
  · exact fun coherent noStale step => (effect_of_step step).noStaleEcho_iff coherent noStale

/-! ## Failures are reported -/

/-- An echo without an id from the server waits for an answer or is marked as failed. -/
def Reported (state : EchoState) : Prop :=
  ∀ localId, (state.client.waitingForId.get? localId).isSome = true →
    (∃ resend, (localId, resend) ∈ state.calls) ∨
      (state.client.message localId).failedRequest = true

/-- Changes do not make echoes wait, and leave the mark of a failure on those that wait. -/
theorem waits_of_changes {client next : ClientState} (coherent : client.Coherent)
    (changes : ReflTransGen (ClientState.Change highlight) client next) {localId : ℚ}
    (waits : (next.waitingForId.get? localId).isSome = true) :
    (client.waitingForId.get? localId).isSome = true ∧
      ((client.message localId).failedRequest = true →
        (next.message localId).failedRequest = true) := by
  induction changes with
  | refl => exact ⟨waits, fun failed => failed⟩
  | @tail before after earlier change inductionHypothesis =>
      have beforeCoherent := coherent.changes earlier
      suffices step : (before.waitingForId.get? localId).isSome = true ∧
          ((before.message localId).failedRequest = true →
            (after.message localId).failedRequest = true) by
        obtain ⟨first, keeps⟩ := inductionHypothesis step.1
        exact ⟨first, fun failed => step.2 (keeps failed)⟩
      have written : ∀ {object : ℚ} {message : EchoMessage},
          ((before.message object).failedRequest = true → message.failedRequest = true) →
          (before.message localId).failedRequest = true →
            ((before.write object message).message localId).failedRequest = true := by
        intro object message keeps failed
        rw [ClientState.message_write]
        split_ifs with same
        · exact keeps (same ▸ failed)
        · exact failed
      cases change with
      | reify otherId serverId =>
          cases otherWaits : before.waitingForId.get? otherId with
          | none =>
              rw [ClientState.reifyMessageId, otherWaits] at waits ⊢
              exact ⟨waits, fun failed => failed⟩
          | some object =>
              have reified := beforeCoherent.reified_of_waits otherWaits serverId
              rw [reified.waitingForId] at waits
              rw [reified.message]
              split_ifs at waits with same
              · cases waits
              · rw [if_neg same]
                exact ⟨waits, fun failed => failed⟩
      | @succeed _ serverId succeeds =>
          obtain ⟨object, isStored, rfl⟩ := ClientState.failedMessageSuccess_eq_some succeeds
          refine ⟨waits, fun failed => ?_⟩
          rw [ClientState.message_write_ne _ _ ?_]
          · exact failed
          · rintro rfl
            obtain ⟨other, isWaiting⟩ := Option.isSome_iff_exists.mp waits
            obtain ⟨-, ownStored, isUsed⟩ := beforeCoherent.waitingForId localId other isWaiting
            have sameId := (beforeCoherent.storedId _ _ isStored).symm.trans
              (beforeCoherent.storedId _ _ ownStored)
            have isLocal := beforeCoherent.usedLocal localId isUsed
            rw [← sameId, ClientState.isLocalonlyId_natCast] at isLocal
            cases isLocal
      | fail object =>
          rcases ClientState.messageSendError_cases before object with same | ⟨other, -, isNext⟩
          · rw [same] at waits ⊢
            exact ⟨waits, fun failed => failed⟩
          · rw [isNext] at waits ⊢
            exact ⟨waits, written fun _ => rfl⟩
      | fields object fields => exact ⟨waits, written fun failed => failed⟩
      | acknowledge | list => exact ⟨waits, fun failed => failed⟩
      | make message isNew =>
          refine ⟨waits, fun failed => ?_⟩
          change ((before.write _ _).message localId).failedRequest = true
          rw [ClientState.message_write_ne _ _ ?_]
          · exact failed
          · rintro rfl
            obtain ⟨other, isWaiting⟩ := Option.isSome_iff_exists.mp waits
            have isLocal := beforeCoherent.usedLocal _
              (beforeCoherent.waitingForId _ other isWaiting).2.2
            rw [ClientState.isLocalonlyId_natCast] at isLocal
            cases isLocal

/-- Changes of the client keep failures reported, when the requests without an answer stay. -/
theorem Reported.changes (reported : Reported state) (coherent : Coherent state)
    (changes : ReflTransGen (ClientState.Change highlight) state.client next.client)
    (sameCalls : next.calls = state.calls) : Reported next := by
  intro localId waits
  obtain ⟨before, keeps⟩ := waits_of_changes coherent.client changes waits
  rw [sameCalls]
  exact (reported localId before).imp_right keeps

/-- After an answer the echo does not wait any longer. -/
theorem waitingForId_reifyMessageId {client : ClientState} (coherent : client.Coherent)
    (localId serverId : ℚ) : (client.reifyMessageId localId serverId).waitingForId.get? localId =
      none := by
  cases waits : client.waitingForId.get? localId with
  | none => rw [ClientState.reifyMessageId, waits, waits]
  | some object => rw [(coherent.reified_of_waits waits serverId).waitingForId, if_pos rfl]

theorem waitingForId_resendSuccess {client : ClientState} (coherent : client.Coherent)
    (localId serverId : ℚ) :
    (client.resendSuccess localId localId serverId).waitingForId.get? localId = none := by
  have marked : (client.write localId
      { client.message localId with locallyEchoed := true }).Coherent := coherent.write rfl
  have isGone := waitingForId_reifyMessageId marked localId serverId
  rw [ClientState.resendSuccess]
  cases succeeds : ((client.write localId { client.message localId with
      locallyEchoed := true }).reifyMessageId localId serverId).failedMessageSuccess serverId with
  | none => exact isGone
  | some succeeded =>
      obtain ⟨object, -, rfl⟩ := ClientState.failedMessageSuccess_eq_some succeeds
      exact isGone

theorem Effect.reported (effect : Effect highlight state action next) (coherent : Coherent state)
    (reported : Reported state) : Reported next := by
  -- the answer to one echo leaves those to the others
  have others : ∀ {localId other : ℚ} {resend : Bool}, other ≠ localId →
      (∃ resend, (other, resend) ∈ state.calls) →
        ∃ again, (other, again) ∈ state.calls.erase (localId, resend) := by
    rintro localId other resend different ⟨again, called⟩
    exact ⟨again, (List.mem_erase_of_ne fun same => different (congrArg Prod.fst same)).mpr called⟩
  cases effect with
  | @send _ localId rawContent fields isNew isLocal =>
      have echoed := coherent.client.echoed isNew isLocal rawContent fields
      intro other waits
      dsimp only at waits ⊢
      rw [echoed.waitingForId, Dict.get?_set] at waits
      rw [echoed.message]
      split_ifs at waits ⊢ with same
      · exact .inl ⟨false, by simp [same]⟩
      · refine (reported other waits).imp_left ?_
        rintro ⟨again, called⟩
        exact ⟨again, List.mem_append_left _ called⟩
  | commit => exact reported
  | @fail localId resend called =>
      have failed : ClientState.Change highlight state.client _ := .fail state.client localId
      intro other waits
      obtain ⟨before, keeps⟩ := waits_of_changes coherent.client (.single failed) waits
      by_cases same : other = localId
      · subst same
        obtain ⟨object, isWaiting⟩ := Option.isSome_iff_exists.mp before
        obtain ⟨-, isStored, -⟩ := coherent.client.waitingForId other object isWaiting
        refine .inr ?_
        change ((state.client.messageSendError other).message other).failedRequest = true
        simp [ClientState.messageSendError, coherent.client.storedId other other isStored, isStored]
      · exact (reported other before).imp (others same) keeps
  | @succeed localId message called committed isLocal =>
      have reified : ClientState.Change highlight state.client _ :=
        .reify state.client localId message.id
      intro other waits
      obtain ⟨before, keeps⟩ := waits_of_changes coherent.client (.single reified) waits
      refine (reported other before).imp (others ?_) keeps
      rintro rfl
      change Option.isSome (ClientState.waitingForId (state.client.reifyMessageId _ _) |>.get? _) =
        true at waits
      rw [waitingForId_reifyMessageId coherent.client] at waits
      cases waits
  | @resendSuccess localId message called committed isLocal =>
      have marked : (state.client.write localId
          { state.client.message localId with locallyEchoed := true }).Coherent :=
        coherent.client.write rfl
      have answered : ReflTransGen (ClientState.Change highlight) _ _ :=
        ClientState.reachable_resendSuccess state.client localId localId message.id
      intro other waits
      obtain ⟨before, keeps⟩ := waits_of_changes marked answered waits
      have different : other ≠ localId := by
        rintro rfl
        dsimp only at waits
        rw [waitingForId_resendSuccess coherent.client] at waits
        cases waits
      rw [ClientState.message_write_ne _ _ different] at keeps
      exact (reported other before).imp (others different) keeps
  | @resend localId object waits shown =>
      intro other waits
      rcases reported other waits with ⟨again, called⟩ | failed
      · exact .inl ⟨again, List.mem_append_left _ called⟩
      · refine .inr ?_
        change ((state.client.write localId _).message other).failedRequest = true
        rw [ClientState.message_write]
        split_ifs with same
        · exact same ▸ failed
        · exact failed
  | @abort localId object waits =>
      have listed : ClientState.Change highlight state.client (state.client.abortMessage localId) :=
        .list _ _ _ _ _
      exact reported.changes coherent (.single listed) rfl
  | @getEvents batch distinct waiting =>
      have received : ReflTransGen (ClientState.Change highlight) _ _ :=
        ClientState.reachable_getEventsSuccess state.client batch
      exact reported.changes coherent received rfl
  | @fetch batch numAfter foundNewest committed =>
      have inserted : ReflTransGen (ClientState.Change highlight) _ _ :=
        ClientState.reachable_getMessagesSuccess state.client batch numAfter foundNewest
      exact reported.changes coherent inserted rfl
  | @fetchNarrow batch committed =>
      have stored : ReflTransGen (ClientState.Change highlight) _ _ :=
        ClientState.reachable_processNewMessages state.client batch
      exact reported.changes coherent stored rfl

/-- In every run, an echo without an id from the server waits for an answer or is marked as failed. -/
theorem reported_of_run {history : History} {trace : List (EchoState × EchoAction)}
    {final : EchoState} (run : Run (Step highlight) (start history) trace final) :
    Run.Always Reported trace final := by
  have initial : Reported (start history) := by
    intro localId waits
    cases waits
  refine @Run.always_of_condition _ _ _ (fun state => Coherent state ∧ Reported state) _
    (fun _ _ => True) _ _ _ run ⟨Coherent.start history, initial⟩ (fun both => both.2) ?_
    fun _ _ => trivial
  intro state action next both step _
  have effect := effect_of_step step
  exact ⟨effect.coherent both.1, effect.reported both.1 both.2⟩

end EchoState

/-! ## A lost answer -/

/-- The server has no messages. -/
def noHistory : History := ⟨[], Increasing.nil, by simp⟩

/-- What a short message looks like. -/
def shortFields (content : String) : MessageFields :=
  ⟨content, false, false, false, false, false, 0, [], false, []⟩

/-- The same message from the server. -/
def shortMessage (id : ℕ) (localId : Option ℚ) : ServerMessage :=
  ⟨id, localId, "<p>hi</p>", [], 1, [], false, []⟩

/-- Three messages are sent, the first one before anything is fetched. The event of the first
comes before its answer, the second fails, also when it is sent again, and the third is answered
before its event comes. -/
def eventFirst : List EchoAction :=
  [.send 4 "hi" (shortFields "hi"), .fetch [] 0 true, .fetch [] 0 true,
    .send (401 / 100) "you" (shortFields "you"), .send (402 / 100) "all" (shortFields "all"),
    .fail (402 / 100) false, .resend (402 / 100), .fail (402 / 100) true,
    .commit (shortMessage 5 none), .commit (shortMessage 6 (some (401 / 100))),
    .commit (shortMessage 7 (some (403 / 100))),
    .getEvents [shortMessage 6 (some (401 / 100)), shortMessage 5 none],
    .succeed (401 / 100) false 6, .succeed (403 / 100) false 7,
    .getEvents [shortMessage 7 (some (403 / 100))]]

theorem reported_eventFirst :
    ∃ final, eventFirst.foldlM (EchoState.perform id) (.start noHistory) = some final ∧
      Run.Always EchoState.Reported (Run.visits (EchoState.perform id) (.start noHistory)
        eventFirst) final := by
  have performs : (eventFirst.foldlM (EchoState.perform id) (.start noHistory)).isSome := by
    decide +kernel
  obtain ⟨final, isFinal⟩ := Option.isSome_iff_exists.mp performs
  exact ⟨final, isFinal, EchoState.reported_of_run (Run.of_foldlM isFinal).1⟩

/-- A message is sent again, and its event comes before the answer. -/
def sentAgain : List EchoAction :=
  [.send 4 "hi" (shortFields "hi"), .fail (401 / 100) false, .resend (401 / 100),
    .commit (shortMessage 5 (some (401 / 100))), .getEvents [shortMessage 5 (some (401 / 100))],
    .succeed (401 / 100) true 5]

/-- The message stays marked as an echo. -/
theorem noStaleEcho_fails_when_sent_again :
    ∃ final, sentAgain.foldlM (EchoState.perform id) (.start noHistory) = some final ∧
      ¬Run.Always (fun state => state.client.NoStaleEcho)
        (Run.visits (EchoState.perform id) (.start noHistory) sentAgain) final := by
  have performs : (sentAgain.foldlM (EchoState.perform id) (.start noHistory)).isSome := by
    decide +kernel
  obtain ⟨final, isFinal⟩ := Option.isSome_iff_exists.mp performs
  refine ⟨final, isFinal, fun always => ?_⟩
  have inTime := (EchoState.noStaleEcho_always_iff (Run.of_foldlM isFinal).1).mp always
  exact absurd inTime (by decide +kernel)

end Zulip.Client.LocalEcho
