import Zulip.Client.MessageListData
import Zulip.Foundation.Increasing

/-!
# Local echo

A message that the user sends is shown at once, under a fractional id. It gets its id from the
server with the answer of the request or with its event, whichever comes first; the event also
brings what the server made of it. Messages are objects that the message store, the message lists
and the two maps of waiting messages share, so the model names an object by the id with which it
was created. Where a message stands in a list is modelled with the message lists.
-/

namespace Zulip.Client.LocalEcho

/-- The fields of a message that an echo takes over from the server. -/
structure MessageFields where
  content : String
  mentioned : Bool
  mentionedMeDirectly : Bool
  streamWildcardMentioned : Bool
  topicWildcardMentioned : Bool
  alerted : Bool
  timestamp : ℚ
  topicLinks : List String
  isMeMessage : Bool
  submessages : List String
deriving DecidableEq, Inhabited, Repr

/-- A message as the client holds it. -/
structure EchoMessage where
  id : ℚ
  rawContent : String
  fields : MessageFields
  locallyEchoed : Bool
  failedRequest : Bool
deriving DecidableEq, Inhabited, Repr

/-- A message as the server sends it; `local_id` is there when this client has sent it. -/
structure ServerMessage where
  id : ℕ
  localId : Option ℚ
  content : String
  flags : List String
  timestamp : ℚ
  topicLinks : List String
  isMeMessage : Bool
  submessages : List String
deriving DecidableEq, Repr

/-- `message_store.update_booleans` -/
def MessageFields.updateBooleans (fields : MessageFields) (flags : List String) : MessageFields :=
  { fields with
    mentioned := decide ("mentioned" ∈ flags) || decide ("stream_wildcard_mentioned" ∈ flags) ||
      decide ("topic_wildcard_mentioned" ∈ flags)
    mentionedMeDirectly := decide ("mentioned" ∈ flags)
    streamWildcardMentioned := decide ("stream_wildcard_mentioned" ∈ flags)
    topicWildcardMentioned := decide ("topic_wildcard_mentioned" ∈ flags)
    alerted := decide ("has_alert_word" ∈ flags) }

/-- `alert_words.process_message` -/
def MessageFields.processAlertWords (highlight : String → String) (fields : MessageFields) :
    MessageFields :=
  if fields.alerted then { fields with content := highlight fields.content } else fields

/-- What a message that comes from the server looks like. -/
def ServerMessage.fields (highlight : String → String) (message : ServerMessage) : MessageFields :=
  let raw : MessageFields :=
    { content := message.content
      mentioned := false
      mentionedMeDirectly := false
      streamWildcardMentioned := false
      topicWildcardMentioned := false
      alerted := false
      timestamp := message.timestamp
      topicLinks := message.topicLinks
      isMeMessage := message.isMeMessage
      submessages := message.submessages }
  (raw.updateBooleans message.flags).processAlertWords highlight

/-- The raw message that `process_new_message` takes. -/
def ServerMessage.toMessage (highlight : String → String) (message : ServerMessage) : EchoMessage :=
  ⟨message.id, "", message.fields highlight, false, false⟩

/-- What `process_from_server` writes over an echo. -/
def MessageFields.takeOver (highlight : String → String) (fields : MessageFields)
    (message : ServerMessage) : MessageFields :=
  let updated := { fields with content := message.content }
  let processed := (updated.updateBooleans message.flags).processAlertWords highlight
  { processed with
    timestamp := message.timestamp
    topicLinks := message.topicLinks
    isMeMessage := message.isMeMessage
    submessages := message.submessages }

/-- The client: its objects, `message_store`, the hash, the items and the fetch status of
`all_messages_data`, the two maps of waiting messages and the local ids that are used up. -/
structure ClientState where
  objects : Dict ℚ EchoMessage
  stored : Dict ℚ ℚ
  hash : Dict ℚ ℚ
  items : List ℚ
  foundNewest : Bool
  expectedMaxMessageId : ℚ
  waitingForId : Dict ℚ ℚ
  waitingForAck : Dict ℚ ℚ
  alreadyUsed : List ℚ
deriving DecidableEq

namespace ClientState

/-- The object with a name. -/
def message (self : ClientState) (object : ℚ) : EchoMessage := self.objects.getD object default

/-- Write an object. -/
def write (self : ClientState) (object : ℚ) (message : EchoMessage) : ClientState :=
  { self with objects := self.objects.set object message }

/-- `max_id_for_messages` -/
def maxIdForMessages (self : ClientState) (objects : List ℚ) : ℚ :=
  objects.foldl (fun maxId object => max maxId (self.message object).id) 0

/-! ## New messages -/

/-- `message_helper.process_new_message`: a message that is in the store is not made again. -/
def processNewMessage (self : ClientState) (raw : EchoMessage) : ℚ × ClientState :=
  match self.stored.get? raw.id with
  | some object => (object, self)
  | none => (raw.id, { self.write raw.id raw with stored := self.stored.set raw.id raw.id })

def processNewMessages (self : ClientState) : List EchoMessage → List ℚ × ClientState
  | [] => ([], self)
  | raw :: rest =>
      let (object, processed) := self.processNewMessage raw
      let (objects, last) := processed.processNewMessages rest
      (object :: objects, last)

/-- `MessageListData.add_messages`: messages that the list has are left out. -/
def addMessages (self : ClientState) (objects : List ℚ) : ClientState :=
  let new := objects.filter fun object => (self.hash.get? (self.message object).id).isNone
  { self with
    hash := new.foldl (fun hash object =>
      let id := (self.message object).id
      if (hash.get? id).isSome then hash else hash.set id object) self.hash
    items := self.items ++ new }

/-- `message_util.add_new_messages_data`: as long as the newest messages are not fetched the new
ones are not added, as they might not stand next to the others. -/
def addNewMessagesData (self : ClientState) (objects : List ℚ) : ClientState :=
  if self.foundNewest then self.addMessages objects
  else { self with
    expectedMaxMessageId := max self.expectedMaxMessageId (self.maxIdForMessages objects) }

/-- `message_events.insert_new_messages` -/
def insertNewMessages (self : ClientState) (raws : List EchoMessage) : ClientState :=
  let (objects, processed) := self.processNewMessages raws
  processed.addNewMessagesData objects

/-! ## Fetched messages -/

/-- `FetchStatus.finish_newer_batch` -/
def finishNewerBatch (self : ClientState) (maxMessageId : ℚ) (foundNewest : Bool) : ClientState :=
  if foundNewest && decide (maxMessageId < self.expectedMaxMessageId) then
    { self with foundNewest := false, expectedMaxMessageId := 0 }
  else { self with foundNewest }

/-- `get_messages_success` for `all_messages_data`. -/
def getMessagesSuccess (self : ClientState) (raws : List EchoMessage) (numAfter : ℕ)
    (foundNewest : Bool) : ClientState :=
  let maxMessageId := raws.foldl (fun maxId raw => max maxId raw.id) 0
  let finished :=
    if 0 < numAfter ∨ (!self.foundNewest && foundNewest) = true then
      self.finishNewerBatch maxMessageId foundNewest
    else self
  let (objects, processed) := finished.processNewMessages raws
  processed.addMessages objects

/-! ## Sending -/

/-- `local_message.get_next_id_float`, with the id of the last message. -/
def getNextIdFloat (self : ClientState) (latest : ℚ) : Option ℚ :=
  let localIdFloat := max 0 latest + 1 / 100
  if localIdFloat ∈ self.alreadyUsed then none
  else if 5 / 100 < localIdFloat - localIdFloat.floor then none
  else if localIdFloat - localIdFloat.floor = 0 then none
  else some localIdFloat

/-- `insert_local_message`: `fields` is what the client renders. -/
def insertLocalMessage (self : ClientState) (localId : ℚ) (rawContent : String)
    (fields : MessageFields) : ClientState :=
  let inserted := { self with alreadyUsed := localId :: self.alreadyUsed }.insertNewMessages
    [⟨localId, rawContent, fields, true, false⟩]
  let object := (inserted.stored.get? localId).getD localId
  { inserted with
    waitingForId := inserted.waitingForId.set localId object
    waitingForAck := inserted.waitingForAck.set localId object }

/-! ## The id from the server -/

/-- `message_store.reify_message_id` -/
def storeReifyMessageId (self : ClientState) (oldId newId : ℚ) : ClientState :=
  match self.stored.get? oldId with
  | none => self
  | some object =>
      { self.write object { self.message object with id := newId, locallyEchoed := false } with
        stored := (self.stored.set newId object).erase oldId }

/-- `MessageListData.change_message_id` -/
def changeMessageId (self : ClientState) (oldId newId : ℚ) : ClientState :=
  match self.hash.get? oldId with
  | none => self
  | some object => { self with hash := (self.hash.erase oldId).set newId object }

/-- `reify_message_id` -/
def reifyMessageId (self : ClientState) (localId serverId : ℚ) : ClientState :=
  match self.waitingForId.get? localId with
  | none => self
  | some object =>
      let renamed := { self with waitingForId := self.waitingForId.erase localId }.write object
        { self.message object with id := serverId, locallyEchoed := false }
      (renamed.storeReifyMessageId localId serverId).changeMessageId localId serverId

/-- `failed_message_success`; `none` when `message_store.get` is `undefined`. -/
def failedMessageSuccess (self : ClientState) (messageId : ℚ) : Option ClientState :=
  (self.stored.get? messageId).map fun object =>
    self.write object { self.message object with failedRequest := false }

/-! ## Events -/

/-- The loop body of `process_from_server` for a message that was echoed, and whether the loop goes
on: it breaks off when the store does not have the message. -/
def processEcho (highlight : String → String) (self : ClientState) (message : ServerMessage)
    (object : ℚ) : Bool × ClientState :=
  let localId := message.localId.getD 0
  let reified := self.reifyMessageId localId message.id
  match reified.failedMessageSuccess message.id with
  | none => (false, reified)
  | some succeeded =>
      let echo := succeeded.message object
      let updated := succeeded.write object
        { echo with fields := echo.fields.takeOver highlight message }
      (true, { updated with waitingForAck := updated.waitingForAck.erase localId })

/-- The loop of `process_from_server`, with the messages that were not echoed; what was done before
it breaks off stays. -/
def processFromServer (highlight : String → String) (self : ClientState) :
    List ServerMessage → Option (List ServerMessage) × ClientState
  | [] => (some [], self)
  | message :: rest =>
      match message.localId.bind self.waitingForAck.get? with
      | none =>
          let (nonEchoMessages, last) := self.processFromServer highlight rest
          (nonEchoMessages.map (message :: ·), last)
      | some object =>
          let (goesOn, processed) := self.processEcho highlight message object
          if goesOn then processed.processFromServer highlight rest else (none, processed)

/-- `get_events_success`, for the message events of a batch. -/
def getEventsSuccess (highlight : String → String) (self : ClientState)
    (batch : List ServerMessage) : ClientState :=
  match self.processFromServer highlight (sortByKey ServerMessage.id batch) with
  | (none, last) => last
  | (some messages, last) =>
      last.insertNewMessages (messages.map (ServerMessage.toMessage highlight))

/-! ## Failures -/

/-- `message_send_error` for the object of a request. -/
def messageSendError (self : ClientState) (object : ℚ) : ClientState :=
  match self.stored.get? (self.message object).id with
  | none => self
  | some failed => self.write failed { self.message failed with failedRequest := true }

/-- `resend_message`, up to the request. -/
def resendMessage (self : ClientState) (object : ℚ) : ClientState :=
  let message := self.message object
  self.write object
    { message with fields := { message.fields with content := message.rawContent } }

/-- `on_success` of a request that was sent again. -/
def resendSuccess (self : ClientState) (object localId serverId : ℚ) : ClientState :=
  let echoed := self.write object { self.message object with locallyEchoed := true }
  let reified := echoed.reifyMessageId localId serverId
  (reified.failedMessageSuccess serverId).getD reified

/-- `abort_message` -/
def abortMessage (self : ClientState) (object : ℚ) : ClientState :=
  let id := (self.message object).id
  { self with
    hash := self.hash.erase id
    items := self.items.filter fun item => (self.message item).id ≠ id }

/-! ## What the changes do to the objects -/

variable {self : ClientState}

theorem message_write (self : ClientState) (object other : ℚ) (message : EchoMessage) :
    (self.write object message).message other =
      if other = object then message else self.message other :=
  Dict.getD_set _ _ _ _ _

@[simp] theorem message_write_self (self : ClientState) (object : ℚ) (message : EchoMessage) :
    (self.write object message).message object = message := by
  rw [message_write, if_pos rfl]

theorem message_write_ne (self : ClientState) {object other : ℚ} (message : EchoMessage)
    (different : other ≠ object) :
    (self.write object message).message other = self.message other := by
  rw [message_write, if_neg different]

/-- A local id is new, and fractional. -/
theorem getNextIdFloat_eq_some {latest localId : ℚ}
    (isNext : self.getNextIdFloat latest = some localId) :
    localId ∉ self.alreadyUsed ∧ isLocalonlyId localId = true := by
  unfold getNextIdFloat at isNext
  dsimp only at isNext
  split_ifs at isNext with isUsed isLarge isWhole
  rw [← Option.some.inj isNext]
  refine ⟨isUsed, ?_⟩
  rw [isLocalonlyId, decide_eq_true_eq]
  intro isInteger
  have whole := Rat.coe_int_num_of_den_eq_one isInteger
  refine isWhole ?_
  rw [← whole, Rat.floor_intCast, sub_self]

/-- An id from the server is not fractional. -/
@[simp] theorem isLocalonlyId_natCast (id : ℕ) : isLocalonlyId (id : ℚ) = false := by
  simp [isLocalonlyId]

end ClientState

end Zulip.Client.LocalEcho
