import Mathlib.Algebra.Order.Ring.Rat
import Mathlib.Data.Finset.Basic
import Zulip.Foundation.Dict
import Zulip.Foundation.Increasing

/-!
# Message lists of the web client

A message list has all messages of a narrow in order, those of them that are not muted, an index of
the messages by id, and the ids of locally echoed messages, which are fractional until the server
acknowledges the message.
-/

namespace Zulip.Client

/-- What muting looks at in a message. -/
inductive MessageBody where
  | stream (streamId : ℕ) (topic : String) (mentioned : Bool)
  | direct (toUserIds : List ℕ) (senderId : ℕ)
deriving DecidableEq

structure Message where
  id : ℚ
  body : MessageBody
deriving DecidableEq

/-- The muted topics and users. -/
structure Muting where
  isTopicMuted : ℕ → String → Bool
  isUserMuted : ℕ → Bool

/-- What does not change in a message list. -/
structure MessageListConfig where
  predicate : Message → Bool
  isNonGroupDirectMessage : Bool
  excludesMutedTopics : Bool

structure MessageListData where
  allItems : List Message
  items : List Message
  hash : Dict ℚ Message
  localOnly : Finset ℚ
  selectedId : ℚ

/-- A locally echoed message has a fractional id. -/
def isLocalonlyId (id : ℚ) : Bool := decide (id.den ≠ 1)

namespace MessageListConfig

/-- The message is not in a muted topic, or mentions the user. -/
def topicVisible (muting : Muting) (message : Message) : Bool :=
  match message.body with
  | .direct _ _ => true
  | .stream streamId topic mentioned => !muting.isTopicMuted streamId topic || mentioned

/-- The message is not a direct message from or to a muted user. -/
def userVisible (muting : Muting) (message : Message) : Bool :=
  match message.body with
  | .stream _ _ _ => true
  | .direct recipients senderId =>
      if recipients.length > 1 then true
      else !recipients.head?.any muting.isUserMuted && !muting.isUserMuted senderId

def messagesFilteredForTopicMutes (config : MessageListConfig) (muting : Muting)
    (messages : List Message) : List Message :=
  if !config.excludesMutedTopics then messages
  else messages.filter (topicVisible muting)

def messagesFilteredForUserMutes (config : MessageListConfig) (muting : Muting)
    (messages : List Message) : List Message :=
  if config.isNonGroupDirectMessage then messages
  else messages.filter (userVisible muting)

def unmutedMessages (config : MessageListConfig) (muting : Muting) (messages : List Message) :
    List Message :=
  config.messagesFilteredForTopicMutes muting (config.messagesFilteredForUserMutes muting messages)

end MessageListConfig

namespace MessageListData

def empty : MessageListData := ⟨[], [], Dict.empty, ∅, -1⟩

def clear (data : MessageListData) : MessageListData :=
  { data with allItems := [], items := [], hash := Dict.empty }

def updateItemsForMuting (config : MessageListConfig) (muting : Muting) (data : MessageListData) :
    MessageListData :=
  { data with items := config.unmutedMessages muting data.allItems }

/-! ## New messages -/

def validNonDuplicatedMessages (config : MessageListConfig) (data : MessageListData)
    (messages : List Message) : List Message :=
  messages.filter fun message => (data.hash.get? message.id).isNone && config.predicate message

/-- Where a new message goes. -/
inductive Place where
  | top
  | interior
  | bottom
deriving DecidableEq

/-- A new message is compared with the last and the first message of the list. -/
def place (data : MessageListData) (message : Message) : Place :=
  match data.allItems.getLast?, data.allItems.head? with
  | some last, some first =>
      if last.id < message.id then .bottom
      else if message.id < first.id then .top
      else .interior
  | _, _ => .bottom

def placed (data : MessageListData) (messages : List Message) (place : Place) : List Message :=
  messages.filter fun message => data.place message = place

def addToHash (data : MessageListData) (messages : List Message) : MessageListData :=
  messages.foldl (fun data message =>
    { data with
      localOnly :=
        if isLocalonlyId message.id then insert message.id data.localOnly else data.localOnly
      hash :=
        if (data.hash.get? message.id).isSome then data.hash
        else data.hash.set message.id message }) data

def addAnywhere (config : MessageListConfig) (muting : Muting) (data : MessageListData)
    (messages : List Message) : MessageListData :=
  addToHash
    { data with
      allItems := sortByKey Message.id (messages ++ data.allItems)
      items := sortByKey Message.id (config.unmutedMessages muting messages ++ data.items) }
    messages

def append (config : MessageListConfig) (muting : Muting) (data : MessageListData)
    (messages : List Message) : MessageListData :=
  addToHash
    { data with
      allItems := data.allItems ++ messages
      items := data.items ++ config.unmutedMessages muting messages }
    messages

def prepend (config : MessageListConfig) (muting : Muting) (data : MessageListData)
    (messages : List Message) : MessageListData :=
  addToHash
    { data with
      allItems := messages ++ data.allItems
      items := config.unmutedMessages muting messages ++ data.items }
    messages

def addMessages (config : MessageListConfig) (muting : Muting) (data : MessageListData)
    (messages : List Message) : MessageListData :=
  let messages := data.validNonDuplicatedMessages config messages
  let bottomMessages := data.placed messages .bottom
  let topMessages := data.placed messages .top
  let interiorMessages := data.placed messages .interior
  let withInterior :=
    if interiorMessages.isEmpty then data else data.addAnywhere config muting interiorMessages
  let withTop :=
    if topMessages.isEmpty then withInterior else withInterior.prepend config muting topMessages
  if bottomMessages.isEmpty then withTop else withTop.append config muting bottomMessages

/-! ## Removed messages -/

def remove (data : MessageListData) (messageIds : List ℚ) : MessageListData :=
  { data with
    hash := messageIds.foldl Dict.erase data.hash
    localOnly := messageIds.foldl Finset.erase data.localOnly
    items := data.items.filter fun message => !messageIds.contains message.id
    allItems := data.allItems.filter fun message => !messageIds.contains message.id }

/-! ## Acknowledged messages -/

/-- The position of a message, or -1. -/
def indexOf (messages : List Message) (message : Message) : ℤ :=
  if message ∈ messages then messages.idxOf message else -1

/-- The first message after a position that is not a local echo. -/
def nextNonlocalMessage (messages : List Message) (index : ℤ) : Option Message :=
  (messages.drop (index + 1).toNat).find? fun message => !isLocalonlyId message.id

/-- The last message before a position that is not a local echo. -/
def prevNonlocalMessage (messages : List Message) (index : ℤ) : Option Message :=
  (messages.take index.toNat).reverse.find? fun message => !isLocalonlyId message.id

def reorderMessages (data : MessageListData) (newId : ℚ) : MessageListData × Bool :=
  match data.hash.get? newId with
  | none => (data, false)
  | some currentMessage =>
      let index := indexOf data.items currentMessage
      let next := nextNonlocalMessage data.items index
      let prev := prevNonlocalMessage data.items index
      if next.any (fun next => decide (next.id < currentMessage.id)) ||
          prev.any (fun prev => decide (currentMessage.id < prev.id)) then
        ({ data with
            items := sortByKey Message.id data.items
            allItems := sortByKey Message.id data.allItems }, true)
      else (data, false)

/-- Change the id of a message. The message of the lists, which is one object for all of them, has
got the new id before. -/
def changeMessageId (data : MessageListData) (oldId newId : ℚ) : MessageListData × Bool :=
  match data.hash.get? oldId with
  | none => (data, false)
  | some message =>
      let renamed := { message with id := newId }
      let rename := fun item : Message => if item = message then renamed else item
      let localOnly :=
        if oldId ∈ data.localOnly then
          (if isLocalonlyId newId then insert newId data.localOnly else data.localOnly).erase oldId
        else data.localOnly
      reorderMessages
        { allItems := data.allItems.map rename
          items := data.items.map rename
          hash := (data.hash.erase oldId).set newId renamed
          localOnly
          selectedId := if data.selectedId = oldId then newId else data.selectedId } newId

end MessageListData

end Zulip.Client
