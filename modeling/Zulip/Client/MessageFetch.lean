import Mathlib.Data.Rat.Floor
import Zulip.Client.MessageListData
import Zulip.Narrow.FlagUpdates

/-!
# Fetching messages

A message list gets its messages in pages that it fetches from the server and, once it has found the
newest messages, from the events about new messages. The fetch status remembers the largest message
that was discarded before.
-/

namespace Zulip.Client

open Narrow

def maxIdForMessages (messages : List Message) : ℚ :=
  messages.foldl (fun maxId message => max maxId message.id) 0

structure FetchStatus where
  loadingOlder : Bool
  loadingNewer : Bool
  foundOldest : Bool
  foundNewest : Bool
  historyLimited : Bool
  expectedMaxMessageId : ℚ
deriving DecidableEq

namespace FetchStatus

def new : FetchStatus := ⟨false, false, false, false, false, 0⟩

def startOlderBatch (status : FetchStatus) : FetchStatus := { status with loadingOlder := true }

def finishOlderBatch (status : FetchStatus) (foundOldest historyLimited : Bool) : FetchStatus :=
  { status with loadingOlder := false, foundOldest, historyLimited }

def startNewerBatch (status : FetchStatus) : FetchStatus := { status with loadingNewer := true }

/-- Whether the caller needs to fetch again, since the page misses a message that was discarded. -/
def finishNewerBatch (status : FetchStatus) (messages : List Message) (foundNewest : Bool) :
    FetchStatus × Bool :=
  let foundMaxMessageId := maxIdForMessages messages
  let finished := { status with loadingNewer := false, foundNewest }
  if foundNewest && decide (foundMaxMessageId < status.expectedMaxMessageId) then
    ({ finished with foundNewest := false, expectedMaxMessageId := 0 }, true)
  else (finished, false)

def canLoadNewerMessages (status : FetchStatus) : Bool :=
  !status.loadingNewer && !status.foundNewest

def updateExpectedMaxMessageId (status : FetchStatus) (messages : List Message) : FetchStatus :=
  { status with
    expectedMaxMessageId := max status.expectedMaxMessageId (maxIdForMessages messages) }

end FetchStatus

/-! ## The server -/

structure ServerMessage where
  id : ℤ
  body : MessageBody
deriving DecidableEq

/-- The message as the client has it. -/
def ServerMessage.toClient (message : ServerMessage) : Message := ⟨message.id, message.body⟩

/-- The messages that have been sent. -/
structure ServerLog where
  messages : List ServerMessage
  increasing : Increasing ServerMessage.id messages
  positive : ∀ message ∈ messages, 0 < message.id
  belowMax : ∀ message ∈ messages, message.id < largerThanMaxMessageId

namespace ServerLog

/-- The message can be sent next. -/
def Accepts (log : ServerLog) (message : ServerMessage) : Prop :=
  (∀ other ∈ log.messages, other.id < message.id) ∧ 0 < message.id ∧
    message.id < largerThanMaxMessageId

instance (log : ServerLog) (message : ServerMessage) : Decidable (log.Accepts message) :=
  inferInstanceAs (Decidable ((∀ other ∈ log.messages, other.id < message.id) ∧ 0 < message.id ∧
    message.id < largerThanMaxMessageId))

def send (log : ServerLog) (message : ServerMessage) (accepts : log.Accepts message) :
    ServerLog where
  messages := log.messages ++ [message]
  increasing := by
    refine Increasing.append.mpr ⟨log.increasing, List.pairwise_singleton _ _, ?_⟩
    intro other member last isLast
    rw [List.mem_singleton.mp isLast]
    exact accepts.1 other member
  positive other member := by
    rcases List.mem_append.mp member with old | new
    · exact log.positive other old
    · rw [List.mem_singleton.mp new]
      exact accepts.2.1
  belowMax other member := by
    rcases List.mem_append.mp member with old | new
    · exact log.belowMax other old
    · rw [List.mem_singleton.mp new]
      exact accepts.2.2

/-- The messages that match a narrow. -/
def matching (log : ServerLog) (narrow : ServerMessage → Bool) :
    MatchingRows ServerMessage ServerMessage.id where
  rows := log.messages.filter narrow
  distinct := (log.increasing.filter narrow).nodup_map
  positive message member := log.positive message (List.mem_filter.mp member).1
  belowMax message member := log.belowMax message (List.mem_filter.mp member).1

end ServerLog

/-! ## The client -/

/-- `consts.narrow_before` and the other batch sizes. -/
def narrowBefore : ℕ := 60
def narrowAfter : ℕ := 150
def narrowedViewForwardBatchSize : ℕ := 100

/-- What the server has answered, and how many messages it had then. -/
structure FetchResponse where
  page : LimitedMessages ServerMessage
  answeredAt : ℕ

/-- A request for newer messages. The continuation of `load_messages_for_narrow` is not that of
`maybe_load_newer_messages`. -/
structure Fetch where
  anchor : AnchorValue
  numBefore : ℕ
  numAfter : ℕ
  forNarrow : Bool
  response : Option FetchResponse

/-- What does not change in the current message list. The server finds all messages of the list, and
more than those where the list does not send its narrow. -/
structure CurrentList where
  config : MessageListConfig
  muting : Muting
  isCombinedFeedView : Bool
  narrow : ServerMessage → Bool
  finds : ∀ message, config.predicate message.toClient = true → narrow message = true

/-- The server and the current message list; `pages` are the messages of all pages so far. -/
structure FetchState where
  log : ServerLog
  delivered : ℕ
  data : MessageListData
  fetchStatus : FetchStatus
  newerFetch : Option Fetch
  pages : List Message

/-- What happens to the server and the client. -/
inductive FetchAction where
  | send (message : ServerMessage)
  | deliver (count : ℕ)
  | scroll
  | answer (firstUnread : ℤ)
  | retry
  | reject
  | receive
deriving DecidableEq

namespace FetchState

variable (current : CurrentList)

/-- Start a fetch. -/
def loadMessages (state : FetchState) (fetch : Fetch) : FetchState :=
  let older :=
    if fetch.numBefore > 0 then state.fetchStatus.startOlderBatch else state.fetchStatus
  let newer := if fetch.numAfter > 0 then older.startNewerBatch else older
  { state with fetchStatus := newer, newerFetch := some { fetch with response := none } }

/-- The anchor of a fetch after the last message, as an integer. -/
def getFrontfillAnchor (data : MessageListData) : AnchorValue :=
  match data.allItems.getLast? with
  | some lastMessage => .number ⌊lastMessage.id + 1 / 2⌋
  | none => .oldest

def maybeLoadNewerMessages (state : FetchState) : FetchState :=
  if !state.fetchStatus.canLoadNewerMessages then state
  else
    state.loadMessages
      ⟨getFrontfillAnchor state.data, 0, narrowedViewForwardBatchSize, false, none⟩

/-- Messages of events are discarded while there may be messages before them to fetch. -/
def addNewMessages (state : FetchState) (messages : List Message) : FetchState :=
  if !state.fetchStatus.foundNewest then
    { state with fetchStatus := state.fetchStatus.updateExpectedMaxMessageId messages }
  else { state with data := state.data.addMessages current.config current.muting messages }

/-- What the server answers. -/
def fetchPage (state : FetchState) (fetch : Fetch) (firstUnread : ℤ) :
    LimitedMessages ServerMessage :=
  fetchMessages ServerMessage.id (state.log.matching current.narrow).rows fetch.numBefore
    fetch.numAfter ((parseAnchorValue fetch.anchor).getD firstUnread) true 0

/-- The fetch status after a page, and whether to fetch again. -/
def finishBatches (status : FetchStatus) (fetch : Fetch) (page : LimitedMessages ServerMessage) :
    FetchStatus × Bool :=
  let currentFetchFoundNewest := !status.foundNewest && page.foundNewest
  let currentFetchFoundOldest := !status.foundOldest && page.foundOldest
  let older :=
    if decide (fetch.numBefore > 0) || currentFetchFoundOldest then
      status.finishOlderBatch page.foundOldest page.historyLimited
    else status
  if decide (fetch.numAfter > 0) || currentFetchFoundNewest then
    older.finishNewerBatch (page.rows.map ServerMessage.toClient) page.foundNewest
  else (older, false)

/-- Process a page: add its messages, and fetch more when the list looks empty or when the
continuation of the fetch does so. -/
def getMessagesSuccess (state : FetchState) (fetch : Fetch) (page : LimitedMessages ServerMessage) :
    FetchState :=
  let messages := page.rows.map ServerMessage.toClient
  let finished := finishBatches state.fetchStatus fetch page
  let data :=
    if messages.isEmpty then state.data
    else state.data.addMessages current.config current.muting messages
  let received :=
    { state with
      data, fetchStatus := finished.1, newerFetch := none, pages := state.pages ++ messages }
  let filled :=
    if !current.isCombinedFeedView && data.items.isEmpty && decide (fetch.numAfter > 0) &&
        !finished.1.foundNewest then received.maybeLoadNewerMessages
    else received
  if !fetch.forNarrow && finished.2 then filled.maybeLoadNewerMessages else filled

/-- The state after an action, if it can happen. -/
def perform (state : FetchState) : FetchAction → Option FetchState
  | .send message =>
      if accepts : state.log.Accepts message then
        some { state with log := state.log.send message accepts }
      else none
  | .deliver count =>
      if state.delivered + count ≤ state.log.messages.length then
        some (addNewMessages current { state with delivered := state.delivered + count }
          (((state.log.messages.drop state.delivered).take count).map ServerMessage.toClient))
      else none
  | .scroll => some state.maybeLoadNewerMessages
  | .answer firstUnread =>
      match state.newerFetch with
      | some ⟨anchor, numBefore, numAfter, forNarrow, none⟩ =>
          let fetch : Fetch := ⟨anchor, numBefore, numAfter, forNarrow, none⟩
          some { state with
            newerFetch := some { fetch with
              response := some
                ⟨state.fetchPage current fetch firstUnread, state.log.messages.length⟩ } }
      | _ => none
  -- The request fails, and is sent again later.
  | .retry => state.newerFetch.map state.loadMessages
  -- A bad request is not sent again.
  | .reject => state.newerFetch.map fun _ => { state with newerFetch := none }
  | .receive =>
      state.newerFetch.bind fun fetch => fetch.response.map fun response =>
        state.getMessagesSuccess current fetch response.page

/-- One action. -/
def Step (state : FetchState) (action : FetchAction) (next : FetchState) : Prop :=
  state.perform current action = some next

/-- A new message list whose messages are being fetched. -/
def loadMessagesForNarrow (log : ServerLog) (delivered : ℕ) (anchor : AnchorValue) : FetchState :=
  loadMessages ⟨log, delivered, MessageListData.empty, FetchStatus.new, none, []⟩
    ⟨anchor, narrowBefore, narrowAfter, true, none⟩

end FetchState

end Zulip.Client
