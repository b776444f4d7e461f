import Mathlib.Data.List.Basic
import Mathlib.Data.Nat.Notation
import Zulip.Foundation.Program
import Zulip.Foundation.Transition

/-!
# The edit history of messages

An edit changes its message, and may move other messages of the topic; the events of the history
keep what was there before. `editHistory_always_iff`: the history tells the states of all messages
exactly when no edit of a topic reaches a message that stores the topic with another case.
-/

namespace Zulip.Messages

structure PrevTopic where
  prevTopic : String
  topic : String
deriving DecidableEq

structure PrevContent where
  prevContent : String
  prevRenderedContent : Option String
  prevRenderedContentVersion : Option ℕ
deriving DecidableEq

structure PrevStream where
  prevStream : ℕ
  stream : ℕ
deriving DecidableEq

/-- An `EditHistoryEvent`, with the keys that stand together. -/
structure EditHistoryEvent where
  userId : ℕ
  timestamp : ℕ
  topic : Option PrevTopic
  content : Option PrevContent
  stream : Option PrevStream
deriving DecidableEq

/-- A message of a stream; times are in microseconds. -/
structure StreamMessage where
  id : ℕ
  streamId : ℕ
  senderId : ℕ
  dateSent : ℕ
  subject : String
  content : String
  renderedContent : Option String
  renderedContentVersion : Option ℕ
  lastEditTime : Option ℕ
  editHistory : Option (List EditHistoryEvent)
deriving DecidableEq

inductive EditError where
  | doesNotExist
  | assertionError
deriving DecidableEq

def datetimeToTimestamp (datetime : ℕ) : ℕ := datetime / 1000000

/-! ## Reading the history -/

structure FormattedEditHistoryEvent where
  content : String
  renderedContent : Option String
  timestamp : ℕ
  topic : String
  userId : ℕ
  prevTopic : Option String
  prevContent : Option String
  prevRenderedContent : Option String
  contentHtmlDiff : Option String
  stream : Option PrevStream
deriving DecidableEq

section Reading

variable (highlightHtmlDifferences : String → String → ℕ → String)

/-- The difference to the previous content; both have to be rendered. -/
def contentHtmlDiff (messageId : ℕ) :
    Option PrevContent → Option String → Except EditError (Option String)
  | none, _ => .ok none
  | some ⟨_, some prevRenderedContent, _⟩, some renderedContent =>
      .ok (some (highlightHtmlDifferences prevRenderedContent renderedContent messageId))
  | some _, _ => .error .assertionError

/-- The loop of `fill_edit_history_entries`, with `prev_content`, `prev_rendered_content` and
`prev_topic_name`. -/
def fillEntries (message : StreamMessage) : List EditHistoryEvent → String → Option String →
    String → Except EditError (List FormattedEditHistoryEvent)
  | [], content, renderedContent, topic =>
      .ok [{
        content, renderedContent, topic
        timestamp := datetimeToTimestamp message.dateSent
        userId := message.senderId
        prevTopic := none
        prevContent := none
        prevRenderedContent := none
        contentHtmlDiff := none
        stream := none }]
  | event :: rest, content, renderedContent, topic => do
      let contentHtmlDiff ←
        contentHtmlDiff highlightHtmlDifferences message.id event.content renderedContent
      let entries ← fillEntries message rest (event.content.elim content PrevContent.prevContent)
        (event.content.elim renderedContent PrevContent.prevRenderedContent)
        (event.topic.elim topic PrevTopic.prevTopic)
      return {
        content, renderedContent, topic, contentHtmlDiff
        timestamp := event.timestamp
        userId := event.userId
        prevTopic := event.topic.map PrevTopic.prevTopic
        prevContent := event.content.map PrevContent.prevContent
        prevRenderedContent := event.content.bind PrevContent.prevRenderedContent
        stream := event.stream } :: entries

def fillEditHistoryEntries (rawEditHistory : List EditHistoryEvent) (message : StreamMessage) :
    Except EditError (List FormattedEditHistoryEvent) :=
  if rawEditHistory.head?.all fun latest =>
      message.lastEditTime.map datetimeToTimestamp == some latest.timestamp then
    fillEntries highlightHtmlDifferences message rawEditHistory message.content
      message.renderedContent message.subject
  else .error .assertionError

end Reading

/-! ## Writing the history -/

inductive PropagateMode where
  | changeOne
  | changeLater
  | changeAll
deriving DecidableEq

structure RenderedContent where
  content : String
  renderedContent : String
  version : ℕ

/-- A call of `do_update_message` at a time, with the messages that
`bulk_access_stream_messages_query` lets through. -/
structure MessageUpdate where
  userId : ℕ
  messageId : ℕ
  time : ℕ
  newStream : Option ℕ
  topicName : Option String
  propagateMode : PropagateMode
  content : Option RenderedContent
  isAccessible : ℕ → Bool

def truncateTopic (topicName : String) : String :=
  if 60 < topicName.length then String.ofList (topicName.toList.take 57) ++ "..." else topicName

namespace MessageUpdate

variable (update : MessageUpdate)

/-- The topic, as it is stored. -/
def newSubject (message : StreamMessage) : String :=
  update.topicName.elim message.subject truncateTopic

/-- `edit_history_event` -/
def editHistoryEvent (target : StreamMessage) : EditHistoryEvent where
  userId := update.userId
  timestamp := datetimeToTimestamp update.time
  topic := update.topicName.map fun topicName => ⟨target.subject, truncateTopic topicName⟩
  content := update.content.map fun _ =>
    ⟨target.content, target.renderedContent, target.renderedContentVersion⟩
  stream := update.newStream.map fun newStream => ⟨target.streamId, newStream⟩

/-- `topic_only_edit_history_event` -/
def topicOnlyEditHistoryEvent (target : StreamMessage) : EditHistoryEvent :=
  { update.editHistoryEvent target with content := none }

/-- The edited message. -/
def editTarget (message : StreamMessage) : StreamMessage :=
  { message with
    streamId := update.newStream.getD message.streamId
    subject := update.newSubject message
    content := update.content.elim message.content RenderedContent.content
    renderedContent :=
      update.content.elim message.renderedContent fun new => some new.renderedContent
    renderedContentVersion :=
      update.content.elim message.renderedContentVersion fun new => some new.version
    lastEditTime := some update.time
    editHistory := match message.editHistory with
      | some editHistory => some (update.editHistoryEvent message :: editHistory)
      | none => some [update.editHistoryEvent message] }

/-- The messages that `update_messages_for_topic_edit` selects. -/
def propagates (upper : String → String) (target message : StreamMessage) : Bool :=
  message.streamId == target.streamId && upper message.subject == upper target.subject &&
    (match update.propagateMode with
      | .changeOne => false
      | .changeLater => decide (target.id < message.id)
      | .changeAll => message.id != target.id) &&
    (update.newStream.isNone || update.isAccessible message.id)

/-- The update of a selected message in the database. -/
def propagate (target message : StreamMessage) : StreamMessage :=
  { message with
    streamId := update.newStream.getD message.streamId
    subject := update.newSubject message
    lastEditTime := some update.time
    editHistory :=
      some ([update.topicOnlyEditHistoryEvent target] ++ message.editHistory.getD []) }

def applyTo (upper : String → String) (target message : StreamMessage) : StreamMessage :=
  if message.id = target.id then update.editTarget message
  else if update.propagates upper target message then update.propagate target message
  else message

end MessageUpdate

/-- The part of `do_update_message` that writes messages of streams. -/
def doUpdateMessage (upper : String → String) (update : MessageUpdate)
    (messages : List StreamMessage) : Except EditError (List StreamMessage) :=
  match messages.find? fun message => message.id == update.messageId with
  | none => .error .doesNotExist
  | some target =>
      -- Content is not edited in a move, and other messages change only when something moves.
      if update.newStream.isSome ∧ update.content.isSome ∨
          update.propagateMode ≠ .changeOne ∧ update.topicName.isNone ∧ update.newStream.isNone then
        .error .assertionError
      else .ok (messages.map (update.applyTo upper target))

/-! ## The states of messages -/

/-- A state that a message was in. -/
structure MessageState where
  content : String
  topic : String
  userId : ℕ
  timestamp : ℕ
deriving DecidableEq

def FormattedEditHistoryEvent.state (entry : FormattedEditHistoryEvent) : MessageState :=
  ⟨entry.content, entry.topic, entry.userId, entry.timestamp⟩

/-- A message, with the states that it was in, newest first. -/
structure TrackedMessage where
  message : StreamMessage
  states : List MessageState

/-- A message that an update has changed is in a new state. -/
def TrackedMessage.become (tracked : TrackedMessage) (update : MessageUpdate)
    (message : StreamMessage) : TrackedMessage where
  message := message
  states :=
    if message = tracked.message then tracked.states
    else ⟨message.content, message.subject, update.userId, datetimeToTimestamp update.time⟩ ::
      tracked.states

/-- An update that succeeds. -/
def EditStep (upper : String → String) (before : List TrackedMessage) (update : MessageUpdate)
    (after : List TrackedMessage) : Prop :=
  ∃ messages, doUpdateMessage upper update (before.map TrackedMessage.message) = .ok messages ∧
    after = List.zipWith (fun tracked message => tracked.become update message) before messages

/-- A message as it is sent. -/
structure SentMessage where
  id : ℕ
  streamId : ℕ
  senderId : ℕ
  dateSent : ℕ
  subject : String
  rendered : RenderedContent

def SentMessage.tracked (sent : SentMessage) : TrackedMessage where
  message :=
    { id := sent.id
      streamId := sent.streamId
      senderId := sent.senderId
      dateSent := sent.dateSent
      subject := sent.subject
      content := sent.rendered.content
      renderedContent := some sent.rendered.renderedContent
      renderedContentVersion := some sent.rendered.version
      lastEditTime := none
      editHistory := none }
  states := [⟨sent.rendered.content, sent.subject, sent.senderId,
    datetimeToTimestamp sent.dateSent⟩]

/-- The history is read without an exception, and tells the states of the message. -/
def TrackedMessage.Faithful (highlightHtmlDifferences : String → String → ℕ → String)
    (tracked : TrackedMessage) : Prop :=
  ∃ entries, fillEditHistoryEntries highlightHtmlDifferences
      (tracked.message.editHistory.getD []) tracked.message = .ok entries ∧
    entries.map FormattedEditHistoryEvent.state = tracked.states

/-- Other messages that an edit of a topic reaches store the topic with the same case. -/
def SameCase (upper : String → String) (before : List TrackedMessage)
    (update : MessageUpdate) : Prop :=
  ∀ target, (before.map TrackedMessage.message).find?
      (fun message => message.id == update.messageId) = some target →
    update.topicName.isSome = true →
    ∀ tracked ∈ before, tracked.message.id ≠ target.id →
      update.propagates upper target tracked.message = true →
      tracked.message.subject = target.subject

/-! ## Replaying the history -/

/-- The states that the previous values lead back to. -/
def replay (message : StreamMessage) :
    List EditHistoryEvent → String → String → List MessageState
  | [], content, topic =>
      [⟨content, topic, message.senderId, datetimeToTimestamp message.dateSent⟩]
  | event :: rest, content, topic =>
      ⟨content, topic, event.userId, event.timestamp⟩ ::
        replay message rest (event.content.elim content PrevContent.prevContent)
          (event.topic.elim topic PrevTopic.prevTopic)

/-- The topic that a replay starts from is in its first state. -/
theorem replay_inj {message : StreamMessage} {history : List EditHistoryEvent}
    {content first second : String} :
    replay message history content first = replay message history content second ↔
      first = second := by
  constructor
  · intro same
    cases history with
    | nil =>
        rw [replay, replay, List.cons.injEq, MessageState.mk.injEq] at same
        exact same.1.2.1
    | cons event rest =>
        rw [replay, replay, List.cons.injEq, MessageState.mk.injEq] at same
        exact same.1.2.1
  · intro same
    rw [same]

/-- All contents of a history are rendered. -/
def AllRendered (history : List EditHistoryEvent) : Prop :=
  ∀ event ∈ history, ∀ prev ∈ event.content, prev.prevRenderedContent.isSome = true

variable {highlightHtmlDifferences : String → String → ℕ → String} {upper : String → String}

theorem exists_contentHtmlDiff {messageId : ℕ} {content : Option PrevContent}
    {renderedContent : Option String} (rendered : renderedContent.isSome = true)
    (prevRendered : ∀ prev ∈ content, prev.prevRenderedContent.isSome = true) :
    ∃ diff, contentHtmlDiff highlightHtmlDifferences messageId content renderedContent =
      .ok diff := by
  cases content with
  | none => exact ⟨none, rfl⟩
  | some prev =>
      obtain ⟨text, isText⟩ := Option.isSome_iff_exists.mp rendered
      obtain ⟨prevText, isPrevText⟩ := Option.isSome_iff_exists.mp (prevRendered prev rfl)
      obtain ⟨prevContent, prevRenderedContent, version⟩ := prev
      dsimp only at isPrevText
      rw [isText, isPrevText]
      exact ⟨_, rfl⟩

/-- Reading a history of rendered contents replays it. -/
theorem fillEntries_eq_replay {message : StreamMessage} {history : List EditHistoryEvent}
    {content : String} {renderedContent : Option String} {topic : String}
    (rendered : renderedContent.isSome = true) (allRendered : AllRendered history) :
    ∃ entries, fillEntries highlightHtmlDifferences message history content renderedContent topic =
        .ok entries ∧
      entries.map FormattedEditHistoryEvent.state = replay message history content topic := by
  induction history generalizing content renderedContent topic with
  | nil => exact ⟨_, rfl, rfl⟩
  | cons event rest inductionHypothesis =>
      have prevRendered := allRendered event List.mem_cons_self
      have nextRendered : (event.content.elim renderedContent
          PrevContent.prevRenderedContent).isSome = true := by
        cases isContent : event.content with
        | none => exact rendered
        | some prev => exact prevRendered prev isContent
      obtain ⟨diff, isDiff⟩ := @exists_contentHtmlDiff highlightHtmlDifferences message.id _ _
        rendered prevRendered
      obtain ⟨entries, isEntries, states⟩ := @inductionHypothesis
        (event.content.elim content PrevContent.prevContent) _
        (event.topic.elim topic PrevTopic.prevTopic) nextRendered
        fun event member => allRendered event (List.mem_cons_of_mem _ member)
      rw [fillEntries, isDiff]
      dsimp only [bind, Except.bind]
      rw [isEntries]
      refine ⟨_, rfl, ?_⟩
      rw [List.map_cons, states]
      rfl

/-- What edits keep of a message. -/
structure StreamMessage.WellKept (message : StreamMessage) : Prop where
  rendered : message.renderedContent.isSome = true
  allRendered : AllRendered (message.editHistory.getD [])
  latest : ∀ event ∈ (message.editHistory.getD []).head?,
    message.lastEditTime.map datetimeToTimestamp = some event.timestamp

theorem faithful_iff {tracked : TrackedMessage} (wellKept : tracked.message.WellKept) :
    tracked.Faithful highlightHtmlDifferences ↔
      replay tracked.message (tracked.message.editHistory.getD []) tracked.message.content
        tracked.message.subject = tracked.states := by
  obtain ⟨entries, isEntries, states⟩ := @fillEntries_eq_replay highlightHtmlDifferences
    tracked.message _ tracked.message.content _ tracked.message.subject wellKept.rendered
      wellKept.allRendered
  have latest : ((tracked.message.editHistory.getD []).head?.all fun latest =>
      tracked.message.lastEditTime.map datetimeToTimestamp == some latest.timestamp) = true := by
    rw [Option.all_eq_true]
    exact fun event isLatest => beq_iff_eq.mpr (wellKept.latest event isLatest)
  rw [TrackedMessage.Faithful, fillEditHistoryEntries, if_pos latest, isEntries, ← states]
  constructor
  · rintro ⟨others, same, isStates⟩
    cases same
    exact isStates
  · exact fun isStates => ⟨entries, rfl, isStates⟩

/-! ## One update -/

section Updates

variable {update : MessageUpdate} {target message : StreamMessage}

theorem editTarget_editHistory (update : MessageUpdate) (message : StreamMessage) :
    (update.editTarget message).editHistory =
      some (update.editHistoryEvent message :: message.editHistory.getD []) := by
  rw [MessageUpdate.editTarget]
  cases message.editHistory <;> rfl

theorem wellKept_editTarget (wellKept : message.WellKept) :
    (update.editTarget message).WellKept where
  rendered := by
    rw [MessageUpdate.editTarget]
    cases update.content with
    | none => exact wellKept.rendered
    | some new => rfl
  allRendered := by
    rw [editTarget_editHistory, Option.getD_some]
    refine List.forall_mem_cons.mpr ⟨?_, wellKept.allRendered⟩
    intro prev isPrev
    obtain ⟨new, -, rfl⟩ := Option.map_eq_some_iff.mp isPrev
    exact wellKept.rendered
  latest event isLatest := by
    rw [editTarget_editHistory, Option.getD_some, List.head?_cons] at isLatest
    cases isLatest
    rfl

theorem wellKept_propagate (wellKept : message.WellKept) :
    (update.propagate target message).WellKept where
  rendered := wellKept.rendered
  allRendered := by
    refine List.forall_mem_cons.mpr ⟨?_, wellKept.allRendered⟩
    intro prev isPrev
    cases isPrev
  latest event isLatest := by
    cases isLatest
    rfl

theorem editTarget_ne : update.editTarget message ≠ message := by
  intro same
  have history := congrArg StreamMessage.editHistory same
  rw [editTarget_editHistory] at history
  rw [← history, Option.getD_some] at history
  exact List.cons_ne_self _ _ (Option.some.inj history)

theorem propagate_ne : update.propagate target message ≠ message := by
  intro same
  have history : some (update.topicOnlyEditHistoryEvent target :: message.editHistory.getD []) =
      message.editHistory := congrArg StreamMessage.editHistory same
  rw [← history, Option.getD_some] at history
  exact List.cons_ne_self _ _ (Option.some.inj history)

theorem replay_congr {first second : StreamMessage} (senderId : first.senderId = second.senderId)
    (dateSent : first.dateSent = second.dateSent) {history : List EditHistoryEvent}
    {content topic : String} :
    replay first history content topic = replay second history content topic := by
  induction history generalizing content topic with
  | nil => rw [replay, replay, senderId, dateSent]
  | cons event rest inductionHypothesis => rw [replay, replay, inductionHypothesis]

/-- An edit of the message itself leads back to what it was before. -/
theorem replay_editTarget (update : MessageUpdate) (message : StreamMessage) :
    replay (update.editTarget message) ((update.editTarget message).editHistory.getD [])
        (update.editTarget message).content (update.editTarget message).subject =
      ⟨(update.editTarget message).content, (update.editTarget message).subject, update.userId,
          datetimeToTimestamp update.time⟩ ::
        replay message (message.editHistory.getD []) message.content message.subject := by
  have contentBack : (update.editHistoryEvent message).content.elim
      (update.editTarget message).content PrevContent.prevContent = message.content := by
    rw [MessageUpdate.editHistoryEvent, MessageUpdate.editTarget]
    cases update.content <;> rfl
  have topicBack : (update.editHistoryEvent message).topic.elim
      (update.editTarget message).subject PrevTopic.prevTopic = message.subject := by
    rw [MessageUpdate.editHistoryEvent, MessageUpdate.editTarget, MessageUpdate.newSubject]
    cases update.topicName <;> rfl
  rw [editTarget_editHistory, Option.getD_some, replay, contentBack, topicBack,
    @replay_congr (update.editTarget message) message rfl rfl]
  rfl

/-- An edit of another message leads back to the topic of that one. -/
theorem replay_propagate (update : MessageUpdate) (target message : StreamMessage) :
    replay (update.propagate target message)
        ((update.propagate target message).editHistory.getD [])
        (update.propagate target message).content (update.propagate target message).subject =
      ⟨(update.propagate target message).content, (update.propagate target message).subject,
          update.userId, datetimeToTimestamp update.time⟩ ::
        replay message (message.editHistory.getD []) message.content
          (update.topicName.elim message.subject fun _ => target.subject) := by
  have topicBack : (update.topicOnlyEditHistoryEvent target).topic.elim
      (update.propagate target message).subject PrevTopic.prevTopic =
        update.topicName.elim message.subject fun _ => target.subject := by
    rw [MessageUpdate.topicOnlyEditHistoryEvent, MessageUpdate.editHistoryEvent,
      MessageUpdate.propagate, MessageUpdate.newSubject]
    cases update.topicName <;> rfl
  have history : (update.propagate target message).editHistory.getD [] =
      update.topicOnlyEditHistoryEvent target :: message.editHistory.getD [] := rfl
  rw [history, replay, topicBack, @replay_congr (update.propagate target message) message rfl rfl]
  rfl

/-! ## Runs of updates -/

/-- An update leaves every message well kept. -/
theorem wellKept_applyTo (wellKept : message.WellKept) :
    (update.applyTo upper target message).WellKept := by
  rw [MessageUpdate.applyTo]
  split_ifs
  · exact wellKept_editTarget wellKept
  · exact wellKept_propagate wellKept
  · exact wellKept

/-- One message: the history stays faithful exactly when an edit of another message that reaches it
has its topic with the same case. -/
theorem faithful_become_iff {tracked : TrackedMessage} (wellKept : tracked.message.WellKept)
    (faithful : tracked.Faithful highlightHtmlDifferences) :
    (tracked.become update (update.applyTo upper target tracked.message)).Faithful
        highlightHtmlDifferences ↔
      (update.topicName.isSome = true → tracked.message.id ≠ target.id →
        update.propagates upper target tracked.message = true →
        tracked.message.subject = target.subject) := by
  rw [faithful_iff wellKept] at faithful
  rw [faithful_iff (wellKept_applyTo wellKept), TrackedMessage.become]
  dsimp only
  by_cases isTarget : tracked.message.id = target.id
  · rw [MessageUpdate.applyTo, if_pos isTarget, if_neg editTarget_ne, replay_editTarget, faithful]
    exact iff_of_true rfl fun _ other => absurd isTarget other
  · by_cases reached : update.propagates upper target tracked.message = true
    · rw [MessageUpdate.applyTo, if_neg isTarget, if_pos reached, if_neg propagate_ne,
        replay_propagate, List.cons.injEq, and_iff_right rfl, ← faithful, replay_inj]
      cases update.topicName with
      | none => simp
      | some topicName => simp [isTarget, reached, eq_comm]
    · rw [MessageUpdate.applyTo, if_neg isTarget, if_neg reached, if_pos rfl, faithful]
      exact iff_of_true rfl fun _ _ isReached => absurd isReached reached

/-- Assertions that `do_update_message` makes of its arguments. -/
def MessageUpdate.Fails (update : MessageUpdate) : Prop :=
  update.newStream.isSome ∧ update.content.isSome ∨
    update.propagateMode ≠ .changeOne ∧ update.topicName.isNone ∧ update.newStream.isNone

theorem editStep_of_find {before : List TrackedMessage}
    (found : (before.map TrackedMessage.message).find?
      (fun message => message.id == update.messageId) = some target)
    (succeeds : ¬update.Fails) :
    EditStep upper before update (before.map fun tracked =>
      tracked.become update (update.applyTo upper target tracked.message)) := by
  refine ⟨(before.map TrackedMessage.message).map (update.applyTo upper target), ?_, ?_⟩
  · rw [doUpdateMessage, found]
    exact if_neg succeeds
  · rw [List.map_map, List.zipWith_map_right, List.zipWith_self]
    rfl

/-- An update that succeeds, message by message. -/
theorem editStep_cases {before after : List TrackedMessage}
    (step : EditStep upper before update after) :
    ∃ target, (before.map TrackedMessage.message).find?
        (fun message => message.id == update.messageId) = some target ∧
      after = before.map fun tracked =>
        tracked.become update (update.applyTo upper target tracked.message) := by
  obtain ⟨messages, isMessages, rfl⟩ := step
  rw [doUpdateMessage] at isMessages
  cases found : (before.map TrackedMessage.message).find?
      fun message => message.id == update.messageId with
  | none =>
      rw [found] at isMessages
      cases isMessages
  | some target =>
      rw [found] at isMessages
      dsimp only at isMessages
      split_ifs at isMessages
      cases isMessages
      refine ⟨target, rfl, ?_⟩
      rw [List.map_map, List.zipWith_map_right, List.zipWith_self]
      rfl

end Updates

theorem wellKept_sent (sent : SentMessage) : sent.tracked.message.WellKept where
  rendered := rfl
  allRendered event member := by simp [SentMessage.tracked] at member
  latest event isLatest := by simp [SentMessage.tracked] at isLatest

theorem faithful_sent (sent : SentMessage) : sent.tracked.Faithful highlightHtmlDifferences :=
  (faithful_iff (wellKept_sent sent)).mpr rfl

/-- The histories of all messages tell their states, after every update of a run, exactly when no
update of a topic reaches a message that stores the topic with another case. -/
theorem editHistory_always_iff (highlightHtmlDifferences : String → String → ℕ → String)
    (upper : String → String) (sent : List SentMessage)
    {trace : List (List TrackedMessage × MessageUpdate)} {final : List TrackedMessage}
    (run : Run (EditStep upper) (sent.map SentMessage.tracked) trace final) :
    Run.Always (fun messages => ∀ tracked ∈ messages, tracked.Faithful highlightHtmlDifferences)
        trace final ↔
      ∀ visit ∈ trace, SameCase upper visit.1 visit.2 := by
  refine @Run.always_iff _ _ _ (fun messages => ∀ tracked ∈ messages, tracked.message.WellKept)
    _ _ _ _ _ run ?_ ?_ ?_ ?_
  · exact List.forall_mem_map.mpr fun sent _ => wellKept_sent sent
  · exact List.forall_mem_map.mpr fun sent _ => faithful_sent sent
  · intro before update after wellKept _ step _
    obtain ⟨target, -, rfl⟩ := editStep_cases step
    exact List.forall_mem_map.mpr fun tracked member => wellKept_applyTo (wellKept tracked member)
  · intro before update after wellKept faithful step
    obtain ⟨target, found, rfl⟩ := editStep_cases step
    rw [List.forall_mem_map, SameCase]
    constructor
    · intro stays other isOther topicName tracked member
      cases found.symm.trans isOther
      exact (faithful_become_iff (wellKept tracked member) (faithful tracked member)).mp
        (stays tracked member) topicName
    · intro sameCase tracked member
      exact (faithful_become_iff (wellKept tracked member) (faithful tracked member)).mpr
        fun topicName => sameCase target found topicName tracked member

/-- `UPPER`, for two ways to write a topic. -/
def lunchUpper (topic : String) : String :=
  if topic = "Lunch" ∨ topic = "lunch" then "LUNCH" else topic

def firstLunch : SentMessage := ⟨1, 5, 10, 1000000, "Lunch", ⟨"when?", "<p>when?</p>", 1⟩⟩

def secondLunch : SentMessage := ⟨2, 5, 11, 2000000, "lunch", ⟨"now", "<p>now</p>", 1⟩⟩

def moveLunch : MessageUpdate :=
  ⟨10, 1, 3000000, none, some "dinner", .changeAll, none, fun _ => true⟩

def laterLunch : SentMessage := ⟨3, 5, 12, 2500000, "Lunch", ⟨"soon", "<p>soon</p>", 1⟩⟩

def dinnerPlans : SentMessage := ⟨4, 5, 12, 2600000, "dinner", ⟨"pasta?", "<p>pasta?</p>", 1⟩⟩

def editLunch : MessageUpdate :=
  ⟨10, 1, 2700000, none, none, .changeOne, some ⟨"where?", "<p>where?</p>", 1⟩, fun _ => true⟩

def editLater : MessageUpdate :=
  ⟨12, 3, 4000000, none, none, .changeOne, some ⟨"at noon", "<p>at noon</p>", 1⟩, fun _ => true⟩

/-- The messages after an update of one of them. -/
def updated (before : List TrackedMessage) (update : MessageUpdate) (target : StreamMessage) :
    List TrackedMessage :=
  before.map fun tracked =>
    tracked.become update (update.applyTo lunchUpper target tracked.message)

theorem sameCase_of_find {before : List TrackedMessage} {update : MessageUpdate}
    {target : StreamMessage}
    (found : (before.map TrackedMessage.message).find?
      (fun message => message.id == update.messageId) = some target)
    (sameSubject : ∀ tracked ∈ before,
      update.propagates lunchUpper target tracked.message = true →
        tracked.message.subject = target.subject) :
    SameCase lunchUpper before update := by
  intro other isOther _ tracked member _ reaches
  cases found.symm.trans isOther
  exact sameSubject tracked member reaches

def lunchTopic : List TrackedMessage :=
  [firstLunch, laterLunch, dinnerPlans].map SentMessage.tracked

def lunchEdited : List TrackedMessage :=
  updated lunchTopic editLunch firstLunch.tracked.message

def lunchMoved : List TrackedMessage :=
  updated lunchEdited moveLunch (editLunch.applyTo lunchUpper firstLunch.tracked.message
    firstLunch.tracked.message)

/-- A message is edited, its topic is moved, and another message of the topic is edited. -/
theorem editHistory_always_iff_moved :
    ∃ final, Run (EditStep lunchUpper) lunchTopic
        [(lunchTopic, editLunch), (lunchEdited, moveLunch), (lunchMoved, editLater)] final ∧
      Run.Always (fun messages => ∀ tracked ∈ messages, tracked.Faithful fun _ new _ => new)
        [(lunchTopic, editLunch), (lunchEdited, moveLunch), (lunchMoved, editLater)] final := by
  have first : EditStep lunchUpper lunchTopic editLunch lunchEdited :=
    @editStep_of_find _ editLunch _ _ rfl (by rw [MessageUpdate.Fails]; decide)
  have second : EditStep lunchUpper lunchEdited moveLunch lunchMoved :=
    @editStep_of_find _ moveLunch _ _ rfl (by rw [MessageUpdate.Fails]; decide)
  have third : EditStep lunchUpper lunchMoved editLater _ :=
    @editStep_of_find _ editLater _ _ rfl (by rw [MessageUpdate.Fails]; decide)
  have run := Run.step (Run.step (Run.step .refl first) second) third
  refine ⟨_, run, (editHistory_always_iff (fun _ new _ => new) lunchUpper
    [firstLunch, laterLunch, dinnerPlans] run).mpr ?_⟩
  simp only [List.forall_mem_append, List.forall_mem_singleton, List.not_mem_nil, false_implies,
    implies_true, true_and]
  refine ⟨⟨?_, ?_⟩, ?_⟩
  · exact sameCase_of_find rfl (by decide +kernel)
  · exact sameCase_of_find rfl (by decide +kernel)
  · exact sameCase_of_find rfl (by decide +kernel)

/-- A message that stored the moved topic with another case gets the case of the edited message. -/
theorem otherCase_not_faithful :
    ∃ (trace : List (List TrackedMessage × MessageUpdate)) (final : List TrackedMessage),
      Run (EditStep lunchUpper) ([firstLunch, secondLunch].map SentMessage.tracked) trace final ∧
        ¬∀ tracked ∈ final, tracked.Faithful fun _ new _ => new := by
  have step : EditStep lunchUpper ([firstLunch, secondLunch].map SentMessage.tracked) moveLunch _ :=
    @editStep_of_find _ moveLunch firstLunch.tracked.message _ rfl
      (by rw [MessageUpdate.Fails]; decide)
  refine ⟨_, _, .step .refl step, fun faithful => ?_⟩
  have second := faithful _ (List.mem_map_of_mem
    (List.mem_cons_of_mem _ (List.mem_singleton_self secondLunch.tracked)))
  have sameCase := (faithful_become_iff (wellKept_sent secondLunch)
    (faithful_sent secondLunch)).mp second rfl (by decide) (by decide)
  exact absurd sameCase (by decide)

end Zulip.Messages
