import Mathlib
import Zulip.Narrow.Denotation

/-!
# Event narrows and fetched narrows

The narrow of an event queue is checked against events by `build_narrow_predicate`, and against the
database by `NarrowBuilder`. The two agree on one message unless a term tells them apart: mentions
and alert words are read off different flags, and names are compared differently.
-/

namespace Zulip.Narrow

open Zulip.Access Zulip.Messages

/-- A term of an event narrow, as the term of a fetch. -/
def termOfEvent (term : Tornado.NarrowTerm) : NarrowParameter :=
  { operator := term.operator, operand := .str term.operand }

/-- The terms that both sides support. -/
def SupportedByBoth (term : Tornado.NarrowTerm) : Prop :=
  term.operator ∈ ["channel", "stream", "topic", "sender"] ∨
    (term.operator = "is" ∧
      term.operand ∈ ["dm", "private", "starred", "unread", "mentioned", "alerted", "resolved"])

/-- The message event that a user receives for a message, with the flags of the user's row. -/
structure IsEventOf (db : Database) (user : UserProfile) (userMessage : UserMessage)
    (message : Message) (payload : Tornado.MessagePayload) (flags : List String) : Prop where
  stored : message ∈ db.messages
  received : userMessage ∈ db.userMessages
  ofUser : userMessage.userProfileId = user.id
  ofMessage : userMessage.messageId = message.id
  inRealm : message.realm = user.realm
  /-- A channel message displays the name of its channel. -/
  displayed : ∀ stream ∈ db.streams, stream.recipient = message.recipient →
    payload.displayRecipient = .stream stream.name
  /-- A direct message displays its participants. -/
  direct : message.recipient.isStream = false →
    ∃ participants, payload.displayRecipient = .direct participants
  subject : payload.subject = message.subject
  flags : flags = userMessage.flags.flagsList

/-- The narrow query returns the message to the user. -/
def Returned (backend : Backend) (db : Database) (user : UserProfile)
    (narrow : List Tornado.NarrowTerm) (message : Message) : Prop :=
  ∃ rows, fetchRows backend db (.user user) (some (narrow.map termOfEvent)) = .ok rows ∧
    ∃ row ∈ rows, row.message = message

section Conditions

variable {backend : Backend} {db : Database}

/-- Without a `flags` column in it, a condition depends on the message only. -/
theorem ClauseElement.eval_congr {condition : ClauseElement} (noFlags : condition.readsFlags = false)
    {row other : Row} (sameMessage : row.message = other.message) :
    condition.eval backend db row = condition.eval backend db other := by
  induction condition with
  | flagsSet mask => cases noFlags
  | flagsClear mask => cases noFlags
  | not_ condition inductionHypothesis =>
      simp only [readsFlags] at noFlags
      simp only [eval, inductionHypothesis noFlags]
  | and_ left right leftHypothesis rightHypothesis =>
      rw [readsFlags, Bool.or_eq_false_iff] at noFlags
      simp only [eval, leftHypothesis noFlags.1, rightHypothesis noFlags.2]
  | or_ left right leftHypothesis rightHypothesis =>
      rw [readsFlags, Bool.or_eq_false_iff] at noFlags
      simp only [eval, leftHypothesis noFlags.1, rightHypothesis noFlags.2]
  | _ => simp only [eval, sameMessage]

/-- The conditions of a term are true of a row. -/
def Meets (backend : Backend) (db : Database) (user : UserProfile) (row : Row)
    (term : Tornado.NarrowTerm) : Prop :=
  ∃ conditions,
    termConditions backend db (Viewer.user user).context (termOfEvent term) = .ok conditions ∧
      ∀ condition ∈ conditions, condition.eval backend db row = some true

/-- What `fetch_messages` returns to a user. -/
theorem fetchRows_user_eq_ok_iff {user : UserProfile} {terms : List NarrowParameter}
    {rows : List Row} :
    fetchRows backend db (.user user) (some terms) = .ok rows ↔
      ∃ includeHistory, okToIncludeHistory backend db (some terms) (.user user) =
          .ok includeHistory ∧
        narrowRows backend db (.user user) (!includeHistory) terms = .ok rows := by
  unfold fetchRows narrowRows
  constructor
  · intro returns
    obtain ⟨narrow, isNarrow, returns⟩ := exists_of_bind_eq_ok returns
    cases isNarrow
    obtain ⟨fetch, built, executed⟩ := exists_of_bind_eq_ok returns
    obtain ⟨decided, isBase, ⟨absent, -⟩ | ⟨_, sameTerms, narrowed⟩⟩ := fetchQuery_eq_ok built
    · cases absent
    · cases sameTerms
      exact ⟨_, decided, bind_eq_ok_iff.mpr
        ⟨_, isBase, bind_eq_ok_iff.mpr ⟨_, narrowed, executed⟩⟩⟩
  · rintro ⟨includeHistory, decided, returns⟩
    obtain ⟨base, isBase, returns⟩ := exists_of_bind_eq_ok returns
    obtain ⟨narrowed, isNarrowed, executed⟩ := exists_of_bind_eq_ok returns
    refine bind_eq_ok_iff.mpr ⟨_, rfl, bind_eq_ok_iff.mpr
      ⟨⟨includeHistory, base, narrowed.1, narrowed.2⟩, ?_, executed⟩⟩
    exact bind_eq_ok_iff.mpr ⟨_, decided, bind_eq_ok_iff.mpr ⟨_, isBase,
      bind_eq_ok_iff.mpr ⟨_, isNarrowed, rfl⟩⟩⟩

end Conditions

/-- The channel that the event displays is the operand, in lower case. -/
def DisplaysChannel (backend : Backend) (payload : Tornado.MessagePayload) (operand : String) :
    Prop :=
  ∃ name, payload.displayRecipient = .stream name ∧ backend.lower operand = backend.lower name

/-- The operand is looked up as the channel of the message or, in the Zephyr mirroring realm, as one
that is shown together with it. -/
def NamesChannel (backend : Backend) (db : Database) (user : UserProfile) (message : Message)
    (operand : String) : Prop :=
  ∃ channel, db.getStream backend.toTextFunctions operand user.realm = .ok channel ∧
    if user.realm.isZephyrMirrorRealm then
      message.recipient ∈
        (matchingChannels backend db (Viewer.user user).context channel).map (·.recipient)
    else message.recipient = channel.recipient

/-- The message is a channel message whose topic is the operand, in lower case. -/
def DisplaysTopic (backend : Backend) (message : Message) (operand : String) : Prop :=
  message.recipient.isStream = true ∧ backend.lower operand = backend.lower message.subject

/-- The topic is the operand, in upper case or, in the Zephyr mirroring realm, one of its variants. -/
def NamesTopic (backend : Backend) (db : Database) (user : UserProfile) (message : Message)
    (operand : String) : Prop :=
  if user.realm.isZephyrMirrorRealm then
    ∃ condition, topicCondition (Viewer.user user).context (.str operand) = .ok condition ∧
      condition.eval backend db ⟨message, none⟩ = some true
  else backend.upper message.subject = backend.upper operand

/-- The e-mail that the event shows is the operand, in lower case. -/
def DisplaysSender (backend : Backend) (payload : Tornado.MessagePayload) (operand : String) : Prop :=
  backend.lower operand = backend.lower payload.senderEmail

/-- The operand is looked up as the sender of the message. -/
def NamesSender (backend : Backend) (db : Database) (user : UserProfile) (message : Message)
    (operand : String) : Prop :=
  ∃ sender, getUserIncludingCrossRealm backend db operand user.realm = .ok sender ∧
    message.senderId = sender.id

/-- What the event predicate reads for an operand of `is`. -/
def EventAdmitsIs (message : Message) (flags : Flags) : IsOperand → Prop
  | .dm => message.recipient.isStream = false
  | .starred => Flag.starred ∈ flags
  | .unread => Flag.read ∉ flags
  | .mentioned | .alerted => Flag.mentioned ∈ flags
  | .resolved =>
      message.recipient.isStream = true ∧
        Tornado.startswith message.subject Tornado.resolvedTopicPrefix = true
  | .followed => True

/-- What the query reads for an operand of `is`. -/
def QueryAdmitsIs (message : Message) (flags : Flags) : IsOperand → Prop
  | .dm => message.recipient.isStream = false
  | .starred => Flag.starred ∈ flags
  | .unread => Flag.read ∉ flags
  | .mentioned => flags.test mentionFlagsMask = true
  | .alerted => Flag.hasAlertWord ∈ flags
  | .resolved =>
      message.recipient.isStream = true ∧
        Tornado.startswith message.subject Tornado.resolvedTopicPrefix = true
  | .followed => True

/-- What the event predicate reads for a term. -/
def EventAdmits (backend : Backend) (message : Message) (payload : Tornado.MessagePayload)
    (flags : Flags) (term : Tornado.NarrowTerm) : Prop :=
  if term.operator ∈ channelOperators then DisplaysChannel backend payload term.operand
  else if term.operator = "topic" then DisplaysTopic backend message term.operand
  else if term.operator = "sender" then DisplaysSender backend payload term.operand
  else ∀ operand, isOperands.lookup term.operand = some operand → EventAdmitsIs message flags operand

/-- What the query reads for a term. -/
def QueryAdmits (backend : Backend) (db : Database) (user : UserProfile) (message : Message)
    (flags : Flags) (term : Tornado.NarrowTerm) : Prop :=
  if term.operator ∈ channelOperators then NamesChannel backend db user message term.operand
  else if term.operator = "topic" then NamesTopic backend db user message term.operand
  else if term.operator = "sender" then NamesSender backend db user message term.operand
  else ∀ operand, isOperands.lookup term.operand = some operand → QueryAdmitsIs message flags operand

/-- The kinds of terms that the two sides read differently for one message. -/
def Differs (backend : Backend) (db : Database) (user : UserProfile) (message : Message)
    (payload : Tornado.MessagePayload) (flags : Flags) (term : Tornado.NarrowTerm) : Prop :=
  (term.operator ∈ channelOperators ∧
      ¬(DisplaysChannel backend payload term.operand ↔
        NamesChannel backend db user message term.operand)) ∨
    (term.operator = "topic" ∧
      ¬(DisplaysTopic backend message term.operand ↔
        NamesTopic backend db user message term.operand)) ∨
    (term.operator = "sender" ∧
      ¬(DisplaysSender backend payload term.operand ↔
        NamesSender backend db user message term.operand)) ∨
    (term.operator = "is" ∧ term.operand = "mentioned" ∧ Flag.mentioned ∉ flags ∧
      flags.test mentionFlagsMask = true) ∨
    (term.operator = "is" ∧ term.operand = "alerted" ∧
      ¬(Flag.mentioned ∈ flags ↔ Flag.hasAlertWord ∈ flags))

section OneTerm

variable {backend : Backend} {db : Database} {user : UserProfile} {userMessage : UserMessage}
  {message : Message} {payload : Tornado.MessagePayload} {flags : List String}
  {term : Tornado.NarrowTerm}

theorem isOperand_cases {operand : String}
    (supported : operand ∈
      ["dm", "private", "starred", "unread", "mentioned", "alerted", "resolved"]) :
    ∃ isOperand, isOperands.lookup operand = some isOperand ∧ isOperand ≠ .followed := by
  simp only [List.mem_cons, List.not_mem_nil, or_false] at supported
  rcases supported with rfl | rfl | rfl | rfl | rfl | rfl | rfl
  · exact ⟨.dm, rfl, by decide⟩
  · exact ⟨.dm, rfl, by decide⟩
  · exact ⟨.starred, rfl, by decide⟩
  · exact ⟨.unread, rfl, by decide⟩
  · exact ⟨.mentioned, rfl, by decide⟩
  · exact ⟨.alerted, rfl, by decide⟩
  · exact ⟨.resolved, rfl, by decide⟩

/-- The two tables differ on the kinds of `Differs` only. -/
theorem admits_iff_iff (supported : SupportedByBoth term) :
    (EventAdmits backend message payload userMessage.flags term ↔
        QueryAdmits backend db user message userMessage.flags term) ↔
      ¬Differs backend db user message payload userMessage.flags term := by
  obtain ⟨operator, operand⟩ := term
  rcases supported with isNamed | ⟨isIs, isOperand⟩
  · simp only [List.mem_cons, List.not_mem_nil, or_false] at isNamed
    rcases isNamed with rfl | rfl | rfl | rfl <;>
      simp [EventAdmits, QueryAdmits, Differs, channelOperators]
  · dsimp only at isIs isOperand
    subst isIs
    simp only [List.mem_cons, List.not_mem_nil, or_false] at isOperand
    have mentionedMask : Flag.mentioned ∈ userMessage.flags →
        userMessage.flags.test mentionFlagsMask = true := fun mentioned =>
      Flags.test_iff.mpr ⟨.mentioned, by decide, mentioned⟩
    rcases isOperand with rfl | rfl | rfl | rfl | rfl | rfl | rfl <;>
      simp [EventAdmits, QueryAdmits, Differs, channelOperators, isOperands, EventAdmitsIs,
        QueryAdmitsIs, List.lookup]
    · constructor
      · intro agree notMentioned
        cases isMasked : userMessage.flags.test mentionFlagsMask with
        | false => rfl
        | true => exact absurd (agree.mpr isMasked) notMentioned
      · intro agree
        refine ⟨mentionedMask, fun isMasked => ?_⟩
        by_contra notMentioned
        rw [agree notMentioned] at isMasked
        cases isMasked

/-- Channel messages display a channel and direct messages do not. -/
theorem IsEventOf.displayRecipient (isEvent : IsEventOf db user userMessage message payload flags) :
    (message.recipient.isStream = true ∧ ∃ name, payload.displayRecipient = .stream name) ∨
      (message.recipient.isStream = false ∧
        ∃ participants, payload.displayRecipient = .direct participants) := by
  rcases direct_or_stream isEvent.stored with isDirect | ⟨stream, member, toStream, -, -⟩
  · exact .inr ⟨isDirect, isEvent.direct isDirect⟩
  · exact .inl ⟨toStream ▸ rfl, _, isEvent.displayed stream member toStream⟩

theorem onStream_eq_true_iff {test : String → Bool} :
    Tornado.onStream payload test = true ↔
      ∃ name, payload.displayRecipient = .stream name ∧ test name = true := by
  unfold Tornado.onStream
  cases payload.displayRecipient <;> simp

/-- The conditions of the predicate that do not look at the displayed channel. -/
theorem onStream_const_iff (isEvent : IsEventOf db user userMessage message payload flags)
    {test : Bool} :
    Tornado.onStream payload (fun _ => test) = true ↔
      message.recipient.isStream = true ∧ test = true := by
  rw [onStream_eq_true_iff]
  rcases isEvent.displayRecipient with ⟨isStream, name, displayed⟩ |
    ⟨isDirect, participants, displayed⟩
  · simp [isStream, displayed]
  · simp [isDirect, displayed]

theorem displayType_iff (isEvent : IsEventOf db user userMessage message payload flags) :
    payload.displayRecipient.type = "private" ↔ message.recipient.isStream = false := by
  rcases isEvent.displayRecipient with ⟨isStream, name, displayed⟩ |
    ⟨isDirect, participants, displayed⟩
  · simp [isStream, displayed, Tornado.DisplayRecipient.type]
  · simp [isDirect, displayed, Tornado.DisplayRecipient.type]

/-- A flag that the API shows. -/
theorem contains_flag_iff (flag : Flag)
    (isEvent : IsEventOf db user userMessage message payload flags) (isShown : flag ∉ nonApiFlags) :
    flags.contains flag.name = true ↔ flag ∈ userMessage.flags := by
  rw [isEvent.flags, List.contains_iff_mem, Flags.name_mem_flagsList]
  exact and_iff_left isShown

/-- The predicate of the event queue reads what the table says. -/
theorem satisfiesOperator_iff (isEvent : IsEventOf db user userMessage message payload flags)
    (supported : SupportedByBoth term) :
    Tornado.satisfiesOperator backend.lower payload flags term.operator term.operand = true ↔
      EventAdmits backend message payload userMessage.flags term := by
  obtain ⟨operator, operand⟩ := term
  have starred : flags.contains "starred" = true ↔ Flag.starred ∈ userMessage.flags :=
    contains_flag_iff .starred isEvent (by decide)
  have read : flags.contains "read" = true ↔ Flag.read ∈ userMessage.flags :=
    contains_flag_iff .read isEvent (by decide)
  have mentioned : flags.contains "mentioned" = true ↔ Flag.mentioned ∈ userMessage.flags :=
    contains_flag_iff .mentioned isEvent (by decide)
  rcases supported with isNamed | ⟨isIs, isOperand⟩
  · simp only [List.mem_cons, List.not_mem_nil, or_false] at isNamed
    rcases isNamed with rfl | rfl | rfl | rfl
    · simp [Tornado.satisfiesOperator, Tornado.channelOperators, EventAdmits, channelOperators,
        DisplaysChannel, onStream_eq_true_iff]
    · simp [Tornado.satisfiesOperator, Tornado.channelOperators, EventAdmits, channelOperators,
        DisplaysChannel, onStream_eq_true_iff]
    · simp [Tornado.satisfiesOperator, Tornado.channelOperators, EventAdmits, channelOperators,
        DisplaysTopic, onStream_const_iff isEvent, isEvent.subject]
    · simp [Tornado.satisfiesOperator, Tornado.channelOperators, EventAdmits, channelOperators,
        DisplaysSender]
  · dsimp only at isIs isOperand
    subst isIs
    simp only [List.mem_cons, List.not_mem_nil, or_false] at isOperand
    rcases isOperand with rfl | rfl | rfl | rfl | rfl | rfl | rfl
    · simp [Tornado.satisfiesOperator, Tornado.channelOperators, EventAdmits, channelOperators,
        isOperands, EventAdmitsIs, displayType_iff isEvent]
    · simp [Tornado.satisfiesOperator, Tornado.channelOperators, EventAdmits, channelOperators,
        isOperands, List.lookup, EventAdmitsIs, displayType_iff isEvent]
    · simpa [Tornado.satisfiesOperator, Tornado.channelOperators, EventAdmits, channelOperators,
        isOperands, List.lookup, EventAdmitsIs] using starred
    · simpa [Tornado.satisfiesOperator, Tornado.channelOperators, EventAdmits, channelOperators,
        isOperands, List.lookup, EventAdmitsIs] using not_congr read
    · simpa [Tornado.satisfiesOperator, Tornado.channelOperators, EventAdmits, channelOperators,
        isOperands, List.lookup, EventAdmitsIs] using mentioned
    · simpa [Tornado.satisfiesOperator, Tornado.channelOperators, EventAdmits, channelOperators,
        isOperands, List.lookup, EventAdmitsIs] using mentioned
    · simp [Tornado.satisfiesOperator, Tornado.channelOperators, EventAdmits, channelOperators,
        isOperands, List.lookup, EventAdmitsIs, onStream_const_iff isEvent, isEvent.subject]

/-- A term with one condition. -/
theorem meets_iff_of_condition {row : Row} (condition : Except NarrowError ClauseElement)
    (isConditions : termConditions backend db (Viewer.user user).context (termOfEvent term) =
      condition.map fun condition => [condition]) :
    Meets backend db user row term ↔
      ∃ found, condition = .ok found ∧ found.eval backend db row = some true := by
  unfold Meets
  rw [isConditions]
  constructor
  · rintro ⟨conditions, mapped, meets⟩
    obtain ⟨found, isFound, rfl⟩ := ok_of_map_ok mapped
    exact ⟨found, isFound, meets found (List.mem_singleton_self found)⟩
  · rintro ⟨found, rfl, meets⟩
    exact ⟨[found], rfl, by simpa using meets⟩

/-- The condition of a term `is` about a message. -/
theorem eval_isOperand_iff (marked : DirectsMarked db)
    (isEvent : IsEventOf db user userMessage message payload flags) {operand : IsOperand}
    (notFollowed : operand ≠ .followed) :
    (operand.condition user).eval backend db ⟨message, some userMessage.flags⟩ = some true ↔
      QueryAdmitsIs message userMessage.flags operand := by
  have isPrivate := marked.privateFlag userMessage isEvent.received message isEvent.stored
    isEvent.ofMessage
  cases operand with
  | dm => simpa [IsOperand.condition, isPrivateCondition, ClauseElement.eval, QueryAdmitsIs] using
      isPrivate
  | starred => simp [IsOperand.condition, ClauseElement.eval, QueryAdmitsIs]
  | unread =>
      rw [QueryAdmitsIs, ← Flags.test_singleton, Bool.not_eq_true]
      simp [IsOperand.condition, ClauseElement.eval]
  | mentioned => simp [IsOperand.condition, ClauseElement.eval, QueryAdmitsIs]
  | alerted => simp [IsOperand.condition, ClauseElement.eval, QueryAdmitsIs]
  | resolved =>
      simp only [IsOperand.condition, ClauseElement.eval, QueryAdmitsIs, Option.some.injEq]
      refine ⟨fun resolved => ⟨?_, resolved⟩, fun resolved => resolved.2⟩
      by_contra notStream
      rw [marked.emptyTopic message isEvent.stored (by simpa using notStream)] at resolved
      exact absurd resolved (by decide)
  | followed => exact absurd rfl notFollowed

theorem channelOfOperand_str_eq_ok_iff {operand : String} {channel : Stream} :
    channelOfOperand backend db (Viewer.user user).context (.str operand) = .ok channel ↔
      db.getStream backend.toTextFunctions operand user.realm = .ok channel := by
  unfold channelOfOperand
  simp only [Viewer.context]
  cases db.getStream backend.toTextFunctions operand user.realm with
  | ok found => simp
  | error error => cases error <;> simp

theorem userOfOperand_str_eq_ok_iff {operand : String} {realm : Realm} {sender : UserProfile} :
    userOfOperand backend db (.str operand) realm = .ok sender ↔
      getUserIncludingCrossRealm backend db operand realm = .ok sender := by
  unfold userOfOperand
  dsimp only
  cases getUserIncludingCrossRealm backend db operand realm with
  | ok found => simp
  | error error => cases error <;> simp

/-- The channel condition of a term. -/
theorem meets_channel_iff {operand : String} {row : Row} :
    (∃ found, channelCondition backend db (Viewer.user user).context (.str operand) = .ok found ∧
        found.eval backend db row = some true) ↔
      NamesChannel backend db user row.message operand := by
  unfold channelCondition NamesChannel
  simp only [bind_eq_ok_iff, channelOfOperand_str_eq_ok_iff]
  constructor
  · rintro ⟨found, ⟨channel, isChannel, isFound⟩, meets⟩
    refine ⟨channel, isChannel, ?_⟩
    split_ifs at isFound with isZephyr isPublic
    · cases isFound
      have inZephyr : user.realm.isZephyrMirrorRealm = true := isZephyr
      rw [if_pos inZephyr]
      simpa [ClauseElement.eval] using meets
    · cases isFound
      have notZephyr : ¬user.realm.isZephyrMirrorRealm = true := isZephyr
      rw [if_neg notZephyr]
      simpa [ClauseElement.eval] using meets
  · rintro ⟨channel, isChannel, isNamed⟩
    split_ifs at isNamed with isZephyr
    · have notPublic : channel.isPublic = false := by
        have inZephyr : channel.isInZephyrRealm = true := by
          rw [channel.populated, (getStream_mem isChannel).2]
          exact isZephyr
        simp [Stream.isPublic, inZephyr]
      refine ⟨.recipientIn ((matchingChannels backend db (Viewer.user user).context channel).map
        (·.recipient)), ⟨channel, isChannel, ?_⟩, ?_⟩
      · simp [Viewer.context, isZephyr, notPublic]
      · simpa [ClauseElement.eval] using isNamed
    · refine ⟨.recipientIs channel.recipient, ⟨channel, isChannel, ?_⟩, ?_⟩
      · simp [Viewer.context, isZephyr]
      · simpa [ClauseElement.eval] using isNamed

theorem topicCondition_readsFlags {context : NarrowContext} {operand : Operand}
    {condition : ClauseElement} (isCondition : topicCondition context operand = .ok condition) :
    condition.readsFlags = false := by
  unfold topicCondition at isCondition
  split at isCondition
  · split_ifs at isCondition
    · split at isCondition
      · cases isCondition
      · split_ifs at isCondition
        all_goals
          cases isCondition
          rfl
    · cases isCondition
      rfl
  · cases isCondition

/-- The conditions of the query read what the table says. -/
theorem meets_iff (marked : DirectsMarked db)
    (isEvent : IsEventOf db user userMessage message payload flags)
    (supported : SupportedByBoth term) :
    Meets backend db user ⟨message, some userMessage.flags⟩ term ↔
      QueryAdmits backend db user message userMessage.flags term := by
  obtain ⟨operator, operand⟩ := term
  rcases supported with isNamed | ⟨isIs, isOperand⟩
  · simp only [List.mem_cons, List.not_mem_nil, or_false] at isNamed
    rcases isNamed with rfl | rfl | rfl | rfl
    · refine (meets_iff_of_condition (channelCondition backend db (Viewer.user user).context
        (.str operand)) rfl).trans (meets_channel_iff.trans ?_)
      simp [QueryAdmits, channelOperators]
    · refine (meets_iff_of_condition (channelCondition backend db (Viewer.user user).context
        (.str operand)) rfl).trans (meets_channel_iff.trans ?_)
      simp [QueryAdmits, channelOperators]
    · refine (meets_iff_of_condition (topicCondition (Viewer.user user).context (.str operand))
        rfl).trans ?_
      simp only [QueryAdmits, channelOperators, NamesTopic]
      cases isZephyr : user.realm.isZephyrMirrorRealm with
      | true =>
          have sameRow : ∀ found : ClauseElement,
              topicCondition (Viewer.user user).context (.str operand) = .ok found →
                found.eval backend db ⟨message, some userMessage.flags⟩ =
                  found.eval backend db ⟨message, none⟩ :=
            fun found isFound => ClauseElement.eval_congr (topicCondition_readsFlags isFound) rfl
          simp only [if_true]
          rw [if_neg (by decide)]
          exact exists_congr fun found => and_congr_right fun isFound => by rw [sameRow found isFound]
      | false => simp [topicCondition, Viewer.context, isZephyr, ClauseElement.eval]
    · refine (meets_iff_of_condition (senderCondition backend db (Viewer.user user).context
        (.str operand)) rfl).trans ?_
      simp only [senderCondition, bind_eq_ok_iff, userOfOperand_str_eq_ok_iff]
      simp only [QueryAdmits, channelOperators, NamesSender]
      constructor
      · rintro ⟨found, ⟨sender, isSender, isFound⟩, meets⟩
        cases isFound
        exact ⟨sender, isSender, by simpa [ClauseElement.eval] using meets⟩
      · rintro ⟨sender, isSender, isFrom⟩
        exact ⟨.senderIs sender.id, ⟨sender, isSender, rfl⟩, by simpa [ClauseElement.eval] using isFrom⟩
  · dsimp only at isIs isOperand
    subst isIs
    obtain ⟨found, isFound, notFollowed⟩ := isOperand_cases isOperand
    have isCondition : isCondition (Viewer.user user).context (.str operand) =
        .ok (found.condition user) := by
      simp [isCondition, NarrowContext.requireUser, Viewer.context, IsOperand.of?, isFound, bind,
        Except.bind, pure, Except.pure]
    refine (meets_iff_of_condition (Zulip.Narrow.isCondition (Viewer.user user).context
      (.str operand)) rfl).trans ?_
    rw [isCondition]
    simp only [Except.ok.injEq, exists_eq_left', eval_isOperand_iff marked isEvent notFollowed]
    simp [QueryAdmits, channelOperators, isFound]

end OneTerm

section Lists

variable {backend : Backend} {db : Database} {user : UserProfile} {userMessage : UserMessage}
  {message : Message} {payload : Tornado.MessagePayload} {flags : List String}
  {narrow : List Tornado.NarrowTerm}

theorem notSearch_of_supported {term : Tornado.NarrowTerm} (supported : SupportedByBoth term) :
    (termOfEvent term).operator ≠ "search" := by
  intro isSearch
  have isSearch : term.operator = "search" := isSearch
  rcases supported with isNamed | ⟨isIs, -⟩
  · rw [isSearch] at isNamed
    exact absurd isNamed (by decide)
  · rw [isSearch] at isIs
    exact absurd isIs (by decide)

theorem plainTerms_map_termOfEvent (supported : ∀ term ∈ narrow, SupportedByBoth term) :
    plainTerms (narrow.map termOfEvent) = narrow.map termOfEvent := by
  refine List.filter_eq_self.mpr fun term isTerm => ?_
  obtain ⟨eventTerm, isEventTerm, rfl⟩ := List.mem_map.mp isTerm
  exact decide_eq_true (notSearch_of_supported (supported eventTerm isEventTerm))

theorem searchTerms_map_termOfEvent (supported : ∀ term ∈ narrow, SupportedByBoth term) :
    searchTerms (narrow.map termOfEvent) = [] := by
  refine List.filter_eq_nil_iff.mpr fun term isTerm => ?_
  obtain ⟨eventTerm, isEventTerm, rfl⟩ := List.mem_map.mp isTerm
  rw [decide_eq_true_eq]
  exact notSearch_of_supported (supported eventTerm isEventTerm)

/-- The user's row of the message. -/
theorem mem_userRows_iff (isEvent : IsEventOf db user userMessage message payload flags) {row : Row} :
    row ∈ userRows db user ∧ row.message = message ↔ row = ⟨message, some userMessage.flags⟩ := by
  constructor
  · rintro ⟨member, rfl⟩
    simp only [userRows, List.mem_filterMap, List.mem_filter, Option.map_eq_some_iff,
      decide_eq_true_eq] at member
    obtain ⟨other, ⟨stored, ofUser⟩, found, isFound, rfl⟩ := member
    have sameId : found.id = other.messageId := by simpa using List.find?_some isFound
    have sameRow := List.inj_on_of_nodup_map db.userMessageKeys stored isEvent.received
      (by rw [ofUser, isEvent.ofUser, isEvent.ofMessage, ← sameId])
    rw [sameRow]
  · rintro rfl
    refine ⟨?_, rfl⟩
    simp only [userRows, List.mem_filterMap, List.mem_filter, Option.map_eq_some_iff,
      decide_eq_true_eq]
    refine ⟨userMessage, ⟨isEvent.received, isEvent.ofUser⟩, message, ?_, rfl⟩
    refine find?_of_key db.messageKeys isEvent.stored (decide_eq_true isEvent.ofMessage.symm)
      fun other _ isMatch => ?_
    rw [decide_eq_true_eq] at isMatch
    rw [isMatch, isEvent.ofMessage]

theorem exists_canAccessStreamHistory (db : Database) {stream : Stream} (sameRealm : stream.realm = user.realm) :
    ∃ granted, canAccessStreamHistory db user stream = .ok granted := by
  obtain ⟨sub, -, accessEq⟩ := accessStreamCommon_eq db sameRealm
    ("Invalid channel name '" ++ stream.name ++ "'")
  unfold canAccessStreamHistory
  rw [accessEq, if_neg (by simp [sameRealm])]
  split_ifs
  · exact ⟨_, rfl⟩
  · exact ⟨_, rfl⟩
  · exact ⟨_, rfl⟩
  · exact ⟨_, rfl⟩
  · exact ⟨_, rfl⟩

/-- The scan for history returns on terms that the query accepts. -/
theorem exists_historyOfTerm {term : Tornado.NarrowTerm} (includeHistory : Bool)
    (named : term.operator ∈ channelOperators → NamesChannel backend db user message term.operand) :
    ∃ next, historyOfTerm backend db user includeHistory (termOfEvent term) = .ok next := by
  unfold historyOfTerm
  split_ifs with isChannel
  · obtain ⟨channel, found, -⟩ := named isChannel.1
    obtain ⟨granted, isGranted⟩ := exists_canAccessStreamHistory db (getStream_mem found).2
    refine ⟨granted, ?_⟩
    simp [termOfEvent, canAccessStreamHistoryByName, found, isGranted, ofAccess]
  · exact ⟨true, rfl⟩
  · exact ⟨includeHistory, rfl⟩

theorem exists_foldlM_historyOfTerm (includeHistory : Bool)
    (named : ∀ term ∈ narrow, term.operator ∈ channelOperators →
      NamesChannel backend db user message term.operand) :
    ∃ decided, (narrow.map termOfEvent).foldlM (historyOfTerm backend db user) includeHistory =
      .ok decided := by
  induction narrow generalizing includeHistory with
  | nil => exact ⟨includeHistory, rfl⟩
  | cons term rest inductionHypothesis =>
      obtain ⟨next, isNext⟩ := exists_historyOfTerm includeHistory (named term List.mem_cons_self)
      obtain ⟨decided, isDecided⟩ :=
        inductionHypothesis next fun other member => named other (List.mem_cons_of_mem _ member)
      exact ⟨decided, bind_eq_ok_iff.mpr ⟨next, isNext, isDecided⟩⟩

/-- Terms that are not about the `UserMessage` row do not read its flags. -/
theorem termConditions_readsFlags {term : Tornado.NarrowTerm} (supported : SupportedByBoth term)
    (noUserMessage : needsUserMessage (termOfEvent term) = false) {conditions : List ClauseElement}
    (isConditions : termConditions backend db (Viewer.user user).context (termOfEvent term) =
      .ok conditions) : conditions.any ClauseElement.readsFlags = false := by
  obtain ⟨operator, operand⟩ := term
  have ofCondition : ∀ condition : Except NarrowError ClauseElement,
      termConditions backend db (Viewer.user user).context (termOfEvent ⟨operator, operand⟩) =
          condition.map (fun condition => [condition]) →
        (∀ found, condition = .ok found → found.readsFlags = false) →
          conditions.any ClauseElement.readsFlags = false := by
    intro condition isCondition noFlags
    rw [isCondition] at isConditions
    obtain ⟨found, isFound, rfl⟩ := ok_of_map_ok isConditions
    simp [noFlags found isFound]
  have ofChannel : ∀ found,
      channelCondition backend db (Viewer.user user).context (.str operand) = .ok found →
        found.readsFlags = false := by
    intro found isFound
    obtain ⟨channel, -, isFound⟩ := exists_of_bind_eq_ok isFound
    split_ifs at isFound
    all_goals
      cases isFound
      rfl
  rcases supported with isNamed | ⟨isIs, isOperand⟩
  · simp only [List.mem_cons, List.not_mem_nil, or_false] at isNamed
    rcases isNamed with rfl | rfl | rfl | rfl
    · exact ofCondition _ rfl ofChannel
    · exact ofCondition _ rfl ofChannel
    · exact ofCondition _ rfl fun found isFound => topicCondition_readsFlags isFound
    · refine ofCondition (senderCondition backend db (Viewer.user user).context (.str operand)) rfl ?_
      intro found isFound
      obtain ⟨sender, -, isFound⟩ := exists_of_bind_eq_ok isFound
      cases isFound
      rfl
  · dsimp only at isIs isOperand
    subst isIs
    have isResolved : operand = "resolved" := by
      simp only [List.mem_cons, List.not_mem_nil, or_false] at isOperand
      rcases isOperand with rfl | rfl | rfl | rfl | rfl | rfl | rfl
      all_goals first | rfl | exact absurd noUserMessage (by decide)
    subst isResolved
    exact ofCondition (.ok .resolvedTopic) rfl fun found isFound => by cases isFound; rfl

/-- A message that is returned meets every term, and no terms exclude each other. -/
theorem meets_of_returned (isEvent : IsEventOf db user userMessage message payload flags)
    (supported : ∀ term ∈ narrow, SupportedByBoth term)
    (returned : Returned backend db user narrow message) :
    ¬Conflicting (narrow.map termOfEvent) ∧
      ∀ term ∈ narrow, Meets backend db user ⟨message, some userMessage.flags⟩ term := by
  obtain ⟨rows, returns, row, member, sameMessage⟩ := returned
  obtain ⟨includeHistory, -, returns⟩ := fetchRows_user_eq_ok_iff.mp returns
  obtain ⟨-, notConflicting, conditions, isConditions, operands, isOperands, -, flagsThere, rfl⟩ :=
    narrowRows_eq_ok_iff.mp returns
  rw [plainTerms_map_termOfEvent supported] at notConflicting isConditions
  rw [searchTerms_map_termOfEvent supported] at isOperands
  cases isOperands
  obtain ⟨isBase, selected⟩ := Select.mem_rows.mp member
  refine ⟨notConflicting, fun term isTerm => ?_⟩
  obtain ⟨found, isFound, -⟩ :=
    exists_result_of_mapM_eq_ok isConditions _ (List.mem_map_of_mem isTerm)
  refine ⟨found, isFound, fun condition isCondition => ?_⟩
  have inAll : condition ∈ conditions.flatten ++ joinedSearch backend [] :=
    List.mem_append_left _ ((mem_flatten_of_mapM isConditions).mpr
      ⟨_, List.mem_map_of_mem isTerm, found, isFound, isCondition⟩)
  have meets := selected condition inAll
  cases includeHistory with
  | true =>
      rw [← meets]
      refine ClauseElement.eval_congr ?_ sameMessage.symm
      simpa using List.any_eq_false.mp (flagsThere rfl) condition inAll
  | false => rwa [(mem_userRows_iff isEvent).mp ⟨isBase, sameMessage⟩] at meets

/-- Terms that are met have conditions, and the row of the message meets these. -/
theorem exists_conditions_of_meets {row : Row}
    (meets : ∀ term ∈ narrow, Meets backend db user row term) :
    ∃ conditions, (narrow.map termOfEvent).mapM
        (termConditions backend db (Viewer.user user).context) = .ok conditions ∧
      ∀ condition ∈ conditions.flatten, condition.eval backend db row = some true := by
  obtain ⟨conditions, isConditions⟩ : ∃ conditions, (narrow.map termOfEvent).mapM
      (termConditions backend db (Viewer.user user).context) = .ok conditions := by
    refine exists_mapM_eq_ok fun term isTerm => ?_
    obtain ⟨eventTerm, isEventTerm, rfl⟩ := List.mem_map.mp isTerm
    exact (meets eventTerm isEventTerm).imp fun _ found => found.1
  refine ⟨conditions, isConditions, fun condition isCondition => ?_⟩
  obtain ⟨term, isTerm, found, isFound, isCondition⟩ :=
    (mem_flatten_of_mapM isConditions).mp isCondition
  obtain ⟨eventTerm, isEventTerm, rfl⟩ := List.mem_map.mp isTerm
  obtain ⟨others, isOthers, meets⟩ := meets eventTerm isEventTerm
  rw [isFound] at isOthers
  cases isOthers
  exact meets condition isCondition

/-- No condition reads flags when no term needs the rows of the user. -/
theorem conditions_readsFlags (supported : ∀ term ∈ narrow, SupportedByBoth term)
    (noneNeeds : (narrow.map termOfEvent).any needsUserMessage = false)
    {conditions : List (List ClauseElement)}
    (isConditions : (narrow.map termOfEvent).mapM
      (termConditions backend db (Viewer.user user).context) = .ok conditions) :
    ∀ condition ∈ conditions.flatten, condition.readsFlags = false := by
  intro condition isCondition
  obtain ⟨term, isTerm, found, isFound, isCondition⟩ :=
    (mem_flatten_of_mapM isConditions).mp isCondition
  obtain ⟨eventTerm, isEventTerm, rfl⟩ := List.mem_map.mp isTerm
  have noUserMessage : needsUserMessage (termOfEvent eventTerm) = false := by
    simpa using List.any_eq_false.mp noneNeeds _ isTerm
  have noneRead := termConditions_readsFlags (supported eventTerm isEventTerm) noUserMessage isFound
  simpa using List.any_eq_false.mp noneRead condition isCondition

/-- A message that meets every term is returned, from the rows of the user or from the history. -/
theorem returned_of_meets (marked : DirectsMarked db)
    (isEvent : IsEventOf db user userMessage message payload flags)
    (supported : ∀ term ∈ narrow, SupportedByBoth term)
    (notConflicting : ¬Conflicting (narrow.map termOfEvent))
    (meets : ∀ term ∈ narrow, Meets backend db user ⟨message, some userMessage.flags⟩ term) :
    Returned backend db user narrow message := by
  have named : ∀ term ∈ narrow, term.operator ∈ channelOperators →
      NamesChannel backend db user message term.operand := by
    intro term isTerm isChannel
    have admits := (meets_iff marked isEvent (supported term isTerm)).mp (meets term isTerm)
    rwa [QueryAdmits, if_pos isChannel] at admits
  obtain ⟨scanned, isScanned⟩ := exists_foldlM_historyOfTerm false named
  obtain ⟨conditions, isConditions, selected⟩ := exists_conditions_of_meets meets
  have isPlain := plainTerms_map_termOfEvent supported
  have noSearch := searchTerms_map_termOfEvent supported
  have accepted : ∀ needUserMessage : Bool,
      (needUserMessage = false → conditions.flatten.any ClauseElement.readsFlags = false) →
        narrowRows backend db (.user user) needUserMessage (narrow.map termOfEvent) =
          .ok (({ source := baseRows db needUserMessage (.user user)
                  conditions := conditions.flatten } : Query).rows
                (ClauseElement.eval backend db)) := by
    intro needUserMessage flagsThere
    refine narrowRows_eq_ok_iff.mpr ⟨fun _ => ⟨user, rfl⟩, by rwa [isPlain], conditions,
      by rwa [isPlain], [], by rw [noSearch]; rfl, by simp, ?_, ?_⟩
    · simpa [joinedSearch] using flagsThere
    · simp [joinedSearch]
  cases decided : scanned && !(narrow.map termOfEvent).any needsUserMessage with
  | false =>
      refine ⟨_, fetchRows_user_eq_ok_iff.mpr ⟨false, ?_, accepted true (by simp)⟩,
        ⟨message, some userMessage.flags⟩, Select.mem_rows.mpr ⟨?_, selected⟩, rfl⟩
      · exact bind_eq_ok_iff.mpr ⟨scanned, isScanned, congrArg Except.ok decided⟩
      · exact ((mem_userRows_iff isEvent).mpr rfl).1
  | true =>
      obtain ⟨-, noneNeeds⟩ := Bool.and_eq_true_iff.mp decided
      rw [Bool.not_eq_true'] at noneNeeds
      have noFlags := conditions_readsFlags supported noneNeeds isConditions
      refine ⟨_, fetchRows_user_eq_ok_iff.mpr ⟨true, ?_, accepted false fun _ => ?_⟩,
        ⟨message, none⟩, Select.mem_rows.mpr ⟨?_, fun condition isCondition => ?_⟩, rfl⟩
      · exact bind_eq_ok_iff.mpr ⟨scanned, isScanned, congrArg Except.ok decided⟩
      · rw [List.any_eq_false]
        intro condition isCondition
        simp [noFlags condition isCondition]
      · exact mem_realmRows.mpr ⟨isEvent.stored, isEvent.inRealm, rfl⟩
      · rw [← selected condition isCondition]
        exact ClauseElement.eval_congr (noFlags condition isCondition) rfl

/-- The query returns the message when its terms do not exclude each other and all are met. -/
theorem returned_iff (marked : DirectsMarked db)
    (isEvent : IsEventOf db user userMessage message payload flags)
    (supported : ∀ term ∈ narrow, SupportedByBoth term) :
    Returned backend db user narrow message ↔
      ¬Conflicting (narrow.map termOfEvent) ∧
        ∀ term ∈ narrow, Meets backend db user ⟨message, some userMessage.flags⟩ term :=
  ⟨meets_of_returned isEvent supported, fun both =>
    returned_of_meets marked isEvent supported both.1 both.2⟩

end Lists

/-- Where the event queue and the fetch agree on a message: no term is read differently; or some term
excludes the message on both sides; or one term excludes it on one side and one on the other; or the
narrow is to channels and to direct messages. -/
def AgreesOn (backend : Backend) (db : Database) (user : UserProfile) (message : Message)
    (payload : Tornado.MessagePayload) (flags : Flags) (narrow : List Tornado.NarrowTerm) : Prop :=
  (∀ term ∈ narrow, ¬Differs backend db user message payload flags term) ∨
    (∃ term ∈ narrow, ¬EventAdmits backend message payload flags term ∧
      ¬QueryAdmits backend db user message flags term) ∨
    ((∃ term ∈ narrow, EventAdmits backend message payload flags term ∧
        ¬QueryAdmits backend db user message flags term) ∧
      ∃ term ∈ narrow, ¬EventAdmits backend message payload flags term ∧
        QueryAdmits backend db user message flags term) ∨
    Conflicting (narrow.map termOfEvent)

/-- Two conjunctions are equivalent when their members are, or when both fail. -/
theorem forall_iff_forall_iff {Item : Type} {items : List Item} {left right : Item → Prop} :
    ((∀ item ∈ items, left item) ↔ ∀ item ∈ items, right item) ↔
      (∀ item ∈ items, left item ↔ right item) ∨ (∃ item ∈ items, ¬left item ∧ ¬right item) ∨
        ((∃ item ∈ items, left item ∧ ¬right item) ∧ ∃ item ∈ items, ¬left item ∧ right item) := by
  constructor
  · intro agree
    by_contra none
    push Not at none
    obtain ⟨⟨item, member, differs⟩, notBoth, oneSided⟩ := none
    rcases differs with ⟨isLeft, notRight⟩ | ⟨notLeft, isRight⟩
    · refine notRight (agree.mp (fun other otherMember => ?_) item member)
      by_contra notLeft
      exact absurd (notBoth other otherMember notLeft)
        (oneSided ⟨item, member, isLeft, notRight⟩ other otherMember notLeft)
    · refine notLeft (agree.mpr (fun other otherMember => ?_) item member)
      by_contra notRight
      by_cases isLeft : left other
      · exact oneSided ⟨other, otherMember, isLeft, notRight⟩ item member notLeft isRight
      · exact notRight (notBoth other otherMember isLeft)
  · rintro (agree | ⟨item, member, notLeft, notRight⟩ |
      ⟨⟨item, member, -, notRight⟩, ⟨other, otherMember, notLeft, -⟩⟩)
    · exact forall₂_congr agree
    · exact ⟨fun all => absurd (all item member) notLeft, fun all => absurd (all item member) notRight⟩
    · exact ⟨fun all => absurd (all other otherMember) notLeft,
        fun all => absurd (all item member) notRight⟩

/-- A narrow to channels and to direct messages admits no event. -/
theorem not_eventAdmits_of_conflicting {backend : Backend} {db : Database} {user : UserProfile}
    {userMessage : UserMessage} {message : Message} {payload : Tornado.MessagePayload}
    {flags : List String} {narrow : List Tornado.NarrowTerm}
    (isEvent : IsEventOf db user userMessage message payload flags)
    (supported : ∀ term ∈ narrow, SupportedByBoth term)
    (conflicting : Conflicting (narrow.map termOfEvent)) :
    ¬∀ term ∈ narrow, EventAdmits backend message payload userMessage.flags term := by
  intro admits
  obtain ⟨⟨_, isFirst, isChannel⟩, ⟨_, isSecond, isDm⟩⟩ := conflicting
  obtain ⟨first, firstMember, rfl⟩ := List.mem_map.mp isFirst
  obtain ⟨second, secondMember, rfl⟩ := List.mem_map.mp isSecond
  have isDirect : message.recipient.isStream = false := by
    have admitted := admits second secondMember
    obtain ⟨operator, operand⟩ := second
    rcases supported _ secondMember with isNamed | ⟨isIs, isOperand⟩
    · simp only [List.mem_cons, List.not_mem_nil, or_false] at isNamed
      rcases isNamed with rfl | rfl | rfl | rfl <;> cases isDm
    · dsimp only at isIs isOperand
      subst isIs
      simp only [List.mem_cons, List.not_mem_nil, or_false] at isOperand
      rcases isOperand with rfl | rfl | rfl | rfl | rfl | rfl | rfl
      · exact admitted .dm rfl
      · exact admitted .dm rfl
      all_goals cases isDm
  have isStream : message.recipient.isStream = true := by
    have admitted := admits first firstMember
    have displays : ∀ operand, DisplaysChannel backend payload operand →
        message.recipient.isStream = true := by
      rintro operand ⟨name, displayed, -⟩
      rcases isEvent.displayRecipient with ⟨isStream, -⟩ | ⟨-, participants, isDirect⟩
      · exact isStream
      · rw [displayed] at isDirect
        cases isDirect
    obtain ⟨operator, operand⟩ := first
    rcases supported _ firstMember with isNamed | ⟨isIs, isOperand⟩
    · simp only [List.mem_cons, List.not_mem_nil, or_false] at isNamed
      rcases isNamed with rfl | rfl | rfl | rfl
      · exact displays operand admitted
      · exact displays operand admitted
      · exact admitted.1
      · cases isChannel
    · dsimp only at isIs isOperand
      subst isIs
      simp only [List.mem_cons, List.not_mem_nil, or_false] at isOperand
      rcases isOperand with rfl | rfl | rfl | rfl | rfl | rfl | rfl <;> cases isChannel
  rw [isStream] at isDirect
  cases isDirect

/-- The event queue and the fetch agree on a message exactly as `AgreesOn` says. -/
theorem eventNarrow_agrees_iff (backend : Backend) (db : Database) (marked : DirectsMarked db)
    (user : UserProfile) (userMessage : UserMessage) (message : Message)
    (payload : Tornado.MessagePayload) (flags : List String)
    (isEvent : IsEventOf db user userMessage message payload flags)
    (narrow : List Tornado.NarrowTerm) (supported : ∀ term ∈ narrow, SupportedByBoth term) :
    (Tornado.narrowPredicate backend.lower narrow payload flags = true ↔
        Returned backend db user narrow message) ↔
      AgreesOn backend db user message payload userMessage.flags narrow := by
  have predicateIff : Tornado.narrowPredicate backend.lower narrow payload flags = true ↔
      ∀ term ∈ narrow, EventAdmits backend message payload userMessage.flags term := by
    rw [Tornado.narrowPredicate, List.all_eq_true]
    exact forall₂_congr fun term isTerm => satisfiesOperator_iff isEvent (supported term isTerm)
  have returnedIff : Returned backend db user narrow message ↔
      ¬Conflicting (narrow.map termOfEvent) ∧
        ∀ term ∈ narrow, QueryAdmits backend db user message userMessage.flags term := by
    rw [returned_iff marked isEvent supported]
    exact and_congr_right fun _ =>
      forall₂_congr fun term isTerm => meets_iff marked isEvent (supported term isTerm)
  have differsIff : (∀ term ∈ narrow, ¬Differs backend db user message payload userMessage.flags term) ↔
      ∀ term ∈ narrow, (EventAdmits backend message payload userMessage.flags term ↔
        QueryAdmits backend db user message userMessage.flags term) :=
    forall₂_congr fun term isTerm => (admits_iff_iff (supported term isTerm)).symm
  rw [predicateIff, returnedIff, AgreesOn, differsIff]
  by_cases conflicting : Conflicting (narrow.map termOfEvent)
  · have noEvent : ¬∀ term ∈ narrow, EventAdmits backend message payload userMessage.flags term :=
      not_eventAdmits_of_conflicting isEvent supported conflicting
    simp [conflicting, noEvent]
  · simp only [conflicting, not_false_eq_true, true_and, or_false]
    exact forall_iff_forall_iff

/-- `protectedHistory`, with an alert word in the message that the subscriber received. -/
def alertedHistory : Database :=
  { protectedHistory with
    userMessages := [⟨10, 101, {.read, .hasAlertWord}⟩, ⟨10, 102, {.isPrivate}⟩] }

theorem alertedHistory_marked : DirectsMarked alertedHistory where
  privateFlag := by decide
  emptyTopic := by decide

/-- The message with the alert word. -/
def alertedMessage : Message :=
  ⟨101, ⟨1, false, false⟩, 11, .stream 7, "plans", "after", false, false, false⟩

/-- The payload of its event. -/
def alertedPayload : Tornado.MessagePayload where
  id := 101
  senderId := 11
  displayRecipient := .stream "core team"
  subject := "plans"
  client := "website"
  content := "after"
  contentType := "text/x-markdown"
  renderedContent := none
  senderFullName := "Iago"
  senderEmail := "iago@example.com"
  avatarUrl := none
  inviteOnlyStream := none
  rest := []

theorem alertedMessage_isEvent :
    IsEventOf alertedHistory coreMember ⟨10, 101, {.read, .hasAlertWord}⟩ alertedMessage
      alertedPayload ["read", "has_alert_word"] where
  stored := by decide
  received := by decide
  ofUser := rfl
  ofMessage := rfl
  inRealm := rfl
  displayed := by
    intro stream member toStream
    obtain rfl := List.mem_singleton.mp member
    rfl
  direct isDirect := by cases isDirect
  subject := rfl
  flags := by decide

/-- A narrow to a channel, and to starred messages in it. -/
theorem eventNarrow_agrees_iff_starred :
    Tornado.narrowPredicate asciiBackend.lower [⟨"channel", "Core team"⟩, ⟨"is", "starred"⟩]
        alertedPayload ["read", "has_alert_word"] = true ↔
      Returned asciiBackend alertedHistory coreMember
        [⟨"channel", "Core team"⟩, ⟨"is", "starred"⟩] alertedMessage := by
  refine (eventNarrow_agrees_iff asciiBackend alertedHistory alertedHistory_marked coreMember _ _ _ _
    alertedMessage_isEvent _ ?_).mpr (.inl ?_)
  · intro term isTerm
    rcases List.mem_pair.mp isTerm with rfl | rfl
    · exact .inl (by simp)
    · exact .inr ⟨rfl, by simp⟩
  · intro term isTerm
    rcases List.mem_pair.mp isTerm with rfl | rfl
    · have displays : DisplaysChannel asciiBackend alertedPayload "Core team" :=
        ⟨_, rfl, by decide⟩
      have names : NamesChannel asciiBackend alertedHistory coreMember alertedMessage
          "Core team" :=
        ⟨⟨7, ⟨1, false, false⟩, "core team", true, false, false, false, false, rfl⟩,
          by decide +kernel, rfl⟩
      simp [Differs, displays, names]
    · simp [Differs, channelOperators]

/-- A message with an alert word that does not mention the user is fetched, and its event is
dropped. -/
theorem alerted_event_dropped :
    ¬(Tornado.narrowPredicate asciiBackend.lower [⟨"is", "alerted"⟩] alertedPayload
        ["read", "has_alert_word"] = true ↔
      Returned asciiBackend alertedHistory coreMember [⟨"is", "alerted"⟩] alertedMessage) := by
  intro agree
  have returned : Returned asciiBackend alertedHistory coreMember [⟨"is", "alerted"⟩]
      alertedMessage :=
    ⟨[⟨alertedMessage, some {.read, .hasAlertWord}⟩], rfl, _, List.mem_singleton_self _, rfl⟩
  exact absurd (agree.mpr returned) (by decide)

end Zulip.Narrow
