import Zulip.Access.Tables

/-!
# Access to messages

`has_message_access`, `bulk_access_messages` and `bulk_access_stream_messages_query`. The three
procedures decide the same relation: `AccessChecks` states it for one message, and the bulk
functions filter their argument by it.
-/

namespace Zulip.Access

/-- The exceptions of the access checks. -/
inductive AccessError where
  | get (error : GetError)
  /-- A `JsonableError` with its message. -/
  | jsonable (message : String)
  | assertionError
deriving DecidableEq, Repr

/-- `Stream.objects.get(id=stream_id)`, where its exception leaves the check. -/
def Database.streamById (db : Database) (streamId : Nat) : Except AccessError Stream :=
  (db.getStreamById streamId).mapError .get

/-- The stream that `has_message_access` reads; a `stream` argument is validated. -/
def streamOfMessage (db : Database) (message : Message) (typeId : Nat) (stream : Option Stream) :
    Except AccessError Stream :=
  match stream with
  | none => db.streamById typeId
  | some stream =>
      if stream.recipient = message.recipient then .ok stream else .error .assertionError

/-- `has_message_access`. -/
def hasMessageAccess (db : Database) (user : UserProfile) (message : Message)
    (hasUserMessage : Unit → Bool) (stream : Option Stream) (isSubscribed : Option Bool) :
    Except AccessError Bool :=
  match message.recipient with
  | .stream typeId => do
      let stream ← streamOfMessage db message typeId stream
      let isSubscribedHelper := isSubscribed.getD (db.isSubscribed user.id message.recipient)
      pure <|
        if stream.realm ≠ user.realm then false
        else if stream.isPublic ∧ user.canAccessPublicStreams then true
        else if !stream.isHistoryPublicToSubscribers then
          -- Unless history is public to subscribers, you need to both have received the message
          -- and be subscribed to the stream
          hasUserMessage () && isSubscribedHelper
        else isSubscribedHelper
  -- You can only access direct messages you received
  | _ => return hasUserMessage ()

/-- `get_messages_with_usermessage_rows_for_user`. -/
def getMessagesWithUsermessageRowsForUser (db : Database) (userProfileId : Nat)
    (messageIds : List Nat) : List Nat :=
  (db.userMessages.filter fun row =>
    row.userProfileId = userProfileId ∧ row.messageId ∈ messageIds).map (·.messageId)

/-- `get_subscribed_stream_recipient_ids_for_user`. -/
def getSubscribedStreamRecipientIdsForUser (db : Database) (user : UserProfile) :
    List Recipient :=
  (db.subscriptions.filter fun row =>
    row.userProfileId = user.id ∧ row.recipient.isStream ∧ row.active = true).map (·.recipient)

/-- `Stream.objects.filter(id__in=...)` over the streams that messages were sent to. -/
def streamsOfMessages (db : Database) (messages : List Message) : List Stream :=
  db.streams.filter fun stream => messages.any fun message => message.recipient = .stream stream.id

/-- `bulk_access_messages`. -/
def bulkAccessMessages (db : Database) (user : UserProfile) (messages : List Message)
    (stream : Option Stream) : Except AccessError (List Message) :=
  let userMessageSet := getMessagesWithUsermessageRowsForUser db user.id (messages.map (·.id))
  let streams := streamsOfMessages db messages
  let subscribedRecipientIds := getSubscribedStreamRecipientIdsForUser db user
  messages.foldlM
    (fun filteredMessages message => do
      let isSubscribed := decide (message.recipient ∈ subscribedRecipientIds)
      let knownStream := match stream with
        | none => streams.find? fun candidate => candidate.recipient = message.recipient
        | some stream => some stream
      let hasAccess ← hasMessageAccess db user message
        (fun _ => decide (message.id ∈ userMessageSet)) knownStream (some isSubscribed)
      return if hasAccess then filteredMessages ++ [message] else filteredMessages)
    []

/-- `bulk_access_stream_messages_query`. -/
def bulkAccessStreamMessagesQuery (db : Database) (user : UserProfile) (messages : List Message)
    (stream : Stream) : List Message :=
  let messages := messages.filter fun message =>
    message.realm = user.realm ∧ message.recipient = stream.recipient
  if stream.isPublic ∧ user.canAccessPublicStreams then messages
  else if !db.isSubscribed user.id stream.recipient then []
  else if !stream.isHistoryPublicToSubscribers then
    messages.filter fun message => db.hasUserMessage user.id message.id
  else messages

/-- What the checks decide for a message of a stream. -/
def mayReadOn (db : Database) (user : UserProfile) (stream : Stream) (message : Message) : Bool :=
  stream.realm = user.realm ∧
    ((stream.isPublic ∧ user.canAccessPublicStreams) ∨
      (db.isSubscribed user.id stream.recipient ∧
        (stream.isHistoryPublicToSubscribers ∨ db.hasUserMessage user.id message.id)))

/-- Whether a user may read a message. -/
def mayRead (db : Database) (user : UserProfile) (message : Message) : Bool :=
  match message.recipient with
  | .stream typeId =>
      match db.getStreamById typeId with
      | .ok stream => mayReadOn db user stream message
      | .error _ => false
  | _ => db.hasUserMessage user.id message.id

section OneMessage

variable {db : Database} {user : UserProfile} {message : Message}

theorem mem_userMessageSet {messages : List Message} (member : message ∈ messages) :
    decide (message.id ∈ getMessagesWithUsermessageRowsForUser db user.id (messages.map (·.id))) =
      db.hasUserMessage user.id message.id := by
  rw [Bool.eq_iff_iff, decide_eq_true_eq]
  simp only [getMessagesWithUsermessageRowsForUser, Database.hasUserMessage, List.mem_map,
    List.mem_filter, List.any_eq_true, decide_eq_true_eq]
  constructor
  · rintro ⟨row, ⟨stored, ofUser, _⟩, sameId⟩
    exact ⟨row, stored, ofUser, sameId⟩
  · rintro ⟨row, stored, ofUser, sameId⟩
    exact ⟨row, ⟨stored, ofUser, message, member, sameId.symm⟩, sameId⟩

theorem mem_subscribedRecipientIds {recipient : Recipient} (isStream : recipient.isStream = true) :
    decide (recipient ∈ getSubscribedStreamRecipientIdsForUser db user) =
      db.isSubscribed user.id recipient := by
  rw [Bool.eq_iff_iff, decide_eq_true_eq]
  simp only [getSubscribedStreamRecipientIdsForUser, Database.isSubscribed, List.mem_map,
    List.mem_filter, List.any_eq_true, decide_eq_true_eq]
  constructor
  · rintro ⟨row, ⟨stored, ofUser, _, active⟩, rfl⟩
    exact ⟨row, stored, ofUser, active, rfl⟩
  · rintro ⟨row, stored, ofUser, active, rfl⟩
    exact ⟨row, ⟨stored, ofUser, isStream, active⟩, rfl⟩

/-- The check on a stream message, wherever the stream and the subscription are known from. -/
theorem hasMessageAccess_stream {stream : Stream} (toStream : stream.recipient = message.recipient)
    (found : db.getStreamById stream.id = .ok stream) {known : Option Stream}
    (isKnown : known = none ∨ known = some stream) {isSubscribed : Option Bool}
    (subscribed : isSubscribed.getD (db.isSubscribed user.id message.recipient) =
      db.isSubscribed user.id message.recipient) :
    hasMessageAccess db user message (fun _ => db.hasUserMessage user.id message.id) known
      isSubscribed = .ok (mayReadOn db user stream message) := by
  have recipientEq : message.recipient = .stream stream.id := toStream.symm
  have streamEq : streamOfMessage db message stream.id known = .ok stream := by
    rcases isKnown with rfl | rfl
    · simp [streamOfMessage, Database.streamById, found, Except.mapError]
    · simp [streamOfMessage, toStream]
  have accessEq : hasMessageAccess db user message
      (fun _ => db.hasUserMessage user.id message.id) known isSubscribed = (do
        let stream ← streamOfMessage db message stream.id known
        pure <|
          if stream.realm ≠ user.realm then false
          else if stream.isPublic ∧ user.canAccessPublicStreams then true
          else if !stream.isHistoryPublicToSubscribers then
            db.hasUserMessage user.id message.id && db.isSubscribed user.id message.recipient
          else db.isSubscribed user.id message.recipient) := by
    unfold hasMessageAccess
    rw [subscribed]
    split
    · next typeId isStream =>
        rw [recipientEq, Recipient.stream.injEq] at isStream
        rw [isStream]
    · next notStream => exact absurd recipientEq (notStream _)
  rw [accessEq, streamEq, ← toStream]
  refine congrArg Except.ok ?_
  simp only [mayReadOn]
  by_cases sameRealm : stream.realm = user.realm <;>
    cases isPublic : stream.isPublic <;> cases canAccess : user.canAccessPublicStreams <;>
    cases historyPublic : stream.isHistoryPublicToSubscribers <;>
    cases isSub : db.isSubscribed user.id stream.recipient <;> simp [sameRealm]

/-- A direct message can be read by those who received it. -/
theorem hasMessageAccess_direct (isDirect : message.recipient.isStream = false)
    (hasUserMessage : Unit → Bool) (stream : Option Stream) (isSubscribed : Option Bool) :
    hasMessageAccess db user message hasUserMessage stream isSubscribed =
      .ok (hasUserMessage ()) := by
  unfold hasMessageAccess
  cases recipientEq : message.recipient with
  | stream typeId => simp [recipientEq, Recipient.isStream] at isDirect
  | personal _ => rfl
  | directMessageGroup _ => rfl

theorem mayRead_direct (isDirect : message.recipient.isStream = false) :
    mayRead db user message = db.hasUserMessage user.id message.id := by
  unfold mayRead
  cases recipientEq : message.recipient with
  | stream typeId => simp [recipientEq, Recipient.isStream] at isDirect
  | personal _ => rfl
  | directMessageGroup _ => rfl

theorem mayRead_stream {stream : Stream} (toStream : stream.recipient = message.recipient)
    (found : db.getStreamById stream.id = .ok stream) :
    mayRead db user message = mayReadOn db user stream message := by
  have recipientEq : message.recipient = .stream stream.id := toStream.symm
  unfold mayRead
  rw [recipientEq]
  dsimp only
  rw [found]

/-- Every message is direct, or its stream is there. -/
theorem direct_or_stream (stored : message ∈ db.messages) :
    message.recipient.isStream = false ∨
      ∃ stream ∈ db.streams, stream.recipient = message.recipient ∧
        stream.realm = message.realm ∧ db.getStreamById stream.id = .ok stream := by
  cases recipientEq : message.recipient with
  | personal _ => exact .inl rfl
  | directMessageGroup _ => exact .inl rfl
  | stream typeId =>
      obtain ⟨stream, member, toStream, sameRealm, _⟩ := db.exists_stream stored recipientEq
      exact .inr ⟨stream, member, recipientEq ▸ toStream, sameRealm,
        Database.getStreamById_of_mem member⟩

/-- `has_message_access` decides `mayRead`. -/
theorem hasMessageAccess_eq (stored : message ∈ db.messages) :
    hasMessageAccess db user message (fun _ => db.hasUserMessage user.id message.id) none none =
      .ok (mayRead db user message) := by
  rcases direct_or_stream stored with isDirect | ⟨stream, -, toStream, -, found⟩
  · rw [hasMessageAccess_direct isDirect, mayRead_direct isDirect]
  · rw [hasMessageAccess_stream toStream found (.inl rfl) rfl, mayRead_stream toStream found]

end OneMessage

section Bulk

variable {db : Database} {user : UserProfile}

/-- The stream that a bulk check knows for a message. -/
theorem find_streamsOfMessages {messages : List Message} {message : Message} {stream : Stream}
    (member : message ∈ messages) (stored : stream ∈ db.streams)
    (toStream : stream.recipient = message.recipient) :
    (streamsOfMessages db messages).find? (fun candidate => candidate.recipient = message.recipient) =
      some stream := by
  have isThere : stream ∈ streamsOfMessages db messages := by
    rw [streamsOfMessages, List.mem_filter]
    exact ⟨stored, List.any_eq_true.mpr ⟨message, member, decide_eq_true toStream.symm⟩⟩
  refine find?_of_key (db.streamKeys.sublist (List.filter_sublist.map _)) isThere
    (decide_eq_true toStream) fun other _ isMatch => ?_
  rw [decide_eq_true_eq] at isMatch
  simpa [Stream.recipient] using isMatch.trans toStream.symm

/-- A loop that appends the elements that pass a check. -/
theorem foldlM_append_filter {Item Error : Type} {check : Item → Except Error Bool}
    {passes : Item → Bool} {items : List Item} (collected : List Item)
    (decides : ∀ item ∈ items, check item = .ok (passes item)) :
    items.foldlM
        (fun collected item => do
          let passed ← check item
          return if passed then collected ++ [item] else collected) collected =
      .ok (collected ++ items.filter passes) := by
  induction items generalizing collected with
  | nil => simp [pure, Except.pure]
  | cons item rest inductionHypothesis =>
      rw [List.foldlM_cons, decides item List.mem_cons_self]
      have restDecides : ∀ other ∈ rest, check other = .ok (passes other) :=
        fun other isRest => decides other (List.mem_cons_of_mem _ isRest)
      cases passed : passes item with
      | true =>
          have next := inductionHypothesis (collected ++ [item]) restDecides
          simpa [passed, bind, Except.bind, pure, Except.pure] using next
      | false =>
          have next := inductionHypothesis collected restDecides
          simpa [passed, bind, Except.bind, pure, Except.pure] using next

/-- `bulk_access_messages` keeps the messages that the user may read, in order. -/
theorem bulkAccessMessages_eq {messages : List Message}
    (stored : ∀ message ∈ messages, message ∈ db.messages) :
    bulkAccessMessages db user messages none = .ok (messages.filter (mayRead db user)) := by
  refine (foldlM_append_filter [] fun message member => ?_).trans (by rw [List.nil_append])
  dsimp only
  rw [mem_userMessageSet member]
  rcases direct_or_stream (stored message member) with isDirect |
    ⟨stream, streamStored, toStream, -, found⟩
  · rw [hasMessageAccess_direct isDirect, mayRead_direct isDirect]
  · rw [find_streamsOfMessages member streamStored toStream, mayRead_stream toStream found]
    refine hasMessageAccess_stream toStream found (.inr rfl) ?_
    rw [Option.getD_some, mem_subscribedRecipientIds]
    rw [← toStream]
    rfl

/-- The same for messages of one stream that the caller passes. -/
theorem bulkAccessMessages_stream_eq {messages : List Message} {stream : Stream}
    (streamStored : stream ∈ db.streams)
    (toStream : ∀ message ∈ messages, message.recipient = stream.recipient) :
    bulkAccessMessages db user messages (some stream) =
      .ok (messages.filter (mayRead db user)) := by
  refine (foldlM_append_filter [] fun message member => ?_).trans (by rw [List.nil_append])
  dsimp only
  have found : db.getStreamById stream.id = .ok stream := Database.getStreamById_of_mem streamStored
  rw [mem_userMessageSet member, mayRead_stream (toStream message member).symm found]
  refine hasMessageAccess_stream (toStream message member).symm found (.inr rfl) ?_
  rw [Option.getD_some, mem_subscribedRecipientIds]
  rw [toStream message member]
  rfl

/-- `bulk_access_stream_messages_query` keeps the messages of the stream that the user may read, in
order. -/
theorem bulkAccessStreamMessagesQuery_eq {messages : List Message} {stream : Stream}
    (stored : ∀ message ∈ messages, message ∈ db.messages) (streamStored : stream ∈ db.streams) :
    bulkAccessStreamMessagesQuery db user messages stream =
      (messages.filter fun message => message.recipient = stream.recipient).filter
        (mayRead db user) := by
  have found : db.getStreamById stream.id = .ok stream := Database.getStreamById_of_mem streamStored
  have ofStream : ∀ message ∈ messages, message.recipient = stream.recipient →
      message.realm = stream.realm ∧ mayRead db user message = mayReadOn db user stream message := by
    intro message member toStream
    obtain ⟨other, otherStored, otherTo, sameRealm, _⟩ :=
      db.exists_stream (stored message member) toStream
    have sameId : other.id = stream.id := by
      simpa [Stream.recipient] using otherTo.trans toStream
    rw [List.inj_on_of_nodup_map db.streamKeys otherStored streamStored sameId] at sameRealm
    exact ⟨sameRealm.symm, mayRead_stream toStream.symm found⟩
  have filtered : ∀ keeps : Message → Bool,
      (∀ message ∈ messages, message.recipient = stream.recipient →
        (message.realm = user.realm ∧ keeps message = true ↔ mayRead db user message = true)) →
      (messages.filter fun message =>
        message.realm = user.realm ∧ message.recipient = stream.recipient).filter keeps =
        (messages.filter fun message => message.recipient = stream.recipient).filter
          (mayRead db user) := by
    intro keeps agree
    rw [List.filter_filter, List.filter_filter]
    refine List.filter_congr fun message member => ?_
    rw [Bool.eq_iff_iff]
    simp only [Bool.and_eq_true, decide_eq_true_eq]
    constructor
    · rintro ⟨kept, sameRealm, toStream⟩
      exact ⟨(agree message member toStream).mp ⟨sameRealm, kept⟩, toStream⟩
    · rintro ⟨readable, toStream⟩
      obtain ⟨sameRealm, kept⟩ := (agree message member toStream).mpr readable
      exact ⟨kept, sameRealm, toStream⟩
  unfold bulkAccessStreamMessagesQuery
  dsimp only
  split_ifs with isOpen notSubscribed protectedHistory
  · rw [← filtered (fun _ => true)]
    · rw [List.filter_true]
    · intro message member toStream
      obtain ⟨sameRealm, readable⟩ := ofStream message member toStream
      simp [readable, mayReadOn, sameRealm, isOpen]
  · rw [eq_comm, List.filter_eq_nil_iff]
    intro message member
    obtain ⟨isMember, toStream⟩ := List.mem_filter.mp member
    obtain ⟨-, readable⟩ := ofStream message isMember (by simpa using toStream)
    simp only [Bool.not_eq_true'] at notSubscribed
    simp only [readable, mayReadOn, isOpen, notSubscribed]
    simp
  · rw [← filtered]
    intro message member toStream
    obtain ⟨sameRealm, readable⟩ := ofStream message member toStream
    simp_all [mayReadOn]
  · rw [← filtered (fun _ => true)]
    · rw [List.filter_true]
    · intro message member toStream
      obtain ⟨sameRealm, readable⟩ := ofStream message member toStream
      simp_all [mayReadOn]

end Bulk

/-- Whether `has_message_access` grants access, when it is called for one message. -/
def isAccessible (db : Database) (user : UserProfile) (message : Message) : Bool :=
  hasMessageAccess db user message (fun _ => db.hasUserMessage user.id message.id) none none matches
    .ok true

theorem isAccessible_eq {db : Database} {user : UserProfile} {message : Message}
    (stored : message ∈ db.messages) : isAccessible db user message = mayRead db user message := by
  unfold isAccessible
  rw [hasMessageAccess_eq stored]
  cases mayRead db user message <;> rfl

/-- The three access checks agree on every message, and on lists the bulk checks return the messages
that are accessible one by one, in order. -/
theorem accessChecks_agree (db : Database) (user : UserProfile) (messages : List Message)
    (stored : ∀ message ∈ messages, message ∈ db.messages) :
    (∀ message ∈ messages, ∃ allowed : Bool,
      hasMessageAccess db user message (fun _ => db.hasUserMessage user.id message.id) none none =
          .ok allowed ∧
        (∃ readable, bulkAccessMessages db user [message] none = .ok readable ∧
          (message ∈ readable ↔ allowed = true)) ∧
        ∀ stream ∈ db.streams, stream.recipient = message.recipient →
          (message ∈ bulkAccessStreamMessagesQuery db user [message] stream ↔ allowed = true)) ∧
      bulkAccessMessages db user messages none = .ok (messages.filter (isAccessible db user)) ∧
      ∀ stream ∈ db.streams,
        bulkAccessStreamMessagesQuery db user messages stream =
            (messages.filter fun message => message.recipient = stream.recipient).filter
              (isAccessible db user) ∧
          ((∀ message ∈ messages, message.recipient = stream.recipient) →
            bulkAccessMessages db user messages (some stream) =
              .ok (messages.filter (isAccessible db user))) := by
  have sameFilter : messages.filter (isAccessible db user) = messages.filter (mayRead db user) :=
    List.filter_congr fun message member => isAccessible_eq (stored message member)
  refine ⟨fun message member => ?_, ?_, fun stream streamStored => ⟨?_, fun toStream => ?_⟩⟩
  · have storedOne : ∀ other ∈ [message], other ∈ db.messages := by
      simpa using stored message member
    refine ⟨mayRead db user message, hasMessageAccess_eq (stored message member),
      ⟨_, bulkAccessMessages_eq storedOne, by simp⟩, fun stream streamStored toStream => ?_⟩
    rw [bulkAccessStreamMessagesQuery_eq storedOne streamStored]
    simp [toStream]
  · rw [bulkAccessMessages_eq stored, sameFilter]
  · rw [bulkAccessStreamMessagesQuery_eq stored streamStored]
    refine List.filter_congr fun message member => ?_
    exact (isAccessible_eq (stored message (List.mem_of_mem_filter member))).symm
  · rw [bulkAccessMessages_stream_eq streamStored toStream, sameFilter]

/-- A private stream with protected history: its subscriber received the second message only. -/
def protectedHistory : Database where
  streams := [⟨7, ⟨1, false, false⟩, "core team", true, false, false, false, false, rfl⟩]
  subscriptions := [⟨10, .stream 7, true, false⟩]
  messages :=
    [⟨100, ⟨1, false, false⟩, 11, .stream 7, "plans", "before", false, false, false⟩,
      ⟨101, ⟨1, false, false⟩, 11, .stream 7, "plans", "after", false, false, false⟩,
      ⟨102, ⟨1, false, false⟩, 11, .personal 10, "", "hello", false, false, false⟩]
  userMessages := [⟨10, 101, {.read}⟩, ⟨10, 102, {.isPrivate}⟩]
  streamOfMessage := by
    intro message stored streamId toStream
    simp only [List.mem_cons, List.not_mem_nil, or_false] at stored
    rcases stored with rfl | rfl | rfl
    · exact ⟨_, List.mem_singleton_self _, by simpa using toStream, rfl⟩
    · exact ⟨_, List.mem_singleton_self _, by simpa using toStream, rfl⟩
    · cases toStream

/-- The checks agree on these messages; all but the first are accessible. -/
theorem accessChecks_agree_protected :
    bulkAccessMessages protectedHistory
        ⟨10, ⟨1, false, false⟩, .member, "a@example.com", "a@example.com"⟩
        protectedHistory.messages none =
      .ok (protectedHistory.messages.filter (isAccessible protectedHistory
        ⟨10, ⟨1, false, false⟩, .member, "a@example.com", "a@example.com"⟩)) ∧
      (protectedHistory.messages.filter (isAccessible protectedHistory
        ⟨10, ⟨1, false, false⟩, .member, "a@example.com", "a@example.com"⟩)).map (·.id) =
        [101, 102] :=
  ⟨(accessChecks_agree protectedHistory
      ⟨10, ⟨1, false, false⟩, .member, "a@example.com", "a@example.com"⟩
      protectedHistory.messages fun _ stored => stored).2.1,
    by decide⟩

end Zulip.Access
