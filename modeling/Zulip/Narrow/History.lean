import Mathlib.Data.Finset.Sort
import Zulip.Narrow.Fetch

/-!
# Narrowing and history

When `ok_to_include_history` allows it, a query reads all messages of the realm, and only the
conditions of the same terms keep it to streams whose history the user may access. The conditions
and the decision are compared term by term. In the Zephyr mirroring realm the condition of a channel
term admits several channels, which is the only way to widen access.
-/

namespace Zulip.Narrow

open Zulip.Access Zulip.Messages

/-- Whether a viewer may read the full history of a stream. -/
def MayReadHistory (db : Database) (stream : Stream) : Viewer → Prop
  | .user profile => canAccessStreamHistory db profile stream = .ok true
  | .spectator home => stream.isWebPublic = true ∧ stream.realm = home

/-- A message that the viewer has a `UserMessage` row for or, with history, one of a stream whose
full history the viewer may read. -/
def Entitled (db : Database) (viewer : Viewer) (includeHistory : Bool) (message : Message) : Prop :=
  (∃ user, viewer = .user user ∧ db.hasUserMessage user.id message.id = true) ∨
    (includeHistory = true ∧
      ∃ stream ∈ db.streams, stream.recipient = message.recipient ∧ MayReadHistory db stream viewer)

/-- The viewer's queries return rows of their base queries that the viewer is entitled to. -/
def NeverWidens (backend : Backend) (db : Database) (viewer : Viewer) : Prop :=
  ∀ narrow terms fetch rows, narrowOfRequest narrow viewer = .ok terms →
    fetchQuery backend db viewer terms = .ok fetch →
      execute backend db (!fetch.includeHistory) fetch.query = .ok rows →
        rows.Sublist (fetch.base.rows (ClauseElement.eval backend db)) ∧
          ∀ row ∈ rows, Entitled db viewer fetch.includeHistory row.message

/-- In the Zephyr mirroring realm, a channel whose history the viewer may read is shown together
only with channels whose messages the viewer may all read. -/
def FamiliesReadable (backend : Backend) (db : Database) : Viewer → Prop
  | .user profile =>
      profile.realm.isZephyrMirrorRealm = true →
        ∀ channel ∈ db.streams, canAccessStreamHistory db profile channel = .ok true →
          ∀ sibling ∈ matchingChannels backend db (Viewer.user profile).context channel,
            canAccessStreamHistory db profile sibling = .ok true ∨
              ∀ message ∈ db.messages, message.recipient = sibling.recipient →
                db.hasUserMessage profile.id message.id = true
  | .spectator _ => True

section Rows

variable {backend : Backend} {db : Database} {viewer : Viewer} {user : UserProfile} {row : Row}

theorem mem_userRows (member : row ∈ userRows db user) :
    db.hasUserMessage user.id row.message.id = true := by
  simp only [userRows, List.mem_filterMap, List.mem_filter, Option.map_eq_some_iff] at member
  obtain ⟨userMessage, ⟨stored, ofUser⟩, message, found, rfl⟩ := member
  have sameId : message.id = userMessage.messageId := by simpa using List.find?_some found
  exact List.any_eq_true.mpr ⟨userMessage, stored, by simpa [sameId] using ofUser⟩

theorem mem_realmRows {realm : Realm} :
    row ∈ realmRows db realm ↔
      row.message ∈ db.messages ∧ row.message.realm = realm ∧ row.flags = none := by
  simp only [realmRows, List.mem_map, List.mem_filter, decide_eq_true_eq]
  constructor
  · rintro ⟨message, ⟨stored, inRealm⟩, rfl⟩
    exact ⟨stored, inRealm, rfl⟩
  · rintro ⟨stored, inRealm, noFlags⟩
    exact ⟨row.message, ⟨stored, inRealm⟩, by rw [← noFlags]⟩

theorem execute_eq_ok_iff {needUserMessage : Bool} {query : Query} {rows : List Row} :
    execute backend db needUserMessage query = .ok rows ↔
      (needUserMessage = false → query.conditions.any ClauseElement.readsFlags = false) ∧
        query.rows (ClauseElement.eval backend db) = rows := by
  unfold execute
  split_ifs with missing
  · simp [missing]
  · simp only [Except.ok.injEq]
    constructor
    · rintro rfl
      exact ⟨fun noUserMessage => by simpa [noUserMessage] using missing, rfl⟩
    · exact fun built => built.2

/-- What `fetch_messages` has built: the base query and the conditions of the narrow. -/
theorem fetchQuery_eq_ok {narrow : Option (List NarrowParameter)} {fetch : FetchQuery}
    (built : fetchQuery backend db viewer narrow = .ok fetch) :
    okToIncludeHistory backend db narrow viewer = .ok fetch.includeHistory ∧
      getBaseQueryForSearch db viewer (!fetch.includeHistory) = .ok fetch.base ∧
        ((narrow = none ∧ fetch.query = fetch.base) ∨
          ∃ terms, narrow = some terms ∧
            addNarrowConditions backend db viewer.context fetch.base terms =
              .ok (fetch.query, fetch.isSearch)) := by
  unfold fetchQuery at built
  obtain ⟨includeHistory, isOk, built⟩ := exists_of_bind_eq_ok built
  obtain ⟨base, isBase, built⟩ := exists_of_bind_eq_ok built
  cases narrow with
  | none =>
      cases built
      exact ⟨isOk, isBase, .inl ⟨rfl, rfl⟩⟩
  | some terms =>
      obtain ⟨narrowed, isNarrowed, built⟩ := exists_of_bind_eq_ok built
      cases built
      exact ⟨isOk, isBase, .inr ⟨terms, rfl, isNarrowed⟩⟩

/-- The base query only reads the user's own rows or those of the realm. -/
theorem getBaseQueryForSearch_eq_ok {needUserMessage : Bool} {base : Query}
    (built : getBaseQueryForSearch db viewer needUserMessage = .ok base) :
    base.conditions = [] ∧
      ((needUserMessage = false ∧ base.source = realmRows db viewer.realm) ∨
        ∃ user, viewer = .user user ∧ needUserMessage = true ∧ base.source = userRows db user) := by
  unfold getBaseQueryForSearch at built
  split at built
  · cases built
    exact ⟨rfl, .inl ⟨rfl, rfl⟩⟩
  · next user =>
      cases built
      exact ⟨rfl, .inr ⟨user, rfl, rfl, rfl⟩⟩
  · cases built

/-- A narrow only adds conditions. -/
theorem fetchQuery_conditions {narrow : Option (List NarrowParameter)} {fetch : FetchQuery}
    (built : fetchQuery backend db viewer narrow = .ok fetch) :
    ∃ conditions, fetch.query = fetch.base.filterByAll conditions := by
  obtain ⟨-, -, ⟨-, unchanged⟩ | ⟨terms, -, narrowed⟩⟩ := fetchQuery_eq_ok built
  · exact ⟨[], by simp [unchanged]⟩
  · obtain ⟨-, conditions, -, operands, -, -, isQuery, -⟩ :=
      addNarrowConditions_eq_ok_iff.mp narrowed
    exact ⟨_, isQuery⟩

/-- The conditions of each plain term are among those of the query. -/
theorem exists_termConditions {context : NarrowContext} {base query : Query} {isSearch : Bool}
    {terms : List NarrowParameter}
    (narrowed : addNarrowConditions backend db context base terms = .ok (query, isSearch))
    {term : NarrowParameter} (member : term ∈ terms) (notSearch : term.operator ≠ "search") :
    ∃ conditions, termConditions backend db context term = .ok conditions ∧
      ∀ condition ∈ conditions, condition ∈ query.conditions := by
  obtain ⟨-, conditions, isConditions, operands, -, -, rfl, -⟩ :=
    addNarrowConditions_eq_ok_iff.mp narrowed
  obtain ⟨found, isFound, foundMember⟩ :=
    exists_result_of_mapM_eq_ok isConditions term (mem_plainTerms.mpr ⟨member, notSearch⟩)
  refine ⟨found, isFound, fun condition isCondition => ?_⟩
  refine List.mem_append_right _ (List.mem_append_left _ ?_)
  exact List.mem_flatten.mpr ⟨found, foundMember, isCondition⟩

end Rows

section Decision

variable {backend : Backend} {db : Database} {user : UserProfile}

/-- A term that can decide for history. -/
def Grants (backend : Backend) (db : Database) (user : UserProfile) (term : NarrowParameter) :
    Prop :=
  term.negated = false ∧
    ((term.operator ∈ channelOperators ∧ ∃ channel,
        channelOfOperand backend db (Viewer.user user).context term.operand = .ok channel ∧
          canAccessStreamHistory db user channel = .ok true) ∨
      (term.operator ∈ channelsOperators ∧ term.operand = .str "public" ∧
        user.canAccessPublicStreams = true))

theorem ofAccess_eq_ok_iff {access : Except AccessError Bool} {granted : Bool} :
    ofAccess access = .ok granted ↔ access = .ok granted := by
  unfold ofAccess
  split <;> simp

/-- A term leaves the decision as it was, decides against history, or grants it. -/
theorem historyOfTerm_eq_true {includeHistory : Bool} {term : NarrowParameter}
    (decided : historyOfTerm backend db user includeHistory term = .ok true) :
    includeHistory = true ∨ Grants backend db user term := by
  unfold historyOfTerm at decided
  split_ifs at decided with isChannel isPublic
  · refine .inr ⟨isChannel.2, .inl ⟨isChannel.1, ?_⟩⟩
    cases operandEq : term.operand with
    | str streamName =>
        rw [operandEq] at decided
        obtain ⟨channel, found, granted⟩ :=
          exists_stream_of_byName (ofAccess_eq_ok_iff.mp decided)
        exact ⟨channel, by simp [channelOfOperand, Viewer.context, found], granted⟩
    | int streamId =>
        rw [operandEq] at decided
        obtain ⟨channel, found, granted⟩ := exists_stream_of_byId (ofAccess_eq_ok_iff.mp decided)
        exact ⟨channel, by simp [channelOfOperand, Viewer.context, found], granted⟩
    | ids values =>
        rw [operandEq] at decided
        cases decided
  · exact .inr ⟨isPublic.2.2.1, .inr ⟨isPublic.1, isPublic.2.1, isPublic.2.2.2⟩⟩
  · exact .inl (Except.ok.inj decided)

/-- When history is included, some term granted it. -/
theorem exists_grant {terms : List NarrowParameter} {includeHistory : Bool}
    (decided : terms.foldlM (historyOfTerm backend db user) includeHistory = .ok true) :
    includeHistory = true ∨ ∃ term ∈ terms, Grants backend db user term := by
  induction terms generalizing includeHistory with
  | nil => exact .inl (Except.ok.inj decided)
  | cons term rest inductionHypothesis =>
      rw [List.foldlM_cons] at decided
      obtain ⟨next, isNext, decided⟩ := exists_of_bind_eq_ok decided
      rcases inductionHypothesis decided with rfl | ⟨later, member, grants⟩
      · refine (historyOfTerm_eq_true isNext).imp_right fun grants => ?_
        exact ⟨term, List.mem_cons_self, grants⟩
      · exact .inr ⟨later, List.mem_cons_of_mem _ member, grants⟩

theorem exists_grant_of_okToIncludeHistory {narrow : Option (List NarrowParameter)}
    (decided : okToIncludeHistory backend db narrow (.user user) = .ok true) :
    ∃ terms, narrow = some terms ∧ ∃ term ∈ terms, Grants backend db user term := by
  unfold okToIncludeHistory at decided
  obtain ⟨includeHistory, isIncluded, decided⟩ := exists_of_bind_eq_ok decided
  have included : includeHistory = true := by
    cases includeHistory with
    | true => rfl
    | false => cases decided
  rw [included] at isIncluded
  obtain ⟨term, member, grants⟩ := (exists_grant isIncluded).resolve_left Bool.false_ne_true
  cases narrow with
  | none => cases member
  | some terms => exact ⟨terms, rfl, term, member, grants⟩

end Decision

section Security

variable {backend : Backend} {db : Database} {user : UserProfile} {term : NarrowParameter}

theorem termConditions_channel {context : NarrowContext} (isChannel : term.operator ∈ channelOperators)
    (plain : term.negated = false) :
    termConditions backend db context term =
      (channelCondition backend db context term.operand).map fun condition => [condition] := by
  obtain ⟨operator, operand, negated⟩ := term
  dsimp only at isChannel plain
  subst plain
  rcases List.mem_pair.mp isChannel with rfl | rfl <;> rfl

theorem termConditions_channels {context : NarrowContext}
    (isChannels : term.operator ∈ channelsOperators) (plain : term.negated = false) :
    termConditions backend db context term =
      (channelsCondition db context term.operand).map fun condition => [condition] := by
  obtain ⟨operator, operand, negated⟩ := term
  dsimp only at isChannels plain
  subst plain
  rcases List.mem_pair.mp isChannels with rfl | rfl <;> rfl

theorem realm_eq_of_canAccessStreamHistory {stream : Stream}
    (granted : canAccessStreamHistory db user stream = .ok true) : stream.realm = user.realm := by
  by_contra otherRealm
  unfold canAccessStreamHistory at granted
  rw [if_pos (Ne.symm otherRealm)] at granted
  cases granted

theorem channelOfOperand_mem {context : NarrowContext} {operand : Operand} {channel : Stream}
    (found : channelOfOperand backend db context operand = .ok channel) :
    channel ∈ db.streams ∧ channel.realm = context.realm := by
  unfold channelOfOperand at found
  dsimp only at found
  split at found
  · next stream isFound =>
      split_ifs at found
      cases found
      cases operand with
      | str name => exact getStream_mem (Option.some.inj isFound)
      | int streamId =>
          have member := getStreamByIdInRealm_mem (Option.some.inj isFound)
          exact ⟨member.1, member.2.1⟩
      | ids values => cases isFound
  · cases found
  · cases found
  · cases found

/-- A stream is determined by its recipient. -/
theorem stream_eq_of_recipient {stream other : Stream} (stored : stream ∈ db.streams)
    (otherStored : other ∈ db.streams) (sameRecipient : stream.recipient = other.recipient) :
    stream = other :=
  List.inj_on_of_nodup_map db.streamKeys stored otherStored (by simpa [Stream.recipient] using
    sameRecipient)

/-- A public stream of a realm that shows its public streams to a user. -/
theorem canAccessStreamHistory_of_public {stream : Stream}
    (isPublic : stream ∈ db.getPublicStreamsQueryset user.realm)
    (mayAccess : user.canAccessPublicStreams = true) :
    canAccessStreamHistory db user stream = .ok true := by
  obtain ⟨-, sameRealm, notInviteOnly, -⟩ := mem_getPublicStreamsQueryset.mp isPublic
  simp only [UserProfile.canAccessPublicStreams, Bool.not_eq_true', Bool.or_eq_false_iff] at mayAccess
  rw [canAccessStreamHistory_iff sameRealm]
  have notZephyr : stream.isInZephyrRealm = false := by
    rw [stream.populated, sameRealm]
    exact mayAccess.2
  exact .inr (.inl ⟨by simp [Stream.isPublic, notInviteOnly, notZephyr], mayAccess.1⟩)

/-- A row that meets the condition of a term that grants history. -/
theorem entitled_of_grants (families : FamiliesReadable backend db (.user user))
    (grants : Grants backend db user term) {conditions : List ClauseElement}
    (isConditions : termConditions backend db (Viewer.user user).context term = .ok conditions)
    {row : Row} (stored : row.message ∈ db.messages)
    (selected : ∀ condition ∈ conditions, condition.eval backend db row = some true) :
    Entitled db (.user user) true row.message := by
  rcases grants with ⟨plain, ⟨isChannel, channel, found, granted⟩ |
    ⟨isChannels, isPublic, mayAccess⟩⟩
  · obtain ⟨channelStored, sameRealm⟩ := channelOfOperand_mem found
    rw [termConditions_channel isChannel plain] at isConditions
    unfold channelCondition at isConditions
    rw [found] at isConditions
    cases isZephyr : user.realm.isZephyrMirrorRealm with
    | false =>
        have isCondition : conditions = [.recipientIs channel.recipient] := by
          simpa [bind, Except.bind, Viewer.context, isZephyr, Except.map, eq_comm] using isConditions
        have toChannel := selected _ (isCondition ▸ List.mem_singleton_self _)
        simp only [ClauseElement.eval, Option.some.injEq, decide_eq_true_eq] at toChannel
        exact .inr ⟨rfl, channel, channelStored, toChannel.symm, granted⟩
    | true =>
        have notPublic : channel.isPublic = false := by
          have inZephyr : channel.isInZephyrRealm = true := by
            rw [channel.populated, sameRealm]
            exact isZephyr
          simp [Stream.isPublic, inZephyr]
        have isCondition : conditions = [.recipientIn
            ((matchingChannels backend db (Viewer.user user).context channel).map (·.recipient))] := by
          simpa [bind, Except.bind, Viewer.context, isZephyr, notPublic, Except.map, eq_comm] using
            isConditions
        have toSibling := selected _ (isCondition ▸ List.mem_singleton_self _)
        simp only [ClauseElement.eval, Option.some.injEq, decide_eq_true_eq, List.mem_map]
          at toSibling
        obtain ⟨sibling, isSibling, toSibling⟩ := toSibling
        rcases families isZephyr channel channelStored granted sibling isSibling with mayRead | received
        · have siblingStored := (mem_getActiveStreams.mp (List.mem_of_mem_filter isSibling)).1
          exact .inr ⟨rfl, sibling, siblingStored, toSibling, mayRead⟩
        · exact .inl ⟨user, rfl, received row.message stored toSibling.symm⟩
  · rw [termConditions_channels isChannels plain, isPublic] at isConditions
    have isCondition : conditions = [.recipientIn
        ((db.getPublicStreamsQueryset user.realm).map (·.recipient))] := by
      simpa [channelsCondition, Except.map, Viewer.context, eq_comm] using isConditions
    have toPublic := selected _ (isCondition ▸ List.mem_singleton_self _)
    simp only [ClauseElement.eval, Option.some.injEq, decide_eq_true_eq, List.mem_map] at toPublic
    obtain ⟨stream, streamPublic, toStream⟩ := toPublic
    exact .inr ⟨rfl, stream, (mem_getPublicStreamsQueryset.mp streamPublic).1, toStream,
      canAccessStreamHistory_of_public streamPublic mayAccess⟩

/-- A query of a user. -/
theorem entitled_of_user (families : FamiliesReadable backend db (.user user))
    {narrow : Option (List NarrowParameter)} {fetch : FetchQuery}
    (built : fetchQuery backend db (.user user) narrow = .ok fetch) {row : Row}
    (member : row ∈ fetch.query.rows (ClauseElement.eval backend db)) :
    Entitled db (.user user) fetch.includeHistory row.message := by
  obtain ⟨decided, isBase, isQuery⟩ := fetchQuery_eq_ok built
  obtain ⟨inSource, selected⟩ := Select.mem_rows.mp member
  obtain ⟨conditions, extended⟩ := fetchQuery_conditions built
  rw [extended, Select.source_filterByAll] at inSource
  obtain ⟨-, ⟨withHistory, isSource⟩ | ⟨other, isViewer, -, isSource⟩⟩ :=
    getBaseQueryForSearch_eq_ok isBase
  · have included : fetch.includeHistory = true := by simpa using withHistory
    rw [included] at decided ⊢
    obtain ⟨terms, rfl, term, isTerm, grants⟩ := exists_grant_of_okToIncludeHistory decided
    rcases isQuery with ⟨absent, -⟩ | ⟨_, sameTerms, narrowed⟩
    · cases absent
    · cases sameTerms
      have notSearch : term.operator ≠ "search" := by
        rintro isSearch
        rcases grants.2 with ⟨isChannel, -⟩ | ⟨isChannels, -⟩
        · rw [isSearch] at isChannel
          exact absurd isChannel (by decide)
        · rw [isSearch] at isChannels
          exact absurd isChannels (by decide)
      obtain ⟨termClauses, isClauses, inQuery⟩ := exists_termConditions narrowed isTerm notSearch
      rw [isSource] at inSource
      exact entitled_of_grants families grants isClauses (mem_realmRows.mp inSource).1
        fun condition isCondition => selected condition (inQuery condition isCondition)
  · cases isViewer
    rw [isSource] at inSource
    exact .inl ⟨user, rfl, mem_userRows inSource⟩

/-- A query of a spectator. -/
theorem entitled_of_spectator {home : Realm} {narrow terms : Option (List NarrowParameter)}
    {fetch : FetchQuery} (allowed : narrowOfRequest narrow (.spectator home) = .ok terms)
    (built : fetchQuery backend db (.spectator home) terms = .ok fetch) {row : Row}
    (member : row ∈ fetch.query.rows (ClauseElement.eval backend db)) :
    Entitled db (.spectator home) fetch.includeHistory row.message := by
  obtain ⟨decided, -, isQuery⟩ := fetchQuery_eq_ok built
  have included : fetch.includeHistory = true := (Except.ok.inj decided).symm
  obtain ⟨-, selected⟩ := Select.mem_rows.mp member
  unfold narrowOfRequest at allowed
  dsimp only at allowed
  split at allowed
  · next cleaned _ =>
      split_ifs at allowed with isWebPublic
      cases allowed
      obtain ⟨term, isTerm, isWebPublicTerm⟩ := List.any_eq_true.mp isWebPublic.1
      rw [decide_eq_true_eq] at isWebPublicTerm
      obtain ⟨isChannels, operandEq, plain⟩ := isWebPublicTerm
      rcases isQuery with ⟨absent, -⟩ | ⟨_, sameTerms, narrowed⟩
      · cases absent
      · cases sameTerms
        have notSearch : term.operator ≠ "search" := by
          rintro isSearch
          rw [isSearch] at isChannels
          exact absurd isChannels (by decide)
        obtain ⟨conditions, isConditions, inQuery⟩ := exists_termConditions narrowed isTerm notSearch
        rw [termConditions_channels isChannels plain, operandEq] at isConditions
        have isCondition : conditions = [.recipientIn
            ((db.getWebPublicStreamsQueryset home).map (·.recipient))] := by
          simpa [channelsCondition, Except.map, Viewer.context, eq_comm] using isConditions
        have toWebPublic := selected _ (inQuery _ (isCondition ▸ List.mem_singleton_self _))
        simp only [ClauseElement.eval, Option.some.injEq, decide_eq_true_eq, List.mem_map]
          at toWebPublic
        obtain ⟨stream, streamWebPublic, toStream⟩ := toWebPublic
        obtain ⟨stored, sameRealm, webPublic, -⟩ :=
          mem_getWebPublicStreamsQueryset.mp streamWebPublic
        exact .inr ⟨included, stream, stored, toStream, webPublic, sameRealm⟩
  · cases allowed

/-- The narrow to one channel, by its id. -/
def channelNarrow (channel : Stream) : List NarrowParameter :=
  [{ operator := "channel", operand := .int channel.id }]

/-- The condition of a channel term in the Zephyr mirroring realm. -/
def familyCondition (backend : Backend) (db : Database) (user : UserProfile) (channel : Stream) :
    ClauseElement :=
  .recipientIn ((matchingChannels backend db (Viewer.user user).context channel).map (·.recipient))

/-- What a user gets in the Zephyr mirroring realm who narrows to a channel with readable history. -/
theorem fetchQuery_channelNarrow {channel : Stream} (stored : channel ∈ db.streams)
    (isZephyr : user.realm.isZephyrMirrorRealm = true)
    (granted : canAccessStreamHistory db user channel = .ok true) :
    fetchQuery backend db (.user user) (some (channelNarrow channel)) =
      .ok ⟨true, { source := realmRows db user.realm },
        { source := realmRows db user.realm
          conditions := [familyCondition backend db user channel] }, false⟩ := by
  have sameRealm := realm_eq_of_canAccessStreamHistory granted
  have found : db.getStreamByIdInRealm channel.id user.realm = .ok channel :=
    sameRealm ▸ getStreamByIdInRealm_of_mem stored
  have decided : okToIncludeHistory backend db (some (channelNarrow channel)) (.user user) =
      .ok true := by
    simp [okToIncludeHistory, channelNarrow, historyOfTerm, channelOperators,
      canAccessStreamHistoryById, found, granted, ofAccess, needsUserMessage, bind, Except.bind, pure,
      Except.pure]
  have notPublic : channel.isPublic = false := by
    have inZephyr : channel.isInZephyrRealm = true := by
      rw [channel.populated, sameRealm]
      exact isZephyr
    simp [Stream.isPublic, inZephyr]
  have isCondition : termConditions backend db (Viewer.user user).context
      { operator := "channel", operand := .int channel.id } =
        .ok [familyCondition backend db user channel] := by
    rw [termConditions_channel List.mem_cons_self rfl]
    simp [channelCondition, channelOfOperand, familyCondition, Viewer.context, found, isZephyr,
      notPublic, bind, Except.bind, Except.map]
  have plain : plainTerms (channelNarrow channel) = channelNarrow channel := by
    simp [plainTerms, channelNarrow]
  have noSearch : searchTerms (channelNarrow channel) = [] := by
    simp [searchTerms, channelNarrow]
  have narrowed : addNarrowConditions backend db (Viewer.user user).context
      { source := realmRows db user.realm } (channelNarrow channel) =
        .ok ({ source := realmRows db user.realm
               conditions := [familyCondition backend db user channel] }, false) := by
    rw [addNarrowConditions_eq_ok_iff, plain, noSearch]
    refine ⟨⟨_, rfl⟩, [[familyCondition backend db user channel]], ?_, [], rfl, ?_, ?_, ?_⟩
    · simp [channelNarrow, isCondition, bind, Except.bind, pure, Except.pure]
    · simp
    · simp [joinedSearch, Select.filterByAll]
    · simp
  unfold fetchQuery
  rw [decided]
  refine bind_eq_ok_iff.mpr ⟨true, rfl, bind_eq_ok_iff.mpr ⟨_, rfl, ?_⟩⟩
  exact bind_eq_ok_iff.mpr ⟨_, narrowed, rfl⟩

/-- A channel whose messages some viewer gets is one whose messages the viewer may read. -/
theorem familiesReadable_of_neverWidens (never : NeverWidens backend db (.user user)) :
    FamiliesReadable backend db (.user user) := by
  intro isZephyr channel stored granted sibling isSibling
  by_cases mayRead : canAccessStreamHistory db user sibling = .ok true
  · exact .inl mayRead
  · refine .inr fun message isMessage toSibling => ?_
    have siblingActive := mem_getActiveStreams.mp (List.mem_of_mem_filter isSibling)
    have inRealm : message.realm = user.realm := by
      obtain ⟨stream, streamStored, toStream, sameRealm, -⟩ := db.exists_stream isMessage toSibling
      have isSame := stream_eq_of_recipient streamStored siblingActive.1 (toStream.trans toSibling)
      rw [← sameRealm, isSame]
      exact siblingActive.2.1
    have built : fetchQuery backend db (.user user) (some (channelNarrow channel)) = _ :=
      fetchQuery_channelNarrow stored isZephyr granted
    have executed : execute backend db false
        { source := realmRows db user.realm
          conditions := [familyCondition backend db user channel] } =
        .ok (Select.rows (ClauseElement.eval backend db)
          { source := realmRows db user.realm
            conditions := [familyCondition backend db user channel] }) :=
      execute_eq_ok_iff.mpr ⟨fun _ => by simp [familyCondition, ClauseElement.readsFlags], rfl⟩
    have isRow : (⟨message, none⟩ : Row) ∈ Select.rows (ClauseElement.eval backend db)
        { source := realmRows db user.realm
          conditions := [familyCondition backend db user channel] } := by
      refine Select.mem_rows.mpr ⟨mem_realmRows.mpr ⟨isMessage, inRealm, rfl⟩, ?_⟩
      intro condition isCondition
      obtain rfl := List.mem_singleton.mp isCondition
      simp only [familyCondition, ClauseElement.eval, Option.some.injEq, decide_eq_true_eq,
        List.mem_map]
      exact ⟨sibling, isSibling, toSibling.symm⟩
    rcases (never _ _ _ _ rfl built executed).2 _ isRow with ⟨other, isUser, received⟩ |
      ⟨-, stream, streamStored, toStream, readable⟩
    · cases isUser
      exact received
    · have isSame := stream_eq_of_recipient streamStored siblingActive.1 (toStream.trans toSibling)
      exact absurd (isSame ▸ readable) mayRead

/-- Queries never return more than the viewer is entitled to exactly when, in the Zephyr mirroring
realm, channels with readable history are shown together with readable channels only. -/
theorem neverWidens_iff (backend : Backend) (db : Database) (viewer : Viewer) :
    NeverWidens backend db viewer ↔ FamiliesReadable backend db viewer := by
  constructor
  · intro never
    cases viewer with
    | user user => exact familiesReadable_of_neverWidens never
    | spectator home => trivial
  · intro families narrow terms fetch rows allowed built executed
    obtain ⟨-, rfl⟩ := execute_eq_ok_iff.mp executed
    constructor
    · obtain ⟨conditions, extended⟩ := fetchQuery_conditions built
      rw [extended]
      exact Select.rows_filterByAll_sublist conditions
    · intro row member
      cases viewer with
      | user user => exact entitled_of_user families built member
      | spectator home => exact entitled_of_spectator allowed built member

end Security

/-- Text functions that treat the letters of ASCII as the real ones do, and a server without full
text search. -/
def asciiBackend : Backend where
  upper text := String.ofList (text.toList.map Char.toUpper)
  lower text := String.ofList (text.toList.map Char.toLower)
  strip text :=
    String.ofList ((text.toList.dropWhile Char.isWhitespace).reverse.dropWhile
      Char.isWhitespace).reverse
  crossRealmBotEmails := ["notification-bot@zulip.com"]
  usingPgroonga := false
  directMessageGroupHash userIds := toString (userIds.sort (· ≤ ·))
  isSpace := Char.isWhitespace
  ilikeContains _ _ := false
  tsqueryMatches _ _ := some false
  pgroongaMatches _ _ := none

theorem noUserMessages_keys :
    (([] : List UserMessage).map fun row => (row.userProfileId, row.messageId)).Nodup :=
  List.nodup_nil

/-- A Zephyr mirroring realm with a web-public channel, and a channel with a related name that
others talk on. -/
def relatedChannels : Database where
  streams :=
    [⟨1, ⟨5, true, false⟩, "social", false, false, true, false, true, rfl⟩,
      ⟨2, ⟨5, true, false⟩, "unsocial", false, false, false, false, true, rfl⟩]
  messages := [⟨100, ⟨5, true, false⟩, 11, .stream 2, "plans", "private", false, false, false⟩]
  userMessageKeys := noUserMessages_keys
  streamOfMessage := by
    intro message stored streamId toStream
    obtain rfl := List.mem_singleton.mp stored
    exact ⟨_, List.mem_cons_of_mem _ List.mem_cons_self, by simpa using toStream, rfl⟩

/-- A user who narrows to the web-public channel gets the messages of the other one. -/
theorem channelNarrow_widens :
    ¬NeverWidens asciiBackend relatedChannels
      (.user ⟨10, ⟨5, true, false⟩, .member, "a@example.com", "a@example.com"⟩) := by
  intro never
  have families := familiesReadable_of_neverWidens never rfl _ List.mem_cons_self (by decide)
    ⟨2, ⟨5, true, false⟩, "unsocial", false, false, false, false, true, rfl⟩ (by decide +kernel)
  rcases families with readable | received
  · exact absurd readable (by decide)
  · exact absurd (received _ List.mem_cons_self rfl) (by decide)

end Zulip.Narrow
