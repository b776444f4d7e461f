import Mathlib.Tactic.Linarith
import Zulip.Client.MessageFetch
import Zulip.Client.MessageListOrder

/-!
# Messages that are fetched form a block

`SoundFetching`: until it has found the newest messages, a list is a block of the messages that the
server has, and a discarded message is remembered until a page has it. Every action keeps this.
-/

namespace Zulip.Client

open Narrow

/-! ## Pages -/

section Pages

variable {Row : Type} {rowId : Row → ℤ} {matching : MatchingRows Row rowId}

/-- A page is a part of the matching rows. Nothing follows it when it has the newest row. When no row
before the anchor is requested, the page starts at the anchor. -/
theorem plainPage_split (matching : MatchingRows Row rowId) (numBefore numAfter : ℕ) (anchor : ℤ) :
    ∃ older newer,
      matching.ordered = older ++ (matching.plainPage numBefore numAfter anchor true).rows ++ newer ∧
        ((matching.plainPage numBefore numAfter anchor true).foundNewest = true → newer = []) ∧
          (numBefore = 0 → (∀ row ∈ older, rowId row < anchor) ∧
            ∀ row ∈ (matching.plainPage numBefore numAfter anchor true).rows,
              anchor ≤ rowId row) := by
  refine ⟨(matching.below anchor).take ((matching.below anchor).length - numBefore),
    (matching.above anchor).drop numAfter, ?_, fun found => ?_,
    fun noBefore => ⟨fun row member => ?_, fun row member => ?_⟩⟩
  · have belowSplit := List.take_append_drop ((matching.below anchor).length - numBefore)
      (matching.below anchor)
    have aboveSplit := List.take_append_drop numAfter (matching.above anchor)
    rw [matching.ordered_eq anchor]
    simp only [MatchingRows.plainPage, List.rtake, Bool.true_or, if_true, List.append_assoc,
      aboveSplit]
    rw [← List.append_assoc (List.take _ _), belowSplit]
  · simp only [MatchingRows.plainPage, Bool.or_eq_true, decide_eq_true_eq, List.length_take] at found
    rcases found with right | short
    · rw [(matching.right_eq right).2, List.drop_nil]
    · exact List.drop_eq_nil_of_le (by omega)
  · exact (MatchingRows.mem_below.mp (List.mem_of_mem_take member)).2
  · rcases MatchingRows.mem_plainPage.mp member with isBelow | ⟨-, isAnchor⟩ | isAbove
    · rw [noBefore, List.rtake_zero] at isBelow
      cases isBelow
    · exact (MatchingRows.mem_anchorRows.mp isAnchor).2.ge
    · exact (MatchingRows.mem_above.mp (List.mem_of_mem_take isAbove)).2.le

end Pages

/-- The matching messages of the log are in order. -/
theorem ServerLog.ordered_matching (log : ServerLog) (narrow : ServerMessage → Bool) :
    (log.matching narrow).ordered = log.messages.filter narrow :=
  Increasing.ascending_eq (log.increasing.filter narrow) (List.Perm.refl _)

/-! ## Ids of lists of messages -/

theorem le_maxIdForMessages {messages : List Message} {message : Message}
    (member : message ∈ messages) : message.id ≤ maxIdForMessages messages := by
  have bound : ∀ (messages : List Message) (start : ℚ),
      start ≤ messages.foldl (fun maxId message => max maxId message.id) start ∧
        ∀ message ∈ messages,
          message.id ≤ messages.foldl (fun maxId message => max maxId message.id) start := by
    intro messages
    induction messages with
    | nil => simp
    | cons first rest inductionHypothesis =>
        intro start
        obtain ⟨fromStart, fromRest⟩ := inductionHypothesis (max start first.id)
        rw [List.forall_mem_cons]
        exact ⟨(le_max_left _ _).trans fromStart, (le_max_right _ _).trans fromStart, fromRest⟩
  exact (bound messages 0).2 message member

/-- A positive maximum is the id of a message. -/
theorem exists_eq_maxIdForMessages {messages : List Message}
    (positive : 0 < maxIdForMessages messages) :
    ∃ message ∈ messages, message.id = maxIdForMessages messages := by
  have reached : ∀ (messages : List Message) (start : ℚ),
      messages.foldl (fun maxId message => max maxId message.id) start = start ∨
        ∃ message ∈ messages,
          message.id = messages.foldl (fun maxId message => max maxId message.id) start := by
    intro messages
    induction messages with
    | nil => exact fun _ => .inl rfl
    | cons first rest inductionHypothesis =>
        intro start
        rcases inductionHypothesis (max start first.id) with isStart | ⟨message, member, isMax⟩
        · rcases le_total start first.id with less | more
          · rw [max_eq_right less] at isStart
            refine .inr ⟨first, List.mem_cons_self, ?_⟩
            rw [List.foldl_cons, max_eq_right less, isStart]
          · rw [max_eq_left more] at isStart
            refine .inl ?_
            rw [List.foldl_cons, max_eq_left more, isStart]
        · exact .inr ⟨message, List.mem_cons_of_mem _ member, isMax⟩
  rcases reached messages 0 with isZero | found
  · exact absurd (isZero ▸ positive : (0 : ℚ) < 0) (lt_irrefl _)
  · exact found

@[simp] theorem toClient_id (message : ServerMessage) : message.toClient.id = message.id := rfl

theorem isLocalonlyId_intCast (id : ℤ) : isLocalonlyId (id : ℚ) = false := by
  simp [isLocalonlyId]

/-! ## Adding messages of the server -/

section Add

variable {config : MessageListConfig} {muting : Muting} {data : MessageListData}

/-- A list whose messages are from the server is in order. -/
theorem increasing_of_fromServer
    (consistent : (MessageListState.mk data muting).Consistent config)
    (fromServer : ∀ message ∈ data.allItems, ∃ sent : ServerMessage, sent.toClient = message) :
    Increasing Message.id data.allItems := by
  have all : nonlocal data.allItems = data.allItems := by
    refine List.filter_eq_self.mpr fun message member => ?_
    obtain ⟨sent, rfl⟩ := fromServer message member
    rw [toClient_id, isLocalonlyId_intCast]
    rfl
  rw [← all]
  exact consistent.ordered

/-- Messages of the server, which may be in the list already, are added to it. -/
theorem addMessages_fromServer {log : ServerLog} {batch : List ServerMessage}
    (consistent : (MessageListState.mk data muting).Consistent config)
    (indexed : (MessageListState.mk data muting).Indexed)
    (fromServer : ∀ message ∈ data.allItems, ∃ sent ∈ log.messages, sent.toClient = message)
    (increasing : Increasing ServerMessage.id batch) (isSent : ∀ sent ∈ batch, sent ∈ log.messages) :
    (MessageListState.mk (data.addMessages config muting (batch.map ServerMessage.toClient))
        muting).Consistent config ∧
      (MessageListState.mk (data.addMessages config muting (batch.map ServerMessage.toClient))
        muting).Indexed ∧
      ∀ message, message ∈ (data.addMessages config muting
          (batch.map ServerMessage.toClient)).allItems ↔
        message ∈ data.allItems ∨
          ∃ sent ∈ batch, sent.toClient = message ∧ config.predicate message = true := by
  have clientIncreasing : Increasing Message.id (batch.map ServerMessage.toClient) :=
    List.pairwise_map.mpr (increasing.imp fun before => by
      rw [toClient_id, toClient_id]
      exact_mod_cast before)
  have enabled : (MessageListState.mk data muting).Enabled
      (.addMessages (batch.map ServerMessage.toClient)) :=
    clientIncreasing.imp fun before => before.le
  have ordered := increasing_of_fromServer consistent fun message member =>
    (fromServer message member).imp fun _ sent => sent.2
  have allowed : (MessageListState.mk data muting).Allowed config
      (.addMessages (batch.map ServerMessage.toClient)) := by
    refine ⟨(clientIncreasing.sublist List.filter_sublist).nodup_map, ?_⟩
    intro message _ other isOther
    obtain ⟨member, -⟩ := List.mem_filter.mp isOther
    have notEmpty := List.ne_nil_of_mem member
    have isFirst := List.head?_eq_some_head notEmpty
    have isLast := List.getLast?_eq_some_getLast notEmpty
    have atLast := ordered.le_getLast isLast other member
    have atFirst : (data.allItems.head notEmpty).id ≤ other.id := by
      obtain ⟨rest, split⟩ := List.head?_eq_some_iff.mp isFirst
      rw [split] at member ordered
      rcases List.mem_cons.mp member with rfl | later
      · exact le_refl _
      · exact ((Increasing.cons.mp ordered).1 other later).le
    have place := MessageListData.place_eq isFirst isLast message
    constructor
    · intro isBottom
      rw [place] at isBottom
      split_ifs at isBottom with above
      exact atLast.trans_lt above
    · intro isTop
      rw [place] at isTop
      split_ifs at isTop with _ below
      exact below.trans_le atFirst
  have perm := @MessageListData.addMessages_perm config data (batch.map ServerMessage.toClient)
    muting
  refine ⟨(MessageListState.addMessages_consistent_iff consistent enabled).mpr allowed,
    indexed.perform consistent enabled, fun message => ?_⟩
  rw [perm.mem_iff, List.mem_append, or_comm]
  constructor
  · rintro (old | new)
    · exact .inl old
    · obtain ⟨isMessage, meets⟩ := List.mem_filter.mp new
      obtain ⟨sent, isBatch, rfl⟩ := List.mem_map.mp isMessage
      exact .inr ⟨sent, isBatch, rfl, (Bool.and_eq_true_iff.mp meets).2⟩
  · rintro (old | ⟨sent, isBatch, rfl, meets⟩)
    · exact .inl old
    · cases found : data.hash.get? sent.toClient.id with
      | none =>
          refine .inr (List.mem_filter.mpr ⟨List.mem_map_of_mem isBatch, ?_⟩)
          rw [found, meets]
          rfl
      | some message =>
          obtain ⟨member, sameId⟩ := indexed _ _ found
          obtain ⟨other, isOther, rfl⟩ := fromServer message member
          rw [toClient_id, toClient_id, Int.cast_inj] at sameId
          have same := log.increasing.eq_of_key_eq isOther (isSent sent isBatch) sameId
          exact .inl (same ▸ member)

end Add

/-! ## What holds in every state -/

/-- A page is a part of the matching messages that the server had; a discarded message that it did
not have is remembered. A page after the last message of the list starts there. -/
structure SoundResponse (current : CurrentList) (state : FetchState) (fetch : Fetch)
    (response : FetchResponse) : Prop where
  part : ∃ older newer,
    (state.log.messages.take response.answeredAt).filter current.narrow =
      older ++ response.page.rows ++ newer ∧
    (response.page.foundNewest = true → newer = []) ∧
    (fetch.forNarrow = false → ∀ message ∈ older, ∃ last ∈ state.data.allItems.getLast?,
      (message.id : ℚ) < last.id)
  fromLast : fetch.forNarrow = false → ∀ message ∈ response.page.rows,
    ∀ last ∈ state.data.allItems.getLast?, last.id ≤ message.id
  discarded : ∀ message ∈ state.log.messages.take state.delivered,
    message ∈ state.log.messages.take response.answeredAt ∨
      (message.id : ℚ) ≤ state.fetchStatus.expectedMaxMessageId
  answered : response.answeredAt ≤ state.log.messages.length

/-- A fetch of newer messages, for a new list or after the last message of the list. -/
structure SoundFetch (current : CurrentList) (state : FetchState) (fetch : Fetch) : Prop where
  after : 0 < fetch.numAfter
  narrow : fetch.forNarrow = true → state.data.allItems = []
  forward : fetch.forNarrow = false →
    fetch.numBefore = 0 ∧ fetch.anchor = FetchState.getFrontfillAnchor state.data
  response : ∀ response ∈ fetch.response, SoundResponse current state fetch response

/-- Until it has found the newest messages, the list is a block of the matching messages; after that
no newer messages are fetched. -/
structure SoundFetching (current : CurrentList) (state : FetchState) : Prop where
  consistent : (MessageListState.mk state.data current.muting).Consistent current.config
  indexed : (MessageListState.mk state.data current.muting).Indexed
  fromServer : ∀ message ∈ state.data.allItems, ∃ sent ∈ state.log.messages, sent.toClient = message
  pages : ∀ message ∈ state.pages, current.config.predicate message = true →
    message ∈ state.data.allItems
  delivered : state.delivered ≤ state.log.messages.length
  block : state.fetchStatus.foundNewest = false →
    ∀ first ∈ state.data.allItems, ∀ last ∈ state.data.allItems, ∀ sent ∈ state.log.messages,
      current.config.predicate sent.toClient = true → first.id ≤ sent.id → sent.id ≤ last.id →
        sent.toClient ∈ state.data.allItems
  complete : state.fetchStatus.foundNewest = true → state.newerFetch = none ∧
    ∀ sent ∈ state.log.messages.take state.delivered,
      current.config.predicate sent.toClient = true → ∀ first ∈ state.data.allItems,
        first.id ≤ sent.id → sent.toClient ∈ state.data.allItems
  fetch : ∀ fetch ∈ state.newerFetch, SoundFetch current state fetch

/-- The first messages of the log are those with the smallest ids. -/
theorem ServerLog.mem_take_of_le (log : ServerLog) {count : ℕ} {sent bound : ServerMessage}
    (isSent : sent ∈ log.messages) (isBound : bound ∈ log.messages.take count)
    (below : sent.id ≤ bound.id) : sent ∈ log.messages.take count := by
  have increasing := log.increasing
  rw [← List.take_append_drop count log.messages] at isSent increasing
  rcases List.mem_append.mp isSent with early | late
  · exact early
  · exact absurd ((Increasing.append.mp increasing).2.2 bound isBound sent late) (not_lt.mpr below)

section Sound

variable {current : CurrentList} {state : FetchState}

theorem SoundFetching.fetching (sound : SoundFetching current state) {fetch : Fetch}
    (isFetch : state.newerFetch = some fetch) : state.fetchStatus.foundNewest = false := by
  cases found : state.fetchStatus.foundNewest with
  | false => rfl
  | true =>
      rw [(sound.complete found).1] at isFetch
      cases isFetch

theorem SoundFetching.increasing (sound : SoundFetching current state) :
    Increasing Message.id state.data.allItems :=
  increasing_of_fromServer sound.consistent fun message member =>
    (sound.fromServer message member).imp fun _ sent => sent.2

/-- Starting a fetch after the last message. -/
theorem SoundFetching.maybeLoadNewerMessages (sound : SoundFetching current state) :
    SoundFetching current state.maybeLoadNewerMessages := by
  rw [FetchState.maybeLoadNewerMessages]
  split_ifs with cannot
  · exact sound
  · have notFound : state.fetchStatus.foundNewest = false := by
      simp only [FetchStatus.canLoadNewerMessages, Bool.not_eq_true', Bool.not_eq_false,
        Bool.and_eq_true] at cannot
      exact cannot.2
    refine ⟨sound.consistent, sound.indexed, sound.fromServer, sound.pages, sound.delivered,
      fun _ => sound.block notFound, fun found => ?_, fun fetch isFetch => ?_⟩
    · exact absurd (notFound.symm.trans found) Bool.false_ne_true
    · cases isFetch
      have after : 0 < narrowedViewForwardBatchSize := by decide
      refine ⟨after, fun forNarrow => ?_, fun _ => ⟨rfl, rfl⟩, fun response isResponse => ?_⟩
      · cases forNarrow
      · cases isResponse

/-- Sending a message. -/
theorem SoundFetching.send (sound : SoundFetching current state) {message : ServerMessage}
    (accepts : state.log.Accepts message) :
    SoundFetching current { state with log := state.log.send message accepts } := by
  have early : ∀ {count : ℕ}, count ≤ state.log.messages.length →
      (state.log.send message accepts).messages.take count = state.log.messages.take count :=
    fun within => List.take_append_of_le_length within
  refine ⟨sound.consistent, sound.indexed, fun item member => ?_, sound.pages, ?_, ?_, ?_, ?_⟩
  · obtain ⟨sent, isSent, same⟩ := sound.fromServer item member
    exact ⟨sent, List.mem_append_left _ isSent, same⟩
  · exact sound.delivered.trans (by simp [ServerLog.send])
  · intro notFound first isFirst last isLast sent isSent meets aboveFirst belowLast
    rcases List.mem_append.mp isSent with old | new
    · exact sound.block notFound first isFirst last isLast sent old meets aboveFirst belowLast
    · rw [List.mem_singleton.mp new] at belowLast
      obtain ⟨sentLast, isSentLast, rfl⟩ := sound.fromServer last isLast
      rw [toClient_id, Int.cast_le] at belowLast
      exact absurd (accepts.1 sentLast isSentLast) (not_lt.mpr belowLast)
  · intro found
    rw [early sound.delivered]
    exact sound.complete found
  · intro fetch isFetch
    have old := sound.fetch fetch isFetch
    refine ⟨old.after, old.narrow, old.forward, fun response isResponse => ?_⟩
    have oldResponse := old.response response isResponse
    refine ⟨?_, oldResponse.fromLast, ?_, oldResponse.answered.trans (by simp [ServerLog.send])⟩
    · rw [early oldResponse.answered]
      exact oldResponse.part
    · rw [early sound.delivered, early oldResponse.answered]
      exact oldResponse.discarded

/-- The messages of an event are added, or discarded and remembered. -/
theorem SoundFetching.deliver (sound : SoundFetching current state) {count : ℕ}
    (within : state.delivered + count ≤ state.log.messages.length) :
    SoundFetching current
      (FetchState.addNewMessages current { state with delivered := state.delivered + count }
        (((state.log.messages.drop state.delivered).take count).map ServerMessage.toClient)) := by
  have told : state.log.messages.take (state.delivered + count) =
      state.log.messages.take state.delivered ++
        (state.log.messages.drop state.delivered).take count := List.take_add
  have batchSent : ∀ sent ∈ (state.log.messages.drop state.delivered).take count,
      sent ∈ state.log.messages := fun sent member =>
    List.mem_of_mem_drop (List.mem_of_mem_take member)
  rw [FetchState.addNewMessages]
  split_ifs with discards
  · -- The messages are discarded.
    have notFound : state.fetchStatus.foundNewest = false := by simpa using discards
    refine ⟨sound.consistent, sound.indexed, sound.fromServer, sound.pages, within,
      fun _ => sound.block notFound, fun found => ?_, fun fetch isFetch => ?_⟩
    · exact absurd (notFound.symm.trans found) Bool.false_ne_true
    · have old := sound.fetch fetch isFetch
      refine ⟨old.after, old.narrow, old.forward, fun response isResponse => ?_⟩
      have oldResponse := old.response response isResponse
      refine ⟨oldResponse.part, oldResponse.fromLast, fun sent isSent => ?_, oldResponse.answered⟩
      simp only [told, List.mem_append] at isSent
      rcases isSent with before | new
      · exact (oldResponse.discarded sent before).imp_right fun below =>
          below.trans (le_max_left _ _)
      · exact .inr ((le_maxIdForMessages (List.mem_map_of_mem new)).trans (le_max_right _ _))
  · have found : state.fetchStatus.foundNewest = true := by simpa using discards
    obtain ⟨noFetch, complete⟩ := sound.complete found
    have increasingBatch : Increasing ServerMessage.id
        ((state.log.messages.drop state.delivered).take count) :=
      state.log.increasing.sublist ((List.take_sublist _ _).trans (List.drop_sublist _ _))
    obtain ⟨consistent, indexed, members⟩ := addMessages_fromServer sound.consistent sound.indexed
      sound.fromServer increasingBatch batchSent
    refine ⟨consistent, indexed, fun message member => ?_, fun message member => ?_, within, ?_, ?_,
      ?_⟩
    · rcases (members message).mp member with old | ⟨sent, isBatch, same, -⟩
      · exact sound.fromServer message old
      · exact ⟨sent, batchSent sent isBatch, same⟩
    · exact fun meets => (members message).mpr (.inl (sound.pages message member meets))
    · exact fun notFound => absurd (notFound.symm.trans found) Bool.false_ne_true
    · refine fun _ => ⟨noFetch, fun sent isSent meets first isFirst above => ?_⟩
      simp only [told, List.mem_append] at isSent
      refine (members _).mpr ?_
      rcases isSent with before | new
      · rcases (members first).mp isFirst with old | ⟨other, isBatch, rfl, -⟩
        · exact .inl (complete sent before meets first old above)
        · -- Messages of earlier events have smaller ids.
          have increasing := state.log.increasing
          rw [← List.take_append_drop state.delivered state.log.messages] at increasing
          have earlier := (Increasing.append.mp increasing).2.2 sent before other
            (List.mem_of_mem_take isBatch)
          rw [toClient_id, Int.cast_le] at above
          exact absurd earlier (not_lt.mpr above)
      · exact .inr ⟨sent, new, rfl, meets⟩
    · intro fetch isFetch
      simp only [noFetch] at isFetch
      cases isFetch

/-- The server answers with a part of the messages that it has. -/
theorem SoundFetching.soundResponse (sound : SoundFetching current state) {fetch : Fetch}
    (isFetch : state.newerFetch = some fetch) (firstUnread : ℤ) :
    SoundResponse current state fetch
      ⟨state.fetchPage current fetch firstUnread, state.log.messages.length⟩ := by
  have old := sound.fetch fetch isFetch
  obtain ⟨older, newer, split, newest, start⟩ := plainPage_split
    (state.log.matching current.narrow) fetch.numBefore fetch.numAfter
      ((parseAnchorValue fetch.anchor).getD firstUnread)
  have isPage : state.fetchPage current fetch firstUnread =
      (state.log.matching current.narrow).plainPage fetch.numBefore fetch.numAfter
        ((parseAnchorValue fetch.anchor).getD firstUnread) true :=
    MatchingRows.fetchMessages_eq _ _ _ _ _
  rw [ServerLog.ordered_matching] at split
  have isSent : ∀ message ∈ older, message ∈ state.log.messages := by
    intro message member
    have inSplit : message ∈ state.log.messages.filter current.narrow := by
      rw [split]
      exact List.mem_append_left _ (List.mem_append_left _ member)
    exact (List.mem_filter.mp inSplit).1
  -- The anchor of a fetch after the last message is the id of that message.
  have atLast : fetch.forNarrow = false → ∀ last ∈ state.data.allItems.getLast?,
      (((parseAnchorValue fetch.anchor).getD firstUnread : ℤ) : ℚ) = last.id := by
    intro forward last isLast
    obtain ⟨sent, isSent, rfl⟩ := sound.fromServer last (List.mem_of_mem_getLast? isLast)
    have rounded : ⌊(sent.id : ℚ) + 1 / 2⌋ = sent.id := by
      rw [Int.floor_intCast_add, show ⌊(1 / 2 : ℚ)⌋ = 0 by norm_num, add_zero]
    have positive := state.log.positive sent isSent
    have belowMax := state.log.belowMax sent isSent
    rw [(old.forward forward).2, FetchState.getFrontfillAnchor, Option.mem_def.mp isLast]
    simp only [toClient_id, rounded, parseAnchorValue]
    rw [if_neg (by omega), if_neg (by omega)]
    rfl
  refine ⟨⟨older, newer, ?_, ?_, fun forward message member => ?_⟩,
    fun forward message member last isLast => ?_, fun message member => ?_, le_rfl⟩
  · rw [List.take_length, isPage, split]
  · rw [isPage]
    exact newest
  · have below := (start (old.forward forward).1).1 message member
    cases isLast : state.data.allItems.getLast? with
    | none =>
        rw [(old.forward forward).2, FetchState.getFrontfillAnchor, isLast] at below
        exact absurd below (not_lt.mpr (state.log.positive message (isSent message member)).le)
    | some last =>
        refine ⟨last, rfl, ?_⟩
        rw [← atLast forward last isLast]
        exact_mod_cast below
  · rw [isPage] at member
    rw [← atLast forward last isLast]
    exact_mod_cast (start (old.forward forward).1).2 message member
  · rw [List.take_length]
    exact .inl (List.mem_of_mem_take member)

/-- An answer of the server. -/
theorem SoundFetching.answer (sound : SoundFetching current state) {fetch : Fetch}
    (isFetch : state.newerFetch = some fetch) (firstUnread : ℤ) :
    SoundFetching current
      { state with
        newerFetch := some { fetch with
          response := some
            ⟨state.fetchPage current fetch firstUnread, state.log.messages.length⟩ } } := by
  have notFound := sound.fetching isFetch
  have old := sound.fetch fetch isFetch
  refine ⟨sound.consistent, sound.indexed, sound.fromServer, sound.pages, sound.delivered,
    sound.block, fun found => ?_, fun next isNext => ?_⟩
  · exact absurd (notFound.symm.trans found) Bool.false_ne_true
  · cases isNext
    refine ⟨old.after, old.narrow, old.forward, fun response isResponse => ?_⟩
    cases isResponse
    have answer := sound.soundResponse isFetch firstUnread
    exact ⟨answer.part, answer.fromLast, answer.discarded, answer.answered⟩

/-- A fetch is started once more. -/
theorem SoundFetching.retry (sound : SoundFetching current state) {fetch : Fetch}
    (isFetch : state.newerFetch = some fetch) :
    SoundFetching current (state.loadMessages fetch) := by
  have notFound := sound.fetching isFetch
  have old := sound.fetch fetch isFetch
  have same : (state.loadMessages fetch).fetchStatus.foundNewest =
      state.fetchStatus.foundNewest := by
    simp only [FetchState.loadMessages]
    split_ifs <;> rfl
  refine ⟨sound.consistent, sound.indexed, sound.fromServer, sound.pages, sound.delivered,
    fun _ => sound.block notFound, fun found => ?_, fun next isNext => ?_⟩
  · exact absurd ((same.trans notFound).symm.trans found) Bool.false_ne_true
  · cases isNext
    refine ⟨old.after, old.narrow, old.forward, fun response isResponse => ?_⟩
    cases isResponse

/-- A fetch is given up. -/
theorem SoundFetching.reject (sound : SoundFetching current state) :
    SoundFetching current { state with newerFetch := none } := by
  refine ⟨sound.consistent, sound.indexed, sound.fromServer, sound.pages, sound.delivered,
    sound.block, fun found => ⟨rfl, (sound.complete found).2⟩, fun fetch isFetch => ?_⟩
  cases isFetch

end Sound

/-! ## Pages that arrive -/

namespace FetchState

/-- The page misses a message that was discarded. -/
def Misses (state : FetchState) (page : LimitedMessages ServerMessage) : Bool :=
  page.foundNewest && decide (maxIdForMessages (page.rows.map ServerMessage.toClient) <
    state.fetchStatus.expectedMaxMessageId)

/-- The fetch status after a page of newer messages. -/
theorem finishBatches_of_after (state : FetchState) {fetch : Fetch} (after : 0 < fetch.numAfter)
    (page : LimitedMessages ServerMessage) :
    (finishBatches state.fetchStatus fetch page).2 = state.Misses page ∧
      (finishBatches state.fetchStatus fetch page).1.foundNewest =
        (page.foundNewest && !state.Misses page) ∧
      (finishBatches state.fetchStatus fetch page).1.loadingNewer = false := by
  have newerBatch : ∀ status : FetchStatus,
      status.expectedMaxMessageId = state.fetchStatus.expectedMaxMessageId →
        (status.finishNewerBatch (page.rows.map ServerMessage.toClient) page.foundNewest).2 =
            state.Misses page ∧
          (status.finishNewerBatch (page.rows.map ServerMessage.toClient)
              page.foundNewest).1.foundNewest = (page.foundNewest && !state.Misses page) ∧
          (status.finishNewerBatch (page.rows.map ServerMessage.toClient)
              page.foundNewest).1.loadingNewer = false := by
    intro status same
    rw [FetchStatus.finishNewerBatch, same]
    split_ifs with misses
    · rw [Misses, misses]
      exact ⟨rfl, by simp, rfl⟩
    · rw [Misses, Bool.eq_false_iff.mpr misses]
      exact ⟨rfl, by simp, rfl⟩
  simp only [finishBatches, decide_eq_true after, Bool.true_or, if_true]
  split_ifs
  · exact newerBatch _ rfl
  · exact newerBatch _ rfl

/-- The state with the messages of a page, before more are fetched. -/
def withPage (current : CurrentList) (state : FetchState) (fetch : Fetch)
    (page : LimitedMessages ServerMessage) : FetchState :=
  { state with
    data :=
      if (page.rows.map ServerMessage.toClient).isEmpty then state.data
      else
        state.data.addMessages current.config current.muting
          (page.rows.map ServerMessage.toClient)
    fetchStatus := (finishBatches state.fetchStatus fetch page).1
    newerFetch := none
    pages := state.pages ++ page.rows.map ServerMessage.toClient }

/-- The list looks empty after the page, and more messages may be found. -/
def LooksEmpty (current : CurrentList) (state : FetchState) (fetch : Fetch)
    (page : LimitedMessages ServerMessage) : Bool :=
  !current.isCombinedFeedView && (state.withPage current fetch page).data.items.isEmpty &&
    decide (fetch.numAfter > 0) && !(finishBatches state.fetchStatus fetch page).1.foundNewest

/-- What is fetched next after a page. -/
theorem getMessagesSuccess_eq (current : CurrentList) (state : FetchState) (fetch : Fetch)
    (page : LimitedMessages ServerMessage) :
    state.getMessagesSuccess current fetch page =
      (if !fetch.forNarrow && (finishBatches state.fetchStatus fetch page).2 then
        (if state.LooksEmpty current fetch page then
          (state.withPage current fetch page).maybeLoadNewerMessages
        else state.withPage current fetch page).maybeLoadNewerMessages
      else if state.LooksEmpty current fetch page then
        (state.withPage current fetch page).maybeLoadNewerMessages
      else state.withPage current fetch page) := rfl

theorem isSome_maybeLoadNewerMessages {state : FetchState}
    (canLoad : state.fetchStatus.canLoadNewerMessages = true) :
    state.maybeLoadNewerMessages.newerFetch.isSome := by
  rw [maybeLoadNewerMessages, canLoad]
  rfl

theorem isSome_maybeLoadNewerMessages_of_isSome {state : FetchState}
    (fetching : state.newerFetch.isSome) : state.maybeLoadNewerMessages.newerFetch.isSome := by
  rw [maybeLoadNewerMessages]
  split_ifs
  · exact fetching
  · rfl

end FetchState

section Page

variable {current : CurrentList} {state : FetchState} {fetch : Fetch} {response : FetchResponse}

/-- The messages of a page are among those that the server had. -/
theorem SoundResponse.early (answer : SoundResponse current state fetch response) :
    ∀ sent ∈ response.page.rows, sent ∈ state.log.messages.take response.answeredAt := by
  obtain ⟨older, newer, split, -, -⟩ := answer.part
  intro sent member
  have inSplit : sent ∈ (state.log.messages.take response.answeredAt).filter current.narrow := by
    rw [split]
    exact List.mem_append_left _ (List.mem_append_right _ member)
  exact (List.mem_filter.mp inSplit).1

/-- The list has its messages and those of the page that it accepts. -/
theorem SoundFetching.addPage (sound : SoundFetching current state)
    (answer : SoundResponse current state fetch response) :
    (MessageListState.mk (state.withPage current fetch response.page).data
        current.muting).Consistent current.config ∧
      (MessageListState.mk (state.withPage current fetch response.page).data
        current.muting).Indexed ∧
      ∀ message, message ∈ (state.withPage current fetch response.page).data.allItems ↔
        message ∈ state.data.allItems ∨ ∃ sent ∈ response.page.rows,
          sent.toClient = message ∧ current.config.predicate message = true := by
  obtain ⟨older, newer, split, -, -⟩ := answer.part
  have inMatching : ∀ sent ∈ response.page.rows, sent ∈ state.log.messages := fun sent member =>
    List.mem_of_mem_take (answer.early sent member)
  have increasing : Increasing ServerMessage.id response.page.rows := by
    have whole := (state.log.increasing.sublist
      (List.take_sublist response.answeredAt _)).filter current.narrow
    rw [split] at whole
    exact (Increasing.append.mp (Increasing.append.mp whole).1).2.1
  cases noRows : response.page.rows with
  | nil =>
      have same : (state.withPage current fetch response.page).data = state.data := by
        rw [FetchState.withPage, noRows]
        rfl
      rw [same]
      exact ⟨sound.consistent, sound.indexed, fun message => by simp⟩
  | cons first rest =>
      have added : (state.withPage current fetch response.page).data =
          state.data.addMessages current.config current.muting
            (response.page.rows.map ServerMessage.toClient) := by
        rw [FetchState.withPage, noRows]
        rfl
      rw [added, ← noRows]
      exact addMessages_fromServer sound.consistent sound.indexed sound.fromServer increasing
        inMatching

/-- The list with the page has every matching message of the server from its first one on, up to the
last one of the page, and all when the page has the newest ones. -/
theorem SoundFetching.covered (sound : SoundFetching current state)
    (isFetch : state.newerFetch = some fetch) (answer : SoundResponse current state fetch response)
    {sent : ServerMessage} (inTake : sent ∈ state.log.messages.take response.answeredAt)
    (meets : current.config.predicate sent.toClient = true)
    (reached : response.page.foundNewest = true ∨ ∃ row ∈ response.page.rows, sent.id ≤ row.id)
    {first : Message} (isFirst : first ∈ (state.withPage current fetch response.page).data.allItems)
    (above : first.id ≤ sent.id) :
    sent.toClient ∈ (state.withPage current fetch response.page).data.allItems := by
  obtain ⟨-, -, members⟩ := sound.addPage answer
  obtain ⟨older, newer, split, newest, beforeLast⟩ := answer.part
  have increasing := (state.log.increasing.sublist
    (List.take_sublist response.answeredAt _)).filter current.narrow
  have inSplit : sent ∈ older ++ response.page.rows ++ newer :=
    split ▸ List.mem_filter.mpr ⟨inTake, current.finds _ meets⟩
  rw [split] at increasing
  obtain ⟨untilPage, -, pageBeforeNewer⟩ := Increasing.append.mp increasing
  obtain ⟨-, -, olderBeforePage⟩ := Increasing.append.mp untilPage
  rcases List.mem_append.mp inSplit with isUntilPage | isNewer
  · rcases List.mem_append.mp isUntilPage with isOlder | isRow
    · -- What precedes the page is in the list already.
      refine (members _).mpr (.inl ?_)
      rcases (members first).mp isFirst with old | ⟨row, isRow, rfl, -⟩
      · cases forNarrow : fetch.forNarrow with
        | true =>
            rw [(sound.fetch fetch isFetch).narrow forNarrow] at old
            cases old
        | false =>
            obtain ⟨last, isLast, below⟩ := beforeLast forNarrow sent isOlder
            exact sound.block (sound.fetching isFetch) first old last
              (List.mem_of_mem_getLast? isLast) sent (List.mem_of_mem_take inTake) meets above
              below.le
      · rw [toClient_id, Int.cast_le] at above
        exact absurd (olderBeforePage sent isOlder row isRow) (not_lt.mpr above)
    · exact (members _).mpr (.inr ⟨sent, isRow, rfl, meets⟩)
  · rcases reached with pageNewest | ⟨row, isRow, below⟩
    · rw [newest pageNewest] at isNewer
      cases isNewer
    · exact absurd (pageBeforeNewer row (List.mem_append_right _ isRow) sent isNewer)
        (not_lt.mpr below)

/-- The list and the page are a block. -/
theorem SoundFetching.block_withPage (sound : SoundFetching current state)
    (isFetch : state.newerFetch = some fetch) (answer : SoundResponse current state fetch response)
    {first last : Message}
    (isFirst : first ∈ (state.withPage current fetch response.page).data.allItems)
    (isLast : last ∈ (state.withPage current fetch response.page).data.allItems)
    {sent : ServerMessage} (isSent : sent ∈ state.log.messages)
    (meets : current.config.predicate sent.toClient = true) (above : first.id ≤ sent.id)
    (below : sent.id ≤ last.id) :
    sent.toClient ∈ (state.withPage current fetch response.page).data.allItems := by
  obtain ⟨-, -, members⟩ := sound.addPage answer
  rcases (members last).mp isLast with oldLast | ⟨row, isRow, rfl, -⟩
  · rcases (members first).mp isFirst with oldFirst | ⟨row, isRow, rfl, -⟩
    · exact (members _).mpr (.inl (sound.block (sound.fetching isFetch) first oldFirst last oldLast
        sent isSent meets above below))
    · cases forNarrow : fetch.forNarrow with
      | true =>
          rw [(sound.fetch fetch isFetch).narrow forNarrow] at oldLast
          cases oldLast
      | false =>
          have isLast := List.getLast?_eq_some_getLast (List.ne_nil_of_mem oldLast)
          have fromLast := answer.fromLast forNarrow row isRow _ isLast
          have toLast := sound.increasing.le_getLast isLast last oldLast
          have sameId : sent.id = row.id := by
            rw [toClient_id, Int.cast_le] at above
            exact le_antisymm (by exact_mod_cast below.trans (toLast.trans fromLast)) above
          have same := state.log.increasing.eq_of_key_eq isSent
            (List.mem_of_mem_take (answer.early row isRow)) sameId
          exact (members _).mpr (.inr ⟨row, isRow, same ▸ rfl, meets⟩)
  · rw [toClient_id, Int.cast_le] at below
    exact sound.covered isFetch answer
      (state.log.mem_take_of_le isSent (answer.early row isRow) below) meets
      (.inr ⟨row, isRow, below⟩) isFirst above

/-- A page with the newest messages has everything that was discarded. -/
theorem SoundFetching.complete_withPage (sound : SoundFetching current state)
    (isFetch : state.newerFetch = some fetch) (answer : SoundResponse current state fetch response)
    (found : (state.withPage current fetch response.page).fetchStatus.foundNewest = true)
    {sent : ServerMessage} (isTold : sent ∈ state.log.messages.take state.delivered)
    (meets : current.config.predicate sent.toClient = true) {first : Message}
    (isFirst : first ∈ (state.withPage current fetch response.page).data.allItems)
    (above : first.id ≤ sent.id) :
    sent.toClient ∈ (state.withPage current fetch response.page).data.allItems := by
  obtain ⟨-, finishedNewest, -⟩ :=
    state.finishBatches_of_after (sound.fetch fetch isFetch).after response.page
  rw [FetchState.withPage] at found
  simp only [finishedNewest, Bool.and_eq_true, Bool.not_eq_true'] at found
  obtain ⟨pageNewest, notMissed⟩ := found
  rw [FetchState.Misses, pageNewest, Bool.true_and, decide_eq_false_iff_not, not_lt] at notMissed
  have inTake : sent ∈ state.log.messages.take response.answeredAt := by
    rcases answer.discarded sent isTold with inTake | expected
    · exact inTake
    · have isSent := List.mem_of_mem_take isTold
      have positive : (0 : ℚ) < sent.id := by exact_mod_cast state.log.positive sent isSent
      obtain ⟨message, isMessage, isMax⟩ :=
        exists_eq_maxIdForMessages (positive.trans_le (expected.trans notMissed))
      obtain ⟨row, isRow, rfl⟩ := List.mem_map.mp isMessage
      have below := expected.trans notMissed
      rw [← isMax, toClient_id, Int.cast_le] at below
      exact state.log.mem_take_of_le isSent (answer.early row isRow) below
  exact sound.covered isFetch answer inTake meets (.inl pageNewest) isFirst above

/-- A page of newer messages keeps the list sound. -/
theorem SoundFetching.withPage (sound : SoundFetching current state)
    (isFetch : state.newerFetch = some fetch) (isResponse : fetch.response = some response) :
    SoundFetching current (state.withPage current fetch response.page) := by
  have answer := (sound.fetch fetch isFetch).response response isResponse
  obtain ⟨consistent, indexed, members⟩ := sound.addPage answer
  refine ⟨consistent, indexed, fun message member => ?_, fun message member meets => ?_,
    sound.delivered, fun _ first isFirst last isLast sent isSent meets above below =>
      sound.block_withPage isFetch answer isFirst isLast isSent meets above below,
    fun found => ⟨rfl, fun sent isTold meets first isFirst above =>
      sound.complete_withPage isFetch answer found isTold meets isFirst above⟩,
    fun next isNext => ?_⟩
  · rcases (members message).mp member with old | ⟨sent, isRow, same, -⟩
    · exact sound.fromServer message old
    · exact ⟨sent, List.mem_of_mem_take (answer.early sent isRow), same⟩
  · rcases List.mem_append.mp member with old | isRow
    · exact (members message).mpr (.inl (sound.pages message old meets))
    · obtain ⟨sent, isSent, rfl⟩ := List.mem_map.mp isRow
      exact (members _).mpr (.inr ⟨sent, isSent, rfl, meets⟩)
  · cases isNext

/-- So does what is fetched after the page. -/
theorem SoundFetching.receive (sound : SoundFetching current state)
    (isFetch : state.newerFetch = some fetch) (isResponse : fetch.response = some response) :
    SoundFetching current (state.getMessagesSuccess current fetch response.page) := by
  have received := sound.withPage isFetch isResponse
  rw [FetchState.getMessagesSuccess_eq]
  split_ifs
  · exact received.maybeLoadNewerMessages.maybeLoadNewerMessages
  · exact received.maybeLoadNewerMessages
  · exact received.maybeLoadNewerMessages
  · exact received

end Page

end Zulip.Client
