import Zulip.Client.FetchBlock

/-!
# Fetches and events race

`fetchRace_iff`: once the newest messages have been found, the list has all messages that the client
has been told of above its oldest one, in every run. Where the page of a new narrow misses a
message, nothing more is fetched unless the list looks empty.
-/

namespace Zulip.Client

open Narrow

namespace FetchState

/-- The messages of events and of pages. -/
def told (state : FetchState) : List Message :=
  (state.log.messages.take state.delivered).map ServerMessage.toClient ++ state.pages

/-- A list that has found the newest messages has all the messages of its narrow that the client has
been told of above the oldest message of the list. -/
def Complete (current : CurrentList) (state : FetchState) : Prop :=
  state.fetchStatus.foundNewest = true →
    ∀ message ∈ state.told, current.config.predicate message = true →
      ∀ oldest ∈ state.data.allItems.head?, oldest.id ≤ message.id → message ∈ state.data.allItems

/-- When a page misses a message, another fetch is started. -/
def FetchesAgain (current : CurrentList) (state : FetchState) : FetchAction → Prop
  | .receive =>
      ∀ fetch ∈ state.newerFetch, ∀ response ∈ fetch.response,
        (finishBatches state.fetchStatus fetch response.page).2 = true →
          (state.getMessagesSuccess current fetch response.page).newerFetch.isSome
  | _ => True

/-- The page of a new narrow does not miss a message that was discarded, or it looks empty. -/
def Allowed (current : CurrentList) (state : FetchState) : FetchAction → Prop
  | .receive =>
      ∀ fetch ∈ state.newerFetch, ∀ response ∈ fetch.response,
        fetch.forNarrow = true → response.page.foundNewest = true →
          maxIdForMessages (response.page.rows.map ServerMessage.toClient) <
              state.fetchStatus.expectedMaxMessageId →
            current.isCombinedFeedView = false ∧ ∀ message ∈ response.page.rows,
              current.config.predicate message.toClient = true →
                unmuted current.config current.muting message.toClient = false
  | _ => True

instance (current : CurrentList) (state : FetchState) :
    (action : FetchAction) → Decidable (state.FetchesAgain current action)
  | .receive => by unfold FetchesAgain; infer_instance
  | .send _ | .deliver _ | .scroll | .answer _ | .retry | .reject => .isTrue trivial

instance (current : CurrentList) (state : FetchState) :
    (action : FetchAction) → Decidable (state.Allowed current action)
  | .receive => by unfold Allowed; infer_instance
  | .send _ | .deliver _ | .scroll | .answer _ | .retry | .reject => .isTrue trivial

end FetchState

section Sound

variable {current : CurrentList} {state : FetchState}

/-- A sound state is complete. -/
theorem SoundFetching.isComplete (sound : SoundFetching current state) :
    state.Complete current := by
  intro found message isTold meets oldest isOldest above
  rcases List.mem_append.mp isTold with byEvent | byPage
  · obtain ⟨sent, isSent, rfl⟩ := List.mem_map.mp byEvent
    exact (sound.complete found).2 sent isSent meets oldest (List.mem_of_mem_head? isOldest) above
  · exact sound.pages message byPage meets

/-- Every action keeps the list sound. -/
theorem SoundFetching.perform (sound : SoundFetching current state) {action : FetchAction}
    {next : FetchState} (performs : state.perform current action = some next) :
    SoundFetching current next := by
  cases action with
  | send message =>
      rw [FetchState.perform] at performs
      split_ifs at performs with accepts
      cases performs
      exact sound.send accepts
  | deliver count =>
      rw [FetchState.perform] at performs
      split_ifs at performs with within
      cases performs
      exact sound.deliver within
  | scroll =>
      cases performs
      exact sound.maybeLoadNewerMessages
  | answer firstUnread =>
      rw [FetchState.perform] at performs
      split at performs
      · rename_i isFetch
        cases performs
        exact sound.answer isFetch firstUnread
      · cases performs
  | retry =>
      obtain ⟨fetch, isFetch, rfl⟩ := Option.map_eq_some_iff.mp performs
      exact sound.retry isFetch
  | reject =>
      obtain ⟨fetch, isFetch, rfl⟩ := Option.map_eq_some_iff.mp performs
      exact sound.reject
  | receive =>
      obtain ⟨fetch, isFetch, performs⟩ := Option.bind_eq_some_iff.mp performs
      obtain ⟨response, isResponse, rfl⟩ := Option.map_eq_some_iff.mp performs
      exact sound.receive isFetch isResponse

/-- A new list is sound. -/
theorem soundFetching_loadMessagesForNarrow {log : ServerLog} {delivered : ℕ}
    (known : delivered ≤ log.messages.length) (anchor : AnchorValue) :
    SoundFetching current (FetchState.loadMessagesForNarrow log delivered anchor) := by
  refine ⟨MessageListState.initial_consistent _ _, fun id message isMessage => ?_,
    fun message member => ?_, fun message member => ?_, known, fun _ first member => ?_,
    fun found => ?_, fun fetch isFetch => ?_⟩
  · cases isMessage
  · cases member
  · cases member
  · cases member
  · cases found
  · cases isFetch
    have after : 0 < narrowAfter := by decide
    refine ⟨after, fun _ => rfl, fun forward => ?_, fun response isResponse => ?_⟩
    · cases forward
    · cases isResponse

/-- The list of a new narrow looks empty when it accepts no message of the page, or all of them are
muted. -/
theorem SoundFetching.isEmpty_withPage_iff (sound : SoundFetching current state) {fetch : Fetch}
    {response : FetchResponse} (isFetch : state.newerFetch = some fetch)
    (isResponse : fetch.response = some response) (forNarrow : fetch.forNarrow = true) :
    (state.withPage current fetch response.page).data.items.isEmpty = true ↔
      ∀ message ∈ response.page.rows, current.config.predicate message.toClient = true →
        unmuted current.config current.muting message.toClient = false := by
  have soundFetch := sound.fetch fetch isFetch
  obtain ⟨consistent, -, members⟩ := sound.addPage (soundFetch.response response isResponse)
  have shown := consistent.items
  rw [unmutedMessages_eq] at shown
  rw [List.isEmpty_iff, shown, List.filter_eq_nil_iff]
  constructor
  · intro muted message isRow meets
    exact Bool.eq_false_iff.mpr
      (muted _ ((members _).mpr (.inr ⟨message, isRow, rfl, meets⟩)))
  · intro muted message member
    rcases (members message).mp member with old | ⟨sent, isRow, rfl, meets⟩
    · rw [soundFetch.narrow forNarrow] at old
      cases old
    · exact Bool.eq_false_iff.mp (muted sent isRow meets)

/-- When a page misses a message, nothing is being fetched before the list looks for more. -/
theorem FetchState.canLoad_withPage {fetch : Fetch} {page : LimitedMessages ServerMessage}
    (after : 0 < fetch.numAfter) (misses : state.Misses page = true) :
    (state.withPage current fetch page).fetchStatus.canLoadNewerMessages = true := by
  obtain ⟨-, newest, loading⟩ := state.finishBatches_of_after after page
  rw [misses, Bool.not_true, Bool.and_false] at newest
  rw [withPage, FetchStatus.canLoadNewerMessages, newest, loading]
  rfl

/-- After a page for a list that it leaves looking empty, or one after the last message, another
fetch is started; otherwise a missed message is forgotten. -/
theorem SoundFetching.fetchesAgain_iff (sound : SoundFetching current state)
    (action : FetchAction) :
    state.FetchesAgain current action ↔ state.Allowed current action := by
  cases action with
  | receive =>
      refine forall₂_congr fun fetch isFetch => forall₂_congr fun response isResponse => ?_
      have after := (sound.fetch fetch isFetch).after
      obtain ⟨again, newest, -⟩ := state.finishBatches_of_after after response.page
      cases misses : state.Misses response.page with
      | false =>
          rw [again, misses]
          refine iff_of_true (fun missed => by cases missed) fun _ isNewest below => ?_
          rw [FetchState.Misses, isNewest, decide_eq_true below] at misses
          cases misses
      | true =>
          have canLoad := @FetchState.canLoad_withPage current _ _ _ after misses
          obtain ⟨isNewest, below⟩ := Bool.and_eq_true_iff.mp misses
          have empty_iff : state.LooksEmpty current fetch response.page = true ↔
              current.isCombinedFeedView = false ∧
                (state.withPage current fetch response.page).data.items.isEmpty = true := by
            rw [FetchState.LooksEmpty, newest, misses, decide_eq_true after]
            simp
          rw [again, misses, FetchState.getMessagesSuccess_eq, again, misses, Bool.and_true]
          cases forNarrow : fetch.forNarrow with
          | false =>
              refine iff_of_true (fun _ => ?_) fun isNarrow => by cases isNarrow
              rw [Bool.not_false, if_pos rfl]
              split_ifs
              · exact FetchState.isSome_maybeLoadNewerMessages_of_isSome
                  (FetchState.isSome_maybeLoadNewerMessages canLoad)
              · exact FetchState.isSome_maybeLoadNewerMessages canLoad
          | true =>
              rw [← sound.isEmpty_withPage_iff isFetch isResponse forNarrow, ← empty_iff,
                Bool.not_true, if_neg Bool.false_ne_true]
              constructor
              · intro fetches _ _ _
                by_contra full
                rw [if_neg full] at fetches
                exact absurd (fetches rfl) Bool.false_ne_true
              · intro allowed _
                rw [if_pos (allowed rfl isNewest (of_decide_eq_true below))]
                exact FetchState.isSome_maybeLoadNewerMessages canLoad
  | _ => exact Iff.rfl

end Sound

open FetchState in
/-- In every run, once the newest messages have been found, the list has everything that the client
has been told of above its oldest message. Another fetch follows every page that misses a message
exactly when no such page is one of a new narrow, apart from those that leave the list empty. -/
theorem fetchRace_iff (current : CurrentList) {log : ServerLog} {delivered : ℕ}
    (known : delivered ≤ log.messages.length) (anchor : AnchorValue)
    {trace : List (FetchState × FetchAction)} {final : FetchState}
    (run : Run (Step current) (loadMessagesForNarrow log delivered anchor) trace final) :
    (Run.Always (Complete current) trace final ∧
        ∀ visit ∈ trace, visit.1.FetchesAgain current visit.2) ↔
      ∀ visit ∈ trace, visit.1.Allowed current visit.2 := by
  have initial := @soundFetching_loadMessagesForNarrow current _ _ known anchor
  have sound : Run.Always (SoundFetching current) trace final :=
    @Run.always_of_condition _ _ _ (SoundFetching current) _ (fun _ _ => True) _ _ _ run initial id
      (fun sound performs _ => sound.perform performs) fun _ _ => trivial
  constructor
  · rintro ⟨-, fetches⟩ visit member
    exact ((sound.1 visit member).fetchesAgain_iff visit.2).mp (fetches visit member)
  · intro allowed
    exact ⟨⟨fun visit member => (sound.1 visit member).isComplete, sound.2.isComplete⟩,
      fun visit member =>
        ((sound.1 visit member).fetchesAgain_iff visit.2).mpr (allowed visit member)⟩

/-- A topic in which all messages are shown. -/
def lunchTopic : CurrentList :=
  ⟨⟨fun _ => true, false, false⟩, nothingMuted, false, fun _ => true, fun _ _ => rfl⟩

def lunchSent (id : ℤ) : ServerMessage := ⟨id, .stream 1 "lunch" false⟩

def noMessages : ServerLog := ⟨[], List.Pairwise.nil, by simp, by simp⟩

/-- While the page of an empty topic is on its way, the first message is sent and discarded. -/
def emptyTopicRace : List FetchAction :=
  [.answer 0, .send (lunchSent 11), .deliver 1, .receive, .answer 0, .receive]

open FetchState in
/-- The second page has the message. -/
theorem fetchRace_iff_emptyTopic :
    ∃ (trace : List (FetchState × FetchAction)) (final : FetchState),
      trace.map Prod.snd = emptyTopicRace ∧ final.data.allItems = [(lunchSent 11).toClient] ∧
        Run.Always (Complete lunchTopic) trace final ∧
          ∀ visit ∈ trace, visit.1.FetchesAgain lunchTopic visit.2 := by
  have performs : (emptyTopicRace.foldlM (perform lunchTopic)
      (loadMessagesForNarrow noMessages 0 .newest)).map (fun state => state.data.allItems) =
        some [(lunchSent 11).toClient] := by decide +kernel
  obtain ⟨final, performs, isFinal⟩ := Option.map_eq_some_iff.mp performs
  obtain ⟨run, isTrace⟩ := Run.of_foldlM performs
  exact ⟨_, final, isTrace, isFinal,
    (fetchRace_iff lunchTopic (Nat.zero_le _) .newest run).mpr (by decide +kernel)⟩

def oneMessage : ServerLog := (noMessages.send (lunchSent 10) (by decide +kernel))

/-- While the page of a topic with a message is on its way, another one is sent and discarded. -/
def topicRace : List FetchAction := [.answer 0, .send (lunchSent 11), .deliver 1, .receive]

open FetchState in
/-- The page has the newest message of its time, and misses the discarded one. Nothing more is
fetched. -/
theorem discardedMessage_notFetched :
    ∃ (trace : List (FetchState × FetchAction)) (final : FetchState),
      Run (Step lunchTopic) (loadMessagesForNarrow oneMessage 1 .newest) trace final ∧
        ¬ ∀ visit ∈ trace, visit.1.FetchesAgain lunchTopic visit.2 := by
  have performs : (topicRace.foldlM (perform lunchTopic)
      (loadMessagesForNarrow oneMessage 1 .newest)).isSome := by decide +kernel
  obtain ⟨final, performs⟩ := Option.isSome_iff_exists.mp performs
  obtain ⟨run, -⟩ := Run.of_foldlM performs
  exact ⟨_, final, run, by decide +kernel⟩

end Zulip.Client
