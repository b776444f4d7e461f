import Zulip.Client.UnreadStore
import Zulip.Foundation.Transition

/-!
# Sequences of changes of the unread store

`unreadStore_always_iff` says which changes keep the collections consistent: all of them, unless a
message enters as a mention whose bucket is not where the message store has the message.
-/

namespace Zulip.Client

variable {Id : Type} [DecidableEq Id]


/-- A change of the unread store, with the other modules as they are then. -/
inductive UnreadAction (Id : Type) where
  | processUnreadMessage (client : ClientState Id) (message : UnreadMessageData Id)
  | markAsRead (messageId : Id)
  | updateMessageForMention (client : ClientState Id) (message : UnreadMessageData Id)
      (contentEdited : Bool)
  | moveMessages (messages : List (UnreadStore.MovedMessage Id)) (event : UnreadStore.MoveEvent)

namespace UnreadStore

/-- The store after a change. -/
def perform (toLowerCase : String → String) (store : UnreadStore Id) :
    UnreadAction Id → UnreadStore Id
  | .processUnreadMessage client message => store.processUnreadMessage toLowerCase client message
  | .markAsRead messageId => store.markAsRead toLowerCase messageId
  | .updateMessageForMention client message contentEdited =>
      (store.updateMessageForMention toLowerCase client message contentEdited).1
  | .moveMessages messages event => store.moveMessages toLowerCase messages event

/-- Only messages that are not tracked are processed as new unread messages. -/
def Enabled (store : UnreadStore Id) : UnreadAction Id → Prop
  | .processUnreadMessage _ message => message.id ∉ store.unreadMessages
  | _ => True

/-- One change. -/
def Step (toLowerCase : String → String) (store : UnreadStore Id) (action : UnreadAction Id)
    (next : UnreadStore Id) : Prop :=
  store.Enabled action ∧ next = store.perform toLowerCase action

/-- The changes that keep the collections consistent. A new direct message has a key; a message that
enters as a mention is tracked, and the message store has it under the topic of its bucket; messages
that move are stream messages. -/
def Allowed (toLowerCase : String → String) (store : UnreadStore Id) : UnreadAction Id → Prop
  | .processUnreadMessage client message =>
      message.kind ≠ .direct "" ∧
        (enters client message →
          streamKey? toLowerCase client message.id = message.kind.topicKey? toLowerCase)
  | .markAsRead _ => True
  | .updateMessageForMention client message _ =>
      enters client message → AllowsMention toLowerCase client store message
  | .moveMessages messages event =>
      event.Moves → ∀ message ∈ messages,
        store.directMessageCounter.reverseLookup.get? message.id = none

theorem Consistent.perform_iff {toLowerCase : String → String} {store : UnreadStore Id}
    (consistent : store.Consistent toLowerCase) {action : UnreadAction Id}
    (enabled : store.Enabled action) :
    (store.perform toLowerCase action).Consistent toLowerCase ↔
      store.Allowed toLowerCase action := by
  cases action with
  | processUnreadMessage client message =>
      by_cases named : message.kind ≠ .direct ""
      · have tracked := consistent.trackMessage enabled named
        rw [perform, processUnreadMessage, tracked.updateMessageForMention_iff,
          consistent.allowsMention_trackMessage enabled named, Allowed, and_iff_right named]
      · exact iff_of_false (consistent.not_named enabled (not_not.mp named))
          fun allowed => named allowed.1
  | markAsRead messageId => exact iff_of_true (consistent.markAsRead messageId) trivial
  | updateMessageForMention client message contentEdited =>
      exact consistent.updateMessageForMention_iff message contentEdited
  | moveMessages messages event => exact consistent.moveMessages_iff messages event

/-- The store of a user without unread messages. -/
def empty : UnreadStore Id where
  directMessageCounter := ⟨Dict.empty, Dict.empty⟩
  topicCounter := ⟨Dict.empty, Dict.empty⟩
  unreadMentionsCounter := Dict.empty
  directMessageWithMentionCount := ∅
  unreadMessages := ∅
  unreadMentionTopics := Dict.empty

theorem empty_consistent (toLowerCase : String → String) :
    (empty : UnreadStore Id).Consistent toLowerCase where
  directMessages id key := by simp [empty, DirectMessageCounter.members]
  topics id bucket := by simp [empty, TopicCounter.members]
  oneBucket _ := .inl rfl
  bucketed id := by simp [empty]
  mentions id isMention := by cases isMention
  directMentions id := by simp [empty]
  cache _ := rfl

end UnreadStore

open UnreadStore in
/-- The collections are consistent after every change of a sequence exactly when every change is
allowed. -/
theorem unreadStore_always_iff (toLowerCase : String → String) {start final : UnreadStore Id}
    {trace : List (UnreadStore Id × UnreadAction Id)} (run : Run (Step toLowerCase) start trace final)
    (consistent : start.Consistent toLowerCase) :
    Run.Always (Consistent toLowerCase) trace final ↔
      ∀ visit ∈ trace, Allowed toLowerCase visit.1 visit.2 := by
  have stepIff : ∀ {store : UnreadStore Id} {action : UnreadAction Id} {next : UnreadStore Id},
      True → store.Consistent toLowerCase → Step toLowerCase store action next →
        (next.Consistent toLowerCase ↔ store.Allowed toLowerCase action) := by
    rintro store action next - consistent ⟨enabled, rfl⟩
    exact consistent.perform_iff enabled
  exact @Run.always_iff _ _ _ (fun _ => True) _ _ _ _ _ run trivial consistent
    (fun _ _ _ _ => trivial) stepIff

/-- Lower case for ASCII. -/
def asciiLowerCase (text : String) : String := String.ofList (text.toList.map Char.toLower)

/-- A client whose message store has message 7 or nothing, and in which nothing is muted. -/
def quietClient (loaded : Bool) : ClientState Nat where
  streamMessage id := if loaded ∧ id = 7 then some (1, "Lunch") else none
  isStreamMuted _ := false
  isTopicMuted _ _ := false
  isTopicUnmutedOrFollowed _ _ := false

/-- A mention of the user in a topic. -/
def lunchMention : UnreadMessageData Nat where
  id := 7
  mentioned := true
  mentionedMeDirectly := true
  unread := true
  kind := .stream 1 "lunch"

/-- The mention arrives with its message, and is read. -/
def lunchActions : List (UnreadAction Nat) :=
  [.processUnreadMessage (quietClient true) lunchMention, .markAsRead 7]

theorem unreadStore_always_iff_lunch :
    ∃ trace, trace.map Prod.snd = lunchActions ∧
      Run.Always (UnreadStore.Consistent asciiLowerCase) trace
        ((UnreadStore.empty.processUnreadMessage asciiLowerCase (quietClient true)
          lunchMention).markAsRead asciiLowerCase 7) := by
  have first : Run (UnreadStore.Step asciiLowerCase) UnreadStore.empty
      [(UnreadStore.empty, UnreadAction.processUnreadMessage (quietClient true) lunchMention)]
      (UnreadStore.empty.processUnreadMessage asciiLowerCase (quietClient true) lunchMention) :=
    .step .refl ⟨by simp [UnreadStore.Enabled, UnreadStore.empty], rfl⟩
  have second : UnreadStore.Step asciiLowerCase
      (UnreadStore.empty.processUnreadMessage asciiLowerCase (quietClient true) lunchMention)
      (UnreadAction.markAsRead 7) _ := ⟨trivial, rfl⟩
  refine ⟨_, rfl, (unreadStore_always_iff asciiLowerCase (first.step second)
    (UnreadStore.empty_consistent asciiLowerCase)).mpr ?_⟩
  intro visit member
  rcases List.mem_pair.mp member with rfl | rfl
  · exact ⟨by decide, fun _ => by decide⟩
  · exact trivial

/-- A mention whose message is not loaded is missing in the cache. -/
theorem mention_missing_in_cache :
    ¬∀ trace final, Run (UnreadStore.Step asciiLowerCase) (UnreadStore.empty : UnreadStore Nat) trace
        final → Run.Always (UnreadStore.Consistent asciiLowerCase) trace final := by
  intro consistent
  have final := (consistent [(.empty, .processUnreadMessage (quietClient false) lunchMention)]
    _ (.step .refl ⟨by simp [UnreadStore.Enabled, UnreadStore.empty], rfl⟩)).2
  exact absurd (final.cache "1:lunch") (by decide +kernel)

end Zulip.Client
