import Mathlib
import Zulip.Foundation.Table

/-!
# Reactions of a message

The pills under a message: built from the raw reactions that the server sends, and changed in place
when a reaction is added or removed. The text of every pill depends on how many reactions the
message has.
-/

namespace Zulip.Client.Reactions

inductive ReactionType where
  | zulipExtraEmoji
  | realmEmoji
  | unicodeEmoji
deriving DecidableEq

def ReactionType.name : ReactionType → String
  | .zulipExtraEmoji => "zulip_extra_emoji"
  | .realmEmoji => "realm_emoji"
  | .unicodeEmoji => "unicode_emoji"

/-- `RawReaction`, and the data of a `ReactionEvent`. -/
structure RawReaction where
  emojiName : String
  reactionType : ReactionType
  emojiCode : String
  userId : ℕ
deriving DecidableEq

/-- `get_local_reaction_id` -/
def RawReaction.localId (reaction : RawReaction) : String :=
  ",".intercalate [reaction.reactionType.name, reaction.emojiCode]

/-- `MessageCleanReaction` -/
structure MessageCleanReaction where
  localId : String
  userIds : List ℕ
  emojiName : String
  emojiCode : String
  reactionType : ReactionType
  /-- `url` and `still_url` of a realm emoji. -/
  urls : Option (String × Option String)
  emojiAltCode : Bool
  isRealmEmoji : Bool
  count : ℕ
  label : String
  cssClass : String
  voteText : String
deriving DecidableEq

/-- What the other modules of the client say; every user and emoji of a reaction is known. -/
structure Context where
  currentUserId : ℕ
  displayEmojiReactionUsers : Bool
  emojisetIsText : Bool
  /-- `people.get_display_full_name` -/
  displayFullName : ℕ → String
  /-- The translation of "You". -/
  you : String
  /-- `generate_title` -/
  generateTitle : String → List ℕ → String
  /-- `emoji.all_realm_emojis` -/
  realmEmojiUrls : String → String × Option String

namespace Context

variable (context : Context)

def commaSeparatedUsernames (userList : List ℕ) : String :=
  let usernames := userList.map context.displayFullName
  let usernames :=
    if userList.contains context.currentUserId then
      usernames.set (userList.idxOf context.currentUserId) context.you
    else usernames
  ", ".intercalate usernames

def getVoteText (userIds : List ℕ) (shouldDisplayReactors : Bool) : String :=
  if shouldDisplayReactors then context.commaSeparatedUsernames userIds
  else toString userIds.length

/-- `check_should_display_reactors`, of the `count` of every pill. -/
def checkShouldDisplayReactors (counts : List ℕ) : Bool :=
  if !context.displayEmojiReactionUsers then false
  else counts.sum ≤ 3

/-- `build_reaction_data`, assigned to a pill: what `update_user_fields` does. -/
def updateUserFields (shouldDisplayReactors : Bool) (reaction : MessageCleanReaction) :
    MessageCleanReaction :=
  { reaction with
    count := reaction.userIds.length
    label := context.generateTitle reaction.emojiName reaction.userIds
    cssClass :=
      if reaction.userIds.contains context.currentUserId then "message_reaction reacted"
      else "message_reaction"
    voteText := context.getVoteText reaction.userIds shouldDisplayReactors }

def makeCleanReaction (reaction : RawReaction) (userIds : List ℕ) (shouldDisplayReactors : Bool) :
    MessageCleanReaction :=
  context.updateUserFields shouldDisplayReactors
    { localId := reaction.localId
      userIds
      emojiName := reaction.emojiName
      emojiCode := reaction.emojiCode
      reactionType := reaction.reactionType
      urls :=
        if reaction.reactionType ≠ .unicodeEmoji then
          some (context.realmEmojiUrls reaction.emojiCode)
        else none
      emojiAltCode := context.emojisetIsText
      isRealmEmoji := reaction.reactionType = .realmEmoji || reaction.reactionType = .zulipExtraEmoji
      -- Set by `build_reaction_data`.
      count := 0
      label := ""
      cssClass := ""
      voteText := "" }

end Context

/-- `message.clean_reactions` -/
abbrev CleanReactions := Dict String MessageCleanReaction

/-- `get_reaction_counts_and_user_ids`; only the counts are read. -/
def reactionCounts (cleanReactions : CleanReactions) : List ℕ :=
  cleanReactions.values.map (·.count)

namespace Context

variable (context : Context)

/-! ## From the raw reactions -/

/-- The loop over the raw reactions: one raw reaction and the users, for each local id. -/
def collectReaction (collected : Dict String RawReaction × Dict String (List ℕ))
    (reaction : RawReaction) : Dict String RawReaction × Dict String (List ℕ) :=
  let localId := reaction.localId
  let collected :=
    if localId ∈ collected.1.keys then collected
    else (collected.1.set localId reaction, collected.2.set localId [])
  let userIds := collected.2.getD localId []
  if userIds.contains reaction.userId then collected
  else (collected.1, collected.2.set localId (userIds ++ [reaction.userId]))

def generateCleanReactions (reactions : List RawReaction) : CleanReactions :=
  let collected := reactions.foldl collectReaction (Dict.empty, Dict.empty)
  let shouldDisplayReactors := context.checkShouldDisplayReactors
    (collected.1.keys.map fun localId => (collected.2.getD localId []).length)
  collected.1.entries.foldl (fun cleanReactions entry =>
    cleanReactions.set entry.1 (context.makeCleanReaction entry.2
      (collected.2.getD entry.1 []) shouldDisplayReactors)) Dict.empty

/-! ## In place -/

def updateCleanReactions (cleanReactions : CleanReactions) : CleanReactions :=
  let shouldDisplayReactors := context.checkShouldDisplayReactors (reactionCounts cleanReactions)
  cleanReactions.mapValues (context.updateUserFields shouldDisplayReactors)

def updateVoteTextOnMessage (cleanReactions : CleanReactions) : CleanReactions :=
  let cleanReactions := context.updateCleanReactions cleanReactions
  let shouldDisplayReactors := context.checkShouldDisplayReactors (reactionCounts cleanReactions)
  cleanReactions.mapValues fun reaction =>
    { reaction with voteText := context.getVoteText reaction.userIds shouldDisplayReactors }

def addReaction (event : RawReaction) (cleanReactions : CleanReactions) : CleanReactions :=
  let cleanReactions := context.updateCleanReactions cleanReactions
  match cleanReactions.get? event.localId with
  | some reaction =>
      if reaction.userIds.contains event.userId then cleanReactions
      else
        let reaction := { reaction with userIds := reaction.userIds ++ [event.userId] }
        let cleanReactions := cleanReactions.set event.localId reaction
        -- The count of the pill is still the one from before.
        let shouldDisplayReactors :=
          context.checkShouldDisplayReactors (reactionCounts cleanReactions)
        context.updateVoteTextOnMessage (cleanReactions.set event.localId
          (context.updateUserFields shouldDisplayReactors reaction))
  | none =>
      let shouldDisplayReactors :=
        context.checkShouldDisplayReactors (reactionCounts cleanReactions ++ [1])
      context.updateVoteTextOnMessage (cleanReactions.set event.localId
        (context.makeCleanReaction event [event.userId] shouldDisplayReactors))

def removeReaction (event : RawReaction) (cleanReactions : CleanReactions) : CleanReactions :=
  let cleanReactions := context.updateCleanReactions cleanReactions
  match cleanReactions.get? event.localId with
  | none => cleanReactions
  | some reaction =>
      if !reaction.userIds.contains event.userId then cleanReactions
      else
        let reaction :=
          { reaction with userIds := reaction.userIds.filter fun userId => userId ≠ event.userId }
        if reaction.userIds.length = 0 then
          -- The pill that is updated is no longer in the map.
          context.updateVoteTextOnMessage (cleanReactions.erase event.localId)
        else
          let cleanReactions := cleanReactions.set event.localId reaction
          let shouldDisplayReactors :=
            context.checkShouldDisplayReactors (reactionCounts cleanReactions)
          context.updateVoteTextOnMessage (cleanReactions.set event.localId
            (context.updateUserFields shouldDisplayReactors reaction))

/-- A reaction event. -/
inductive Event where
  | add (reaction : RawReaction)
  | remove (reaction : RawReaction)

def applyEvent (cleanReactions : CleanReactions) : Event → CleanReactions
  | .add reaction => context.addReaction reaction cleanReactions
  | .remove reaction => context.removeReaction reaction cleanReactions

end Context

/-! ## The raw reactions that remain -/

/-- The same emoji and the same user. -/
def RawReaction.isSame (first second : RawReaction) : Bool :=
  first.localId = second.localId && first.userId = second.userId

/-- What the server would send after an event. -/
def remaining (reactions : List RawReaction) : Context.Event → List RawReaction
  | .add reaction =>
      if reactions.any reaction.isSame then reactions else reactions ++ [reaction]
  | .remove reaction => reactions.filter fun other => !reaction.isSame other

/-- The two maps agree in the pills, their users in order, counts, classes and texts. -/
def SamePills (first second : CleanReactions) : Prop :=
  ∀ localId, (first.get? localId).map (fun reaction =>
      (reaction.userIds, reaction.count, reaction.cssClass, reaction.voteText)) =
    (second.get? localId).map fun reaction =>
      (reaction.userIds, reaction.count, reaction.cssClass, reaction.voteText)

end Zulip.Client.Reactions
