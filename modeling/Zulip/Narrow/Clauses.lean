import Zulip.Access.Streams
import Zulip.Foundation.ThreeValued
import Zulip.Tornado.NarrowPredicate

/-!
# Conditions of message queries

The conditions that `NarrowBuilder` puts on a query, as the expressions it builds, and what the
database makes of them on one row. Full text search and case-insensitive matching are parameters.
-/

namespace Zulip.Narrow

open Zulip.Access Zulip.Messages

/-- The settings that the builder reads and the functions that its queries call. -/
structure Backend extends TextFunctions where
  /-- `settings.CROSS_REALM_BOT_EMAILS` -/
  crossRealmBotEmails : List String
  /-- `settings.USING_PGROONGA` -/
  usingPgroonga : Bool
  /-- `get_direct_message_group_hash`, which sorts the ids first. -/
  directMessageGroupHash : Finset Nat → String
  /-- Whether `\s` of a regular expression matches a character. -/
  isSpace : Char → Bool
  /-- `text ILIKE '%' || term || '%'`, with the special characters of the term escaped. -/
  ilikeContains : String → String → Bool
  /-- `search_tsvector @@ plainto_tsquery(operand)`; the column can be NULL. -/
  tsqueryMatches : Message → String → Truth
  /-- `search_pgroonga &@~ escape_html(operand)`; the column can be NULL. -/
  pgroongaMatches : Message → String → Truth

/-- A row of the query: the message and, where the query reads the user's `UserMessage` rows, the
`flags` column. -/
structure Row where
  message : Message
  flags : Option Flags
deriving DecidableEq

/-- A condition that the builder passes to `query.where`. -/
inductive ClauseElement where
  /-- `false()` -/
  | false_
  /-- `column("has_attachment", Boolean)` -/
  | hasAttachment
  /-- `column("has_image", Boolean)` -/
  | hasImage
  /-- `column("has_link", Boolean)` -/
  | hasLink
  /-- `EXISTS` of a `Reaction` row for the message. -/
  | hasReaction
  /-- `column("flags", Integer).op("&")(mask) != 0` -/
  | flagsSet (mask : Flags)
  /-- `column("flags", Integer).op("&")(mask) == 0` -/
  | flagsClear (mask : Flags)
  /-- `msg_id_column == literal(id)` -/
  | messageIs (id : Nat)
  /-- `column("sender_id", Integer) == id` -/
  | senderIs (id : Nat)
  /-- `column("realm_id", Integer) == realm.id` -/
  | realmIs (realm : Realm)
  /-- `column("recipient_id", Integer) == recipient.id` -/
  | recipientIs (recipient : Recipient)
  /-- `column("recipient_id", Integer).in_(recipients)` -/
  | recipientIn (recipients : List Recipient)
  /-- `topic_match_sa` -/
  | topicMatch (topicName : String)
  /-- `get_resolved_topic_condition_sa` -/
  | resolvedTopic
  /-- `get_followed_topic_condition_sa` -/
  | followedTopic (userId : Nat)
  /-- `column("content", Text).ilike(...)` -/
  | contentIlike (term : String)
  /-- `topic_column_sa().ilike(...)` -/
  | topicIlike (term : String)
  | tsvector (operand : String)
  | pgroonga (operand : String)
  | not_ (condition : ClauseElement)
  | and_ (left right : ClauseElement)
  | or_ (left right : ClauseElement)
deriving DecidableEq

namespace ClauseElement

/-- `and_` of several conditions; without any, nothing is required. -/
def all : List ClauseElement → ClauseElement
  | [] => .not_ .false_
  | [condition] => condition
  | condition :: rest => .and_ condition (all rest)

/-- `or_` of several conditions. -/
def any : List ClauseElement → ClauseElement
  | [] => .false_
  | [condition] => condition
  | condition :: rest => .or_ condition (any rest)

/-- `EXISTS` in `get_followed_topic_condition_sa`. -/
def followsTopic (backend : Backend) (db : Database) (userId : Nat) (message : Message) : Bool :=
  db.userTopics.any fun row =>
    row.userProfileId = userId ∧ row.visibilityPolicy = .followed ∧
      backend.upper row.topicName = backend.upper message.subject ∧
        row.recipient = message.recipient

/-- The value of a condition on a row. A `flags` column that is not there has no value. -/
def eval (backend : Backend) (db : Database) : ClauseElement → Row → Truth
  | .false_, _ => some false
  | .hasAttachment, row => some row.message.hasAttachment
  | .hasImage, row => some row.message.hasImage
  | .hasLink, row => some row.message.hasLink
  | .hasReaction, row => some (decide (row.message.id ∈ db.reactions))
  | .flagsSet mask, row => row.flags.map fun flags => flags.test mask
  | .flagsClear mask, row => row.flags.map fun flags => !flags.test mask
  | .messageIs id, row => some (decide (row.message.id = id))
  | .senderIs id, row => some (decide (row.message.senderId = id))
  | .realmIs realm, row => some (decide (row.message.realm = realm))
  | .recipientIs recipient, row => some (decide (row.message.recipient = recipient))
  | .recipientIn recipients, row => some (decide (row.message.recipient ∈ recipients))
  | .topicMatch topicName, row =>
      some (decide (backend.upper row.message.subject = backend.upper topicName))
  | .resolvedTopic, row =>
      some (Tornado.startswith row.message.subject Tornado.resolvedTopicPrefix)
  | .followedTopic userId, row => some (followsTopic backend db userId row.message)
  | .contentIlike term, row => some (backend.ilikeContains row.message.content term)
  | .topicIlike term, row => some (backend.ilikeContains row.message.subject term)
  | .tsvector operand, row => backend.tsqueryMatches row.message operand
  | .pgroonga operand, row => backend.pgroongaMatches row.message operand
  | .not_ condition, row => (condition.eval backend db row).not
  | .and_ left right, row => (left.eval backend db row).and (right.eval backend db row)
  | .or_ left right, row => (left.eval backend db row).or (right.eval backend db row)

/-- Whether the condition mentions the `flags` column. -/
def readsFlags : ClauseElement → Bool
  | .flagsSet _ | .flagsClear _ => true
  | .not_ condition => condition.readsFlags
  | .and_ left right | .or_ left right => left.readsFlags || right.readsFlags
  | _ => false

/-- Whether the condition mentions a full text search column. -/
def readsSearch : ClauseElement → Bool
  | .tsvector _ | .pgroonga _ => true
  | .not_ condition => condition.readsSearch
  | .and_ left right | .or_ left right => left.readsSearch || right.readsSearch
  | _ => false

/-- The value is known where the columns that can lack one are not mentioned. -/
theorem eval_ne_none {backend : Backend} {db : Database} {condition : ClauseElement} {row : Row}
    (flagsThere : condition.readsFlags = true → row.flags ≠ none)
    (noSearch : condition.readsSearch = false) : condition.eval backend db row ≠ none := by
  induction condition with
  | flagsSet mask =>
      rw [eval, ne_eq, Option.map_eq_none_iff]
      exact flagsThere rfl
  | flagsClear mask =>
      rw [eval, ne_eq, Option.map_eq_none_iff]
      exact flagsThere rfl
  | tsvector operand => cases noSearch
  | pgroonga operand => cases noSearch
  | not_ condition inductionHypothesis =>
      rw [eval, Truth.not_ne_none]
      exact inductionHypothesis flagsThere noSearch
  | and_ left right leftHypothesis rightHypothesis =>
      rw [readsSearch, Bool.or_eq_false_iff] at noSearch
      refine Truth.and_ne_none (leftHypothesis (fun reads => flagsThere ?_) noSearch.1)
        (rightHypothesis (fun reads => flagsThere ?_) noSearch.2)
      · simp [readsFlags, reads]
      · simp [readsFlags, reads]
  | or_ left right leftHypothesis rightHypothesis =>
      rw [readsSearch, Bool.or_eq_false_iff] at noSearch
      refine Truth.or_ne_none (leftHypothesis (fun reads => flagsThere ?_) noSearch.1)
        (rightHypothesis (fun reads => flagsThere ?_) noSearch.2)
      · simp [readsFlags, reads]
      · simp [readsFlags, reads]
  | _ => simp [eval]

end ClauseElement

end Zulip.Narrow
