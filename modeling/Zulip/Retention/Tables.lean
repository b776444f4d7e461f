import Zulip.Foundation.Table

/-!
# Messages and their archive

The `Message` table and the tables that hang off it, each with its archive table. A table is a
dictionary of rows by id.
-/

namespace Zulip.Retention

/-! ## Rows -/

/-- `Message.MessageType`. -/
inductive MessageType where
  | normal
  | resolveTopicNotification
deriving DecidableEq, Repr

/-- A `Message` row without `search_tsvector`, which `EXCLUDE_FIELDS` leaves out. -/
structure Message where
  sender : Nat
  recipient : Nat
  realm : Nat
  type : MessageType
  subject : String
  content : String
  renderedContent : Option String
  renderedContentVersion : Option Int
  dateSent : Int
  sendingClient : Nat
  lastEditTime : Option Int
  editHistory : Option String
  hasAttachment : Bool
  hasImage : Bool
  hasLink : Bool
deriving DecidableEq

/-- `AbstractEmoji.REACTION_TYPES`. -/
inductive ReactionType where
  | unicodeEmoji
  | realmEmoji
  | zulipExtraEmoji
deriving DecidableEq, Repr

/-- A `Reaction` row. -/
structure Reaction where
  message : Nat
  userProfile : Nat
  emojiName : String
  reactionType : ReactionType
  emojiCode : String
deriving DecidableEq

/-- A `SubMessage` row. -/
structure SubMessage where
  message : Nat
  sender : Nat
  msgType : String
  content : String
deriving DecidableEq

/-- A `UserMessage` row. -/
structure UserMessage where
  message : Nat
  userProfile : Nat
  flags : Nat
deriving DecidableEq

/-- An `Attachment` row. -/
structure Attachment where
  fileName : String
  pathId : String
  owner : Nat
  realm : Nat
  createTime : Int
  size : Int
  contentType : Option String
  isRealmPublic : Option Bool
  isWebPublic : Option Bool
deriving DecidableEq

/-- A row of the table `zerver_attachment_messages`. -/
structure AttachmentMessage where
  attachment : Nat
  message : Nat
deriving DecidableEq

/-- An `ArchivedMessage` row. -/
structure ArchivedMessage where
  message : Message
  archiveTransaction : Nat
deriving DecidableEq

/-- The types of an `ArchiveTransaction`. -/
inductive ArchiveType where
  | retentionPolicyBased
  | manual
deriving DecidableEq, Repr

/-- An `ArchiveTransaction` row. -/
structure ArchiveTransaction where
  type : ArchiveType
  realm : Option Nat
  restored : Bool
deriving DecidableEq, Repr

/-! ## Unique constraints -/

/-- A table has no unique constraint but that of its id. -/
def noClash {Row : Type} (_ _ : Row) : Bool := false

/-- `unique_together` of `AbstractReaction`. -/
def Reaction.clash (first second : Reaction) : Bool :=
  first.userProfile = second.userProfile && first.message = second.message &&
    first.reactionType = second.reactionType && first.emojiCode = second.emojiCode

/-- `unique_together` of `AbstractUserMessage`. -/
def UserMessage.clash (first second : UserMessage) : Bool :=
  first.userProfile = second.userProfile && first.message = second.message

/-- `path_id` of `AbstractAttachment` is unique. -/
def Attachment.clash (first second : Attachment) : Bool := first.pathId = second.pathId

/-- An attachment is linked to a message once. -/
def AttachmentMessage.clash (first second : AttachmentMessage) : Bool :=
  first.attachment = second.attachment && first.message = second.message

/-- The rows of a table meet a unique constraint. -/
def Unique {Row : Type} (clash : Row → Row → Bool) (table : Dict Nat Row) : Prop :=
  ∀ id row other otherRow, table.get? id = some row → table.get? other = some otherRow →
    other ≠ id → clash otherRow row = false

theorem unique_iff {Row : Type} {clash : Row → Row → Bool} {table : Dict Nat Row} :
    Unique clash table ↔ ∀ first ∈ table.entries, ∀ second ∈ table.entries,
      second.1 ≠ first.1 → clash second.2 first.2 = false := by
  simp only [Unique, ← Dict.get?_eq_some_iff, Prod.forall]
  exact forall₂_congr fun id row =>
    ⟨fun apart found other otherRow => apart other otherRow found,
      fun apart other otherRow found => apart found other otherRow⟩

/-! ## Tables -/

/-- The tables of messages or those of archived messages. -/
structure Tables (MessageRow : Type) where
  messages : Dict Nat MessageRow
  reactions : Dict Nat Reaction
  subMessages : Dict Nat SubMessage
  userMessages : Dict Nat UserMessage
  attachments : Dict Nat Attachment
  attachmentMessages : Dict Nat AttachmentMessage
deriving DecidableEq

/-- Tables without rows. -/
def Tables.empty {MessageRow : Type} : Tables MessageRow where
  messages := .empty
  reactions := .empty
  subMessages := .empty
  userMessages := .empty
  attachments := .empty
  attachmentMessages := .empty

/-- An attachment of a scheduled message, with the message as which it was delivered. -/
structure ScheduledAttachment where
  attachment : Nat
  deliveredMessage : Option Nat
deriving DecidableEq, Repr

/-- The database. -/
structure Database where
  live : Tables Message
  archive : Tables ArchivedMessage
  transactions : Dict Nat ArchiveTransaction
  /-- The next id of the sequence of `ArchiveTransaction`. -/
  nextTransaction : Nat
  scheduled : List ScheduledAttachment
deriving DecidableEq

namespace Database

/-- The archived message belongs to the transaction. -/
def inTransaction (db : Database) (transaction message : Nat) : Bool :=
  (db.archive.messages.get? message).any fun row => row.archiveTransaction = transaction

theorem inTransaction_iff {db : Database} {transaction message : Nat} :
    db.inTransaction transaction message = true ↔ ∃ row,
      db.archive.messages.get? message = some row ∧ row.archiveTransaction = transaction := by
  unfold inTransaction
  rw [Option.any_eq_true]
  simp only [decide_eq_true_eq]

end Database

/-- An attachment is linked to a message of a kind. -/
def linkedTo (links : Dict Nat AttachmentMessage) (among : Nat → Bool) (attachment : Nat) : Bool :=
  links.values.any fun link => link.attachment = attachment && among link.message

theorem linkedTo_iff {links : Dict Nat AttachmentMessage} {among : Nat → Bool} {attachment : Nat} :
    linkedTo links among attachment = true ↔ ∃ id link, links.get? id = some link ∧
      link.attachment = attachment ∧ among link.message = true := by
  unfold linkedTo
  rw [List.any_eq_true]
  constructor
  · rintro ⟨link, member, holds⟩
    obtain ⟨id, listed⟩ := Dict.mem_values.mp member
    rw [Bool.and_eq_true, decide_eq_true_eq] at holds
    exact ⟨id, link, Dict.get?_eq_some_iff.mpr listed, holds⟩
  · rintro ⟨id, link, found, same, isAmong⟩
    refine ⟨link, Dict.mem_values.mpr ⟨id, Dict.get?_eq_some_iff.mp found⟩, ?_⟩
    rw [Bool.and_eq_true, decide_eq_true_eq]
    exact ⟨same, isAmong⟩

end Zulip.Retention
