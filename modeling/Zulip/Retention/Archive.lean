import Zulip.Retention.Tables

/-!
# Archiving and restoring messages

`run_archiving_in_chunks` and `restore_data_from_archive`. A query that breaks a unique constraint
raises an error, and its transaction is rolled back: the function returns `none`.
-/

namespace Zulip.Retention

/-! ## Models with a message key -/

/-- The details of a table that hangs off the `Message` table. -/
structure MessageKey (Row : Type) where
  messageId : Row → Nat
  clash : Row → Row → Bool

/-- The entry of `models_with_message_key` for reactions. -/
def reactionKey : MessageKey Reaction := ⟨Reaction.message, Reaction.clash⟩

/-- The entry of `models_with_message_key` for submessages. -/
def subMessageKey : MessageKey SubMessage := ⟨SubMessage.message, noClash⟩

/-- The entry of `models_with_message_key` for user messages. -/
def userMessageKey : MessageKey UserMessage := ⟨UserMessage.message, UserMessage.clash⟩

/-- The table `zerver_attachment_messages`, which is moved in the same way. -/
def attachmentMessageKey : MessageKey AttachmentMessage :=
  ⟨AttachmentMessage.message, AttachmentMessage.clash⟩

/-- Copy the rows of some messages. -/
def MessageKey.copy {Row : Type} (key : MessageKey Row) (among : Nat → Bool)
    (source table : Dict Nat Row) : Option (Dict Nat Row) :=
  Dict.copyMissing key.clash source table fun _ row => among (key.messageId row)

/-- `on_delete=CASCADE` for the rows of messages that are deleted. -/
def MessageKey.cascade {Row : Type} (key : MessageKey Row) (msgIds : List Nat)
    (table : Dict Nat Row) : Dict Nat Row :=
  table.filter fun _ row => key.messageId row ∉ msgIds

namespace Database

/-! ## Archiving a chunk -/

/-- The query of `run_archiving_in_chunks`: an archived message that is there already keeps its
row, and gets the new transaction. -/
def moveMessages (db : Database) (transaction : Nat) (msgIds : List Nat) : Dict Nat ArchivedMessage :=
  (db.live.messages.filter fun id _ => id ∈ msgIds).upsert db.archive.messages
    (fun row => ⟨row, transaction⟩) fun archived => { archived with archiveTransaction := transaction }

/-- `move_attachments_to_archive`. -/
def moveAttachments (db : Database) (msgIds : List Nat) : Option (Dict Nat Attachment) :=
  Dict.copyMissing Attachment.clash db.live.attachments db.archive.attachments fun id _ =>
    linkedTo db.live.attachmentMessages (· ∈ msgIds) id

/-- `move_related_objects_to_archive`, with the messages that are archived. -/
def moveRelated (db : Database) (messages : Dict Nat ArchivedMessage) (msgIds : List Nat) :
    Option (Tables ArchivedMessage) := do
  let reactions ← reactionKey.copy (· ∈ msgIds) db.live.reactions db.archive.reactions
  let subMessages ← subMessageKey.copy (· ∈ msgIds) db.live.subMessages db.archive.subMessages
  let userMessages ← userMessageKey.copy (· ∈ msgIds) db.live.userMessages db.archive.userMessages
  let attachments ← db.moveAttachments msgIds
  let attachmentMessages ← attachmentMessageKey.copy (· ∈ msgIds) db.live.attachmentMessages
    db.archive.attachmentMessages
  some
    { messages := messages
      reactions := reactions
      subMessages := subMessages
      userMessages := userMessages
      attachments := attachments
      attachmentMessages := attachmentMessages }

/-- `delete_messages`, with the rows that are deleted in cascade. -/
def deleteMessages (live : Tables Message) (msgIds : List Nat) : Tables Message :=
  { messages := live.messages.filter fun id _ => id ∉ msgIds
    reactions := reactionKey.cascade msgIds live.reactions
    subMessages := subMessageKey.cascade msgIds live.subMessages
    userMessages := userMessageKey.cascade msgIds live.userMessages
    attachments := live.attachments
    attachmentMessages := attachmentMessageKey.cascade msgIds live.attachmentMessages }

/-- The body of the loop of `run_archiving_in_chunks` for the messages that its query selects. -/
def archiveChunk (db : Database) (type : ArchiveType) (realm : Option Nat) (msgIds : List Nat) :
    Option Database :=
  let transaction := db.nextTransaction
  match msgIds with
  | [] => some { db with nextTransaction := transaction + 1 }
  | _ => do
    let archive ← db.moveRelated (db.moveMessages transaction msgIds) msgIds
    some
      { live := deleteMessages db.live msgIds
        archive := archive
        transactions := db.transactions.set transaction ⟨type, realm, false⟩
        nextTransaction := transaction + 1
        scheduled := db.scheduled.filter fun scheduled =>
          !scheduled.deliveredMessage.any (· ∈ msgIds) }

/-! ## Unclaimed attachments -/

/-- `messages__isnull` and `scheduled_messages__isnull`. -/
def unclaimed (db : Database) (attachment : Nat) : Bool :=
  !linkedTo db.live.attachmentMessages (fun _ => true) attachment &&
    !db.scheduled.any (·.attachment = attachment)

/-- Delete unclaimed attachments. -/
def deleteUnclaimed (db : Database) (among : Nat → Attachment → Bool) : Database :=
  { db with
    live :=
      { db.live with
        attachments := db.live.attachments.filter fun id row => !(db.unclaimed id && among id row) } }

/-- The attachments that `delete_expired_attachments` deletes when they are unclaimed. -/
def expiredAttachment (db : Database) (realm : Nat) (id : Nat) (row : Attachment) : Bool :=
  row.realm = realm && (db.archive.attachments.get? id).any (·.realm = realm)

/-- The attachments that `move_messages_to_archive` deletes when they are unclaimed. -/
def archivedAttachment (db : Database) (messageIds : List Nat) (id : Nat) : Bool :=
  (db.archive.attachments.get? id).isSome &&
    linkedTo db.archive.attachmentMessages (· ∈ messageIds) id

/-! ## Restoring -/

/-- `restore_messages_from_archive`. -/
def restoreMessages (db : Database) (transaction : Nat) : Option (Dict Nat Message) :=
  Dict.copyMissing noClash (db.archive.messages.mapValues (·.message)) db.live.messages fun id _ =>
    db.inTransaction transaction id

/-- `restore_attachments_from_archive`. -/
def restoreAttachments (db : Database) (transaction : Nat) : Option (Dict Nat Attachment) :=
  Dict.copyMissing Attachment.clash db.archive.attachments db.live.attachments fun id _ =>
    linkedTo db.archive.attachmentMessages (db.inTransaction transaction) id

/-- `restore_data_from_archive`. -/
def restoreDataFromArchive (db : Database) (transactionId : Nat) : Option Database := do
  let transaction ← db.transactions.get? transactionId
  let among := db.inTransaction transactionId
  let messages ← db.restoreMessages transactionId
  let reactions ← reactionKey.copy among db.archive.reactions db.live.reactions
  let subMessages ← subMessageKey.copy among db.archive.subMessages db.live.subMessages
  let userMessages ← userMessageKey.copy among db.archive.userMessages db.live.userMessages
  let attachments ← db.restoreAttachments transactionId
  let attachmentMessages ← attachmentMessageKey.copy among db.archive.attachmentMessages
    db.live.attachmentMessages
  some
    { db with
      live :=
        { messages := messages
          reactions := reactions
          subMessages := subMessages
          userMessages := userMessages
          attachments := attachments
          attachmentMessages := attachmentMessages }
      transactions := db.transactions.set transactionId { transaction with restored := true } }

/-- `restore_data_from_archive_by_transactions`. -/
def restoreByTransactions (db : Database) (transactions : List Nat) : Option Database :=
  transactions.foldlM restoreDataFromArchive db

/-! ## Archiving in chunks -/

/-- The query of a chunk selects messages that match, and all of them when there are fewer than
the size of a chunk. Which ones it selects otherwise is not determined. -/
structure Selects (db : Database) (condition : Nat → Message → Bool) (chunkSize : Nat)
    (msgIds : List Nat) : Prop where
  distinct : msgIds.Nodup
  matching : ∀ id ∈ msgIds, ∃ row, db.live.messages.get? id = some row ∧ condition id row = true
  limit : msgIds.length ≤ chunkSize
  all : msgIds.length < chunkSize →
    ∀ id row, db.live.messages.get? id = some row → condition id row = true → id ∈ msgIds

/-- `run_archiving_in_chunks`: chunk after chunk, until one is not full. The list holds the messages
of each chunk. -/
inductive RunArchivingInChunks (condition : Nat → Message → Bool) (type : ArchiveType)
    (realm : Option Nat) (chunkSize : Nat) : Database → List (List Nat) → Database → Prop where
  | last {db after : Database} {msgIds : List Nat} (selects : db.Selects condition chunkSize msgIds)
      (short : msgIds.length < chunkSize)
      (archived : db.archiveChunk type realm msgIds = some after) :
      RunArchivingInChunks condition type realm chunkSize db [msgIds] after
  | more {db between after : Database} {msgIds : List Nat} {chunks : List (List Nat)}
      (selects : db.Selects condition chunkSize msgIds) (full : ¬msgIds.length < chunkSize)
      (archived : db.archiveChunk type realm msgIds = some between)
      (rest : RunArchivingInChunks condition type realm chunkSize between chunks after) :
      RunArchivingInChunks condition type realm chunkSize db (msgIds :: chunks) after

/-- `move_messages_to_archive`: it raises an error when there is no message to archive. -/
inductive MoveMessagesToArchive (messageIds : List Nat) (realm : Option Nat) (chunkSize : Nat) :
    Database → List (List Nat) → Database → Prop where
  | moved {db between : Database} {chunks : List (List Nat)}
      (archived : RunArchivingInChunks (fun id _ => id ∈ messageIds) .manual realm chunkSize db
        chunks between) (found : chunks.flatten ≠ []) :
      MoveMessagesToArchive messageIds realm chunkSize db chunks
        (between.deleteUnclaimed fun id _ => between.archivedAttachment messageIds id)

/-! ## Retention policies -/

/-- The types of a recipient. -/
inductive RecipientType where
  | personal
  | stream
  | directMessageGroup
deriving DecidableEq, Repr

/-- The query of `move_expired_messages_to_archive_by_recipient`. -/
def expiredByRecipient (realm recipient : Nat) (checkDate : Int) (_ : Nat) (row : Message) : Bool :=
  row.realm = realm && row.recipient = recipient && row.dateSent < checkDate

/-- The query of `move_expired_direct_messages_to_archive`. -/
def expiredDirectMessage (recipientType : Nat → RecipientType) (realm : Nat) (checkDate : Int)
    (_ : Nat) (row : Message) : Bool :=
  row.realm = realm &&
    (recipientType row.recipient = .personal || recipientType row.recipient = .directMessageGroup) &&
    row.dateSent < checkDate

/-- A realm that requires archiving, with its streams that do: their recipients and retention
days. -/
structure RealmPolicy where
  realm : Nat
  messageRetentionDays : Int
  streams : List (Nat × Option Int)
deriving DecidableEq, Repr

/-- `MESSAGE_BATCH_SIZE`. -/
def messageBatchSize : Nat := 1000

/-- `STREAM_MESSAGE_BATCH_SIZE`. -/
def streamMessageBatchSize : Nat := 100

/-- The microseconds of a day. -/
def microsecondsPerDay : Int := 86400 * 1000000

/-- The retention days of a stream: its own, or those of the realm. -/
def RealmPolicy.streamDays (policy : RealmPolicy) (days : Option Int) : Int :=
  match days with
  | some days => if days = 0 then policy.messageRetentionDays else days
  | none => policy.messageRetentionDays

/-- A run of `run_archiving_in_chunks` in `archive_messages`. -/
structure ArchivingQuery where
  condition : Nat → Message → Bool
  chunkSize : Nat

/-- The queries of `archive_messages` for a realm: one for each stream, and one for the direct
messages. -/
def RealmPolicy.queries (policy : RealmPolicy) (recipientType : Nat → RecipientType) (now : Int)
    (chunkSize : Nat) : List ArchivingQuery :=
  policy.streams.map (fun stream =>
      ⟨expiredByRecipient policy.realm stream.1
        (now - policy.streamDays stream.2 * microsecondsPerDay), streamMessageBatchSize⟩) ++
    if policy.messageRetentionDays ≠ -1 then
      [⟨expiredDirectMessage recipientType policy.realm
        (now - policy.messageRetentionDays * microsecondsPerDay), chunkSize⟩]
    else []

/-- Queries of a realm, one after the other. -/
inductive RunQueries (realm : Nat) : List ArchivingQuery → Database → Database → Prop where
  | nil {db : Database} : RunQueries realm [] db db
  | cons {query : ArchivingQuery} {queries : List ArchivingQuery} {db between after : Database}
      {chunks : List (List Nat)}
      (archived : RunArchivingInChunks query.condition .retentionPolicyBased (some realm)
        query.chunkSize db chunks between)
      (rest : RunQueries realm queries between after) : RunQueries realm (query :: queries) db after

/-- `archive_messages`. -/
inductive ArchiveMessages (recipientType : Nat → RecipientType) (now : Int) (chunkSize : Nat) :
    List RealmPolicy → Database → Database → Prop where
  | nil {db : Database} : ArchiveMessages recipientType now chunkSize [] db db
  | cons {policy : RealmPolicy} {policies : List RealmPolicy} {db between after : Database}
      (archived : RunQueries policy.realm (policy.queries recipientType now chunkSize) db between)
      (rest : ArchiveMessages recipientType now chunkSize policies
        (between.deleteUnclaimed (between.expiredAttachment policy.realm)) after) :
      ArchiveMessages recipientType now chunkSize (policy :: policies) db after

end Database

end Zulip.Retention
