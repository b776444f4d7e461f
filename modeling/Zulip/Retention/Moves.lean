import Zulip.Retention.Archive

/-!
# What a chunk and a restore do

Archiving a chunk and restoring transactions, table by table.
-/

namespace Zulip.Retention

open Dict (get?_filter get?_mapValues)

/-! ## Tables with a message key -/

section MessageKey

variable {Row : Type} {key : MessageKey Row} {msgIds : List Nat}

/-- The message that a row belongs to. -/
def MessageKey.owner (key : MessageKey Row) (_ : Nat) (row : Row) : Nat := key.messageId row

theorem MessageKey.copied_of_copy {among : Nat → Bool} {source table after : Dict Nat Row}
    (copies : key.copy among source table = some after) :
    Copied source.get? table.get? after.get? fun id row => among (key.owner id row) = true :=
  Dict.copied_of_copyMissing copies

theorem MessageKey.get?_cascade {table : Dict Nat Row} {id : Nat} {row : Row} :
    (key.cascade msgIds table).get? id = some row ↔
      table.get? id = some row ∧ key.owner id row ∉ msgIds := by
  unfold MessageKey.cascade
  rw [get?_filter, decide_eq_true_eq]
  rfl

/-- A chunk has moved the rows of its messages from one table to another. -/
structure ChunkedRows (key : MessageKey Row) (msgIds : List Nat)
    (live archive nextLive nextArchive : Dict Nat Row) : Prop where
  deleted : ∀ id row, nextLive.get? id = some row ↔
    live.get? id = some row ∧ ¬key.owner id row ∈ msgIds
  copied : Copied live.get? archive.get? nextArchive.get? fun id row => key.owner id row ∈ msgIds

theorem ChunkedRows.of_copy {live archive nextArchive : Dict Nat Row}
    (copies : key.copy (· ∈ msgIds) live archive = some nextArchive) :
    ChunkedRows key msgIds live archive (key.cascade msgIds live) nextArchive where
  deleted _ _ := MessageKey.get?_cascade
  copied := by
    have copied := MessageKey.copied_of_copy copies
    simpa only [decide_eq_true_eq] using copied

theorem ChunkedRows.empty (key : MessageKey Row) (live archive : Dict Nat Row) :
    ChunkedRows key [] live archive live archive where
  deleted := by simp
  copied := by simpa using Copied.refl live.get? archive.get?

/-- Rows keep their messages. -/
theorem ChunkedRows.sameOwner {live archive nextLive nextArchive : Dict Nat Row}
    (chunked : ChunkedRows key msgIds live archive nextLive nextArchive)
    (same : SameOwner key.owner live.get? archive.get?) :
    SameOwner key.owner nextLive.get? nextArchive.get? := by
  intro id row archived isLive isArchived
  have wasLive := ((chunked.deleted id row).mp isLive).1
  rcases (chunked.copied id archived).mp isArchived with wasArchived | ⟨-, alsoLive, -⟩
  · exact same id row archived wasLive wasArchived
  · rw [wasLive, Option.some.injEq] at alsoLive
    rw [alsoLive]

/-- Rows that can be restored after a chunk were not stale before it. -/
theorem ChunkedRows.notStale {live archive nextLive nextArchive : Dict Nat Row}
    {original : Nat → Option Row} {moved nextMoved : Nat → Prop}
    (chunked : ChunkedRows key msgIds live archive nextLive nextArchive)
    (same : SameOwner key.owner live.get? archive.get?)
    (rows : Moved key.owner original live.get? archive.get? moved)
    (restored : Copied nextArchive.get? nextLive.get? original fun id row =>
      nextMoved (key.owner id row))
    (apart : ∀ id ∈ msgIds, ¬moved id) (isMoved : ∀ id ∈ msgIds, nextMoved id) :
    NotStale key.owner live.get? archive.get? (· ∈ msgIds) := by
  intro id row stored isChunk
  have isArchived := (chunked.copied id row).mpr (.inl stored)
  have notLive : nextLive.get? id = none := by
    rw [Option.eq_none_iff_forall_ne_some]
    intro other isLive
    obtain ⟨wasLive, otherMessage⟩ := (chunked.deleted id other).mp isLive
    rw [same id other row wasLive stored] at otherMessage
    exact otherMessage isChunk
  have isOriginal := (restored id row).mpr (.inr ⟨notLive, isArchived, isMoved _ isChunk⟩)
  exact (rows.live id row).mpr ⟨isOriginal, apart _ isChunk⟩

end MessageKey

namespace Database

/-- What a chunk does to the tables. -/
structure Chunked (db : Database) (msgIds : List Nat) (after : Database) : Prop where
  liveMessages : ∀ id row, after.live.messages.get? id = some row ↔
    db.live.messages.get? id = some row ∧ ¬id ∈ msgIds
  archivedMessages : ∀ id ∈ msgIds, ∀ row, db.live.messages.get? id = some row →
    after.archive.messages.get? id =
      some ⟨((db.archive.messages.get? id).map (·.message)).getD row, db.nextTransaction⟩
  otherMessages : ∀ id, id ∉ msgIds →
    after.archive.messages.get? id = db.archive.messages.get? id
  reactions : ChunkedRows reactionKey msgIds db.live.reactions db.archive.reactions
    after.live.reactions after.archive.reactions
  subMessages : ChunkedRows subMessageKey msgIds db.live.subMessages db.archive.subMessages
    after.live.subMessages after.archive.subMessages
  userMessages : ChunkedRows userMessageKey msgIds db.live.userMessages db.archive.userMessages
    after.live.userMessages after.archive.userMessages
  attachmentMessages : ChunkedRows attachmentMessageKey msgIds db.live.attachmentMessages
    db.archive.attachmentMessages after.live.attachmentMessages after.archive.attachmentMessages
  liveAttachments : after.live.attachments = db.live.attachments
  archivedAttachments : Copied db.live.attachments.get? db.archive.attachments.get?
    after.archive.attachments.get? fun id _ => ∃ linkId link,
      db.live.attachmentMessages.get? linkId = some link ∧ link.attachment = id ∧
        link.message ∈ msgIds
  nextTransaction : after.nextTransaction = db.nextTransaction + 1
  created : msgIds ≠ [] → (after.transactions.get? db.nextTransaction).isSome
  keptTransactions : ∀ id, (db.transactions.get? id).isSome → (after.transactions.get? id).isSome

/-- The contents of the archived messages after a chunk. -/
theorem Chunked.copiedMessages {db after : Database} {msgIds : List Nat}
    (chunked : db.Chunked msgIds after)
    (live : ∀ id ∈ msgIds, ∃ row, db.live.messages.get? id = some row) :
    Copied db.live.messages.get? (db.archive.messages.mapValues (·.message)).get?
      (after.archive.messages.mapValues (·.message)).get? fun id _ => id ∈ msgIds := by
  have content : ∀ (table : Dict Nat ArchivedMessage) id,
      (table.mapValues (·.message)).get? id = (table.get? id).map (·.message) := by
    intro table id
    apply Option.ext
    intro row
    rw [get?_mapValues, Option.map_eq_some_iff]
  intro id row
  simp only [content]
  by_cases member : id ∈ msgIds
  · obtain ⟨message, isLive⟩ := live id member
    rw [chunked.archivedMessages id member message isLive]
    cases db.archive.messages.get? id <;> simp [isLive, member]
  · rw [chunked.otherMessages id member]
    simp [member]

theorem chunked_of_archiveChunk {db after : Database} {type : ArchiveType} {realm : Option Nat}
    {msgIds : List Nat} (archived : db.archiveChunk type realm msgIds = some after) :
    db.Chunked msgIds after := by
  cases msgIds with
  | nil =>
    cases archived
    constructor
    case archivedAttachments => simpa using Copied.refl db.live.attachments.get? _
    all_goals first | exact ChunkedRows.empty _ _ _ | simp
  | cons first rest =>
    generalize isChunk : first :: rest = msgIds at archived
    have nonempty : msgIds ≠ [] := by rw [← isChunk]; exact List.cons_ne_nil _ _
    unfold archiveChunk at archived
    split at archived
    · exact absurd rfl nonempty
    dsimp only at archived
    rw [Option.bind_eq_bind, Option.bind_eq_some_iff] at archived
    obtain ⟨tables, related, archived⟩ := archived
    cases archived
    unfold moveRelated at related
    rw [Option.bind_eq_bind, Option.bind_eq_some_iff] at related
    obtain ⟨reactions, copiesReactions, related⟩ := related
    rw [Option.bind_eq_bind, Option.bind_eq_some_iff] at related
    obtain ⟨subMessages, copiesSubMessages, related⟩ := related
    rw [Option.bind_eq_bind, Option.bind_eq_some_iff] at related
    obtain ⟨userMessages, copiesUserMessages, related⟩ := related
    rw [Option.bind_eq_bind, Option.bind_eq_some_iff] at related
    obtain ⟨attachments, copiesAttachments, related⟩ := related
    rw [Option.bind_eq_bind, Option.bind_eq_some_iff] at related
    obtain ⟨attachmentMessages, copiesLinks, related⟩ := related
    cases related
    constructor
    case liveMessages =>
      intro id row
      dsimp only [deleteMessages]
      rw [get?_filter, decide_eq_true_eq]
    case archivedMessages =>
      intro id member row isLive
      dsimp only [moveMessages]
      rw [Dict.get?_upsert_of_some (get?_filter.mpr ⟨isLive, decide_eq_true member⟩)]
      cases db.archive.messages.get? id <;> rfl
    case otherMessages =>
      intro id other
      dsimp only [moveMessages]
      apply Dict.get?_upsert_of_none
      rw [Option.eq_none_iff_forall_ne_some]
      intro row selected
      exact other (of_decide_eq_true (get?_filter.mp selected).2)
    case reactions => exact .of_copy copiesReactions
    case subMessages => exact .of_copy copiesSubMessages
    case userMessages => exact .of_copy copiesUserMessages
    case attachmentMessages => exact .of_copy copiesLinks
    case liveAttachments => rfl
    case archivedAttachments =>
      have copied := Dict.copied_of_copyMissing copiesAttachments
      simpa only [linkedTo_iff, decide_eq_true_eq] using copied
    case nextTransaction => rfl
    case created =>
      intro _
      rw [Dict.get?_set_self]
      rfl
    case keptTransactions =>
      intro id isThere
      rw [Dict.get?_set]
      split
      · rfl
      · exact isThere

/-! ## Restoring -/

/-- What restoring the archived messages of a kind does to the tables. -/
structure Restored (db : Database) (among : Nat → Prop) (after : Database) : Prop where
  archive : after.archive = db.archive
  messages : Copied (db.archive.messages.mapValues (·.message)).get? db.live.messages.get?
    after.live.messages.get? fun id _ => among id
  reactions : Copied db.archive.reactions.get? db.live.reactions.get? after.live.reactions.get?
    fun id row => among (reactionKey.owner id row)
  subMessages : Copied db.archive.subMessages.get? db.live.subMessages.get?
    after.live.subMessages.get? fun id row => among (subMessageKey.owner id row)
  userMessages : Copied db.archive.userMessages.get? db.live.userMessages.get?
    after.live.userMessages.get? fun id row => among (userMessageKey.owner id row)
  attachmentMessages : Copied db.archive.attachmentMessages.get? db.live.attachmentMessages.get?
    after.live.attachmentMessages.get? fun id row => among (attachmentMessageKey.owner id row)
  attachments : Copied db.archive.attachments.get? db.live.attachments.get?
    after.live.attachments.get? fun id _ => ∃ linkId link,
      db.archive.attachmentMessages.get? linkId = some link ∧ link.attachment = id ∧
        among link.message
  keptTransactions : ∀ id, (db.transactions.get? id).isSome → (after.transactions.get? id).isSome

theorem restored_of_restoreDataFromArchive {db after : Database} {transactionId : Nat}
    (restores : db.restoreDataFromArchive transactionId = some after) :
    db.Restored (fun id => db.inTransaction transactionId id = true) after := by
  unfold restoreDataFromArchive at restores
  rw [Option.bind_eq_bind, Option.bind_eq_some_iff] at restores
  obtain ⟨transaction, -, restores⟩ := restores
  dsimp only at restores
  rw [Option.bind_eq_bind, Option.bind_eq_some_iff] at restores
  obtain ⟨messages, copiesMessages, restores⟩ := restores
  rw [Option.bind_eq_bind, Option.bind_eq_some_iff] at restores
  obtain ⟨reactions, copiesReactions, restores⟩ := restores
  rw [Option.bind_eq_bind, Option.bind_eq_some_iff] at restores
  obtain ⟨subMessages, copiesSubMessages, restores⟩ := restores
  rw [Option.bind_eq_bind, Option.bind_eq_some_iff] at restores
  obtain ⟨userMessages, copiesUserMessages, restores⟩ := restores
  rw [Option.bind_eq_bind, Option.bind_eq_some_iff] at restores
  obtain ⟨attachments, copiesAttachments, restores⟩ := restores
  rw [Option.bind_eq_bind, Option.bind_eq_some_iff] at restores
  obtain ⟨attachmentMessages, copiesLinks, restores⟩ := restores
  cases restores
  constructor
  case archive => rfl
  case messages => exact Dict.copied_of_copyMissing copiesMessages
  case reactions => exact MessageKey.copied_of_copy copiesReactions
  case subMessages => exact MessageKey.copied_of_copy copiesSubMessages
  case userMessages => exact MessageKey.copied_of_copy copiesUserMessages
  case attachmentMessages => exact MessageKey.copied_of_copy copiesLinks
  case attachments =>
    have copied := Dict.copied_of_copyMissing copiesAttachments
    simpa only [linkedTo_iff] using copied
  case keptTransactions =>
    intro id isThere
    rw [Dict.get?_set]
    split
    · rfl
    · exact isThere

theorem Restored.refl (db : Database) : db.Restored (fun _ => False) db := by
  constructor
  case archive => rfl
  case keptTransactions => exact fun _ isThere => isThere
  case attachments => simpa using Copied.refl db.archive.attachments.get? _
  all_goals exact Copied.refl _ _

/-- Messages of two kinds are restored one kind after the other. -/
theorem Restored.trans {db between after : Database} {first second : Nat → Prop}
    (before : db.Restored first between) (later : between.Restored second after) :
    db.Restored (fun id => first id ∨ second id) after := by
  have laterMessages := later.messages
  have laterReactions := later.reactions
  have laterSubMessages := later.subMessages
  have laterUserMessages := later.userMessages
  have laterLinks := later.attachmentMessages
  have laterAttachments := later.attachments
  rw [before.archive] at laterMessages laterReactions laterSubMessages laterUserMessages
  rw [before.archive] at laterLinks laterAttachments
  constructor
  case archive => rw [later.archive, before.archive]
  case messages => exact before.messages.trans laterMessages
  case reactions => exact before.reactions.trans laterReactions
  case subMessages => exact before.subMessages.trans laterSubMessages
  case userMessages => exact before.userMessages.trans laterUserMessages
  case attachmentMessages => exact before.attachmentMessages.trans laterLinks
  case attachments =>
    refine (before.attachments.trans laterAttachments).congr ?_
    intro id row _
    constructor
    · rintro (⟨linkId, link, found, same, isFirst⟩ | ⟨linkId, link, found, same, isSecond⟩)
      · exact ⟨linkId, link, found, same, .inl isFirst⟩
      · exact ⟨linkId, link, found, same, .inr isSecond⟩
    · rintro ⟨linkId, link, found, same, isFirst | isSecond⟩
      · exact .inl ⟨linkId, link, found, same, isFirst⟩
      · exact .inr ⟨linkId, link, found, same, isSecond⟩
  case keptTransactions =>
    exact fun id isThere => later.keptTransactions id (before.keptTransactions id isThere)

/-- The message is archived in one of the transactions. -/
def archivedIn (db : Database) (transactions : List Nat) (id : Nat) : Prop :=
  ∃ transaction ∈ transactions, db.inTransaction transaction id = true

theorem restored_of_restoreByTransactions {db after : Database} {transactions : List Nat}
    (restores : db.restoreByTransactions transactions = some after) :
    db.Restored (db.archivedIn transactions) after := by
  induction transactions generalizing db with
  | nil =>
    cases restores
    have kept := Restored.refl after
    have nothing : after.archivedIn [] = fun _ => False := by
      funext id
      simp [archivedIn]
    rwa [nothing]
  | cons transaction rest inductionHypothesis =>
    unfold restoreByTransactions at restores
    rw [List.foldlM_cons, Option.bind_eq_bind, Option.bind_eq_some_iff] at restores
    obtain ⟨between, first, others⟩ := restores
    have before := restored_of_restoreDataFromArchive first
    have later := inductionHypothesis others
    have sameTransactions : ∀ transaction id,
        between.inTransaction transaction id = db.inTransaction transaction id := by
      intro transaction id
      unfold inTransaction
      rw [before.archive]
    have whole := before.trans later
    have parts : (fun id => db.inTransaction transaction id = true ∨ between.archivedIn rest id) =
        db.archivedIn (transaction :: rest) := by
      funext id
      simp [archivedIn, sameTransactions]
    rwa [parts] at whole

/-! ## Restoring without an error -/

/-- The rows of two tables, those of a kind in the second one, are rows of a third table. -/
def Within {Row : Type} (original live archive : Nat → Option Row) (among : Nat → Row → Prop) :
    Prop :=
  ∀ id row, live id = some row ∨ archive id = some row ∧ among id row → original id = some row

theorem Within.mono {Row : Type} {original live archive : Nat → Option Row}
    {among fewer : Nat → Row → Prop} (within : Within original live archive among)
    (less : ∀ id row, fewer id row → among id row) : Within original live archive fewer :=
  fun id row stored => within id row (stored.imp_right fun archived =>
    ⟨archived.1, less id row archived.2⟩)

/-- Copying such rows adds nothing that is not original. -/
theorem Within.of_copied {Row : Type} {original live archive after : Nat → Option Row}
    {among fewer : Nat → Row → Prop} (within : Within original live archive among)
    (copied : Copied archive live after fewer) (less : ∀ id row, fewer id row → among id row) :
    Within original after archive among := by
  intro id row stored
  rcases stored with isThere | archived
  · rcases (copied id row).mp isThere with isLive | ⟨-, stored, isFewer⟩
    · exact within id row (.inl isLive)
    · exact within id row (.inr ⟨stored, less id row isFewer⟩)
  · exact within id row (.inr archived)

/-- A copy of rows of a table that meets the constraint is possible. -/
theorem exists_copyMissing_of_within {Row : Type} {clash : Row → Row → Bool}
    {original live archive : Dict Nat Row} {keep : Nat → Row → Bool}
    (unique : Unique clash original)
    (within : Within original.get? live.get? archive.get? fun id row => keep id row = true) :
    ∃ after, Dict.copyMissing clash archive live keep = some after := by
  apply Dict.exists_copyMissing
  intro id row other otherRow stored kept otherStored differs
  refine unique id row other otherRow (within id row (.inr ⟨stored, kept⟩)) ?_ differs
  exact within other otherRow otherStored

theorem exists_copy_of_within {Row : Type} {key : MessageKey Row}
    {original live archive : Dict Nat Row} {among : Nat → Bool} (unique : Unique key.clash original)
    (within : Within original.get? live.get? archive.get? fun id row =>
      among (key.owner id row) = true) : ∃ after, key.copy among archive live = some after :=
  exists_copyMissing_of_within unique within

/-- The unique constraints of the tables. -/
structure UniqueRows (tables : Tables Message) : Prop where
  reactions : Unique Reaction.clash tables.reactions
  userMessages : Unique UserMessage.clash tables.userMessages
  attachments : Unique Attachment.clash tables.attachments
  attachmentMessages : Unique AttachmentMessage.clash tables.attachmentMessages

/-- The live rows, and the archived rows of messages of a kind, are original rows. -/
structure WithinOriginal (original : Tables Message) (db : Database) (among : Nat → Prop) :
    Prop where
  messages : Within original.messages.get? db.live.messages.get?
    (db.archive.messages.mapValues (·.message)).get? fun id _ => among id
  reactions : Within original.reactions.get? db.live.reactions.get? db.archive.reactions.get?
    fun id row => among (reactionKey.owner id row)
  subMessages : Within original.subMessages.get? db.live.subMessages.get?
    db.archive.subMessages.get? fun id row => among (subMessageKey.owner id row)
  userMessages : Within original.userMessages.get? db.live.userMessages.get?
    db.archive.userMessages.get? fun id row => among (userMessageKey.owner id row)
  attachmentMessages : Within original.attachmentMessages.get? db.live.attachmentMessages.get?
    db.archive.attachmentMessages.get? fun id row => among (attachmentMessageKey.owner id row)
  attachments : Within original.attachments.get? db.live.attachments.get?
    db.archive.attachments.get? fun id _ => ∃ linkId link,
      db.archive.attachmentMessages.get? linkId = some link ∧ link.attachment = id ∧
        among link.message

/-- Fewer archived rows. -/
theorem WithinOriginal.mono {original : Tables Message} {db : Database} {among fewer : Nat → Prop}
    (within : db.WithinOriginal original among) (less : ∀ id, fewer id → among id) :
    db.WithinOriginal original fewer where
  messages := within.messages.mono fun id _ => less id
  reactions := within.reactions.mono fun _ _ => less _
  subMessages := within.subMessages.mono fun _ _ => less _
  userMessages := within.userMessages.mono fun _ _ => less _
  attachmentMessages := within.attachmentMessages.mono fun _ _ => less _
  attachments := within.attachments.mono fun id _ linked => by
    obtain ⟨linkId, link, found, same, isFewer⟩ := linked
    exact ⟨linkId, link, found, same, less _ isFewer⟩

/-- Restoring some of the rows adds nothing that is not original. -/
theorem WithinOriginal.of_restored {original : Tables Message} {db after : Database}
    {among fewer : Nat → Prop} (within : db.WithinOriginal original among)
    (restored : db.Restored fewer after) (less : ∀ id, fewer id → among id) :
    after.WithinOriginal original among := by
  have archive := restored.archive
  constructor
  case messages =>
    rw [archive]
    exact within.messages.of_copied restored.messages fun id _ => less id
  case reactions =>
    rw [archive]
    exact within.reactions.of_copied restored.reactions fun _ _ => less _
  case subMessages =>
    rw [archive]
    exact within.subMessages.of_copied restored.subMessages fun _ _ => less _
  case userMessages =>
    rw [archive]
    exact within.userMessages.of_copied restored.userMessages fun _ _ => less _
  case attachmentMessages =>
    rw [archive]
    exact within.attachmentMessages.of_copied restored.attachmentMessages fun _ _ => less _
  case attachments =>
    rw [archive]
    refine within.attachments.of_copied restored.attachments fun id _ linked => ?_
    obtain ⟨linkId, link, found, same, isFewer⟩ := linked
    exact ⟨linkId, link, found, same, less _ isFewer⟩

theorem unique_noClash {Row : Type} (table : Dict Nat Row) : Unique noClash table :=
  fun _ _ _ _ _ _ _ => rfl

/-- A transaction is restored without an error when what it brings back is original. -/
theorem exists_restoreDataFromArchive {original : Tables Message} {db : Database}
    {transactionId : Nat} (unique : UniqueRows original)
    (isTransaction : (db.transactions.get? transactionId).isSome)
    (within : db.WithinOriginal original fun id => db.inTransaction transactionId id = true) :
    ∃ after, db.restoreDataFromArchive transactionId = some after := by
  obtain ⟨transaction, found⟩ := Option.isSome_iff_exists.mp isTransaction
  have withinAttachments := within.attachments
  simp only [← linkedTo_iff] at withinAttachments
  have messages : ∃ messages, db.restoreMessages transactionId = some messages :=
    exists_copyMissing_of_within (unique_noClash original.messages) within.messages
  have attachments : ∃ attachments, db.restoreAttachments transactionId = some attachments :=
    exists_copyMissing_of_within unique.attachments withinAttachments
  obtain ⟨messages, copiesMessages⟩ := messages
  obtain ⟨attachments, copiesAttachments⟩ := attachments
  obtain ⟨reactions, copiesReactions⟩ :=
    @exists_copy_of_within _ reactionKey _ _ _ _ unique.reactions within.reactions
  obtain ⟨subMessages, copiesSubMessages⟩ :=
    @exists_copy_of_within _ subMessageKey _ _ _ _ (unique_noClash _) within.subMessages
  obtain ⟨userMessages, copiesUserMessages⟩ :=
    @exists_copy_of_within _ userMessageKey _ _ _ _ unique.userMessages within.userMessages
  obtain ⟨attachmentMessages, copiesLinks⟩ :=
    @exists_copy_of_within _ attachmentMessageKey _ _ _ _ unique.attachmentMessages
      within.attachmentMessages
  unfold restoreDataFromArchive
  simp only [found, copiesMessages, copiesReactions, copiesSubMessages, copiesUserMessages,
    copiesAttachments, copiesLinks, Option.bind_eq_bind, Option.bind_some]
  exact ⟨_, rfl⟩

/-- Transactions are restored without an error when what they bring back is original. -/
theorem exists_restoreByTransactions {original : Tables Message} {db : Database}
    {transactions : List Nat} (unique : UniqueRows original)
    (areTransactions : ∀ id ∈ transactions, (db.transactions.get? id).isSome)
    (within : db.WithinOriginal original (db.archivedIn transactions)) :
    ∃ after, db.restoreByTransactions transactions = some after := by
  induction transactions generalizing db with
  | nil => exact ⟨db, rfl⟩
  | cons transaction rest inductionHypothesis =>
    have inFirst : ∀ id, db.inTransaction transaction id = true →
        db.archivedIn (transaction :: rest) id := fun id isIn =>
      ⟨transaction, List.mem_cons_self, isIn⟩
    obtain ⟨between, first⟩ := exists_restoreDataFromArchive unique
      (areTransactions transaction List.mem_cons_self) (within.mono inFirst)
    have restored := restored_of_restoreDataFromArchive first
    have inRest : ∀ id, between.archivedIn rest id → db.archivedIn (transaction :: rest) id := by
      rintro id ⟨other, member, isIn⟩
      refine ⟨other, List.mem_cons_of_mem _ member, ?_⟩
      unfold inTransaction at isIn ⊢
      rwa [restored.archive] at isIn
    obtain ⟨after, others⟩ := inductionHypothesis
      (fun id member => restored.keptTransactions id
        (areTransactions id (List.mem_cons_of_mem _ member)))
      ((within.of_restored restored inFirst).mono inRest)
    refine ⟨after, ?_⟩
    unfold restoreByTransactions at others ⊢
    rw [List.foldlM_cons, first]
    exact others

end Database

end Zulip.Retention
