import Zulip.Foundation.Transition
import Zulip.Retention.Moves

/-!
# The archive of a run

Archiving messages in chunks and restoring the created transactions. The core design principle is
that no live row is deleted before it is in an archive table, from which it can be restored.
-/

namespace Zulip.Retention

open Database (UniqueRows Within)
open Dict (get?_mapValues)

/-! ## Steps and the property -/

/-- The database and the transactions that were created. -/
structure ArchivingState where
  db : Database
  created : List Nat

namespace ArchivingState

/-- The message is archived by one of the created transactions. -/
def moved (state : ArchivingState) (id : Nat) : Prop := state.db.archivedIn state.created id

/-- The state after a chunk. -/
def afterChunk (state : ArchivingState) (msgIds : List Nat) (after : Database) : ArchivingState where
  db := after
  created := if msgIds = [] then state.created else state.created ++ [state.db.nextTransaction]

end ArchivingState

/-- A chunk, or a deletion of unclaimed attachments. -/
inductive ArchivingAction where
  | chunk (type : ArchiveType) (realm : Option Nat) (msgIds : List Nat)
  | deleteUnclaimed (among : Nat → Attachment → Bool)

/-- What an action does. A chunk archives messages that are in the live table. -/
inductive ArchivingStep : ArchivingState → ArchivingAction → ArchivingState → Prop where
  | chunk {state : ArchivingState} {type : ArchiveType} {realm : Option Nat} {msgIds : List Nat}
      {after : Database} (live : ∀ id ∈ msgIds, ∃ row, state.db.live.messages.get? id = some row)
      (archived : state.db.archiveChunk type realm msgIds = some after) :
      ArchivingStep state (.chunk type realm msgIds) (state.afterChunk msgIds after)
  | deleteUnclaimed {state : ArchivingState} (among : Nat → Attachment → Bool) :
      ArchivingStep state (.deleteUnclaimed among) { state with db := state.db.deleteUnclaimed among }

/-- The tables have the message with all its original related rows. -/
structure HasMessage {MessageRow : Type} (original : Tables Message) (content : MessageRow → Message)
    (tables : Tables MessageRow) (id : Nat) : Prop where
  message : (tables.messages.mapValues content).get? id = original.messages.get? id
  reactions : ∀ rowId row, original.reactions.get? rowId = some row → row.message = id →
    tables.reactions.get? rowId = some row
  subMessages : ∀ rowId row, original.subMessages.get? rowId = some row → row.message = id →
    tables.subMessages.get? rowId = some row
  userMessages : ∀ rowId row, original.userMessages.get? rowId = some row → row.message = id →
    tables.userMessages.get? rowId = some row
  attachmentMessages : ∀ rowId row, original.attachmentMessages.get? rowId = some row →
    row.message = id → tables.attachmentMessages.get? rowId = some row
  attachments : ∀ linkId link, original.attachmentMessages.get? linkId = some link →
    link.message = id →
      tables.attachments.get? link.attachment = original.attachments.get? link.attachment

/-- Two sets of tables have the same rows. -/
structure SameRows (left right : Tables Message) : Prop where
  messages : left.messages.get? = right.messages.get?
  reactions : left.reactions.get? = right.reactions.get?
  subMessages : left.subMessages.get? = right.subMessages.get?
  userMessages : left.userMessages.get? = right.userMessages.get?
  attachments : left.attachments.get? = right.attachments.get?
  attachmentMessages : left.attachmentMessages.get? = right.attachmentMessages.get?

/-- Restoring the created transactions, in any order, gives back the original rows, and each
original message is live or archived with all its related rows. -/
structure RoundTrips (original : Tables Message) (state : ArchivingState) : Prop where
  restores : ∀ order, order.Perm state.created → ∃ after,
    state.db.restoreByTransactions order = some after ∧ SameRows after.live original
  together : ∀ id row, original.messages.get? id = some row →
    HasMessage original (fun row => row) state.db.live id ∨
      HasMessage original ArchivedMessage.message state.db.archive id

/-- The archive has nothing of some messages that differs from the live tables. -/
structure NothingStale (db : Database) (msgIds : List Nat) : Prop where
  messages : ∀ id ∈ msgIds, ∀ archived, db.archive.messages.get? id = some archived →
    db.live.messages.get? id = some archived.message
  reactions : NotStale reactionKey.owner db.live.reactions.get? db.archive.reactions.get? (· ∈ msgIds)
  subMessages : NotStale subMessageKey.owner db.live.subMessages.get? db.archive.subMessages.get?
    (· ∈ msgIds)
  userMessages : NotStale userMessageKey.owner db.live.userMessages.get?
    db.archive.userMessages.get? (· ∈ msgIds)
  attachmentMessages : NotStale attachmentMessageKey.owner db.live.attachmentMessages.get?
    db.archive.attachmentMessages.get? (· ∈ msgIds)
  attachments : ∀ linkId link archived, db.live.attachmentMessages.get? linkId = some link →
    link.message ∈ msgIds → db.archive.attachments.get? link.attachment = some archived →
      db.live.attachments.get? link.attachment = some archived

/-- Whether anything is stale can be checked row by row. -/
theorem nothingStale_iff {db : Database} {msgIds : List Nat} : NothingStale db msgIds ↔
    (∀ id ∈ msgIds, ∀ archived ∈ db.archive.messages.get? id,
      db.live.messages.get? id = some archived.message) ∧
    (∀ entry ∈ db.archive.reactions.entries, entry.2.message ∈ msgIds →
      db.live.reactions.get? entry.1 = some entry.2) ∧
    (∀ entry ∈ db.archive.subMessages.entries, entry.2.message ∈ msgIds →
      db.live.subMessages.get? entry.1 = some entry.2) ∧
    (∀ entry ∈ db.archive.userMessages.entries, entry.2.message ∈ msgIds →
      db.live.userMessages.get? entry.1 = some entry.2) ∧
    (∀ entry ∈ db.archive.attachmentMessages.entries, entry.2.message ∈ msgIds →
      db.live.attachmentMessages.get? entry.1 = some entry.2) ∧
    ∀ entry ∈ db.live.attachmentMessages.entries, entry.2.message ∈ msgIds →
      ∀ archived ∈ db.archive.attachments.get? entry.2.attachment,
        db.live.attachments.get? entry.2.attachment = some archived := by
  constructor
  · intro nothingStale
    refine ⟨nothingStale.messages, notStale_iff.mp nothingStale.reactions,
      notStale_iff.mp nothingStale.subMessages, notStale_iff.mp nothingStale.userMessages,
      notStale_iff.mp nothingStale.attachmentMessages, fun entry listed ofChunk archived => ?_⟩
    exact nothingStale.attachments entry.1 entry.2 archived (Dict.get?_eq_some_iff.mpr listed)
      ofChunk
  · rintro ⟨messages, reactions, subMessages, userMessages, attachmentMessages, attachments⟩
    refine ⟨messages, notStale_iff.mpr reactions, notStale_iff.mpr subMessages,
      notStale_iff.mpr userMessages, notStale_iff.mpr attachmentMessages, ?_⟩
    intro linkId link archived found ofChunk stored
    exact attachments (linkId, link) (Dict.get?_eq_some_iff.mp found) ofChunk archived stored

instance (db : Database) (msgIds : List Nat) : Decidable (NothingStale db msgIds) :=
  decidable_of_iff _ nothingStale_iff.symm

/-- The archive has nothing stale of the messages of a chunk, and only attachments of messages
that were archived in this run are deleted. -/
def Restorable (state : ArchivingState) : ArchivingAction → Prop
  | .chunk _ _ msgIds => NothingStale state.db msgIds
  | .deleteUnclaimed among => ∀ id row, state.db.live.attachments.get? id = some row →
      state.db.unclaimed id = true → among id row = true →
        ∃ linkId link, state.db.archive.attachmentMessages.get? linkId = some link ∧
          link.attachment = id ∧ state.moved link.message

/-- What holds of the database of the program: the unique constraints, a foreign key, ids that are
used for one row only, and transaction ids that come from a sequence. -/
structure Consistent (db : Database) : Prop where
  unique : UniqueRows db.live
  linkedAttachment : ∀ id link, db.live.attachmentMessages.get? id = some link →
    ∃ row, db.live.attachments.get? link.attachment = some row
  reactions : SameOwner reactionKey.owner db.live.reactions.get? db.archive.reactions.get?
  subMessages : SameOwner subMessageKey.owner db.live.subMessages.get? db.archive.subMessages.get?
  userMessages : SameOwner userMessageKey.owner db.live.userMessages.get?
    db.archive.userMessages.get?
  attachmentMessages : SameOwner attachmentMessageKey.owner db.live.attachmentMessages.get?
    db.archive.attachmentMessages.get?
  archivedBefore : ∀ id archived, db.archive.messages.get? id = some archived →
    archived.archiveTransaction < db.nextTransaction

/-! ## The invariant -/

/-- Where the original rows are during a run. -/
structure DuringRun (original : Tables Message) (state : ArchivingState) : Prop where
  unique : UniqueRows original
  messages : Moved (fun id (_ : Message) => id) original.messages.get? state.db.live.messages.get?
    (state.db.archive.messages.mapValues (·.message)).get? state.moved
  reactions : Moved reactionKey.owner original.reactions.get? state.db.live.reactions.get?
    state.db.archive.reactions.get? state.moved
  subMessages : Moved subMessageKey.owner original.subMessages.get? state.db.live.subMessages.get?
    state.db.archive.subMessages.get? state.moved
  userMessages : Moved userMessageKey.owner original.userMessages.get?
    state.db.live.userMessages.get? state.db.archive.userMessages.get? state.moved
  attachmentMessages : Moved attachmentMessageKey.owner original.attachmentMessages.get?
    state.db.live.attachmentMessages.get? state.db.archive.attachmentMessages.get? state.moved
  liveAttachments : ∀ id row, state.db.live.attachments.get? id = some row →
    original.attachments.get? id = some row
  archivedAttachments : ∀ linkId link, state.db.archive.attachmentMessages.get? linkId = some link →
    state.moved link.message →
      state.db.archive.attachments.get? link.attachment = original.attachments.get? link.attachment
  deletedAttachments : ∀ id row, original.attachments.get? id = some row →
    state.db.live.attachments.get? id = none →
      ∃ linkId link, state.db.archive.attachmentMessages.get? linkId = some link ∧
        link.attachment = id ∧ state.moved link.message
  linkedAttachment : ∀ id link, state.db.live.attachmentMessages.get? id = some link →
    ∃ row, state.db.live.attachments.get? link.attachment = some row
  sameReactions : SameOwner reactionKey.owner state.db.live.reactions.get?
    state.db.archive.reactions.get?
  sameSubMessages : SameOwner subMessageKey.owner state.db.live.subMessages.get?
    state.db.archive.subMessages.get?
  sameUserMessages : SameOwner userMessageKey.owner state.db.live.userMessages.get?
    state.db.archive.userMessages.get?
  sameAttachmentMessages : SameOwner attachmentMessageKey.owner
    state.db.live.attachmentMessages.get? state.db.archive.attachmentMessages.get?
  archivedBefore : ∀ id archived, state.db.archive.messages.get? id = some archived →
    archived.archiveTransaction < state.db.nextTransaction
  areTransactions : ∀ id ∈ state.created, (state.db.transactions.get? id).isSome

namespace DuringRun

variable {original : Tables Message} {state : ArchivingState} {msgIds : List Nat}
  {after : Database}

/-- At the start of a run everything is live. -/
theorem start {db : Database} (consistent : Consistent db) : DuringRun db.live ⟨db, []⟩ := by
  have nothing : ∀ id, ¬(ArchivingState.mk db []).moved id := by
    intro id
    simp [ArchivingState.moved, Database.archivedIn]
  exact
    { unique := consistent.unique
      messages := .start nothing
      reactions := .start nothing
      subMessages := .start nothing
      userMessages := .start nothing
      attachmentMessages := .start nothing
      liveAttachments := fun _ _ found => found
      archivedAttachments := fun _ link _ isMoved => absurd isMoved (nothing link.message)
      deletedAttachments := by
        intro id row found absent
        rw [found] at absent
        cases absent
      linkedAttachment := consistent.linkedAttachment
      sameReactions := consistent.reactions
      sameSubMessages := consistent.subMessages
      sameUserMessages := consistent.userMessages
      sameAttachmentMessages := consistent.attachmentMessages
      archivedBefore := consistent.archivedBefore
      areTransactions := by simp }

/-- A live message has not moved. -/
theorem not_moved {id : Nat} {row : Message} (during : DuringRun original state)
    (live : state.db.live.messages.get? id = some row) : ¬state.moved id :=
  ((during.messages.live id row).mp live).2

/-- The rows that restoring brings back are original. -/
theorem within (during : DuringRun original state) :
    state.db.WithinOriginal original state.moved := by
  have inTable : ∀ {Row : Type} {owner : Nat → Row → Nat} {original live archive : Nat → Option Row},
      Moved owner original live archive state.moved →
        Within original live archive fun id row => state.moved (owner id row) := by
    intro Row owner original live archive moved id row stored
    rcases stored with isLive | ⟨isArchived, isMoved⟩
    · exact ((moved.live id row).mp isLive).1
    · exact (moved.archived id row isMoved).mp isArchived
  constructor
  case messages => exact inTable during.messages
  case reactions => exact inTable during.reactions
  case subMessages => exact inTable during.subMessages
  case userMessages => exact inTable during.userMessages
  case attachmentMessages => exact inTable during.attachmentMessages
  case attachments =>
    rintro id row (isLive | ⟨isArchived, linkId, link, found, rfl, isMoved⟩)
    · exact during.liveAttachments id row isLive
    · rw [← during.archivedAttachments linkId link found isMoved]
      exact isArchived

/-- Restoring everything that has moved gives back the original rows. -/
theorem sameRows_of_restored (during : DuringRun original state)
    (restored : state.db.Restored state.moved after) : SameRows after.live original := by
  constructor
  case messages => exact funext (during.messages.restore restored.messages)
  case reactions => exact funext (during.reactions.restore restored.reactions)
  case subMessages => exact funext (during.subMessages.restore restored.subMessages)
  case userMessages => exact funext (during.userMessages.restore restored.userMessages)
  case attachmentMessages =>
    exact funext (during.attachmentMessages.restore restored.attachmentMessages)
  case attachments =>
    funext id
    apply Option.ext
    intro row
    rw [restored.attachments id row]
    constructor
    · rintro (isLive | ⟨-, isArchived, linked⟩)
      · exact during.within.attachments id row (.inl isLive)
      · exact during.within.attachments id row (.inr ⟨isArchived, linked⟩)
    · intro isOriginal
      cases live : state.db.live.attachments.get? id with
      | some other =>
        rw [during.liveAttachments id other live] at isOriginal
        exact .inl isOriginal
      | none =>
        obtain ⟨linkId, link, found, rfl, isMoved⟩ :=
          during.deletedAttachments id row isOriginal live
        refine .inr ⟨rfl, ?_, linkId, link, found, rfl, isMoved⟩
        rw [during.archivedAttachments linkId link found isMoved]
        exact isOriginal

/-- A message that has moved is archived with its related rows. -/
theorem hasMessage_archive (during : DuringRun original state) {id : Nat} {row : Message}
    (isOriginal : original.messages.get? id = some row) (isMoved : state.moved id) :
    HasMessage original ArchivedMessage.message state.db.archive id := by
  constructor
  case message =>
    rw [isOriginal]
    exact (during.messages.archived id row isMoved).mpr isOriginal
  case reactions =>
    rintro rowId related found rfl
    exact (during.reactions.archived rowId related isMoved).mpr found
  case subMessages =>
    rintro rowId related found rfl
    exact (during.subMessages.archived rowId related isMoved).mpr found
  case userMessages =>
    rintro rowId related found rfl
    exact (during.userMessages.archived rowId related isMoved).mpr found
  case attachmentMessages =>
    rintro rowId related found rfl
    exact (during.attachmentMessages.archived rowId related isMoved).mpr found
  case attachments =>
    rintro linkId link found rfl
    exact during.archivedAttachments linkId link
      ((during.attachmentMessages.archived linkId link isMoved).mpr found) isMoved

/-- A message that has not is live with them. -/
theorem hasMessage_live (during : DuringRun original state) {id : Nat} {row : Message}
    (isOriginal : original.messages.get? id = some row) (notMoved : ¬state.moved id) :
    HasMessage original (fun row => row) state.db.live id := by
  constructor
  case message =>
    rw [isOriginal, get?_mapValues]
    exact ⟨row, (during.messages.live id row).mpr ⟨isOriginal, notMoved⟩, rfl⟩
  case reactions =>
    rintro rowId related found rfl
    exact (during.reactions.live rowId related).mpr ⟨found, notMoved⟩
  case subMessages =>
    rintro rowId related found rfl
    exact (during.subMessages.live rowId related).mpr ⟨found, notMoved⟩
  case userMessages =>
    rintro rowId related found rfl
    exact (during.userMessages.live rowId related).mpr ⟨found, notMoved⟩
  case attachmentMessages =>
    rintro rowId related found rfl
    exact (during.attachmentMessages.live rowId related).mpr ⟨found, notMoved⟩
  case attachments =>
    rintro linkId link found rfl
    have isLive := (during.attachmentMessages.live linkId link).mpr ⟨found, notMoved⟩
    obtain ⟨attachment, present⟩ := during.linkedAttachment linkId link isLive
    rw [present, during.liveAttachments _ attachment present]

/-- During a run, everything can be restored and every message is kept together. -/
theorem roundTrips (during : DuringRun original state) : RoundTrips original state := by
  constructor
  case restores =>
    intro order permuted
    have sameMoved : state.db.archivedIn order = state.moved := by
      funext id
      simp [ArchivingState.moved, Database.archivedIn, permuted.mem_iff]
    obtain ⟨after, restores⟩ := Database.exists_restoreByTransactions during.unique
      (fun id member => during.areTransactions id (permuted.mem_iff.mp member))
      (by rw [sameMoved]; exact during.within)
    have restored := Database.restored_of_restoreByTransactions restores
    rw [sameMoved] at restored
    exact ⟨after, restores, during.sameRows_of_restored restored⟩
  case together =>
    intro id row isOriginal
    by_cases isMoved : state.moved id
    · exact .inr (during.hasMessage_archive isOriginal isMoved)
    · exact .inl (during.hasMessage_live isOriginal isMoved)

/-! ## Chunks -/

/-- After a chunk its messages have moved as well. -/
theorem moved_afterChunk (during : DuringRun original state)
    (live : ∀ id ∈ msgIds, ∃ row, state.db.live.messages.get? id = some row)
    (chunked : state.db.Chunked msgIds after) :
    (state.afterChunk msgIds after).moved = fun id => state.moved id ∨ id ∈ msgIds := by
  funext id
  apply propext
  by_cases member : id ∈ msgIds
  · have nonempty : msgIds ≠ [] := List.ne_nil_of_mem member
    obtain ⟨row, isLive⟩ := live id member
    simp only [member, or_true, iff_true]
    refine ⟨state.db.nextTransaction, ?_, ?_⟩
    · simp [ArchivingState.afterChunk, nonempty]
    · exact Database.inTransaction_iff.mpr
        ⟨_, chunked.archivedMessages id member row isLive, rfl⟩
  · have sameTransaction : ∀ transaction,
        after.inTransaction transaction id = state.db.inTransaction transaction id := by
      intro transaction
      unfold Database.inTransaction
      rw [chunked.otherMessages id member]
    have notNew : state.db.inTransaction state.db.nextTransaction id = false := by
      rw [Bool.eq_false_iff]
      intro isNew
      obtain ⟨archived, found, same⟩ := Database.inTransaction_iff.mp isNew
      have before := during.archivedBefore id archived found
      omega
    simp only [ArchivingState.moved, Database.archivedIn, ArchivingState.afterChunk, sameTransaction,
      member, or_false]
    split
    · rfl
    · simp [or_and_right, exists_or, notNew]

theorem apart (during : DuringRun original state)
    (live : ∀ id ∈ msgIds, ∃ row, state.db.live.messages.get? id = some row) :
    ∀ id ∈ msgIds, ¬state.moved id := by
  intro id member
  obtain ⟨row, isLive⟩ := live id member
  exact during.not_moved isLive

/-- A chunk without anything stale keeps the invariant. -/
theorem afterChunk (during : DuringRun original state)
    (live : ∀ id ∈ msgIds, ∃ row, state.db.live.messages.get? id = some row)
    (chunked : state.db.Chunked msgIds after) (notStale : NothingStale state.db msgIds) :
    DuringRun original (state.afterChunk msgIds after) := by
  have movedNow := during.moved_afterChunk live chunked
  have apart := during.apart live
  have links := during.attachmentMessages.move during.sameAttachmentMessages
    notStale.attachmentMessages apart chunked.attachmentMessages.deleted
    chunked.attachmentMessages.copied
  constructor
  case unique => exact during.unique
  case messages =>
    rw [movedNow]
    refine during.messages.move (fun _ _ _ _ _ => rfl) ?_ apart chunked.liveMessages
      (chunked.copiedMessages live)
    intro id row stored member
    obtain ⟨archived, found, rfl⟩ := get?_mapValues.mp stored
    exact notStale.messages id member archived found
  case reactions =>
    rw [movedNow]
    exact during.reactions.move during.sameReactions notStale.reactions apart
      chunked.reactions.deleted chunked.reactions.copied
  case subMessages =>
    rw [movedNow]
    exact during.subMessages.move during.sameSubMessages notStale.subMessages apart
      chunked.subMessages.deleted chunked.subMessages.copied
  case userMessages =>
    rw [movedNow]
    exact during.userMessages.move during.sameUserMessages notStale.userMessages apart
      chunked.userMessages.deleted chunked.userMessages.copied
  case attachmentMessages =>
    rw [movedNow]
    exact links
  case liveAttachments =>
    dsimp only [ArchivingState.afterChunk]
    rw [chunked.liveAttachments]
    exact during.liveAttachments
  case archivedAttachments =>
    rw [movedNow]
    intro linkId link found isMoved
    have isOriginal := (links.archived linkId link isMoved).mp found
    dsimp only [ArchivingState.afterChunk]
    rcases isMoved with earlier | now
    · -- The archived attachment is there already, or there is no such attachment.
      have wasArchived := (during.attachmentMessages.archived linkId link earlier).mpr isOriginal
      have same := during.archivedAttachments linkId link wasArchived earlier
      rw [← same]
      apply Option.ext
      intro row
      rw [chunked.archivedAttachments link.attachment row]
      constructor
      · rintro (stored | ⟨absent, isLive, -⟩)
        · exact stored
        · rw [same, during.liveAttachments _ row isLive] at absent
          cases absent
      · exact .inl
    · have isLive := (during.attachmentMessages.live linkId link).mpr ⟨isOriginal, apart _ now⟩
      obtain ⟨row, present⟩ := during.linkedAttachment linkId link isLive
      rw [during.liveAttachments _ row present, chunked.archivedAttachments]
      cases stored : state.db.archive.attachments.get? link.attachment with
      | none => exact .inr ⟨rfl, present, linkId, link, isLive, rfl, now⟩
      | some archived =>
        have same := notStale.attachments linkId link archived isLive now stored
        rw [present] at same
        exact .inl same.symm
  case deletedAttachments =>
    rw [movedNow]
    dsimp only [ArchivingState.afterChunk]
    rw [chunked.liveAttachments]
    intro id row isOriginal absent
    obtain ⟨linkId, link, found, same, isMoved⟩ := during.deletedAttachments id row isOriginal absent
    exact ⟨linkId, link, (chunked.attachmentMessages.copied linkId link).mpr (.inl found), same,
      .inl isMoved⟩
  case linkedAttachment =>
    dsimp only [ArchivingState.afterChunk]
    rw [chunked.liveAttachments]
    intro id link found
    exact during.linkedAttachment id link ((chunked.attachmentMessages.deleted id link).mp found).1
  case sameReactions => exact chunked.reactions.sameOwner during.sameReactions
  case sameSubMessages => exact chunked.subMessages.sameOwner during.sameSubMessages
  case sameUserMessages => exact chunked.userMessages.sameOwner during.sameUserMessages
  case sameAttachmentMessages =>
    exact chunked.attachmentMessages.sameOwner during.sameAttachmentMessages
  case archivedBefore =>
    intro id archived found
    dsimp only [ArchivingState.afterChunk] at found ⊢
    rw [chunked.nextTransaction]
    by_cases member : id ∈ msgIds
    · obtain ⟨row, isLive⟩ := live id member
      rw [chunked.archivedMessages id member row isLive, Option.some.injEq] at found
      rw [← found]
      exact Nat.lt_succ_self _
    · rw [chunked.otherMessages id member] at found
      exact Nat.lt_succ_of_lt (during.archivedBefore id archived found)
  case areTransactions =>
    dsimp only [ArchivingState.afterChunk]
    intro id member
    split at member
    · exact chunked.keptTransactions id (during.areTransactions id member)
    case isFalse nonempty =>
      rcases List.mem_append.mp member with earlier | new
      · exact chunked.keptTransactions id (during.areTransactions id earlier)
      · rw [List.mem_singleton.mp new]
        exact chunked.created nonempty

/-- A chunk that can be undone had nothing stale. -/
theorem notStale_of_roundTrips (during : DuringRun original state)
    (live : ∀ id ∈ msgIds, ∃ row, state.db.live.messages.get? id = some row)
    (chunked : state.db.Chunked msgIds after)
    (roundTrips : RoundTrips original (state.afterChunk msgIds after)) :
    NothingStale state.db msgIds := by
  have movedNow := during.moved_afterChunk live chunked
  have apart := during.apart live
  have isMoved : ∀ id ∈ msgIds, (state.afterChunk msgIds after).moved id := by
    intro id member
    rw [movedNow]
    exact .inr member
  obtain ⟨final, restores, same⟩ := roundTrips.restores _ (List.Perm.refl _)
  have restored := Database.restored_of_restoreByTransactions restores
  -- The messages of the chunk are not live any more.
  have archivedTogether : ∀ id ∈ msgIds,
      HasMessage original ArchivedMessage.message after.archive id := by
    intro id member
    obtain ⟨row, isLive⟩ := live id member
    have isOriginal := ((during.messages.live id row).mp isLive).1
    rcases roundTrips.together id row isOriginal with isKept | isArchived
    · have stillLive := isKept.message
      rw [isOriginal, get?_mapValues] at stillLive
      obtain ⟨_, found, -⟩ := stillLive
      exact absurd member ((chunked.liveMessages id _).mp found).2
    · exact isArchived
  constructor
  case messages =>
    intro id member archived stored
    obtain ⟨row, isLive⟩ := live id member
    have content := (archivedTogether id member).message
    rw [((during.messages.live id row).mp isLive).1, get?_mapValues] at content
    obtain ⟨_, found, sameContent⟩ := content
    rw [chunked.archivedMessages id member row isLive, Option.some.injEq, stored] at found
    rw [← found] at sameContent
    rw [isLive, ← sameContent]
    rfl
  case reactions =>
    have back := restored.reactions
    rw [same.reactions] at back
    exact chunked.reactions.notStale during.sameReactions during.reactions back apart isMoved
  case subMessages =>
    have back := restored.subMessages
    rw [same.subMessages] at back
    exact chunked.subMessages.notStale during.sameSubMessages during.subMessages back apart isMoved
  case userMessages =>
    have back := restored.userMessages
    rw [same.userMessages] at back
    exact chunked.userMessages.notStale during.sameUserMessages during.userMessages back apart
      isMoved
  case attachmentMessages =>
    have back := restored.attachmentMessages
    rw [same.attachmentMessages] at back
    exact chunked.attachmentMessages.notStale during.sameAttachmentMessages
      during.attachmentMessages back apart isMoved
  case attachments =>
    intro linkId link archived isLive member stored
    have isOriginal := ((during.attachmentMessages.live linkId link).mp isLive).1
    have together := (archivedTogether link.message member).attachments linkId link isOriginal rfl
    rw [(chunked.archivedAttachments link.attachment archived).mpr (.inl stored)] at together
    obtain ⟨row, present⟩ := during.linkedAttachment linkId link isLive
    rw [during.liveAttachments _ row present] at together
    rw [present, together]

/-! ## Unclaimed attachments -/

theorem get?_deleteUnclaimed {db : Database} {among : Nat → Attachment → Bool} {id : Nat}
    {row : Attachment} :
    (db.deleteUnclaimed among).live.attachments.get? id = some row ↔
      db.live.attachments.get? id = some row ∧ ¬(db.unclaimed id = true ∧ among id row = true) := by
  unfold Database.deleteUnclaimed
  rw [Dict.get?_filter, Bool.not_eq_true', Bool.and_eq_false_iff, not_and_or]
  simp only [Bool.not_eq_true]

/-- Deleting attachments of messages that were archived in the run keeps the invariant. -/
theorem afterDeletion {among : Nat → Attachment → Bool} (during : DuringRun original state)
    (restorable : Restorable state (.deleteUnclaimed among)) :
    DuringRun original { state with db := state.db.deleteUnclaimed among } :=
  { during with
    liveAttachments := by
      intro id row found
      exact during.liveAttachments id row (get?_deleteUnclaimed.mp found).1
    deletedAttachments := by
      intro id row isOriginal absent
      cases live : state.db.live.attachments.get? id with
      | none => exact during.deletedAttachments id row isOriginal live
      | some other =>
        by_cases deleted : state.db.unclaimed id = true ∧ among id other = true
        · exact restorable id other live deleted.1 deleted.2
        · have kept := get?_deleteUnclaimed.mpr ⟨live, deleted⟩
          rw [absent] at kept
          cases kept
    linkedAttachment := by
      intro id link found
      obtain ⟨row, present⟩ := during.linkedAttachment id link found
      refine ⟨row, get?_deleteUnclaimed.mpr ⟨present, fun deleted => ?_⟩⟩
      have claimed : linkedTo state.db.live.attachmentMessages (fun _ => true) link.attachment = true :=
        linkedTo_iff.mpr ⟨id, link, found, rfl, rfl⟩
      have notClaimed := deleted.1
      unfold Database.unclaimed at notClaimed
      rw [claimed] at notClaimed
      cases notClaimed }

theorem restorable_of_roundTrips {among : Nat → Attachment → Bool}
    (during : DuringRun original state)
    (roundTrips : RoundTrips original { state with db := state.db.deleteUnclaimed among }) :
    Restorable state (.deleteUnclaimed among) := by
  intro id row isLive unclaimed isAmong
  obtain ⟨final, restores, same⟩ := roundTrips.restores _ (List.Perm.refl _)
  have restored := (Database.restored_of_restoreByTransactions restores).attachments
  rw [same.attachments] at restored
  rcases (restored id row).mp (during.liveAttachments id row isLive) with kept | ⟨-, -, linked⟩
  · exact absurd ⟨unclaimed, isAmong⟩ (get?_deleteUnclaimed.mp kept).2
  · exact linked

end DuringRun

/-! ## Runs -/

/-- At every point of a run the created transactions can be restored and the messages are kept
together exactly when no step of the run has met anything stale. -/
theorem roundTrips_always_iff {db : Database} {trace : List (ArchivingState × ArchivingAction)}
    {final : ArchivingState} (consistent : Consistent db)
    (run : Run ArchivingStep ⟨db, []⟩ trace final) :
    Run.Always (RoundTrips db.live) trace final ↔ ∀ visit ∈ trace, Restorable visit.1 visit.2 := by
  have during := DuringRun.start consistent
  refine run.always_iff during during.roundTrips ?_ ?_
  · intro state action next during _ step restorable
    cases step with
    | chunk live archived =>
      exact during.afterChunk live (Database.chunked_of_archiveChunk archived) restorable
    | deleteUnclaimed among => exact during.afterDeletion restorable
  · intro state action next during _ step
    cases step with
    | chunk live archived =>
      have chunked := Database.chunked_of_archiveChunk archived
      exact ⟨during.notStale_of_roundTrips live chunked,
        fun notStale => (during.afterChunk live chunked notStale).roundTrips⟩
    | deleteUnclaimed among =>
      exact ⟨during.restorable_of_roundTrips,
        fun restorable => (during.afterDeletion restorable).roundTrips⟩

/-- A message. -/
def sentMessage (content : String) : Message where
  sender := 1
  recipient := 2
  realm := 3
  type := .normal
  subject := "lunch"
  content := content
  renderedContent := none
  renderedContentVersion := none
  dateSent := 0
  sendingClient := 1
  lastEditTime := none
  editHistory := none
  hasAttachment := false
  hasImage := false
  hasLink := false

/-- A database with one message, and the tables of an archive. -/
def withMessage (content : String) (archive : Tables ArchivedMessage)
    (transactions : Dict Nat ArchiveTransaction) (nextTransaction : Nat) : Database where
  live := { (Tables.empty : Tables Message) with
    messages := Dict.empty.set 7 (sentMessage content) }
  archive := archive
  transactions := transactions
  nextTransaction := nextTransaction
  scheduled := []

/-- A message that was archived and restored, and edited after that. -/
def editedAfterRestore : Database :=
  withMessage "second"
    { (Tables.empty : Tables ArchivedMessage) with
      messages := Dict.empty.set 7 ⟨sentMessage "first", 0⟩ }
    (Dict.empty.set 0 ⟨.manual, none, true⟩) 1

theorem withMessage_consistent {content : String} {archive : Tables ArchivedMessage}
    {transactions : Dict Nat ArchiveTransaction} {nextTransaction : Nat}
    (archivedBefore : ∀ id archived, archive.messages.get? id = some archived →
      archived.archiveTransaction < nextTransaction) :
    Consistent (withMessage content archive transactions nextTransaction) where
  unique := by
    constructor <;>
    · intro id row other otherRow found
      cases found
  linkedAttachment := by
    intro id link found
    cases found
  reactions := by
    intro id row archived found
    cases found
  subMessages := by
    intro id row archived found
    cases found
  userMessages := by
    intro id row archived found
    cases found
  attachmentMessages := by
    intro id row archived found
    cases found
  archivedBefore := archivedBefore

/-- The state after some messages are archived. -/
def ArchivingState.chunked (state : ArchivingState) (msgIds : List Nat) : ArchivingState :=
  state.afterChunk msgIds ((state.db.archiveChunk .manual none msgIds).getD state.db)

theorem ArchivingStep.chunked {state : ArchivingState} {msgIds : List Nat}
    (live : ∀ id ∈ msgIds, (state.db.live.messages.get? id).isSome)
    (archived : (state.db.archiveChunk .manual none msgIds).isSome) :
    ArchivingStep state (.chunk .manual none msgIds) (state.chunked msgIds) := by
  obtain ⟨after, isArchived⟩ := Option.isSome_iff_exists.mp archived
  unfold ArchivingState.chunked
  rw [isArchived]
  exact .chunk (fun id member => Option.isSome_iff_exists.mp (live id member)) isArchived

/-- Two messages with an attachment in common, which a scheduled message has brought, with a
reaction and the rows of a user; and a message that was archived before. -/
def sharedAttachment : Database where
  live :=
    { messages := (Dict.empty.set 7 (sentMessage "first")).set 8 (sentMessage "second")
      reactions := Dict.empty.set 1 ⟨7, 4, "tada", .unicodeEmoji, "1f389"⟩
      subMessages := .empty
      userMessages := (Dict.empty.set 1 ⟨7, 4, 1⟩).set 2 ⟨8, 4, 0⟩
      attachments := Dict.empty.set 3 ⟨"menu.pdf", "3/menu.pdf", 1, 3, 0, 512, none, none, none⟩
      attachmentMessages := (Dict.empty.set 1 ⟨3, 7⟩).set 2 ⟨3, 8⟩ }
  archive :=
    { (Tables.empty : Tables ArchivedMessage) with
      messages := Dict.empty.set 6 ⟨sentMessage "zero", 0⟩
      userMessages := Dict.empty.set 0 ⟨6, 4, 1⟩ }
  transactions := Dict.empty.set 0 ⟨.manual, none, false⟩
  nextTransaction := 1
  scheduled := [⟨3, some 7⟩]

theorem sharedAttachment_consistent : Consistent sharedAttachment where
  unique := ⟨unique_iff.mpr (by decide), unique_iff.mpr (by decide), unique_iff.mpr (by decide),
    unique_iff.mpr (by decide)⟩
  linkedAttachment := by
    simp only [← Option.isSome_iff_exists]
    exact Dict.forall_get?_iff.mpr (by decide)
  reactions := sameOwner_iff.mpr (by decide)
  subMessages := sameOwner_iff.mpr (by decide)
  userMessages := sameOwner_iff.mpr (by decide)
  attachmentMessages := sameOwner_iff.mpr (by decide)
  archivedBefore := Dict.forall_get?_iff.mpr (by decide)

def firstArchived : ArchivingState := (ArchivingState.mk sharedAttachment []).chunked [7]

def bothArchived : ArchivingState := firstArchived.chunked [8]

/-- The attachments that are deleted after both messages. -/
def ofBoth : Nat → Attachment → Bool := fun id _ =>
  (bothArchived.chunked []).db.archivedAttachment [7, 8] id

/-- Two messages are archived one by one, until there is none, and their attachment is deleted. -/
theorem roundTrips_always_iff_sharedAttachment :
    Run.Always (RoundTrips sharedAttachment.live)
      [(ArchivingState.mk sharedAttachment [], ArchivingAction.chunk .manual none [7]),
        (firstArchived, .chunk .manual none [8]), (bothArchived, .chunk .manual none []),
        (bothArchived.chunked [], .deleteUnclaimed ofBoth)]
      { bothArchived.chunked [] with db := (bothArchived.chunked []).db.deleteUnclaimed ofBoth } := by
  have first : ArchivingStep ⟨sharedAttachment, []⟩ (.chunk .manual none [7]) firstArchived :=
    .chunked (by decide) (by decide +kernel)
  have second : ArchivingStep firstArchived (.chunk .manual none [8]) bothArchived :=
    .chunked (by decide +kernel) (by decide +kernel)
  have nothing : ArchivingStep bothArchived (.chunk .manual none []) (bothArchived.chunked []) :=
    .chunked (by decide) (by decide +kernel)
  have run := Run.step (Run.step (Run.step (Run.step .refl first) second) nothing)
    (.deleteUnclaimed ofBoth)
  refine (roundTrips_always_iff sharedAttachment_consistent run).mpr ?_
  simp only [List.forall_mem_append, List.forall_mem_singleton, List.not_mem_nil, false_implies,
    implies_true, true_and]
  refine ⟨⟨⟨?_, ?_⟩, ?_⟩, ?_⟩
  · exact (by decide : NothingStale sharedAttachment [7])
  · exact (by decide +kernel : NothingStale firstArchived.db [8])
  · exact (by decide : NothingStale bothArchived.db [])
  · -- Only the attachment of the two messages is there to be deleted.
    refine Dict.forall_get?_iff.mpr fun entry listed _ _ => ?_
    have shared : ∀ entry ∈ (bothArchived.chunked []).db.live.attachments.entries,
        entry.1 = 3 := by decide +kernel
    have archivedLink : (bothArchived.chunked []).db.archive.attachmentMessages.get? 1 =
        some ⟨3, 7⟩ := by decide +kernel
    have inFirst : (bothArchived.chunked []).db.inTransaction 1 7 = true := by decide +kernel
    exact ⟨1, ⟨3, 7⟩, archivedLink, (shared entry listed).symm, 1, by decide, inFirst⟩

/-- Archiving and restoring the first version leads to the database above, but for the edit. -/
theorem editedAfterRestore_reached :
    (((withMessage "first" .empty .empty 0).archiveChunk .manual none [7]).bind
      (·.restoreDataFromArchive 0)).map (fun db =>
        { db with live := { db.live with messages := db.live.messages.set 7 (sentMessage "second") } })
      = some editedAfterRestore := by
  decide +kernel

/-- The second archiving of a message keeps the first version of it, and a restore brings back
that version. -/
theorem roundTrips_fails_after_edit :
    ¬ ∀ (db : Database) (trace : List (ArchivingState × ArchivingAction)) (final : ArchivingState),
      Consistent db → Run ArchivingStep ⟨db, []⟩ trace final → RoundTrips db.live final := by
  intro always
  have consistent : Consistent editedAfterRestore := withMessage_consistent (by
    intro id archived found
    have listed := Dict.mem_entries_set.mp (Dict.get?_eq_some_iff.mp found)
    rcases listed with same | ⟨other, -⟩
    · cases same
      decide
    · cases other)
  have archived : (editedAfterRestore.archiveChunk .manual none [7]).isSome := by decide +kernel
  have live : ∀ id ∈ [7], (editedAfterRestore.live.messages.get? id).isSome := by decide
  have roundTrips := always _ _ _ consistent (.step .refl (.chunked live archived))
  obtain ⟨after, restores, same⟩ := roundTrips.restores _ (List.Perm.refl _)
  let state := (ArchivingState.mk editedAfterRestore []).chunked [7]
  have different : (state.db.restoreByTransactions state.created).all (fun after =>
      after.live.messages.get? 7 ≠ editedAfterRestore.live.messages.get? 7) = true := by
    decide +kernel
  have restored : state.db.restoreByTransactions state.created = some after := restores
  rw [restored, Option.all_some, decide_eq_true_eq] at different
  exact different (congrFun same.messages 7)

/-! ## The functions -/

/-- Only attachments that are archived are deleted. -/
def DeletesArchived (state : ArchivingState) : ArchivingAction → Prop
  | .chunk _ _ _ => True
  | .deleteUnclaimed among => ∀ id row, among id row = true →
      (state.db.archive.attachments.get? id).isSome

namespace Database

/-- What the functions do are runs that delete only archived attachments. -/
def ArchivingRun (db after : Database) : Prop :=
  ∀ created, ∃ trace later, Run ArchivingStep ⟨db, created⟩ trace ⟨after, later⟩ ∧
    ∀ visit ∈ trace, DeletesArchived visit.1 visit.2

theorem ArchivingRun.trans {db between after : Database} (first : ArchivingRun db between)
    (second : ArchivingRun between after) : ArchivingRun db after := by
  intro created
  obtain ⟨firstTrace, middle, firstRun, firstDeletes⟩ := first created
  obtain ⟨secondTrace, later, secondRun, secondDeletes⟩ := second middle
  refine ⟨_, later, firstRun.trans secondRun, ?_⟩
  intro visit member
  rcases List.mem_append.mp member with earlier | late
  · exact firstDeletes visit earlier
  · exact secondDeletes visit late

theorem ArchivingRun.chunk {db after : Database} {condition : Nat → Message → Bool}
    {type : ArchiveType} {realm : Option Nat} {chunkSize : Nat} {msgIds : List Nat}
    (selects : db.Selects condition chunkSize msgIds)
    (archived : db.archiveChunk type realm msgIds = some after) : ArchivingRun db after := by
  intro created
  have live : ∀ id ∈ msgIds, ∃ row, db.live.messages.get? id = some row := by
    intro id member
    obtain ⟨row, found, -⟩ := selects.matching id member
    exact ⟨row, found⟩
  refine ⟨_, _, .step .refl (@ArchivingStep.chunk ⟨db, created⟩ _ _ _ _ live archived), ?_⟩
  intro visit member
  rw [List.nil_append, List.mem_singleton] at member
  rw [member]
  trivial

theorem ArchivingRun.deleteUnclaimed {db : Database} {among : Nat → Attachment → Bool}
    (onlyArchived : ∀ id row, among id row = true → (db.archive.attachments.get? id).isSome) :
    ArchivingRun db (db.deleteUnclaimed among) := by
  intro created
  refine ⟨_, _, .step .refl (@ArchivingStep.deleteUnclaimed ⟨db, created⟩ among), ?_⟩
  intro visit member
  rw [List.nil_append, List.mem_singleton] at member
  rw [member]
  exact onlyArchived

theorem archivingRun_of_runArchivingInChunks {db after : Database}
    {condition : Nat → Message → Bool} {type : ArchiveType} {realm : Option Nat} {chunkSize : Nat}
    {chunks : List (List Nat)}
    (archived : RunArchivingInChunks condition type realm chunkSize db chunks after) :
    ArchivingRun db after := by
  induction archived with
  | last selects _ archived => exact .chunk selects archived
  | more selects _ archived _ inductionHypothesis =>
    exact (ArchivingRun.chunk selects archived).trans inductionHypothesis

theorem archivingRun_of_moveMessagesToArchive {db after : Database} {messageIds : List Nat}
    {realm : Option Nat} {chunkSize : Nat} {chunks : List (List Nat)}
    (archived : MoveMessagesToArchive messageIds realm chunkSize db chunks after) :
    ArchivingRun db after := by
  cases archived with
  | moved archived _ =>
    refine (archivingRun_of_runArchivingInChunks archived).trans (.deleteUnclaimed ?_)
    intro id row isAmong
    exact (Bool.and_eq_true_iff.mp isAmong).1

theorem archivingRun_of_runQueries {realm : Nat} {queries : List ArchivingQuery}
    {db after : Database} (archived : RunQueries realm queries db after) :
    ArchivingRun db after := by
  induction archived with
  | nil => exact fun created => ⟨[], created, .refl, by simp⟩
  | cons archived _ inductionHypothesis =>
    exact (archivingRun_of_runArchivingInChunks archived).trans inductionHypothesis

theorem archivingRun_of_archiveMessages {recipientType : Nat → RecipientType} {now : Int}
    {chunkSize : Nat} {policies : List RealmPolicy} {db after : Database}
    (archived : ArchiveMessages recipientType now chunkSize policies db after) :
    ArchivingRun db after := by
  induction archived with
  | nil => exact fun created => ⟨[], created, .refl, by simp⟩
  | cons archived _ inductionHypothesis =>
    refine ((archivingRun_of_runQueries archived).trans (.deleteUnclaimed ?_)).trans
      inductionHypothesis
    intro id row isAmong
    have inArchive := (Bool.and_eq_true_iff.mp isAmong).2
    obtain ⟨archivedRow, stored, -⟩ := (Option.any_eq_true _ _).mp inArchive
    rw [stored]
    rfl

end Database

end Zulip.Retention
