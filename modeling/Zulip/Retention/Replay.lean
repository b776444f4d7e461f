import Zulip.Retention.RoundTrip

/-!
# Archiving and restoring again

Messages are edited, reacted to, archived and restored in any order. Archive rows stay after a
restore, and the next archiving of the message meets them again.
-/

namespace Zulip.Retention

open Dict (get?_mapValues)

/-! ## Steps and the property -/

/-- A message and its reactions at the moment it is archived. -/
structure Snapshot where
  message : Message
  reactions : List (Nat × Reaction)
deriving DecidableEq

/-- The database, and each message at its latest archiving. -/
structure ReplayState where
  db : Database
  latest : Nat → Option Snapshot

/-- The reactions of a message. -/
def Tables.reactionsOf {MessageRow : Type} (tables : Tables MessageRow) (id : Nat) :
    List (Nat × Reaction) :=
  tables.reactions.entries.filter fun entry => entry.2.message = id

theorem Tables.mem_reactionsOf {MessageRow : Type} {tables : Tables MessageRow} {id : Nat}
    {entry : Nat × Reaction} :
    entry ∈ tables.reactionsOf id ↔
      tables.reactions.get? entry.1 = some entry.2 ∧ entry.2.message = id := by
  unfold Tables.reactionsOf
  rw [List.mem_filter, decide_eq_true_eq, Dict.get?_eq_some_iff]

namespace Database

/-- Save a message. -/
def setMessage (db : Database) (id : Nat) (row : Message) : Database :=
  { db with live := { db.live with messages := db.live.messages.set id row } }

/-- Change the reactions. -/
def setReactions (db : Database) (reactions : Dict Nat Reaction) : Database :=
  { db with live := { db.live with reactions := reactions } }

/-- The messages of a chunk as they are before it. -/
def snapshot (db : Database) (id : Nat) : Option Snapshot :=
  (db.live.messages.get? id).map fun row => ⟨row, db.live.reactionsOf id⟩

end Database

/-- A change of a message or its reactions, a step of `move_messages_to_archive`, or a restore. -/
inductive ReplayAction where
  | edit (id : Nat) (row : Message)
  | addReaction (id : Nat) (reaction : Reaction)
  | removeReaction (id : Nat)
  | archive (realm : Option Nat) (msgIds : List Nat)
  | deleteUnclaimed (among : Nat → Attachment → Bool)
  | restore (transaction : Nat)

/-- What an action does. The id of a new reaction comes from a sequence. -/
inductive ReplayStep : ReplayState → ReplayAction → ReplayState → Prop where
  | edit {state : ReplayState} {id : Nat} (row : Message)
      (live : ∃ old, state.db.live.messages.get? id = some old) :
      ReplayStep state (.edit id row) { state with db := state.db.setMessage id row }
  | addReaction {state : ReplayState} {id : Nat} {reaction : Reaction}
      {reactions : Dict Nat Reaction}
      (live : ∃ row, state.db.live.messages.get? reaction.message = some row)
      (newLive : state.db.live.reactions.get? id = none)
      (newArchived : state.db.archive.reactions.get? id = none)
      (inserted : state.db.live.reactions.insertMissing Reaction.clash (id, reaction) =
        some reactions) :
      ReplayStep state (.addReaction id reaction) { state with db := state.db.setReactions reactions }
  | removeReaction {state : ReplayState} (id : Nat) :
      ReplayStep state (.removeReaction id)
        { state with db := state.db.setReactions (state.db.live.reactions.erase id) }
  | archive {state : ReplayState} {realm : Option Nat} {msgIds : List Nat} {after : Database}
      (live : ∀ id ∈ msgIds, ∃ row, state.db.live.messages.get? id = some row)
      (archived : state.db.archiveChunk .manual realm msgIds = some after) :
      ReplayStep state (.archive realm msgIds)
        ⟨after, fun id => if id ∈ msgIds then state.db.snapshot id else state.latest id⟩
  | deleteUnclaimed {state : ReplayState} (among : Nat → Attachment → Bool) :
      ReplayStep state (.deleteUnclaimed among) { state with db := state.db.deleteUnclaimed among }
  | restore {state : ReplayState} {transaction : Nat} {after : Database}
      (restores : state.db.restoreDataFromArchive transaction = some after) :
      ReplayStep state (.restore transaction) { state with db := after }

/-- A restore brings each message back as it was at its latest archiving, with its reactions. -/
def RestoresLatest (state : ReplayState) : Prop :=
  ∀ transaction after, state.db.restoreDataFromArchive transaction = some after →
    ∀ id row, state.db.live.messages.get? id = none → after.live.messages.get? id = some row →
      ∃ snapshot, state.latest id = some snapshot ∧ row = snapshot.message ∧
        ∀ entry, entry ∈ after.live.reactionsOf id ↔ entry ∈ snapshot.reactions

/-- What the archive has of the archived messages is what they and their reactions are. -/
def ArchivesFresh (state : ReplayState) : ReplayAction → Prop
  | .archive _ msgIds =>
      (∀ id ∈ msgIds, ∀ archived, state.db.archive.messages.get? id = some archived →
        state.db.live.messages.get? id = some archived.message) ∧
      NotStale reactionKey.owner state.db.live.reactions.get? state.db.archive.reactions.get?
        (· ∈ msgIds)
  | _ => True

/-! ## The invariant -/

/-- The archive has each archived message as it was at its latest archiving. -/
structure Replayable (state : ReplayState) : Prop where
  latest : ∀ id archived, state.db.archive.messages.get? id = some archived →
    state.db.live.messages.get? id = none → ∃ snapshot, state.latest id = some snapshot ∧
      archived.message = snapshot.message ∧
        ∀ entry, entry ∈ state.db.archive.reactionsOf id ↔ entry ∈ snapshot.reactions
  liveMessage : ∀ id reaction, state.db.live.reactions.get? id = some reaction →
    ∃ row, state.db.live.messages.get? reaction.message = some row
  sameMessage : SameOwner reactionKey.owner state.db.live.reactions.get?
    state.db.archive.reactions.get?

namespace Replayable

variable {state : ReplayState} {after : Database}

/-- A message that is restored has only the reactions that the archive has. -/
theorem restoresLatest (replayable : Replayable state) : RestoresLatest state := by
  intro transaction after restores id row absent isBack
  have restored := Database.restored_of_restoreDataFromArchive restores
  rcases (restored.messages id row).mp isBack with isLive | ⟨-, content, isAmong⟩
  · rw [absent] at isLive
    cases isLive
  obtain ⟨archived, stored, rfl⟩ := get?_mapValues.mp content
  obtain ⟨snapshot, isLatest, sameMessage, sameReactions⟩ :=
    replayable.latest id archived stored absent
  refine ⟨snapshot, isLatest, sameMessage, fun entry => ?_⟩
  rw [← sameReactions, Tables.mem_reactionsOf, Tables.mem_reactionsOf]
  have notLive : ∀ reaction, state.db.live.reactions.get? entry.1 = some reaction →
      reaction.message ≠ id := by
    rintro reaction found rfl
    obtain ⟨message, present⟩ := replayable.liveMessage _ reaction found
    rw [absent] at present
    cases present
  constructor
  · rintro ⟨found, ofMessage⟩
    rcases (restored.reactions _ _).mp found with isLive | ⟨-, isArchived, -⟩
    · exact absurd ofMessage (notLive _ isLive)
    · exact ⟨isArchived, ofMessage⟩
  · rintro ⟨isArchived, ofMessage⟩
    refine ⟨(restored.reactions _ _).mpr (.inr ⟨?_, isArchived, ?_⟩), ofMessage⟩
    · rw [Option.eq_none_iff_forall_ne_some]
      intro reaction found
      have same := replayable.sameMessage _ reaction _ found isArchived
      exact notLive reaction found (same.trans ofMessage)
    · have owner : reactionKey.owner entry.1 entry.2 = id := ofMessage
      dsimp only
      rw [owner]
      exact isAmong

/-! ## Steps -/

/-- Changes of live rows that keep what is live. -/
theorem edit {id : Nat} {row : Message} (replayable : Replayable state) :
    Replayable { state with db := state.db.setMessage id row } where
  latest other archived stored absent := by
    dsimp only [Database.setMessage] at stored absent
    rw [Dict.get?_set] at absent
    split at absent
    · cases absent
    · exact replayable.latest other archived stored absent
  liveMessage reactionId reaction found := by
    dsimp only [Database.setMessage] at found ⊢
    rw [Dict.get?_set]
    split
    · exact ⟨row, rfl⟩
    · exact replayable.liveMessage reactionId reaction found
  sameMessage := replayable.sameMessage

theorem setReactions {reactions : Dict Nat Reaction} (replayable : Replayable state)
    (liveMessage : ∀ id reaction, reactions.get? id = some reaction →
      ∃ row, state.db.live.messages.get? reaction.message = some row)
    (sameMessage : SameOwner reactionKey.owner reactions.get? state.db.archive.reactions.get?) :
    Replayable { state with db := state.db.setReactions reactions } where
  latest := replayable.latest
  liveMessage := liveMessage
  sameMessage := sameMessage

theorem addReaction {id : Nat} {reaction : Reaction} {reactions : Dict Nat Reaction}
    (replayable : Replayable state)
    (live : ∃ row, state.db.live.messages.get? reaction.message = some row)
    (newArchived : state.db.archive.reactions.get? id = none)
    (inserted : state.db.live.reactions.insertMissing Reaction.clash (id, reaction) =
      some reactions) :
    Replayable { state with db := state.db.setReactions reactions } := by
  refine replayable.setReactions ?_ ?_
  · intro other row found
    rcases (Dict.get?_insertMissing inserted).mp found with before | ⟨-, same⟩
    · exact replayable.liveMessage other row before
    · cases same
      exact live
  · intro other row archived found stored
    rcases (Dict.get?_insertMissing inserted).mp found with before | ⟨-, same⟩
    · exact replayable.sameMessage other row archived before stored
    · cases same
      rw [newArchived] at stored
      cases stored

theorem removeReaction (id : Nat) (replayable : Replayable state) :
    Replayable { state with db := state.db.setReactions (state.db.live.reactions.erase id) } := by
  have kept : ∀ other row, (state.db.live.reactions.erase id).get? other = some row →
      state.db.live.reactions.get? other = some row := by
    intro other row found
    rw [Dict.get?_erase] at found
    split at found
    · cases found
    · exact found
  exact replayable.setReactions
    (fun other row found => replayable.liveMessage other row (kept other row found))
    (fun other row archived found => replayable.sameMessage other row archived (kept other row found))

/-- A chunk of messages of which the archive has nothing stale. -/
theorem archive {realm : Option Nat} {msgIds : List Nat} (replayable : Replayable state)
    (live : ∀ id ∈ msgIds, ∃ row, state.db.live.messages.get? id = some row)
    (chunked : state.db.Chunked msgIds after)
    (fresh : ArchivesFresh state (.archive realm msgIds)) :
    Replayable
      ⟨after, fun id => if id ∈ msgIds then state.db.snapshot id else state.latest id⟩ := by
  obtain ⟨freshMessages, freshReactions⟩ := fresh
  constructor
  case latest =>
    intro id archived stored absent
    by_cases member : id ∈ msgIds
    · obtain ⟨row, isLive⟩ := live id member
      refine ⟨⟨row, state.db.live.reactionsOf id⟩, ?_, ?_, fun entry => ?_⟩
      · simp [member, Database.snapshot, isLive]
      · dsimp only at stored
        rw [chunked.archivedMessages id member row isLive, Option.some.injEq] at stored
        rw [← stored]
        cases before : state.db.archive.messages.get? id with
        | none => rfl
        | some old =>
          have same := freshMessages id member old before
          rw [isLive, Option.some.injEq] at same
          exact same.symm
      · rw [Tables.mem_reactionsOf, Tables.mem_reactionsOf]
        dsimp only
        constructor
        · rintro ⟨isArchived, ofMessage⟩
          have inChunk : reactionKey.owner entry.1 entry.2 ∈ msgIds := by
            have owner : reactionKey.owner entry.1 entry.2 = id := ofMessage
            rwa [owner]
          rcases (chunked.reactions.copied _ _).mp isArchived with before | ⟨-, isLive, -⟩
          · exact ⟨freshReactions _ _ before inChunk, ofMessage⟩
          · exact ⟨isLive, ofMessage⟩
        · rintro ⟨isLive, ofMessage⟩
          have inChunk : reactionKey.owner entry.1 entry.2 ∈ msgIds := by
            have owner : reactionKey.owner entry.1 entry.2 = id := ofMessage
            rwa [owner]
          refine ⟨(chunked.reactions.copied _ _).mpr ?_, ofMessage⟩
          cases before : state.db.archive.reactions.get? entry.1 with
          | none => exact .inr ⟨rfl, isLive, inChunk⟩
          | some old =>
            rw [replayable.sameMessage _ _ old isLive before] at inChunk
            have same := freshReactions _ old before inChunk
            rw [isLive] at same
            exact .inl same.symm
    · dsimp only at stored absent
      rw [chunked.otherMessages id member] at stored
      have notLive : state.db.live.messages.get? id = none := by
        rw [Option.eq_none_iff_forall_ne_some]
        intro row isLive
        rw [(chunked.liveMessages id row).mpr ⟨isLive, member⟩] at absent
        cases absent
      obtain ⟨snapshot, isLatest, sameMessage, sameReactions⟩ :=
        replayable.latest id archived stored notLive
      refine ⟨snapshot, by simp [member, isLatest], sameMessage, fun entry => ?_⟩
      rw [← sameReactions, Tables.mem_reactionsOf, Tables.mem_reactionsOf]
      dsimp only
      constructor
      · rintro ⟨isArchived, rfl⟩
        rcases (chunked.reactions.copied _ _).mp isArchived with before | ⟨-, -, inChunk⟩
        · exact ⟨before, rfl⟩
        · exact absurd inChunk member
      · rintro ⟨isArchived, ofMessage⟩
        exact ⟨(chunked.reactions.copied _ _).mpr (.inl isArchived), ofMessage⟩
  case liveMessage =>
    intro id reaction found
    obtain ⟨isLive, notInChunk⟩ := (chunked.reactions.deleted id reaction).mp found
    obtain ⟨row, present⟩ := replayable.liveMessage id reaction isLive
    exact ⟨row, (chunked.liveMessages _ row).mpr ⟨present, notInChunk⟩⟩
  case sameMessage => exact chunked.reactions.sameOwner replayable.sameMessage

/-- A restore does not change the archive. -/
theorem restore {among : Nat → Prop} (replayable : Replayable state)
    (restored : state.db.Restored among after)
    (areArchived : ∀ id, among id → ∃ archived, state.db.archive.messages.get? id = some archived) :
    Replayable { state with db := after } := by
  have archive := restored.archive
  have stillLive : ∀ id row, state.db.live.messages.get? id = some row →
      after.live.messages.get? id = some row := fun id row isLive =>
    (restored.messages id row).mpr (.inl isLive)
  constructor
  case latest =>
    dsimp only
    rw [archive]
    intro id archived stored absent
    refine replayable.latest id archived stored ?_
    rw [Option.eq_none_iff_forall_ne_some]
    intro row isLive
    rw [stillLive id row isLive] at absent
    cases absent
  case liveMessage =>
    intro id reaction found
    rcases (restored.reactions id reaction).mp found with isLive | ⟨-, -, isAmong⟩
    · obtain ⟨row, present⟩ := replayable.liveMessage id reaction isLive
      exact ⟨row, stillLive _ row present⟩
    · obtain ⟨archived, stored⟩ := areArchived _ isAmong
      have isThere := restored.messages.ne_none (get?_mapValues.mpr ⟨archived, stored, rfl⟩) isAmong
      exact Option.ne_none_iff_exists'.mp isThere
  case sameMessage =>
    dsimp only
    rw [archive]
    intro id reaction archived found stored
    rcases (restored.reactions id reaction).mp found with isLive | ⟨-, isArchived, -⟩
    · exact replayable.sameMessage id reaction archived isLive stored
    · rw [stored, Option.some.injEq] at isArchived
      rw [isArchived]

/-- Every step whose archiving meets nothing stale keeps the invariant. -/
theorem of_step {action : ReplayAction} {next : ReplayState} (replayable : Replayable state)
    (step : ReplayStep state action next) (fresh : ArchivesFresh state action) :
    Replayable next := by
  cases step with
  | edit row _ => exact replayable.edit
  | addReaction live _ newArchived inserted => exact replayable.addReaction live newArchived inserted
  | removeReaction id => exact replayable.removeReaction id
  | archive live archived =>
    exact replayable.archive live (Database.chunked_of_archiveChunk archived) fresh
  | deleteUnclaimed among => exact { replayable with }
  | restore restores =>
    refine replayable.restore (Database.restored_of_restoreDataFromArchive restores) ?_
    intro id isIn
    obtain ⟨archived, stored, -⟩ := Database.inTransaction_iff.mp isIn
    exact ⟨archived, stored⟩

end Replayable

/-! ## Runs -/

theorem run_of_runArchivingInChunks {condition : Nat → Message → Bool} {realm : Option Nat}
    {chunkSize : Nat} {db after : Database} {chunks : List (List Nat)}
    (archived : db.RunArchivingInChunks condition .manual realm chunkSize chunks after)
    (latest : Nat → Option Snapshot) :
    ∃ trace later, Run ReplayStep ⟨db, latest⟩ trace ⟨after, later⟩ := by
  have live : ∀ {db : Database} {msgIds : List Nat}, db.Selects condition chunkSize msgIds →
      ∀ id ∈ msgIds, ∃ row, db.live.messages.get? id = some row := by
    intro db msgIds selects id member
    obtain ⟨row, found, -⟩ := selects.matching id member
    exact ⟨row, found⟩
  induction archived generalizing latest with
  | last selects _ archived =>
    exact ⟨_, _, .step .refl (@ReplayStep.archive ⟨_, latest⟩ _ _ _ (live selects) archived)⟩
  | more selects _ archived _ inductionHypothesis =>
    have first := Run.step .refl (@ReplayStep.archive ⟨_, latest⟩ _ _ _ (live selects) archived)
    obtain ⟨trace, later, rest⟩ := inductionHypothesis _
    exact ⟨_, later, first.trans rest⟩

/-- `move_messages_to_archive` is a run of steps. -/
theorem run_of_moveMessagesToArchive {messageIds : List Nat} {realm : Option Nat}
    {chunkSize : Nat} {db after : Database} {chunks : List (List Nat)}
    (archived : db.MoveMessagesToArchive messageIds realm chunkSize chunks after)
    (latest : Nat → Option Snapshot) :
    ∃ trace later, Run ReplayStep ⟨db, latest⟩ trace ⟨after, later⟩ := by
  cases archived with
  | moved archived _ =>
    obtain ⟨trace, later, run⟩ := run_of_runArchivingInChunks archived latest
    exact ⟨_, later, .step run (.deleteUnclaimed _)⟩

/-- A database that has archived nothing yet, and whose reactions are on messages. -/
structure NothingArchived (db : Database) : Prop where
  archive : db.archive = .empty
  liveMessage : ∀ id reaction, db.live.reactions.get? id = some reaction →
    ∃ row, db.live.messages.get? reaction.message = some row

/-- A run whose archivings meet nothing stale restores every message as it was at its latest
archiving. -/
theorem restoresLatest_always {db : Database} {trace : List (ReplayState × ReplayAction)}
    {final : ReplayState} (nothingArchived : NothingArchived db)
    (run : Run ReplayStep ⟨db, fun _ => none⟩ trace final)
    (fresh : ∀ visit ∈ trace, ArchivesFresh visit.1 visit.2) :
    Run.Always RestoresLatest trace final := by
  have initial : Replayable ⟨db, fun _ => none⟩ := by
    constructor
    case latest =>
      intro id archived stored
      dsimp only at stored
      rw [nothingArchived.archive] at stored
      cases stored
    case liveMessage => exact nothingArchived.liveMessage
    case sameMessage =>
      intro id reaction archived _ stored
      dsimp only at stored
      rw [nothingArchived.archive] at stored
      cases stored
  exact run.always_of_condition initial Replayable.restoresLatest Replayable.of_step fresh

/-- A database with one message and an empty archive. -/
theorem nothingArchived_withMessage (content : String) :
    NothingArchived (withMessage content .empty .empty 0) where
  archive := rfl
  liveMessage := by
    intro id reaction found
    cases found

/-- The state after some messages are archived. -/
def ReplayState.archived (state : ReplayState) (msgIds : List Nat) : ReplayState :=
  ⟨(state.db.archiveChunk .manual none msgIds).getD state.db,
    fun id => if id ∈ msgIds then state.db.snapshot id else state.latest id⟩

theorem ReplayStep.archived {state : ReplayState} {msgIds : List Nat}
    (live : ∀ id ∈ msgIds, (state.db.live.messages.get? id).isSome)
    (isArchived : (state.db.archiveChunk .manual none msgIds).isSome) :
    ReplayStep state (.archive none msgIds) (state.archived msgIds) := by
  obtain ⟨after, archived⟩ := Option.isSome_iff_exists.mp isArchived
  unfold ReplayState.archived
  rw [archived]
  exact .archive (fun id member => Option.isSome_iff_exists.mp (live id member)) archived

/-- The state after a transaction is restored. -/
def ReplayState.restored (state : ReplayState) (transaction : Nat) : ReplayState :=
  { state with db := (state.db.restoreDataFromArchive transaction).getD state.db }

theorem ReplayStep.restored {state : ReplayState} {transaction : Nat}
    (isRestored : (state.db.restoreDataFromArchive transaction).isSome) :
    ReplayStep state (.restore transaction) (state.restored transaction) := by
  obtain ⟨after, restored⟩ := Option.isSome_iff_exists.mp isRestored
  unfold ReplayState.restored
  rw [restored]
  exact .restore restored

/-- The freshness of an archiving can be checked row by row. -/
theorem archivesFresh_iff {state : ReplayState} {realm : Option Nat} {msgIds : List Nat} :
    ArchivesFresh state (.archive realm msgIds) ↔
      (∀ id ∈ msgIds, ∀ archived ∈ state.db.archive.messages.get? id,
        state.db.live.messages.get? id = some archived.message) ∧
      ∀ entry ∈ state.db.archive.reactions.entries, entry.2.message ∈ msgIds →
        state.db.live.reactions.get? entry.1 = some entry.2 :=
  and_congr_right fun _ => notStale_iff

/-- A message with a reaction. -/
def withReaction : Database :=
  (withMessage "first" .empty .empty 0).setReactions
    (Dict.empty.set 1 ⟨7, 4, "tada", .unicodeEmoji, "1f389"⟩)

theorem nothingArchived_withReaction : NothingArchived withReaction where
  archive := rfl
  liveMessage := by
    simp only [← Option.isSome_iff_exists]
    exact Dict.forall_get?_iff.mpr (by decide)

def onceArchived : ReplayState := (ReplayState.mk withReaction fun _ => none).archived [7]

def twiceArchived : ReplayState := (onceArchived.restored 0).archived [7]

/-- A message with a reaction that is archived and restored twice. -/
theorem restoresLatest_always_twice :
    Run.Always RestoresLatest
      [(ReplayState.mk withReaction fun _ => none, ReplayAction.archive none [7]),
        (onceArchived, .restore 0), (onceArchived.restored 0, .archive none [7]),
        (twiceArchived, .restore 1)]
      (twiceArchived.restored 1) := by
  have first : ReplayStep ⟨withReaction, fun _ => none⟩ (.archive none [7]) onceArchived :=
    .archived (by decide) (by decide +kernel)
  have back : ReplayStep onceArchived (.restore 0) (onceArchived.restored 0) :=
    .restored (by decide +kernel)
  have second : ReplayStep (onceArchived.restored 0) (.archive none [7]) twiceArchived :=
    .archived (by decide +kernel) (by decide +kernel)
  have again : ReplayStep twiceArchived (.restore 1) (twiceArchived.restored 1) :=
    .restored (by decide +kernel)
  have run := Run.step (Run.step (Run.step (Run.step .refl first) back) second) again
  refine restoresLatest_always nothingArchived_withReaction run ?_
  simp only [List.forall_mem_cons, List.not_mem_nil, false_implies, implies_true, and_true]
  refine ⟨?_, trivial, ?_, trivial⟩
  · exact archivesFresh_iff.mpr (by decide)
  · exact archivesFresh_iff.mpr (by decide +kernel)

/-- A message that is edited after a restore is brought back without the edit. -/
theorem restoresLatest_fails_after_edit :
    ¬ ∀ (db : Database) (trace : List (ReplayState × ReplayAction)) (final : ReplayState),
      NothingArchived db → Run ReplayStep ⟨db, fun _ => none⟩ trace final →
      RestoresLatest final := by
  intro always
  obtain ⟨restoredOnce, restored, edited⟩ := Option.map_eq_some_iff.mp editedAfterRestore_reached
  obtain ⟨archivedOnce, archived, restores⟩ := Option.bind_eq_some_iff.mp restored
  have live : ∀ id ∈ [7], ∃ row,
      (withMessage "first" .empty .empty 0).live.messages.get? id = some row := by
    intro id member
    rw [List.mem_singleton.mp member]
    exact ⟨sentMessage "first", rfl⟩
  have isBack : ∃ row, restoredOnce.live.messages.get? 7 = some row := by
    have computed : ((((withMessage "first" .empty .empty 0).archiveChunk .manual none [7]).bind
        (·.restoreDataFromArchive 0)).bind (·.live.messages.get? 7)).isSome = true := by
      decide +kernel
    rw [restored, Option.bind_some] at computed
    exact Option.isSome_iff_exists.mp computed
  have edit : ∀ latest, ReplayStep ⟨restoredOnce, latest⟩ (.edit 7 (sentMessage "second"))
      ⟨editedAfterRestore, latest⟩ := by
    intro latest
    rw [← edited]
    exact .edit (sentMessage "second") isBack
  have first := @ReplayStep.archive ⟨withMessage "first" .empty .empty 0, fun _ => none⟩ none [7]
    archivedOnce live archived
  have stillLive : ∀ id ∈ [7], (editedAfterRestore.live.messages.get? id).isSome := by decide
  have second : (editedAfterRestore.archiveChunk .manual none [7]).isSome := by decide +kernel
  have run := Run.step (Run.step (Run.step (Run.step .refl first) (.restore restores)) (edit _))
    (.archived stillLive second)
  have restoresLatest := always _ _ _ (nothingArchived_withMessage "first") run
  let archivedAgain : Database :=
    (editedAfterRestore.archiveChunk .manual none [7]).getD editedAfterRestore
  have brought : ((archivedAgain.restoreDataFromArchive 1).bind
      (·.live.messages.get? 7)) = some (sentMessage "first") := by
    decide +kernel
  obtain ⟨after, again, content⟩ := Option.bind_eq_some_iff.mp brought
  have deleted : archivedAgain.live.messages.get? 7 = none := by
    decide +kernel
  obtain ⟨snapshot, isLatest, same, -⟩ := restoresLatest 1 after again 7 _ deleted content
  have latest : editedAfterRestore.snapshot 7 = some ⟨sentMessage "second", []⟩ := by
    decide +kernel
  have isSnapshot : some (Snapshot.mk (sentMessage "second") []) = some snapshot :=
    latest.symm.trans isLatest
  cases isSnapshot
  exact absurd same (by decide)

end Zulip.Retention
