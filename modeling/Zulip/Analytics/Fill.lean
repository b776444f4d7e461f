import Zulip.Analytics.Counts

/-!
# What the statements of a fill do

Every statement concerns one property and one end time (`Write.rowsAt_execute_other`). What a
fill inserts depends on its sources alone (`Agree.executeAll`), so a fill after a deletion can
be compared with any other fill of the same end time.
-/

namespace Zulip.Analytics

/-! ## Rows -/

section Rows

variable {db : Database} {table : CountTable} {property : String} {endTime : Int}

namespace Database

/-- Rows of one property and end time are inserted there. -/
theorem rowsAt_insert_self {rows : List (BaseCount table)}
    (placed : ∀ row ∈ rows, row.property = property ∧ row.endTime = endTime) :
    (db.insert table rows).rowsAt table property endTime =
      db.rowsAt table property endTime ++ rows := by
  unfold insert rowsAt
  dsimp only
  rw [Function.update_self, List.filter_append]
  congr 1
  exact List.filter_eq_self.mpr fun row member => by simp [placed row member]

/-- They are inserted nowhere else. -/
theorem rowsAt_insert_other {rows : List (BaseCount table)}
    (placed : ∀ row ∈ rows, row.property = property ∧ row.endTime = endTime)
    {other : CountTable} {otherProperty : String} {otherTime : Int}
    (elsewhere : ¬(other = table ∧ otherProperty = property ∧ otherTime = endTime)) :
    (db.insert table rows).rowsAt other otherProperty otherTime =
      db.rowsAt other otherProperty otherTime := by
  unfold insert rowsAt
  dsimp only
  by_cases sameTable : other = table
  · subst sameTable
    rw [Function.update_self, List.filter_append]
    have none : rows.filter (fun row => row.property = otherProperty &&
        row.endTime = otherTime) = [] := by
      refine List.filter_eq_nil_iff.mpr fun row member matching => elsewhere ⟨rfl, ?_⟩
      rw [Bool.and_eq_true, decide_eq_true_eq, decide_eq_true_eq] at matching
      exact ⟨matching.1.symm.trans (placed row member).1,
        matching.2.symm.trans (placed row member).2⟩
    rw [none, List.append_nil]
  · rw [Function.update_of_ne sameTable]

@[simp] theorem rowsAt_delete_self :
    (db.delete table property endTime).rowsAt table property endTime = [] := by
  unfold delete rowsAt
  dsimp only
  rw [Function.update_self, List.filter_filter]
  refine List.filter_eq_nil_iff.mpr fun row _ => ?_
  simp

theorem rowsAt_delete_other {other : CountTable} {otherProperty : String} {otherTime : Int}
    (elsewhere : ¬(other = table ∧ otherProperty = property ∧ otherTime = endTime)) :
    (db.delete table property endTime).rowsAt other otherProperty otherTime =
      db.rowsAt other otherProperty otherTime := by
  unfold delete rowsAt
  dsimp only
  by_cases sameTable : other = table
  · subst sameTable
    rw [Function.update_self, List.filter_filter]
    refine List.filter_congr fun row _ => ?_
    rw [Bool.and_eq_left_iff_imp]
    intro matching
    rw [Bool.and_eq_true, decide_eq_true_eq, decide_eq_true_eq] at matching
    have samePlace : ¬(otherProperty = property ∧ otherTime = endTime) :=
      fun same => elsewhere ⟨rfl, same⟩
    rw [matching.1, matching.2]
    simpa only [Bool.not_eq_true', Bool.and_eq_false_iff, decide_eq_false_iff_not,
      not_and_or] using samePlace
  · rw [Function.update_of_ne sameTable]

end Database

end Rows

/-! ## What the queries read -/

section Queries

variable {stat : CountStat} {db : Database} {endTime : Int}

theorem CountStat.pulledRows_placed :
    ∀ row ∈ stat.pulledRows db endTime, row.property = stat.property ∧ row.endTime = endTime := by
  intro row member
  unfold pulledRows at member
  split at member
  · simp at member
  · obtain ⟨pulled, _, rfl⟩ := List.mem_map.mp member
    exact ⟨rfl, rfl⟩

theorem CountStat.realmRows_placed :
    ∀ row ∈ stat.realmRows db endTime, row.property = stat.property ∧ row.endTime = endTime := by
  intro row member
  obtain ⟨entry, _, rfl⟩ := List.mem_map.mp member
  exact ⟨rfl, rfl⟩

theorem CountStat.installationRows_placed :
    ∀ row ∈ stat.installationRows db endTime,
      row.property = stat.property ∧ row.endTime = endTime := by
  intro row member
  obtain ⟨entry, _, rfl⟩ := List.mem_map.mp member
  exact ⟨rfl, rfl⟩

/-- The statements of a fill. -/
theorem mem_doFillCountStatAtHour {write : Write}
    (member : write ∈ doFillCountStatAtHour stat endTime) :
    (stat.pullFunction.isSome ∧ write = .pull stat endTime) ∨
      (stat.outputTable.dependsOnRealm ∧ write = .aggregateRealmCount stat endTime) ∨
        write = .aggregateInstallationCount stat endTime := by
  unfold doFillCountStatAtHour doAggregateToSummaryTable at member
  rcases List.mem_append.mp member with pulled | aggregated
  · left
    split at pulled
    · exact ⟨‹_›, List.mem_singleton.mp pulled⟩
    · simp at pulled
  · right
    rcases List.mem_append.mp aggregated with realm | installation
    · left
      split at realm
      · exact ⟨‹_›, List.mem_singleton.mp realm⟩
      · simp at realm
    · exact Or.inr (List.mem_singleton.mp installation)

/-- Databases that look the same to a fill of a stat at an end time. -/
structure Agree (stat : CountStat) (endTime : Int) (left right : Database) : Prop where
  realms : left.realms = right.realms
  rows : ∀ table, left.rowsAt table stat.property endTime =
    right.rowsAt table stat.property endTime
  dependencies : ∀ dependency ∈ stat.dependencies,
    left.rowsAt .userCount dependency endTime = right.rowsAt .userCount dependency endTime

namespace Agree

variable {left right : Database}

theorem symm (agree : Agree stat endTime left right) : Agree stat endTime right left :=
  ⟨agree.realms.symm, fun table => (agree.rows table).symm,
    fun dependency member => (agree.dependencies dependency member).symm⟩

theorem trans {middle : Database} (first : Agree stat endTime left middle)
    (second : Agree stat endTime middle right) : Agree stat endTime left right :=
  ⟨first.realms.trans second.realms, fun table => (first.rows table).trans (second.rows table),
    fun dependency member => (first.dependencies dependency member).trans
      (second.dependencies dependency member)⟩

theorem pulledRows (agree : Agree stat endTime left right) :
    stat.pulledRows left endTime = stat.pulledRows right endTime := by
  have same : (stat.dependencies.map fun dependency =>
        left.rowsAt .userCount dependency endTime) =
      stat.dependencies.map fun dependency => right.rowsAt .userCount dependency endTime :=
    List.map_congr_left agree.dependencies
  unfold CountStat.pulledRows
  rw [same]

theorem realmRows (agree : Agree stat endTime left right) :
    stat.realmRows left endTime = stat.realmRows right endTime := by
  unfold CountStat.realmRows
  rw [agree.rows, agree.realms]

theorem installationRows (agree : Agree stat endTime left right) :
    stat.installationRows left endTime = stat.installationRows right endTime := by
  unfold CountStat.installationRows
  rw [agree.rows]

/-- The same rows are inserted on both sides. -/
theorem insert (agree : Agree stat endTime left right) {table : CountTable}
    {rows : List (BaseCount table)}
    (placed : ∀ row ∈ rows, row.property = stat.property ∧ row.endTime = endTime) :
    Agree stat endTime (left.insert table rows) (right.insert table rows) where
  realms := agree.realms
  rows := by
    intro other
    by_cases sameTable : other = table
    · subst sameTable
      rw [Database.rowsAt_insert_self placed, Database.rowsAt_insert_self placed, agree.rows]
    · rw [Database.rowsAt_insert_other placed (fun same => sameTable same.1),
        Database.rowsAt_insert_other placed (fun same => sameTable same.1), agree.rows]
  dependencies := by
    intro dependency member
    by_cases samePlace : CountTable.userCount = table ∧ dependency = stat.property
    · obtain ⟨rfl, rfl⟩ := samePlace
      rw [Database.rowsAt_insert_self placed, Database.rowsAt_insert_self placed, agree.rows]
    · rw [Database.rowsAt_insert_other placed (fun same => samePlace ⟨same.1, same.2.1⟩),
        Database.rowsAt_insert_other placed (fun same => samePlace ⟨same.1, same.2.1⟩),
        agree.dependencies dependency member]

/-- Every statement of a fill has the same effect on both sides. -/
theorem execute (agree : Agree stat endTime left right) {write : Write}
    (member : write ∈ doFillCountStatAtHour stat endTime) :
    Agree stat endTime (left.execute write) (right.execute write) := by
  rcases mem_doFillCountStatAtHour member with ⟨_, rfl⟩ | ⟨_, rfl⟩ | rfl
  · simp only [Database.execute]
    rw [agree.pulledRows]
    exact agree.insert CountStat.pulledRows_placed
  · simp only [Database.execute]
    rw [agree.realmRows]
    exact agree.insert CountStat.realmRows_placed
  · simp only [Database.execute]
    rw [agree.installationRows]
    exact agree.insert CountStat.installationRows_placed

theorem executeAll (agree : Agree stat endTime left right) :
    Agree stat endTime
      (executeAll Database.execute left (doFillCountStatAtHour stat endTime))
      (executeAll Database.execute right (doFillCountStatAtHour stat endTime)) :=
  executeAll_relates
    (fun _ member _ _ related => related.execute member) agree

end Agree

end Queries

/-! ## The rows that a stat generates -/

section Generated

variable {stat : CountStat} {db : Database} {endTime : Int}

/-- The statements of a fill, and those that undo it. -/
def rowWrites (stat : CountStat) (endTime : Int) : List Write :=
  doDeleteCountsAtHour stat endTime ++ doFillCountStatAtHour stat endTime

theorem installationCount_generated : .installationCount ∈ stat.generatedTables := by
  unfold CountStat.generatedTables
  split <;> simp

theorem realmCount_generated (dependsOnRealm : stat.outputTable.dependsOnRealm) :
    .realmCount ∈ stat.generatedTables := by
  unfold CountStat.generatedTables
  split <;> simp

theorem outputTable_generated (pulls : stat.pullFunction.isSome) :
    stat.outputTable ∈ stat.generatedTables := by
  have notLogging : ¬stat.pullFunction.isNone := by
    simpa [Option.isSome_iff_ne_none] using pulls
  unfold CountStat.generatedTables
  rw [if_neg notLogging]
  rcases stat.pullsLocally pulls with output | output | output <;> rw [output] <;> simp

/-- The effect of a statement that touches the rows of one stat and end time only. -/
structure Write.Within (stat : CountStat) (endTime : Int) (write : Write) : Prop where
  fillStates : ∀ db : Database, (db.execute write).fillStates = db.fillStates
  realms : ∀ db : Database, (db.execute write).realms = db.realms
  installationEpoch : ∀ db : Database, (db.execute write).installationEpoch = db.installationEpoch
  rows : ∀ (db : Database) (table : CountTable) (property : String) (time : Int),
    ¬(table ∈ stat.generatedTables ∧ property = stat.property ∧ time = endTime) →
      (db.execute write).rowsAt table property time = db.rowsAt table property time

theorem rowWrites_within {write : Write} (member : write ∈ rowWrites stat endTime) :
    write.Within stat endTime := by
  rcases List.mem_append.mp member with deletes | fills
  · obtain ⟨table, generated, rfl⟩ := List.mem_map.mp deletes
    refine ⟨fun _ => rfl, fun _ => rfl, fun _ => rfl, ?_⟩
    intro db other property time elsewhere
    refine Database.rowsAt_delete_other fun same => elsewhere ⟨?_, same.2⟩
    rw [same.1]
    exact generated
  · rcases mem_doFillCountStatAtHour fills with ⟨pulls, rfl⟩ | ⟨dependsOnRealm, rfl⟩ | rfl
    · refine ⟨fun _ => rfl, fun _ => rfl, fun _ => rfl, ?_⟩
      intro db other property time elsewhere
      refine Database.rowsAt_insert_other CountStat.pulledRows_placed fun same =>
        elsewhere ⟨?_, same.2⟩
      rw [same.1]
      exact outputTable_generated pulls
    · refine ⟨fun _ => rfl, fun _ => rfl, fun _ => rfl, ?_⟩
      intro db other property time elsewhere
      refine Database.rowsAt_insert_other CountStat.realmRows_placed fun same =>
        elsewhere ⟨?_, same.2⟩
      rw [same.1]
      exact realmCount_generated dependsOnRealm
    · refine ⟨fun _ => rfl, fun _ => rfl, fun _ => rfl, ?_⟩
      intro db other property time elsewhere
      refine Database.rowsAt_insert_other CountStat.installationRows_placed fun same =>
        elsewhere ⟨?_, same.2⟩
      rw [same.1]
      exact installationCount_generated

/-- Statements within a stat and an end time leave everything else unchanged. -/
theorem executeAll_within (db : Database) {writes : List Write}
    (within : ∀ write ∈ writes, write.Within stat endTime) :
    let after := executeAll Database.execute db writes
    after.fillStates = db.fillStates ∧ after.realms = db.realms ∧
      after.installationEpoch = db.installationEpoch ∧
      ∀ table property time,
        ¬(table ∈ stat.generatedTables ∧ property = stat.property ∧ time = endTime) →
          after.rowsAt table property time = db.rowsAt table property time := by
  refine executeAll_preserves (fun after : Database => after.fillStates = db.fillStates ∧
    after.realms = db.realms ∧ after.installationEpoch = db.installationEpoch ∧
      ∀ table property time,
        ¬(table ∈ stat.generatedTables ∧ property = stat.property ∧ time = endTime) →
          after.rowsAt table property time = db.rowsAt table property time) ?_
    ⟨rfl, rfl, rfl, fun _ _ _ _ => rfl⟩
  intro write member state ⟨fillStates, realms, epoch, rows⟩
  have effect := within write member
  refine ⟨(effect.fillStates state).trans fillStates, (effect.realms state).trans realms,
    (effect.installationEpoch state).trans epoch, ?_⟩
  intro table property time elsewhere
  exact (effect.rows state table property time elsewhere).trans
    (rows table property time elsewhere)

/-- The rows of a deleted table are gone. -/
theorem rowsAt_doDeleteCountsAtHour (db : Database) (endTime : Int) {table : CountTable}
    (generated : table ∈ stat.generatedTables) :
    (executeAll Database.execute db (doDeleteCountsAtHour stat endTime)).rowsAt table
      stat.property endTime = [] := by
  obtain ⟨before, after, tables⟩ := List.append_of_mem generated
  unfold doDeleteCountsAtHour
  rw [tables, List.map_append, List.map_cons, executeAll_append, executeAll_cons]
  refine executeAll_preserves
    (fun db : Database => db.rowsAt table stat.property endTime = []) ?_ ?_
  · intro write member state empty
    obtain ⟨other, _, rfl⟩ := List.mem_map.mp member
    by_cases same : table = other
    · subst same
      exact Database.rowsAt_delete_self
    · exact (Database.rowsAt_delete_other fun place => same place.1).trans empty
  · exact Database.rowsAt_delete_self

/-- One single uninterrupted fill of an end time. -/
def Database.filledAt (db : Database) (stat : CountStat) (endTime : Int) : Database :=
  executeAll Database.execute db (rowWrites stat endTime)

/-- Databases with the same sources for a stat at an end time. -/
structure SameSources (stat : CountStat) (endTime : Int) (left right : Database) : Prop where
  realms : left.realms = right.realms
  rows : ∀ table ∉ stat.generatedTables, left.rowsAt table stat.property endTime =
    right.rowsAt table stat.property endTime
  dependencies : ∀ dependency ∈ stat.dependencies, dependency ≠ stat.property →
    left.rowsAt .userCount dependency endTime = right.rowsAt .userCount dependency endTime

namespace SameSources

variable {left right : Database}

theorem symm (same : SameSources stat endTime left right) :
    SameSources stat endTime right left :=
  ⟨same.realms.symm, fun table other => (same.rows table other).symm,
    fun dependency member different => (same.dependencies dependency member different).symm⟩

/-- Sources and generated rows together are all that a fill reads. -/
theorem agree (same : SameSources stat endTime left right)
    (generated : ∀ table ∈ stat.generatedTables,
      left.rowsAt table stat.property endTime = right.rowsAt table stat.property endTime) :
    Agree stat endTime left right := by
  have rows : ∀ table, left.rowsAt table stat.property endTime =
      right.rowsAt table stat.property endTime := by
    intro table
    by_cases member : table ∈ stat.generatedTables
    · exact generated table member
    · exact same.rows table member
  refine ⟨same.realms, rows, fun dependency member => ?_⟩
  by_cases own : dependency = stat.property
  · rw [own]
    exact rows .userCount
  · exact same.dependencies dependency member own

/-- Statements on the rows of the stat at the end time do not change its sources. -/
theorem of_within (db : Database) {writes : List Write}
    (within : ∀ write ∈ writes, write.Within stat endTime) :
    SameSources stat endTime (executeAll Database.execute db writes) db := by
  obtain ⟨_, realms, _, rows⟩ := executeAll_within db within
  refine ⟨realms, fun table other => ?_, fun dependency _ different => ?_⟩
  · exact rows table _ _ fun place => other place.1
  · exact rows .userCount _ _ fun place => different place.2.1

theorem trans {middle : Database} (first : SameSources stat endTime left middle)
    (second : SameSources stat endTime middle right) :
    SameSources stat endTime left right :=
  ⟨first.realms.trans second.realms,
    fun table other => (first.rows table other).trans (second.rows table other),
    fun dependency member different => (first.dependencies dependency member different).trans
      (second.dependencies dependency member different)⟩

/-- A fill depends on its sources alone. -/
theorem filledAt (same : SameSources stat endTime left right) :
    Agree stat endTime (left.filledAt stat endTime) (right.filledAt stat endTime) := by
  unfold Database.filledAt rowWrites
  rw [executeAll_append, executeAll_append]
  have deletes : ∀ write ∈ doDeleteCountsAtHour stat endTime, write.Within stat endTime :=
    fun write member => rowWrites_within (List.mem_append_left _ member)
  refine Agree.executeAll (SameSources.agree ?_ fun table generated => ?_)
  · exact ((of_within _ deletes).trans same).trans (of_within _ deletes).symm
  · rw [rowsAt_doDeleteCountsAtHour _ _ generated, rowsAt_doDeleteCountsAtHour _ _ generated]

/-- A fill where nothing was generated before is a single fill. -/
theorem filledAt_of_empty
    (empty : ∀ table ∈ stat.generatedTables, db.rowsAt table stat.property endTime = []) :
    Agree stat endTime (executeAll Database.execute db (doFillCountStatAtHour stat endTime))
      (db.filledAt stat endTime) := by
  unfold Database.filledAt rowWrites
  rw [executeAll_append]
  have deletes : ∀ write ∈ doDeleteCountsAtHour stat endTime, write.Within stat endTime :=
    fun write member => rowWrites_within (List.mem_append_left _ member)
  refine Agree.executeAll (SameSources.agree (of_within _ deletes).symm fun table generated => ?_)
  rw [rowsAt_doDeleteCountsAtHour _ _ generated, empty table generated]

end SameSources

end Generated

end Zulip.Analytics
