import Mathlib
import Zulip.Foundation.Dict
import Zulip.Foundation.Statements

/-!
# Filling the analytics tables

`process_count_stat` as the list of statements that it executes: it undoes a fill that was
started and not finished, and then fills one `time_increment` after the other. Times are
microseconds.
-/

namespace Zulip.Analytics

/-- A `datetime`, with the offset of its time zone from UTC if it has one. -/
structure DateTime where
  instant : Int
  utcOffset : Option Int
deriving DecidableEq

/-- The exceptions of this code. -/
inductive Failure where
  | timeZoneNotUTCError (dt : DateTime)
  | valueError (fillToTime : DateTime)
  | keyError (property : String)
deriving DecidableEq

/-- `timedelta(hours=1)`. -/
def hour : Int := 3600000000

/-- `timedelta(days=1)`. -/
def day : Int := 24 * hour

/-- `verify_UTC`. -/
def verifyUTC (dt : DateTime) : Except Failure Unit :=
  if dt.utcOffset = some 0 then .ok () else .error (.timeZoneNotUTCError dt)

/-- `floor_to_hour`. -/
def floorToHour (dt : DateTime) : Except Failure DateTime := do
  verifyUTC dt
  .ok ⟨dt.instant - dt.instant % hour, some 0⟩

/-! ## Tables -/

/-- The models derived from `BaseCount`. -/
inductive CountTable where
  | userCount
  | streamCount
  | realmCount
  | installationCount
  | remoteRealmCount
  | remoteInstallationCount
deriving DecidableEq

/-- The columns by which the rows of a table are counted. -/
structure Bucket (table : CountTable) where
  /-- The user, the stream or the server; 0 where the table has no such column. -/
  objectId : Nat
  /-- `realm_id` or `remote_realm_id`; 0 where the table has no such column. -/
  realmId : Nat
deriving DecidableEq

/-- A row of a `BaseCount` table. -/
structure BaseCount (table : CountTable) where
  bucket : Bucket table
  property : String
  subgroup : Option String
  endTime : Int
  value : Int
deriving DecidableEq

/-- `FillState.state`. -/
inductive FillStatus where
  | done
  | started
deriving DecidableEq

/-- A `FillState` row, without its property. -/
structure FillState where
  endTime : Int
  state : FillStatus
deriving DecidableEq

/-- The tables that filling reads and writes, and `installation_epoch()`. -/
structure Database where
  counts : (table : CountTable) → List (BaseCount table)
  fillStates : Dict String FillState
  realms : List Nat
  installationEpoch : Int

/-- The rows of a table for a property and an end time. -/
def Database.rowsAt (db : Database) (table : CountTable) (property : String) (endTime : Int) :
    List (BaseCount table) :=
  (db.counts table).filter fun row => row.property = property && row.endTime = endTime

/-! ## Stats -/

/-- What a pull function computes for a row of the output table. -/
structure Pulled (table : CountTable) where
  bucket : Bucket table
  subgroup : Option String
  value : Int
deriving DecidableEq

/-- A pull function, on fixed source tables. The first argument lists, for each dependency of
the stat, the rows of `UserCount` at the end time; the others are the start and the end. -/
def PullFunction (table : CountTable) : Type :=
  List (List (BaseCount .userCount)) → Int → Int → List (Pulled table)

/-- `CountStat.FREQUENCIES`. -/
inductive Frequency where
  | hour
  | day
deriving DecidableEq

/-- `depends_on_realm`. -/
def CountTable.dependsOnRealm (table : CountTable) : Bool :=
  table = .userCount || table = .streamCount

/-- A `CountStat`. A `LoggingCountStat` is one without a pull function, and a
`DependentCountStat` one with dependencies. Pull functions exist for the tables that
`do_delete_counts_at_hour` clears. -/
structure CountStat where
  property : String
  outputTable : CountTable
  pullFunction : Option (PullFunction outputTable)
  frequency : Frequency
  interval : Int
  dependencies : List String
  isOutput : outputTable ≠ .installationCount
  pullsLocally : pullFunction.isSome → outputTable = .userCount ∨ outputTable = .streamCount ∨
    outputTable = .realmCount
  logsAlone : pullFunction = none → dependencies = []

/-- `time_increment`. -/
def CountStat.timeIncrement (stat : CountStat) : Int :=
  match stat.frequency with
  | .hour => hour
  | .day => day

/-- `COUNT_STATS`: stats with different properties, each after its dependencies. -/
structure CountStats where
  stats : List CountStat
  distinct : (stats.map CountStat.property).Nodup
  ordered : ∀ before stat after, stats = before ++ stat :: after →
    ∀ dependency ∈ stat.dependencies, dependency ∈ before.map CountStat.property

/-- `last_successful_fill`. -/
def Database.lastSuccessfulFill (db : Database) (stat : CountStat) : Option Int :=
  match db.fillStates.get? stat.property with
  | none => none
  | some fillState =>
      match fillState.state with
      | .done => some fillState.endTime
      | .started => some (fillState.endTime - stat.timeIncrement)

/-! ## Statements -/

/-- One write to the database. -/
inductive Write where
  | updateFillState (property : String) (endTime : Int) (state : FillStatus)
  | deleteCounts (table : CountTable) (property : String) (endTime : Int)
  | pull (stat : CountStat) (endTime : Int)
  | aggregateRealmCount (stat : CountStat) (endTime : Int)
  | aggregateInstallationCount (stat : CountStat) (endTime : Int)

/-- `GROUP BY` with `sum(value)`. -/
def sumBy {Row Group : Type} [DecidableEq Group] (rows : List Row) (group : Row → Group)
    (value : Row → Int) : List (Group × Int) :=
  (rows.map group).dedup.map fun key =>
    (key, ((rows.filter fun row => group row = key).map value).sum)

/-- The rows that the `pull_function` inserts. -/
def CountStat.pulledRows (stat : CountStat) (db : Database) (endTime : Int) :
    List (BaseCount stat.outputTable) :=
  match stat.pullFunction with
  | none => []
  | some pull =>
      (pull (stat.dependencies.map fun dependency => db.rowsAt .userCount dependency endTime)
        (endTime - stat.interval) endTime).map fun pulled =>
          ⟨pulled.bucket, stat.property, pulled.subgroup, endTime, pulled.value⟩

/-- The rows that the aggregation into `RealmCount` inserts. -/
def CountStat.realmRows (stat : CountStat) (db : Database) (endTime : Int) :
    List (BaseCount .realmCount) :=
  (sumBy ((db.rowsAt stat.outputTable stat.property endTime).filter fun row =>
      row.bucket.realmId ∈ db.realms) (fun row => (row.bucket.realmId, row.subgroup))
    BaseCount.value).map fun entry =>
      ⟨⟨0, entry.1.1⟩, stat.property, entry.1.2, endTime, entry.2⟩

/-- The rows that the aggregation into `InstallationCount` inserts. -/
def CountStat.installationRows (stat : CountStat) (db : Database) (endTime : Int) :
    List (BaseCount .installationCount) :=
  (sumBy (db.rowsAt .realmCount stat.property endTime) BaseCount.subgroup BaseCount.value).map
    fun entry => ⟨⟨0, 0⟩, stat.property, entry.1, endTime, entry.2⟩

namespace Database

/-- Insert rows into a table. -/
def insert (db : Database) (table : CountTable) (rows : List (BaseCount table)) : Database :=
  { db with counts := Function.update db.counts table (db.counts table ++ rows) }

/-- Delete the rows of a table for a property and an end time. -/
def delete (db : Database) (table : CountTable) (property : String) (endTime : Int) : Database :=
  { db with
    counts := Function.update db.counts table ((db.counts table).filter fun row =>
      !(row.property = property && row.endTime = endTime)) }

/-- What a write does. -/
def execute (db : Database) : Write → Database
  | .updateFillState property endTime state =>
      { db with fillStates := db.fillStates.set property ⟨endTime, state⟩ }
  | .deleteCounts table property endTime => db.delete table property endTime
  | .pull stat endTime => db.insert stat.outputTable (stat.pulledRows db endTime)
  | .aggregateRealmCount stat endTime => db.insert .realmCount (stat.realmRows db endTime)
  | .aggregateInstallationCount stat endTime =>
      db.insert .installationCount (stat.installationRows db endTime)

end Database

/-- `do_aggregate_to_summary_table`, for all realms. -/
def doAggregateToSummaryTable (stat : CountStat) (endTime : Int) : List Write :=
  (if stat.outputTable.dependsOnRealm then [.aggregateRealmCount stat endTime] else []) ++
    [.aggregateInstallationCount stat endTime]

/-- `do_fill_count_stat_at_hour`. -/
def doFillCountStatAtHour (stat : CountStat) (endTime : Int) : List Write :=
  (if stat.pullFunction.isSome then [.pull stat endTime] else []) ++
    doAggregateToSummaryTable stat endTime

/-- The tables from which `do_delete_counts_at_hour` deletes. -/
def CountStat.generatedTables (stat : CountStat) : List CountTable :=
  if stat.pullFunction.isNone then
    .installationCount :: if stat.outputTable.dependsOnRealm then [.realmCount] else []
  else [.userCount, .streamCount, .realmCount, .installationCount]

/-- `do_delete_counts_at_hour`. -/
def doDeleteCountsAtHour (stat : CountStat) (endTime : Int) : List Write :=
  stat.generatedTables.map fun table => .deleteCounts table stat.property endTime

/-! ## Runs of `process_count_stat` -/

/-- The statements of a run, and the exception that ends it. -/
structure Plan where
  writes : List Write
  failure : Option Failure

/-- The first part of `process_count_stat`: undo a fill that was started. The second component
is `currently_filled`. -/
def recover (db : Database) (stat : CountStat) : List Write × Int :=
  match db.fillStates.get? stat.property with
  | none => ([.updateFillState stat.property db.installationEpoch .done], db.installationEpoch)
  | some fillState =>
      match fillState.state with
      | .started =>
          let currentlyFilled := fillState.endTime - stat.timeIncrement
          (doDeleteCountsAtHour stat fillState.endTime ++
            [.updateFillState stat.property currentlyFilled .done], currentlyFilled)
      | .done => ([], fillState.endTime)

/-- The loop over the dependencies: the time to fill to, or `none` if one was never run. -/
def dependencyFillTime (stats : CountStats) (db : Database) :
    List String → Int → Except Failure (Option Int)
  | [], fillToTime => .ok (some fillToTime)
  | dependency :: rest, fillToTime =>
      match stats.stats.find? fun stat => stat.property = dependency with
      | none => .error (.keyError dependency)
      | some stat =>
          match db.lastSuccessfulFill stat with
          | none => .ok none
          | some lastFill =>
              dependencyFillTime stats db rest (min fillToTime lastFill)

/-- The body of the `while` loop. -/
def fillRound (stat : CountStat) (currentlyFilled : Int) : List Write :=
  .updateFillState stat.property currentlyFilled .started ::
    doFillCountStatAtHour stat currentlyFilled ++
      [.updateFillState stat.property currentlyFilled .done]

/-- The `while` loop, for at most so many rounds. -/
def fillLoop (stat : CountStat) (fillToTime : Int) : Nat → Int → List Write
  | 0, _ => []
  | rounds + 1, currentlyFilled =>
      if currentlyFilled ≤ fillToTime then
        fillRound stat currentlyFilled ++
          fillLoop stat fillToTime rounds (currentlyFilled + stat.timeIncrement)
      else []

/-- `process_count_stat`. -/
def processCountStat (stats : CountStats) (db : Database) (stat : CountStat)
    (fillToTime : DateTime) : Plan :=
  match floorToHour fillToTime with
  | .error failure => ⟨[], some failure⟩
  | .ok floor =>
      if floor ≠ fillToTime then ⟨[], some (.valueError fillToTime)⟩
      else
        let (undo, currentlyFilled) := recover db stat
        match dependencyFillTime stats (executeAll Database.execute db undo) stat.dependencies
            fillToTime.instant with
        | .error failure => ⟨undo, some failure⟩
        | .ok none => ⟨undo, none⟩
        | .ok (some fillTo) =>
            let next := currentlyFilled + stat.timeIncrement
            ⟨undo ++ fillLoop stat fillTo ((fillTo - next) / stat.timeIncrement + 1).toNat next,
              none⟩

end Zulip.Analytics
