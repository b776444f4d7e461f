import Zulip.Analytics.Fill
import Zulip.Foundation.Transition

/-!
# Filling exactly once

Runs of `process_count_stat` may be killed between any two statements. The invariant relates
the fill state of every stat to its generated rows: the end times of the rounds up to
`last_successful_fill` hold the rows of a single fill, a fill that was started may have left
anything at its own end time, and no other end time has rows. A dependent stat is never ahead
of its dependencies, so a fill of a dependency never changes what it was computed from.
-/

namespace Zulip.Analytics

/-! ## Rounds -/

/-- The end time of a round; round 0 ends at the start of the installation. -/
def CountStat.endOfRound (stat : CountStat) (epoch : Int) (round : Nat) : Int :=
  epoch + round * stat.timeIncrement

/-- The end times of the rounds up to the given one. -/
def CountStat.filledTimes (stat : CountStat) (epoch : Int) (rounds : Nat) : Set Int :=
  { endTime | ∃ round, 1 ≤ round ∧ round ≤ rounds ∧ endTime = stat.endOfRound epoch round }

namespace CountStat

variable {stat : CountStat} {epoch : Int}

theorem timeIncrement_pos : 0 < stat.timeIncrement := by
  unfold timeIncrement
  split <;> simp [day, hour]

@[simp] theorem endOfRound_zero : stat.endOfRound epoch 0 = epoch := by simp [endOfRound]

theorem endOfRound_succ (round : Nat) :
    stat.endOfRound epoch (round + 1) = stat.endOfRound epoch round + stat.timeIncrement := by
  unfold endOfRound
  rw [Int.natCast_succ, Int.add_mul, Int.one_mul, Int.add_assoc]

theorem endOfRound_lt_iff {first second : Nat} :
    stat.endOfRound epoch first < stat.endOfRound epoch second ↔ first < second := by
  unfold endOfRound
  rw [Int.add_lt_add_iff_left, Int.mul_lt_mul_right timeIncrement_pos]
  exact Int.ofNat_lt

theorem endOfRound_le_iff {first second : Nat} :
    stat.endOfRound epoch first ≤ stat.endOfRound epoch second ↔ first ≤ second := by
  rw [← Int.not_lt, endOfRound_lt_iff, Nat.not_lt]

theorem endOfRound_inj {first second : Nat}
    (same : stat.endOfRound epoch first = stat.endOfRound epoch second) : first = second :=
  Nat.le_antisymm (endOfRound_le_iff.mp (Int.le_of_eq same))
    (endOfRound_le_iff.mp (Int.le_of_eq same.symm))

@[simp] theorem endOfRound_mem_filledTimes {round rounds : Nat} :
    stat.endOfRound epoch round ∈ stat.filledTimes epoch rounds ↔
      1 ≤ round ∧ round ≤ rounds := by
  constructor
  · rintro ⟨other, positive, bounded, same⟩
    rw [endOfRound_inj same]
    exact ⟨positive, bounded⟩
  · rintro ⟨positive, bounded⟩
    exact ⟨round, positive, bounded, rfl⟩

@[simp] theorem not_mem_filledTimes_zero {endTime : Int} :
    endTime ∉ stat.filledTimes epoch 0 := by
  rintro ⟨round, positive, bounded, _⟩
  omega

/-- The round after the last one adds its end time. -/
theorem mem_filledTimes_succ {endTime : Int} {rounds : Nat} :
    endTime ∈ stat.filledTimes epoch (rounds + 1) ↔
      endTime ∈ stat.filledTimes epoch rounds ∨ endTime = stat.endOfRound epoch (rounds + 1) := by
  constructor
  · rintro ⟨round, positive, bounded, rfl⟩
    rcases Nat.lt_or_eq_of_le bounded with earlier | same
    · exact Or.inl ⟨round, positive, by omega, rfl⟩
    · exact Or.inr (by rw [same])
  · rintro (⟨round, positive, bounded, rfl⟩ | rfl)
    · exact ⟨round, positive, by omega, rfl⟩
    · exact ⟨rounds + 1, by omega, Nat.le_refl _, rfl⟩

theorem bounds_of_mem_filledTimes {endTime : Int} {rounds : Nat}
    (member : endTime ∈ stat.filledTimes epoch rounds) :
    epoch < endTime ∧ endTime ≤ stat.endOfRound epoch rounds := by
  obtain ⟨round, positive, bounded, rfl⟩ := member
  constructor
  · have first : stat.endOfRound epoch 0 < stat.endOfRound epoch round :=
      endOfRound_lt_iff.mpr positive
    simpa using first
  · exact endOfRound_le_iff.mpr bounded

end CountStat

/-! ## The invariant -/

/-- A fill of the end time was started and is not done. -/
def Database.Pending (db : Database) (stat : CountStat) (endTime : Int) : Prop :=
  db.fillStates.get? stat.property = some ⟨endTime, .started⟩

/-- The fill state after so many rounds that were done. -/
inductive Reached (stat : CountStat) (epoch : Int) : Option FillState → Nat → Prop where
  | absent : Reached stat epoch none 0
  | done (rounds : Nat) : Reached stat epoch (some ⟨stat.endOfRound epoch rounds, .done⟩) rounds
  | started (rounds : Nat) :
      Reached stat epoch (some ⟨stat.endOfRound epoch (rounds + 1), .started⟩) rounds

/-- The fill state and the generated rows of a stat after so many rounds. -/
structure Progress (stat : CountStat) (db : Database) (rounds : Nat) : Prop where
  reached : Reached stat db.installationEpoch (db.fillStates.get? stat.property) rounds
  filled : ∀ endTime ∈ stat.filledTimes db.installationEpoch rounds,
    ¬db.Pending stat endTime → ∀ table ∈ stat.generatedTables,
      db.rowsAt table stat.property endTime =
        (db.filledAt stat endTime).rowsAt table stat.property endTime
  unfilled : ∀ endTime ∉ stat.filledTimes db.installationEpoch rounds,
    ¬db.Pending stat endTime → ∀ table ∈ stat.generatedTables,
      db.rowsAt table stat.property endTime = []

/-- The dependencies of the stat are filled up to a time. -/
def FilledUpTo (stats : CountStats) (db : Database) (stat : CountStat) (time : Int) : Prop :=
  ∀ source ∈ stats.stats, source.property ∈ stat.dependencies →
    ∃ lastFill, db.lastSuccessfulFill source = some lastFill ∧ time ≤ lastFill

/-- The invariant of the runs. -/
structure Consistent (stats : CountStats) (db : Database) : Prop where
  progress : ∀ stat ∈ stats.stats, ∃ rounds, Progress stat db rounds
  behind : ∀ stat ∈ stats.stats, ∀ lastFill, db.lastSuccessfulFill stat = some lastFill →
    lastFill ≤ db.installationEpoch ∨ FilledUpTo stats db stat lastFill

namespace CountStats

variable {stats : CountStats} {stat other : CountStat}

/-- Stats are told apart by their property. -/
theorem eq_of_property (member : stat ∈ stats.stats) (otherMember : other ∈ stats.stats)
    (same : stat.property = other.property) : stat = other :=
  List.inj_on_of_nodup_map stats.distinct member otherMember same

/-- No stat depends on itself. -/
theorem property_not_mem_dependencies (member : stat ∈ stats.stats) :
    stat.property ∉ stat.dependencies := by
  intro own
  obtain ⟨before, after, split⟩ := List.append_of_mem member
  obtain ⟨earlier, isEarlier, sameProperty⟩ :=
    List.mem_map.mp (stats.ordered before stat after split stat.property own)
  have distinct := stats.distinct
  rw [split, List.map_append, List.map_cons] at distinct
  exact (List.nodup_append.mp distinct).2.2 _ (List.mem_map_of_mem isEarlier) _
    List.mem_cons_self sameProperty

end CountStats

section Invariant

variable {stats : CountStats} {stat : CountStat} {db after : Database} {rounds : Nat}

theorem Reached.lastSuccessfulFill
    (reached : Reached stat db.installationEpoch (db.fillStates.get? stat.property) rounds)
    (present : (db.fillStates.get? stat.property).isSome) :
    db.lastSuccessfulFill stat = some (stat.endOfRound db.installationEpoch rounds) := by
  unfold Database.lastSuccessfulFill
  generalize db.fillStates.get? stat.property = fillState at reached present
  cases reached with
  | absent => simp at present
  | done => rfl
  | started => simp [CountStat.endOfRound_succ]

theorem lastSuccessfulFill_isSome {lastFill : Int}
    (found : db.lastSuccessfulFill stat = some lastFill) :
    (db.fillStates.get? stat.property).isSome := by
  unfold Database.lastSuccessfulFill at found
  split at found
  · simp at found
  · simp [*]

theorem lastSuccessfulFill_congr
    (same : after.fillStates.get? stat.property = db.fillStates.get? stat.property) :
    after.lastSuccessfulFill stat = db.lastSuccessfulFill stat := by
  unfold Database.lastSuccessfulFill
  rw [same]

/-- Progress is kept where neither the rows nor what they were computed from change. -/
theorem Progress.frame (progress : Progress stat db rounds)
    (fillState : after.fillStates.get? stat.property = db.fillStates.get? stat.property)
    (epoch : after.installationEpoch = db.installationEpoch)
    (rows : ∀ endTime, ¬db.Pending stat endTime → ∀ table ∈ stat.generatedTables,
      after.rowsAt table stat.property endTime = db.rowsAt table stat.property endTime)
    (sources : ∀ endTime ∈ stat.filledTimes db.installationEpoch rounds,
      ¬db.Pending stat endTime → SameSources stat endTime after db) :
    Progress stat after rounds := by
  have pending : ∀ endTime, after.Pending stat endTime ↔ db.Pending stat endTime := by
    intro endTime
    unfold Database.Pending
    rw [fillState]
  constructor
  · rw [fillState, epoch]
    exact progress.reached
  · intro endTime member notPending table generated
    rw [epoch] at member
    rw [pending] at notPending
    rw [rows endTime notPending table generated,
      progress.filled endTime member notPending table generated]
    exact ((sources endTime member notPending).filledAt.rows table).symm
  · intro endTime notMember notPending table generated
    rw [epoch] at notMember
    rw [pending] at notPending
    rw [rows endTime notPending table generated]
    exact progress.unfilled endTime notMember notPending table generated

/-- A started fill is later than the last successful one. -/
theorem Progress.endTime_of_pending (progress : Progress stat db rounds) {endTime : Int}
    (pending : db.Pending stat endTime) :
    endTime = stat.endOfRound db.installationEpoch (rounds + 1) := by
  have reached := progress.reached
  unfold Database.Pending at pending
  rw [pending] at reached
  cases reached
  rfl

/-! ## Statements on rows -/

/-- While a fill is started, the statements on its rows keep the invariant. -/
theorem Consistent.rowWrite (consistent : Consistent stats db) (member : stat ∈ stats.stats)
    {endTime : Int} (pending : db.Pending stat endTime) {write : Write}
    (within : write.Within stat endTime) : Consistent stats (db.execute write) := by
  have sameLast : ∀ other, (db.execute write).lastSuccessfulFill other =
      db.lastSuccessfulFill other :=
    fun other => lastSuccessfulFill_congr (by rw [within.fillStates])
  constructor
  · intro other otherMember
    obtain ⟨rounds, progress⟩ := consistent.progress other otherMember
    -- Rows of the other stat change only where a fill of that stat is pending.
    have rows : ∀ time, ¬db.Pending other time → ∀ table,
        (db.execute write).rowsAt table other.property time =
          db.rowsAt table other.property time := by
      intro time notPending table
      refine within.rows db table _ _ fun place => notPending ?_
      rw [stats.eq_of_property otherMember member place.2.1, place.2.2]
      exact pending
    refine ⟨rounds, progress.frame (by rw [within.fillStates]) (within.installationEpoch db)
      (fun time notPending table _ => rows time notPending table) ?_⟩
    intro time filled notPending
    refine ⟨within.realms db, fun table _ => rows time notPending table, ?_⟩
    intro dependency dependencyMember different
    refine within.rows db .userCount _ _ fun place => ?_
    -- The other stat would be filled at a time at which its dependency is not.
    obtain ⟨ownRounds, ownProgress⟩ := consistent.progress stat member
    have pendingTime := ownProgress.endTime_of_pending pending
    have ownLast := ownProgress.reached.lastSuccessfulFill (by
      unfold Database.Pending at pending
      rw [pending]
      rfl)
    have bounds := CountStat.bounds_of_mem_filledTimes filled
    have present : (db.fillStates.get? other.property).isSome := by
      have reached := progress.reached
      generalize db.fillStates.get? other.property = fillState at reached
      cases reached with
      | absent => simp at filled
      | done => rfl
      | started => rfl
    rcases consistent.behind other otherMember _ (progress.reached.lastSuccessfulFill present)
      with atStart | upTo
    · omega
    · obtain ⟨lastFill, found, enough⟩ :=
        upTo stat member (by rw [← place.2.1]; exact dependencyMember)
      rw [ownLast] at found
      have last : stat.endOfRound db.installationEpoch ownRounds = lastFill :=
        Option.some.inj found
      have increment := stat.timeIncrement_pos
      have next := @CountStat.endOfRound_succ stat db.installationEpoch ownRounds
      have sameTime := place.2.2
      omega
  · intro other otherMember lastFill found
    rw [sameLast] at found
    rw [within.installationEpoch]
    refine (consistent.behind other otherMember lastFill found).imp_right fun upTo => ?_
    intro source sourceMember dependency
    rw [sameLast]
    exact upTo source sourceMember dependency

/-! ## Statements on the fill state -/

/-- The database after an update of the fill state. -/
def Database.withFillState (db : Database) (stat : CountStat) (endTime : Int)
    (state : FillStatus) : Database :=
  db.execute (.updateFillState stat.property endTime state)

section FillStates

variable {endTime : Int} {state : FillStatus}

@[simp] theorem withFillState_installationEpoch :
    (db.withFillState stat endTime state).installationEpoch = db.installationEpoch := rfl

@[simp] theorem withFillState_rowsAt (table : CountTable) (property : String) (time : Int) :
    (db.withFillState stat endTime state).rowsAt table property time =
      db.rowsAt table property time := rfl

@[simp] theorem withFillState_get? :
    (db.withFillState stat endTime state).fillStates.get? stat.property =
      some ⟨endTime, state⟩ :=
  Dict.get?_set_self ..

theorem withFillState_get?_ne {property : String} (different : property ≠ stat.property) :
    (db.withFillState stat endTime state).fillStates.get? property =
      db.fillStates.get? property :=
  Dict.get?_set_ne _ _ different

theorem withFillState_sameSources (other : CountStat) (time : Int) :
    SameSources other time (db.withFillState stat endTime state) db :=
  ⟨rfl, fun _ _ => rfl, fun _ _ _ => rfl⟩

/-- The end time whose rows may be incomplete. -/
@[simp] theorem withFillState_pending {time : Int} :
    (db.withFillState stat endTime state).Pending stat time ↔
      endTime = time ∧ state = .started := by
  unfold Database.Pending
  rw [withFillState_get?, Option.some.injEq, FillState.mk.injEq]

/-- The progress of a stat after its own fill state was updated. -/
theorem Progress.withFillState {next : Nat}
    (reached : Reached stat db.installationEpoch (some ⟨endTime, state⟩) next)
    (filled : ∀ time ∈ stat.filledTimes db.installationEpoch next,
      ¬(endTime = time ∧ state = .started) → ∀ table ∈ stat.generatedTables,
        db.rowsAt table stat.property time =
          (db.filledAt stat time).rowsAt table stat.property time)
    (unfilled : ∀ time ∉ stat.filledTimes db.installationEpoch next,
      ¬(endTime = time ∧ state = .started) → ∀ table ∈ stat.generatedTables,
        db.rowsAt table stat.property time = []) :
    Progress stat (db.withFillState stat endTime state) next := by
  constructor
  · simpa using reached
  · intro time member notPending table generated
    rw [withFillState_pending] at notPending
    rw [withFillState_rowsAt, filled time member notPending table generated]
    exact ((withFillState_sameSources stat time).filledAt.rows table).symm
  · intro time notMember notPending table generated
    rw [withFillState_pending] at notPending
    exact unfilled time notMember notPending table generated

/-- An update of a fill state keeps the invariant when the stat does not go back and stays
behind its dependencies. -/
theorem Consistent.withFillState (consistent : Consistent stats db) (member : stat ∈ stats.stats)
    {next : Nat} (progress : Progress stat (db.withFillState stat endTime state) next)
    (forward : ∀ lastFill, db.lastSuccessfulFill stat = some lastFill →
      lastFill ≤ stat.endOfRound db.installationEpoch next)
    (behind : next = 0 ∨
      FilledUpTo stats db stat (stat.endOfRound db.installationEpoch next)) :
    Consistent stats (db.withFillState stat endTime state) := by
  have ownLast : (db.withFillState stat endTime state).lastSuccessfulFill stat =
      some (stat.endOfRound db.installationEpoch next) :=
    progress.reached.lastSuccessfulFill (by simp)
  have otherLast : ∀ other, other.property ≠ stat.property →
      (db.withFillState stat endTime state).lastSuccessfulFill other =
        db.lastSuccessfulFill other :=
    fun other different => lastSuccessfulFill_congr (withFillState_get?_ne different)
  -- Stats that were filled up to a time still are.
  have upTo : ∀ other time, FilledUpTo stats db other time →
      FilledUpTo stats (db.withFillState stat endTime state) other time := by
    intro other time filled source sourceMember dependency
    obtain ⟨lastFill, found, enough⟩ := filled source sourceMember dependency
    by_cases own : source.property = stat.property
    · rw [stats.eq_of_property sourceMember member own] at found ⊢
      exact ⟨_, ownLast, Int.le_trans enough (forward lastFill found)⟩
    · rw [otherLast source own]
      exact ⟨lastFill, found, enough⟩
  constructor
  · intro other otherMember
    by_cases own : other.property = stat.property
    · rw [stats.eq_of_property otherMember member own]
      exact ⟨next, progress⟩
    · obtain ⟨rounds, otherProgress⟩ := consistent.progress other otherMember
      exact ⟨rounds, otherProgress.frame (withFillState_get?_ne own) rfl
        (fun _ _ _ _ => rfl) (fun time _ _ => withFillState_sameSources other time)⟩
  · intro other otherMember lastFill found
    by_cases own : other.property = stat.property
    · rw [stats.eq_of_property otherMember member own] at found ⊢
      rw [ownLast, Option.some.injEq] at found
      subst found
      rcases behind with rfl | filled
      · left
        simp
      · exact Or.inr (upTo stat _ filled)
    · rw [otherLast other own] at found
      exact (consistent.behind other otherMember lastFill found).imp_right (upTo other lastFill)

end FillStates

/-! ## One run -/

/-- The statements on the rows of a started fill, wherever they stop. -/
theorem Consistent.rowWrites (consistent : Consistent stats db) (member : stat ∈ stats.stats)
    {endTime : Int} (pending : db.Pending stat endTime) {writes : List Write}
    (within : ∀ write ∈ writes, write.Within stat endTime) :
    Safely Database.execute (Consistent stats) db writes :=
  Safely.of_preserved (fun db => db.Pending stat endTime)
    (fun write writeMember db consistent pending =>
      ⟨consistent.rowWrite member pending (within write writeMember), by
        unfold Database.Pending
        rw [(within write writeMember).fillStates]
        exact pending⟩) consistent pending

/-- A stat whose last fill is done. -/
structure Settled (stats : CountStats) (stat : CountStat) (db : Database) (rounds : Nat) :
    Prop where
  consistent : Consistent stats db
  fillState : db.fillStates.get? stat.property =
    some ⟨stat.endOfRound db.installationEpoch rounds, .done⟩
  progress : Progress stat db rounds

namespace Settled

theorem not_pending (settled : Settled stats stat db rounds) (endTime : Int) :
    ¬db.Pending stat endTime := by
  unfold Database.Pending
  rw [settled.fillState]
  simp

end Settled

theorem Reached.unique {epoch : Int} {fillState : Option FillState} {first second : Nat}
    (one : Reached stat epoch fillState first) (other : Reached stat epoch fillState second) :
    first = second := by
  generalize sameState : fillState = state at other
  cases one <;> cases other
  · rfl
  · simp at sameState
  · simp at sameState
  · simp at sameState
  · exact CountStat.endOfRound_inj (by simpa using sameState)
  · simp at sameState
  · simp at sameState
  · simp at sameState
  · exact Nat.succ.inj (CountStat.endOfRound_inj (by simpa using sameState))

section Transitions

variable (consistent : Consistent stats db) (member : stat ∈ stats.stats)
  (pending : db.Pending stat (stat.endOfRound db.installationEpoch (rounds + 1)))

include pending

theorem reached_of_pending :
    Reached stat db.installationEpoch (db.fillStates.get? stat.property) rounds := by
  unfold Database.Pending at pending
  rw [pending]
  exact Reached.started rounds

include consistent member

theorem Consistent.progress_of_pending : Progress stat db rounds := by
  obtain ⟨other, progress⟩ := consistent.progress stat member
  rw [(reached_of_pending pending).unique progress.reached]
  exact progress

/-- A started fill without rows is undone. -/
theorem Consistent.settle (empty : ∀ table ∈ stat.generatedTables, db.rowsAt table stat.property
      (stat.endOfRound db.installationEpoch (rounds + 1)) = []) :
    Settled stats stat
      (db.withFillState stat (stat.endOfRound db.installationEpoch rounds) .done) rounds := by
  have progress := consistent.progress_of_pending member pending
  have elsewhere : ∀ time, time ≠ stat.endOfRound db.installationEpoch (rounds + 1) →
      ¬db.Pending stat time :=
    fun time different otherPending => different (progress.endTime_of_pending otherPending)
  have settled : Progress stat
      (db.withFillState stat (stat.endOfRound db.installationEpoch rounds) .done) rounds := by
    refine Progress.withFillState (Reached.done rounds) ?_ ?_
    · intro time filled _ table generated
      refine progress.filled time filled (elsewhere time ?_) table generated
      rintro rfl
      rw [CountStat.endOfRound_mem_filledTimes] at filled
      omega
    · intro time unfilled _ table generated
      by_cases last : time = stat.endOfRound db.installationEpoch (rounds + 1)
      · rw [last]
        exact empty table generated
      · exact progress.unfilled time unfilled (elsewhere time last) table generated
  have sameLast := progress.reached.lastSuccessfulFill (by
    unfold Database.Pending at pending
    rw [pending]
    rfl)
  refine ⟨consistent.withFillState member settled ?_ ?_, withFillState_get?, settled⟩
  · intro lastFill found
    rw [sameLast, Option.some.injEq] at found
    exact Int.le_of_eq found.symm
  · rcases consistent.behind stat member _ sameLast with atStart | upTo
    · left
      have start : stat.endOfRound db.installationEpoch rounds ≤
          stat.endOfRound db.installationEpoch 0 := by simpa using atStart
      exact Nat.le_zero.mp (CountStat.endOfRound_le_iff.mp start)
    · exact Or.inr upTo

/-- A started fill with the rows of a single fill is done. -/
theorem Consistent.finish (filledRows : ∀ table ∈ stat.generatedTables,
      db.rowsAt table stat.property (stat.endOfRound db.installationEpoch (rounds + 1)) =
        (db.filledAt stat (stat.endOfRound db.installationEpoch (rounds + 1))).rowsAt table
          stat.property (stat.endOfRound db.installationEpoch (rounds + 1)))
    (upTo : FilledUpTo stats db stat (stat.endOfRound db.installationEpoch (rounds + 1))) :
    Settled stats stat
      (db.withFillState stat (stat.endOfRound db.installationEpoch (rounds + 1)) .done)
      (rounds + 1) := by
  have progress := consistent.progress_of_pending member pending
  have elsewhere : ∀ time, time ≠ stat.endOfRound db.installationEpoch (rounds + 1) →
      ¬db.Pending stat time :=
    fun time different otherPending => different (progress.endTime_of_pending otherPending)
  have settled : Progress stat
      (db.withFillState stat (stat.endOfRound db.installationEpoch (rounds + 1)) .done)
      (rounds + 1) := by
    refine Progress.withFillState (Reached.done (rounds + 1)) ?_ ?_
    · intro time filled _ table generated
      by_cases last : time = stat.endOfRound db.installationEpoch (rounds + 1)
      · rw [last]
        exact filledRows table generated
      · have earlier := (CountStat.mem_filledTimes_succ.mp filled).resolve_right last
        exact progress.filled time earlier (elsewhere time last) table generated
    · intro time unfilled _ table generated
      rw [CountStat.mem_filledTimes_succ, not_or] at unfilled
      exact progress.unfilled time unfilled.1 (elsewhere time unfilled.2) table generated
  refine ⟨consistent.withFillState member settled ?_ (Or.inr upTo), withFillState_get?, settled⟩
  intro lastFill found
  have sameLast := progress.reached.lastSuccessfulFill (lastSuccessfulFill_isSome found)
  rw [sameLast, Option.some.injEq] at found
  rw [← found, CountStat.endOfRound_le_iff]
  omega

end Transitions

/-- Undoing a started fill, or creating the fill state, is safe, and leaves the stat settled at
`currently_filled`. -/
theorem Consistent.recover (consistent : Consistent stats db) (member : stat ∈ stats.stats) :
    Safely Database.execute (Consistent stats) db (recover db stat).1 ∧
      ∃ rounds, Settled stats stat (executeAll Database.execute db (recover db stat).1) rounds ∧
        (recover db stat).2 = stat.endOfRound db.installationEpoch rounds ∧
        (executeAll Database.execute db (recover db stat).1).installationEpoch =
          db.installationEpoch ∧
        ∀ lastFill, db.lastSuccessfulFill stat = some lastFill →
          lastFill = stat.endOfRound db.installationEpoch rounds := by
  obtain ⟨rounds, progress⟩ := consistent.progress stat member
  have reached := progress.reached
  have sameLast : ∀ lastFill, db.lastSuccessfulFill stat = some lastFill →
      lastFill = stat.endOfRound db.installationEpoch rounds := by
    intro lastFill found
    rw [progress.reached.lastSuccessfulFill (lastSuccessfulFill_isSome found),
      Option.some.injEq] at found
    exact found.symm
  unfold Analytics.recover
  generalize fillStateIs : db.fillStates.get? stat.property = fillState at reached
  cases reached with
  | absent =>
      have notPending : ∀ time, ¬db.Pending stat time := by
        intro time
        unfold Database.Pending
        rw [fillStateIs]
        simp
      have created : Progress stat (db.withFillState stat db.installationEpoch .done) 0 := by
        refine Progress.withFillState ?_ (by simp) ?_
        · have atStart : Reached stat db.installationEpoch
              (some ⟨stat.endOfRound db.installationEpoch 0, .done⟩) 0 := Reached.done 0
          simpa using atStart
        · intro time notMember _ table generated
          exact progress.unfilled time notMember (notPending time) table generated
      have after : Consistent stats (db.withFillState stat db.installationEpoch .done) := by
        refine consistent.withFillState member created ?_ (Or.inl rfl)
        intro lastFill found
        have present := lastSuccessfulFill_isSome found
        rw [fillStateIs] at present
        simp at present
      refine ⟨Safely.cons consistent (Safely.nil after), 0, ⟨after, ?_, created⟩, by simp, rfl,
        sameLast⟩
      rw [CountStat.endOfRound_zero]
      exact withFillState_get?
  | done =>
      exact ⟨Safely.nil consistent, rounds, ⟨consistent, fillStateIs, progress⟩, rfl, rfl,
        sameLast⟩
  | started =>
      have within : ∀ write ∈ doDeleteCountsAtHour stat
          (stat.endOfRound db.installationEpoch (rounds + 1)),
          write.Within stat (stat.endOfRound db.installationEpoch (rounds + 1)) :=
        fun write writeMember => rowWrites_within (List.mem_append_left _ writeMember)
      have deleting := consistent.rowWrites member fillStateIs within
      obtain ⟨fillStates, _, epoch, _⟩ := executeAll_within db within
      have empty := fun table (generated : table ∈ stat.generatedTables) =>
        rowsAt_doDeleteCountsAtHour db (stat.endOfRound db.installationEpoch (rounds + 1)) generated
      have back : stat.endOfRound db.installationEpoch (rounds + 1) - stat.timeIncrement =
          stat.endOfRound db.installationEpoch rounds := by
        rw [CountStat.endOfRound_succ, Int.add_sub_cancel]
      dsimp only
      rw [back, executeAll_append]
      have settled := @Consistent.settle stats stat _ rounds deleting.final member
        (by rw [Database.Pending, fillStates, epoch]; exact fillStateIs)
        (by rw [epoch]; exact empty)
      rw [epoch] at settled
      exact ⟨deleting.append (Safely.cons deleting.final (Safely.nil settled.consistent)),
        rounds, settled, rfl, epoch, sameLast⟩

/-- What a stat depends on is not changed by its own run. -/
theorem FilledUpTo.congr {time : Int} (upTo : FilledUpTo stats db stat time)
    (member : stat ∈ stats.stats)
    (others : ∀ property, property ≠ stat.property →
      after.fillStates.get? property = db.fillStates.get? property) :
    FilledUpTo stats after stat time := by
  intro source sourceMember dependency
  obtain ⟨lastFill, found, enough⟩ := upTo source sourceMember dependency
  refine ⟨lastFill, ?_, enough⟩
  rw [lastSuccessfulFill_congr (others source.property fun same =>
    stats.property_not_mem_dependencies member (same ▸ dependency))]
  exact found

theorem FilledUpTo.mono {earlier later : Int} (upTo : FilledUpTo stats db stat later)
    (le : earlier ≤ later) : FilledUpTo stats db stat earlier := by
  intro source sourceMember dependency
  obtain ⟨lastFill, found, enough⟩ := upTo source sourceMember dependency
  exact ⟨lastFill, found, Int.le_trans le enough⟩

/-- The first statement of a round. -/
theorem Settled.start (settled : Settled stats stat db rounds) (member : stat ∈ stats.stats) :
    Consistent stats
      (db.withFillState stat (stat.endOfRound db.installationEpoch (rounds + 1)) .started) := by
  have progress := settled.progress
  have started : Progress stat
      (db.withFillState stat (stat.endOfRound db.installationEpoch (rounds + 1)) .started)
      rounds := by
    refine Progress.withFillState (Reached.started rounds) ?_ ?_
    · intro time filled _ table generated
      exact progress.filled time filled (settled.not_pending time) table generated
    · intro time unfilled _ table generated
      exact progress.unfilled time unfilled (settled.not_pending time) table generated
  have sameLast := progress.reached.lastSuccessfulFill (by rw [settled.fillState]; rfl)
  refine settled.consistent.withFillState member started ?_ ?_
  · intro lastFill found
    rw [sameLast, Option.some.injEq] at found
    exact Int.le_of_eq found.symm
  · rcases settled.consistent.behind stat member _ sameLast with atStart | upTo
    · left
      have start : stat.endOfRound db.installationEpoch rounds ≤
          stat.endOfRound db.installationEpoch 0 := by simpa using atStart
      exact Nat.le_zero.mp (CountStat.endOfRound_le_iff.mp start)
    · exact Or.inr upTo

/-- A round is safe and settles the stat one time increment later. -/
theorem Settled.fillRound (settled : Settled stats stat db rounds) (member : stat ∈ stats.stats)
    (upTo : FilledUpTo stats db stat (stat.endOfRound db.installationEpoch (rounds + 1))) :
    let writes := fillRound stat (stat.endOfRound db.installationEpoch (rounds + 1))
    Safely Database.execute (Consistent stats) db writes ∧
      Settled stats stat (executeAll Database.execute db writes) (rounds + 1) ∧
      (executeAll Database.execute db writes).installationEpoch = db.installationEpoch ∧
      ∀ property, property ≠ stat.property →
        (executeAll Database.execute db writes).fillStates.get? property =
          db.fillStates.get? property := by
  intro writes
  let endTime := stat.endOfRound db.installationEpoch (rounds + 1)
  let started := db.withFillState stat endTime .started
  let filled := executeAll Database.execute started (doFillCountStatAtHour stat endTime)
  have startedConsistent : Consistent stats started := settled.start member
  have startedPending : started.Pending stat endTime := withFillState_pending.mpr ⟨rfl, rfl⟩
  have within : ∀ write ∈ doFillCountStatAtHour stat endTime, write.Within stat endTime :=
    fun write writeMember => rowWrites_within (List.mem_append_right _ writeMember)
  have filling : Safely Database.execute (Consistent stats) started
      (doFillCountStatAtHour stat endTime) :=
    startedConsistent.rowWrites member startedPending within
  obtain ⟨fillStates, _, epoch, _⟩ := executeAll_within started within
  -- Nothing was generated for this end time before, so this is a single fill.
  have empty : ∀ table ∈ stat.generatedTables, started.rowsAt table stat.property endTime = [] := by
    intro table generated
    refine settled.progress.unfilled endTime ?_ (settled.not_pending endTime) table generated
    rw [CountStat.endOfRound_mem_filledTimes]
    omega
  have single : Agree stat endTime filled (filled.filledAt stat endTime) := by
    have same := (SameSources.filledAt_of_empty empty)
    have sources := (SameSources.of_within started within).filledAt
    exact same.trans sources.symm
  have finished : Settled stats stat (filled.withFillState stat endTime .done) (rounds + 1) := by
    have filledEpoch : filled.installationEpoch = db.installationEpoch := epoch
    have final := @Consistent.finish stats stat _ rounds filling.final member
      (by rw [Database.Pending, fillStates, epoch]; exact startedPending)
      (by rw [epoch]; exact fun table _ => single.rows table)
      (by
        rw [epoch]
        refine upTo.congr member fun property different => ?_
        rw [fillStates]
        exact withFillState_get?_ne different)
    rw [epoch] at final
    exact final
  have split : writes = .updateFillState stat.property endTime .started ::
      (doFillCountStatAtHour stat endTime ++
        [.updateFillState stat.property endTime .done]) := rfl
  rw [split]
  have result : executeAll Database.execute db (.updateFillState stat.property endTime .started ::
      (doFillCountStatAtHour stat endTime ++
        [.updateFillState stat.property endTime .done])) =
          filled.withFillState stat endTime .done := by
    rw [executeAll_cons, executeAll_append]
    rfl
  rw [result]
  refine ⟨?_, finished, epoch, fun property different => ?_⟩
  · exact Safely.cons settled.consistent
      (filling.append (Safely.cons filling.final (Safely.nil finished.consistent)))
  · rw [withFillState_get?_ne different]
    exact (congrArg (fun states => Dict.get? states property) fillStates).trans
      (withFillState_get?_ne different)

/-- The loop is safe, and leaves the stat settled. -/
theorem Settled.fillLoop {fillToTime : Int} (count : Nat)
    (settled : Settled stats stat db rounds) (member : stat ∈ stats.stats)
    (upTo : FilledUpTo stats db stat fillToTime) :
    let writes := fillLoop stat fillToTime count
      (stat.endOfRound db.installationEpoch (rounds + 1))
    Safely Database.execute (Consistent stats) db writes ∧
      ∃ final, rounds ≤ final ∧
        Settled stats stat (executeAll Database.execute db writes) final ∧
        (executeAll Database.execute db writes).installationEpoch = db.installationEpoch := by
  induction count generalizing db rounds with
  | zero => exact ⟨Safely.nil settled.consistent, rounds, Nat.le_refl _, settled, rfl⟩
  | succ count inductionHypothesis =>
      unfold Analytics.fillLoop
      split
      · rename_i due
        obtain ⟨safely, next, epoch, others⟩ := settled.fillRound member (upTo.mono due)
        have nextUpTo := upTo.congr member others
        obtain ⟨restSafely, final, later, finalSettled, finalEpoch⟩ :=
          inductionHypothesis next nextUpTo
        rw [epoch] at restSafely finalSettled finalEpoch
        dsimp only
        rw [executeAll_append, ← CountStat.endOfRound_succ]
        exact ⟨safely.append restSafely, final, by omega, finalSettled, finalEpoch⟩
      · exact ⟨Safely.nil settled.consistent, rounds, Nat.le_refl _, settled, rfl⟩

/-- The time that the loop fills to is not after the last fill of any dependency. -/
theorem dependencyFillTime_upTo {dependencies : List String} {fillToTime limit : Int}
    (found : dependencyFillTime stats db dependencies fillToTime = .ok (some limit)) :
    limit ≤ fillToTime ∧ ∀ source ∈ stats.stats, source.property ∈ dependencies →
      ∃ lastFill, db.lastSuccessfulFill source = some lastFill ∧ limit ≤ lastFill := by
  induction dependencies generalizing fillToTime with
  | nil =>
      rw [dependencyFillTime, Except.ok.injEq, Option.some.injEq] at found
      exact ⟨Int.le_of_eq found.symm, fun _ _ none => absurd none List.not_mem_nil⟩
  | cons dependency rest inductionHypothesis =>
      unfold dependencyFillTime at found
      split at found
      · simp at found
      · rename_i stat isStat
        split at found
        · simp at found
        · rename_i lastFill isLast
          obtain ⟨bounded, others⟩ := inductionHypothesis found
          refine ⟨by omega, fun source member listed => ?_⟩
          rcases List.mem_cons.mp listed with same | later
          · have property : stat.property = dependency := by
              simpa using List.find?_some isStat
            rw [stats.eq_of_property member (List.mem_of_find?_eq_some isStat)
              (same.trans property.symm)]
            exact ⟨lastFill, isLast, by omega⟩
          · exact others source member later

/-- A run of `process_count_stat` keeps the invariant after every statement, and settles the
stat when it completes. -/
theorem Consistent.processCountStat (consistent : Consistent stats db)
    (member : stat ∈ stats.stats) (fillToTime : DateTime) :
    let plan := processCountStat stats db stat fillToTime
    Safely Database.execute (Consistent stats) db plan.writes ∧
      (plan.failure = none → ∃ rounds,
        Settled stats stat (executeAll Database.execute db plan.writes) rounds ∧
        ∀ lastFill, db.lastSuccessfulFill stat = some lastFill →
          lastFill ≤ stat.endOfRound
            (executeAll Database.execute db plan.writes).installationEpoch rounds) := by
  obtain ⟨undone, rounds, settled, currentlyFilled, epoch, sameLast⟩ := consistent.recover member
  intro plan
  have planIs : plan = Analytics.processCountStat stats db stat fillToTime := rfl
  unfold Analytics.processCountStat at planIs
  split at planIs
  · rw [planIs]
    exact ⟨Safely.nil consistent, by simp⟩
  · split at planIs
    · rw [planIs]
      exact ⟨Safely.nil consistent, by simp⟩
    · dsimp only at planIs
      split at planIs
      · rw [planIs]
        exact ⟨undone, by simp⟩
      · rw [planIs]
        refine ⟨undone, fun _ => ⟨rounds, settled, fun lastFill found => ?_⟩⟩
        rw [epoch]
        exact Int.le_of_eq (sameLast lastFill found)
      · rename_i limit isLimit
        rw [currentlyFilled, ← CountStat.endOfRound_succ] at planIs
        obtain ⟨filling, final, later, finalSettled, finalEpoch⟩ := settled.fillLoop
          ((limit - stat.endOfRound db.installationEpoch (rounds + 1)) / stat.timeIncrement +
            1).toNat member (dependencyFillTime_upTo isLimit).2
        rw [epoch] at filling finalSettled finalEpoch
        rw [planIs]
        refine ⟨undone.append filling, fun _ => ?_⟩
        rw [executeAll_append]
        refine ⟨final, finalSettled, fun lastFill found => ?_⟩
        rw [finalEpoch, sameLast lastFill found, CountStat.endOfRound_le_iff]
        exact later

end Invariant

/-! ## All runs -/

/-- A run of `process_count_stat` that is killed after some of its statements, or completes. -/
structure StatRun where
  stat : CountStat
  fillToTime : DateTime
  statements : Nat

/-- The database that a run leaves. -/
def StatRun.leaves (run : StatRun) (stats : CountStats) (db : Database) : Database :=
  executeAll Database.execute db
    ((processCountStat stats db run.stat run.fillToTime).writes.take run.statements)

/-- One run of a registered stat. -/
inductive StatRun.Step (stats : CountStats) : Database → StatRun → Database → Prop where
  | run {db : Database} (run : StatRun) (registered : run.stat ∈ stats.stats) :
      StatRun.Step stats db run (run.leaves stats db)

/-- Nothing was filled yet. -/
structure Fresh (stats : CountStats) (db : Database) : Prop where
  fillStates : ∀ stat ∈ stats.stats, db.fillStates.get? stat.property = none
  rows : ∀ stat ∈ stats.stats, ∀ table ∈ stat.generatedTables, ∀ endTime,
    db.rowsAt table stat.property endTime = []

section Runs

variable {stats : CountStats} {stat : CountStat} {start db : Database}
  {trace : List (Database × StatRun)}

theorem Fresh.consistent (fresh : Fresh stats start) : Consistent stats start := by
  constructor
  · intro stat member
    refine ⟨0, ?_, by simp, fun time _ _ table generated => fresh.rows stat member table
      generated time⟩
    rw [fresh.fillStates stat member]
    exact Reached.absent
  · intro stat member lastFill found
    have present := lastSuccessfulFill_isSome found
    rw [fresh.fillStates stat member] at present
    simp at present

theorem StatRun.Step.consistent {run : StatRun} {next : Database}
    (consistent : Consistent stats db) (step : StatRun.Step stats db run next) :
    Consistent stats next := by
  cases step with
  | run registered =>
      exact (consistent.processCountStat registered run.fillToTime).1.take run.statements

/-- The fill state of a consistent database is at the end of a round. -/
theorem Consistent.endTime_of_fillState (consistent : Consistent stats db)
    (member : stat ∈ stats.stats) {fillState : FillState}
    (found : db.fillStates.get? stat.property = some fillState) :
    ∃ round, fillState.endTime = stat.endOfRound db.installationEpoch round := by
  obtain ⟨rounds, progress⟩ := consistent.progress stat member
  have reached := progress.reached
  rw [found] at reached
  cases reached with
  | done => exact ⟨rounds, rfl⟩
  | started => exact ⟨rounds + 1, rfl⟩

/-- Every statement of a run updates the fill state of the stat or concerns its rows. -/
theorem mem_processCountStat {write : Write} {fillToTime : DateTime}
    (member : write ∈ (processCountStat stats db stat fillToTime).writes) :
    (∃ endTime state, write = .updateFillState stat.property endTime state) ∨
      ∃ endTime, write.Within stat endTime := by
  have recovering : ∀ write ∈ (recover db stat).1,
      (∃ endTime state, write = .updateFillState stat.property endTime state) ∨
        ∃ endTime, write.Within stat endTime := by
    intro write listed
    unfold recover at listed
    split at listed
    · exact Or.inl ⟨_, _, List.mem_singleton.mp listed⟩
    · split at listed
      · rcases List.mem_append.mp listed with deletes | update
        · exact Or.inr ⟨_, rowWrites_within (List.mem_append_left _ deletes)⟩
        · exact Or.inl ⟨_, _, List.mem_singleton.mp update⟩
      · simp at listed
  have looping : ∀ limit count currentlyFilled, ∀ write ∈ fillLoop stat limit count currentlyFilled,
      (∃ endTime state, write = .updateFillState stat.property endTime state) ∨
        ∃ endTime, write.Within stat endTime := by
    intro limit count
    induction count with
    | zero => simp [fillLoop]
    | succ count inductionHypothesis =>
        intro currentlyFilled write listed
        unfold fillLoop at listed
        split at listed
        · rcases List.mem_append.mp listed with round | later
          · rcases List.mem_append.mp round with first | last
            · rcases List.mem_cons.mp first with started | fills
              · exact Or.inl ⟨_, _, started⟩
              · exact Or.inr ⟨_, rowWrites_within (List.mem_append_right _ fills)⟩
            · exact Or.inl ⟨_, _, List.mem_singleton.mp last⟩
          · exact inductionHypothesis _ write later
        · simp at listed
  unfold processCountStat at member
  split at member
  · simp at member
  · split at member
    · simp at member
    · dsimp only at member
      split at member
      · exact recovering write member
      · exact recovering write member
      · rcases List.mem_append.mp member with undo | fills
        · exact recovering write undo
        · exact looping _ _ _ write fills

/-- The realms and the logged rows are those of the start. -/
structure SameLogs (stats : CountStats) (start db : Database) : Prop where
  realms : db.realms = start.realms
  rows : ∀ stat ∈ stats.stats, ∀ table ∉ stat.generatedTables, ∀ endTime,
    db.rowsAt table stat.property endTime = start.rowsAt table stat.property endTime

theorem SameLogs.processCountStat (same : SameLogs stats start db)
    (registered : stat ∈ stats.stats) (fillToTime : DateTime) (count : Nat) :
    SameLogs stats start (executeAll Database.execute db
      ((processCountStat stats db stat fillToTime).writes.take count)) := by
  refine executeAll_preserves (SameLogs stats start) ?_ same
  intro write member state before
  rcases mem_processCountStat (List.mem_of_mem_take member) with ⟨_, _, rfl⟩ | ⟨endTime, within⟩
  · exact ⟨before.realms, before.rows⟩
  · refine ⟨(within.realms state).trans before.realms, ?_⟩
    intro other otherRegistered table notGenerated time
    refine (within.rows state table _ _ fun place => notGenerated ?_).trans
      (before.rows other otherRegistered table notGenerated time)
    rw [stats.eq_of_property otherRegistered registered place.2.1]
    exact place.1

theorem StatRun.Step.sameLogs {run : StatRun} {next : Database}
    (same : SameLogs stats start db) (step : StatRun.Step stats db run next) :
    SameLogs stats start next := by
  cases step with
  | run registered => exact same.processCountStat registered run.fillToTime run.statements

/-- Whatever runs were killed before, a completed run leaves the fill state done at the end of a
round, the rows of one single fill of the same sources at the end of every round up to it, and
no other rows; and the fill state has only ever been at the end of a round. -/
theorem processCountStat_exactlyOnce (fresh : Fresh stats start)
    (runs : Run (StatRun.Step stats) start trace db) (registered : stat ∈ stats.stats)
    {fillToTime : DateTime}
    (completes : (processCountStat stats db stat fillToTime).failure = none) :
    let after := executeAll Database.execute db (processCountStat stats db stat fillToTime).writes
    SameLogs stats start after ∧ ∃ rounds,
      after.fillStates.get? stat.property =
        some ⟨stat.endOfRound after.installationEpoch rounds, .done⟩ ∧
      (∀ endTime ∈ stat.filledTimes after.installationEpoch rounds,
        ∀ table ∈ stat.generatedTables, after.rowsAt table stat.property endTime =
          (after.filledAt stat endTime).rowsAt table stat.property endTime) ∧
      (∀ endTime ∉ stat.filledTimes after.installationEpoch rounds,
        ∀ table ∈ stat.generatedTables, after.rowsAt table stat.property endTime = []) ∧
      (∀ lastFill, db.lastSuccessfulFill stat = some lastFill →
        lastFill ≤ stat.endOfRound after.installationEpoch rounds) ∧
      ∀ visited ∈ trace.map Prod.fst ++ [db], ∀ run : StatRun, run.stat ∈ stats.stats →
        ∀ fillState, (run.leaves stats visited).fillStates.get? stat.property = some fillState →
          ∃ round, fillState.endTime =
            stat.endOfRound (run.leaves stats visited).installationEpoch round := by
  intro after
  have consistent : Consistent stats db :=
    runs.invariant fresh.consistent fun before step => step.consistent before
  have sameLogs : SameLogs stats start db :=
    runs.invariant ⟨rfl, fun _ _ _ _ _ => rfl⟩ fun before step => step.sameLogs before
  obtain ⟨rounds, settled, forward⟩ :=
    (consistent.processCountStat registered fillToTime).2 completes
  have afterLogs := sameLogs.processCountStat registered fillToTime
    (processCountStat stats db stat fillToTime).writes.length
  rw [List.take_length] at afterLogs
  refine ⟨afterLogs, rounds, settled.fillState, ?_, ?_, forward, ?_⟩
  · intro endTime filled
    exact settled.progress.filled endTime filled (settled.not_pending endTime)
  · intro endTime unfilled
    exact settled.progress.unfilled endTime unfilled (settled.not_pending endTime)
  · intro visited isVisited run runRegistered fillState found
    have before : Consistent stats visited := runs.visited fresh.consistent
      (fun before step => step.consistent before) visited isVisited
    exact (StatRun.Step.consistent before (StatRun.Step.run run runRegistered)).endTime_of_fillState
      registered found

/-- Two users of one realm who were active each day. -/
def fifteenDayActives : CountStat :=
  ⟨"15day_actives::day", .userCount, some fun _ _ _ => [⟨⟨1, 1⟩, none, 1⟩, ⟨⟨2, 1⟩, none, 1⟩],
    .day, 15 * day, [], by decide, by decide, by decide⟩

/-- The stat that counts them in their realm. -/
def realmActiveHumans : CountStat :=
  ⟨"realm_active_humans::day", .realmCount,
    some fun actives _ _ => [⟨⟨0, 1⟩, none, (actives.flatten.map BaseCount.value).sum⟩],
    .day, day, ["15day_actives::day"], by decide, by decide, by decide⟩

/-- Both of them, in order. -/
def activeStats : CountStats where
  stats := [fifteenDayActives, realmActiveHumans]
  distinct := by decide
  ordered := by
    intro before stat after split dependency member
    rcases before with _ | ⟨first, _ | ⟨second, rest⟩⟩
    · rw [List.nil_append, List.cons.injEq] at split
      rw [← split.1] at member
      simp [fifteenDayActives] at member
    · rw [List.singleton_append, List.cons.injEq, List.cons.injEq] at split
      rw [← split.2.1] at member
      rw [← split.1]
      exact member
    · simp at split

/-- An installation that starts at time 0. -/
def newInstallation : Database := ⟨fun _ => [], Dict.empty, [1], 0⟩

/-- The first stat was killed in its second day. -/
def killedInstallation : Database :=
  StatRun.leaves ⟨fifteenDayActives, ⟨2 * day, some 0⟩, 8⟩ activeStats newInstallation

/-- After that, the dependent stat is filled. -/
theorem processCountStat_exactlyOnce_killed :
    let after := executeAll Database.execute killedInstallation (processCountStat activeStats
      killedInstallation realmActiveHumans ⟨2 * day, some 0⟩).writes
    ∃ rounds, after.fillStates.get? realmActiveHumans.property =
        some ⟨realmActiveHumans.endOfRound after.installationEpoch rounds, .done⟩ ∧
      ∀ endTime ∈ realmActiveHumans.filledTimes after.installationEpoch rounds,
        ∀ table ∈ realmActiveHumans.generatedTables,
          after.rowsAt table realmActiveHumans.property endTime =
            (after.filledAt realmActiveHumans endTime).rowsAt table realmActiveHumans.property
              endTime := by
  have fresh : Fresh activeStats newInstallation :=
    ⟨fun _ _ => rfl, fun _ _ _ _ _ => rfl⟩
  have run : Run (StatRun.Step activeStats) newInstallation
      [(newInstallation, ⟨fifteenDayActives, ⟨2 * day, some 0⟩, 8⟩)] killedInstallation :=
    Run.step Run.refl (StatRun.Step.run _ List.mem_cons_self)
  obtain ⟨_, rounds, fillState, filled, _⟩ := processCountStat_exactlyOnce fresh run
    (List.mem_cons_of_mem _ List.mem_cons_self)
    (show (processCountStat activeStats killedInstallation realmActiveHumans
      ⟨2 * day, some 0⟩).failure = none by decide +kernel)
  exact ⟨rounds, fillState, filled⟩

end Runs

end Zulip.Analytics
