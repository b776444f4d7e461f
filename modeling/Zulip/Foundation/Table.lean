import Mathlib.Data.List.Induction
import Zulip.Foundation.Dict

/-!
# Tables that rows are moved between

A table is a dictionary of rows by id. `copyMissing` is a query that inserts the rows of one table
into another and leaves out those whose id is taken; a row that breaks another unique constraint
is an error. `Moved` relates two such tables to the one whose rows they share.
-/

namespace Zulip

universe u v w

/-- The rows of one table that are among some, and whose ids are not taken, are added to another
table. -/
def Copied {Id : Type u} {Row : Type v} (source table after : Id → Option Row)
    (among : Id → Row → Prop) : Prop :=
  ∀ id row, after id = some row ↔
    table id = some row ∨ table id = none ∧ source id = some row ∧ among id row

namespace Copied

variable {Id : Type u} {Row : Type v} {source table between after : Id → Option Row}
  {first second : Id → Row → Prop}

theorem refl (source table : Id → Option Row) : Copied source table table fun _ _ => False :=
  fun id row => by simp

/-- Rows of two kinds are copied one kind after the other. -/
theorem trans (before : Copied source table between first) (later : Copied source between after second) :
    Copied source table after fun id row => first id row ∨ second id row := by
  intro id row
  have absentIff : between id = none ↔
      table id = none ∧ ∀ other, source id = some other → ¬first id other := by
    rw [Option.eq_none_iff_forall_ne_some, Option.eq_none_iff_forall_ne_some]
    simp only [ne_eq, before id, not_or, not_and]
    constructor
    · intro absent
      have tableAbsent : ∀ other, table id ≠ some other := fun other => (absent other).1
      exact ⟨tableAbsent, fun other =>
        (absent other).2 (Option.eq_none_iff_forall_ne_some.mpr tableAbsent)⟩
    · rintro ⟨tableAbsent, noFirst⟩ other
      exact ⟨tableAbsent other, fun _ => noFirst other⟩
  rw [later, before, absentIff]
  constructor
  · rintro ((isThere | ⟨absent, stored, isFirst⟩) | ⟨⟨absent, -⟩, stored, isSecond⟩)
    · exact .inl isThere
    · exact .inr ⟨absent, stored, .inl isFirst⟩
    · exact .inr ⟨absent, stored, .inr isSecond⟩
  · rintro (isThere | ⟨absent, stored, isAmong⟩)
    · exact .inl (.inl isThere)
    · by_cases isFirst : first id row
      · exact .inl (.inr ⟨absent, stored, isFirst⟩)
      · refine .inr ⟨⟨absent, fun other isOther => ?_⟩, stored, isAmong.resolve_left isFirst⟩
        rw [stored, Option.some.injEq] at isOther
        rwa [← isOther]

theorem congr (copied : Copied source table after first)
    (same : ∀ id row, source id = some row → (first id row ↔ second id row)) :
    Copied source table after second := by
  intro id row
  rw [copied]
  constructor
  · rintro (isThere | ⟨absent, stored, isFirst⟩)
    · exact .inl isThere
    · exact .inr ⟨absent, stored, (same id row stored).mp isFirst⟩
  · rintro (isThere | ⟨absent, stored, isSecond⟩)
    · exact .inl isThere
    · exact .inr ⟨absent, stored, (same id row stored).mpr isSecond⟩

/-- A row that is copied is there afterwards, unless its id is taken. -/
theorem ne_none (copied : Copied source table after first) {id : Id} {row : Row}
    (stored : source id = some row) (isAmong : first id row) : after id ≠ none := by
  intro absent
  have never := Option.eq_none_iff_forall_ne_some.mp absent
  cases isThere : table id with
  | some other => exact never other ((copied id other).mpr (.inl isThere))
  | none => exact never row ((copied id row).mpr (.inr ⟨isThere, stored, isAmong⟩))

end Copied

namespace Dict

variable {K : Type u} {V : Type v} {W : Type w}

/-! ## Rows of a query -/

/-- Keep some of the entries. -/
def filter (dict : Dict K V) (keep : K → V → Bool) : Dict K V :=
  ⟨dict.entries.filter fun entry => keep entry.1 entry.2,
    dict.nodupKeys.sublist (List.filter_sublist.map Prod.fst)⟩

/-- Change every value. -/
def mapValues (dict : Dict K V) (f : V → W) : Dict K W :=
  ⟨dict.entries.map fun entry => (entry.1, f entry.2), by
    rw [List.map_map]
    exact dict.nodupKeys⟩

variable [DecidableEq K]

theorem get?_filter {dict : Dict K V} {keep : K → V → Bool} {key : K} {value : V} :
    (dict.filter keep).get? key = some value ↔
      dict.get? key = some value ∧ keep key value = true := by
  rw [get?_eq_some_iff, get?_eq_some_iff]
  exact List.mem_filter

theorem get?_mapValues {dict : Dict K V} {f : V → W} {key : K} {value : W} :
    (dict.mapValues f).get? key = some value ↔ ∃ source, dict.get? key = some source ∧
      f source = value := by
  rw [get?_eq_some_iff]
  simp only [mapValues, List.mem_map, Prod.mk.injEq, get?_eq_some_iff]
  constructor
  · rintro ⟨entry, member, rfl, same⟩
    exact ⟨entry.2, member, same⟩
  · rintro ⟨source, member, same⟩
    exact ⟨(key, source), member, rfl, same⟩

theorem get?_mapValues_eq (dict : Dict K V) (f : V → W) (key : K) :
    (dict.mapValues f).get? key = (dict.get? key).map f := by
  ext value
  rw [get?_mapValues, Option.map_eq_some_iff]

omit [DecidableEq K] in
theorem values_mapValues (dict : Dict K V) (f : V → W) :
    (dict.mapValues f).values = dict.values.map f := by
  simp [mapValues, values]

omit [DecidableEq K] in
theorem mapValues_mapValues {X : Type*} (dict : Dict K V) (f : V → W) (g : W → X) :
    (dict.mapValues f).mapValues g = dict.mapValues (g ∘ f) := by
  simp [mapValues]

/-- Values that are not changed. -/
theorem mapValues_of_fixed {dict : Dict K V} {f : V → V}
    (fixed : ∀ key value, dict.get? key = some value → f value = value) :
    dict.mapValues f = dict := by
  obtain ⟨entries, nodupKeys⟩ := dict
  unfold mapValues
  congr 1
  refine (List.map_congr_left fun entry member => ?_).trans (List.map_id entries)
  exact Prod.ext rfl (fixed entry.1 entry.2 (get?_eq_some_iff.mpr member))

/-! ## Copying rows -/

section Copy

variable {clash : V → V → Bool} {table after source : Dict K V}

/-- Insert a row unless its id is taken. -/
def insertMissing (clash : V → V → Bool) (table : Dict K V) (row : K × V) : Option (Dict K V) :=
  if row.1 ∈ table.keys then some table
  else if table.entries.any fun entry => clash entry.2 row.2 then none
  else some (table.set row.1 row.2)

/-- Insert the rows of a query whose ids are not taken. -/
def copyMissing (clash : V → V → Bool) (source table : Dict K V) (keep : K → V → Bool) :
    Option (Dict K V) :=
  (source.filter keep).entries.foldlM (insertMissing clash) table

theorem get?_insertMissing {row : K × V} (inserted : table.insertMissing clash row = some after)
    {key : K} {value : V} :
    after.get? key = some value ↔
      table.get? key = some value ∨ table.get? key = none ∧ (key, value) = row := by
  unfold insertMissing at inserted
  split at inserted
  case isTrue taken =>
    cases inserted
    constructor
    · exact .inl
    · rintro (found | ⟨absent, rfl⟩)
      · exact found
      · exact absurd taken (get?_eq_none_iff.mp absent)
  case isFalse free =>
    split at inserted
    · cases inserted
    · cases inserted
      rw [get?_set]
      by_cases same : key = row.1
      · subst same
        have absent := get?_eq_none_iff.mpr free
        simp [absent, Prod.ext_iff, eq_comm]
      · simp [same, Prod.ext_iff]

theorem get?_foldlM_insertMissing {rows : List (K × V)} (distinct : (rows.map Prod.fst).Nodup)
    (inserted : rows.foldlM (insertMissing clash) table = some after) {key : K} {value : V} :
    after.get? key = some value ↔
      table.get? key = some value ∨ table.get? key = none ∧ (key, value) ∈ rows := by
  induction rows generalizing table with
  | nil =>
    cases inserted
    simp
  | cons row rest inductionHypothesis =>
    rw [List.map_cons, List.nodup_cons] at distinct
    rw [List.foldlM_cons, Option.bind_eq_bind, Option.bind_eq_some_iff] at inserted
    obtain ⟨between, first, others⟩ := inserted
    have absentIff : between.get? key = none ↔ table.get? key = none ∧ key ≠ row.1 := by
      rw [Option.eq_none_iff_forall_ne_some, Option.eq_none_iff_forall_ne_some]
      simp only [ne_eq, get?_insertMissing first, not_or, not_and]
      constructor
      · intro absent
        have tableAbsent : ∀ value, table.get? key ≠ some value := fun value => (absent value).1
        refine ⟨tableAbsent, fun same => ?_⟩
        exact (absent row.2).2 (Option.eq_none_iff_forall_ne_some.mpr tableAbsent)
          (Prod.ext same rfl)
      · rintro ⟨absent, differs⟩ value
        exact ⟨absent value, fun _ same => differs (congrArg Prod.fst same)⟩
    rw [inductionHypothesis distinct.2 others, get?_insertMissing first, absentIff, List.mem_cons]
    have onlyFirst : (key, value) ∈ rest → key ≠ row.1 := by
      rintro member rfl
      exact distinct.1 (List.mem_map.mpr ⟨_, member, rfl⟩)
    tauto

/-- Copying adds the rows of the query whose ids are not taken. -/
theorem copied_of_copyMissing {keep : K → V → Bool}
    (copied : copyMissing clash source table keep = some after) :
    Copied source.get? table.get? after.get? fun key value => keep key value = true := by
  intro key value
  rw [get?_foldlM_insertMissing (source.filter keep).nodupKeys copied, ← get?_eq_some_iff,
    get?_filter]

/-- Copying succeeds when the rows of both tables meet the unique constraints together. -/
theorem exists_copyMissing {keep : K → V → Bool}
    (apart : ∀ key row other otherRow, source.get? key = some row → keep key row = true →
      (table.get? other = some otherRow ∨
        source.get? other = some otherRow ∧ keep other otherRow = true) →
      other ≠ key → clash otherRow row = false) :
    ∃ after, copyMissing clash source table keep = some after := by
  have inserts : ∀ (rows : List (K × V)) (table : Dict K V),
      (∀ row ∈ rows, ∀ other otherRow,
        (table.get? other = some otherRow ∨ (other, otherRow) ∈ rows) → other ≠ row.1 →
          clash otherRow row.2 = false) →
      ∃ after, rows.foldlM (insertMissing clash) table = some after := by
    intro rows
    induction rows with
    | nil => exact fun table _ => ⟨table, rfl⟩
    | cons row rest inductionHypothesis =>
      intro table apart
      have first : ∃ between, insertMissing clash table row = some between := by
        unfold insertMissing
        split
        case isTrue => exact ⟨table, rfl⟩
        case isFalse free =>
          have noClash : (table.entries.any fun entry => clash entry.2 row.2) = false := by
            rw [List.any_eq_false]
            intro entry member
            have stored := get?_eq_some_iff.mpr member
            have differs : entry.1 ≠ row.1 := by
              intro same
              rw [same] at stored
              exact free (mem_keys_of_get? stored)
            rw [Bool.not_eq_true]
            exact apart row List.mem_cons_self entry.1 entry.2 (.inl stored) differs
          rw [if_neg (by rw [noClash]; exact Bool.false_ne_true)]
          exact ⟨_, rfl⟩
      obtain ⟨between, inserted⟩ := first
      obtain ⟨after, others⟩ := inductionHypothesis between (by
        intro later member other otherRow stored differs
        refine apart later (List.mem_cons_of_mem _ member) other otherRow ?_ differs
        rcases stored with present | listed
        · rcases (get?_insertMissing inserted).mp present with before | ⟨-, rfl⟩
          · exact .inl before
          · exact .inr List.mem_cons_self
        · exact .inr (List.mem_cons_of_mem _ listed))
      refine ⟨after, ?_⟩
      rw [List.foldlM_cons, inserted]
      exact others
  refine inserts _ table ?_
  intro row member other otherRow stored differs
  have found := get?_filter.mp (get?_eq_some_iff.mpr member)
  refine apart row.1 row.2 other otherRow found.1 found.2 ?_ differs
  rcases stored with present | listed
  · exact .inl present
  · exact .inr (get?_filter.mp (get?_eq_some_iff.mpr listed))

/-! ## Inserting or updating rows -/

variable {archive : Dict K W} {insert : V → W} {update : W → W}

/-- Insert the rows of a table; a row whose id is taken updates the row that is there. -/
def upsert (source : Dict K V) (table : Dict K W) (insert : V → W) (update : W → W) : Dict K W :=
  source.entries.foldl (fun table entry =>
    table.set entry.1 (((table.get? entry.1).map update).getD (insert entry.2))) table

theorem get?_upsert_of_none {key : K} (absent : source.get? key = none) :
    (source.upsert archive insert update).get? key = archive.get? key := by
  have folds : ∀ (rows : List (K × V)) (archive : Dict K W), key ∉ rows.map Prod.fst →
      (rows.foldl (fun table entry =>
        table.set entry.1 (((table.get? entry.1).map update).getD (insert entry.2)))
          archive).get? key = archive.get? key := by
    intro rows
    induction rows with
    | nil => exact fun _ _ => rfl
    | cons row rest inductionHypothesis =>
      intro archive absent
      rw [List.map_cons, List.mem_cons, not_or] at absent
      rw [List.foldl_cons, inductionHypothesis _ absent.2, get?_set_ne _ _ absent.1]
  exact folds _ _ (get?_eq_none_iff.mp absent)

theorem get?_upsert_of_some {key : K} {value : V} (found : source.get? key = some value) :
    (source.upsert archive insert update).get? key =
      some (((archive.get? key).map update).getD (insert value)) := by
  have folds : ∀ (rows : List (K × V)) (archive : Dict K W), (rows.map Prod.fst).Nodup →
      (key, value) ∈ rows →
      (rows.foldl (fun table entry =>
        table.set entry.1 (((table.get? entry.1).map update).getD (insert entry.2)))
          archive).get? key = some (((archive.get? key).map update).getD (insert value)) := by
    intro rows
    induction rows using List.reverseRecOn with
    | nil => exact fun _ _ member => absurd member List.not_mem_nil
    | append_singleton rows row inductionHypothesis =>
      intro archive distinct member
      rw [List.map_append, List.map_singleton, List.nodup_append'] at distinct
      obtain ⟨rowsDistinct, -, disjoint⟩ := distinct
      rw [List.foldl_append, List.foldl_cons, List.foldl_nil]
      rcases List.mem_append.mp member with earlier | last
      · have differs : key ≠ row.1 := by
          rintro rfl
          exact disjoint (List.mem_map.mpr ⟨_, earlier, rfl⟩) (List.mem_singleton_self _)
        rw [get?_set_ne _ _ differs, inductionHypothesis archive rowsDistinct earlier]
      · rw [← List.mem_singleton.mp last] at disjoint ⊢
        rw [get?_set_self]
        congr 3
        have absent : key ∉ rows.map Prod.fst := fun listed =>
          disjoint listed (List.mem_singleton_self _)
        have unchanged := @get?_upsert_of_none K V W _ ⟨rows, rowsDistinct⟩ archive insert update
          key (get?_eq_none_iff.mpr absent)
        exact unchanged
  exact folds _ _ source.nodupKeys (get?_eq_some_iff.mp found)

end Copy

end Dict

/-! ## Rows that have moved -/

section Moved

variable {Id : Type u} {Row : Type v} {Owner : Type w}

/-- The rows of some owners have moved from one table to another: the first has exactly the other
rows, and the second has exactly their rows of these owners. -/
structure Moved (owner : Id → Row → Owner) (original live archive : Id → Option Row)
    (moved : Owner → Prop) : Prop where
  live : ∀ id row, live id = some row ↔ original id = some row ∧ ¬moved (owner id row)
  archived : ∀ id row, moved (owner id row) → (archive id = some row ↔ original id = some row)

/-- What the second table has of some owners is what the first one has. -/
def NotStale (owner : Id → Row → Owner) (live archive : Id → Option Row)
    (owners : Owner → Prop) : Prop :=
  ∀ id row, archive id = some row → owners (owner id row) → live id = some row

/-- A row has the same owner in both tables. -/
def SameOwner (owner : Id → Row → Owner) (live archive : Id → Option Row) : Prop :=
  ∀ id row archived, live id = some row → archive id = some archived →
    owner id row = owner id archived

namespace Moved

variable {owner : Id → Row → Owner} {original live archive nextLive nextArchive : Id → Option Row}
  {moved owners : Owner → Prop}

/-- At first nothing has moved. -/
theorem start (none : ∀ row, ¬moved row) : Moved owner live live archive moved where
  live id row := by simp [none]
  archived id row isMoved := absurd isMoved (none _)

/-- Moving the rows of more owners, of which the second table has nothing stale. -/
theorem move (before : Moved owner original live archive moved)
    (sameOwner : SameOwner owner live archive) (notStale : NotStale owner live archive owners)
    (apart : ∀ row, owners row → ¬moved row)
    (deleted : ∀ id row, nextLive id = some row ↔ live id = some row ∧ ¬owners (owner id row))
    (copied : Copied live archive nextArchive fun id row => owners (owner id row)) :
    Moved owner original nextLive nextArchive fun row => moved row ∨ owners row where
  live id row := by
    rw [deleted, before.live]
    tauto
  archived id row isMoved := by
    rw [copied id row]
    rcases isMoved with earlier | now
    · have same := before.archived id row earlier
      constructor
      · rintro (stored | ⟨-, -, now⟩)
        · exact same.mp stored
        · exact absurd earlier (apart _ now)
      · exact fun isOriginal => .inl (same.mpr isOriginal)
    · have notMoved := apart _ now
      have liveIff := before.live id row
      constructor
      · rintro (stored | ⟨-, isLive, -⟩)
        · exact (liveIff.mp (notStale id row stored now)).1
        · exact (liveIff.mp isLive).1
      · intro isOriginal
        have isLive := liveIff.mpr ⟨isOriginal, notMoved⟩
        cases stored : archive id with
        | none => exact .inr ⟨rfl, isLive, now⟩
        | some archived =>
          left
          have sameRow := notStale id archived stored (by rwa [← sameOwner id row archived isLive stored])
          rw [isLive] at sameRow
          exact sameRow.symm

/-- Copying the moved rows back gives the original table. -/
theorem restore {after : Id → Option Row} (before : Moved owner original live archive moved)
    (restored : Copied archive live after fun id row => moved (owner id row)) (id : Id) :
    after id = original id := by
  apply Option.ext
  intro row
  rw [restored id row, before.live]
  constructor
  · rintro (⟨isOriginal, -⟩ | ⟨-, stored, isMoved⟩)
    · exact isOriginal
    · exact (before.archived id row isMoved).mp stored
  · intro isOriginal
    by_cases isMoved : moved (owner id row)
    · refine .inr ⟨?_, (before.archived id row isMoved).mpr isOriginal, isMoved⟩
      rw [Option.eq_none_iff_forall_ne_some]
      intro other isLive
      obtain ⟨otherOriginal, notMoved⟩ := (before.live id other).mp isLive
      rw [isOriginal, Option.some.injEq] at otherOriginal
      rw [← otherOriginal] at notMoved
      exact notMoved isMoved
    · exact .inl ⟨isOriginal, isMoved⟩

end Moved

end Moved

/-! ## Facts that are checked row by row -/

section RowByRow

variable {Id : Type u} {Row : Type v} {Owner : Type w} [DecidableEq Id]

theorem Dict.forall_get?_iff {table : Dict Id Row} {Holds : Id → Row → Prop} :
    (∀ id row, table.get? id = some row → Holds id row) ↔
      ∀ entry ∈ table.entries, Holds entry.1 entry.2 := by
  constructor
  · intro holds entry listed
    exact holds entry.1 entry.2 (Dict.get?_eq_some_iff.mpr listed)
  · intro holds id row found
    exact holds (id, row) (Dict.get?_eq_some_iff.mp found)

theorem sameOwner_iff {owner : Id → Row → Owner} {live archive : Dict Id Row} :
    SameOwner owner live.get? archive.get? ↔ ∀ entry ∈ live.entries,
      ∀ archived ∈ archive.get? entry.1, owner entry.1 entry.2 = owner entry.1 archived := by
  have rowByRow := @Dict.forall_get?_iff Id Row _ live fun id row =>
    ∀ archived ∈ archive.get? id, owner id row = owner id archived
  rw [← rowByRow]
  exact forall₂_congr fun id row => forall_comm

theorem notStale_iff {owner : Id → Row → Owner} {live archive : Dict Id Row}
    {owners : Owner → Prop} :
    NotStale owner live.get? archive.get? owners ↔ ∀ entry ∈ archive.entries,
      owners (owner entry.1 entry.2) → live.get? entry.1 = some entry.2 :=
  Dict.forall_get?_iff

end RowByRow

end Zulip
