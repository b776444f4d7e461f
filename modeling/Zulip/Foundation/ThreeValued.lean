import Mathlib.Data.List.Perm.Basic

/-!
# Queries with three-valued conditions

A condition of a query is true, false or unknown: `none` is SQL's NULL. A row is selected when
every condition is true of it. `Known` conditions are those that are never unknown; the negation of
a known condition selects the complement.
-/

namespace Zulip

universe u v

/-- The value of a condition. -/
abbrev Truth := Option Bool

namespace Truth

/-- `NOT`. -/
def not (truth : Truth) : Truth := truth.map Bool.not

/-- `AND`: false as soon as one side is false. -/
def and : Truth → Truth → Truth
  | some true, right => right
  | some false, _ => some false
  | none, some false => some false
  | none, _ => none

/-- `OR`: true as soon as one side is true. -/
def or : Truth → Truth → Truth
  | some false, right => right
  | some true, _ => some true
  | none, some true => some true
  | none, _ => none

@[simp] theorem not_some (value : Bool) : not (some value) = some !value := rfl

@[simp] theorem not_none : not none = none := rfl

@[simp] theorem and_some (left right : Bool) :
    and (some left) (some right) = some (left && right) := by
  cases left <;> rfl

@[simp] theorem or_some (left right : Bool) :
    or (some left) (some right) = some (left || right) := by
  cases left <;> rfl

/-- Where the truth is known, the negation is true exactly when the condition is not. -/
theorem not_eq_true_iff {truth : Truth} (known : truth ≠ none) :
    truth.not = some true ↔ truth ≠ some true := by
  rcases truth with _ | _ | _
  · exact absurd rfl known
  · decide
  · decide

theorem and_eq_true_iff {left right : Truth} :
    left.and right = some true ↔ left = some true ∧ right = some true := by
  rcases left with _ | _ | _ <;> rcases right with _ | _ | _ <;> decide

theorem or_eq_true_iff {left right : Truth} :
    left.or right = some true ↔ left = some true ∨ right = some true := by
  rcases left with _ | _ | _ <;> rcases right with _ | _ | _ <;> decide

theorem not_ne_none {truth : Truth} : truth.not ≠ none ↔ truth ≠ none := by
  rcases truth with _ | _ <;> simp

theorem and_ne_none {left right : Truth} (leftKnown : left ≠ none) (rightKnown : right ≠ none) :
    left.and right ≠ none := by
  rcases left with _ | _ | _ <;> rcases right with _ | _ | _ <;> simp_all [and]

theorem or_ne_none {left right : Truth} (leftKnown : left ≠ none) (rightKnown : right ≠ none) :
    left.or right ≠ none := by
  rcases left with _ | _ | _ <;> rcases right with _ | _ | _ <;> simp_all [or]

end Truth

/-- A query: the rows that it reads and the conditions that were put on them so far. -/
structure Select (Row : Type u) (Clause : Type v) where
  source : List Row
  conditions : List Clause := []

namespace Select

variable {Row : Type u} {Clause : Type v} {eval : Clause → Row → Truth}
  {query : Select Row Clause} {row : Row}

/-- Add a condition. -/
def filterBy (query : Select Row Clause) (condition : Clause) : Select Row Clause :=
  { query with conditions := query.conditions ++ [condition] }

/-- Add several conditions. -/
def filterByAll (query : Select Row Clause) (conditions : List Clause) : Select Row Clause :=
  { query with conditions := query.conditions ++ conditions }

@[simp] theorem filterByAll_nil : query.filterByAll [] = query := by
  simp [filterByAll]

@[simp] theorem filterByAll_singleton (condition : Clause) :
    query.filterByAll [condition] = query.filterBy condition := rfl

@[simp] theorem filterByAll_filterByAll (first second : List Clause) :
    (query.filterByAll first).filterByAll second = query.filterByAll (first ++ second) := by
  simp [filterByAll]

@[simp] theorem source_filterBy (condition : Clause) :
    (query.filterBy condition).source = query.source := rfl

@[simp] theorem conditions_filterBy (condition : Clause) :
    (query.filterBy condition).conditions = query.conditions ++ [condition] := rfl

@[simp] theorem source_filterByAll (conditions : List Clause) :
    (query.filterByAll conditions).source = query.source := rfl

@[simp] theorem conditions_filterByAll (conditions : List Clause) :
    (query.filterByAll conditions).conditions = query.conditions ++ conditions := rfl

/-- Whether all conditions are true of a row. -/
def selects (eval : Clause → Row → Truth) (query : Select Row Clause) (row : Row) : Bool :=
  query.conditions.all fun condition => eval condition row = some true

theorem selects_iff :
    query.selects eval row ↔ ∀ condition ∈ query.conditions, eval condition row = some true := by
  simp [selects]

/-- The rows that the query returns. -/
def rows (eval : Clause → Row → Truth) (query : Select Row Clause) : List Row :=
  query.source.filter (query.selects eval)

theorem mem_rows : row ∈ query.rows eval ↔
    row ∈ query.source ∧ ∀ condition ∈ query.conditions, eval condition row = some true := by
  rw [rows, List.mem_filter, selects_iff]

/-- More conditions only take rows away. -/
theorem rows_filterByAll_sublist (conditions : List Clause) :
    ((query.filterByAll conditions).rows eval).Sublist (query.rows eval) := by
  refine List.monotone_filter_right query.source fun row selected => ?_
  rw [selects_iff] at selected ⊢
  exact fun condition member => selected condition (List.mem_append_left _ member)

/-- Neither the order of the conditions nor their repetition matters. -/
theorem rows_congr {other : Select Row Clause} (sameSource : query.source = other.source)
    (sameConditions : ∀ condition, condition ∈ query.conditions ↔ condition ∈ other.conditions) :
    query.rows eval = other.rows eval := by
  rw [rows, rows, sameSource]
  refine List.filter_congr fun row _ => ?_
  rw [Bool.eq_iff_iff, selects_iff, selects_iff]
  exact forall_congr' fun condition => by rw [sameConditions]

end Select

end Zulip
