import Mathlib.Data.Set.Basic
import Mathlib.Order.MinMax
import Zulip.Foundation.Increasing

/-!
# Catching up behind a bound

Some items are due a row, and rows may be missing. A bound says up to where none is. The
rows that are missing can be written in batches, in order, with the bound raised after each:
`Missing.advance` and `Missing.raise` are the two steps of such a run.
-/

namespace Zulip

universe u

variable {κ : Type u} [LinearOrder κ] {due : Set κ} {rows more : List κ}

/-- Every item up to the bound that is due a row has one. -/
def CoveredUpTo (due : Set κ) (rows : List κ) (bound : κ) : Prop :=
  ∀ item ∈ due, item ≤ bound → item ∈ rows

/-- The items that are due a row and have none, in order. -/
structure Missing (due : Set κ) (rows missing : List κ) : Prop where
  increasing : Increasing id missing
  mem_iff : ∀ item, item ∈ missing ↔ item ∈ due ∧ item ∉ rows

namespace CoveredUpTo

/-- More rows, and new items above the bound, do no harm. -/
theorem extend {bound : κ} (covered : CoveredUpTo due rows bound) {later : Set κ}
    (subset : ∀ item ∈ rows, item ∈ more)
    (above : ∀ item ∈ later, item ∈ due ∨ bound < item ∨ item ∈ more) :
    CoveredUpTo later more bound := by
  intro item isDue within
  rcases above item isDue with wasDue | isAbove | hasRow
  · exact subset item (covered item wasDue within)
  · exact absurd within (not_le.mpr isAbove)
  · exact hasRow

theorem larger {first second : κ} (firstCovered : CoveredUpTo due rows first)
    (secondCovered : CoveredUpTo due rows second) : CoveredUpTo due rows (max first second) := by
  intro item isDue within
  rcases le_max_iff.mp within with low | high
  · exact firstCovered item isDue low
  · exact secondCovered item isDue high

end CoveredUpTo

namespace Missing

variable {batch rest : List κ}

/-- Writing the first items leaves the others missing. -/
theorem advance (missing : Missing due rows (batch ++ rest))
    (written : ∀ item, item ∈ more ↔ item ∈ rows ∨ item ∈ batch) : Missing due more rest where
  increasing := (Increasing.append.mp missing.increasing).2.1
  mem_iff item := by
    have apart : item ∈ rest → item ∉ batch := fun inRest inBatch =>
      absurd ((Increasing.append.mp missing.increasing).2.2 item inBatch item inRest)
        (lt_irrefl _)
    have split := missing.mem_iff item
    rw [List.mem_append] at split
    rw [written]
    tauto

/-- After the first items have been written, the bound can be raised to any of them. -/
theorem raise (missing : Missing due rows (batch ++ rest))
    (written : ∀ item, item ∈ more ↔ item ∈ rows ∨ item ∈ batch) {bound : κ}
    (inBatch : bound ∈ batch) : CoveredUpTo due more bound := by
  intro item isDue within
  rw [written]
  by_cases known : item ∈ rows
  · exact Or.inl known
  · rcases List.mem_append.mp ((missing.mem_iff item).mpr ⟨isDue, known⟩) with first | later
    · exact Or.inr first
    · have above := (Increasing.append.mp missing.increasing).2.2 bound inBatch item later
      exact absurd within (not_le.mpr above)

/-- When nothing is missing, every item has its row. -/
theorem complete (missing : Missing due rows []) : ∀ item ∈ due, item ∈ rows := by
  intro item isDue
  by_contra noRow
  exact List.not_mem_nil ((missing.mem_iff item).mpr ⟨isDue, noRow⟩)

end Missing

end Zulip
