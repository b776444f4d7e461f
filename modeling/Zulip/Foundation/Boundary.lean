import Mathlib

/-!
# The first boundary after a point

An increasing sequence of boundaries cuts a linear order into periods. `firstAfter` walks the
sequence until it is past a point, as a loop does that recomputes boundaries from the start.
-/

namespace Zulip

universe u

variable {α : Type u} [LinearOrder α]

/-- Walk from the boundary `index` to the first one after a point; `fuel` bounds the steps. -/
def firstAfter (boundary : Nat → α) (point : α) : Nat → Nat → α
  | 0, index => boundary index
  | fuel + 1, index =>
    if boundary index ≤ point then firstAfter boundary point fuel (index + 1) else boundary index

variable {boundary : Nat → α} {point : α}

/-- With fuel for a boundary that is after the point, the walk ends at the first such boundary. -/
theorem firstAfter_spec {fuel index far : Nat} (after : point < boundary far)
    (start : index ≤ far) (enough : far ≤ index + fuel) :
    ∃ found, firstAfter boundary point fuel index = boundary found ∧ point < boundary found ∧
      index ≤ found ∧ ∀ earlier, index ≤ earlier → earlier < found → boundary earlier ≤ point := by
  induction fuel generalizing index with
  | zero =>
    have same : index = far := by omega
    subst same
    refine ⟨index, rfl, after, le_rfl, ?_⟩
    intro earlier lower upper
    omega
  | succ fuel inductionHypothesis =>
    by_cases reached : boundary index ≤ point
    · have different : index ≠ far := by
        rintro rfl
        exact absurd reached (not_le.mpr after)
      obtain ⟨found, walk, isAfter, lower, earlierOnes⟩ :=
        @inductionHypothesis (index + 1) (by omega) (by omega)
      refine ⟨found, by rw [firstAfter, if_pos reached, walk], isAfter, by omega, ?_⟩
      intro earlier fromIndex before
      rcases Nat.eq_or_lt_of_le fromIndex with rfl | later
      · exact reached
      · exact earlierOnes earlier later before
    · refine ⟨index, by rw [firstAfter, if_neg reached], not_le.mp reached, le_rfl, ?_⟩
      intro earlier lower upper
      omega

/-- The first boundary after a boundary is the next one. -/
theorem firstAfter_boundary {fuel index : Nat} (increasing : StrictMono boundary)
    (enough : index + 1 ≤ fuel) : firstAfter boundary (boundary index) fuel 0 = boundary (index + 1) := by
  obtain ⟨found, walk, isAfter, -, earlierOnes⟩ :=
    @firstAfter_spec α _ boundary _ fuel 0 _ (increasing (Nat.lt_succ_self index))
      (Nat.zero_le _) (by omega)
  have upper : index < found := increasing.lt_iff_lt.mp isAfter
  have lower : ¬ index + 1 < found := by
    intro beyond
    have reached := earlierOnes (index + 1) (Nat.zero_le _) beyond
    exact absurd reached (not_le.mpr (increasing (Nat.lt_succ_self index)))
  have same : found = index + 1 := by omega
  rw [walk, same]

/-- The first boundary after a point before all of them is the first one. -/
theorem firstAfter_before {fuel : Nat} (before : point < boundary 0) :
    firstAfter boundary point fuel 0 = boundary 0 := by
  cases fuel with
  | zero => rfl
  | succ fuel => rw [firstAfter, if_neg (not_le.mpr before)]

end Zulip
