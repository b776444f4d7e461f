import Mathlib.Algebra.Order.Group.Nat

/-!
# Binary search for a lower bound

`lowerBound` searches the first place where a test fails. Whatever the test is, it fails there and
holds right before; when it holds exactly before some place, this place is found.
-/

namespace Zulip

/-- The search in the `length` places from `first` on. -/
def lowerBoundFrom (less : ℕ → Bool) (first length : ℕ) : ℕ :=
  if length = 0 then first
  else
    let step := length / 2
    let middle := first + step
    if less middle then lowerBoundFrom less (middle + 1) (length - step - 1)
    else lowerBoundFrom less first step
termination_by length

/-- The first of some places where a test fails. -/
def lowerBound (less : ℕ → Bool) (length : ℕ) : ℕ := lowerBoundFrom less 0 length

variable {less : ℕ → Bool}

/-- The search keeps a place where the test holds before it, and one where it fails after it. -/
theorem lowerBoundFrom_spec {first length last : ℕ} (before : first = 0 ∨ less (first - 1) = true)
    (after : first + length = last ∨ less (first + length) = false)
    (within : first + length ≤ last) :
    lowerBoundFrom less first length ≤ last ∧
      (lowerBoundFrom less first length = 0 ∨
        less (lowerBoundFrom less first length - 1) = true) ∧
      (lowerBoundFrom less first length = last ∨
        less (lowerBoundFrom less first length) = false) := by
  fun_induction lowerBoundFrom less first length with
  | case1 first => exact ⟨within, before, after⟩
  | case2 first length nonempty step middle isLess inductionHypothesis =>
      have rest : middle + 1 + (length - step - 1) = first + length := by omega
      rw [rest] at inductionHypothesis
      exact inductionHypothesis (.inr isLess) after within
  | case3 first length nonempty step middle isLess inductionHypothesis =>
      exact inductionHypothesis before (.inr (Bool.eq_false_iff.mpr isLess)) (by omega)

variable {length : ℕ}

theorem lowerBound_le : lowerBound less length ≤ length :=
  (lowerBoundFrom_spec (.inl rfl) (.inl (Nat.zero_add length)) (Nat.zero_add length).le).1

/-- The test holds right before the place that is found. -/
theorem lowerBound_before (notFirst : lowerBound less length ≠ 0) :
    less (lowerBound less length - 1) = true :=
  (lowerBoundFrom_spec (.inl rfl) (.inl (Nat.zero_add length))
    (Nat.zero_add length).le).2.1.resolve_left notFirst

/-- The test fails at the place that is found. -/
theorem lowerBound_at (notLast : lowerBound less length ≠ length) :
    less (lowerBound less length) = false :=
  (lowerBoundFrom_spec (.inl rfl) (.inl (Nat.zero_add length))
    (Nat.zero_add length).le).2.2.resolve_left notLast

end Zulip
