import Mathlib.Logic.Function.Basic
import Zulip.Foundation.Dict

/-!
# Links in both directions

A dictionary finds the holder of a key, and every holder remembers its key. `Linked`
says that the two directions agree. The rules say what tying a key to a holder and
releasing it do to the agreement.
-/

namespace Zulip

universe u v

variable {K : Type u} {V : Type v} [DecidableEq K]

/-- A key finds a holder exactly when the holder remembers the key. -/
def Linked (dict : Dict K V) (held : V → Option K) : Prop :=
  ∀ key holder, dict.get? key = some holder ↔ held holder = some key

namespace Linked

variable {dict : Dict K V} {held : V → Option K} {key : K} {holder : V}

theorem empty (idle : ∀ holder, held holder = none) : Linked (Dict.empty : Dict K V) held := by
  intro key holder
  simp [idle]

variable [DecidableEq V]

/-- Tying a key to a holder keeps the agreement when the holder gives up no other key
and no other holder has this one. -/
theorem tie_iff (linked : Linked dict held) :
    Linked (dict.set key holder) (Function.update held holder (some key)) ↔
      (held holder = none ∨ held holder = some key) ∧
        ∀ other, held other = some key → other = holder := by
  constructor
  · intro tied
    constructor
    · cases holds : held holder with
      | none => exact Or.inl rfl
      | some previous =>
          by_cases same : previous = key
          · exact Or.inr (congrArg some same)
          · have found : (dict.set key holder).get? previous = some holder :=
              (Dict.get?_set_ne dict holder same).trans ((linked previous holder).mpr holds)
            have remembered := (tied previous holder).mp found
            rw [Function.update_self] at remembered
            exact absurd (Option.some.inj remembered).symm same
    · intro other holds
      by_contra different
      have remembered : Function.update held holder (some key) other = some key :=
        (Function.update_of_ne different _ _).trans holds
      have found := (tied key other).mpr remembered
      rw [Dict.get?_set_self] at found
      exact different (Option.some.inj found).symm
  · rintro ⟨free, alone⟩ otherKey other
    rw [Dict.get?_set]
    by_cases isHolder : other = holder
    · subst isHolder
      rw [Function.update_self]
      by_cases isKey : otherKey = key
      · simp [isKey]
      · rw [if_neg isKey, linked otherKey other]
        rcases free with free | free <;> simp [free, Ne.symm isKey]
    · rw [Function.update_of_ne isHolder]
      by_cases isKey : otherKey = key
      · rw [if_pos isKey, isKey]
        constructor
        · intro same
          exact absurd (Option.some.inj same).symm isHolder
        · intro holds
          exact absurd (alone other holds) isHolder
      · rw [if_neg isKey]
        exact linked otherKey other

/-- Releasing a key in both directions keeps the agreement. -/
theorem release (linked : Linked dict held) (holds : held holder = some key) :
    Linked (dict.erase key) (Function.update held holder none) := by
  intro otherKey other
  rw [Dict.get?_erase]
  by_cases isHolder : other = holder
  · subst isHolder
    rw [Function.update_self]
    by_cases isKey : otherKey = key
    · simp [isKey]
    · rw [if_neg isKey, linked otherKey other, holds]
      simp [Ne.symm isKey]
  · rw [Function.update_of_ne isHolder]
    by_cases isKey : otherKey = key
    · rw [if_pos isKey, isKey]
      constructor
      · intro absent
        cases absent
      · intro otherHolds
        have found := (linked key other).mpr otherHolds
        rw [(linked key holder).mpr holds] at found
        exact absurd (Option.some.inj found).symm isHolder
    · rw [if_neg isKey]
      exact linked otherKey other

/-- A holder that forgets its key leaves the dictionary stale. -/
theorem not_forget (linked : Linked dict held) (holds : held holder = some key) :
    ¬ Linked dict (Function.update held holder none) := by
  intro forgotten
  have remembered := (forgotten key holder).mp ((linked key holder).mpr holds)
  rw [Function.update_self] at remembered
  cases remembered

end Linked

end Zulip
