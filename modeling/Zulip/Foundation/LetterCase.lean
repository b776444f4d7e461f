import Mathlib

/-!
# Upper and lower case

A database compares names in upper case, and keeps them apart by a unique index in lower case.
-/

namespace Zulip

/-- How a database folds the case of names: `upper` where it compares them, `lower` in a unique
index. The two are taken to identify the same names. -/
structure LetterCase where
  upper : String → String
  lower : String → String
  sameNames : ∀ first second, upper first = upper second ↔ lower first = lower second

/-- The case of the Latin letters. -/
def LetterCase.latin : LetterCase where
  upper := String.toUpper
  lower := String.toLower
  sameNames := by
    intro first second
    have lowered : ∀ name : String, name.toUpper.toLower = name.toLower := by
      intro name
      change (name.map Char.toUpper).map Char.toLower = name.map Char.toLower
      rw [String.map_map]
      exact congrArg (fun fold => name.map fold) (funext Char.toLower_toUpper_eq_toLower)
    have raised : ∀ name : String, name.toLower.toUpper = name.toUpper := by
      intro name
      change (name.map Char.toLower).map Char.toUpper = name.map Char.toUpper
      rw [String.map_map]
      exact congrArg (fun fold => name.map fold) (funext Char.toUpper_toLower_eq_toUpper)
    constructor
    · intro same
      rw [← lowered first, same, lowered]
    · intro same
      rw [← raised first, same, raised]

end Zulip
