import Mathlib.Data.List.FinRange
import Mathlib.Data.List.OfFn
import Mathlib.Data.List.Perm.Subperm

/-!
# Assigning different options to the items of a list

`Assignment` gives each item of a list an option of its own that fits it. `Assignable` takes the
options one item after the other, and does not depend on the order of the lists. In
`assignable_cons_iff` an item may take an option at once when every other item that could use this
option could use each option of the item as well.
-/

namespace Zulip

universe u v

open List

variable {Item : Type u} {Choice : Type v} {fits : Item → Choice → Prop}

/-- An option for each item, and no option for two of them. -/
structure Assignment (fits : Item → Choice → Prop) (items : List Item)
    (options : List Choice) where
  option : Fin items.length → Fin options.length
  apart : Function.Injective option
  fit : ∀ item, fits items[item] options[option item]

/-- The items take their options one after the other. -/
inductive Assignable (fits : Item → Choice → Prop) : List Item → List Choice → Prop
  | nil {options : List Choice} : Assignable fits [] options
  | cons {item : Item} {items : List Item} {option : Choice} {rest options : List Choice}
      (fit : fits item option) (taken : option :: rest ~ options)
      (others : Assignable fits items rest) : Assignable fits (item :: items) options

variable {items items' : List Item} {options options' : List Choice} {item : Item}

/-! ## The order of the lists -/

theorem Assignable.perm_options (assignable : Assignable fits items options)
    (same : options ~ options') : Assignable fits items options' := by
  cases assignable with
  | nil => exact .nil
  | cons fit taken others => exact .cons fit (taken.trans same) others

theorem Assignable.perm_items (same : items ~ items') (assignable : Assignable fits items options) :
    Assignable fits items' options := by
  induction same generalizing options with
  | nil => exact assignable
  | cons item same inductionHypothesis =>
      cases assignable with
      | cons fit taken others => exact .cons fit taken (inductionHypothesis others)
  | swap second first items =>
      cases assignable with
      | cons fit taken others =>
          cases others with
          | cons fit' taken' others' =>
              have both := ((taken'.cons _).trans taken)
              exact .cons fit' ((Perm.swap _ _ _).trans both) (.cons fit (Perm.refl _) others')
  | trans firstSame secondSame inductionHypothesis inductionHypothesis' =>
      exact inductionHypothesis' (inductionHypothesis assignable)

/-- The order of neither list matters. -/
theorem assignable_congr (sameItems : items ~ items') (sameOptions : options ~ options') :
    Assignable fits items options ↔ Assignable fits items' options' :=
  ⟨fun assignable => (assignable.perm_items sameItems).perm_options sameOptions,
    fun assignable => (assignable.perm_items sameItems.symm).perm_options sameOptions.symm⟩

/-! ## The exchange -/

/-- An option is as good as another one that fits whatever the first one fits. -/
theorem Assignable.exchange {given received : Choice}
    (assignable : Assignable fits items (given :: options))
    (better : ∀ item ∈ items, fits item given → fits item received) :
    Assignable fits items (received :: options) := by
  induction items generalizing options with
  | nil => exact .nil
  | cons item items inductionHypothesis =>
      cases assignable with
      | @cons _ _ option rest _ fit taken others =>
          rcases eq_or_ne option given with rfl | other
          · have left : rest ~ options := (perm_cons option).mp taken
            exact .cons (better item mem_cons_self fit) (left.cons _) others
          · -- The option that is taken stays; the exchange is in the rest.
            have inOptions : option ∈ options :=
              (mem_cons.mp (taken.subset mem_cons_self)).resolve_left other
            obtain ⟨before, after, rfl⟩ := append_of_mem inOptions
            have whole : option :: rest ~ option :: given :: (before ++ after) :=
              taken.trans ((perm_middle.cons given).trans (Perm.swap _ _ _))
            have left : rest ~ given :: (before ++ after) := (perm_cons option).mp whole
            have exchanged := inductionHypothesis (others.perm_options left)
              fun item isMember => better item (mem_cons_of_mem _ isMember)
            refine .cons fit ?_ exchanged
            exact (Perm.swap _ _ _).trans (perm_middle.symm.cons received)

/-- An item may take an option at once when every other item that could use it could use each option
of the item as well. -/
theorem assignable_cons_iff {option : Choice} {rest : List Choice} (fit : fits item option)
    (taken : option :: rest ~ options)
    (spares : ∀ other ∈ items, fits other option → ∀ choice, fits item choice →
      fits other choice) :
    Assignable fits (item :: items) options ↔ Assignable fits items rest := by
  refine ⟨fun assignable => ?_, .cons fit taken⟩
  cases assignable with
  | @cons _ _ other left _ otherFit otherTaken others =>
      have same : other :: left ~ option :: rest := otherTaken.trans taken.symm
      rcases eq_or_ne other option with rfl | different
      · exact others.perm_options ((perm_cons other).mp same)
      · have inRest : other ∈ rest :=
          (mem_cons.mp (same.subset mem_cons_self)).resolve_left different
        obtain ⟨before, after, rfl⟩ := append_of_mem inRest
        have whole : other :: left ~ other :: option :: (before ++ after) :=
          same.trans ((perm_middle.cons option).trans (Perm.swap _ _ _))
        have exchanged := (others.perm_options ((perm_cons other).mp whole)).exchange
          fun item isMember uses => spares item isMember uses other otherFit
        exact exchanged.perm_options perm_middle.symm

/-- Without an option for it, an item stays out. -/
theorem not_assignable_cons (none : ∀ option ∈ options, ¬ fits item option) :
    ¬ Assignable fits (item :: items) options := by
  intro assignable
  cases assignable with
  | cons fit taken others => exact none _ (taken.subset mem_cons_self) fit

theorem Assignable.length_le (assignable : Assignable fits items options) :
    items.length ≤ options.length := by
  induction assignable with
  | nil => exact Nat.zero_le _
  | cons fit taken others inductionHypothesis =>
      have lengths := taken.length_eq
      rw [length_cons] at lengths ⊢
      omega

/-! ## Assignments -/

/-- The options that are taken, in the order of their items. -/
theorem Assignable.exists_taken (assignable : Assignable fits items options) :
    ∃ taken, Forall₂ fits items taken ∧ taken <+~ options := by
  induction assignable with
  | nil => exact ⟨[], .nil, nil_subperm⟩
  | @cons _ _ option _ _ fit sameOptions others inductionHypothesis =>
      obtain ⟨taken, fit', within⟩ := inductionHypothesis
      exact ⟨option :: taken, .cons fit fit',
        ((subperm_cons option).mpr within).trans sameOptions.subperm⟩

theorem assignable_of_taken {taken : List Choice} (fit : Forall₂ fits items taken)
    (within : taken <+~ options) : Assignable fits items options := by
  induction fit generalizing options with
  | nil => exact .nil
  | @cons _ option _ taken fit others inductionHypothesis =>
      have inOptions : option ∈ options := within.subset mem_cons_self
      obtain ⟨before, after, rfl⟩ := append_of_mem inOptions
      have rest : taken <+~ before ++ after :=
        (subperm_cons option).mp (within.trans perm_middle.subperm)
      exact .cons fit perm_middle.symm (inductionHypothesis rest)

/-- The items can take their options one after the other exactly when there is an assignment. -/
theorem assignable_iff_assignment :
    Assignable fits items options ↔ Nonempty (Assignment fits items options) := by
  classical
  constructor
  · intro assignable
    obtain ⟨taken, fit, within⟩ := assignable.exists_taken
    obtain ⟨sameLength, fit⟩ := forall₂_iff_get.mp fit
    refine ⟨⟨fun item => within.idxInj (item.cast sameLength), fun first second same => ?_,
      fun item => ?_⟩⟩
    · exact Fin.cast_injective sameLength (within.idxInj_injective same)
    · have isTaken := within.getElem_idxInj_eq_getElem (i := item.cast sameLength)
      have itsFit := fit item item.isLt (sameLength ▸ item.isLt)
      rw [Fin.getElem_fin, Fin.getElem_fin, isTaken]
      exact itsFit
  · rintro ⟨assignment⟩
    have fit : Forall₂ fits items (ofFn fun item => options[assignment.option item]) := by
      refine forall₂_iff_get.mpr ⟨length_ofFn.symm, fun index isItem isTaken => ?_⟩
      rw [get_ofFn]
      exact assignment.fit ⟨index, isItem⟩
    have indexes : (finRange items.length).map assignment.option <+~ finRange options.length :=
      subperm_of_subset ((nodup_finRange _).map assignment.apart) fun _ _ => mem_finRange _
    obtain ⟨order, same, within⟩ := indexes
    refine assignable_of_taken fit ⟨order.map options.get, ?_, ?_⟩
    · rw [ofFn_eq_map]
      exact (same.map _).trans (Perm.of_eq (map_map ..))
    · have sublist := within.map options.get
      rw [map_get_finRange] at sublist
      exact sublist

end Zulip
