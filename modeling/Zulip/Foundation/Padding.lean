import Mathlib.Data.List.Basic

/-!
# Lists with padding

A list is written with some items between its own that say nothing, such as blank lines. `Padded`
relates the list to the longer one: the items are kept, in their order and as often as they occur,
and all others are padding.
-/

namespace Zulip

universe u v

variable {Item : Type u} {Other : Type v}

/-- The second list is the first one with padding put in. -/
inductive Padded (IsPadding : Item → Prop) : List Item → List Item → Prop where
  | nil : Padded IsPadding [] []
  | keep {item : Item} {kept full : List Item} (rest : Padded IsPadding kept full) :
      Padded IsPadding (item :: kept) (item :: full)
  | pad {item : Item} {kept full : List Item} (isPadding : IsPadding item)
      (rest : Padded IsPadding kept full) : Padded IsPadding kept (item :: full)

namespace Padded

variable {IsPadding : Item → Prop} {kept full kept' full' : List Item} {item : Item}

theorem refl (items : List Item) : Padded IsPadding items items := by
  induction items with
  | nil => exact .nil
  | cons item rest inductionHypothesis => exact .keep inductionHypothesis

theorem append (first : Padded IsPadding kept full) (second : Padded IsPadding kept' full') :
    Padded IsPadding (kept ++ kept') (full ++ full') := by
  induction first with
  | nil => exact second
  | keep _ inductionHypothesis => exact .keep inductionHypothesis
  | pad isPadding _ inductionHypothesis => exact .pad isPadding inductionHypothesis

/-- More padding may be put in. -/
theorem trans {more : List Item} (first : Padded IsPadding kept full)
    (second : Padded IsPadding full more) : Padded IsPadding kept more := by
  induction second generalizing kept with
  | nil => exact first
  | keep _ inductionHypothesis =>
      cases first with
      | keep rest => exact .keep (inductionHypothesis rest)
      | pad isPadding rest => exact .pad isPadding (inductionHypothesis rest)
  | pad isPadding _ inductionHypothesis => exact .pad isPadding (inductionHypothesis first)

/-- Changing every item keeps padding that stays padding. -/
theorem map {image : Item → Other} {IsPadding' : Other → Prop}
    (staysPadding : ∀ item, IsPadding item → IsPadding' (image item))
    (padded : Padded IsPadding kept full) :
    Padded IsPadding' (kept.map image) (full.map image) := by
  induction padded with
  | nil => exact .nil
  | keep _ inductionHypothesis => exact .keep inductionHypothesis
  | pad isPadding _ inductionHypothesis => exact .pad (staysPadding _ isPadding) inductionHypothesis

theorem append_pad (isPadding : IsPadding item) (padded : Padded IsPadding kept full) :
    Padded IsPadding kept (full ++ [item]) := by
  have last := padded.append (.pad isPadding .nil)
  rwa [List.append_nil] at last

end Padded

end Zulip
