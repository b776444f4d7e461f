import Mathlib

/-!
# Buckets with a reverse lookup

Items are kept in buckets, and each item has at most one place, which names its bucket. `Indexed`
says that the buckets hold exactly what the places say; the lemmas say what adding and removing an
item do to it.
-/

namespace Zulip

universe u v w

variable {Item : Type u} {Bucket : Type v} {Place : Type w}

/-- Every bucket holds exactly the items whose place is in it. -/
def Indexed (bucketOf : Place → Bucket) (members : Bucket → Finset Item)
    (place : Item → Option Place) : Prop :=
  ∀ item bucket, item ∈ members bucket ↔ (place item).map bucketOf = some bucket

namespace Indexed

variable {bucketOf : Place → Bucket} {members after : Bucket → Finset Item}
  {place placeAfter : Item → Option Place} {item : Item}

/-- Only one item moves: the buckets stay right exactly when they are right about that item. -/
theorem iff_of_others (indexed : Indexed bucketOf members place) (item : Item)
    (sameMembers : ∀ other ≠ item, ∀ bucket, other ∈ after bucket ↔ other ∈ members bucket)
    (samePlaces : ∀ other ≠ item, placeAfter other = place other) :
    Indexed bucketOf after placeAfter ↔
      ∀ bucket, item ∈ after bucket ↔ (placeAfter item).map bucketOf = some bucket := by
  constructor
  · exact fun right bucket => right item bucket
  · intro right other bucket
    by_cases same : other = item
    · subst same
      exact right bucket
    · rw [sameMembers other same, samePlaces other same]
      exact indexed other bucket

/-- An item that had no place gets one. -/
theorem add (indexed : Indexed bucketOf members place) (newPlace : Place)
    (absent : place item = none)
    (isAfter : ∀ other bucket, other ∈ after bucket ↔
      other ∈ members bucket ∨ (other = item ∧ bucket = bucketOf newPlace))
    (isPlace : placeAfter item = some newPlace)
    (samePlaces : ∀ other ≠ item, placeAfter other = place other) :
    Indexed bucketOf after placeAfter := by
  refine (indexed.iff_of_others item (fun other differs bucket => ?_) samePlaces).mpr fun bucket => ?_
  · rw [isAfter]
    exact or_iff_left fun added => differs added.1
  · rw [isAfter, indexed, absent, isPlace]
    simp [eq_comm]

/-- An item loses its place. -/
theorem delete (indexed : Indexed bucketOf members place) (item : Item)
    (isAfter : ∀ other bucket, other ∈ after bucket ↔ other ∈ members bucket ∧ other ≠ item)
    (isPlace : placeAfter item = none)
    (samePlaces : ∀ other ≠ item, placeAfter other = place other) :
    Indexed bucketOf after placeAfter := by
  refine (indexed.iff_of_others item (fun other differs bucket => ?_) samePlaces).mpr fun bucket => ?_
  · rw [isAfter]
    exact and_iff_left differs
  · rw [isAfter, isPlace]
    simp

/-- The buckets of a list hold together the items with a place in one of them. -/
theorem sum_card [DecidableEq Item] [DecidableEq Bucket] (indexed : Indexed bucketOf members place)
    {items : Finset Item} (placed : ∀ item, place item ≠ none → item ∈ items)
    {buckets : List Bucket} (distinct : buckets.Nodup) :
    (buckets.map fun bucket => (members bucket).card).sum =
      (items.filter fun item => ∃ bucket ∈ buckets, (place item).map bucketOf = some bucket).card := by
  induction buckets with
  | nil => simp
  | cons first rest inductionHypothesis =>
      obtain ⟨notInRest, restDistinct⟩ := List.nodup_cons.mp distinct
      have split : (items.filter fun item =>
            ∃ bucket ∈ first :: rest, (place item).map bucketOf = some bucket) =
          members first ∪ items.filter fun item =>
            ∃ bucket ∈ rest, (place item).map bucketOf = some bucket := by
        ext item
        rw [Finset.mem_union, Finset.mem_filter, Finset.mem_filter, indexed item first]
        simp only [List.exists_mem_cons_iff]
        have inItems : (place item).map bucketOf = some first → item ∈ items := by
          intro isFirst
          refine placed item fun absent => ?_
          rw [absent] at isFirst
          cases isFirst
        tauto
      have disjoint : Disjoint (members first) (items.filter fun item =>
          ∃ bucket ∈ rest, (place item).map bucketOf = some bucket) := by
        rw [Finset.disjoint_left]
        intro item inFirst inOther
        obtain ⟨-, bucket, member, isBucket⟩ := Finset.mem_filter.mp inOther
        have isFirst := (indexed item first).mp inFirst
        rw [isFirst] at isBucket
        exact notInRest (Option.some.inj isBucket ▸ member)
      rw [split, Finset.card_union_of_disjoint disjoint, ← inductionHypothesis restDistinct,
        List.map_cons, List.sum_cons]

end Indexed

end Zulip
