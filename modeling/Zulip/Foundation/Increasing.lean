import Mathlib.Data.List.Induction
import Mathlib.Data.List.Sort
import Mathlib.Data.List.TakeWhile
import Mathlib.Order.Basic

/-!
# Lists that increase strictly by a key

A list whose keys increase strictly is determined by its members
(`Increasing.eq_of_mem_iff`), so operations on such lists can be specified by
membership alone. `interleave` is the merge of two of them that keeps the
second in place and slips the first in between.
-/

namespace Zulip

universe u v

variable {α : Type u} {κ : Type v} [LinearOrder κ] {key : α → κ}

/-- The keys of the list increase strictly. -/
def Increasing (key : α → κ) (items : List α) : Prop :=
  items.Pairwise fun left right => key left < key right

namespace Increasing

@[simp] theorem nil : Increasing key [] := List.Pairwise.nil

@[simp] theorem cons {item : α} {items : List α} :
    Increasing key (item :: items) ↔
      (∀ other ∈ items, key item < key other) ∧ Increasing key items :=
  List.pairwise_cons

@[simp] theorem append {left right : List α} :
    Increasing key (left ++ right) ↔ Increasing key left ∧ Increasing key right ∧
      ∀ first ∈ left, ∀ second ∈ right, key first < key second :=
  List.pairwise_append

theorem filter {items : List α} (increasing : Increasing key items) (keep : α → Bool) :
    Increasing key (items.filter keep) :=
  List.Pairwise.filter keep increasing

theorem sublist {items part : List α} (increasing : Increasing key items)
    (isPart : part.Sublist items) : Increasing key part :=
  List.Pairwise.sublist isPart increasing

/-- Two members with one key are the same member. -/
theorem eq_of_key_eq {items : List α} (increasing : Increasing key items) {left right : α}
    (leftMember : left ∈ items) (rightMember : right ∈ items) (same : key left = key right) :
    left = right := by
  induction items with
  | nil => cases leftMember
  | cons head tail inductionHypothesis =>
      obtain ⟨headBelow, tailIncreasing⟩ := cons.mp increasing
      rcases List.mem_cons.mp leftMember with rfl | leftTail <;>
        rcases List.mem_cons.mp rightMember with rfl | rightTail
      · rfl
      · exact absurd same (ne_of_lt (headBelow right rightTail))
      · exact absurd same.symm (ne_of_lt (headBelow left leftTail))
      · exact inductionHypothesis tailIncreasing leftTail rightTail

/-- The last item has the largest key. -/
theorem le_getLast {items : List α} (increasing : Increasing key items) {last : α}
    (isLast : items.getLast? = some last) : ∀ item ∈ items, key item ≤ key last := by
  obtain ⟨init, rfl⟩ := List.getLast?_eq_some_iff.mp isLast
  obtain ⟨-, -, below⟩ := append.mp increasing
  intro item member
  rcases List.mem_append.mp member with earlier | same
  · exact (below item earlier last (List.mem_singleton_self last)).le
  · rw [List.mem_singleton.mp same]

/-- The items above the last item of a first part are the second part. -/
theorem filter_above_last {front back : List α} {last : α}
    (increasing : Increasing key (front ++ back)) (isLast : front.getLast? = some last) :
    ((front ++ back).filter fun item => key last < key item) = back := by
  obtain ⟨init, rfl⟩ := List.getLast?_eq_some_iff.mp isLast
  obtain ⟨frontIncreasing, -, across⟩ := append.mp increasing
  have frontBelow : ((init ++ [last]).filter fun item => key last < key item) = [] := by
    rw [List.filter_eq_nil_iff]
    intro item member
    rw [decide_eq_true_eq, not_lt]
    exact le_getLast frontIncreasing isLast item member
  have backAbove : (back.filter fun item => key last < key item) = back := by
    rw [List.filter_eq_self]
    intro item member
    exact decide_eq_true (across last (by simp) item member)
  rw [List.filter_append, frontBelow, backAbove, List.nil_append]

/-- Strictly increasing lists with the same members are the same list. -/
theorem eq_of_mem_iff {left right : List α} (leftIncreasing : Increasing key left)
    (rightIncreasing : Increasing key right)
    (members : ∀ item, item ∈ left ↔ item ∈ right) : left = right := by
  have distinct : ∀ {items : List α}, Increasing key items → items.Nodup := fun increasing =>
    List.Pairwise.imp (fun below same => absurd (congrArg key same) (ne_of_lt below)) increasing
  have permuted : left.Perm right :=
    (List.perm_ext_iff_of_nodup (distinct leftIncreasing) (distinct rightIncreasing)).mpr members
  exact List.Perm.eq_of_pairwise (fun first second _ _ before after =>
    absurd before (lt_asymm after)) leftIncreasing rightIncreasing permuted

/-- Dropping the leading items up to a key leaves exactly the items above it. -/
theorem dropWhile_le {items : List α} (increasing : Increasing key items) (bound : κ) :
    (items.dropWhile fun item => key item ≤ bound) =
      items.filter fun item => bound < key item := by
  induction items with
  | nil => rfl
  | cons head tail inductionHypothesis =>
      obtain ⟨headBelow, tailIncreasing⟩ := cons.mp increasing
      by_cases within : key head ≤ bound
      · simp [within, not_lt.mpr within, inductionHypothesis tailIncreasing]
      · have above : bound < key head := not_le.mp within
        have kept : tail.filter (fun item => bound < key item) = tail :=
          List.filter_eq_self.mpr fun item member => by
            simpa using lt_trans above (headBelow item member)
        simp [within, above, kept]

/-- What is left after dropping the items below a key that no item has is above it. -/
theorem above_of_mem_dropWhile {items : List α} (increasing : Increasing key items) {bound : κ}
    (differs : ∀ item ∈ items, key item ≠ bound) :
    ∀ item ∈ items.dropWhile (fun item => key item < bound), bound < key item := by
  induction items with
  | nil => simp
  | cons head tail inductionHypothesis =>
      obtain ⟨headBelow, tailIncreasing⟩ := cons.mp increasing
      intro item member
      by_cases below : key head < bound
      · rw [List.dropWhile_cons_of_pos (by simpa using below)] at member
        exact inductionHypothesis tailIncreasing
          (fun other otherMember => differs other (List.mem_cons_of_mem _ otherMember)) item member
      · rw [List.dropWhile_cons_of_neg (by simpa using below)] at member
        have above : bound < key head :=
          lt_of_le_of_ne (not_lt.mp below) (Ne.symm (differs head List.mem_cons_self))
        rcases List.mem_cons.mp member with rfl | later
        · exact above
        · exact lt_trans above (headBelow item later)

end Increasing

/-! ## Sorting by a key -/

/-- A list whose keys do not decrease and are distinct increases strictly. -/
theorem increasing_of_sorted {items : List α}
    (sorted : items.Pairwise fun left right => key left ≤ key right)
    (distinct : (items.map key).Nodup) : Increasing key items :=
  (sorted.and (List.pairwise_map.mp distinct)).imp fun both => lt_of_le_of_ne both.1 both.2

/-- The items sorted by their keys; items with one key stay in order. -/
def sortByKey (key : α → κ) (items : List α) : List α :=
  items.mergeSort fun left right => decide (key left ≤ key right)

theorem sortByKey_perm (items : List α) : (sortByKey key items).Perm items :=
  List.mergeSort_perm _ _

@[simp] theorem mem_sortByKey {items : List α} {item : α} :
    item ∈ sortByKey key items ↔ item ∈ items :=
  (sortByKey_perm items).mem_iff

theorem increasing_sortByKey {items : List α} (distinct : (items.map key).Nodup) :
    Increasing key (sortByKey key items) := by
  have sorted : (sortByKey key items).Pairwise fun left right => decide (key left ≤ key right) :=
    List.pairwise_mergeSort
      (fun first second third before after => by
        simp only [decide_eq_true_eq] at before after ⊢
        exact before.trans after)
      (fun first second => by simpa using le_total (key first) (key second)) items
  refine increasing_of_sorted (sorted.imp fun before => of_decide_eq_true before) ?_
  exact ((sortByKey_perm items).map key).nodup_iff.mpr distinct

/-- Filtering a sorted list and sorting a filtered list are the same. -/
theorem filter_sortByKey {items : List α} (distinct : (items.map key).Nodup) (keep : α → Bool) :
    (sortByKey key items).filter keep = sortByKey key (items.filter keep) := by
  have distinctKept : ((items.filter keep).map key).Nodup :=
    distinct.sublist (List.filter_sublist.map key)
  refine ((increasing_sortByKey distinct).filter keep).eq_of_mem_iff
    (increasing_sortByKey distinctKept) fun item => ?_
  simp

/-- A filter keeps a prefix of a list exactly when it keeps everything before what it keeps. -/
theorem filter_prefix_iff {keep : α → Bool} {items : List α} :
    items.filter keep <+: items ↔
      items.Pairwise fun earlier later => keep later = true → keep earlier = true := by
  induction items with
  | nil => simp
  | cons head tail inductionHypothesis =>
    by_cases kept : keep head = true
    · rw [List.filter_cons_of_pos kept, List.prefix_cons_inj, inductionHypothesis,
        List.pairwise_cons]
      simp [kept]
    · rw [List.filter_cons_of_neg kept, List.pairwise_cons]
      constructor
      · intro isPrefix
        have noneKept : tail.filter keep = [] := by
          cases selected : tail.filter keep with
          | nil => rfl
          | cons first rest =>
            rw [selected, List.cons_prefix_cons] at isPrefix
            have member : first ∈ tail.filter keep := by
              rw [selected]
              exact List.mem_cons_self
            rw [isPrefix.1] at member
            exact absurd (List.mem_filter.mp member).2 kept
        rw [List.filter_eq_nil_iff] at noneKept
        refine ⟨fun later member keeps => absurd keeps (noneKept later member), ?_⟩
        exact List.pairwise_of_forall_mem_list fun earlier _ later member keeps =>
          absurd keeps (noneKept later member)
      · rintro ⟨headFirst, -⟩
        have noneKept : tail.filter keep = [] := by
          rw [List.filter_eq_nil_iff]
          intro later member keeps
          exact kept (headFirst later member keeps)
        rw [noneKept]
        exact List.nil_prefix

/-- Merge two lists by key: before each item of the second list come the items
of the first that are still waiting and have a smaller key. -/
def interleave (key : α → κ) : List α → List α → List α
  | waiting, [] => waiting
  | waiting, item :: rest =>
      waiting.takeWhile (fun other => key other < key item) ++
        item :: interleave key (waiting.dropWhile fun other => key other < key item) rest

/-- Merging loses nothing and invents nothing. -/
@[simp] theorem mem_interleave {waiting items : List α} {item : α} :
    item ∈ interleave key waiting items ↔ item ∈ waiting ∨ item ∈ items := by
  induction items generalizing waiting with
  | nil => simp [interleave]
  | cons head tail inductionHypothesis =>
      have split : item ∈ waiting ↔
          item ∈ waiting.takeWhile (fun other => key other < key head) ∨
            item ∈ waiting.dropWhile (fun other => key other < key head) := by
        rw [← List.mem_append, List.takeWhile_append_dropWhile]
      simp only [interleave, List.mem_append, List.mem_cons, inductionHypothesis, split]
      tauto

/-- Merging two strictly increasing lists without a common key gives a strictly
increasing list. -/
theorem Increasing.interleave {waiting items : List α} (waitingIncreasing : Increasing key waiting)
    (itemsIncreasing : Increasing key items)
    (apart : ∀ left ∈ waiting, ∀ right ∈ items, key left ≠ key right) :
    Increasing key (interleave key waiting items) := by
  induction items generalizing waiting with
  | nil => exact waitingIncreasing
  | cons head tail inductionHypothesis =>
      obtain ⟨headBelow, tailIncreasing⟩ := Increasing.cons.mp itemsIncreasing
      have parts : Increasing key (waiting.takeWhile (fun other => key other < key head) ++
          waiting.dropWhile fun other => key other < key head) := by
        rw [List.takeWhile_append_dropWhile]
        exact waitingIncreasing
      obtain ⟨beforeIncreasing, afterIncreasing, beforeAfter⟩ := Increasing.append.mp parts
      have before : ∀ other ∈ waiting.takeWhile (fun other => key other < key head),
          key other < key head := fun other member => by
        simpa using List.mem_takeWhile_imp member
      have after : ∀ other ∈ waiting.dropWhile (fun other => key other < key head),
          key head < key other :=
        waitingIncreasing.above_of_mem_dropWhile
          (fun left leftMember => apart left leftMember head List.mem_cons_self)
      have restIncreasing := inductionHypothesis afterIncreasing tailIncreasing
        (fun left leftMember right rightMember =>
          apart left (List.dropWhile_subset _ leftMember) right (List.mem_cons_of_mem _ rightMember))
      have aboveHead : ∀ other ∈ Zulip.interleave key
          (waiting.dropWhile fun other => key other < key head) tail, key head < key other := by
        intro other member
        rcases mem_interleave.mp member with waitingMember | tailMember
        · exact after other waitingMember
        · exact headBelow other tailMember
      simp only [Zulip.interleave, Increasing.append, Increasing.cons]
      refine ⟨beforeIncreasing, ⟨aboveHead, restIncreasing⟩, ?_⟩
      intro first firstMember second secondMember
      rcases List.mem_cons.mp secondMember with rfl | later
      · exact before first firstMember
      · exact lt_trans (before first firstMember) (aboveHead second later)

/-! ## The last write

A replayed log leaves in a cell what the last item that writes the cell put there. -/

section LastWrite

variable {ω : Type*} {write : α → Option ω}

/-- What the last item that writes has written. -/
def lastWrite (write : α → Option ω) (items : List α) : Option ω :=
  (items.filterMap write).getLast?

@[simp] theorem lastWrite_nil : lastWrite write [] = none := rfl

@[simp] theorem lastWrite_snoc (items : List α) (item : α) :
    lastWrite write (items ++ [item]) = (write item).or (lastWrite write items) := by
  unfold lastWrite
  cases written : write item with
  | none => simp [written]
  | some value => simp [written]

theorem lastWrite_map {β : Type*} (f : β → α) (items : List β) :
    lastWrite write (items.map f) = lastWrite (write ∘ f) items := by
  simp [lastWrite, List.filterMap_map]

/-- Nothing was written exactly when no item writes. -/
theorem lastWrite_eq_none_iff {items : List α} :
    lastWrite write items = none ↔ ∀ item ∈ items, write item = none := by
  simp [lastWrite]

/-- In a list in key order the last write is the one with the largest key. -/
theorem Increasing.lastWrite_eq_some_iff {items : List α} (increasing : Increasing key items)
    {value : ω} :
    lastWrite write items = some value ↔ ∃ last ∈ items, write last = some value ∧
      ∀ item ∈ items, write item ≠ none → key item ≤ key last := by
  induction items using List.reverseRecOn with
  | nil => simp
  | append_singleton items latest inductionHypothesis =>
      obtain ⟨itemsIncreasing, _, belowLatest⟩ := Increasing.append.mp increasing
      have below : ∀ item ∈ items, key item < key latest := fun item member =>
        belowLatest item member latest (List.mem_singleton_self latest)
      rw [lastWrite_snoc]
      cases written : write latest with
      | none =>
          rw [Option.none_or, inductionHypothesis itemsIncreasing]
          constructor
          · rintro ⟨last, member, writes, largest⟩
            refine ⟨last, List.mem_append_left _ member, writes, fun item itemMember itemWrites => ?_⟩
            rcases List.mem_append.mp itemMember with earlier | new
            · exact largest item earlier itemWrites
            · rw [List.mem_singleton.mp new] at itemWrites
              exact absurd written itemWrites
          · rintro ⟨last, member, writes, largest⟩
            rcases List.mem_append.mp member with earlier | new
            · exact ⟨last, earlier, writes, fun item itemMember =>
                largest item (List.mem_append_left _ itemMember)⟩
            · rw [List.mem_singleton.mp new, written] at writes
              cases writes
      | some newest =>
          rw [Option.some_or]
          constructor
          · rintro ⟨⟩
            refine ⟨latest, by simp, written, fun item itemMember _ => ?_⟩
            rcases List.mem_append.mp itemMember with earlier | new
            · exact le_of_lt (below item earlier)
            · rw [List.mem_singleton.mp new]
          · rintro ⟨last, member, writes, largest⟩
            rcases List.mem_append.mp member with earlier | new
            · exact absurd (largest latest (by simp) (by simp [written]))
                (not_le.mpr (below last earlier))
            · rw [List.mem_singleton.mp new, written] at writes
              exact writes

end LastWrite

end Zulip
