import Mathlib.Data.List.DropRight
import Zulip.Foundation.Increasing

/-!
# Windows of an ordered list

Sorting by a key, and the first and the last few items of a list in key order: how they
meet appending and bounds on the key. An anchor cuts such a list into the items below
it, at it and above it.
-/

namespace Zulip

universe u v

variable {α : Type u} {κ : Type v} [LinearOrder κ] {key : α → κ}

/-! ## The last items -/

theorem rtake_append (left right : List α) (count : Nat) :
    (left ++ right).rtake count = left.rtake (count - right.length) ++ right.rtake count := by
  simp [List.rtake_eq_reverse_take_reverse, List.take_append]

theorem rtake_of_length_le {items : List α} {count : Nat} (few : items.length ≤ count) :
    items.rtake count = items := by
  simp [List.rtake, Nat.sub_eq_zero_of_le few]

theorem length_rtake (items : List α) (count : Nat) :
    (items.rtake count).length = min count items.length := by
  simp only [List.rtake, List.length_drop]
  omega

/-- The last items of the last items. -/
theorem rtake_rtake {items : List α} {count larger : Nat} (within : count ≤ larger) :
    (items.rtake larger).rtake count = items.rtake count := by
  simp [List.rtake_eq_reverse_take_reverse, List.take_take, within]

theorem rtake_sublist (items : List α) (count : Nat) : (items.rtake count).Sublist items :=
  List.drop_sublist _ _

/-- The last items in the order of a query that sorts them backwards. -/
theorem take_reverse (items : List α) (count : Nat) :
    items.reverse.take count = (items.rtake count).reverse := by
  simp [List.rtake_eq_reverse_take_reverse]

/-! ## Sorting -/

/-- Sort by the key. -/
def ascending (key : α → κ) (items : List α) : List α :=
  items.insertionSort fun left right => key left ≤ key right

/-- Sort by the key, the largest first. -/
def descending (key : α → κ) (items : List α) : List α :=
  items.insertionSort fun left right => key right ≤ key left

namespace Increasing

/-- Items with distinct keys are sorted strictly. -/
theorem ascending {items : List α} (distinct : (items.map key).Nodup) :
    Increasing key (ascending key items) := by
  have total : Std.Total fun left right : α => key left ≤ key right := ⟨fun _ _ => le_total _ _⟩
  have transitive : IsTrans α fun left right => key left ≤ key right := ⟨fun _ _ _ => le_trans⟩
  have weak := List.pairwise_insertionSort (fun left right => key left ≤ key right) items
  have differs : (Zulip.ascending key items).Pairwise fun left right => key left ≠ key right :=
    List.pairwise_map.mp (((List.perm_insertionSort _ items).map key).nodup_iff.mpr distinct)
  exact weak.imp₂ (fun _ _ within differ => lt_of_le_of_ne within differ) differs

theorem nodup_map {items : List α} (increasing : Increasing key items) : (items.map key).Nodup :=
  List.pairwise_map.mpr (increasing.imp fun below => ne_of_lt below)

/-- Sorting the items of a strictly sorted list gives that list. -/
theorem ascending_eq {items ordered : List α} (increasing : Increasing key ordered)
    (permuted : items.Perm ordered) : Zulip.ascending key items = ordered := by
  have distinct : (items.map key).Nodup := (permuted.map key).nodup_iff.mpr increasing.nodup_map
  refine eq_of_mem_iff (Increasing.ascending distinct) increasing fun item => ?_
  rw [Zulip.ascending, List.mem_insertionSort, permuted.mem_iff]

theorem descending_eq {items ordered : List α} (increasing : Increasing key ordered)
    (permuted : items.Perm ordered) : Zulip.descending key items = ordered.reverse := by
  have total : Std.Total fun left right : α => key right ≤ key left := ⟨fun _ _ => le_total _ _⟩
  have transitive : IsTrans α fun left right => key right ≤ key left :=
    ⟨fun _ _ _ first second => le_trans second first⟩
  have weak := List.pairwise_insertionSort (fun left right => key right ≤ key left) items
  have sorted : (Zulip.descending key items).Perm ordered :=
    (List.perm_insertionSort _ items).trans permuted
  have differs : (Zulip.descending key items).Pairwise fun left right => key left ≠ key right :=
    List.pairwise_map.mp ((sorted.map key).nodup_iff.mpr increasing.nodup_map)
  have backwards : Increasing key (Zulip.descending key items).reverse :=
    List.pairwise_reverse.mpr
      (weak.imp₂ (fun _ _ within differ => lt_of_le_of_ne within differ.symm) differs)
  rw [← List.reverse_eq_iff]
  refine eq_of_mem_iff backwards increasing fun item => ?_
  rw [List.mem_reverse, sorted.mem_iff]

/-- Sorting what a filter keeps. -/
theorem ascending_filter {items : List α} (distinct : (items.map key).Nodup) (keep : α → Bool) :
    Zulip.ascending key (items.filter keep) = (Zulip.ascending key items).filter keep :=
  ascending_eq ((Increasing.ascending distinct).filter keep)
    ((List.perm_insertionSort _ items).symm.filter keep)

/-- The last items, fetched backwards. -/
theorem ascending_take_descending {items ordered : List α} (increasing : Increasing key ordered)
    (permuted : items.Perm ordered) (count : Nat) :
    Zulip.ascending key ((Zulip.descending key items).take count) = ordered.rtake count := by
  rw [increasing.descending_eq permuted, take_reverse]
  exact (increasing.sublist (rtake_sublist _ _)).ascending_eq (List.reverse_perm _)

/-- The first items. -/
theorem ascending_take_ascending {items ordered : List α} (increasing : Increasing key ordered)
    (permuted : items.Perm ordered) (count : Nat) :
    Zulip.ascending key ((Zulip.ascending key items).take count) = ordered.take count := by
  rw [increasing.ascending_eq permuted]
  exact (increasing.sublist (List.take_sublist _ _)).ascending_eq (List.Perm.refl _)

/-- The union of both. -/
theorem ascending_union {low high before after : List α} (lowIncreasing : Increasing key before)
    (highIncreasing : Increasing key after) (lowPerm : low.Perm before) (highPerm : high.Perm after)
    (apart : ∀ first ∈ before, ∀ second ∈ after, key first < key second)
    (lowCount highCount : Nat) :
    Zulip.ascending key ((Zulip.descending key low).take lowCount ++
      (Zulip.ascending key high).take highCount) =
        before.rtake lowCount ++ after.take highCount := by
  rw [lowIncreasing.descending_eq lowPerm, highIncreasing.ascending_eq highPerm, take_reverse]
  refine ascending_eq (append.mpr ⟨lowIncreasing.sublist (rtake_sublist _ _),
    highIncreasing.sublist (List.take_sublist _ _), fun first firstMember second secondMember =>
      apart first ((rtake_sublist _ _).subset firstMember) second
        ((List.take_sublist _ _).subset secondMember)⟩) ?_
  exact (List.reverse_perm _).append_right _

/-! ## Bounds -/

/-- A bound splits the list. -/
theorem eq_filter_append {items : List α} (increasing : Increasing key items) (bound : κ) :
    items = items.filter (fun item => key item < bound) ++
      items.filter fun item => bound ≤ key item := by
  refine eq_of_mem_iff increasing (append.mpr ⟨increasing.filter _, increasing.filter _, ?_⟩) ?_
  · intro first firstMember second secondMember
    exact lt_of_lt_of_le (by simpa using (List.mem_filter.mp firstMember).2)
      (by simpa using (List.mem_filter.mp secondMember).2)
  · intro item
    simp only [List.mem_append, List.mem_filter, decide_eq_true_eq, ← and_or_left,
      lt_or_ge, and_true]

theorem filter_le {items : List α} (increasing : Increasing key items) (bound : κ) :
    items.filter (fun item => key item ≤ bound) =
      items.filter (fun item => key item < bound) ++ items.filter fun item => key item = bound := by
  refine eq_of_mem_iff (increasing.filter _)
    (append.mpr ⟨increasing.filter _, increasing.filter _, ?_⟩) ?_
  · intro first firstMember second secondMember
    have below : key first < bound := by simpa using (List.mem_filter.mp firstMember).2
    have same : key second = bound := by simpa using (List.mem_filter.mp secondMember).2
    rwa [same]
  · intro item
    simp only [List.mem_append, List.mem_filter, decide_eq_true_eq, ← and_or_left, le_iff_lt_or_eq]

theorem filter_ge {items : List α} (increasing : Increasing key items) (bound : κ) :
    items.filter (fun item => bound ≤ key item) =
      items.filter (fun item => key item = bound) ++ items.filter fun item => bound < key item := by
  refine eq_of_mem_iff (increasing.filter _)
    (append.mpr ⟨increasing.filter _, increasing.filter _, ?_⟩) ?_
  · intro first firstMember second secondMember
    have same : key first = bound := by simpa using (List.mem_filter.mp firstMember).2
    have above : bound < key second := by simpa using (List.mem_filter.mp secondMember).2
    rwa [same]
  · intro item
    simp only [List.mem_append, List.mem_filter, decide_eq_true_eq, ← and_or_left]
    rw [le_iff_lt_or_eq, or_comm, eq_comm]

/-- At most one item has a given key. -/
theorem length_filter_eq_le {items : List α} (increasing : Increasing key items) (bound : κ) :
    (items.filter fun item => key item = bound).length ≤ 1 := by
  rcases found : items.filter fun item => key item = bound with _ | ⟨first, _ | ⟨second, rest⟩⟩
  · simp
  · simp
  · have isPart := increasing.filter fun item => key item = bound
    have keyOf : ∀ item ∈ items.filter (fun item => key item = bound), key item = bound :=
      fun item member => by simpa using (List.mem_filter.mp member).2
    rw [found] at isPart keyOf
    have below := (cons.mp isPart).1 second List.mem_cons_self
    rw [keyOf first (by simp), keyOf second (by simp)] at below
    exact absurd below (lt_irrefl _)

/-- The last items above a bound are the last of those above it. -/
theorem filter_rtake {items : List α} (increasing : Increasing key items) (bound : κ)
    (count : Nat) :
    (items.rtake count).filter (fun item => bound ≤ key item) =
      (items.filter fun item => bound ≤ key item).rtake count := by
  have split := increasing.eq_filter_append bound
  have noneLow : ((items.filter fun item => key item < bound).rtake
      (count - (items.filter fun item => bound ≤ key item).length)).filter
        (fun item => bound ≤ key item) = [] := by
    refine List.filter_eq_nil_iff.mpr fun item member => ?_
    have low := (List.mem_filter.mp ((rtake_sublist _ _).subset member)).2
    simpa using low
  have allHigh : ((items.filter fun item => bound ≤ key item).rtake count).filter
      (fun item => bound ≤ key item) = (items.filter fun item => bound ≤ key item).rtake count :=
    List.filter_eq_self.mpr fun item member =>
      (List.mem_filter.mp ((rtake_sublist _ _).subset member)).2
  conv_lhs => rw [split, rtake_append, List.filter_append, noneLow, allHigh, List.nil_append]

/-- Of the first items, those below a bound come first. -/
theorem filter_take {items : List α} (increasing : Increasing key items) (bound : κ)
    (count : Nat) :
    (items.take count).filter (fun item => bound ≤ key item) =
      (items.filter fun item => bound ≤ key item).take
        (count - (items.filter fun item => key item < bound).length) := by
  have split := increasing.eq_filter_append bound
  have noneLow : ((items.filter fun item => key item < bound).take count).filter
      (fun item => bound ≤ key item) = [] := by
    refine List.filter_eq_nil_iff.mpr fun item member => ?_
    have low := (List.mem_filter.mp (List.mem_of_mem_take member)).2
    simpa using low
  have allHigh : ∀ rest, ((items.filter fun item => bound ≤ key item).take rest).filter
      (fun item => bound ≤ key item) = (items.filter fun item => bound ≤ key item).take rest :=
    fun rest => List.filter_eq_self.mpr fun item member =>
      (List.mem_filter.mp (List.mem_of_mem_take member)).2
  conv_lhs => rw [split, List.take_append, List.filter_append, noneLow, allHigh, List.nil_append]

/-- The first items start at or below every item. -/
theorem exists_le_of_mem_take {items : List α} (increasing : Increasing key items) {item : α}
    (member : item ∈ items) {count : Nat} (some : 0 < count) :
    ∃ first ∈ items.take count, key first ≤ key item := by
  obtain ⟨count, rfl⟩ := Nat.exists_eq_succ_of_ne_zero (Nat.pos_iff_ne_zero.mp some)
  cases items with
  | nil => cases member
  | cons head tail =>
      refine ⟨head, List.mem_cons_self, ?_⟩
      rcases List.mem_cons.mp member with rfl | later
      · exact le_rfl
      · exact le_of_lt ((cons.mp increasing).1 item later)

/-- The last items end at or above every item. -/
theorem exists_ge_of_mem_rtake {items : List α} (increasing : Increasing key items) {item : α}
    (member : item ∈ items) {count : Nat} (some : 0 < count) :
    ∃ last ∈ items.rtake count, key item ≤ key last := by
  obtain ⟨count, rfl⟩ := Nat.exists_eq_succ_of_ne_zero (Nat.pos_iff_ne_zero.mp some)
  induction items using List.reverseRecOn with
  | nil => cases member
  | append_singleton items latest _ =>
      refine ⟨latest, ?_, ?_⟩
      · rw [List.rtake_concat_succ]
        exact List.mem_append_right _ (List.mem_singleton_self latest)
      · rcases List.mem_append.mp member with earlier | last
        · exact le_of_lt ((append.mp increasing).2.2 item earlier latest
            (List.mem_singleton_self latest))
        · rw [List.mem_singleton.mp last]

end Increasing

end Zulip
