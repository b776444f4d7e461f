import Zulip.Narrow.ExactPages

/-!
# Pages of a limited history

Rows below `first_visible_message_id` are hidden, partly by the query and partly
afterwards. The page is that of the visible rows alone, except when the query is
anchored to the left: then hidden rows count towards its limit.
-/

namespace Zulip.Narrow

variable {Row : Type} {rowId : Row → Int}

namespace LimitedMessages

/-- The pages differ at most in `history_limited`. -/
structure SamePage (left right : LimitedMessages Row) : Prop where
  rows : left.rows = right.rows
  foundAnchor : left.foundAnchor = right.foundAnchor
  foundNewest : left.foundNewest = right.foundNewest
  foundOldest : left.foundOldest = right.foundOldest

end LimitedMessages

namespace MatchingRows

/-- The matching rows from the first visible message on. -/
def visible (matching : MatchingRows Row rowId) (firstVisibleMessageId : Int) :
    MatchingRows Row rowId where
  rows := matching.rows.filter fun row => firstVisibleMessageId ≤ rowId row
  distinct := matching.distinct.sublist (List.filter_sublist.map rowId)
  positive row member := matching.positive row (List.mem_of_mem_filter member)
  belowMax row member := matching.belowMax row (List.mem_of_mem_filter member)

/-- The number of hidden rows. -/
def hiddenCount (matching : MatchingRows Row rowId) (firstVisibleMessageId : Int) : Nat :=
  (matching.rows.filter fun row => rowId row < firstVisibleMessageId).length

/-- What a limited history should look like: the page of the visible rows, with flags
that are right about them. -/
structure HidesRows (matching : MatchingRows Row rowId) (numBefore numAfter : Nat) (anchor : Int)
    (includeAnchor : Bool) (firstVisibleMessageId : Int) (result : LimitedMessages Row) : Prop where
  rows : result.rows = (fetchMessages rowId (matching.visible firstVisibleMessageId).rows numBefore
    numAfter anchor includeAnchor 0).rows
  foundNewest : result.foundNewest = true →
    ∀ row ∈ (matching.visible firstVisibleMessageId).rows, ¬ result.Newer rowId anchor row
  foundOldest : result.foundOldest = true →
    ∀ row ∈ (matching.visible firstVisibleMessageId).rows, ¬ result.Older rowId anchor row

variable {firstVisibleMessageId anchor : Int} {numBefore numAfter : Nat} {includeAnchor : Bool}

theorem ordered_visible (matching : MatchingRows Row rowId) (firstVisibleMessageId : Int) :
    (matching.visible firstVisibleMessageId).ordered =
      matching.ordered.filter fun row => firstVisibleMessageId ≤ rowId row :=
  Increasing.ascending_filter matching.distinct _

/-- A page that agrees with that of the visible rows hides what it should. -/
theorem HidesRows.of_samePage {matching : MatchingRows Row rowId} {result : LimitedMessages Row}
    (same : result.SamePage (fetchMessages rowId (matching.visible firstVisibleMessageId).rows
      numBefore numAfter anchor includeAnchor 0)) :
    matching.HidesRows numBefore numAfter anchor includeAnchor firstVisibleMessageId result := by
  refine ⟨same.rows, fun found row isRow newer => ?_, fun found row isRow older => ?_⟩
  · rw [same.foundNewest, fetchMessages_eq] at found
    unfold LimitedMessages.Newer at newer
    rw [same.rows, fetchMessages_eq] at newer
    exact plainPage_foundNewest found isRow newer
  · rw [same.foundOldest, fetchMessages_eq] at found
    unfold LimitedMessages.Older at older
    rw [same.rows, fetchMessages_eq] at older
    exact plainPage_foundOldest found isRow older

end MatchingRows

/-- Hiding rows after the query is the same as never fetching them. -/
theorem postProcessLimitedQuery_visible (rowId : Row → Int) (rows : List Row) (numBefore numAfter : Nat) (anchor : Int)
    (anchoredToLeft anchoredToRight : Bool) {firstVisibleMessageId : Int}
    (limited : 0 < firstVisibleMessageId) :
    (postProcessLimitedQuery rowId rows numBefore numAfter anchor anchoredToLeft anchoredToRight
        firstVisibleMessageId).SamePage
      (postProcessLimitedQuery rowId (rows.filter fun row => firstVisibleMessageId ≤ rowId row)
        numBefore numAfter anchor anchoredToLeft anchoredToRight 0) := by
  simp only [postProcessLimitedQuery, gt_iff_lt, limited, if_true, lt_irrefl, if_false]
  exact ⟨rfl, rfl, rfl, rfl⟩

section Limit

variable {query : List Row} {numAfter : Nat} {firstVisibleMessageId : Int}
  {anchoredToLeft anchoredToRight : Bool}

/-- Unless the first rows of all are fetched, the limits select the same visible rows. -/
theorem limitQueryToRange_visible (numBefore : Nat) (anchor : Int) (includeAnchor : Bool)
    (distinct : (query.map rowId).Nodup)
    (limited : 0 < firstVisibleMessageId) (noAfterRight : anchoredToRight = true → numAfter = 0)
    (noAfterLeft : anchoredToLeft = true → numAfter = 0) :
    (ascending rowId (limitQueryToRange rowId query numBefore numAfter anchor includeAnchor
        anchoredToLeft anchoredToRight firstVisibleMessageId)).filter
          (fun row => firstVisibleMessageId ≤ rowId row) =
      ascending rowId (limitQueryToRange rowId (query.filter fun row =>
        firstVisibleMessageId ≤ rowId row) numBefore numAfter anchor includeAnchor anchoredToLeft
          anchoredToRight 0) := by
  have increasing := Increasing.ascending distinct
  have visibleDistinct := distinct.sublist (List.filter_sublist.map rowId :
    ((query.filter fun row => firstVisibleMessageId ≤ rowId row).map rowId).Sublist _)
  have visible := Increasing.ascending_filter distinct fun row => firstVisibleMessageId ≤ rowId row
  -- The query after the anchor starts at the first visible row.
  have hidesBelow : ∀ bound : Int,
      ((ascending rowId query).filter fun row => firstVisibleMessageId ≤ rowId row).filter
        (fun row => max bound 0 ≤ rowId row) =
      (ascending rowId query).filter fun row => max bound firstVisibleMessageId ≤ rowId row := by
    intro bound
    rw [List.filter_filter]
    refine List.filter_congr fun row _ => ?_
    rw [← Bool.decide_and]
    refine decide_eq_decide.mpr ?_
    omega
  have allVisible : ∀ (bound : Int) (count : Nat), (((ascending rowId query).filter fun row =>
      max bound firstVisibleMessageId ≤ rowId row).take count).filter
        (fun row => firstVisibleMessageId ≤ rowId row) =
      ((ascending rowId query).filter fun row =>
        max bound firstVisibleMessageId ≤ rowId row).take count := by
    intro bound count
    refine List.filter_eq_self.mpr fun row member => ?_
    have above := (List.mem_filter.mp (List.mem_of_mem_take member)).2
    exact decide_eq_true (le_trans (le_max_right _ _) (of_decide_eq_true above))
  have filterComm : ∀ keep : Row → Bool, ((ascending rowId query).filter keep).filter
      (fun row => firstVisibleMessageId ≤ rowId row) = ((ascending rowId query).filter fun row =>
        firstVisibleMessageId ≤ rowId row).filter keep := fun keep => List.filter_comm ..
  rcases Nat.eq_zero_or_pos numAfter with rfl | after
  · by_cases needed : anchoredToLeft = false ∧ 0 < numBefore
    · obtain ⟨rfl, before⟩ := needed
      rw [limitQueryToRange_before distinct rfl before rfl,
        limitQueryToRange_before visibleDistinct rfl before rfl, visible]
      cases anchoredToRight with
      | true => exact increasing.filter_rtake firstVisibleMessageId numBefore
      | false =>
          rw [if_neg Bool.false_ne_true, if_neg Bool.false_ne_true, ← filterComm]
          exact (increasing.filter _).filter_rtake firstVisibleMessageId _
    · have noBefore : anchoredToLeft = true ∨ numBefore = 0 := by
        cases anchoredToLeft with
        | true => exact Or.inl rfl
        | false => exact Or.inr (Nat.eq_zero_of_not_pos fun before => needed ⟨rfl, before⟩)
      rw [limitQueryToRange_neither distinct noBefore rfl,
        limitQueryToRange_neither visibleDistinct noBefore rfl, visible, filterComm]
  · have notLeft : anchoredToLeft = false :=
      Bool.eq_false_iff.mpr fun left => absurd (noAfterLeft left) (Nat.pos_iff_ne_zero.mp after)
    have notRight : anchoredToRight = false :=
      Bool.eq_false_iff.mpr fun right => absurd (noAfterRight right) (Nat.pos_iff_ne_zero.mp after)
    rcases Nat.eq_zero_or_pos numBefore with rfl | before
    · rw [limitQueryToRange_after distinct notRight (Or.inr rfl) after,
        limitQueryToRange_after visibleDistinct notRight (Or.inr rfl) after, visible, notLeft,
        if_neg Bool.false_ne_true, if_neg Bool.false_ne_true, allVisible, hidesBelow]
    · rw [limitQueryToRange_both distinct notLeft notRight before after,
        limitQueryToRange_both visibleDistinct notLeft notRight before after, visible,
        List.filter_append, allVisible, hidesBelow, ← filterComm]
      congr 1
      exact (increasing.filter _).filter_rtake firstVisibleMessageId _

end Limit

namespace MatchingRows

variable {firstVisibleMessageId anchor : Int} {numBefore numAfter : Nat} {includeAnchor : Bool}

/-- Unless the query is anchored to the left and fetches rows, the page of a limited
history is that of the visible rows. -/
theorem fetchMessages_visible (matching : MatchingRows Row rowId)
    (limited : 0 < firstVisibleMessageId) (notLeft : anchor = 0 → numAfter = 0) :
    (fetchMessages rowId matching.rows numBefore numAfter anchor includeAnchor
        firstVisibleMessageId).SamePage
      (fetchMessages rowId (matching.visible firstVisibleMessageId).rows numBefore numAfter anchor
        includeAnchor 0) := by
  have noAfterRight : decide (anchor ≥ largerThanMaxMessageId) = true →
      (if decide (anchor ≥ largerThanMaxMessageId) = true then 0 else numAfter) = 0 := fun right =>
    if_pos right
  have noAfterLeft : decide (anchor = 0) = true →
      (if decide (anchor ≥ largerThanMaxMessageId) = true then 0 else numAfter) = 0 := by
    intro left
    rw [notLeft (of_decide_eq_true left), ite_self]
  have selected := limitQueryToRange_visible numBefore anchor includeAnchor matching.distinct
    limited noAfterRight noAfterLeft
  simp only [fetchMessages, visible]
  rw [← selected]
  exact postProcessLimitedQuery_visible rowId _ _ _ _ _ _ limited

/-- Anchored to the left, hidden rows use up the limit. -/
theorem fetchMessages_left (matching : MatchingRows Row rowId) (numBefore : Nat)
    (includeAnchor : Bool) (limited : 0 < firstVisibleMessageId) (after : 0 < numAfter) :
    (fetchMessages rowId matching.rows numBefore numAfter 0 includeAnchor
        firstVisibleMessageId).SamePage
      { rows := (matching.visible firstVisibleMessageId).ordered.take
          (min numAfter (numAfter + includeAnchor.toNat -
            matching.hiddenCount firstVisibleMessageId))
        foundAnchor := false
        foundNewest := decide (((matching.visible firstVisibleMessageId).ordered.take
          (min numAfter (numAfter + includeAnchor.toNat -
            matching.hiddenCount firstVisibleMessageId))).length < numAfter)
        foundOldest := true
        historyLimited := false } := by
  have notRight : ¬ (0 : Int) ≥ largerThanMaxMessageId := by decide
  have hidden : (matching.ordered.filter fun row => rowId row < firstVisibleMessageId).length =
      matching.hiddenCount firstVisibleMessageId :=
    ((List.perm_insertionSort _ matching.rows).filter _).length_eq
  have fetched : (ascending rowId (limitQueryToRange rowId matching.rows numBefore numAfter 0
      includeAnchor true false firstVisibleMessageId)).filter
        (fun row => firstVisibleMessageId ≤ rowId row) =
      (matching.visible firstVisibleMessageId).ordered.take
        (numAfter + includeAnchor.toNat - matching.hiddenCount firstVisibleMessageId) := by
    rw [limitQueryToRange_after matching.distinct rfl (Or.inl rfl) after, if_pos rfl,
      ordered_visible, ← hidden]
    exact matching.ordered_increasing.filter_take firstVisibleMessageId _
  have same := postProcessLimitedQuery_visible rowId (ascending rowId (limitQueryToRange rowId
    matching.rows numBefore numAfter 0 includeAnchor true false firstVisibleMessageId)) numBefore
      numAfter 0 true false limited
  rw [fetched] at same
  have above : ∀ row ∈ (matching.visible firstVisibleMessageId).ordered.take
      (numAfter + includeAnchor.toNat - matching.hiddenCount firstVisibleMessageId), 0 < rowId row :=
    fun row member => (matching.visible firstVisibleMessageId).positive row
      (mem_ordered.mp (List.mem_of_mem_take member))
  have trimmed := postProcessLimitedQuery_append
    (by simp : ∀ row ∈ ([] : List Row), rowId row < 0)
    (by simp : ∀ row ∈ ([] : List Row), rowId row = 0) above numBefore numAfter true
  rw [List.nil_append, List.nil_append] at trimmed
  rw [trimmed] at same
  simp only [Nat.pos_iff_ne_zero.mp after, ne_eq, not_false_eq_true, if_true, List.take_take] at same
  simp only [fetchMessages, notRight, decide_false, decide_true, Bool.false_eq_true, if_false]
  refine ⟨same.rows.trans ?_, same.foundAnchor, same.foundNewest, same.foundOldest⟩
  simp

/-- The visible rows' own page from the left. -/
theorem plainPage_left (matching : MatchingRows Row rowId) (numBefore numAfter : Nat)
    (includeAnchor : Bool) :
    (matching.plainPage numBefore numAfter 0 includeAnchor).SamePage
      { rows := matching.ordered.take numAfter
        foundAnchor := false
        foundNewest := decide ((matching.ordered.take numAfter).length < numAfter)
        foundOldest := true
        historyLimited := false } := by
  obtain ⟨noBelow, noAnchor⟩ := matching.left_eq
  have whole : matching.ordered = matching.above 0 := by
    rw [matching.ordered_eq 0, noBelow, noAnchor]
    simp
  have notRight : ¬ (0 : Int) ≥ largerThanMaxMessageId := by decide
  simp only [plainPage, noBelow, noAnchor, whole, notRight]
  exact ⟨by simp, by simp, by simp, by simp⟩

end MatchingRows

/-- A limited history looks like a shorter history exactly when the query is not anchored
to the left, or fetches nothing after it, or hides no more rows than it has room for, or
reaches all visible rows anyway. -/
theorem limitedHistory_iff (matching : MatchingRows Row rowId) (numBefore numAfter : Nat)
    (anchor : Int) (includeAnchor : Bool) {firstVisibleMessageId : Int}
    (limited : 0 < firstVisibleMessageId) :
    matching.HidesRows numBefore numAfter anchor includeAnchor firstVisibleMessageId
        (fetchMessages rowId matching.rows numBefore numAfter anchor includeAnchor
          firstVisibleMessageId) ↔
      (anchor = 0 → 0 < numAfter →
        matching.hiddenCount firstVisibleMessageId ≤ includeAnchor.toNat ∨
          (matching.visible firstVisibleMessageId).rows.length ≤
            numAfter + includeAnchor.toNat - matching.hiddenCount firstVisibleMessageId) := by
  by_cases fromLeft : anchor = 0 ∧ 0 < numAfter
  · obtain ⟨rfl, after⟩ := fromLeft
    have hidden := matching.fetchMessages_left numBefore includeAnchor limited after
    have plain := (matching.visible firstVisibleMessageId).plainPage_left numBefore numAfter
      includeAnchor
    rw [← MatchingRows.fetchMessages_eq] at plain
    have count : (matching.visible firstVisibleMessageId).ordered.length =
        (matching.visible firstVisibleMessageId).rows.length :=
      (List.perm_insertionSort _ _).length_eq
    have atMostOne : includeAnchor.toNat ≤ 1 := Bool.toNat_le includeAnchor
    have enough : (matching.visible firstVisibleMessageId).ordered.take
        (min numAfter (numAfter + includeAnchor.toNat -
          matching.hiddenCount firstVisibleMessageId)) =
        (matching.visible firstVisibleMessageId).ordered.take numAfter ↔
          matching.hiddenCount firstVisibleMessageId ≤ includeAnchor.toNat ∨
            (matching.visible firstVisibleMessageId).rows.length ≤
              numAfter + includeAnchor.toNat - matching.hiddenCount firstVisibleMessageId := by
      rw [List.take_eq_take_iff, count]
      omega
    constructor
    · intro hides _ _
      exact enough.mp (hidden.rows.symm.trans (hides.rows.trans plain.rows))
    · intro condition
      have sameRows := enough.mpr (condition rfl after)
      refine MatchingRows.HidesRows.of_samePage ⟨?_, ?_, ?_, ?_⟩
      · rw [hidden.rows, plain.rows, sameRows]
      · rw [hidden.foundAnchor, plain.foundAnchor]
      · rw [hidden.foundNewest, plain.foundNewest, sameRows]
      · rw [hidden.foundOldest, plain.foundOldest]
  · refine iff_of_true (MatchingRows.HidesRows.of_samePage
      (matching.fetchMessages_visible limited fun left => ?_))
        fun left after => absurd ⟨left, after⟩ fromLeft
    exact Nat.eq_zero_of_not_pos fun after => fromLeft ⟨left, after⟩

/-- The oldest visible messages, with one hidden row less than the limit has room for. -/
theorem limitedHistory_iff_oneHidden :
    fourMessages.HidesRows 0 2 0 true 2 (fetchMessages id fourMessages.rows 0 2 0 true 2) :=
  (limitedHistory_iff fourMessages 0 2 0 true (by decide : (0 : Int) < 2)).mpr
    fun _ _ => Or.inl (by decide)

/-- From the left, two hidden rows use up the limit: one visible row is missing, and the
page still promises that no newer one exists. -/
theorem limitedHistory_missesRow :
    (fetchMessages id fourMessages.rows 0 2 0 true 3).rows = [3] ∧
      (fetchMessages id fourMessages.rows 0 2 0 true 3).foundNewest = true ∧
      (fetchMessages id (fourMessages.visible 3).rows 0 2 0 true 0).rows = [3, 4] ∧
      ¬ fourMessages.HidesRows 0 2 0 true 3 (fetchMessages id fourMessages.rows 0 2 0 true 3) := by
  refine ⟨by decide, by decide, by decide, fun hides => ?_⟩
  exact absurd hides.rows (by decide)

end Zulip.Narrow
