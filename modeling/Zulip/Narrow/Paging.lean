import Zulip.Foundation.Window

/-!
# Paging through messages

The part of `fetch_messages` that limits a query to a range around an anchor and trims
what it fetched. `fetchMessages_eq` says what page comes out when no history is hidden.
-/

namespace Zulip.Narrow

/-- `LARGER_THAN_MAX_MESSAGE_ID`. -/
def largerThanMaxMessageId : Int := 10000000000000000

/-- The rows that match a narrow, in the order in which the database keeps them. Row ids
are message ids. -/
structure MatchingRows (Row : Type) (rowId : Row → Int) where
  rows : List Row
  distinct : (rows.map rowId).Nodup
  positive : ∀ row ∈ rows, 0 < rowId row
  belowMax : ∀ row ∈ rows, rowId row < largerThanMaxMessageId

/-- `LimitedMessages`. -/
structure LimitedMessages (Row : Type) where
  rows : List Row
  foundAnchor : Bool
  foundNewest : Bool
  foundOldest : Bool
  historyLimited : Bool

section Paging

variable {Row : Type} (rowId : Row → Int)

/-- `limit_query_to_range`: the rows that the limited query selects. -/
def limitQueryToRange (query : List Row) (numBefore numAfter : Nat) (anchor : Int)
    (includeAnchor anchoredToLeft anchoredToRight : Bool) (firstVisibleMessageId : Int) :
    List Row :=
  let needBeforeQuery := !anchoredToLeft && decide (numBefore > 0)
  let needAfterQuery := !anchoredToRight && decide (numAfter > 0)
  let needBothSides := needBeforeQuery && needAfterQuery
  -- We may also want the row where `id == anchor`; the limits leave room for it.
  let beforeAnchor :=
    if needBothSides then anchor - 1 else anchor - (!includeAnchor).toNat
  let beforeLimit :=
    if needBothSides then numBefore
    else if !anchoredToRight then numBefore + includeAnchor.toNat
    else numBefore
  let afterAnchor :=
    if needBothSides then max anchor firstVisibleMessageId
    else max (anchor + (!includeAnchor).toNat) firstVisibleMessageId
  let afterLimit := if needBothSides then numAfter + 1 else numAfter + includeAnchor.toNat
  let beforeQuery :=
    (descending rowId
      (if !anchoredToRight then query.filter fun row => rowId row ≤ beforeAnchor else query)).take
        beforeLimit
  let afterQuery :=
    (ascending rowId
      (if !anchoredToLeft then query.filter fun row => afterAnchor ≤ rowId row else query)).take
        afterLimit
  if needBothSides then beforeQuery ++ afterQuery
  else if needBeforeQuery then beforeQuery
  else if needAfterQuery then afterQuery
  else query.filter fun row => rowId row = anchor

/-- `post_process_limited_query`. -/
def postProcessLimitedQuery (rows : List Row) (numBefore numAfter : Nat) (anchor : Int)
    (anchoredToLeft anchoredToRight : Bool) (firstVisibleMessageId : Int) : LimitedMessages Row :=
  let visibleRows :=
    if firstVisibleMessageId > 0 then rows.filter fun row => firstVisibleMessageId ≤ rowId row
    else rows
  let rowsLimited := decide (visibleRows.length ≠ rows.length)
  let numAfter := if anchoredToRight then 0 else numAfter
  let beforeRows :=
    if anchoredToRight then visibleRows else visibleRows.filter fun row => rowId row < anchor
  let anchorRows := if anchoredToRight then [] else visibleRows.filter fun row => rowId row = anchor
  let afterRows := if anchoredToRight then [] else visibleRows.filter fun row => anchor < rowId row
  let beforeRows := if numBefore ≠ 0 then beforeRows.rtake numBefore else beforeRows
  let afterRows := if numAfter ≠ 0 then afterRows.take numAfter else afterRows
  let foundOldest := anchoredToLeft || decide (beforeRows.length < numBefore)
  { rows := beforeRows ++ anchorRows ++ afterRows
    foundAnchor := decide (anchorRows.length = 1)
    foundNewest := anchoredToRight || decide (afterRows.length < numAfter)
    foundOldest := foundOldest
    historyLimited := rowsLimited && foundOldest }

/-- The paging in `fetch_messages`. -/
def fetchMessages (query : List Row) (numBefore numAfter : Nat) (anchor : Int)
    (includeAnchor : Bool) (firstVisibleMessageId : Int) : LimitedMessages Row :=
  let anchoredToLeft := decide (anchor = 0)
  let anchoredToRight := decide (anchor ≥ largerThanMaxMessageId)
  let numAfter := if anchoredToRight then 0 else numAfter
  let limited := limitQueryToRange rowId query numBefore numAfter anchor includeAnchor
    anchoredToLeft anchoredToRight firstVisibleMessageId
  postProcessLimitedQuery rowId (ascending rowId limited) numBefore numAfter anchor anchoredToLeft
    anchoredToRight firstVisibleMessageId

end Paging

/-! ## What the limited query selects -/

section Limit

variable {Row : Type} {rowId : Row → Int} {query : List Row} {numBefore numAfter : Nat}
  {anchor firstVisibleMessageId : Int} {includeAnchor anchoredToLeft anchoredToRight : Bool}

/-- Without a query on either side the anchor's row is selected. -/
theorem limitQueryToRange_neither (distinct : (query.map rowId).Nodup)
    (noBefore : anchoredToLeft = true ∨ numBefore = 0) (noAfter : numAfter = 0) :
    ascending rowId (limitQueryToRange rowId query numBefore numAfter anchor includeAnchor
        anchoredToLeft anchoredToRight firstVisibleMessageId) =
      (ascending rowId query).filter fun row => rowId row = anchor := by
  rw [← Increasing.ascending_filter distinct]
  rcases noBefore with rfl | rfl <;> subst noAfter <;> simp [limitQueryToRange]

/-- Only the query before the anchor. -/
theorem limitQueryToRange_before (distinct : (query.map rowId).Nodup)
    (notLeft : anchoredToLeft = false) (before : 0 < numBefore) (noAfter : numAfter = 0) :
    ascending rowId (limitQueryToRange rowId query numBefore numAfter anchor includeAnchor
        anchoredToLeft anchoredToRight firstVisibleMessageId) =
      if anchoredToRight then (ascending rowId query).rtake numBefore
      else ((ascending rowId query).filter fun row =>
        rowId row ≤ anchor - (!includeAnchor).toNat).rtake (numBefore + includeAnchor.toNat) := by
  have increasing := Increasing.ascending distinct
  have permuted : query.Perm (ascending rowId query) := (List.perm_insertionSort _ query).symm
  subst notLeft noAfter
  cases anchoredToRight with
  | true =>
      simpa [limitQueryToRange, before] using
        increasing.ascending_take_descending permuted numBefore
  | false =>
      simpa [limitQueryToRange, before] using
        (increasing.filter _).ascending_take_descending (permuted.filter _)
          (numBefore + includeAnchor.toNat)

/-- Only the query after the anchor. -/
theorem limitQueryToRange_after (distinct : (query.map rowId).Nodup)
    (notRight : anchoredToRight = false) (noBefore : anchoredToLeft = true ∨ numBefore = 0)
    (after : 0 < numAfter) :
    ascending rowId (limitQueryToRange rowId query numBefore numAfter anchor includeAnchor
        anchoredToLeft anchoredToRight firstVisibleMessageId) =
      if anchoredToLeft then (ascending rowId query).take (numAfter + includeAnchor.toNat)
      else ((ascending rowId query).filter fun row =>
        max (anchor + (!includeAnchor).toNat) firstVisibleMessageId ≤ rowId row).take
          (numAfter + includeAnchor.toNat) := by
  have increasing := Increasing.ascending distinct
  have permuted : query.Perm (ascending rowId query) := (List.perm_insertionSort _ query).symm
  subst notRight
  cases anchoredToLeft with
  | true =>
      simpa [limitQueryToRange, after] using
        increasing.ascending_take_ascending permuted (numAfter + includeAnchor.toNat)
  | false =>
      have noBefore : numBefore = 0 := by simpa using noBefore
      subst noBefore
      simpa [limitQueryToRange, after] using
        (increasing.filter _).ascending_take_ascending (permuted.filter _)
          (numAfter + includeAnchor.toNat)

/-- Both queries. -/
theorem limitQueryToRange_both (distinct : (query.map rowId).Nodup)
    (notLeft : anchoredToLeft = false) (notRight : anchoredToRight = false)
    (before : 0 < numBefore) (after : 0 < numAfter) :
    ascending rowId (limitQueryToRange rowId query numBefore numAfter anchor includeAnchor
        anchoredToLeft anchoredToRight firstVisibleMessageId) =
      ((ascending rowId query).filter fun row => rowId row ≤ anchor - 1).rtake numBefore ++
        ((ascending rowId query).filter fun row =>
          max anchor firstVisibleMessageId ≤ rowId row).take (numAfter + 1) := by
  have increasing := Increasing.ascending distinct
  have permuted : query.Perm (ascending rowId query) := (List.perm_insertionSort _ query).symm
  subst notLeft notRight
  have union := (increasing.filter fun row => rowId row ≤ anchor - 1).ascending_union
    (increasing.filter fun row => max anchor firstVisibleMessageId ≤ rowId row)
    (permuted.filter _) (permuted.filter _) ?_ numBefore (numAfter + 1)
  · simpa [limitQueryToRange, before, after] using union
  · intro first firstMember second secondMember
    have below : rowId first ≤ anchor - 1 := by simpa using (List.mem_filter.mp firstMember).2
    have above : max anchor firstVisibleMessageId ≤ rowId second := by
      simpa using (List.mem_filter.mp secondMember).2
    have aboveAnchor := le_trans (le_max_left _ _) above
    omega

end Limit

/-! ## The page -/

/-- Rows below, at and above the anchor are told apart again. -/
theorem postProcessLimitedQuery_append {Row : Type} {rowId : Row → Int}
    {beforeRows anchorRows afterRows : List Row} {anchor : Int}
    (isBefore : ∀ row ∈ beforeRows, rowId row < anchor)
    (isAnchor : ∀ row ∈ anchorRows, rowId row = anchor)
    (isAfter : ∀ row ∈ afterRows, anchor < rowId row)
    (numBefore numAfter : Nat) (anchoredToLeft : Bool) :
    postProcessLimitedQuery rowId (beforeRows ++ anchorRows ++ afterRows) numBefore numAfter anchor
        anchoredToLeft false 0 =
      let beforeRows := if numBefore ≠ 0 then beforeRows.rtake numBefore else beforeRows
      let afterRows := if numAfter ≠ 0 then afterRows.take numAfter else afterRows
      { rows := beforeRows ++ anchorRows ++ afterRows
        foundAnchor := decide (anchorRows.length = 1)
        foundNewest := decide (afterRows.length < numAfter)
        foundOldest := anchoredToLeft || decide (beforeRows.length < numBefore)
        historyLimited := false } := by
  have keepsBefore : (beforeRows ++ anchorRows ++ afterRows).filter (fun row => rowId row < anchor) =
      beforeRows := by
    have all := List.filter_eq_self.mpr fun row member => decide_eq_true (isBefore row member)
    have noAnchor : anchorRows.filter (fun row => rowId row < anchor) = [] :=
      List.filter_eq_nil_iff.mpr fun row member => by simp [isAnchor row member]
    have noAfter : afterRows.filter (fun row => rowId row < anchor) = [] :=
      List.filter_eq_nil_iff.mpr fun row member => by simpa using le_of_lt (isAfter row member)
    rw [List.filter_append, List.filter_append, all, noAnchor, noAfter]
    simp
  have keepsAnchor : (beforeRows ++ anchorRows ++ afterRows).filter (fun row => rowId row = anchor) =
      anchorRows := by
    have all := List.filter_eq_self.mpr fun row member => decide_eq_true (isAnchor row member)
    have noBefore : beforeRows.filter (fun row => rowId row = anchor) = [] :=
      List.filter_eq_nil_iff.mpr fun row member => by simpa using ne_of_lt (isBefore row member)
    have noAfter : afterRows.filter (fun row => rowId row = anchor) = [] :=
      List.filter_eq_nil_iff.mpr fun row member => by simpa using ne_of_gt (isAfter row member)
    rw [List.filter_append, List.filter_append, all, noBefore, noAfter]
    simp
  have keepsAfter : (beforeRows ++ anchorRows ++ afterRows).filter (fun row => anchor < rowId row) =
      afterRows := by
    have all := List.filter_eq_self.mpr fun row member => decide_eq_true (isAfter row member)
    have noBefore : beforeRows.filter (fun row => anchor < rowId row) = [] :=
      List.filter_eq_nil_iff.mpr fun row member => by simpa using le_of_lt (isBefore row member)
    have noAnchor : anchorRows.filter (fun row => anchor < rowId row) = [] :=
      List.filter_eq_nil_iff.mpr fun row member => by simp [isAnchor row member]
    rw [List.filter_append, List.filter_append, all, noBefore, noAnchor]
    simp
  simp only [postProcessLimitedQuery, lt_irrefl, if_false, keepsBefore, keepsAnchor, keepsAfter,
    Bool.false_or, ne_eq, not_true_eq_false, decide_false, Bool.false_and, Bool.false_eq_true]

namespace MatchingRows

variable {Row : Type} {rowId : Row → Int} (matching : MatchingRows Row rowId)

/-- The matching rows by id. -/
def ordered : List Row := ascending rowId matching.rows

/-- The matching rows below the anchor, by id. -/
def below (anchor : Int) : List Row := matching.ordered.filter fun row => rowId row < anchor

/-- The anchor's row, if it matches. -/
def anchorRows (anchor : Int) : List Row := matching.ordered.filter fun row => rowId row = anchor

/-- The matching rows above the anchor, by id. -/
def above (anchor : Int) : List Row := matching.ordered.filter fun row => anchor < rowId row

theorem ordered_increasing : Increasing rowId matching.ordered :=
  Increasing.ascending matching.distinct

variable {matching} {anchor : Int} {row : Row}

@[simp] theorem mem_ordered : row ∈ matching.ordered ↔ row ∈ matching.rows :=
  (List.perm_insertionSort _ _).mem_iff

@[simp] theorem mem_below : row ∈ matching.below anchor ↔ row ∈ matching.rows ∧ rowId row < anchor := by
  simp [below]

@[simp] theorem mem_anchorRows :
    row ∈ matching.anchorRows anchor ↔ row ∈ matching.rows ∧ rowId row = anchor := by
  simp [anchorRows]

@[simp] theorem mem_above : row ∈ matching.above anchor ↔ row ∈ matching.rows ∧ anchor < rowId row := by
  simp [above]

theorem length_anchorRows_le (matching : MatchingRows Row rowId) (anchor : Int) :
    (matching.anchorRows anchor).length ≤ 1 :=
  matching.ordered_increasing.length_filter_eq_le anchor

/-- Every row is below, at or above the anchor. -/
theorem ordered_eq (matching : MatchingRows Row rowId) (anchor : Int) :
    matching.ordered =
      matching.below anchor ++ (matching.anchorRows anchor ++ matching.above anchor) := by
  conv_lhs => rw [matching.ordered_increasing.eq_filter_append anchor,
    matching.ordered_increasing.filter_ge]
  rfl

/-- Nothing matches at or below the lowest anchor. -/
theorem left_eq (matching : MatchingRows Row rowId) :
    matching.below 0 = [] ∧ matching.anchorRows 0 = [] := by
  refine ⟨List.eq_nil_iff_forall_not_mem.mpr fun row member => ?_,
    List.eq_nil_iff_forall_not_mem.mpr fun row member => ?_⟩
  · obtain ⟨isRow, low⟩ := mem_below.mp member
    exact absurd low (lt_asymm (matching.positive row isRow))
  · obtain ⟨isRow, low⟩ := mem_anchorRows.mp member
    exact absurd low (ne_of_gt (matching.positive row isRow))

/-- Nothing matches at or above the largest anchors. -/
theorem right_eq (matching : MatchingRows Row rowId) (right : largerThanMaxMessageId ≤ anchor) :
    matching.anchorRows anchor = [] ∧ matching.above anchor = [] := by
  refine ⟨List.eq_nil_iff_forall_not_mem.mpr fun row member => ?_,
    List.eq_nil_iff_forall_not_mem.mpr fun row member => ?_⟩
  · obtain ⟨isRow, same⟩ := mem_anchorRows.mp member
    exact absurd same (ne_of_lt (lt_of_lt_of_le (matching.belowMax row isRow) right))
  · obtain ⟨isRow, high⟩ := mem_above.mp member
    exact absurd high (lt_asymm (lt_of_lt_of_le (matching.belowMax row isRow) right))

/-- The page when no history is hidden. The anchor's row is left out only when it is
excluded and rows are requested on one side. -/
def plainPage (matching : MatchingRows Row rowId) (numBefore numAfter : Nat) (anchor : Int)
    (includeAnchor : Bool) : LimitedMessages Row :=
  let beforeRows := (matching.below anchor).rtake numBefore
  let anchorRows :=
    if includeAnchor || decide (numBefore = 0 ↔ numAfter = 0) then matching.anchorRows anchor else []
  let afterRows := (matching.above anchor).take numAfter
  { rows := beforeRows ++ anchorRows ++ afterRows
    foundAnchor := decide (anchorRows.length = 1)
    foundNewest := decide (anchor ≥ largerThanMaxMessageId) || decide (afterRows.length < numAfter)
    foundOldest := decide (anchor = 0) || decide (beforeRows.length < numBefore)
    historyLimited := false }

section FetchMessages

variable {numBefore numAfter : Nat} {includeAnchor : Bool}

theorem filter_le_sub_one (matching : MatchingRows Row rowId) (anchor : Int) :
    matching.ordered.filter (fun row => rowId row ≤ anchor - 1) = matching.below anchor :=
  List.filter_congr fun _ _ => decide_eq_decide.mpr Int.le_sub_one_iff

theorem filter_le (matching : MatchingRows Row rowId) (anchor : Int) :
    matching.ordered.filter (fun row => rowId row ≤ anchor) =
      matching.below anchor ++ matching.anchorRows anchor :=
  matching.ordered_increasing.filter_le anchor

theorem filter_add_one_le (matching : MatchingRows Row rowId) (anchor : Int) :
    matching.ordered.filter (fun row => anchor + 1 ≤ rowId row) = matching.above anchor :=
  List.filter_congr fun _ _ => decide_eq_decide.mpr Int.add_one_le_iff

theorem filter_ge (matching : MatchingRows Row rowId) (anchor : Int) :
    matching.ordered.filter (fun row => anchor ≤ rowId row) =
      matching.anchorRows anchor ++ matching.above anchor :=
  matching.ordered_increasing.filter_ge anchor

/-- Ids are positive, so a bound of 0 hides no row. -/
theorem filter_max_zero (matching : MatchingRows Row rowId) (bound : Int) :
    matching.ordered.filter (fun row => max bound 0 ≤ rowId row) =
      matching.ordered.filter fun row => bound ≤ rowId row := by
  refine List.filter_congr fun row member => decide_eq_decide.mpr ?_
  have positive := matching.positive row (mem_ordered.mp member)
  omega

/-- With room for one more row the anchor's row is fetched. -/
theorem take_anchorRows_append (matching : MatchingRows Row rowId) (anchor : Int) (count : Nat) :
    (matching.anchorRows anchor ++ matching.above anchor).take (count + 1) =
      matching.anchorRows anchor ++
        (matching.above anchor).take (count + 1 - (matching.anchorRows anchor).length) := by
  have few := matching.length_anchorRows_le anchor
  rw [List.take_append, List.take_of_length_le (by omega)]

theorem rtake_append_anchorRows (matching : MatchingRows Row rowId) (anchor : Int) (count : Nat) :
    (matching.below anchor ++ matching.anchorRows anchor).rtake (count + 1) =
      (matching.below anchor).rtake (count + 1 - (matching.anchorRows anchor).length) ++
        matching.anchorRows anchor := by
  have few := matching.length_anchorRows_le anchor
  rw [rtake_append, rtake_of_length_le (by omega : (matching.anchorRows anchor).length ≤ count + 1)]

/-- Rows fetched with room for the anchor's row are trimmed. -/
theorem take_take_room (matching : MatchingRows Row rowId) (anchor : Int) {count : Nat} :
    ((matching.above anchor).take (count + 1 - (matching.anchorRows anchor).length)).take count =
      (matching.above anchor).take count := by
  have few := matching.length_anchorRows_le anchor
  rw [List.take_take, Nat.min_eq_left (by omega)]

theorem rtake_rtake_room (matching : MatchingRows Row rowId) (anchor : Int) {count : Nat} :
    ((matching.below anchor).rtake (count + 1 - (matching.anchorRows anchor).length)).rtake count =
      (matching.below anchor).rtake count := by
  have few := matching.length_anchorRows_le anchor
  exact rtake_rtake (by omega)

/-- Trimming rows that were fetched with room for the anchor gives the plain page. -/
theorem postProcess_eq_plainPage (matching : MatchingRows Row rowId)
    {rows beforeRows afterRows : List Row} (notRight : ¬ anchor ≥ largerThanMaxMessageId)
    (parts : rows = beforeRows ++
      (if includeAnchor || decide (numBefore = 0 ↔ numAfter = 0) then matching.anchorRows anchor
        else []) ++ afterRows)
    (isBefore : ∀ row ∈ beforeRows, row ∈ matching.below anchor)
    (isAfter : ∀ row ∈ afterRows, row ∈ matching.above anchor)
    (trimBefore : (if numBefore ≠ 0 then beforeRows.rtake numBefore else beforeRows) =
      (matching.below anchor).rtake numBefore)
    (trimAfter : (if numAfter ≠ 0 then afterRows.take numAfter else afterRows) =
      (matching.above anchor).take numAfter) :
    postProcessLimitedQuery rowId rows numBefore numAfter anchor (decide (anchor = 0)) false 0 =
      matching.plainPage numBefore numAfter anchor includeAnchor := by
  subst parts
  have isAnchor : ∀ row ∈ (if includeAnchor || decide (numBefore = 0 ↔ numAfter = 0) then
      matching.anchorRows anchor else []), rowId row = anchor := by
    intro row member
    split at member
    · exact (mem_anchorRows.mp member).2
    · cases member
  rw [postProcessLimitedQuery_append (fun row member => (mem_below.mp (isBefore row member)).2)
    isAnchor fun row member => (mem_above.mp (isAfter row member)).2]
  simp only [trimBefore, trimAfter, plainPage, notRight, decide_false, Bool.false_or]

section Middle

variable (matching : MatchingRows Row rowId) (notRight : ¬ anchor ≥ largerThanMaxMessageId)
include notRight

/-- Rows at and after the anchor. -/
theorem postProcess_after (after : 0 < numAfter) :
    postProcessLimitedQuery rowId ((matching.ordered.filter fun row =>
        max (anchor + (!includeAnchor).toNat) 0 ≤ rowId row).take (numAfter + includeAnchor.toNat))
      0 numAfter anchor (decide (anchor = 0)) false 0 =
      matching.plainPage 0 numAfter anchor includeAnchor := by
  have positive : numAfter ≠ 0 := Nat.pos_iff_ne_zero.mp after
  rw [matching.filter_max_zero]
  cases includeAnchor with
  | false =>
      have parts : (matching.ordered.filter fun row => anchor + ((!false).toNat : Int) ≤
          rowId row).take (numAfter + false.toNat) = [] ++
          (if false || decide (0 = 0 ↔ numAfter = 0) then matching.anchorRows anchor else []) ++
            (matching.above anchor).take numAfter := by
        have bound := matching.filter_add_one_le anchor
        simpa [positive] using congrArg (List.take numAfter) bound
      exact matching.postProcess_eq_plainPage notRight parts (by simp)
        (fun row member => List.mem_of_mem_take member) (by simp) (by simp [List.take_take])
  | true =>
      have parts : (matching.ordered.filter fun row => anchor + ((!true).toNat : Int) ≤
          rowId row).take (numAfter + true.toNat) = [] ++
          (if true || decide (0 = 0 ↔ numAfter = 0) then matching.anchorRows anchor else []) ++
            (matching.above anchor).take
              (numAfter + 1 - (matching.anchorRows anchor).length) := by
        have bound := congrArg (List.take (numAfter + 1)) (matching.filter_ge anchor)
        rw [take_anchorRows_append] at bound
        simpa using bound
      refine matching.postProcess_eq_plainPage notRight parts (by simp)
        (fun row member => List.mem_of_mem_take member) (by simp) ?_
      rw [if_pos positive]
      exact matching.take_take_room anchor

/-- Rows before and at the anchor. -/
theorem postProcess_before (before : 0 < numBefore) :
    postProcessLimitedQuery rowId ((matching.ordered.filter fun row =>
        rowId row ≤ anchor - (!includeAnchor).toNat).rtake (numBefore + includeAnchor.toNat))
      numBefore 0 anchor (decide (anchor = 0)) false 0 =
      matching.plainPage numBefore 0 anchor includeAnchor := by
  have positive : numBefore ≠ 0 := Nat.pos_iff_ne_zero.mp before
  cases includeAnchor with
  | false =>
      have parts : (matching.ordered.filter fun row => rowId row ≤
          anchor - ((!false).toNat : Int)).rtake (numBefore + false.toNat) =
          (matching.below anchor).rtake numBefore ++
          (if false || decide (numBefore = 0 ↔ 0 = 0) then matching.anchorRows anchor else []) ++
            [] := by
        have bound := congrArg (fun rows => rows.rtake numBefore) (matching.filter_le_sub_one anchor)
        simpa [positive] using bound
      refine matching.postProcess_eq_plainPage notRight parts
        (fun row member => (rtake_sublist _ _).subset member) (by simp) ?_ (by simp)
      rw [if_pos positive, rtake_rtake le_rfl]
  | true =>
      have parts : (matching.ordered.filter fun row => rowId row ≤
          anchor - ((!true).toNat : Int)).rtake (numBefore + true.toNat) =
          (matching.below anchor).rtake (numBefore + 1 - (matching.anchorRows anchor).length) ++
          (if true || decide (numBefore = 0 ↔ 0 = 0) then matching.anchorRows anchor else []) ++
            [] := by
        have bound := congrArg (fun rows => rows.rtake (numBefore + 1)) (matching.filter_le anchor)
        rw [rtake_append_anchorRows] at bound
        simpa using bound
      refine matching.postProcess_eq_plainPage notRight parts
        (fun row member => (rtake_sublist _ _).subset member) (by simp) ?_ (by simp)
      rw [if_pos positive]
      exact matching.rtake_rtake_room anchor

/-- Rows on both sides, where the anchor's row is never excluded. -/
theorem postProcess_both (before : 0 < numBefore) (after : 0 < numAfter) :
    postProcessLimitedQuery rowId
        ((matching.ordered.filter fun row => rowId row ≤ anchor - 1).rtake numBefore ++
          (matching.ordered.filter fun row => max anchor 0 ≤ rowId row).take (numAfter + 1))
      numBefore numAfter anchor (decide (anchor = 0)) false 0 =
      matching.plainPage numBefore numAfter anchor includeAnchor := by
  have positiveBefore : numBefore ≠ 0 := Nat.pos_iff_ne_zero.mp before
  have positiveAfter : numAfter ≠ 0 := Nat.pos_iff_ne_zero.mp after
  have parts : (matching.ordered.filter fun row => rowId row ≤ anchor - 1).rtake numBefore ++
      (matching.ordered.filter fun row => max anchor 0 ≤ rowId row).take (numAfter + 1) =
      (matching.below anchor).rtake numBefore ++
        (if includeAnchor || decide (numBefore = 0 ↔ numAfter = 0) then matching.anchorRows anchor
          else []) ++ (matching.above anchor).take
            (numAfter + 1 - (matching.anchorRows anchor).length) := by
    rw [matching.filter_max_zero, matching.filter_le_sub_one, matching.filter_ge,
      take_anchorRows_append]
    simp [positiveBefore, positiveAfter]
  refine matching.postProcess_eq_plainPage notRight parts
    (fun row member => (rtake_sublist _ _).subset member)
    (fun row member => List.mem_of_mem_take member) ?_ ?_
  · rw [if_pos positiveBefore, rtake_rtake le_rfl]
  · rw [if_pos positiveAfter]
    exact matching.take_take_room anchor

end Middle

/-- Anchored to the right, the last rows are fetched and none is trimmed. -/
theorem fetchMessages_eq_of_right (matching : MatchingRows Row rowId)
    (right : anchor ≥ largerThanMaxMessageId) (numBefore numAfter : Nat) (includeAnchor : Bool) :
    fetchMessages rowId matching.rows numBefore numAfter anchor includeAnchor 0 =
      matching.plainPage numBefore numAfter anchor includeAnchor := by
  obtain ⟨noAnchor, noAbove⟩ := matching.right_eq right
  have notLeft : decide (anchor = 0) = false := by
    refine decide_eq_false ?_
    rintro rfl
    exact absurd right (by decide)
  have whole : matching.ordered = matching.below anchor := by
    rw [matching.ordered_eq anchor, noAnchor, noAbove]
    simp
  have fetched : ascending rowId (limitQueryToRange rowId matching.rows numBefore 0 anchor
      includeAnchor false true 0) = (matching.below anchor).rtake numBefore := by
    rcases Nat.eq_zero_or_pos numBefore with rfl | before
    · rw [limitQueryToRange_neither matching.distinct (Or.inr rfl) rfl, List.rtake_zero]
      exact noAnchor
    · rw [limitQueryToRange_before matching.distinct rfl before rfl, if_pos rfl, ← whole]
      rfl
  have again : ((matching.below anchor).rtake numBefore).rtake numBefore =
      (matching.below anchor).rtake numBefore := rtake_rtake le_rfl
  simp only [fetchMessages, right, notLeft, decide_true, if_true, fetched, plainPage, noAnchor,
    noAbove, postProcessLimitedQuery]
  cases numBefore <;> simp [again]

/-- Anchored to the left, the first rows are fetched. -/
theorem fetchMessages_eq_of_left (matching : MatchingRows Row rowId) (numBefore numAfter : Nat)
    (includeAnchor : Bool) :
    fetchMessages rowId matching.rows numBefore numAfter 0 includeAnchor 0 =
      matching.plainPage numBefore numAfter 0 includeAnchor := by
  obtain ⟨noBelow, noAnchor⟩ := matching.left_eq
  have notRight : ¬ (0 : Int) ≥ largerThanMaxMessageId := by decide
  have whole : matching.ordered = matching.above 0 := by
    rw [matching.ordered_eq 0, noBelow, noAnchor]
    simp
  simp only [fetchMessages, notRight, decide_false, decide_true, Bool.false_eq_true, if_false]
  rcases Nat.eq_zero_or_pos numAfter with rfl | after
  · rw [limitQueryToRange_neither matching.distinct (Or.inl rfl) rfl]
    have parts : (ascending rowId matching.rows).filter (fun row => rowId row = 0) = [] ++
        (if includeAnchor || decide (numBefore = 0 ↔ 0 = 0) then matching.anchorRows 0 else []) ++
          [] := by
      rw [noAnchor, ite_self]
      exact noAnchor
    refine matching.postProcess_eq_plainPage notRight parts (by simp) (by simp) ?_ (by simp)
    simp [noBelow]
  · rw [limitQueryToRange_after matching.distinct rfl (Or.inl rfl) after, if_pos rfl]
    have parts : (ascending rowId matching.rows).take (numAfter + includeAnchor.toNat) = [] ++
        (if includeAnchor || decide (numBefore = 0 ↔ numAfter = 0) then matching.anchorRows 0
          else []) ++ (matching.above 0).take (numAfter + includeAnchor.toNat) := by
      rw [← whole, noAnchor, ite_self]
      rfl
    refine matching.postProcess_eq_plainPage notRight parts (by simp)
      (fun row member => List.mem_of_mem_take member) ?_ ?_
    · simp [noBelow]
    · rw [if_pos (Nat.pos_iff_ne_zero.mp after), List.take_take,
        Nat.min_eq_left (Nat.le_add_right _ _)]

/-- Without hidden history, the limited and trimmed query gives the plain page. -/
theorem fetchMessages_eq (matching : MatchingRows Row rowId) (numBefore numAfter : Nat)
    (anchor : Int) (includeAnchor : Bool) :
    fetchMessages rowId matching.rows numBefore numAfter anchor includeAnchor 0 =
      matching.plainPage numBefore numAfter anchor includeAnchor := by
  by_cases right : anchor ≥ largerThanMaxMessageId
  · exact matching.fetchMessages_eq_of_right right ..
  by_cases left : anchor = 0
  · subst left
    exact matching.fetchMessages_eq_of_left ..
  simp only [fetchMessages, right, decide_false, Bool.false_eq_true, if_false]
  rcases Nat.eq_zero_or_pos numBefore with rfl | before <;>
    rcases Nat.eq_zero_or_pos numAfter with rfl | after
  · rw [limitQueryToRange_neither matching.distinct (Or.inr rfl) rfl]
    have parts : (ascending rowId matching.rows).filter (fun row => rowId row = anchor) = [] ++
        (if includeAnchor || decide (0 = 0 ↔ 0 = 0) then matching.anchorRows anchor else []) ++
          [] := by
      simp [anchorRows, ordered]
    exact matching.postProcess_eq_plainPage right parts (by simp) (by simp) (by simp) (by simp)
  · rw [limitQueryToRange_after matching.distinct rfl (Or.inr rfl) after, if_neg (by simpa using left)]
    exact matching.postProcess_after right after
  · rw [limitQueryToRange_before matching.distinct (decide_eq_false left) before rfl,
      if_neg Bool.false_ne_true]
    exact matching.postProcess_before right before
  · rw [limitQueryToRange_both matching.distinct (decide_eq_false left) rfl before after]
    exact matching.postProcess_both right before after

end FetchMessages

end MatchingRows

end Zulip.Narrow
