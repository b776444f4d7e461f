import Zulip.Narrow.Paging

/-!
# Pages without hidden history

What a page around an anchor should hold, and when `fetch_messages` returns exactly
that: always, except that it ignores `include_anchor` when no row is requested on
either side.
-/

namespace Zulip.Narrow

variable {Row : Type} {rowId : Row → Int}

namespace LimitedMessages

/-- The row is older than the page: below its rows or, when it has none, below the
anchor. -/
def Older (page : LimitedMessages Row) (rowId : Row → Int) (anchor : Int) (row : Row) : Prop :=
  (∀ returned ∈ page.rows, rowId row < rowId returned) ∧ (page.rows = [] → rowId row < anchor)

/-- The row is newer than the page. -/
def Newer (page : LimitedMessages Row) (rowId : Row → Int) (anchor : Int) (row : Row) : Prop :=
  (∀ returned ∈ page.rows, rowId returned < rowId row) ∧ (page.rows = [] → anchor < rowId row)

end LimitedMessages

namespace MatchingRows

variable (matching : MatchingRows Row rowId) (numBefore numAfter : Nat) (anchor : Int)
  (includeAnchor : Bool)

/-- The rows of a page: the last ones below the anchor, the anchor's row if it matches
and is included, and the first ones above the anchor. -/
def page : List Row :=
  (matching.below anchor).rtake numBefore ++
    (if includeAnchor then matching.anchorRows anchor else []) ++
      (matching.above anchor).take numAfter

/-- The page has the right rows, and its flags promise nothing false. -/
structure Exact (result : LimitedMessages Row) : Prop where
  rows : result.rows = matching.page numBefore numAfter anchor includeAnchor
  foundAnchor : result.foundAnchor = true ↔ ∃ row ∈ result.rows, rowId row = anchor
  foundOldest : result.foundOldest = true → ∀ row ∈ matching.rows, ¬ result.Older rowId anchor row
  foundNewest : result.foundNewest = true → ∀ row ∈ matching.rows, ¬ result.Newer rowId anchor row

variable {matching numBefore numAfter anchor includeAnchor}

/-- A row of the plain page. -/
theorem mem_plainPage {row : Row} :
    row ∈ (matching.plainPage numBefore numAfter anchor includeAnchor).rows ↔
      row ∈ (matching.below anchor).rtake numBefore ∨
        ((includeAnchor = true ∨ (numBefore = 0 ↔ numAfter = 0)) ∧
          row ∈ matching.anchorRows anchor) ∨
        row ∈ (matching.above anchor).take numAfter := by
  simp only [plainPage, List.mem_append, or_assoc]
  split <;> simp_all

/-- `found_anchor` says whether the anchor's row is on the page. -/
theorem plainPage_foundAnchor :
    (matching.plainPage numBefore numAfter anchor includeAnchor).foundAnchor = true ↔
      ∃ row ∈ (matching.plainPage numBefore numAfter anchor includeAnchor).rows,
        rowId row = anchor := by
  have few := matching.length_anchorRows_le anchor
  have one : ((matching.anchorRows anchor).length = 1) ↔ ∃ row, row ∈ matching.anchorRows anchor := by
    rw [← List.length_pos_iff_exists_mem]
    omega
  constructor
  · intro found
    simp only [plainPage, decide_eq_true_eq] at found
    split at found
    · rename_i shown
      obtain ⟨row, member⟩ := one.mp found
      exact ⟨row, mem_plainPage.mpr (Or.inr (Or.inl ⟨by simpa using shown, member⟩)),
        (mem_anchorRows.mp member).2⟩
    · cases found
  · rintro ⟨row, member, same⟩
    rcases mem_plainPage.mp member with isBelow | ⟨shown, isAnchor⟩ | isAbove
    · have low := (mem_below.mp ((rtake_sublist _ _).subset isBelow)).2
      exact absurd same (ne_of_lt low)
    · have shownFlag : (includeAnchor || decide (numBefore = 0 ↔ numAfter = 0)) = true := by
        simpa using shown
      simp only [plainPage, shownFlag, if_true, decide_eq_true_eq]
      exact one.mpr ⟨row, isAnchor⟩
    · have high := (mem_above.mp (List.mem_of_mem_take isAbove)).2
      exact absurd same (ne_of_gt high)

/-- A row above the anchor is not older than the page when rows above are requested. -/
theorem not_older_of_above {row : Row} (isAbove : row ∈ matching.above anchor)
    (older : (matching.plainPage numBefore numAfter anchor includeAnchor).Older rowId anchor row) :
    numAfter = 0 := by
  by_contra some
  obtain ⟨first, isFirst, within⟩ := (matching.ordered_increasing.filter _).exists_le_of_mem_take
    isAbove (Nat.pos_iff_ne_zero.mpr some)
  exact absurd (older.1 first (mem_plainPage.mpr (Or.inr (Or.inr isFirst)))) (not_lt.mpr within)

/-- A row below the anchor is not newer than the page when rows below are requested. -/
theorem not_newer_of_below {row : Row} (isBelow : row ∈ matching.below anchor)
    (newer : (matching.plainPage numBefore numAfter anchor includeAnchor).Newer rowId anchor row) :
    numBefore = 0 := by
  by_contra some
  obtain ⟨last, isLast, within⟩ := (matching.ordered_increasing.filter _).exists_ge_of_mem_rtake
    isBelow (Nat.pos_iff_ne_zero.mpr some)
  exact absurd (newer.1 last (mem_plainPage.mpr (Or.inl isLast))) (not_lt.mpr within)

/-- The anchor's row is on the page unless it was excluded at an end of the page. -/
theorem mem_plainPage_of_anchor {row : Row} (isAnchor : row ∈ matching.anchorRows anchor)
    (shown : includeAnchor = true ∨ (numBefore = 0 ↔ numAfter = 0)) :
    row ∈ (matching.plainPage numBefore numAfter anchor includeAnchor).rows :=
  mem_plainPage.mpr (Or.inr (Or.inl ⟨shown, isAnchor⟩))

/-- `found_oldest` is true only when no matching row is older than the page. -/
theorem plainPage_foundOldest
    (found : (matching.plainPage numBefore numAfter anchor includeAnchor).foundOldest = true)
    {row : Row} (isRow : row ∈ matching.rows) :
    ¬ (matching.plainPage numBefore numAfter anchor includeAnchor).Older rowId anchor row := by
  intro older
  have notReturned : row ∉ (matching.plainPage numBefore numAfter anchor includeAnchor).rows :=
    fun returned => lt_irrefl _ (older.1 row returned)
  simp only [plainPage, Bool.or_eq_true, decide_eq_true_eq, length_rtake] at found
  rcases lt_trichotomy (rowId row) anchor with low | same | high
  · -- All rows below the anchor are on the page.
    have few : (matching.below anchor).length ≤ numBefore := by
      rcases found with rfl | short
      · exact absurd low (lt_asymm (matching.positive row isRow))
      · omega
    refine notReturned (mem_plainPage.mpr (Or.inl ?_))
    rw [rtake_of_length_le few]
    exact mem_below.mpr ⟨isRow, low⟩
  · -- The anchor's row is left out only at the end of a page of rows below it.
    have before : 0 < numBefore := by
      rcases found with rfl | short
      · exact absurd same (ne_of_gt (matching.positive row isRow))
      · omega
    have hidden : ¬ (includeAnchor = true ∨ (numBefore = 0 ↔ numAfter = 0)) := fun shown =>
      notReturned (mem_plainPage_of_anchor (mem_anchorRows.mpr ⟨isRow, same⟩) shown)
    have noAfter : numAfter = 0 := by
      by_contra after
      exact hidden (Or.inr (iff_of_false (Nat.pos_iff_ne_zero.mp before) after))
    have empty : (matching.plainPage numBefore numAfter anchor includeAnchor).rows = [] := by
      refine List.eq_nil_iff_forall_not_mem.mpr fun returned member => ?_
      have above := older.1 returned member
      rcases mem_plainPage.mp member with isBelow | ⟨shown, _⟩ | isAbove
      · have low := (mem_below.mp ((rtake_sublist _ _).subset isBelow)).2
        omega
      · exact hidden shown
      · simp [noAfter] at isAbove
    exact absurd (older.2 empty) (not_lt.mpr (le_of_eq same.symm))
  · -- No row above the anchor was requested.
    have noAfter := not_older_of_above (mem_above.mpr ⟨isRow, high⟩) older
    have empty : (matching.plainPage numBefore numAfter anchor includeAnchor).rows = [] := by
      refine List.eq_nil_iff_forall_not_mem.mpr fun returned member => ?_
      have above := older.1 returned member
      rcases mem_plainPage.mp member with isBelow | ⟨_, isAnchor⟩ | isAbove
      · have low := (mem_below.mp ((rtake_sublist _ _).subset isBelow)).2
        omega
      · have same := (mem_anchorRows.mp isAnchor).2
        omega
      · simp [noAfter] at isAbove
    exact absurd (older.2 empty) (lt_asymm high)

/-- `found_newest` is true only when no matching row is newer than the page. -/
theorem plainPage_foundNewest
    (found : (matching.plainPage numBefore numAfter anchor includeAnchor).foundNewest = true)
    {row : Row} (isRow : row ∈ matching.rows) :
    ¬ (matching.plainPage numBefore numAfter anchor includeAnchor).Newer rowId anchor row := by
  intro newer
  have notReturned : row ∉ (matching.plainPage numBefore numAfter anchor includeAnchor).rows :=
    fun returned => lt_irrefl _ (newer.1 row returned)
  simp only [plainPage, Bool.or_eq_true, decide_eq_true_eq, List.length_take] at found
  have belowMax := matching.belowMax row isRow
  rcases lt_trichotomy (rowId row) anchor with low | same | high
  · -- No row below the anchor was requested.
    have noBefore := not_newer_of_below (mem_below.mpr ⟨isRow, low⟩) newer
    have empty : (matching.plainPage numBefore numAfter anchor includeAnchor).rows = [] := by
      refine List.eq_nil_iff_forall_not_mem.mpr fun returned member => ?_
      have below := newer.1 returned member
      rcases mem_plainPage.mp member with isBelow | ⟨_, isAnchor⟩ | isAbove
      · simp [noBefore] at isBelow
      · have same := (mem_anchorRows.mp isAnchor).2
        omega
      · have high := (mem_above.mp (List.mem_of_mem_take isAbove)).2
        omega
    exact absurd (newer.2 empty) (lt_asymm low)
  · -- The anchor's row is left out only at the start of a page of rows above it.
    have after : 0 < numAfter := by
      rcases found with right | short
      · omega
      · omega
    have hidden : ¬ (includeAnchor = true ∨ (numBefore = 0 ↔ numAfter = 0)) := fun shown =>
      notReturned (mem_plainPage_of_anchor (mem_anchorRows.mpr ⟨isRow, same⟩) shown)
    have noBefore : numBefore = 0 := by
      by_contra before
      exact hidden (Or.inr (iff_of_false before (Nat.pos_iff_ne_zero.mp after)))
    have empty : (matching.plainPage numBefore numAfter anchor includeAnchor).rows = [] := by
      refine List.eq_nil_iff_forall_not_mem.mpr fun returned member => ?_
      have below := newer.1 returned member
      rcases mem_plainPage.mp member with isBelow | ⟨shown, _⟩ | isAbove
      · simp [noBefore] at isBelow
      · exact hidden shown
      · have high := (mem_above.mp (List.mem_of_mem_take isAbove)).2
        omega
    exact absurd (newer.2 empty) (not_lt.mpr (le_of_eq same))
  · -- All rows above the anchor are on the page.
    have few : (matching.above anchor).length ≤ numAfter := by
      rcases found with right | short
      · omega
      · omega
    refine notReturned (mem_plainPage.mpr (Or.inr (Or.inr ?_)))
    rw [List.take_of_length_le few]
    exact mem_above.mpr ⟨isRow, high⟩

/-- The plain page has the right rows unless nothing was requested and the anchor's row
matches but was excluded. -/
theorem plainPage_rows_iff (allowed : includeAnchor = false → numBefore = 0 ∨ numAfter = 0) :
    (matching.plainPage numBefore numAfter anchor includeAnchor).rows =
        matching.page numBefore numAfter anchor includeAnchor ↔
      ¬ (numBefore = 0 ∧ numAfter = 0 ∧ includeAnchor = false ∧
        ∃ row ∈ matching.rows, rowId row = anchor) := by
  have none : matching.anchorRows anchor = [] ↔ ¬ ∃ row ∈ matching.rows, rowId row = anchor := by
    rw [List.eq_nil_iff_forall_not_mem]
    simp
  cases includeAnchor with
  | true => simp [plainPage, page]
  | false =>
      by_cases noBefore : numBefore = 0 <;> by_cases noAfter : numAfter = 0
      · rw [and_iff_right noBefore, and_iff_right noAfter, and_iff_right rfl, ← none]
        simp [plainPage, page, noBefore, noAfter]
      · simp [plainPage, page, noBefore, noAfter]
      · simp [plainPage, page, noBefore, noAfter]
      · exact absurd (allowed rfl) (not_or.mpr ⟨noBefore, noAfter⟩)

end MatchingRows

open MatchingRows in
/-- Where no history is hidden, `fetch_messages` returns the page around the anchor unless
no row is requested on either side and the anchor's row matches but is excluded. -/
theorem fetchMessages_exact_iff (matching : MatchingRows Row rowId) (numBefore numAfter : Nat)
    (anchor : Int) (includeAnchor : Bool)
    (allowed : includeAnchor = false → numBefore = 0 ∨ numAfter = 0) :
    matching.Exact numBefore numAfter anchor includeAnchor
        (fetchMessages rowId matching.rows numBefore numAfter anchor includeAnchor 0) ↔
      ¬ (numBefore = 0 ∧ numAfter = 0 ∧ includeAnchor = false ∧
        ∃ row ∈ matching.rows, rowId row = anchor) := by
  rw [matching.fetchMessages_eq, ← plainPage_rows_iff allowed]
  exact ⟨Exact.rows, fun rows => ⟨rows, plainPage_foundAnchor,
    fun found _ => plainPage_foundOldest found, fun found _ => plainPage_foundNewest found⟩⟩

/-- Four messages, kept in the order in which they were edited. -/
def fourMessages : MatchingRows Int id where
  rows := [4, 1, 3, 2]
  distinct := by decide
  positive := by decide
  belowMax := by decide

/-- One message before an excluded anchor. -/
theorem fetchMessages_exact_iff_before :
    fourMessages.Exact 1 0 3 false (fetchMessages id fourMessages.rows 1 0 3 false 0) :=
  (fetchMessages_exact_iff fourMessages 1 0 3 false fun _ => Or.inr rfl).mpr
    fun failing => absurd failing.1 (by decide)

/-- With nothing requested, the excluded message is returned. -/
theorem fetchMessages_ignores_includeAnchor :
    (fetchMessages id fourMessages.rows 0 0 3 false 0).rows = [3] ∧
      fourMessages.page 0 0 3 false = [] ∧
      ¬ fourMessages.Exact 0 0 3 false (fetchMessages id fourMessages.rows 0 0 3 false 0) := by
  refine ⟨by decide, by decide, fun exact => ?_⟩
  exact absurd exact.rows (by decide)

end Zulip.Narrow
