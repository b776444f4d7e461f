import Mathlib.Algebra.Order.Group.Nat
import Mathlib.Data.List.TakeDrop

/-!
# The edit between two strings

`get_string_diff` finds where two strings differ, by a scan from their beginnings and one from their
ends. `getStringDiff_minimal` says that the edit makes the second string of the first one, and that
no smaller one does.
-/

namespace Zulip.Client

universe u

variable {CodeUnit : Type u}

/-! ## What an edit is -/

/-- Between `start` and an end of its own in each string, the second string replaces the first. -/
structure Splices (string1 string2 : List CodeUnit) (start end1 end2 : ℕ) : Prop where
  start_le_end1 : start ≤ end1
  end1_le : end1 ≤ string1.length
  start_le_end2 : start ≤ end2
  end2_le : end2 ≤ string2.length
  spliced : string1.take start ++ (string2.take end2).drop start ++ string1.drop end1 = string2

/-- What is kept is the longest common beginning, and the longest common end of the rest. -/
structure KeepsMost (string1 string2 : List CodeUnit) (start end1 end2 : ℕ) : Prop where
  commonStart : string1.take start = string2.take start
  longestStart : ∀ length ≤ min string1.length string2.length,
    string1.take length = string2.take length → length ≤ start
  commonEnd : string1.drop end1 = string2.drop end2
  longestEnd : ∀ length ≤ min (string1.length - start) (string2.length - start),
    string1.drop (string1.length - length) = string2.drop (string2.length - length) →
      length ≤ string1.length - end1

variable {string1 string2 : List CodeUnit} {start end1 end2 i j : ℕ}

/-- With a common beginning and a common end, the rest of the second string is spliced in. -/
theorem splices_of_common (first : start ≤ end1) (within1 : end1 ≤ string1.length)
    (second : start ≤ end2) (within2 : end2 ≤ string2.length)
    (commonStart : string1.take start = string2.take start)
    (commonEnd : string1.drop end1 = string2.drop end2) :
    Splices string1 string2 start end1 end2 := by
  refine ⟨first, within1, second, within2, ?_⟩
  have beginning : (string2.take end2).take start = string2.take start := by
    rw [List.take_take, min_eq_left second]
  calc
    string1.take start ++ (string2.take end2).drop start ++ string1.drop end1 =
        (string2.take end2).take start ++ (string2.take end2).drop start ++ string2.drop end2 := by
      rw [commonStart, commonEnd, beginning]
    _ = string2.take end2 ++ string2.drop end2 := by rw [List.take_append_drop]
    _ = string2 := List.take_append_drop end2 string2

/-- A string from an index on begins with the character there. -/
theorem drop_eq_of_getElem?_eq (inFirst : 0 < i) (inSecond : 0 < j) (within : i ≤ string1.length)
    (same : string1[i - 1]? = string2[j - 1]?) (common : string1.drop i = string2.drop j) :
    string1.drop (i - 1) = string2.drop (j - 1) := by
  obtain ⟨before1, rfl⟩ : ∃ before, i = before + 1 := ⟨i - 1, by omega⟩
  obtain ⟨before2, rfl⟩ : ∃ before, j = before + 1 := ⟨j - 1, by omega⟩
  rw [Nat.add_sub_cancel, Nat.add_sub_cancel] at same ⊢
  have isFirst := List.getElem?_eq_getElem (show before1 < string1.length by omega)
  rw [isFirst] at same
  obtain ⟨inString2, isSecond⟩ := List.getElem?_eq_some_iff.mp same.symm
  rw [List.drop_eq_getElem_cons (by omega), List.drop_eq_getElem_cons inString2, isSecond, common]

/-- Where the strings differ first, no longer beginning is common. -/
theorem longestStart_of_differs (differs : start < min string1.length string2.length →
      string1[start]? ≠ string2[start]?) (length : ℕ)
    (within : length ≤ min string1.length string2.length)
    (common : string1.take length = string2.take length) : length ≤ start := by
  by_contra longer
  apply differs (by omega)
  have inFirst : (string1.take length)[start]? = string1[start]? :=
    List.getElem?_take_of_lt (by omega)
  have inSecond : (string2.take length)[start]? = string2[start]? :=
    List.getElem?_take_of_lt (by omega)
  rw [← inFirst, ← inSecond, common]

/-- Where the strings differ last, no longer end is common. -/
theorem longestEnd_of_differs (within1 : end1 ≤ string1.length) (within2 : end2 ≤ string2.length)
    (ends : string1.length - end1 = string2.length - end2)
    (differs : start < end1 → start < end2 → string1[end1 - 1]? ≠ string2[end2 - 1]?) (length : ℕ)
    (within : length ≤ min (string1.length - start) (string2.length - start))
    (common : string1.drop (string1.length - length) = string2.drop (string2.length - length)) :
    length ≤ string1.length - end1 := by
  by_contra longer
  apply differs (by omega) (by omega)
  have inFirst : (string1.drop (string1.length - length))[length - (string1.length - end1) - 1]? =
      string1[end1 - 1]? := by
    rw [List.getElem?_drop]
    congr 1
    omega
  have inSecond : (string2.drop (string2.length - length))[length - (string1.length - end1) - 1]? =
      string2[end2 - 1]? := by
    rw [List.getElem?_drop]
    congr 1
    omega
  rw [← inFirst, ← inSecond, common]

/-! ## The scans -/

variable [DecidableEq CodeUnit]

/-- The first loop of `get_string_diff`, with the number of indexes that are left. Here
`diffStartIndex` is one more than in the source, which adds one after the loop. -/
def diffStartLoop (string1 string2 : List CodeUnit) : ℕ → ℕ → ℕ → ℕ
  | 0, _, diffStartIndex => diffStartIndex
  | remaining + 1, i, diffStartIndex =>
      if string1[i]? = string2[i]? then diffStartLoop string1 string2 remaining (i + 1) (i + 1)
      else diffStartIndex

/-- The second loop of `get_string_diff`. Here `i` and `j` are one more than the indexes of the
source, which may pass the beginning of a string. -/
def diffEndLoop (string1 string2 : List CodeUnit) (diffStartIndex i j : ℕ) (ends : ℕ × ℕ) : ℕ × ℕ :=
  if diffStartIndex < i ∧ diffStartIndex < j then
    if string1[i - 1]? = string2[j - 1]? then
      diffEndLoop string1 string2 diffStartIndex (i - 1) (j - 1) (i - 1, j - 1)
    else ends
  else ends
termination_by i

/-- `get_string_diff`, of strings as lists of code units. -/
def getStringDiff (string1 string2 : List CodeUnit) : ℕ × ℕ × ℕ :=
  let diffStartIndex := diffStartLoop string1 string2 (min string1.length string2.length) 0 0
  if string1.length = string2.length ∧ string1.length = diffStartIndex then (0, 0, 0)
  else
    let ends := diffEndLoop string1 string2 diffStartIndex string1.length string2.length
      (string1.length, string2.length)
    (diffStartIndex, ends.1, ends.2)

/-! ## What the scans find -/

/-- The first scan stops at the first difference, or at the end of a string. -/
theorem diffStartLoop_spec {remaining : ℕ}
    (left : i + remaining = min string1.length string2.length)
    (common : string1.take i = string2.take i) :
    i ≤ diffStartLoop string1 string2 remaining i i ∧
      diffStartLoop string1 string2 remaining i i ≤ min string1.length string2.length ∧
      string1.take (diffStartLoop string1 string2 remaining i i) =
        string2.take (diffStartLoop string1 string2 remaining i i) ∧
      (diffStartLoop string1 string2 remaining i i < min string1.length string2.length →
        string1[diffStartLoop string1 string2 remaining i i]? ≠
          string2[diffStartLoop string1 string2 remaining i i]?) := by
  induction remaining generalizing i with
  | zero =>
      refine ⟨le_rfl, by rw [diffStartLoop]; omega, common, fun below => ?_⟩
      rw [diffStartLoop] at below
      omega
  | succ remaining inductionHypothesis =>
      rw [diffStartLoop]
      split_ifs with same
      · have next : string1.take (i + 1) = string2.take (i + 1) := by
          rw [List.take_add_one, List.take_add_one, common, same]
        obtain ⟨after, rest⟩ := inductionHypothesis (by omega) next
        exact ⟨by omega, rest⟩
      · exact ⟨le_rfl, by omega, common, fun _ => same⟩

/-- The second scan goes back over a common end, and stops before a difference or where the common
beginning ends in one of the strings. -/
theorem diffEndLoop_spec (first : start ≤ i) (within1 : i ≤ string1.length) (second : start ≤ j)
    (within2 : j ≤ string2.length) (common : string1.drop i = string2.drop j)
    (ends : string1.length - i = string2.length - j) :
    ∃ end1 end2, diffEndLoop string1 string2 start i j (i, j) = (end1, end2) ∧
      start ≤ end1 ∧ end1 ≤ i ∧ start ≤ end2 ∧ end2 ≤ j ∧
      string1.drop end1 = string2.drop end2 ∧
      string1.length - end1 = string2.length - end2 ∧
      (start < end1 → start < end2 → string1[end1 - 1]? ≠ string2[end2 - 1]?) := by
  induction i using Nat.strong_induction_on generalizing j with
  | _ i inductionHypothesis =>
      rw [diffEndLoop]
      split_ifs with inside same
      · obtain ⟨end1, end2, isEnd, start1, before1, start2, before2, rest⟩ :=
          inductionHypothesis (i - 1) (by omega) (by omega) (by omega) (j := j - 1) (by omega)
            (by omega)
            (drop_eq_of_getElem?_eq (by omega) (by omega) within1 same common) (by omega)
        exact ⟨end1, end2, isEnd, start1, by omega, start2, by omega, rest⟩
      · exact ⟨i, j, rfl, first, le_rfl, second, le_rfl, common, ends, fun _ _ => same⟩
      · exact ⟨i, j, rfl, first, le_rfl, second, le_rfl, common, ends,
          fun in1 in2 => absurd ⟨in1, in2⟩ inside⟩

/-- The result for two strings: nothing when they are equal, and else what is left between the
longest common beginning and end. -/
theorem getStringDiff_cases (string1 string2 : List CodeUnit) :
    (string1 = string2 ∧ getStringDiff string1 string2 = (0, 0, 0)) ∨
      (string1 ≠ string2 ∧ ∃ start end1 end2,
        getStringDiff string1 string2 = (start, end1, end2) ∧
          Splices string1 string2 start end1 end2 ∧
          KeepsMost string1 string2 start end1 end2) := by
  obtain ⟨-, within, commonStart, differs⟩ := @diffStartLoop_spec _ string1 string2 0 _
    (min string1.length string2.length) (Nat.zero_add _) rfl
  generalize isStart : diffStartLoop string1 string2 (min string1.length string2.length) 0 0 = start
    at within commonStart differs
  unfold getStringDiff
  rw [isStart]
  dsimp only
  split_ifs with identical
  · refine .inl ⟨?_, rfl⟩
    rw [List.take_of_length_le (by omega), List.take_of_length_le (by omega)] at commonStart
    exact commonStart
  · obtain ⟨end1, end2, isEnd, start1, before1, start2, before2, commonEnd, ends, endDiffers⟩ :=
      @diffEndLoop_spec _ string1 string2 start string1.length string2.length _ (by omega) le_rfl
        (by omega) le_rfl (by rw [List.drop_length, List.drop_length]) (by omega)
    rw [isEnd]
    have longestStart := longestStart_of_differs differs
    refine .inr ⟨fun same => identical ?_, start, end1, end2, rfl,
      splices_of_common start1 before1 start2 before2 commonStart commonEnd,
      commonStart, longestStart, commonEnd, longestEnd_of_differs before1 before2 ends endDiffers⟩
    subst same
    have whole := longestStart string1.length (by omega) rfl
    exact ⟨rfl, by omega⟩

/-- The result is `[0, 0, 0]` exactly for equal strings. The edit always makes the second string of
the first one, and for different strings it keeps the longest common beginning and the longest
common end of the rest. -/
theorem getStringDiff_minimal (string1 string2 : List CodeUnit) :
    ∃ start end1 end2, getStringDiff string1 string2 = (start, end1, end2) ∧
      Splices string1 string2 start end1 end2 ∧
      ((start, end1, end2) = (0, 0, 0) ↔ string1 = string2) ∧
      (string1 ≠ string2 → KeepsMost string1 string2 start end1 end2) := by
  rcases getStringDiff_cases string1 string2 with ⟨rfl, result⟩ | ⟨different, start, end1, end2,
    result, splices, keeps⟩
  · exact ⟨0, 0, 0, result, ⟨le_rfl, Nat.zero_le _, le_rfl, Nat.zero_le _, by simp⟩,
      iff_of_true rfl rfl, fun different => absurd rfl different⟩
  · refine ⟨start, end1, end2, result, splices, iff_of_false (fun none => ?_) different,
      fun _ => keeps⟩
    obtain ⟨rfl, rfl, rfl⟩ : start = 0 ∧ end1 = 0 ∧ end2 = 0 := by simpa using none
    exact different (by simpa using splices.spliced)

/-- Where a name becomes a mention, the edit is inside of the mention. -/
theorem getStringDiff_minimal_mention :
    "#ann is".toList ≠ "#**announce** is".toList ∧
      ∃ start end1 end2,
        getStringDiff "#ann is".toList "#**announce** is".toList = (start, end1, end2) ∧
          KeepsMost "#ann is".toList "#**announce** is".toList start end1 end2 := by
  have different : "#ann is".toList ≠ "#**announce** is".toList := by decide
  obtain ⟨start, end1, end2, result, -, -, keeps⟩ :=
    getStringDiff_minimal "#ann is".toList "#**announce** is".toList
  exact ⟨different, start, end1, end2, result, keeps different⟩

/-- For equal strings the result is `[0, 0, 0]`, which does not keep their common beginning. -/
theorem getStringDiff_same_keepsLess :
    getStringDiff ['a'] ['a'] = (0, 0, 0) ∧ ¬ KeepsMost ['a'] ['a'] 0 0 0 := by
  refine ⟨by decide +kernel, fun keeps => ?_⟩
  exact absurd (keeps.longestStart 1 (by decide) rfl) (by decide)

end Zulip.Client
