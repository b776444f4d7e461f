import Mathlib.Data.List.Lex
import Mathlib.Data.List.Sort
import Mathlib.Order.Basic
import Zulip.Foundation.Matching

/-!
# Matching the words of a query in any order

The typeahead gives each word of a query the last word of the source that begins with it.
`queryMatchesStringInAnyOrder_exact` says that these choices succeed whenever some assignment of
source words to query words does. Strings are lists of code units.
-/

namespace Zulip.Client

universe u

variable {CodeUnit : Type u} [LinearOrder CodeUnit]

/-! ## The source -/

/-- The loop of `last_prefix_match`: `left` and `found` at its end. -/
def lastPrefixMatchLoop (start : List CodeUnit) (words : List (List CodeUnit)) (left right : ℕ)
    (found : Bool) : ℕ × Bool :=
  if left < right then
    let mid := (left + right) / 2
    if start.isPrefixOf words[mid]! then lastPrefixMatchLoop start words (mid + 1) right true
    else if words[mid]! < start then lastPrefixMatchLoop start words (mid + 1) right found
    else lastPrefixMatchLoop start words left mid found
  else (left, found)
termination_by right - left

/-- `last_prefix_match`. -/
def lastPrefixMatch (start : List CodeUnit) (words : List (List CodeUnit)) : Option ℕ :=
  let (left, found) := lastPrefixMatchLoop start words 0 words.length false
  if found then some (left - 1) else none

/-- The loop of `query_matches_string_in_any_order` over the search words. -/
def matchSearchWords : List (List CodeUnit) → List (List CodeUnit) → Bool
  | [], _ => true
  | word :: searchWords, sourceWords =>
      match lastPrefixMatch word sourceWords with
      | none => false
      | some matchIndex => matchSearchWords searchWords (sourceWords.eraseIdx matchIndex)

/-- `split(split_char).filter(Boolean)`. -/
def nonemptyWords (splitChar : CodeUnit) (text : List CodeUnit) : List (List CodeUnit) :=
  (text.splitOn splitChar).filter fun word => !word.isEmpty

/-- `query_matches_string_in_any_order`, for any way to lower the case of a string and to remove
its diacritics. -/
def queryMatchesStringInAnyOrder (toLowerCase removeDiacritics : List CodeUnit → List CodeUnit)
    (query sourceStr : List CodeUnit) (splitChar : CodeUnit) : Bool :=
  let searchWords := nonemptyWords splitChar (removeDiacritics (toLowerCase query))
  let sourceWords := nonemptyWords splitChar (removeDiacritics (toLowerCase sourceStr))
  if searchWords.length > sourceWords.length then false
  else
    matchSearchWords (searchWords.mergeSort (· ≤ ·)).reverse (sourceWords.mergeSort (· ≤ ·))

/-! ## Beginnings in the order of words -/

variable {start word later : List CodeUnit}

/-- Words are ordered by the first unit that differs, and a beginning is before its word. -/
theorem cons_le_cons_iff {unit other : CodeUnit} :
    unit :: start ≤ other :: word ↔ unit < other ∨ unit = other ∧ start ≤ word := by
  have less : other :: word < unit :: start ↔ other < unit ∨ other = unit ∧ word < start :=
    List.cons_lt_cons_iff
  rw [← not_lt, less, ← not_lt (a := word)]
  rcases lt_trichotomy unit other with before | rfl | after
  · simp [before, before.not_gt, before.ne']
  · simp
  · simp [after, after.not_gt, after.ne']

theorem nil_le (word : List CodeUnit) : [] ≤ word := by
  apply not_lt.mp
  intro less
  cases less

theorem le_of_isPrefix (begins : start <+: word) : start ≤ word := by
  obtain ⟨rest, rfl⟩ := begins
  induction start with
  | nil => exact nil_le _
  | cons unit start inductionHypothesis =>
      exact cons_le_cons_iff.mpr (.inr ⟨rfl, inductionHypothesis⟩)

/-- The words with a beginning stand together. -/
theorem isPrefix_of_between (first : start ≤ word) (second : word ≤ later)
    (begins : start <+: later) : start <+: word := by
  obtain ⟨rest, rfl⟩ := begins
  induction start generalizing word with
  | nil => exact List.nil_prefix
  | cons unit start inductionHypothesis =>
      cases word with
      | nil => exact absurd .nil (not_lt.mpr first)
      | cons other word =>
          rcases cons_le_cons_iff.mp first with less | ⟨rfl, rest1⟩ <;>
            rcases cons_le_cons_iff.mp second with less' | ⟨same, rest2⟩
          · exact absurd less' less.not_gt
          · exact absurd same less.ne'
          · exact absurd less' (lt_irrefl _)
          · exact (List.prefix_cons_inj unit).mpr (inductionHypothesis rest1 rest2)

/-- Of two beginnings of a word the one that is not greater begins the other. -/
theorem isPrefix_of_le {shorter longer : List CodeUnit} (order : shorter ≤ longer)
    (begins : shorter <+: word) (begins' : longer <+: word) : shorter <+: longer := by
  rcases List.prefix_or_prefix_of_prefix begins begins' with within | within
  · exact within
  · obtain rfl := le_antisymm order (le_of_isPrefix within)
    exact within

/-! ## The search -/

variable {words : List (List CodeUnit)} {left right index : ℕ} {found : Bool}

/-- In a sorted list, after a word that is past the beginning, all words are. -/
theorem past_of_le (sorted : words.Pairwise (· ≤ ·)) {mid : ℕ} (inWords : mid < words.length)
    (notBegins : ¬ start <+: words[mid]) (notBefore : ¬ words[mid] < start)
    (isLater : index < words.length) (order : mid ≤ index) :
    ¬ start <+: words[index] := by
  intro begins
  have inOrder : words[mid] ≤ words[index] := by
    rcases order.eq_or_lt with rfl | less
    · exact le_rfl
    · exact List.pairwise_iff_getElem.mp sorted mid index inWords isLater less
  exact notBegins (isPrefix_of_between (not_lt.mp notBefore) inOrder begins)

/-- What the search knows of the places it has left. -/
structure Searched (start : List CodeUnit) (words : List (List CodeUnit)) (left right : ℕ)
    (found : Bool) : Prop where
  ordered : left ≤ right
  within : right ≤ words.length
  past : ∀ index (inWords : index < words.length), right ≤ index → ¬ start <+: words[index]
  before : found = false →
    ∀ index (inWords : index < words.length), index < left → words[index] < start
  isLast : found = true →
    ∃ last, left = last + 1 ∧ ∃ inWords : last < words.length, start <+: words[last]

/-- The search ends where it has left all places. -/
theorem lastPrefixMatchLoop_spec (sorted : words.Pairwise (· ≤ ·))
    (searched : Searched start words left right found) :
    ∃ finish found', lastPrefixMatchLoop start words left right found = (finish, found') ∧
      Searched start words finish finish found' := by
  fun_induction lastPrefixMatchLoop start words left right found with
  | case1 left right found unfinished mid begins inductionHypothesis =>
      have inWords : mid < words.length := by have := searched.within; omega
      rw [getElem!_pos words mid inWords, List.isPrefixOf_iff_prefix] at begins
      exact inductionHypothesis
        { ordered := by omega
          within := searched.within
          past := searched.past
          before := fun notFound => nomatch notFound
          isLast := fun _ => ⟨mid, rfl, inWords, begins⟩ }
  | case2 left right found unfinished mid notBegins isBefore inductionHypothesis =>
      have inWords : mid < words.length := by have := searched.within; omega
      rw [getElem!_pos words mid inWords] at isBefore
      refine inductionHypothesis
        { ordered := by omega
          within := searched.within
          past := searched.past
          before := fun notFound index isIndex less => ?_
          isLast := fun isFound => ?_ }
      · rcases (Nat.lt_succ_iff.mp less).eq_or_lt with rfl | earlier
        · exact isBefore
        · exact (List.pairwise_iff_getElem.mp sorted index mid isIndex inWords earlier).trans_lt
            isBefore
      · -- No word before the beginning comes after one that has it.
        obtain ⟨last, rfl, isIndex, begins⟩ := searched.isLast isFound
        have order := List.pairwise_iff_getElem.mp sorted last mid isIndex inWords (by omega)
        exact absurd ((le_of_isPrefix begins).trans order) (not_le.mpr isBefore)
  | case3 left right found unfinished mid notBegins notBefore inductionHypothesis =>
      have inWords : mid < words.length := by have := searched.within; omega
      rw [getElem!_pos words mid inWords] at notBegins notBefore
      rw [List.isPrefixOf_iff_prefix] at notBegins
      exact inductionHypothesis
        { ordered := by omega
          within := by omega
          past := fun index isIndex order =>
            past_of_le sorted inWords notBegins notBefore isIndex order
          before := searched.before
          isLast := searched.isLast }
  | case4 left right found finished =>
      obtain rfl : left = right := by have := searched.ordered; omega
      exact ⟨left, found, rfl, searched⟩

/-- In a sorted list the search finds the last word with a beginning, if there is one. -/
theorem lastPrefixMatch_spec (sorted : words.Pairwise (· ≤ ·)) :
    match lastPrefixMatch start words with
    | none => ∀ word ∈ words, ¬ start <+: word
    | some matchIndex =>
        (∃ inWords : matchIndex < words.length, start <+: words[matchIndex]) ∧
          ∀ index (inWords : index < words.length), matchIndex < index →
            ¬ start <+: words[index] := by
  have initially : Searched start words 0 words.length false :=
    { ordered := Nat.zero_le _
      within := le_rfl
      past := fun index inWords order => by omega
      before := fun _ index _ less => by omega
      isLast := fun isFound => nomatch isFound }
  obtain ⟨finish, found, result, searched⟩ := lastPrefixMatchLoop_spec sorted initially
  rw [lastPrefixMatch, result]
  cases found with
  | false =>
      intro word isWord begins
      obtain ⟨index, inWords, rfl⟩ := List.mem_iff_getElem.mp isWord
      rcases lt_or_ge index finish with less | order
      · exact absurd (searched.before rfl index inWords less) (not_lt.mpr (le_of_isPrefix begins))
      · exact searched.past index inWords order begins
  | true =>
      obtain ⟨last, rfl, inWords, begins⟩ := searched.isLast rfl
      exact ⟨⟨inWords, begins⟩, fun index isIndex less => searched.past index isIndex less⟩

example : lastPrefixMatch [1] [[0], [1], [1, 2], [1, 2], [2]] = some 3 := by decide +kernel

/-! ## The choices -/

variable {searchWords sourceWords : List (List CodeUnit)}

/-- With the search words in descending order and the source words in ascending order, the loop
succeeds exactly when each search word can have a source word of its own. -/
theorem matchSearchWords_iff (descending : searchWords.Pairwise (· ≥ ·))
    (ascending : sourceWords.Pairwise (· ≤ ·)) :
    matchSearchWords searchWords sourceWords = true ↔
      Assignable (· <+: ·) searchWords sourceWords := by
  induction searchWords generalizing sourceWords with
  | nil => exact iff_of_true rfl .nil
  | cons word searchWords inductionHypothesis =>
      obtain ⟨greatest, descending⟩ := List.pairwise_cons.mp descending
      have spec := @lastPrefixMatch_spec _ _ word _ ascending
      rw [matchSearchWords]
      cases isMatch : lastPrefixMatch word sourceWords with
      | none =>
          rw [isMatch] at spec
          exact iff_of_false Bool.false_ne_true (not_assignable_cons spec)
      | some matchIndex =>
          rw [isMatch] at spec
          obtain ⟨⟨inWords, begins⟩, -⟩ := spec
          have rest := ascending.sublist (List.eraseIdx_sublist sourceWords matchIndex)
          have taken := List.getElem_cons_eraseIdx_perm inWords
          -- A search word that is left begins this one when both begin the word that is taken.
          have spares : ∀ other ∈ searchWords, other <+: sourceWords[matchIndex] →
              ∀ choice, word <+: choice → other <+: choice :=
            fun other isLeft begins' choice begins'' =>
              (isPrefix_of_le (greatest other isLeft) begins' begins).trans begins''
          exact (inductionHypothesis descending rest).trans
            (assignable_cons_iff begins taken spares).symm

/-- A query matches exactly when different words of the source can be assigned to the words of the
query, each to a beginning of it. -/
theorem queryMatchesStringInAnyOrder_exact
    (toLowerCase removeDiacritics : List CodeUnit → List CodeUnit)
    (query sourceStr : List CodeUnit) (splitChar : CodeUnit) :
    queryMatchesStringInAnyOrder toLowerCase removeDiacritics query sourceStr splitChar = true ↔
      Nonempty (Assignment (fun queryWord sourceWord => queryWord <+: sourceWord)
        (nonemptyWords splitChar (removeDiacritics (toLowerCase query)))
        (nonemptyWords splitChar (removeDiacritics (toLowerCase sourceStr)))) := by
  rw [queryMatchesStringInAnyOrder, ← assignable_iff_assignment]
  generalize nonemptyWords splitChar (removeDiacritics (toLowerCase query)) = searchWords
  generalize nonemptyWords splitChar (removeDiacritics (toLowerCase sourceStr)) = sourceWords
  split_ifs with more
  · exact iff_of_false not_false fun assignable =>
      absurd assignable.length_le (by omega)
  · have descending : (searchWords.mergeSort (· ≤ ·)).reverse.Pairwise (· ≥ ·) :=
      List.pairwise_reverse.mpr (List.pairwise_mergeSort' (· ≤ ·) searchWords)
    have ascending : (sourceWords.mergeSort (· ≤ ·)).Pairwise (· ≤ ·) :=
      List.pairwise_mergeSort' (· ≤ ·) sourceWords
    have sameSearch : (searchWords.mergeSort (· ≤ ·)).reverse.Perm searchWords :=
      (List.reverse_perm _).trans (List.mergeSort_perm _ _)
    have sameSource : (sourceWords.mergeSort (· ≤ ·)).Perm sourceWords := List.mergeSort_perm _ _
    exact (matchSearchWords_iff descending ascending).trans
      (assignable_congr sameSearch sameSource)

end Zulip.Client
