import Mathlib.Data.List.Induction

/-!
# Greedy selection

Candidates are taken in their order, unless they are in conflict with one that was taken before.
Selections by two conflict relations, one inside the other, are the same exactly when the first one
has no conflict of the second.
-/

namespace Zulip

universe u v

variable {α : Type u} {β : Type v}

/-- Nothing that is selected is in conflict with the candidate. -/
def isFree (conflict : α → α → Bool) (selected : List α) (candidate : α) : Bool :=
  selected.all fun old => !conflict old candidate

def selectNext (conflict : α → α → Bool) (selected : List α) (candidate : α) : List α :=
  if isFree conflict selected candidate then selected ++ [candidate] else selected

def selectGreedily (conflict : α → α → Bool) (candidates : List α) : List α :=
  candidates.foldl (selectNext conflict) []

variable {conflict wider : α → α → Bool} {candidates others selected : List α} {candidate : α}

theorem selectGreedily_append_singleton :
    selectGreedily conflict (candidates ++ [candidate]) =
      selectNext conflict (selectGreedily conflict candidates) candidate := by
  rw [selectGreedily, List.foldl_append]
  rfl

theorem isFree_iff :
    isFree conflict selected candidate = true ↔ ∀ old ∈ selected, conflict old candidate = false := by
  simp [isFree]

theorem not_isFree {old : α} (member : old ∈ selected)
    (inConflict : conflict old candidate = true) :
    ¬isFree conflict selected candidate = true := fun free => by
  rw [isFree_iff.mp free old member] at inConflict
  cases inConflict

theorem selectNext_of_free (free : ∀ old ∈ selected, conflict old candidate = false) :
    selectNext conflict selected candidate = selected ++ [candidate] :=
  if_pos (isFree_iff.mpr free)

theorem selectNext_of_conflict {old : α} (member : old ∈ selected)
    (inConflict : conflict old candidate = true) :
    selectNext conflict selected candidate = selected :=
  if_neg (not_isFree member inConflict)

/-- Either there is a conflict, or the candidate is taken. -/
theorem selectNext_cases (conflict : α → α → Bool) (selected : List α) (candidate : α) :
    (∃ old ∈ selected, conflict old candidate = true) ∨
      ((∀ old ∈ selected, conflict old candidate = false) ∧
        selectNext conflict selected candidate = selected ++ [candidate]) := by
  by_cases free : isFree conflict selected candidate = true
  · exact .inr ⟨isFree_iff.mp free, if_pos free⟩
  · rw [isFree_iff] at free
    push Not at free
    obtain ⟨old, member, inConflict⟩ := free
    exact .inl ⟨old, member, by simpa using inConflict⟩

theorem selectGreedily_sublist (conflict : α → α → Bool) (candidates : List α) :
    (selectGreedily conflict candidates).Sublist candidates := by
  induction candidates using List.reverseRecOn with
  | nil => exact List.Sublist.slnil
  | append_singleton earlier last inductionHypothesis =>
      rw [selectGreedily_append_singleton]
      rcases selectNext_cases conflict (selectGreedily conflict earlier) last with
        ⟨old, member, inConflict⟩ | ⟨-, isTaken⟩
      · rw [selectNext_of_conflict member inConflict]
        exact inductionHypothesis.trans (List.sublist_append_left _ _)
      · rw [isTaken]
        exact inductionHypothesis.append (List.Sublist.refl _)

/-- Nothing that is selected is in conflict with something selected earlier. -/
theorem selectGreedily_pairwise (conflict : α → α → Bool) (candidates : List α) :
    (selectGreedily conflict candidates).Pairwise
      fun old candidate => conflict old candidate = false := by
  induction candidates using List.reverseRecOn with
  | nil => exact .nil
  | append_singleton earlier last inductionHypothesis =>
      rw [selectGreedily_append_singleton]
      rcases selectNext_cases conflict (selectGreedily conflict earlier) last with
        ⟨old, member, inConflict⟩ | ⟨free, isTaken⟩
      · rwa [selectNext_of_conflict member inConflict]
      · rw [isTaken]
        refine List.pairwise_append.mpr ⟨inductionHypothesis, List.pairwise_singleton _ _, ?_⟩
        intro old member candidate isLast
        rw [List.mem_singleton.mp isLast]
        exact free old member

/-- Selecting what is put together, from the images under a map that keeps the conflicts. -/
theorem selectGreedily_map {image : α → β} {imageConflict : β → β → Bool}
    (same : ∀ old ∈ candidates, ∀ candidate ∈ candidates,
      conflict old candidate = imageConflict (image old) (image candidate)) :
    (selectGreedily conflict candidates).map image =
      selectGreedily imageConflict (candidates.map image) := by
  induction candidates using List.reverseRecOn with
  | nil => rfl
  | append_singleton earlier last inductionHypothesis =>
      have inductionHypothesis := inductionHypothesis fun old isOld candidate isCandidate =>
        same old (List.mem_append_left _ isOld) candidate (List.mem_append_left _ isCandidate)
      have sameLast : ∀ old ∈ selectGreedily conflict earlier,
          conflict old last = imageConflict (image old) (image last) := fun old member =>
        same old (List.mem_append_left _ ((selectGreedily_sublist _ _).subset member)) last
          (List.mem_append_right _ (List.mem_singleton_self _))
      rw [List.map_append, List.map_singleton, selectGreedily_append_singleton,
        selectGreedily_append_singleton, ← inductionHypothesis]
      rcases selectNext_cases conflict (selectGreedily conflict earlier) last with
        ⟨old, member, inConflict⟩ | ⟨free, isTaken⟩
      · rw [selectNext_of_conflict member inConflict,
          selectNext_of_conflict (List.mem_map_of_mem member) (by rwa [← sameLast old member])]
      · rw [isTaken, selectNext_of_free, List.map_append, List.map_singleton]
        intro image' isImage
        obtain ⟨old, member, rfl⟩ := List.mem_map.mp isImage
        rw [← sameLast old member]
        exact free old member

/-- Candidates that are not in conflict with each other are selected when they are free of what is
selected before. -/
theorem selectGreedily_append (free : others.Pairwise fun old candidate =>
      conflict old candidate = false) :
    selectGreedily conflict (candidates ++ others) =
      selectGreedily conflict candidates ++
        others.filter (isFree conflict (selectGreedily conflict candidates)) := by
  induction others using List.reverseRecOn with
  | nil => simp
  | append_singleton earlier last inductionHypothesis =>
      obtain ⟨freeEarlier, -, freeLast⟩ := List.pairwise_append.mp free
      rw [← List.append_assoc, selectGreedily_append_singleton, inductionHypothesis freeEarlier,
        List.filter_append, ← List.append_assoc]
      rcases selectNext_cases conflict (selectGreedily conflict candidates) last with
        ⟨old, member, inConflict⟩ | ⟨freeSelected, -⟩
      · rw [selectNext_of_conflict (List.mem_append_left _ member) inConflict,
          List.filter_cons_of_neg (not_isFree member inConflict), List.filter_nil, List.append_nil]
      · rw [selectNext_of_free, List.filter_cons_of_pos (isFree_iff.mpr freeSelected),
          List.filter_nil]
        intro old member
        rcases List.mem_append.mp member with isSelected | isEarlier
        · exact freeSelected old isSelected
        · exact freeLast old (List.mem_filter.mp isEarlier).1 last (List.mem_singleton_self _)

/-- A wider conflict relation selects the same exactly when it sees no conflict in what the narrower
one selects. -/
theorem selectGreedily_eq_iff
    (inside : ∀ old ∈ candidates, ∀ candidate ∈ candidates,
      conflict old candidate = true → wider old candidate = true) :
    selectGreedily wider candidates = selectGreedily conflict candidates ↔
      (selectGreedily conflict candidates).Pairwise
        fun old candidate => wider old candidate = false := by
  constructor
  · intro same
    rw [← same]
    exact selectGreedily_pairwise wider candidates
  · intro noConflict
    induction candidates using List.reverseRecOn with
    | nil => rfl
    | append_singleton earlier last inductionHypothesis =>
        have inductionHypothesis := inductionHypothesis fun old isOld candidate isCandidate =>
          inside old (List.mem_append_left _ isOld) candidate (List.mem_append_left _ isCandidate)
        rw [selectGreedily_append_singleton] at noConflict ⊢
        rw [selectGreedily_append_singleton]
        rcases selectNext_cases conflict (selectGreedily conflict earlier) last with
          ⟨old, member, inConflict⟩ | ⟨-, isTaken⟩
        · rw [selectNext_of_conflict member inConflict] at noConflict ⊢
          rw [inductionHypothesis noConflict]
          exact selectNext_of_conflict member
            (inside old (List.mem_append_left _ ((selectGreedily_sublist _ _).subset member)) last
              (List.mem_append_right _ (List.mem_singleton_self _)) inConflict)
        · rw [isTaken] at noConflict ⊢
          obtain ⟨noEarlier, -, noLast⟩ := List.pairwise_append.mp noConflict
          rw [inductionHypothesis noEarlier]
          exact selectNext_of_free fun old member =>
            noLast old member last (List.mem_singleton_self _)

end Zulip
