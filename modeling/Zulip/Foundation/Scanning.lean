import Mathlib.Data.List.Basic

/-!
# Scanning for matches

`leftmost` finds the first position where something matches. `scan` searches, goes on after what it
has found, and returns what it finds when it comes to an end. A search that finds something and does
not advance goes on for ever.
-/

namespace Zulip

/-- What is asked of the characters of a text is checked on the text, not on all characters. -/
instance (priority := high) decidableForallMemText {condition : Char → Prop}
    [DecidablePred condition] (text : List Char) : Decidable (∀ c ∈ text, condition c) :=
  List.decidableBAll condition text

universe u

variable {α : Type u}

/-- The first match at `position` or one of the `remaining - 1` positions after it. -/
def leftmost (matchAt : Nat → Option α) : Nat → Nat → Option (Nat × α)
  | 0, _ => none
  | remaining + 1, position =>
      match matchAt position with
      | some found => some (position, found)
      | none => leftmost matchAt remaining (position + 1)

/-- What is found one after the other, each after the last one; `none` when `fuel` does not
suffice. -/
def scan (search : Nat → Option α) (next : α → Nat) : Nat → Nat → Option (List α)
  | 0, _ => none
  | fuel + 1, position =>
      match search position with
      | none => some []
      | some found => (scan search next fuel (next found)).map (found :: ·)

section Leftmost

variable {matchAt : Nat → Option α} {remaining position index : Nat} {found : α}

theorem leftmost_bounds (finds : leftmost matchAt remaining position = some (index, found)) :
    position ≤ index ∧ index < position + remaining := by
  induction remaining generalizing position with
  | zero => cases finds
  | succ remaining inductionHypothesis =>
      rw [leftmost] at finds
      cases here : matchAt position with
      | some first =>
          rw [here] at finds
          cases finds
          omega
      | none =>
          rw [here] at finds
          have bounds := inductionHypothesis finds
          omega

theorem matchAt_of_leftmost (finds : leftmost matchAt remaining position = some (index, found)) :
    matchAt index = some found := by
  induction remaining generalizing position with
  | zero => cases finds
  | succ remaining inductionHypothesis =>
      rw [leftmost] at finds
      cases here : matchAt position with
      | some first =>
          rw [here] at finds
          cases finds
          exact here
      | none =>
          rw [here] at finds
          exact inductionHypothesis finds

/-- A search that begins where something is found finds it again. -/
theorem leftmost_again (finds : leftmost matchAt remaining position = some (index, found))
    (others : Nat) : leftmost matchAt (others + 1) index = some (index, found) := by
  rw [leftmost, matchAt_of_leftmost finds]

end Leftmost

section Scan

variable {search : Nat → Option α} {start next : α → Nat} {fuel position bound : Nat}
  {founds : List α} {found : α}

theorem exists_of_scan_cons {rest : List α}
    (scans : scan search next fuel position = some (found :: rest)) :
    ∃ less, fuel = less + 1 ∧ search position = some found ∧
      scan search next less (next found) = some rest := by
  cases fuel with
  | zero => cases scans
  | succ less =>
      rw [scan] at scans
      cases here : search position with
      | none =>
          rw [here] at scans
          cases scans
      | some first =>
          rw [here] at scans
          obtain ⟨later, isLater, isFounds⟩ := Option.map_eq_some_iff.mp scans
          cases isFounds
          exact ⟨less, rfl, rfl, isLater⟩

/-- Everything that is found, some search has found. -/
theorem search_of_mem_scan (scans : scan search next fuel position = some founds)
    (member : found ∈ founds) : ∃ position, search position = some found := by
  induction founds generalizing fuel position with
  | nil => cases member
  | cons first rest inductionHypothesis =>
      obtain ⟨less, -, isFirst, scansRest⟩ := exists_of_scan_cons scans
      rcases List.mem_cons.mp member with rfl | later
      · exact ⟨position, isFirst⟩
      · exact inductionHypothesis scansRest later

/-- What is found comes after the position where the search begins. -/
theorem start_of_mem_scan (after : ∀ position found, search position = some found →
      position ≤ start found ∧ start found ≤ next found)
    (scans : scan search next fuel position = some founds) (member : found ∈ founds) :
    position ≤ start found := by
  induction founds generalizing fuel position with
  | nil => cases member
  | cons first rest inductionHypothesis =>
      obtain ⟨less, -, isFirst, scansRest⟩ := exists_of_scan_cons scans
      have firstAfter := after position first isFirst
      rcases List.mem_cons.mp member with rfl | later
      · exact firstAfter.1
      · have restAfter := inductionHypothesis scansRest later
        omega

/-- Everything that is found ends before the next one begins. -/
theorem scan_pairwise (after : ∀ position found, search position = some found →
      position ≤ start found ∧ start found ≤ next found)
    (scans : scan search next fuel position = some founds) :
    founds.Pairwise fun first second => next first ≤ start second := by
  induction founds generalizing fuel position with
  | nil => exact .nil
  | cons first rest inductionHypothesis =>
      obtain ⟨less, -, isFirst, scansRest⟩ := exists_of_scan_cons scans
      exact .cons (fun second member => start_of_mem_scan after scansRest member)
        (inductionHypothesis scansRest)

/-- A search that finds again what does not advance does not come to an end. -/
theorem scan_eq_none (again : search position = some found) (stays : next found = position) :
    scan search next fuel position = none := by
  induction fuel with
  | zero => rfl
  | succ fuel inductionHypothesis =>
      rw [scan, again]
      dsimp only
      rw [stays, inductionHypothesis]
      rfl

/-- When the search finds again what it has found, a scan that ends advances over all it finds. -/
theorem scan_advances (again : ∀ position found, search position = some found →
      search (start found) = some found)
    (scans : scan search next fuel position = some founds) (member : found ∈ founds) :
    next found ≠ start found := by
  induction founds generalizing fuel position with
  | nil => cases member
  | cons first rest inductionHypothesis =>
      obtain ⟨less, -, isFirst, scansRest⟩ := exists_of_scan_cons scans
      rcases List.mem_cons.mp member with rfl | later
      · intro stays
        rw [stays, scan_eq_none (again position found isFirst) stays] at scansRest
        cases scansRest
      · exact inductionHypothesis scansRest later

/-- A scan that always advances, and finds nothing from the bound on, comes to an end. -/
theorem exists_scan (advances : ∀ position found, search position = some found →
      position < next found ∧ next found ≤ bound)
    (enough : bound + 1 ≤ fuel + position) (below : position ≤ bound) :
    ∃ founds, scan search next fuel position = some founds := by
  induction fuel generalizing position with
  | zero => omega
  | succ fuel inductionHypothesis =>
      rw [scan]
      cases here : search position with
      | none => exact ⟨[], rfl⟩
      | some first =>
          have advance := advances position first here
          obtain ⟨rest, scansRest⟩ :=
            @inductionHypothesis (next first) (by omega) advance.2
          exact ⟨first :: rest, by simp only [scansRest, Option.map_some]⟩

/-- The positions that a scan searches from. -/
inductive Scanned (search : Nat → Option α) (next : α → Nat) (first : Nat) : Nat → Prop
  | start : Scanned search next first first
  | next {position : Nat} {found : α} (prior : Scanned search next first position)
      (finds : search position = some found) : Scanned search next first (next found)

/-- A scan comes to an end from each position that it searches from. -/
theorem Scanned.exists_scan {first : Nat} (scanned : Scanned search next first position)
    (ends : ∃ fuel founds, scan search next fuel first = some founds) :
    ∃ fuel founds, scan search next fuel position = some founds := by
  induction scanned with
  | start => exact ends
  | @next position found _ finds inductionHypothesis =>
      obtain ⟨fuel, founds, scans⟩ := inductionHypothesis
      cases fuel with
      | zero => cases scans
      | succ fuel =>
          rw [scan, finds] at scans
          obtain ⟨rest, scansRest, -⟩ := Option.map_eq_some_iff.mp scans
          exact ⟨fuel, rest, scansRest⟩

/-- A scan comes to an end exactly when it advances over all it finds. -/
theorem exists_scan_iff {first : Nat}
    (after : ∀ position found, search position = some found →
      position ≤ start found ∧ start found ≤ next found)
    (again : ∀ position found, search position = some found →
      search (start found) = some found)
    (inside : ∀ position found, search position = some found → position ≤ bound) :
    (∃ fuel founds, scan search next fuel first = some founds) ↔
      ∀ position found, Scanned search next first position → search position = some found →
        next found ≠ start found := by
  constructor
  · intro ends position found scanned finds
    obtain ⟨fuel, founds, scans⟩ := scanned.exists_scan ends
    cases fuel with
    | zero => cases scans
    | succ fuel =>
        have unfolded := scans
        rw [scan, finds] at unfolded
        obtain ⟨rest, -, isFounds⟩ := Option.map_eq_some_iff.mp unfolded
        exact scan_advances again scans (isFounds ▸ List.mem_cons_self)
  · intro advances
    have general : ∀ fuel position, Scanned search next first position →
        bound + 1 ≤ fuel + position →
          ∃ founds, scan search next (fuel + 1) position = some founds := by
      intro fuel
      induction fuel with
      | zero =>
          intro position scanned enough
          rw [scan]
          cases finds : search position with
          | none => exact ⟨[], rfl⟩
          | some found =>
              have isInside := inside position found finds
              omega
      | succ fuel inductionHypothesis =>
          intro position scanned enough
          rw [scan]
          cases finds : search position with
          | none => exact ⟨[], rfl⟩
          | some found =>
              have order := after position found finds
              have advance := advances position found scanned finds
              obtain ⟨rest, scansRest⟩ :=
                inductionHypothesis (next found) (scanned.next finds) (by omega)
              exact ⟨found :: rest, by simp only [scansRest, Option.map_some]⟩
    exact ⟨bound + 2, general (bound + 1) first .start (Nat.le_add_right _ _)⟩

end Scan

end Zulip
