import Mathlib.Algebra.Order.Group.Nat

/-!
# While loops that may fail

`whileLoop` runs the body of a loop while its condition holds, at most `fuel` times. `Ends` says
that some fuel suffices, `Visited` which states are reached. A loop ends from a state exactly as it
ends from each state that it visits. It ends when a measure becomes less, and never ends at a state
that its body leaves unchanged.
-/

namespace Zulip

universe u v

variable {State : Type u} {Error : Type v}

/-- The loop for some number of times; `none` when it has not ended. -/
def whileLoop (condition : State → Bool) (body : State → Except Error State) :
    ℕ → State → Option (Except Error State)
  | 0, _ => none
  | fuel + 1, state =>
      if condition state then
        match body state with
        | .error error => some (.error error)
        | .ok next => whileLoop condition body fuel next
      else some (.ok state)

variable {condition : State → Bool} {body : State → Except Error State}

/-- The loop ends with a state or an error. -/
def Ends (condition : State → Bool) (body : State → Except Error State) (state : State)
    (result : Except Error State) : Prop :=
  ∃ fuel, whileLoop condition body fuel state = some result

/-- The states that the loop reaches from a state. -/
inductive Visited (condition : State → Bool) (body : State → Except Error State) (start : State) :
    State → Prop
  | start : Visited condition body start start
  | next {state next : State} (prior : Visited condition body start state)
      (continues : condition state = true) (step : body state = .ok next) :
      Visited condition body start next

variable {start state next : State} {result other : Except Error State} {error : Error}

theorem ends_of_finished (finished : condition state = false) :
    Ends condition body state (.ok state) :=
  ⟨1, by rw [whileLoop, finished]; rfl⟩

theorem ends_of_error (continues : condition state = true) (fails : body state = .error error) :
    Ends condition body state (.error error) :=
  ⟨1, by rw [whileLoop, if_pos continues, fails]⟩

/-- A loop ends as it does after its next step. -/
theorem ends_iff_of_step (continues : condition state = true) (step : body state = .ok next) :
    Ends condition body state result ↔ Ends condition body next result := by
  have unfolds : ∀ fuel, whileLoop condition body (fuel + 1) state =
      whileLoop condition body fuel next := fun fuel => by
    rw [whileLoop, if_pos continues, step]
  constructor
  · rintro ⟨fuel, isResult⟩
    cases fuel with
    | zero => cases isResult
    | succ fuel => exact ⟨fuel, (unfolds fuel).symm.trans isResult⟩
  · rintro ⟨fuel, isResult⟩
    exact ⟨fuel + 1, (unfolds fuel).trans isResult⟩

/-- A loop ends as it does from each state that it visits. -/
theorem Visited.ends_iff (visited : Visited condition body start state) :
    Ends condition body start result ↔ Ends condition body state result := by
  induction visited with
  | start => exact Iff.rfl
  | next _ continues step inductionHypothesis =>
      exact inductionHypothesis.trans (ends_iff_of_step continues step)

/-- A loop ends where it visits a last state. -/
theorem Ends.cases (ends : Ends condition body start result) :
    ∃ state, Visited condition body start state ∧
      ((condition state = false ∧ result = .ok state) ∨
        ∃ error, condition state = true ∧ body state = .error error ∧ result = .error error) := by
  obtain ⟨fuel, isResult⟩ := ends
  have general : ∀ state, Visited condition body start state →
      whileLoop condition body fuel state = some result → ∃ state,
        Visited condition body start state ∧
          ((condition state = false ∧ result = .ok state) ∨
            ∃ error, condition state = true ∧ body state = .error error ∧
              result = .error error) := by
    clear isResult
    induction fuel with
    | zero =>
        intro state _ isResult
        cases isResult
    | succ fuel inductionHypothesis =>
        intro state visited isResult
        rw [whileLoop] at isResult
        split at isResult
        · rename_i continues
          cases step : body state with
          | error error =>
              rw [step] at isResult
              exact ⟨state, visited, .inr ⟨error, continues, step, (Option.some.inj isResult).symm⟩⟩
          | ok next =>
              rw [step] at isResult
              exact inductionHypothesis next (visited.next continues step) isResult
        · rename_i finished
          exact ⟨state, visited, .inl ⟨Bool.eq_false_iff.mpr finished,
            (Option.some.inj isResult).symm⟩⟩
  exact general start .start isResult

/-- A loop ends when each step makes a measure less. -/
theorem exists_ends (measure : State → ℕ)
    (less : ∀ state next, Visited condition body start state → condition state = true →
      body state = .ok next → measure next < measure state) :
    ∃ result, Ends condition body start result := by
  have general : ∀ bound state, measure state < bound → Visited condition body start state →
      ∃ result, Ends condition body state result := by
    intro bound
    induction bound with
    | zero =>
        intro state below
        omega
    | succ bound inductionHypothesis =>
        intro state below visited
        cases continues : condition state with
        | false => exact ⟨_, ends_of_finished continues⟩
        | true =>
            cases step : body state with
            | error error => exact ⟨_, ends_of_error continues step⟩
            | ok next =>
                have decreases := less state next visited continues step
                obtain ⟨result, ends⟩ := inductionHypothesis next (by omega)
                  (visited.next continues step)
                exact ⟨result, (ends_iff_of_step continues step).mpr ends⟩
  exact general _ start (Nat.lt_succ_self _) .start

/-- A loop never ends where its body changes nothing. -/
theorem not_ends_of_unchanged (continues : condition state = true) (step : body state = .ok state) :
    ¬ Ends condition body state result := by
  rintro ⟨fuel, isResult⟩
  induction fuel with
  | zero => cases isResult
  | succ fuel inductionHypothesis =>
      rw [whileLoop, if_pos continues, step] at isResult
      exact inductionHypothesis isResult

/-- A loop ends in one way only. -/
theorem Ends.unique (ends : Ends condition body start result)
    (ends' : Ends condition body start other) : result = other := by
  obtain ⟨state, visited, last⟩ := ends.cases
  obtain ⟨fuel, isResult⟩ := visited.ends_iff.mp ends'
  cases fuel with
  | zero => cases isResult
  | succ fuel =>
      rw [whileLoop] at isResult
      rcases last with ⟨finished, rfl⟩ | ⟨error, continues, fails, rfl⟩
      · rw [finished] at isResult
        exact Option.some.inj isResult
      · rw [if_pos continues, fails] at isResult
        exact Option.some.inj isResult

end Zulip
