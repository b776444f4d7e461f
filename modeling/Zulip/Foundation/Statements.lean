import Mathlib.Data.List.Basic

/-!
# Statements that are executed one by one

A program that plans a list of statements and may be killed between any two of them.
`Safely` says that an invariant holds wherever the execution stops; it is built statement by
statement and concatenated with `Safely.append`.
-/

namespace Zulip

universe u v

variable {State : Type u} {Statement : Type v} {execute : State → Statement → State}
  {Inv : State → Prop} {state : State}

/-- Execute the statements in order. -/
def executeAll (execute : State → Statement → State) (state : State)
    (statements : List Statement) : State :=
  statements.foldl execute state

@[simp] theorem executeAll_nil : executeAll execute state [] = state := rfl

@[simp] theorem executeAll_cons (statement : Statement) (rest : List Statement) :
    executeAll execute state (statement :: rest) =
      executeAll execute (execute state statement) rest := rfl

@[simp] theorem executeAll_append (first second : List Statement) :
    executeAll execute state (first ++ second) =
      executeAll execute (executeAll execute state first) second :=
  List.foldl_append ..

/-- What every statement keeps, all of them keep. -/
theorem executeAll_preserves (Keeps : State → Prop) {statements : List Statement}
    (preserved : ∀ statement ∈ statements, ∀ state, Keeps state → Keeps (execute state statement))
    (holds : Keeps state) : Keeps (executeAll execute state statements) := by
  induction statements generalizing state with
  | nil => exact holds
  | cons statement rest inductionHypothesis =>
      exact inductionHypothesis
        (fun other member => preserved other (List.mem_cons_of_mem _ member))
        (preserved statement List.mem_cons_self state holds)

/-- A relation between states that the execution of every statement on both sides keeps. -/
theorem executeAll_relates {Related : State → State → Prop} {left right : State}
    {statements : List Statement}
    (related : ∀ statement ∈ statements, ∀ left right, Related left right →
      Related (execute left statement) (execute right statement))
    (start : Related left right) :
    Related (executeAll execute left statements) (executeAll execute right statements) := by
  induction statements generalizing left right with
  | nil => exact start
  | cons statement rest inductionHypothesis =>
      exact inductionHypothesis
        (fun other member => related other (List.mem_cons_of_mem _ member))
        (related statement List.mem_cons_self left right start)

/-- The invariant holds before and after each of the statements. -/
inductive Safely (execute : State → Statement → State) (Inv : State → Prop) :
    State → List Statement → Prop where
  | nil {state : State} (holds : Inv state) : Safely execute Inv state []
  | cons {state : State} {statement : Statement} {rest : List Statement} (holds : Inv state)
      (after : Safely execute Inv (execute state statement) rest) :
      Safely execute Inv state (statement :: rest)

namespace Safely

variable {statements : List Statement}

/-- Wherever the execution stops. -/
theorem take (safely : Safely execute Inv state statements) (count : Nat) :
    Inv (executeAll execute state (statements.take count)) := by
  induction safely generalizing count with
  | nil holds => simpa using holds
  | cons holds _ inductionHypothesis =>
      cases count with
      | zero => exact holds
      | succ count => exact inductionHypothesis count

theorem final (safely : Safely execute Inv state statements) :
    Inv (executeAll execute state statements) := by
  simpa using safely.take statements.length

theorem append {rest : List Statement} (first : Safely execute Inv state statements)
    (second : Safely execute Inv (executeAll execute state statements) rest) :
    Safely execute Inv state (statements ++ rest) := by
  induction first with
  | nil _ => exact second
  | cons holds _ inductionHypothesis => exact Safely.cons holds (inductionHypothesis second)

/-- Statements that all keep the invariant, under a condition that they keep as well. -/
theorem of_preserved (Condition : State → Prop)
    (preserved : ∀ statement ∈ statements, ∀ state, Inv state → Condition state →
      Inv (execute state statement) ∧ Condition (execute state statement))
    (holds : Inv state) (condition : Condition state) :
    Safely execute Inv state statements := by
  induction statements generalizing state with
  | nil => exact Safely.nil holds
  | cons statement rest inductionHypothesis =>
      obtain ⟨next, nextCondition⟩ := preserved statement List.mem_cons_self state holds condition
      exact Safely.cons holds (inductionHypothesis
        (fun other member => preserved other (List.mem_cons_of_mem _ member)) next nextCondition)

end Safely

end Zulip
