/-!
# Runs of labelled transition relations

A `Run` keeps, for every step, the state before the step and the label of the
step. `Run.invariant` and `Run.history` are the two induction rules: the first
for a property of states, the second for a property that also mentions what has
happened so far. `Run.always_iff` turns a step-wise equivalence between keeping
a property and meeting a condition into the same equivalence for whole runs.
-/

namespace Zulip

universe u v

variable {State : Type u} {Label : Type v} {Step : State → Label → State → Prop}

/-- Zero or more steps, with the source state and the label of each. -/
inductive Run (Step : State → Label → State → Prop) (start : State) :
    List (State × Label) → State → Prop where
  | refl : Run Step start [] start
  | step {trace state label next} (prior : Run Step start trace state)
      (transition : Step state label next) : Run Step start (trace ++ [(state, label)]) next

namespace Run

/-- A run that goes on where another one ends. -/
theorem trans {start middle final : State} {first second : List (State × Label)}
    (before : Run Step start first middle) (after : Run Step middle second final) :
    Run Step start (first ++ second) final := by
  induction after with
  | refl =>
    rw [List.append_nil]
    exact before
  | step _ transition inductionHypothesis =>
    rw [← List.append_assoc]
    exact .step inductionHypothesis transition

/-- The states that a sequence of actions visits, with the action taken there. -/
def visits (perform : State → Label → Option State) : State → List Label → List (State × Label)
  | _, [] => []
  | state, label :: rest =>
      (state, label) :: (perform state label).elim [] fun next => visits perform next rest

/-- A sequence of actions that can all happen is a run. -/
theorem of_foldlM {perform : State → Label → Option State} {start final : State}
    {labels : List Label} (performs : labels.foldlM perform start = some final) :
    Run (fun state label next => perform state label = some next) start
        (visits perform start labels) final ∧
      (visits perform start labels).map Prod.snd = labels := by
  induction labels generalizing start with
  | nil =>
    cases performs
    exact ⟨.refl, rfl⟩
  | cons label rest inductionHypothesis =>
    obtain ⟨next, transition, performs⟩ := Option.bind_eq_some_iff.mp performs
    obtain ⟨run, isRest⟩ := inductionHypothesis performs
    rw [visits, transition, Option.elim_some, List.map_cons, isRest]
    exact ⟨trans (.step .refl transition) run, rfl⟩

/-- A property that every step preserves holds at the end of every run. -/
theorem invariant {Inv : State → Prop} {start final : State} {trace : List (State × Label)}
    (run : Run Step start trace final) (initial : Inv start)
    (preserved : ∀ {state label next}, Inv state → Step state label next → Inv next) :
    Inv final := by
  induction run with
  | refl => exact initial
  | step _ transition inductionHypothesis => exact preserved inductionHypothesis transition

/-- The same rule for a property of the state and of the steps taken so far. -/
theorem history {Inv : List (State × Label) → State → Prop} {start final : State}
    {trace : List (State × Label)} (run : Run Step start trace final) (initial : Inv [] start)
    (preserved : ∀ {trace state label next}, Inv trace state → Step state label next →
      Inv (trace ++ [(state, label)]) next) :
    Inv trace final := by
  induction run with
  | refl => exact initial
  | step _ transition inductionHypothesis => exact preserved inductionHypothesis transition

/-- An invariant holds in all the states that a run visits. -/
theorem visited {Inv : State → Prop} {start final : State} {trace : List (State × Label)}
    (run : Run Step start trace final) (initial : Inv start)
    (preserved : ∀ {state label next}, Inv state → Step state label next → Inv next) :
    ∀ state ∈ trace.map Prod.fst ++ [final], Inv state := by
  induction run with
  | refl => simpa using initial
  | step prior transition inductionHypothesis =>
      intro state member
      rcases List.mem_append.mp member with before | isLast
      · rw [List.map_append, List.map_singleton] at before
        exact inductionHypothesis state before
      · rw [List.mem_singleton.mp isLast]
        exact preserved (prior.invariant initial preserved) transition

/-- A transitive relation between the ends of every step orders all the states that a run
visits. -/
theorem pairwise {Inv : State → Prop} {Rel : State → State → Prop} {start final : State}
    {trace : List (State × Label)} (run : Run Step start trace final) (initial : Inv start)
    (preserved : ∀ {state label next}, Inv state → Step state label next → Inv next)
    (transitive : ∀ {first second third}, Rel first second → Rel second third → Rel first third)
    (related : ∀ {state label next}, Inv state → Step state label next → Rel state next) :
    (trace.map Prod.fst ++ [final]).Pairwise Rel := by
  induction run with
  | refl => simp
  | @step trace state label next prior transition inductionHypothesis =>
      have last := related (prior.invariant initial preserved) transition
      rw [List.map_append, List.map_singleton]
      refine List.pairwise_append.mpr ⟨inductionHypothesis, List.pairwise_singleton _ _, ?_⟩
      intro earlier member later isNext
      rw [List.mem_singleton.mp isNext]
      rcases List.mem_append.mp member with before | isState
      · exact transitive ((List.pairwise_append.mp inductionHypothesis).2.2 earlier before state
          (List.mem_singleton_self state)) last
      · rw [List.mem_singleton.mp isState]
        exact last

/-- A transitive relation orders the states of a run exactly when all its steps meet a condition,
when a step is in the relation exactly when it meets it. -/
theorem pairwise_iff {Inv : State → Prop} {Rel : State → State → Prop}
    {Condition : State → Label → Prop} {start final : State} {trace : List (State × Label)}
    (run : Run Step start trace final) (initial : Inv start)
    (preserved : ∀ {state label next}, Inv state → Step state label next → Inv next)
    (transitive : ∀ {first second third}, Rel first second → Rel second third → Rel first third)
    (stepIff : ∀ {state label next}, Inv state → Step state label next →
      (Rel state next ↔ Condition state label)) :
    (trace.map Prod.fst ++ [final]).Pairwise Rel ↔
      ∀ visit ∈ trace, Condition visit.1 visit.2 := by
  induction run with
  | refl => simp
  | @step trace state label next prior transition inductionHypothesis =>
      have last := stepIff (prior.invariant initial preserved) transition
      rw [List.map_append, List.map_singleton, List.forall_mem_append, List.forall_mem_singleton,
        ← inductionHypothesis, ← last]
      constructor
      · intro ordered
        obtain ⟨before, -, across⟩ := List.pairwise_append.mp ordered
        exact ⟨before, across state (by simp) next (by simp)⟩
      · rintro ⟨before, after⟩
        refine List.pairwise_append.mpr ⟨before, List.pairwise_singleton _ _, ?_⟩
        intro earlier member later isNext
        rw [List.mem_singleton.mp isNext]
        rcases List.mem_append.mp member with visited | isState
        · exact transitive ((List.pairwise_append.mp before).2.2 earlier visited state
            (List.mem_singleton_self state)) after
        · rw [List.mem_singleton.mp isState]
          exact after

/-- A property of every state that a run visits, its last one included. -/
def Always (Holds : State → Prop) (trace : List (State × Label)) (final : State) : Prop :=
  (∀ visit ∈ trace, Holds visit.1) ∧ Holds final

@[simp] theorem always_nil {Holds : State → Prop} {final : State} :
    Always Holds ([] : List (State × Label)) final ↔ Holds final := by
  simp [Always]

@[simp] theorem always_snoc {Holds : State → Prop} {trace : List (State × Label)}
    {state final : State} {label : Label} :
    Always Holds (trace ++ [(state, label)]) final ↔ Always Holds trace state ∧ Holds final := by
  constructor
  · rintro ⟨visited, last⟩
    exact ⟨⟨fun visit member => visited visit (List.mem_append_left _ member),
      visited (state, label) (by simp)⟩, last⟩
  · rintro ⟨⟨visited, before⟩, last⟩
    refine ⟨fun visit member => ?_, last⟩
    rcases List.mem_append.mp member with earlier | latest
    · exact visited visit earlier
    · rw [List.mem_singleton.mp latest]
      exact before

/-- A run all of whose steps meet a condition has a property in all its states, when the steps
that meet the condition keep an invariant that implies the property. -/
theorem always_of_condition {Aux Holds : State → Prop} {Condition : State → Label → Prop}
    {start final : State} {trace : List (State × Label)} (run : Run Step start trace final)
    (initial : Aux start) (holds : ∀ {state}, Aux state → Holds state)
    (preserved : ∀ {state label next}, Aux state → Step state label next →
      Condition state label → Aux next)
    (met : ∀ visit ∈ trace, Condition visit.1 visit.2) : Always Holds trace final := by
  have both : Always Holds trace final ∧ Aux final := by
    induction run with
    | refl => exact ⟨by simpa using holds initial, initial⟩
    | @step trace state label next _ transition inductionHypothesis =>
      obtain ⟨before, aux⟩ :=
        inductionHypothesis fun visit member => met visit (List.mem_append_left _ member)
      have nextAux := preserved aux transition (met (state, label) (by simp))
      exact ⟨always_snoc.mpr ⟨before, holds nextAux⟩, nextAux⟩
  exact both.1

/-- When, under an auxiliary invariant, a step keeps a property exactly when it
meets a condition, a run has the property in all its states exactly when all
its steps meet the condition. -/
theorem always_iff {Aux Holds : State → Prop} {Condition : State → Label → Prop}
    {start final : State} {trace : List (State × Label)} (run : Run Step start trace final)
    (auxInitial : Aux start) (initial : Holds start)
    (auxPreserved : ∀ {state label next}, Aux state → Holds state → Step state label next →
      Condition state label → Aux next)
    (stepIff : ∀ {state label next}, Aux state → Holds state → Step state label next →
      (Holds next ↔ Condition state label)) :
    Always Holds trace final ↔ ∀ visit ∈ trace, Condition visit.1 visit.2 := by
  have both : (Always Holds trace final ↔ ∀ visit ∈ trace, Condition visit.1 visit.2) ∧
      ((∀ visit ∈ trace, Condition visit.1 visit.2) → Aux final) := by
    induction run with
    | refl => exact ⟨by simpa using initial, fun _ => auxInitial⟩
    | @step trace state label next _ transition inductionHypothesis =>
        obtain ⟨priorIff, priorAux⟩ := inductionHypothesis
        have split : (∀ visit ∈ trace ++ [(state, label)], Condition visit.1 visit.2) ↔
            (∀ visit ∈ trace, Condition visit.1 visit.2) ∧ Condition state label := by
          simp [or_imp, forall_and]
        constructor
        · rw [always_snoc, split]
          constructor
          · rintro ⟨before, after⟩
            have conditions := priorIff.mp before
            exact ⟨conditions,
              (stepIff (priorAux conditions) before.2 transition).mp after⟩
          · rintro ⟨conditions, condition⟩
            have before := priorIff.mpr conditions
            exact ⟨before, (stepIff (priorAux conditions) before.2 transition).mpr condition⟩
        · intro all
          obtain ⟨conditions, condition⟩ := split.mp all
          exact auxPreserved (priorAux conditions) (priorIff.mpr conditions).2 transition condition
  exact both.1

end Run

end Zulip
