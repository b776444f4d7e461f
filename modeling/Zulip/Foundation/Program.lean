import Mathlib.Data.List.Forall2

/-!
# Programs with a state and exceptions

A `Program` changes a state and returns a value or raises an exception; what it did
before raising stays done. `Triple` is total: from every state that meets the
precondition the program returns in its postcondition or raises in its third
condition, so that a program raises nothing when that condition is false.
-/

namespace Zulip

/-! ## Plain exceptions -/

/-- A sequence returns only when its first part did. -/
theorem exists_of_bind_eq_ok {ε α β : Type} {first : Except ε α} {next : α → Except ε β}
    {result : β} (returns : (first >>= next) = .ok result) :
    ∃ value, first = .ok value ∧ next value = .ok result := by
  cases first with
  | error exception => cases returns
  | ok value => exact ⟨value, rfl, returns⟩

theorem bind_eq_ok_iff {ε α β : Type} {first : Except ε α} {next : α → Except ε β} {result : β} :
    first >>= next = .ok result ↔ ∃ value, first = .ok value ∧ next value = .ok result := by
  constructor
  · exact exists_of_bind_eq_ok
  · rintro ⟨value, isFirst, returns⟩
    rw [isFirst]
    exact returns

/-- Every result of a loop that returns is that of an item. -/
theorem exists_of_mapM_eq_ok {ε α β : Type} {convert : α → Except ε β} {items : List α}
    {results : List β} (returns : items.mapM convert = .ok results) :
    ∀ result ∈ results, ∃ item ∈ items, convert item = .ok result := by
  induction items generalizing results with
  | nil =>
      cases returns
      simp
  | cons item rest inductionHypothesis =>
      rw [List.mapM_cons] at returns
      obtain ⟨first, isFirst, returns⟩ := exists_of_bind_eq_ok returns
      obtain ⟨later, isLater, returns⟩ := exists_of_bind_eq_ok returns
      cases returns
      intro result member
      rcases List.mem_cons.mp member with rfl | laterMember
      · exact ⟨item, List.mem_cons_self, isFirst⟩
      · obtain ⟨source, sourceMember, isSource⟩ := inductionHypothesis isLater result laterMember
        exact ⟨source, List.mem_cons_of_mem _ sourceMember, isSource⟩

/-- Every item of a loop that returns has its result. -/
theorem exists_result_of_mapM_eq_ok {ε α β : Type} {convert : α → Except ε β} {items : List α}
    {results : List β} (returns : items.mapM convert = .ok results) :
    ∀ item ∈ items, ∃ result, convert item = .ok result ∧ result ∈ results := by
  induction items generalizing results with
  | nil => simp
  | cons item rest inductionHypothesis =>
      rw [List.mapM_cons] at returns
      obtain ⟨first, isFirst, returns⟩ := exists_of_bind_eq_ok returns
      obtain ⟨later, isLater, returns⟩ := exists_of_bind_eq_ok returns
      cases returns
      intro other member
      rcases List.mem_cons.mp member with rfl | restMember
      · exact ⟨first, isFirst, List.mem_cons_self⟩
      · obtain ⟨result, isResult, resultMember⟩ := inductionHypothesis isLater other restMember
        exact ⟨result, isResult, List.mem_cons_of_mem _ resultMember⟩

/-- A loop returns related results when every item has one. -/
theorem exists_mapM_forall₂_iff {ε α β : Type} {convert : α → Except ε β} {related : α → β → Prop}
    {items : List α} :
    (∃ results, items.mapM convert = .ok results ∧ List.Forall₂ related items results) ↔
      ∀ item ∈ items, ∃ result, convert item = .ok result ∧ related item result := by
  induction items with
  | nil => exact iff_of_true ⟨[], rfl, .nil⟩ (List.forall_mem_nil _)
  | cons item rest inductionHypothesis =>
      rw [List.forall_mem_cons, ← inductionHypothesis]
      constructor
      · rintro ⟨results, returns, allRelated⟩
        rw [List.mapM_cons] at returns
        obtain ⟨first, isFirst, returns⟩ := exists_of_bind_eq_ok returns
        obtain ⟨later, isLater, returns⟩ := exists_of_bind_eq_ok returns
        cases returns
        cases allRelated with
        | cons headRelated tailRelated =>
            exact ⟨⟨first, isFirst, headRelated⟩, later, isLater, tailRelated⟩
      · rintro ⟨⟨first, isFirst, headRelated⟩, later, isLater, tailRelated⟩
        refine ⟨first :: later, ?_, .cons headRelated tailRelated⟩
        rw [List.mapM_cons, isFirst, isLater]
        rfl

/-! ## Lists compared member by member -/

/-- A relation that is decided by the left member holds throughout when the condition does. -/
theorem forall₂_iff_forall_of_iff {α β : Type} {related : α → β → Prop} {p : α → Prop}
    {left : List α} {right : List β}
    (pairs : List.Forall₂ (fun a b => related a b ↔ p a) left right) :
    List.Forall₂ related left right ↔ ∀ a ∈ left, p a := by
  induction pairs with
  | nil => exact iff_of_true .nil (List.forall_mem_nil _)
  | cons same _ inductionHypothesis =>
      rw [List.forall₂_cons, same, inductionHypothesis, List.forall_mem_cons]

/-- Related lists satisfy together what their related members satisfy together. -/
theorem forall_mem_iff_of_forall₂ {α β : Type} {related : α → β → Prop} {p : α → Prop}
    {q : β → Prop} {left : List α} {right : List β} (pairs : List.Forall₂ related left right)
    (same : ∀ {a b}, related a b → (q b ↔ p a)) : (∀ b ∈ right, q b) ↔ ∀ a ∈ left, p a := by
  induction pairs with
  | nil => exact iff_of_true (List.forall_mem_nil _) (List.forall_mem_nil _)
  | cons isRelated _ inductionHypothesis =>
      rw [List.forall_mem_cons, List.forall_mem_cons, same isRelated, inductionHypothesis]

/-! ## Programs -/

/-- A computation on a state that may end in an exception. -/
def Program (σ ε : Type) (α : Type) := σ → Except ε α × σ

namespace Program

variable {σ ε α β ι : Type}

instance : Monad (Program σ ε) where
  pure value := fun state => (.ok value, state)
  bind program next := fun state =>
    match program state with
    | (.ok value, after) => next value after
    | (.error exception, after) => (.error exception, after)

/-- Raise an exception. -/
def raise (exception : ε) : Program σ ε α := fun state => (.error exception, state)

/-- Look at the state. -/
def read (look : σ → α) : Program σ ε α := fun state => (.ok (look state), state)

/-- Change the state. -/
def modify (change : σ → σ) : Program σ ε Unit := fun state => (.ok (), change state)

/-- Run the body for each item in order. -/
def forEach : List ι → (ι → Program σ ε Unit) → Program σ ε Unit
  | [], _ => pure ()
  | item :: rest, body => do
      body item
      forEach rest body

/-! ## Running -/

@[simp] theorem run_pure (value : α) (state : σ) :
    (pure value : Program σ ε α) state = (.ok value, state) := rfl

@[simp] theorem run_raise (exception : ε) (state : σ) :
    (raise exception : Program σ ε α) state = (.error exception, state) := rfl

@[simp] theorem run_read (look : σ → α) (state : σ) :
    (read look : Program σ ε α) state = (.ok (look state), state) := rfl

@[simp] theorem run_modify (change : σ → σ) (state : σ) :
    (modify change : Program σ ε Unit) state = (.ok (), change state) := rfl

/-- A program that returns hands its value and its state on. -/
theorem run_bind_of_ok {program : Program σ ε α} {next : α → Program σ ε β} {state after : σ}
    {value : α} (returns : program state = (.ok value, after)) :
    (program >>= next) state = next value after := by
  show (match program state with
    | (.ok value, after) => next value after
    | (.error exception, after) => (.error exception, after)) = _
  rw [returns]

/-- An exception ends the sequence. -/
theorem run_bind_of_error {program : Program σ ε α} {next : α → Program σ ε β} {state after : σ}
    {exception : ε} (raises : program state = (.error exception, after)) :
    (program >>= next) state = (.error exception, after) := by
  show (match program state with
    | (.ok value, after) => next value after
    | (.error exception, after) => (.error exception, after)) = _
  rw [raises]

@[simp] theorem run_read_bind (look : σ → α) (next : α → Program σ ε β) (state : σ) :
    (read look >>= next) state = next (look state) state := rfl

@[simp] theorem run_modify_bind (change : σ → σ) (next : Unit → Program σ ε β) (state : σ) :
    (modify change >>= next) state = next () (change state) := rfl

@[simp] theorem run_pure_bind (value : α) (next : α → Program σ ε β) (state : σ) :
    ((pure value : Program σ ε α) >>= next) state = next value state := rfl

@[simp] theorem run_raise_bind (exception : ε) (next : α → Program σ ε β) (state : σ) :
    ((raise exception : Program σ ε α) >>= next) state = (.error exception, state) := rfl

/-- A result computed at the end changes no state. -/
theorem snd_bind_pure (program : Program σ ε α) (result : α → β) (state : σ) :
    ((program >>= fun value => (pure (result value) : Program σ ε β)) state).2 =
      (program state).2 := by
  show (match program state with
    | (.ok value, after) => (.ok (result value), after)
    | (.error exception, after) => (.error exception, after) : Except ε β × σ).2 = _
  rcases program state with ⟨_ | _, after⟩ <;> rfl

/-- A conditional program runs the branch that its condition selects. -/
theorem run_ite (condition : Prop) [Decidable condition] (positive negative : Program σ ε α)
    (state : σ) :
    (if condition then positive else negative) state =
      if condition then positive state else negative state := by
  split <;> rfl

@[simp] theorem run_forEach_nil (body : ι → Program σ ε Unit) (state : σ) :
    forEach [] body state = (.ok (), state) := rfl

theorem run_forEach_cons {item : ι} {rest : List ι} {body : ι → Program σ ε Unit}
    {state after : σ} (returns : body item state = (.ok (), after)) :
    forEach (item :: rest) body state = forEach rest body after :=
  run_bind_of_ok returns

/-! ## Triples -/

/-- From `Pre` the program returns in `Post` or raises in `Raises`. -/
def Triple (Pre : σ → Prop) (program : Program σ ε α) (Post : α → σ → Prop)
    (Raises : ε → σ → Prop) : Prop :=
  ∀ state, Pre state →
    match program state with
    | (.ok value, after) => Post value after
    | (.error exception, after) => Raises exception after

namespace Triple

variable {Pre : σ → Prop} {Post : α → σ → Prop} {Raises : ε → σ → Prop}

theorem pure {value : α} (holds : ∀ state, Pre state → Post value state) :
    Triple Pre (pure value) Post Raises :=
  holds

theorem raise {exception : ε} (holds : ∀ state, Pre state → Raises exception state) :
    Triple Pre (raise exception) Post Raises :=
  holds

theorem read {look : σ → α} (holds : ∀ state, Pre state → Post (look state) state) :
    Triple Pre (read look) Post Raises :=
  holds

theorem modify {change : σ → σ} {After : Unit → σ → Prop}
    (holds : ∀ state, Pre state → After () (change state)) :
    Triple Pre (modify change) After Raises :=
  holds

/-- Sequencing: the second part starts where the first one returned. -/
theorem bind {program : Program σ ε α} {next : α → Program σ ε β} (Mid : α → σ → Prop)
    {After : β → σ → Prop} (first : Triple Pre program Mid Raises)
    (second : ∀ value, Triple (Mid value) (next value) After Raises) :
    Triple Pre (program >>= next) After Raises := by
  intro state holds
  have middle := first state holds
  show match (match program state with
    | (.ok value, after) => next value after
    | (.error exception, after) => (.error exception, after)) with
    | (.ok value, after) => After value after
    | (.error exception, after) => Raises exception after
  rcases run : program state with ⟨_ | value, after⟩ <;> rw [run] at middle
  · exact middle
  · exact second value after middle

/-- A look at the state is remembered as a fact about it. -/
theorem bind_read {look : σ → α} {next : α → Program σ ε β} {After : β → σ → Prop}
    (second : ∀ value, Triple (fun state => Pre state ∧ look state = value) (next value)
      After Raises) :
    Triple Pre (Program.read look >>= next) After Raises :=
  bind (fun value state => Pre state ∧ look state = value)
    (fun _ holds => ⟨holds, rfl⟩) second

/-- The rule of consequence. -/
theorem weaken {program : Program σ ε α} {Strong : σ → Prop} {Weak : α → σ → Prop}
    {WeakRaises : ε → σ → Prop} (triple : Triple Pre program Post Raises)
    (before : ∀ state, Strong state → Pre state)
    (after : ∀ value state, Post value state → Weak value state)
    (raised : ∀ exception state, Raises exception state → WeakRaises exception state) :
    Triple Strong program Weak WeakRaises := by
  intro state holds
  have result := triple state (before state holds)
  rcases run : program state with ⟨exception | value, final⟩ <;> rw [run] at result
  · exact raised exception final result
  · exact after value final result

/-- A loop keeps what its body keeps for each of the items. -/
theorem forEach {items : List ι} {body : ι → Program σ ε Unit} {Inv : σ → Prop}
    (each : ∀ item ∈ items, Triple Inv (body item) (fun _ => Inv) Raises) :
    Triple Inv (forEach items body) (fun _ => Inv) Raises := by
  induction items with
  | nil => exact fun _ holds => holds
  | cons item rest inductionHypothesis =>
      exact bind _ (each item List.mem_cons_self)
        fun _ => inductionHypothesis fun later member => each later (List.mem_cons_of_mem _ member)

/-- What holds at the end of a run, whether it returns or raises. -/
theorem final {program : Program σ ε α} {Inv : σ → Prop} {state : σ}
    (triple : Triple Pre program (fun _ => Inv) (fun _ => Inv)) (holds : Pre state) :
    Inv (program state).2 := by
  have result := triple state holds
  rcases run : program state with ⟨_ | value, final⟩ <;> rw [run] at result <;> exact result

/-- A program whose third condition is false returns. -/
theorem returns {program : Program σ ε α} {state : σ}
    (triple : Triple Pre program Post fun _ _ => False) (holds : Pre state) :
    ∃ value after, program state = (.ok value, after) ∧ Post value after := by
  have result := triple state holds
  rcases run : program state with ⟨exception | value, final⟩ <;> rw [run] at result
  · exact result.elim
  · exact ⟨value, final, rfl, result⟩

end Triple

/-! ## Relations to an earlier state -/

/-- A program that keeps a relation to an earlier state, whatever it raises. -/
def Frames (Rel : σ → σ → Prop) (program : Program σ ε α) : Prop :=
  ∀ before, Triple (Rel before) program (fun _ => Rel before) (fun _ => Rel before)

namespace Frames

variable {Rel : σ → σ → Prop}

theorem pure (value : α) : Frames Rel (pure value : Program σ ε α) :=
  fun _ _ holds => holds

theorem raise (exception : ε) : Frames Rel (raise exception : Program σ ε α) :=
  fun _ _ holds => holds

theorem read (look : σ → α) : Frames Rel (read look : Program σ ε α) :=
  fun _ _ holds => holds

theorem modify {change : σ → σ} (keeps : ∀ before state, Rel before state →
    Rel before (change state)) : Frames Rel (modify change : Program σ ε Unit) :=
  fun before state holds => keeps before state holds

theorem bind {program : Program σ ε α} {next : α → Program σ ε β} (first : Frames Rel program)
    (second : ∀ value, Frames Rel (next value)) : Frames Rel (program >>= next) :=
  fun before => Triple.bind _ (first before) fun value => second value before

theorem forEach {items : List ι} {body : ι → Program σ ε Unit}
    (each : ∀ item, Frames Rel (body item)) : Frames Rel (forEach items body) :=
  fun before => Triple.forEach fun item _ => each item before

/-- The relation between the two ends of a run. -/
theorem final {program : Program σ ε α} {state : σ} (frames : Frames Rel program)
    (initial : Rel state state) : Rel state (program state).2 :=
  (frames state).final initial

end Frames

end Program

end Zulip
