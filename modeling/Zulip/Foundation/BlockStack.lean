import Mathlib.Data.List.Basic

/-!
# Stacks of blocks

A text is read line by line. How a line is read depends on the innermost open block: it is content,
or closes the block, or opens another one inside. `Balanced` says of a text, without a stack, that
all the blocks it opens are closed in it; `balanced_iff` relates it to the stack.
-/

namespace Zulip

universe u v

inductive Reading (Frame : Type u) where
  | content
  | closes
  | opens (frame : Frame)
deriving DecidableEq

def Reading.map {Frame : Type u} {Other : Type v} (image : Frame → Other) :
    Reading Frame → Reading Other
  | .content => .content
  | .closes => .closes
  | .opens frame => .opens (image frame)

section BlockStack

variable {Frame : Type u} {Line : Type v} (read : Option Frame → Line → Reading Frame)

/-- The open blocks after a line, the innermost one first. -/
def stepStack (stack : List Frame) (line : Line) : List Frame :=
  match read stack.head? line with
  | .content => stack
  | .closes => stack.tail
  | .opens frame => frame :: stack

/-- The same for the blocks above another one, which is not closed. -/
def stepAbove (top : Frame) (above : List Frame) (line : Line) : Option (List Frame) :=
  match read (some (above.headD top)) line with
  | .content => some above
  | .opens frame => some (frame :: above)
  | .closes => above.tail?

def runAbove (top : Frame) (above : List Frame) (lines : List Line) : Option (List Frame) :=
  lines.foldlM (stepAbove read top) above

/-- Inside an open block: content, and blocks that are opened, balanced and closed. -/
inductive Balanced : Frame → List Line → Prop where
  | nil {top : Frame} : Balanced top []
  | content {top : Frame} {line : Line} {rest : List Line}
      (isContent : read (some top) line = .content) (balanced : Balanced top rest) :
      Balanced top (line :: rest)
  | block {top frame : Frame} {line close : Line} {inner rest : List Line}
      (isOpening : read (some top) line = .opens frame) (inside : Balanced frame inner)
      (isClosing : read (some frame) close = .closes) (balanced : Balanced top rest) :
      Balanced top (line :: (inner ++ close :: rest))

variable {read} {top frame : Frame} {above base final : List Frame} {line : Line}
  {lines before after : List Line}

theorem runAbove_cons :
    runAbove read top above (line :: lines) =
      (stepAbove read top above line).bind fun next => runAbove read top next lines :=
  List.foldlM_cons

theorem runAbove_append :
    runAbove read top above (before ++ after) =
      (runAbove read top above before).bind fun next => runAbove read top next after :=
  List.foldlM_append

/-- A step above a block is a step above any other block below it. -/
theorem stepAbove_append {next : List Frame} (step : stepAbove read frame above line = some next) :
    stepAbove read top (above ++ frame :: base) line = some (next ++ frame :: base) := by
  unfold stepAbove at step ⊢
  have sameTop : (above ++ frame :: base).headD top = above.headD frame := by
    cases above <;> rfl
  rw [sameTop]
  cases reading : read (some (above.headD frame)) line with
  | content =>
      rw [reading] at step
      cases step
      rfl
  | opens inner =>
      rw [reading] at step
      cases step
      rfl
  | closes =>
      rw [reading] at step
      cases above with
      | nil => cases step
      | cons first rest =>
          cases step
          rfl

theorem runAbove_append_frames (run : runAbove read frame above lines = some final) :
    runAbove read top (above ++ frame :: base) lines = some (final ++ frame :: base) := by
  induction lines generalizing above with
  | nil =>
      cases run
      rfl
  | cons line rest inductionHypothesis =>
      obtain ⟨next, step, run⟩ := Option.bind_eq_some_iff.mp (runAbove_cons ▸ run)
      rw [runAbove_cons, stepAbove_append step, Option.bind_some]
      exact inductionHypothesis run

/-- A step above a block is a step of the whole stack. -/
theorem stepStack_of_stepAbove {next : List Frame}
    (step : stepAbove read top above line = some next) :
    stepStack read (above ++ top :: base) line = next ++ top :: base := by
  unfold stepAbove at step
  unfold stepStack
  have sameTop : (above ++ top :: base).head? = some (above.headD top) := by
    cases above <;> rfl
  rw [sameTop]
  cases reading : read (some (above.headD top)) line with
  | content =>
      rw [reading] at step
      cases step
      rfl
  | opens inner =>
      rw [reading] at step
      cases step
      rfl
  | closes =>
      rw [reading] at step
      cases above with
      | nil => cases step
      | cons first rest =>
          cases step
          rfl

theorem foldl_stepStack_of_runAbove (run : runAbove read top above lines = some final) :
    lines.foldl (stepStack read) (above ++ top :: base) = final ++ top :: base := by
  induction lines generalizing above with
  | nil =>
      cases run
      rfl
  | cons line rest inductionHypothesis =>
      obtain ⟨next, step, run⟩ := Option.bind_eq_some_iff.mp (runAbove_cons ▸ run)
      rw [List.foldl_cons, stepStack_of_stepAbove step]
      exact inductionHypothesis run

/-- A balanced text leaves the stack as it is. -/
theorem runAbove_of_balanced (balanced : Balanced read top lines) :
    runAbove read top [] lines = some [] := by
  induction balanced with
  | nil => rfl
  | content isContent _ inductionHypothesis =>
      rw [runAbove_cons, stepAbove, List.headD_nil, isContent]
      exact inductionHypothesis
  | @block top frame line close inner rest isOpening _ isClosing _ insideHypothesis restHypothesis =>
      have opened : stepAbove read top [] line = some [frame] := by
        rw [stepAbove, List.headD_nil, isOpening]
      have closed : stepAbove read top [frame] close = some [] := by
        rw [stepAbove, List.headD_cons, isClosing]
        rfl
      have inside : runAbove read top [frame] inner = some [frame] :=
        @runAbove_append_frames _ _ read top frame [] [] [] inner insideHypothesis
      rw [runAbove_cons, opened, Option.bind_some, runAbove_append, inside, Option.bind_some,
        runAbove_cons, closed, Option.bind_some, restHypothesis]

/-- When a block is gone at the end, there is a line that closes it. -/
theorem exists_close (run : runAbove read top (above ++ frame :: base) lines = some final)
    (gone : final.length ≤ base.length) :
    ∃ inner close rest, lines = inner ++ close :: rest ∧ runAbove read frame above inner = some [] ∧
      read (some frame) close = .closes ∧ runAbove read top base rest = some final := by
  induction lines generalizing above with
  | nil =>
      cases run
      rw [List.length_append, List.length_cons] at gone
      omega
  | cons line rest inductionHypothesis =>
      obtain ⟨next, step, run⟩ := Option.bind_eq_some_iff.mp (runAbove_cons ▸ run)
      unfold stepAbove at step
      have sameTop : (above ++ frame :: base).headD top = above.headD frame := by
        cases above <;> rfl
      rw [sameTop] at step
      cases reading : read (some (above.headD frame)) line with
      | content =>
          rw [reading] at step
          cases step
          obtain ⟨inner, close, later, rfl, isInner, isClosing, isLater⟩ := inductionHypothesis run
          refine ⟨line :: inner, close, later, rfl, ?_, isClosing, isLater⟩
          rw [runAbove_cons, stepAbove, reading]
          exact isInner
      | opens opened =>
          rw [reading] at step
          cases step
          obtain ⟨inner, close, later, rfl, isInner, isClosing, isLater⟩ :=
            @inductionHypothesis (opened :: above) run
          refine ⟨line :: inner, close, later, rfl, ?_, isClosing, isLater⟩
          rw [runAbove_cons, stepAbove, reading]
          exact isInner
      | closes =>
          rw [reading] at step
          cases above with
          | nil =>
              cases step
              exact ⟨[], line, rest, rfl, rfl, reading, run⟩
          | cons first others =>
              cases step
              obtain ⟨inner, close, later, rfl, isInner, isClosing, isLater⟩ :=
                inductionHypothesis run
              refine ⟨line :: inner, close, later, rfl, ?_, isClosing, isLater⟩
              rw [runAbove_cons, stepAbove, reading]
              exact isInner

/-- A text that leaves the stack as it is, is balanced. -/
theorem balanced_of_runAbove (run : runAbove read top [] lines = some []) :
    Balanced read top lines := by
  induction length : lines.length using Nat.strongRecOn generalizing top lines with
  | ind count inductionHypothesis =>
      cases lines with
      | nil => exact .nil
      | cons line rest =>
          obtain ⟨next, step, run⟩ := Option.bind_eq_some_iff.mp (runAbove_cons ▸ run)
          rw [List.length_cons] at length
          rw [stepAbove, List.headD_nil] at step
          cases reading : read (some top) line with
          | content =>
              rw [reading] at step
              cases step
              exact .content reading (inductionHypothesis rest.length (by omega) run rfl)
          | closes =>
              rw [reading] at step
              cases step
          | opens frame =>
              rw [reading] at step
              cases step
              obtain ⟨inner, close, later, rfl, isInner, isClosing, isLater⟩ :=
                @exists_close _ _ read top frame [] [] [] rest run (Nat.le_refl _)
              rw [List.length_append, List.length_cons] at length
              exact .block reading (inductionHypothesis inner.length (by omega) isInner rfl) isClosing
                (inductionHypothesis later.length (by omega) isLater rfl)

theorem balanced_iff : Balanced read top lines ↔ runAbove read top [] lines = some [] :=
  ⟨runAbove_of_balanced, balanced_of_runAbove⟩

/-- A block that no line closes stays open. -/
theorem exists_runAbove (stays : ∀ line ∈ lines, read (some top) line ≠ .closes) :
    ∃ final, runAbove read top above lines = some final := by
  induction lines generalizing above with
  | nil => exact ⟨above, rfl⟩
  | cons line rest inductionHypothesis =>
      obtain ⟨next, step⟩ : ∃ next, stepAbove read top above line = some next := by
        unfold stepAbove
        cases reading : read (some (above.headD top)) line with
        | content => exact ⟨above, rfl⟩
        | opens frame => exact ⟨frame :: above, rfl⟩
        | closes =>
            cases above with
            | nil => exact absurd reading (stays line List.mem_cons_self)
            | cons first others => exact ⟨others, rfl⟩
      rw [runAbove_cons, step, Option.bind_some]
      exact inductionHypothesis fun line member => stays line (List.mem_cons_of_mem _ member)

/-- The first block above another one stays, or it is closed by one line. -/
theorem mem_stepStack_of_ne_nil (some : above ≠ []) :
    top ∈ stepStack read (above ++ [top]) line := by
  unfold stepStack
  cases above with
  | nil => exact absurd rfl some
  | cons first rest =>
      cases read ((first :: rest) ++ [top]).head? line with
      | content => simp
      | closes => simp
      | opens frame => simp

end BlockStack

/-! ## Frames and lines with more in them -/

section Image

universe w x

variable {Frame : Type u} {Line : Type v} {Other : Type w} {Source : Type x}
  {read : Option Frame → Line → Reading Frame} {readOther : Option Other → Source → Reading Other}
  {image : Frame → Other} {source : Line → Source} {top : Frame} {above : List Frame}
  {line : Line} {lines : List Line}

theorem runAbove_map
    (same : ∀ top line, (read top line).map image = readOther (top.map image) (source line)) :
    (runAbove read top above lines).map (List.map image) =
      runAbove readOther (image top) (above.map image) (lines.map source) := by
  induction lines generalizing above with
  | nil => rfl
  | cons line rest inductionHypothesis =>
      have sameStep : (stepAbove read top above line).map (List.map image) =
          stepAbove readOther (image top) (above.map image) (source line) := by
        have sameTop : (above.map image).headD (image top) = image (above.headD top) := by
          cases above <;> rfl
        have sameReading := same (some (above.headD top)) line
        rw [Option.map_some] at sameReading
        unfold stepAbove
        rw [sameTop, ← sameReading]
        cases read (some (above.headD top)) line with
        | content => rfl
        | opens frame => rfl
        | closes => cases above <;> rfl
      rw [List.map_cons, runAbove_cons, runAbove_cons, ← sameStep]
      cases stepAbove read top above line with
      | none => rfl
      | some next => exact inductionHypothesis

/-- Being balanced depends on how the lines are read only. -/
theorem balanced_map
    (same : ∀ top line, (read top line).map image = readOther (top.map image) (source line)) :
    Balanced read top lines ↔ Balanced readOther (image top) (lines.map source) := by
  have mapped := @runAbove_map _ _ _ _ _ _ _ _ top [] lines same
  rw [List.map_nil] at mapped
  rw [balanced_iff, balanced_iff, ← mapped]
  cases runAbove read top [] lines with
  | none => simp
  | some final => simp

end Image

end Zulip
