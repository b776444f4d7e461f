import Mathlib
import Zulip.Foundation.Padding
import Zulip.Markdown.FencedOutput

/-!
# The lines that fenced blocks keep

`run_keepsLines`: the output of the preprocessor has the lines of the text that are not fences, each
with a marker for each quote around it, and the header and the markup of each spoiler that has
lines. All else in it are empty lines and lines of markers only.
-/

namespace Zulip.Markdown.Fenced

open Markup

/-! ## What is kept -/

/-- A placeholder stands for its lines, each with what is around the placeholder. -/
def expandLine : Markup → List Line
  | [] => [[]]
  | .char c :: rest => (expandLine rest).map (c :: ·)
  | .placeholder text :: rest =>
      (text.splitOn '\n').flatMap fun line => (expandLine rest).map (line ++ ·)

/-- The lines of an output after its placeholders are expanded. -/
def expanded (output : List Markup) : List Line := output.flatMap expandLine

def isBlank (line : Line) : Bool := line.all isSpacePython

/-- A blank line, or one that is blank after some markers of quotes. -/
def IsEmptyQuote (line : Line) : Prop :=
  ∃ count rest, line = (List.replicate count quoteMarker).flatten ++ rest ∧ isBlank rest = true

/-- A marker for each quote among the open blocks. -/
def markers (stack : List Block) : Line :=
  (List.replicate (stack.countP fun block => block.kind = .quote) quoteMarker).flatten

/-- The lines inside of the open blocks. -/
def inside (stack : List Block) (lines : List Line) : List Line :=
  lines.map fun line => markers stack ++ line

/-- A line that is not a fence follows before no more than some blocks are open. -/
def holdsLine (read : Option Block → Line → Reading Block) (outside : Nat) :
    List Block → List Line → Bool
  | _, [] => false
  | stack, line :: rest =>
      match read stack.head? line with
      | .content => true
      | _ =>
          let next := stepStack read stack line
          if next.length ≤ outside then false else holdsLine read outside next rest

/-- A block, and whether it has lines. -/
abbrev HeldBlock := Block × Bool

/-- The markup and the header that open a spoiler with lines. -/
def openingLines : HeldBlock → List Line
  | (⟨.spoiler header, _, _⟩, true) =>
      [headerDivOpenHtml] ++ (if header = [] then [] else [header]) ++ [endHeaderStartContentHtml]
  | _ => []

/-- The markup that closes a spoiler with lines. -/
def closingLines : HeldBlock → List Line
  | (⟨.spoiler _, _, _⟩, true) => [footerHtml]
  | _ => []

def blocksOf (stack : List HeldBlock) : List Block := stack.map Prod.fst

/-- What closes the blocks that are open at the end of a text. -/
def closingAll : List HeldBlock → List Line
  | [] => []
  | block :: below => inside (blocksOf below) (closingLines block) ++ closingAll below

/-- What is kept of the rest of a text, inside of the blocks that are open: each line that is not a
fence and not blank, and what opens and closes the spoilers with lines. -/
def keptLines (defaultLanguage : Option Line) : List HeldBlock → List Line → List Line
  | stack, [] => closingAll stack
  | stack, line :: rest =>
      let read := Server.read defaultLanguage
      match read (blocksOf stack).head? line with
      | .content =>
          (if isBlank line then []
            else inside (blocksOf stack) [Server.written (blocksOf stack).head? line]) ++
              keptLines defaultLanguage stack rest
      | .closes =>
          inside (blocksOf stack.tail) (stack.head?.toList.flatMap closingLines) ++
            keptLines defaultLanguage stack.tail rest
      | .opens block =>
          let opened : HeldBlock :=
            (block, holdsLine read stack.length (block :: blocksOf stack) rest)
          inside (blocksOf stack) (openingLines opened) ++
            keptLines defaultLanguage (opened :: stack) rest

/-! ## Texts and lines -/

section Texts

variable {lines : List Markup} {line : Markup}

@[simp] theorem expandLine_ofLine (text : Line) : expandLine (ofLine text) = [text] := by
  induction text with
  | nil => rfl
  | cons c rest inductionHypothesis =>
      have step : expandLine (ofLine (c :: rest)) = (expandLine (ofLine rest)).map (c :: ·) := rfl
      rw [step, inductionHypothesis]
      rfl

@[simp] theorem expandLine_placeholder (text : Line) :
    expandLine (placeholder text) = text.splitOn '\n' := by
  have step : expandLine (placeholder text) =
      (text.splitOn '\n').flatMap fun line => [line ++ []] := rfl
  rw [step]
  simp

theorem expandLine_unbroken {text : Line} (noBreak : '\n' ∉ text) :
    expandLine (placeholder text) = [text] := by
  have single : (['\n'].intercalate [text]).splitOn '\n' = [text] :=
    List.splitOn_intercalate '\n' (by simpa using noBreak) (by simp)
  rwa [List.intercalate_singleton, ← expandLine_placeholder] at single

/-- What is before a placeholder is before each of its lines. -/
theorem expandLine_append (text : Line) :
    expandLine (ofLine text ++ line) = (expandLine line).map (text ++ ·) := by
  induction text with
  | nil => exact (List.map_id _).symm
  | cons c rest inductionHypothesis =>
      have step : expandLine (ofLine (c :: rest) ++ line) =
          (expandLine (ofLine rest ++ line)).map (c :: ·) := rfl
      rw [step, inductionHypothesis, List.map_map]
      rfl

theorem expanded_append (first second : List Markup) :
    expanded (first ++ second) = expanded first ++ expanded second :=
  List.flatMap_append

/-- The lines of an output with a text before each line. -/
theorem expanded_map_append (text : Line) :
    expanded (lines.map (ofLine text ++ ·)) = (expanded lines).map (text ++ ·) := by
  unfold expanded
  rw [List.flatMap_map, List.map_flatMap]
  exact List.flatMap_congr fun line _ => expandLine_append text

theorem expanded_ofLines (texts : List Line) : expanded (texts.map ofLine) = texts := by
  unfold expanded
  rw [List.flatMap_map]
  simp

/-- A line has no line break of its own. -/
def Unbroken (line : Markup) : Prop := newline ∉ line

theorem unbroken_ofLine_iff {text : Line} : Unbroken (ofLine text) ↔ '\n' ∉ text := by
  refine not_congr ⟨fun isNewline => ?_, fun isBreak => List.mem_map_of_mem isBreak⟩
  obtain ⟨c, isChar, same⟩ := List.mem_map.mp isNewline
  cases same
  exact isChar

theorem unbroken_placeholder (text : Line) : Unbroken (placeholder text) := by
  intro isNewline
  cases List.mem_singleton.mp isNewline

theorem unbroken_nil : Unbroken [] := List.not_mem_nil

theorem unbroken_append {text : Line} (noBreak : '\n' ∉ text) (unbroken : Unbroken line) :
    Unbroken (ofLine text ++ line) := by
  intro isNewline
  exact (List.mem_append.mp isNewline).elim (unbroken_ofLine_iff.mpr noBreak) unbroken

/-- Lines that are joined and split again are the same. -/
theorem splitLines_joinLines (unbroken : ∀ line ∈ lines, Unbroken line) (nonempty : lines ≠ []) :
    splitLines (joinLines lines) = lines :=
  List.splitOn_intercalate newline unbroken nonempty

/-- What the formatter of a code block gets. -/
theorem source_joinLines (texts : List Line) :
    (joinLines (texts.map ofLine)).source = ['\n'].intercalate texts := by
  have source_ofLine : ∀ text : Line, (ofLine text).source = text := by
    intro text
    induction text with
    | nil => rfl
    | cons c rest inductionHypothesis => exact congrArg (c :: ·) inductionHypothesis
  have source_append : ∀ first second : Markup,
      Markup.source (first ++ second) = first.source ++ second.source :=
    fun _ _ => List.flatMap_append
  unfold joinLines
  induction texts with
  | nil => rfl
  | cons text rest inductionHypothesis =>
      cases rest with
      | nil => simpa using source_ofLine text
      | cons next others =>
          simp only [List.map_cons] at inductionHypothesis ⊢
          rw [List.intercalate_cons_cons, List.intercalate_cons_cons, source_append, source_append,
            source_ofLine, inductionHypothesis]
          rfl

theorem splitLines_of_unbroken (unbroken : Unbroken line) : splitLines line = [line] := by
  have joined := @splitLines_joinLines [line] (by simpa using unbroken) (by simp)
  rwa [joinLines, List.intercalate_singleton] at joined

theorem joinLines_append {first second : List Markup} (nonempty : first ≠ [])
    (nonempty' : second ≠ []) :
    joinLines (first ++ second) = joinLines first ++ newline :: joinLines second := by
  unfold joinLines
  induction first with
  | nil => exact absurd rfl nonempty
  | cons head rest inductionHypothesis =>
      cases rest with
      | nil =>
          obtain ⟨next, others, rfl⟩ := List.exists_cons_of_ne_nil nonempty'
          simp [List.intercalate_cons_cons]
      | cons next others =>
          have unfolded := inductionHypothesis (by simp)
          simp only [List.cons_append] at unfolded ⊢
          rw [List.intercalate_cons_cons, unfolded, List.intercalate_cons_cons]
          simp

/-! ## Blocks -/

/-- The lines that a handler gives to the one below it. -/
def formattedLines (kind : BlockKind) (lines : List Markup) : List Markup :=
  match kind with
  | .code | .math => [placeholder (joinLines lines).source]
  | .quote => lines.map (ofLine quoteMarker ++ ·)
  | .spoiler header =>
      ([placeholder headerDivOpenHtml, []] ++ (if header = [] then [] else [ofLine header, []]) ++
        [placeholder endHeaderStartContentHtml, []]) ++ (lines ++ [[], placeholder footerHtml])

/-- The header of a spoiler has no line break. -/
def BlockKind.Unbroken : BlockKind → Prop
  | .spoiler header => '\n' ∉ header
  | _ => True

theorem formatQuote_joinLines (unbroken : ∀ line ∈ lines, Unbroken line) (nonempty : lines ≠ []) :
    formatQuote (joinLines lines) = joinLines (lines.map (ofLine quoteMarker ++ ·)) := by
  unfold formatQuote
  dsimp only
  rw [splitLines_joinLines unbroken nonempty]
  congr 1
  refine List.map_congr_left fun line isLine => ?_
  rw [splitLines_of_unbroken (unbroken line isLine)]
  simp [joinLines]

theorem formatSpoiler_joinLines (header : Line) (nonempty : lines ≠ []) :
    formatSpoiler header (joinLines lines) =
      joinLines (formattedLines (.spoiler header) lines) := by
  unfold formattedLines
  dsimp only
  rw [joinLines_append (by simp) (by simp), joinLines_append nonempty (by simp)]
  unfold formatSpoiler
  split_ifs with noHeader
  · simp [joinLines, List.intercalate_cons_cons]
  · simp [joinLines, List.intercalate_cons_cons]

theorem unbroken_formattedLines {kind : BlockKind} (unbrokenKind : kind.Unbroken)
    (unbroken : ∀ line ∈ lines, Unbroken line) :
    ∀ line ∈ formattedLines kind lines, Unbroken line := by
  intro line isLine
  cases kind with
  | code =>
      obtain rfl := List.mem_singleton.mp isLine
      exact unbroken_placeholder _
  | math =>
      obtain rfl := List.mem_singleton.mp isLine
      exact unbroken_placeholder _
  | quote =>
      obtain ⟨text, isText, rfl⟩ := List.mem_map.mp isLine
      exact unbroken_append (by decide) (unbroken text isText)
  | spoiler header =>
      have headerLines : ∀ line ∈ (if header = [] then [] else [ofLine header, []]),
          Unbroken line := by
        split_ifs
        · exact fun _ isLine => nomatch isLine
        · intro line isLine
          rcases List.mem_pair.mp isLine with rfl | rfl
          · exact unbroken_ofLine_iff.mpr unbrokenKind
          · exact unbroken_nil
      simp only [formattedLines, List.mem_append, List.mem_cons, List.not_mem_nil,
        or_false] at isLine
      rcases isLine with (((rfl | rfl) | isHeader) | rfl | rfl) | isText | rfl | rfl
      · exact unbroken_placeholder _
      · exact unbroken_nil
      · exact headerLines line isHeader
      · exact unbroken_placeholder _
      · exact unbroken_nil
      · exact unbroken line isText
      · exact unbroken_nil
      · exact unbroken_placeholder _

/-- The lines of a block that is done. -/
theorem splitLines_formatText {kind : BlockKind} (unbrokenKind : kind.Unbroken)
    (unbroken : ∀ line ∈ lines, Unbroken line) (nonempty : lines ≠ []) :
    splitLines (if processContents kind then formatText kind (joinLines lines)
      else placeholder (formatText kind (joinLines lines)).source) = formattedLines kind lines := by
  have unbrokenLines := unbroken_formattedLines unbrokenKind unbroken
  cases kind with
  | code => exact splitLines_of_unbroken (unbroken_placeholder _)
  | math => exact splitLines_of_unbroken (unbroken_placeholder _)
  | quote =>
      simp only [processContents, if_true, formatText]
      rw [formatQuote_joinLines unbroken nonempty]
      exact splitLines_joinLines unbrokenLines (by simpa using nonempty)
  | spoiler header =>
      simp only [processContents, if_true, formatText]
      rw [formatSpoiler_joinLines header nonempty]
      exact splitLines_joinLines unbrokenLines (by simp [formattedLines])

theorem markers_cons (block : Block) (below : List Block) :
    markers (block :: below) = markers below ++ markers [block] := by
  simp only [markers, List.countP_cons, List.countP_nil, Nat.zero_add]
  rw [List.replicate_add, List.flatten_append]

theorem isEmptyQuote_nil : IsEmptyQuote [] := ⟨0, [], rfl, rfl⟩

/-- A line of markers inside more quotes. -/
theorem IsEmptyQuote.markers_append {line : Line} (isEmpty : IsEmptyQuote line)
    (stack : List Block) : IsEmptyQuote (markers stack ++ line) := by
  obtain ⟨count, rest, rfl, blank⟩ := isEmpty
  refine ⟨(stack.countP fun block => block.kind = .quote) + count, rest, ?_, blank⟩
  rw [List.replicate_add, List.flatten_append, List.append_assoc]
  rfl

/-- Only quotes mark the lines inside of them. -/
theorem inside_of_not_quote {block : Block} (notQuote : block.kind ≠ .quote)
    (texts : List Line) : inside [block] texts = texts := by
  simp [inside, markers, notQuote]

/-- The placeholder of a block of code or math stands for the lines of the block. -/
theorem expandLine_source {texts : List Line} (noBreaks : ∀ text ∈ texts, '\n' ∉ text)
    (nonempty : texts ≠ []) :
    expandLine (placeholder (joinLines (texts.map ofLine)).source) = texts := by
  rw [expandLine_placeholder, source_joinLines]
  exact List.splitOn_intercalate '\n' noBreaks nonempty

/-- The lines of a spoiler are those that it has, its header and its markup, and empty lines. -/
theorem padded_spoilerLines (header : Line) (lines : List Markup) :
    Padded IsEmptyQuote
      ([headerDivOpenHtml] ++ (if header = [] then [] else [header]) ++
        [endHeaderStartContentHtml] ++ expanded lines ++ [footerHtml])
      (expanded (formattedLines (.spoiler header) lines)) := by
  have separated : ∀ text : Line, Padded IsEmptyQuote [text] ([text] ++ [[]]) :=
    fun text => .append_pad isEmptyQuote_nil (.refl _)
  have headerLines : Padded IsEmptyQuote (if header = [] then [] else [header])
      (expanded (if header = [] then [] else [ofLine header, []])) := by
    split_ifs
    · exact .nil
    · simpa [expanded, expandLine] using separated header
  have opening : expanded [placeholder headerDivOpenHtml, []] = [headerDivOpenHtml] ++ [[]] := by
    rw [expanded, List.flatMap_cons, expandLine_unbroken (by decide)]
    rfl
  have content : expanded [placeholder endHeaderStartContentHtml, []] =
      [endHeaderStartContentHtml] ++ [[]] := by
    rw [expanded, List.flatMap_cons, expandLine_unbroken (by decide)]
    rfl
  have footer : expanded [[], placeholder footerHtml] = [[]] ++ [footerHtml] := by
    rw [expanded, List.flatMap_cons, List.flatMap_cons, expandLine_unbroken (by decide)]
    rfl
  simp only [formattedLines, expanded_append, opening, content, footer,
    ← List.append_assoc _ (expanded lines)]
  exact ((((separated _).append headerLines).append (separated _)).append (.refl _)).append
    (.pad isEmptyQuote_nil (.refl _))

/-- The formatted lines of a block are its own lines inside of it, between those that open and close
it. -/
theorem padded_formattedLines {block : Block} (unbroken : ∀ line ∈ lines, Unbroken line)
    (nonempty : lines ≠ [])
    (raw : processContents block.kind = false → ∃ texts : List Line, lines = texts.map ofLine) :
    Padded IsEmptyQuote
      (openingLines (block, true) ++ inside [block] (expanded lines) ++ closingLines (block, true))
      (expanded ([[]] ++ formattedLines block.kind lines ++ [[]])) := by
  have around : ∀ {kept full : List Line}, Padded IsEmptyQuote kept full →
      Padded IsEmptyQuote kept ([[]] ++ full ++ [[]]) :=
    fun padded => .append_pad isEmptyQuote_nil (.pad isEmptyQuote_nil padded)
  rw [expanded_append, expanded_append]
  refine around ?_
  obtain ⟨kind, fence, defaultLanguage⟩ := block
  -- A placeholder for the whole block, of code or math.
  have joined : processContents kind = false →
      expanded [placeholder (joinLines lines).source] = expanded lines := by
    intro isRaw
    obtain ⟨texts, rfl⟩ := raw isRaw
    have noBreaks : ∀ text ∈ texts, '\n' ∉ text := fun text isText =>
      unbroken_ofLine_iff.mp (unbroken _ (List.mem_map_of_mem isText))
    rw [expanded, List.flatMap_singleton, expanded_ofLines]
    exact expandLine_source noBreaks (by simpa using nonempty)
  cases kind with
  | code =>
      rw [formattedLines, joined rfl, inside_of_not_quote (by simp), closingLines,
        List.append_nil]
      · exact .refl _
      · simp
  | math =>
      rw [formattedLines, joined rfl, inside_of_not_quote (by simp), closingLines,
        List.append_nil]
      · exact .refl _
      · simp
  | quote =>
      rw [formattedLines, expanded_map_append, closingLines, List.append_nil]
      · exact .refl _
      · simp
  | spoiler header =>
      rw [inside_of_not_quote (by simp)]
      exact padded_spoilerLines header lines

end Texts

/-! ## Handlers -/

namespace TextProcessor

/-- The block of the innermost handler. -/
def top (processor : TextProcessor) : Option Block := processor.handlers.head?.map TextHandler.block

/-- What is done for a line that is read. -/
def apply (processor : TextProcessor) (reading : Reading Block) (text : Line) : TextProcessor :=
  match reading with
  | .content => processor.write [ofLine text]
  | .closes => processor.done
  | .opens block => processor.push block

theorem checkForNewFence_eq (processor : TextProcessor) (line : Line)
    (defaultLanguage : Option Line) :
    processor.checkForNewFence line defaultLanguage =
      processor.apply (Server.readFence line defaultLanguage) line := by
  unfold checkForNewFence Server.readFence
  cases Server.fenceRe line <;> rfl

/-- A handler does what its reading of the line says. -/
theorem handleLine_eq (defaultLanguage : Option Line) (processor : TextProcessor) (line : Line) :
    handleLine defaultLanguage processor line =
      processor.apply (Server.read defaultLanguage processor.top line)
        (Server.written processor.top line) := by
  obtain ⟨output, outer, handlers⟩ := processor
  cases handlers with
  | nil => exact checkForNewFence_eq _ line defaultLanguage
  | cons handler rest =>
      obtain ⟨⟨kind, fence, own⟩, lines⟩ := handler
      unfold handleLine Server.read Server.written
      by_cases isFence : rstrip line = fence
      · simp [top, isFence, apply]
      · cases kind with
        | quote => simp [top, isFence, checkForNewFence_eq]
        | spoiler header => simp [top, isFence, checkForNewFence_eq]
        | code => simp [top, isFence, apply]
        | math => simp [top, isFence, apply]

variable {processor next final : TextProcessor}

theorem Finishes.of_done (isRunning : processor.running = true) (isDone : processor.done = next)
    (finishes : next.Finishes final) : processor.Finishes final := by
  subst isDone
  have unfolds : processor.Finishes final ↔ processor.done.Finishes final :=
    ends_iff_of_step isRunning rfl
  exact unfolds.mpr finishes

theorem finishes_self (notRunning : processor.running = false) : processor.Finishes processor :=
  ends_of_finished notRunning

end TextProcessor

/-- A handler, and whether its block has lines in the end. -/
abbrev HeldHandler := TextHandler × Bool

def heldBlocks (stack : List HeldHandler) : List HeldBlock :=
  stack.map fun held => (held.1.block, held.2)

def handlersOf (stack : List HeldHandler) : List TextHandler := stack.map Prod.fst

/-- The lines that the handlers of a stack have, inside of their blocks. -/
def pendingLines : List HeldHandler → List Line
  | [] => []
  | held :: below =>
      pendingLines below ++
        inside (blocksOf (heldBlocks below)) (openingLines (held.1.block, held.2)) ++
          inside (blocksOf (heldBlocks (held :: below))) (expanded held.1.lines)

/-- Lines for the innermost handler. -/
def writeHeld (texts : List Markup) : List HeldHandler → List HeldHandler
  | [] => []
  | (handler, holds) :: below => ({ handler with lines := handler.lines ++ texts }, holds) :: below

section Stack

variable {stack below : List HeldHandler} {held : HeldHandler} {texts : List Markup}
  {output : List Markup} {outer : Bool}

theorem inside_nil (lines : List Line) : inside [] lines = lines := List.map_id _

theorem inside_append (blocks : List Block) (first second : List Line) :
    inside blocks (first ++ second) = inside blocks first ++ inside blocks second :=
  List.map_append

theorem inside_cons (block : Block) (blocks : List Block) (lines : List Line) :
    inside (block :: blocks) lines = inside blocks (inside [block] lines) := by
  unfold inside
  rw [List.map_map]
  refine List.map_congr_left fun line _ => ?_
  rw [markers_cons, List.append_assoc]
  rfl

theorem Padded.inside {kept full : List Line} (padded : Padded IsEmptyQuote kept full)
    (blocks : List Block) :
    Padded IsEmptyQuote (Fenced.inside blocks kept) (Fenced.inside blocks full) :=
  padded.map fun _ isEmpty => isEmpty.markers_append blocks

@[simp] theorem heldBlocks_writeHeld : heldBlocks (writeHeld texts stack) = heldBlocks stack := by
  cases stack <;> rfl

@[simp] theorem length_heldBlocks : (heldBlocks stack).length = stack.length := List.length_map _

theorem top_eq : (TextProcessor.mk output outer (handlersOf stack)).top =
    (blocksOf (heldBlocks stack)).head? := by
  cases stack <;> rfl

/-- The lines that are written are inside of all blocks. -/
theorem write_eq :
    ∃ output', (TextProcessor.mk output outer (handlersOf stack)).write texts =
        ⟨output', outer, handlersOf (writeHeld texts stack)⟩ ∧
      expanded output' ++ pendingLines (writeHeld texts stack) =
        expanded output ++ pendingLines stack ++
          inside (blocksOf (heldBlocks stack)) (expanded texts) := by
  cases stack with
  | nil =>
      refine ⟨output ++ texts, rfl, ?_⟩
      have noBlocks : inside (blocksOf (heldBlocks [])) (expanded texts) = expanded texts :=
        inside_nil _
      rw [noBlocks, expanded_append]
      simp [pendingLines, writeHeld]
  | cons held below =>
      refine ⟨output, rfl, ?_⟩
      obtain ⟨handler, holds⟩ := held
      simp only [writeHeld, pendingLines, expanded_append, inside_append, ← List.append_assoc]
      rfl

/-! ## The invariant -/

/-- The lines of the handlers have no line breaks, those of code and math no placeholders, and only
the innermost handler is one of code or math. -/
structure Sound (stack : List HeldHandler) : Prop where
  unbrokenKind : ∀ held ∈ stack, held.1.block.kind.Unbroken
  unbroken : ∀ held ∈ stack, ∀ line ∈ held.1.lines, Unbroken line
  raw : ∀ held ∈ stack, processContents held.1.block.kind = false →
    ∃ texts : List Line, held.1.lines = texts.map ofLine
  below : ∀ held ∈ stack.tail, processContents held.1.block.kind = true

/-- Each handler is marked as one with lines when it has some, when one above it has some, or when a
line follows before its block is closed. -/
def Tracks (read : Option Block → Line → Reading Block) (openBlocks : List Block)
    (rest : List Line) : Bool → List HeldHandler → Prop
  | _, [] => True
  | above, held :: below =>
      held.2 = (above || !held.1.lines.isEmpty || holdsLine read below.length openBlocks rest) ∧
        Tracks read openBlocks rest (above || !held.1.lines.isEmpty) below

theorem Sound.of_cons (sound : Sound (held :: below)) : Sound below where
  unbrokenKind other isOther := sound.unbrokenKind other (List.mem_cons_of_mem _ isOther)
  unbroken other isOther := sound.unbroken other (List.mem_cons_of_mem _ isOther)
  raw other isOther := sound.raw other (List.mem_cons_of_mem _ isOther)
  below other isOther := sound.below other (List.mem_of_mem_tail isOther)

/-- Writing to the innermost handler. -/
theorem Sound.writeHeld (sound : Sound stack) (unbroken : ∀ line ∈ texts, Unbroken line)
    (raw : ∀ held ∈ stack.head?, processContents held.1.block.kind = false →
      ∃ lines : List Line, texts = lines.map ofLine) :
    Sound (writeHeld texts stack) := by
  cases stack with
  | nil => exact sound
  | cons held below =>
      obtain ⟨handler, holds⟩ := held
      refine ⟨?_, ?_, ?_, sound.below⟩
      · intro other isOther
        rcases List.mem_cons.mp isOther with rfl | isBelow
        · exact sound.unbrokenKind (handler, holds) List.mem_cons_self
        · exact sound.unbrokenKind other (List.mem_cons_of_mem _ isBelow)
      · intro other isOther line isLine
        rcases List.mem_cons.mp isOther with rfl | isBelow
        · rcases List.mem_append.mp isLine with isOld | isNew
          · exact sound.unbroken (handler, holds) List.mem_cons_self line isOld
          · exact unbroken line isNew
        · exact sound.unbroken other (List.mem_cons_of_mem _ isBelow) line isLine
      · intro other isOther isRaw
        rcases List.mem_cons.mp isOther with rfl | isBelow
        · obtain ⟨old, isOld⟩ := sound.raw (handler, holds) List.mem_cons_self isRaw
          obtain ⟨new, isNew⟩ := raw _ rfl isRaw
          refine ⟨old ++ new, ?_⟩
          rw [List.map_append, ← isOld, ← isNew]
        · exact sound.raw other (List.mem_cons_of_mem _ isBelow) isRaw

section Tracking

variable {read : Option Block → Line → Reading Block} {openBlocks next : List Block}
  {rest : List Line} {line : Line} {above : Bool}

/-- Below lines, all handlers have lines. -/
theorem tracks_true_iff :
    Tracks read openBlocks rest true stack ↔ ∀ held ∈ stack, held.2 = true := by
  induction stack with
  | nil => simp [Tracks]
  | cons held below inductionHypothesis =>
      simp only [Tracks, Bool.true_or, inductionHypothesis, List.forall_mem_cons]

/-- A line that is written makes all handlers ones with lines. -/
theorem tracks_writeHeld (nonempty : texts ≠ []) (all : ∀ held ∈ stack, held.2 = true) :
    Tracks read openBlocks rest false (writeHeld texts stack) := by
  cases stack with
  | nil => trivial
  | cons held below =>
      obtain ⟨handler, holds⟩ := held
      have isHeld : holds = true := all _ List.mem_cons_self
      refine ⟨?_, ?_⟩
      · simp [isHeld, nonempty]
      · have hasLines : (false || !(handler.lines ++ texts).isEmpty) = true := by simp [nonempty]
        rw [hasLines, tracks_true_iff]
        exact fun other isOther => all other (List.mem_cons_of_mem _ isOther)

/-- All handlers have lines when one is read. -/
theorem all_of_content (isContent : read openBlocks.head? line = .content)
    (tracks : Tracks read openBlocks (line :: rest) above stack) :
    ∀ held ∈ stack, held.2 = true := by
  induction stack generalizing above with
  | nil => exact fun _ isHeld => nomatch isHeld
  | cons held below inductionHypothesis =>
      have isHeld : held.2 = true := by
        rw [tracks.1, holdsLine, isContent]
        exact Bool.or_true _
      exact List.forall_mem_cons.mpr ⟨isHeld, inductionHypothesis tracks.2⟩

/-- A fence changes nothing for the blocks that stay open. -/
theorem tracks_of_fence (isFence : read openBlocks.head? line ≠ .content)
    (inside : stack.length ≤ (stepStack read openBlocks line).length)
    (tracks : Tracks read openBlocks (line :: rest) above stack) :
    Tracks read (stepStack read openBlocks line) rest above stack := by
  induction stack generalizing above with
  | nil => trivial
  | cons held below inductionHypothesis =>
      rw [List.length_cons] at inside
      refine ⟨?_, inductionHypothesis (by omega) tracks.2⟩
      have staysOpen : ¬(stepStack read openBlocks line).length ≤ below.length := by omega
      rw [tracks.1, holdsLine]
      cases reading : read openBlocks.head? line with
      | content => exact absurd reading isFence
      | closes => simp only [if_neg staysOpen]
      | opens block => simp only [if_neg staysOpen]

end Tracking

/-! ## Steps -/

/-- A handler that is done gives its lines to the one below, inside of its block. -/
theorem padded_done (sound : Sound (held :: below)) (isHeld : held.2 = !held.1.lines.isEmpty) :
    ∃ output' below', (TextProcessor.mk output outer (handlersOf (held :: below))).done =
        ⟨output', outer, handlersOf below'⟩ ∧
      heldBlocks below' = heldBlocks below ∧ Sound below' ∧
      (∀ read openBlocks rest, Tracks read openBlocks rest (!held.1.lines.isEmpty) below →
        Tracks read openBlocks rest false below') ∧
      Padded IsEmptyQuote
        (expanded output ++ pendingLines (held :: below) ++
          inside (blocksOf (heldBlocks below)) (closingLines (held.1.block, held.2)))
        (expanded output' ++ pendingLines below') := by
  obtain ⟨⟨block, lines⟩, holds⟩ := held
  dsimp only at isHeld ⊢
  subst isHeld
  have pending : expanded output ++ pendingLines ((⟨block, lines⟩, !lines.isEmpty) :: below) ++
      inside (blocksOf (heldBlocks below)) (closingLines (block, !lines.isEmpty)) =
        expanded output ++ pendingLines below ++ inside (blocksOf (heldBlocks below))
          (openingLines (block, !lines.isEmpty) ++ inside [block] (expanded lines) ++
            closingLines (block, !lines.isEmpty)) := by
    simp only [pendingLines, inside_append, ← List.append_assoc]
    congr 2
    exact inside_cons block (blocksOf (heldBlocks below)) (expanded lines)
  rw [pending]
  by_cases isEmpty : lines = []
  · subst isEmpty
    refine ⟨output, below, rfl, rfl, sound.of_cons, fun _ _ _ tracks => tracks, ?_⟩
    have noLines : openingLines (block, !([] : List Markup).isEmpty) ++
        inside [block] (expanded []) ++ closingLines (block, !([] : List Markup).isEmpty) = [] := by
      simp [openingLines, closingLines, expanded, inside]
    rw [noLines]
    simpa [inside] using Padded.refl _
  · have holds : (!lines.isEmpty) = true := by simp [isEmpty]
    have unbrokenKind := sound.unbrokenKind _ List.mem_cons_self
    have unbroken := sound.unbroken _ List.mem_cons_self
    have formatted := padded_formattedLines unbroken isEmpty (sound.raw _ List.mem_cons_self)
    have isDone : (TextProcessor.mk output outer
        (handlersOf ((⟨block, lines⟩, !lines.isEmpty) :: below))).done =
          (TextProcessor.mk output outer (handlersOf below)).write
            ([[]] ++ formattedLines block.kind lines ++ [[]]) := by
      rw [← splitLines_formatText unbrokenKind unbroken isEmpty]
      exact if_neg isEmpty
    obtain ⟨output', isWritten, written⟩ := @write_eq below
      ([[]] ++ formattedLines block.kind lines ++ [[]]) output outer
    refine ⟨output', _, isDone.trans isWritten, heldBlocks_writeHeld, sound.of_cons.writeHeld ?_ ?_,
      fun read openBlocks rest tracks => ?_, ?_⟩
    · intro line isLine
      simp only [List.mem_append, List.mem_singleton] at isLine
      rcases isLine with (rfl | isFormatted) | rfl
      · exact unbroken_nil
      · exact unbroken_formattedLines unbrokenKind unbroken line isFormatted
      · exact unbroken_nil
    · intro other isTop isRaw
      rw [sound.below other (List.mem_of_mem_head? isTop)] at isRaw
      cases isRaw
    · rw [holds, tracks_true_iff] at tracks
      exact tracks_writeHeld (by simp) tracks
    · rw [written, holds]
      exact (Padded.refl _).append (Padded.inside formatted _)

/-- The end of a text: all handlers are done. -/
theorem padded_closing {read : Option Block → Line → Reading Block} {openBlocks : List Block}
    (sound : Sound stack) (tracks : Tracks read openBlocks [] false stack) :
    ∃ final, (TextProcessor.mk output true (handlersOf stack)).Finishes final ∧
      final.handlers = [] ∧ final.outer = false ∧
      Padded IsEmptyQuote
        (expanded output ++ pendingLines stack ++ closingAll (heldBlocks stack))
        (expanded final.output) := by
  induction isCount : stack.length generalizing output stack with
  | zero =>
      obtain rfl := List.length_eq_zero_iff.mp isCount
      refine ⟨⟨output, false, []⟩, ?_, rfl, rfl, ?_⟩
      · exact .of_done rfl rfl (TextProcessor.finishes_self rfl)
      · simpa [pendingLines, closingAll, heldBlocks] using Padded.refl _
  | succ count inductionHypothesis =>
      cases stack with
      | nil => cases isCount
      | cons held below =>
          have isHeld : held.2 = !held.1.lines.isEmpty := by
            rw [tracks.1]
            simp [holdsLine]
          obtain ⟨output', below', isDone, sameBlocks, soundBelow, tracksBelow, padded⟩ :=
            @padded_done below held output true sound isHeld
          have tracksTail : Tracks read openBlocks [] (!held.1.lines.isEmpty) below := by
            simpa using tracks.2
          have isCount' : below'.length = count := by
            rw [← length_heldBlocks, sameBlocks, length_heldBlocks]
            simpa using isCount
          obtain ⟨final, finishes, noHandlers, noOuter, paddedRest⟩ := @inductionHypothesis below'
            output' soundBelow (tracksBelow _ _ _ tracksTail) isCount'
          refine ⟨final, .of_done rfl isDone finishes, noHandlers, noOuter, ?_⟩
          rw [sameBlocks] at paddedRest
          refine Padded.trans ?_ paddedRest
          have closing : closingAll (heldBlocks (held :: below)) =
              inside (blocksOf (heldBlocks below)) (closingLines (held.1.block, held.2)) ++
                closingAll (heldBlocks below) := rfl
          rw [closing, ← List.append_assoc]
          exact padded.append (.refl _)

end Stack

/-! ## Fences -/

section Fences

variable {line : Line} {block : Block}

theorem dropOptional_sublist (c : Char) (text : Line) : (dropOptional c text).Sublist text := by
  cases text with
  | nil => exact .slnil
  | cons first rest =>
      rw [dropOptional]
      split_ifs
      · exact List.sublist_cons_self _ _
      · exact .refl _

theorem dropSpaces_sublist (text : Line) : (dropSpaces text).Sublist text :=
  List.dropWhile_sublist _

theorem afterLang_sublist (text : Line) : (Server.afterLang text).Sublist text := by
  unfold Server.afterLang
  split_ifs
  · exact List.dropWhile_sublist _
  · exact (List.dropWhile_sublist _).trans (dropOptional_sublist _ _)

theorem rstrip_sublist (text : Line) : (rstrip text).Sublist text := by
  have shorter := (List.dropWhile_sublist (l := text.reverse) isSpacePython).reverse
  rwa [List.reverse_reverse] at shorter

/-- A header is a part of the line. -/
theorem header_sublist {fence : Line} {lang header : Option Line}
    (isFence : Server.fenceRe line = some (fence, lang, header)) :
    (header.getD []).Sublist line := by
  unfold Server.fenceRe at isFence
  split at isFence
  · cases isFence
  · next run rest isRun =>
      have isRest : rest.Sublist line := by
        unfold fenceRun at isRun
        cases line with
        | nil => cases isRun
        | cons c chars =>
            simp only [Option.ite_none_right_eq_some] at isRun
            obtain ⟨-, isRun⟩ := isRun
            cases isRun
            exact List.drop_sublist _ _
      dsimp only at isFence
      split_ifs at isFence
      · cases isFence
        exact List.nil_sublist _
      · cases isFence
        exact List.nil_sublist _
      · cases isFence
        exact (dropSpaces_sublist _).trans ((afterLang_sublist _).trans
          ((dropOptional_sublist _ _).trans ((dropSpaces_sublist _).trans isRest)))

theorem unbroken_genericHandler {fence : Line} {lang header defaultLanguage : Option Line}
    (noBreak : '\n' ∉ header.getD []) :
    (Server.genericHandler fence lang header defaultLanguage).kind.Unbroken := by
  unfold Server.genericHandler
  dsimp only
  split_ifs
  · trivial
  · trivial
  · exact noBreak
  · trivial

theorem unbroken_of_readFence (noBreak : '\n' ∉ line) {defaultLanguage : Option Line}
    (isOpening : Server.readFence line defaultLanguage = .opens block) : block.kind.Unbroken := by
  unfold Server.readFence at isOpening
  split at isOpening
  · next fence lang header isFence =>
      cases isOpening
      exact unbroken_genericHandler fun isBreak =>
        noBreak ((header_sublist isFence).subset isBreak)
  · cases isOpening

/-- Blocks are opened outside of code and math only, and their headers have no line breaks. -/
theorem opens_spec (noBreak : '\n' ∉ line) {defaultLanguage : Option Line} {top : Option Block}
    (isOpening : Server.read defaultLanguage top line = .opens block) :
    block.kind.Unbroken ∧ ∀ outer ∈ top, processContents outer.kind = true := by
  unfold Server.read at isOpening
  split at isOpening
  · exact ⟨unbroken_of_readFence noBreak isOpening, fun outer isOuter => nomatch isOuter⟩
  · next outer =>
      obtain ⟨kind, fence, own⟩ := outer
      split_ifs at isOpening
      cases kind with
      | quote =>
          refine ⟨unbroken_of_readFence noBreak isOpening, fun outer isOuter => ?_⟩
          cases isOuter
          rfl
      | spoiler header =>
          refine ⟨unbroken_of_readFence noBreak isOpening, fun outer isOuter => ?_⟩
          cases isOuter
          rfl
      | code => cases isOpening
      | math => cases isOpening

theorem written_sublist (top : Option Block) (line : Line) :
    (Server.written top line).Sublist line := by
  unfold Server.written
  split
  · exact rstrip_sublist line
  · exact rstrip_sublist line
  · exact .refl _

theorem isBlank_written (top : Option Block) (blank : isBlank line = true) :
    isBlank (Server.written top line) = true := by
  rw [isBlank, List.all_eq_true] at blank ⊢
  exact fun c isChar => blank c ((written_sublist top line).subset isChar)

/-- The outer handler closes nothing. -/
theorem read_none_ne_closes (defaultLanguage : Option Line) :
    Server.read defaultLanguage none line ≠ .closes := by
  unfold Server.read Server.readFence
  cases Server.fenceRe line <;> simp

end Fences

/-! ## Whole texts -/

section Runs

variable {stack : List HeldHandler} {output : List Markup} {line : Line}
  {defaultLanguage : Option Line}

/-- A line that is not a fence. -/
theorem padded_content (blocks : List Block) :
    Padded IsEmptyQuote
      (if isBlank line then [] else inside blocks [Server.written blocks.head? line])
      (inside blocks (expanded [ofLine (Server.written blocks.head? line)])) := by
  have single : expanded [ofLine (Server.written blocks.head? line)] =
      [Server.written blocks.head? line] := expanded_ofLines [_]
  rw [single]
  split_ifs with blank
  · have isEmpty : IsEmptyQuote (Server.written blocks.head? line) :=
      ⟨0, _, rfl, isBlank_written _ blank⟩
    exact .pad (isEmpty.markers_append blocks) .nil
  · exact .refl _

theorem Sound.push (sound : Sound stack) {block : Block} (unbrokenKind : block.kind.Unbroken)
    (inside : ∀ outer ∈ (blocksOf (heldBlocks stack)).head?, processContents outer.kind = true)
    (holds : Bool) : Sound ((⟨block, []⟩, holds) :: stack) where
  unbrokenKind := List.forall_mem_cons.mpr ⟨unbrokenKind, sound.unbrokenKind⟩
  unbroken := List.forall_mem_cons.mpr ⟨fun _ isLine => (List.not_mem_nil isLine).elim,
    sound.unbroken⟩
  raw := List.forall_mem_cons.mpr ⟨fun _ => ⟨[], rfl⟩, sound.raw⟩
  below := by
    cases stack with
    | nil => exact fun _ isHeld => (List.not_mem_nil isHeld).elim
    | cons held below => exact List.forall_mem_cons.mpr ⟨inside _ rfl, sound.below⟩

theorem length_blocksOf (stack : List HeldHandler) :
    (blocksOf (heldBlocks stack)).length = stack.length := by
  simp [blocksOf]

/-- A line takes the stack to another one, and what is kept of the line is in the handlers or in the
output. -/
structure KeepsLine (defaultLanguage : Option Line) (output : List Markup)
    (stack : List HeldHandler) (line : Line) (rest : List Line) (output' : List Markup)
    (stack' : List HeldHandler) : Prop where
  handles : TextProcessor.handleLine defaultLanguage ⟨output, true, handlersOf stack⟩ line =
    ⟨output', true, handlersOf stack'⟩
  sound : Sound stack'
  tracks : Tracks (Server.read defaultLanguage) (blocksOf (heldBlocks stack')) rest false stack'
  kept : ∃ kept, keptLines defaultLanguage (heldBlocks stack) (line :: rest) =
      kept ++ keptLines defaultLanguage (heldBlocks stack') rest ∧
    Padded IsEmptyQuote (expanded output ++ pendingLines stack ++ kept)
      (expanded output' ++ pendingLines stack')

section Steps

variable {rest : List Line}

theorem handleLine_stack :
    TextProcessor.handleLine defaultLanguage ⟨output, true, handlersOf stack⟩ line =
      (TextProcessor.mk output true (handlersOf stack)).apply
        (Server.read defaultLanguage (blocksOf (heldBlocks stack)).head? line)
        (Server.written (blocksOf (heldBlocks stack)).head? line) := by
  rw [TextProcessor.handleLine_eq, top_eq]

theorem keepsLine_of_content (sound : Sound stack) (noBreak : '\n' ∉ line)
    (tracks : Tracks (Server.read defaultLanguage) (blocksOf (heldBlocks stack)) (line :: rest)
      false stack)
    (reading : Server.read defaultLanguage (blocksOf (heldBlocks stack)).head? line = .content) :
    ∃ output' stack', KeepsLine defaultLanguage output stack line rest output' stack' := by
  obtain ⟨output', isWritten, written⟩ := @write_eq stack
    [ofLine (Server.written (blocksOf (heldBlocks stack)).head? line)] output true
  have unbroken : Unbroken (ofLine (Server.written (blocksOf (heldBlocks stack)).head? line)) :=
    unbroken_ofLine_iff.mpr fun isBreak => noBreak ((written_sublist _ _).subset isBreak)
  have all := all_of_content reading tracks
  refine ⟨output',
    writeHeld [ofLine (Server.written (blocksOf (heldBlocks stack)).head? line)] stack, ?_,
    sound.writeHeld (by simpa using unbroken) fun _ _ _ => ⟨[_], rfl⟩,
    tracks_writeHeld (by simp) all,
    if isBlank line then []
      else inside (blocksOf (heldBlocks stack))
        [Server.written (blocksOf (heldBlocks stack)).head? line], ?_, ?_⟩
  · rw [handleLine_stack, reading]
    exact isWritten
  · rw [keptLines, reading, heldBlocks_writeHeld]
  · rw [written]
    exact (Padded.refl _).append (padded_content _)

theorem keepsLine_of_closes (sound : Sound stack)
    (tracks : Tracks (Server.read defaultLanguage) (blocksOf (heldBlocks stack)) (line :: rest)
      false stack)
    (reading : Server.read defaultLanguage (blocksOf (heldBlocks stack)).head? line = .closes) :
    ∃ output' stack', KeepsLine defaultLanguage output stack line rest output' stack' := by
  cases stack with
  | nil => exact absurd reading (read_none_ne_closes defaultLanguage)
  | cons held below =>
      have step : stepStack (Server.read defaultLanguage) (blocksOf (heldBlocks (held :: below)))
          line = blocksOf (heldBlocks below) := by
        rw [stepStack, reading]
        rfl
      have noMore : holdsLine (Server.read defaultLanguage) below.length
          (blocksOf (heldBlocks (held :: below))) (line :: rest) = false := by
        rw [holdsLine, reading]
        dsimp only
        rw [if_pos]
        rw [step]
        exact (length_blocksOf below).le
      have isHeld : held.2 = !held.1.lines.isEmpty := by
        rw [tracks.1, noMore]
        simp
      have tracksBelow : Tracks (Server.read defaultLanguage) (blocksOf (heldBlocks below)) rest
          (!held.1.lines.isEmpty) below := by
        have shorter := tracks_of_fence (by rw [reading]; simp)
          (by rw [step]; exact (length_blocksOf below).ge) tracks.2
        rw [step] at shorter
        simpa using shorter
      obtain ⟨output', below', isDone, sameBlocks, soundNext, tracksNext, padded⟩ :=
        @padded_done below held output true sound isHeld
      refine ⟨output', below', ?_, soundNext, ?_,
        inside (blocksOf (heldBlocks below)) (closingLines (held.1.block, held.2)), ?_, padded⟩
      · rw [handleLine_stack, reading]
        exact isDone
      · rw [sameBlocks]
        exact tracksNext _ _ _ tracksBelow
      · have closing : [((held.1.block, held.2) : HeldBlock)].flatMap closingLines =
            closingLines (held.1.block, held.2) := List.flatMap_singleton _ _
        rw [keptLines, reading, sameBlocks, ← closing]
        rfl

theorem keepsLine_of_opens {block : Block} (sound : Sound stack) (noBreak : '\n' ∉ line)
    (tracks : Tracks (Server.read defaultLanguage) (blocksOf (heldBlocks stack)) (line :: rest)
      false stack)
    (reading : Server.read defaultLanguage (blocksOf (heldBlocks stack)).head? line =
      .opens block) :
    ∃ output' stack', KeepsLine defaultLanguage output stack line rest output' stack' := by
  have step : stepStack (Server.read defaultLanguage) (blocksOf (heldBlocks stack)) line =
      block :: blocksOf (heldBlocks stack) := by
    rw [stepStack, reading]
  obtain ⟨unbrokenKind, insideOuter⟩ := opens_spec noBreak reading
  have tracksOuter := tracks_of_fence (by rw [reading]; simp)
    (by rw [step, List.length_cons, length_blocksOf]; omega) tracks
  rw [step] at tracksOuter
  refine ⟨output, (⟨block, []⟩, holdsLine (Server.read defaultLanguage) stack.length
      (block :: blocksOf (heldBlocks stack)) rest) :: stack, ?_,
    sound.push unbrokenKind insideOuter _, ⟨rfl, tracksOuter⟩,
    inside (blocksOf (heldBlocks stack)) (openingLines (block,
      holdsLine (Server.read defaultLanguage) stack.length
        (block :: blocksOf (heldBlocks stack)) rest)), ?_, ?_⟩
  · rw [handleLine_stack, reading]
    rfl
  · rw [keptLines, reading, length_heldBlocks]
    rfl
  · have pending : pendingLines ((⟨block, []⟩, holdsLine (Server.read defaultLanguage) stack.length
        (block :: blocksOf (heldBlocks stack)) rest) :: stack) =
        pendingLines stack ++ inside (blocksOf (heldBlocks stack)) (openingLines (block,
          holdsLine (Server.read defaultLanguage) stack.length
            (block :: blocksOf (heldBlocks stack)) rest)) := List.append_nil _
    rw [pending, ← List.append_assoc]
    exact .refl _

/-- One case for each reading of the line. -/
theorem exists_keepsLine (sound : Sound stack) (noBreak : '\n' ∉ line)
    (tracks : Tracks (Server.read defaultLanguage) (blocksOf (heldBlocks stack)) (line :: rest)
      false stack) :
    ∃ output' stack', KeepsLine defaultLanguage output stack line rest output' stack' := by
  cases reading : Server.read defaultLanguage (blocksOf (heldBlocks stack)).head? line with
  | content => exact keepsLine_of_content sound noBreak tracks reading
  | closes => exact keepsLine_of_closes sound tracks reading
  | opens block => exact keepsLine_of_opens sound noBreak tracks reading

end Steps

/-- From any stack, the run ends, and what it keeps is what the handlers have and what is kept of
the rest of the text. -/
theorem padded_run (rest : List Line) (noBreaks : ∀ line ∈ rest, '\n' ∉ line) :
    ∀ output stack, Sound stack →
      Tracks (Server.read defaultLanguage) (blocksOf (heldBlocks stack)) rest false stack →
      ∃ final, (rest.foldl (TextProcessor.handleLine defaultLanguage)
          ⟨output, true, handlersOf stack⟩).Finishes final ∧
        final.handlers = [] ∧ final.outer = false ∧
        Padded IsEmptyQuote
          (expanded output ++ pendingLines stack ++
            keptLines defaultLanguage (heldBlocks stack) rest)
          (expanded final.output) := by
  induction rest with
  | nil => exact fun output stack sound tracks => padded_closing sound tracks
  | cons line rest inductionHypothesis =>
      intro output stack sound tracks
      obtain ⟨noBreak, noBreaks⟩ := List.forall_mem_cons.mp noBreaks
      obtain ⟨output', stack', keepsLine⟩ :=
        @exists_keepsLine stack output line defaultLanguage rest sound noBreak tracks
      obtain ⟨final, finishes, noHandlers, noOuter, padded⟩ :=
        inductionHypothesis noBreaks output' stack' keepsLine.sound keepsLine.tracks
      obtain ⟨kept, isKept, paddedLine⟩ := keepsLine.kept
      refine ⟨final, ?_, noHandlers, noOuter, Padded.trans ?_ padded⟩
      · rw [List.foldl_cons, keepsLine.handles]
        exact finishes
      · rw [isKept, ← List.append_assoc]
        exact paddedLine.append (.refl _)

/-- The new lines at the end of the output. -/
theorem padded_endOutput (output : List Markup) :
    Padded IsEmptyQuote (expanded output) (expanded (TextProcessor.endOutput output)) := by
  unfold TextProcessor.endOutput
  split_ifs
  · rw [expanded_append]
    exact .append_pad isEmptyQuote_nil (.refl _)
  · exact .refl _

/-- The preprocessor ends without handlers. After its placeholders are expanded, the output has the
lines of the text that are not blank and not fences, each with a marker for each quote around it,
and the headers and the markup of the spoilers that have lines, all in their order and once. Besides
them it has lines only that are blank but for markers. -/
theorem run_keepsLines (defaultLanguage : Option Line) (lines : List Line)
    (noBreaks : ∀ line ∈ lines, '\n' ∉ line) :
    ∃ final, TextProcessor.Runs defaultLanguage lines final ∧ final.handlers = [] ∧
      final.outer = false ∧
      Padded IsEmptyQuote (keptLines defaultLanguage [] lines)
        (expanded (TextProcessor.endOutput final.output)) := by
  have sound : Sound [] := ⟨by simp, by simp, by simp, by simp⟩
  obtain ⟨final, finishes, noHandlers, noOuter, padded⟩ :=
    @padded_run defaultLanguage lines noBreaks [] [] sound trivial
  exact ⟨final, finishes, noHandlers, noOuter, padded.trans (padded_endOutput _)⟩

/-- Two paragraphs in a quote, with a block of code between them. -/
def quotedParagraphs : List Line :=
  ["```quote".toList, "first".toList, "".toList, "~~~ py".toList, "x = 1 ".toList,
    "y = 2".toList, "~~~".toList, "second".toList, "```".toList]

/-- The lines of the quote, those of the code block included, have markers. -/
theorem run_keepsLines_quote :
    ∃ final, TextProcessor.Runs none quotedParagraphs final ∧
      Padded IsEmptyQuote
        ["> first".toList, "> x = 1".toList, "> y = 2".toList, "> second".toList]
        (expanded (TextProcessor.endOutput final.output)) := by
  obtain ⟨final, runs, -, -, padded⟩ := run_keepsLines none quotedParagraphs (by decide +kernel)
  refine ⟨final, runs, ?_⟩
  have kept : keptLines none [] quotedParagraphs =
      ["> first".toList, "> x = 1".toList, "> y = 2".toList, "> second".toList] := by
    decide +kernel
  rwa [kept] at padded

/-- The empty line between the paragraphs becomes a line with a marker, which is not blank. -/
theorem emptyLine_gets_marker :
    ¬∀ lines final, TextProcessor.Runs none lines final →
      ((expanded (TextProcessor.endOutput final.output)).filter fun line => !isBlank line) =
        keptLines none [] lines := by
  intro exact
  have runs : TextProcessor.Runs none
      ["```quote".toList, "a".toList, [], "b".toList, "```".toList]
      ⟨[[], [.char '>', .char ' ', .char 'a'], [.char '>', .char ' '],
        [.char '>', .char ' ', .char 'b'], []], false, []⟩ := ⟨2, rfl⟩
  exact absurd (exact _ _ runs) (by decide +kernel)

end Runs

end Zulip.Markdown.Fenced
