import Zulip.Markdown.FenceReadings

/-!
# Drafted quotes

A quoted message is put between fences that are longer than those of the message. The quote is
closed by the second fence exactly when the message closes all the blocks that it opens.
-/

namespace Zulip.Markdown.Fenced

/-! ## The fence -/

/-- Where `^` matches with the flag `m`. -/
def isLineTerminator (c : Char) : Bool := c ∈ ['\n', '\r', '\u2028', '\u2029']

def isBacktick (c : Char) : Bool := c = '\x60'

/-- The length of the first group of `fence_length_re` in a line. -/
def fenceLength (line : Line) : Option Nat :=
  let spaces := line.takeWhile (· = ' ')
  let run := (line.drop spaces.length).takeWhile isBacktick
  if spaces.length ≤ 3 ∧ 3 ≤ run.length then some run.length else none

/-- The loop of `get_unused_fence`, for one line. -/
def longerFence (length : Nat) (line : Line) : Nat :=
  match fenceLength line with
  | some found => max length (found + 1)
  | none => length

def getUnusedFence (content : List Char) : Line :=
  List.replicate ((content.splitOnP isLineTerminator).foldl longerFence 3) '\x60'

section UnusedFence

variable {content : List Char} {line : Line} {count : Nat}

theorem le_longerFence (length : Nat) (line : Line) : length ≤ longerFence length line := by
  unfold longerFence
  cases fenceLength line with
  | none => exact Nat.le_refl _
  | some found => exact Nat.le_max_left _ _

theorem le_foldl_longerFence (lines : List Line) (length : Nat) :
    length ≤ lines.foldl longerFence length := by
  induction lines generalizing length with
  | nil => exact Nat.le_refl _
  | cons line rest inductionHypothesis =>
      exact Nat.le_trans (le_longerFence length line) (inductionHypothesis _)

/-- The fence is longer than those of all lines. -/
theorem lt_foldl_longerFence {lines : List Line} (member : line ∈ lines)
    (isLength : fenceLength line = some count) (length : Nat) :
    count < lines.foldl longerFence length := by
  induction lines generalizing length with
  | nil => cases member
  | cons first rest inductionHypothesis =>
      rcases List.mem_cons.mp member with rfl | later
      · have longer : count + 1 ≤ longerFence length line := by
          rw [longerFence, isLength]
          exact Nat.le_max_right _ _
        exact Nat.lt_of_lt_of_le longer (le_foldl_longerFence rest _)
      · exact inductionHypothesis later _

/-- The expression also begins lines elsewhere. -/
theorem exists_splitOnP (content : List Char) :
    ∃ line lines segment segments, content.splitOn '\n' = line :: lines ∧
      content.splitOnP isLineTerminator = segment :: segments ∧
      line.takeWhile (fun c => !isLineTerminator c) = segment ∧
      ∀ later ∈ lines, later.takeWhile (fun c => !isLineTerminator c) ∈ segments := by
  induction content with
  | nil => exact ⟨[], [], [], [], rfl, rfl, rfl, nofun⟩
  | cons c rest inductionHypothesis =>
      obtain ⟨line, lines, segment, segments, isLines, isSegments, begins, later⟩ :=
        inductionHypothesis
      rw [List.splitOn_cons_eq_if_modifyHead, List.splitOnP_cons_eq_if_modifyHead, isLines,
        isSegments]
      by_cases isNewline : c = '\n'
      · subst isNewline
        refine ⟨[], _, [], _, rfl, rfl, rfl, fun other member => ?_⟩
        rcases List.mem_cons.mp member with rfl | isLater
        · rw [begins]
          exact List.mem_cons_self
        · exact List.mem_cons_of_mem _ (later other isLater)
      · rw [if_neg (by simpa using isNewline), List.modifyHead_cons]
        cases terminates : isLineTerminator c with
        | true =>
            refine ⟨_, _, [], _, rfl, rfl, ?_, fun other isLater =>
              List.mem_cons_of_mem _ (later other isLater)⟩
            rw [List.takeWhile_cons_of_neg (by simp [terminates])]
        | false =>
            refine ⟨_, _, _, _, rfl, rfl, ?_, later⟩
            rw [List.takeWhile_cons_of_pos (by simp [terminates]), begins]

/-- What is a line for the handlers begins with a line of the expression. -/
theorem takeWhile_mem_splitOnP (member : line ∈ content.splitOn '\n') :
    line.takeWhile (fun c => !isLineTerminator c) ∈ content.splitOnP isLineTerminator := by
  obtain ⟨first, lines, segment, segments, isLines, isSegments, begins, later⟩ :=
    exists_splitOnP content
  rw [isLines] at member
  rw [isSegments]
  rcases List.mem_cons.mp member with rfl | isLater
  · rw [begins]
    exact List.mem_cons_self
  · exact List.mem_cons_of_mem _ (later line isLater)

theorem fenceLength_of_replicate (long : 3 ≤ count)
    (begins : List.replicate count '\x60' <+: line) :
    ∃ found, fenceLength line = some found ∧ count ≤ found := by
  obtain ⟨rest, rfl⟩ := begins
  have noSpaces : (List.replicate count '\x60' ++ rest).takeWhile (· = ' ') = [] := by
    cases count with
    | zero => omega
    | succ count => rfl
  have run : count ≤ ((List.replicate count '\x60' ++ rest).takeWhile isBacktick).length := by
    rw [List.takeWhile_append_of_pos, List.length_append, List.length_replicate]
    · exact Nat.le_add_right _ _
    · intro c isBacktickChar
      rw [List.eq_of_mem_replicate isBacktickChar]
      rfl
  refine ⟨_, ?_, run⟩
  unfold fenceLength
  dsimp only
  rw [noSpaces, List.length_nil, List.drop_zero, if_pos ⟨Nat.zero_le _, Nat.le_trans long run⟩]

theorem three_le_length_getUnusedFence (content : List Char) :
    3 ≤ (getUnusedFence content).length := by
  rw [getUnusedFence, List.length_replicate]
  exact le_foldl_longerFence _ _

/-- No line begins with as many backticks as the fence has. -/
theorem length_lt_getUnusedFence (member : line ∈ content.splitOn '\n') (long : 3 ≤ count)
    (begins : List.replicate count '\x60' <+: line) :
    count < (getUnusedFence content).length := by
  have beginsSegment : List.replicate count '\x60' <+:
      line.takeWhile fun c => !isLineTerminator c := by
    obtain ⟨rest, rfl⟩ := begins
    rw [List.takeWhile_append_of_pos]
    · exact List.prefix_append _ _
    · intro c isBacktickChar
      rw [List.eq_of_mem_replicate isBacktickChar]
      rfl
  obtain ⟨found, isLength, atLeast⟩ := fenceLength_of_replicate long beginsSegment
  rw [getUnusedFence, List.length_replicate]
  exact Nat.lt_of_le_of_lt atLeast
    (lt_foldl_longerFence (takeWhile_mem_splitOnP member) isLength 3)

end UnusedFence

/-! ## The quote -/

/-- The quote that is opened by the first line is open. -/
def QuoteIsOpen (handlers : List Handler) : Prop :=
  ∃ handler ∈ handlers, handler.openedAt = 0 ∧ handler.block.kind = .quote

def quoteLine (fence : Line) : Line := fence ++ "quote".toList

/-- The first line opens a quote, and it is open up to the second fence, and never again. -/
structure StaysQuoted (after : List Line → List Handler) (fence : Line)
    (content rest : List Line) : Prop where
  opened : QuoteIsOpen (after [quoteLine fence])
  inside : ∀ before later, content = before ++ later →
    QuoteIsOpen (after (quoteLine fence :: before))
  outside : ∀ before later, rest = before ++ later →
    ¬QuoteIsOpen (after (quoteLine fence :: (content ++ fence :: before)))

section Quote

variable {read : Option Block → Line → Reading Block} {after : List Line → List Handler}
  {wrapper : Block} {fence : Line} {content rest : List Line}

theorem quoteIsOpen_iff {handlers : List Handler} :
    QuoteIsOpen handlers ↔
      ∃ block ∈ handlers.map Handler.openBlock, block.2 = 0 ∧ block.1.kind = .quote := by
  simp [QuoteIsOpen, Handler.openBlock]

/-- The blocks above the quote, when no line closes it. -/
theorem exists_openBlocks (isOpening : read none (quoteLine fence) = .opens wrapper)
    (stays : ∀ line ∈ content, read (some wrapper) line ≠ .closes) :
    ∃ above, runAbove (numbered read) (wrapper, 0) [] (content.zipIdx 1) = some above ∧
      openBlocks read (quoteLine fence :: content) = above ++ [(wrapper, 0)] := by
  obtain ⟨above, run⟩ := @exists_runAbove _ _ (numbered read) (wrapper, 0) [] (content.zipIdx 1)
    fun line member closes => by
      have isClosing : read (some wrapper) line.1 = .closes := by
        unfold numbered at closes
        rw [Option.map_some] at closes
        cases reading : read (some wrapper) line.1 with
        | closes => rfl
        | content =>
            rw [reading] at closes
            cases closes
        | opens frame =>
            rw [reading] at closes
            cases closes
      exact stays line.1 (List.fst_mem_of_mem_zipIdx member) isClosing
  refine ⟨above, run, ?_⟩
  have opened : stepStack (numbered read) [] (quoteLine fence, 0) = [(wrapper, 0)] := by
    rw [stepStack, List.head?_nil, numbered, Option.map_none, isOpening]
    rfl
  rw [openBlocks, List.zipIdx_cons, List.foldl_cons, opened]
  exact foldl_stepStack_of_runAbove run

/-- Blocks that are opened later have a later line. -/
theorem openedAt_ge {stack : List OpenBlock} {lines : List (Line × Nat)} {bound : Nat}
    (later : ∀ line ∈ lines, bound ≤ line.2) (stackLater : ∀ block ∈ stack, bound ≤ block.2) :
    ∀ block ∈ lines.foldl (stepStack (numbered read)) stack, bound ≤ block.2 := by
  induction lines generalizing stack with
  | nil => exact stackLater
  | cons line rest inductionHypothesis =>
      refine inductionHypothesis (fun line member => later line (List.mem_cons_of_mem _ member)) ?_
      unfold stepStack numbered
      cases read (stack.head?.map Prod.fst) line.1 with
      | content => exact stackLater
      | closes => exact fun block member => stackLater block (List.mem_of_mem_tail member)
      | opens block =>
          intro open' member
          rcases List.mem_cons.mp member with rfl | isOld
          · exact later line List.mem_cons_self
          · exact stackLater open' isOld

/-- The quote is closed by the second fence exactly when the blocks in it are closed. -/
theorem staysQuoted_iff
    (same : ∀ lines, (after lines).map Handler.openBlock = openBlocks read lines)
    (isQuote : wrapper.kind = .quote)
    (isOpening : read none (quoteLine fence) = .opens wrapper)
    (isClosing : read (some wrapper) fence = .closes)
    (stays : ∀ line ∈ content, read (some wrapper) line ≠ .closes) :
    StaysQuoted after fence content rest ↔ Balanced read wrapper content := by
  have isOpen : ∀ before later, content = before ++ later →
      QuoteIsOpen (after (quoteLine fence :: before)) := by
    intro before later isContent
    obtain ⟨above, -, areOpen⟩ := exists_openBlocks isOpening fun line member =>
      stays line (isContent ▸ List.mem_append_left later member)
    rw [quoteIsOpen_iff, same, areOpen]
    exact ⟨(wrapper, 0), by simp, rfl, isQuote⟩
  obtain ⟨above, run, areOpen⟩ := exists_openBlocks isOpening stays
  have sameReading : ∀ top line, (numbered read top line).map Prod.fst =
      read (top.map Prod.fst) line.1 := by
    intro top line
    unfold numbered
    cases read (top.map Prod.fst) line.1 <;> rfl
  have balanced : Balanced read wrapper content ↔ above = [] := by
    have mapped := @balanced_map _ _ _ _ _ _ _ _ (wrapper, 0) (content.zipIdx 1) sameReading
    rw [List.zipIdx_map_fst, balanced_iff, run] at mapped
    exact mapped.symm.trans Option.some_inj
  have afterContent : ∀ before, openBlocks read (quoteLine fence :: (content ++ fence :: before)) =
      (before.zipIdx (content.length + 2)).foldl (stepStack (numbered read))
        (stepStack (numbered read) (above ++ [(wrapper, 0)]) (fence, content.length + 1)) := by
    intro before
    rw [← areOpen]
    simp only [openBlocks, List.zipIdx_cons, List.zipIdx_append, List.foldl_cons,
      List.foldl_append, Nat.zero_add]
    rw [Nat.add_comm 1 content.length]
  rw [balanced]
  constructor
  · intro quoted
    by_contra someAbove
    have staysOpen := @mem_stepStack_of_ne_nil _ _ (numbered read) (wrapper, 0) above
      (fence, content.length + 1) someAbove
    refine quoted.outside [] rest rfl (quoteIsOpen_iff.mpr ?_)
    rw [same, afterContent]
    exact ⟨(wrapper, 0), staysOpen, rfl, isQuote⟩
  · rintro rfl
    refine ⟨isOpen [] content rfl, isOpen, fun before later isRest => ?_⟩
    have closed : stepStack (numbered read) ([] ++ [(wrapper, 0)]) (fence, content.length + 1) =
        [] := by
      rw [List.nil_append, stepStack, List.head?_cons, numbered, Option.map_some, isClosing]
      rfl
    rw [quoteIsOpen_iff, same, afterContent, closed]
    rintro ⟨block, isOpenBlock, atStart, -⟩
    have later := openedAt_ge (fun line member => List.le_snd_of_mem_zipIdx member)
      (fun _ member => absurd member List.not_mem_nil) block isOpenBlock
    omega

end Quote

/-! ## The fence of the quote -/

section Fences

variable {count : Nat} {content : List Char} {line : Line}

theorem fenceRun_replicate (long : 3 ≤ count) {rest : Line}
    (other : ∀ c ∈ rest.head?, c ≠ '\x60') :
    fenceRun (List.replicate count '\x60' ++ rest) =
      some (List.replicate count '\x60', rest) := by
  have run : (List.replicate count '\x60' ++ rest).takeWhile (· = '\x60') =
      List.replicate count '\x60' := by
    rw [List.takeWhile_append_of_pos fun c member => by
      rw [List.eq_of_mem_replicate member]; rfl]
    cases rest with
    | nil => simp
    | cons c rest =>
        rw [List.takeWhile_cons_of_neg (by simpa using other c rfl), List.append_nil]
  cases count with
  | zero => omega
  | succ count =>
      rw [List.replicate_succ, List.cons_append] at run ⊢
      simp only [fenceRun, run]
      rw [if_pos ⟨.inr trivial, by simpa using long⟩]
      simp

/-- Both sides read the first line as a quote. -/
theorem Server.readFence_quoteLine (long : 3 ≤ count) (defaultLanguage : Option Line) :
    Server.readFence (quoteLine (List.replicate count '\x60')) defaultLanguage =
      .opens ⟨.quote, List.replicate count '\x60', defaultLanguage⟩ := by
  have groups : Server.fenceRe (quoteLine (List.replicate count '\x60')) =
      some (List.replicate count '\x60', some "quote".toList, none) := by
    unfold Server.fenceRe quoteLine
    rw [fenceRun_replicate long (by simp)]
    rfl
  rw [Server.readFence, groups]
  rfl

theorem Client.readFence_quoteLine (long : 3 ≤ count) :
    Client.readFence (quoteLine (List.replicate count '\x60')) =
      .opens ⟨.quote, List.replicate count '\x60', none⟩ := by
  have groups : Client.fenceRe (quoteLine (List.replicate count '\x60')) =
      some (List.replicate count '\x60', "quote".toList, []) := by
    unfold Client.fenceRe quoteLine
    rw [fenceRun_replicate long (by simp)]
    rfl
  rw [Client.readFence, groups]
  rfl

theorem rstrip_prefix (line : Line) : rstrip line <+: line := by
  have isSuffix := @List.dropWhile_suffix _ line.reverse isSpacePython
  rw [rstrip, dropEndWhile, ← List.reverse_suffix, List.reverse_reverse]
  exact isSuffix

theorem rstrip_replicate (count : Nat) :
    rstrip (List.replicate count '\x60') = List.replicate count '\x60' := by
  unfold rstrip dropEndWhile
  rw [List.reverse_replicate]
  cases count with
  | zero => rfl
  | succ count =>
      rw [List.replicate_succ, List.dropWhile_cons_of_neg (by decide), ← List.replicate_succ,
        List.reverse_replicate]

/-- No line of the message is the fence, also with spaces after it. -/
theorem rstrip_ne_getUnusedFence (member : line ∈ content.splitOn '\n') :
    rstrip line ≠ getUnusedFence content := by
  intro isFence
  have long := three_le_length_getUnusedFence content
  have begins : List.replicate (getUnusedFence content).length '\x60' <+: line := by
    have isReplicate : List.replicate (getUnusedFence content).length '\x60' =
        getUnusedFence content := by
      rw [getUnusedFence, List.length_replicate]
    rw [isReplicate, ← isFence]
    exact rstrip_prefix line
  exact absurd (length_lt_getUnusedFence member long begins) (Nat.lt_irrefl _)

theorem ne_getUnusedFence (member : line ∈ content.splitOn '\n') :
    line ≠ getUnusedFence content := by
  rintro isFence
  refine rstrip_ne_getUnusedFence member ?_
  rw [isFence, getUnusedFence, rstrip_replicate]

end Fences

/-! ## Both sides -/

def Server.handlersAfter (defaultLanguage : Option Line) (lines : List Line) : List Handler :=
  (handleLines (Server.handleLine defaultLanguage) .initial 0 lines).handlers

def Client.handlersAfter (lines : List Line) : List Handler :=
  (handleLines Client.handleLine .initial 0 lines).handlers

theorem Server.staysQuoted_iff (defaultLanguage : Option Line) (content : List Char)
    (rest : List Line) :
    StaysQuoted (Server.handlersAfter defaultLanguage) (getUnusedFence content)
        (content.splitOn '\n') rest ↔
      Balanced (Server.read defaultLanguage) ⟨.quote, getUnusedFence content, defaultLanguage⟩
        (content.splitOn '\n') := by
  have long := three_le_length_getUnusedFence content
  rw [getUnusedFence, List.length_replicate] at long
  refine Fenced.staysQuoted_iff (fun lines => openBlocks_handleLines
    (Server.openBlocks_handleLine defaultLanguage) .initial 0 lines) rfl
    (Server.readFence_quoteLine long defaultLanguage) ?_ fun line member => ?_
  · exact if_pos (rstrip_replicate _)
  · unfold Server.read
    dsimp only
    rw [if_neg (rstrip_ne_getUnusedFence member), Server.readFence]
    cases Server.fenceRe line <;> nofun

theorem Client.staysQuoted_iff (content : List Char) (rest : List Line) :
    StaysQuoted Client.handlersAfter (getUnusedFence content) (content.splitOn '\n') rest ↔
      Balanced Client.read ⟨.quote, getUnusedFence content, none⟩ (content.splitOn '\n') := by
  have long := three_le_length_getUnusedFence content
  rw [getUnusedFence, List.length_replicate] at long
  refine Fenced.staysQuoted_iff (fun lines => openBlocks_handleLines
    Client.openBlocks_handleLine .initial 0 lines) rfl
    (Client.readFence_quoteLine long) ?_ fun line member => ?_
  · exact if_pos rfl
  · unfold Client.read
    dsimp only
    rw [if_neg (ne_getUnusedFence member), Client.readFence]
    cases Client.fenceRe line <;> nofun

/-- A drafted quote is closed by its fence on both sides exactly when the message closes all the
blocks that it opens, as each side reads them. -/
theorem draftedQuote_staysQuoted_iff (defaultLanguage : Option Line) (content : List Char)
    (rest : List Line) :
    (StaysQuoted Client.handlersAfter (getUnusedFence content) (content.splitOn '\n') rest ∧
      StaysQuoted (Server.handlersAfter defaultLanguage) (getUnusedFence content)
        (content.splitOn '\n') rest) ↔
    Balanced Client.read ⟨.quote, getUnusedFence content, none⟩ (content.splitOn '\n') ∧
      Balanced (Server.read defaultLanguage) ⟨.quote, getUnusedFence content, defaultLanguage⟩
        (content.splitOn '\n') :=
  and_congr (Client.staysQuoted_iff content rest)
    (Server.staysQuoted_iff defaultLanguage content rest)

/-- A message that does not close its code block keeps the fence of the quote, and what follows. -/
theorem draftedQuote_not_staysQuoted_code :
    ¬∀ (defaultLanguage : Option Line) (content : List Char) (rest : List Line),
      StaysQuoted Client.handlersAfter (getUnusedFence content) (content.splitOn '\n') rest ∧
        StaysQuoted (Server.handlersAfter defaultLanguage) (getUnusedFence content)
          (content.splitOn '\n') rest := by
  intro always
  obtain ⟨client, -⟩ := always none "\x60\x60\x60\ncode".toList ["after".toList]
  have handlers : Client.handlersAfter (quoteLine (getUnusedFence "\x60\x60\x60\ncode".toList) ::
      ("\x60\x60\x60\ncode".toList.splitOn '\n' ++
        getUnusedFence "\x60\x60\x60\ncode".toList :: ["after".toList])) =
      [⟨⟨.code, "\x60\x60\x60".toList, none⟩, 1,
          [.content 2 "code".toList, .content 3 "\x60\x60\x60\x60".toList,
            .content 4 "after".toList]⟩,
        ⟨⟨.quote, "\x60\x60\x60\x60".toList, none⟩, 0, []⟩] := by decide +kernel
  refine client.outside ["after".toList] [] rfl ?_
  rw [handlers]
  exact ⟨_, List.mem_cons_of_mem _ (List.mem_singleton_self _), rfl, rfl⟩

end Zulip.Markdown.Fenced
