import Zulip.Tools.TokenizerBranches

/-!
# Whole runs of the tokenizer

`tokenizes_iff` says on which templates the tokenizer does what it is for: it ends, and either
reports an error of its own or returns tokens that are the text, each with its place. The tokens
follow the text as long as no branch slips; where one does, the run fails, never ends or returns
other tokens, unless an error is reported later.
-/

namespace Zulip.Tools

variable {text : Text} {format : Option TemplateFormat} {state next : TokenizerState}

/-! ## What the tokenizer is for -/

/-- The line of an offset, from one on. -/
def lineAt (text : Text) (offset : ℕ) : ℕ := (text.take offset).count '\n' + 1

/-- The column of an offset, from one on. -/
def colAt (text : Text) (offset : ℕ) : ℕ :=
  ((text.take offset).reverse.takeWhile (· ≠ '\n')).length + 1

/-- The strings of tokens in order. -/
def textOf (tokens : List Token) : Text := tokens.flatMap (·.s)

/-- The tokens have the line and the column of their first character. -/
def Placed (text : Text) (tokens : List Token) : Prop :=
  ∀ index token, tokens[index]? = some token →
    token.line = lineAt text (textOf (tokens.take index)).length ∧
      token.col = colAt text (textOf (tokens.take index)).length

/-- The tokens are the text, and each one has its place. -/
structure Lossless (text : Text) (tokens : List Token) : Prop where
  whole : textOf tokens = text
  placed : Placed text tokens

/-- The errors that the tokenizer is made to raise. -/
def PyError.IsParseError : PyError → Prop
  | .formatted _ | .templateParser _ => True
  | .tokenization _ _ | .assertion _ | .index => False

/-- `tokenize` ends, and either raises an error of its own or loses nothing. -/
def Tokenizes (text : Text) (format : Option TemplateFormat) : Prop :=
  ∃ fuel result, tokenize fuel text format = some result ∧
    match result with
    | .error error => error.IsParseError
    | .ok tokens => Lossless text tokens

/-- The states that `tokenize` reaches before the end of the text. -/
def Reached (text : Text) (format : Option TemplateFormat) (state : TokenizerState) : Prop :=
  Visited (isUnfinished text) (tokenizeStep format text) .initial state ∧ state.i < text.length

/-- The branch that is taken in a state. -/
def TokenizerState.branch (text : Text) (format : Option TemplateFormat) (state : TokenizerState) :
    Branch :=
  Branch.choose format text state.i state.inCodeBlock

/-! ## Advancing -/

@[simp] theorem advance_i (n : ℕ) (state : TokenizerState) :
    (advance text n state).i = state.i + n := by
  induction n generalizing state with
  | zero => rfl
  | succ n inductionHypothesis =>
      rw [advance, inductionHypothesis]
      split_ifs <;> dsimp only <;> omega

@[simp] theorem advance_tokens (n : ℕ) (state : TokenizerState) :
    (advance text n state).tokens = state.tokens := by
  induction n generalizing state with
  | zero => rfl
  | succ n inductionHypothesis =>
      rw [advance, inductionHypothesis]
      split_ifs <;> rfl

/-- The place after a character. -/
theorem place_succ {i : ℕ} (inText : i < text.length) :
    (lineAt text (i + 1), colAt text (i + 1)) =
      if text[i]? = some '\n' then (lineAt text i + 1, 1)
      else (lineAt text i, colAt text i + 1) := by
  have next : text.take (i + 1) = text.take i ++ [text[i]] := by
    rw [List.take_add_one, List.getElem?_eq_getElem inText]
    rfl
  rw [lineAt, colAt, next, List.count_append, List.reverse_append, List.getElem?_eq_getElem inText]
  by_cases isNewline : text[i] = '\n'
  · simp [isNewline, lineAt]
  · simp [isNewline, lineAt, colAt]

/-- The place of a state is the place of its index. -/
def IsPlaced (text : Text) (state : TokenizerState) : Prop :=
  state.line = lineAt text state.i ∧ state.col = colAt text state.i

theorem isPlaced_advance {n : ℕ} (isPlaced : IsPlaced text state)
    (inText : state.i + n ≤ text.length) : IsPlaced text (advance text n state) := by
  induction n generalizing state with
  | zero => exact isPlaced
  | succ n inductionHypothesis =>
      rw [advance]
      have place := @place_succ text state.i (by omega)
      obtain ⟨isLine, isCol⟩ := isPlaced
      split_ifs at place ⊢ with isNewline
      · obtain ⟨line, col⟩ := Prod.mk.inj place
        exact inductionHypothesis ⟨by rw [isLine]; exact line.symm, col.symm⟩ (by dsimp only; omega)
      · obtain ⟨line, col⟩ := Prod.mk.inj place
        exact inductionHypothesis ⟨by rw [isLine]; exact line.symm, by rw [isCol]; exact col.symm⟩
          (by dsimp only; omega)

/-! ## One turn -/

/-- After a turn that reads something, the token is the last one and the state is past it. -/
theorem tokenizeStep_of_read {s tag : Text}
    (result : readToken text state.i (state.branch text format) = .ok (some (s, tag))) :
    ∃ next, tokenizeStep format text state = .ok next ∧
      next.tokens = state.tokens ++ [state.newToken (state.branch text format) s tag] ∧
      next.i = state.i + s.length ∧
      (IsPlaced text state → state.i + s.length ≤ text.length → IsPlaced text next) := by
  unfold TokenizerState.branch at result
  rw [tokenizeStep, result]
  exact ⟨_, rfl, advance_tokens .., advance_i .., fun isPlaced inText =>
    isPlaced_advance isPlaced inText⟩

theorem tokenizeStep_of_none
    (result : readToken text state.i (state.branch text format) = .ok none) :
    tokenizeStep format text state = .ok { state with inCodeBlock := false } := by
  unfold TokenizerState.branch at result
  rw [tokenizeStep, result]

theorem tokenizeStep_of_report {error : PyError}
    (fails : readToken text state.i (state.branch text format) = .error error)
    (isReport : error.IsReport) :
    ∃ error', tokenizeStep format text state = .error error' ∧ error'.IsParseError := by
  unfold TokenizerState.branch at fails
  rw [tokenizeStep, fails]
  cases error with
  | tokenization message content => exact ⟨_, rfl, trivial⟩
  | templateParser message => exact ⟨_, rfl, trivial⟩
  | formatted message => cases isReport
  | assertion message => cases isReport
  | index => cases isReport

theorem tokenizeStep_of_index
    (fails : readToken text state.i (state.branch text format) = .error .index) :
    tokenizeStep format text state = .error .index := by
  unfold TokenizerState.branch at fails
  rw [tokenizeStep, fails]

/-- A turn that succeeds has left the branch for code or text without a token, or has read one. -/
theorem tokenizeStep_cases (step : tokenizeStep format text state = .ok next) :
    next = { state with inCodeBlock := false } ∨
      ∃ s tag, readToken text state.i (state.branch text format) = .ok (some (s, tag)) := by
  cases isRead : readToken text state.i (state.branch text format) with
  | error error =>
      have fails : ∃ error', tokenizeStep format text state = .error error' := by
        unfold TokenizerState.branch at isRead
        rw [tokenizeStep, isRead]
        cases error <;> exact ⟨_, rfl⟩
      obtain ⟨error', fails⟩ := fails
      rw [fails] at step
      cases step
  | ok result =>
      cases result with
      | none =>
          rw [tokenizeStep_of_none isRead] at step
          exact .inl (Except.ok.inj step).symm
      | some pair => exact .inr ⟨pair.1, pair.2, rfl⟩

/-! ## What all runs keep -/

theorem textOf_append (first second : List Token) :
    textOf (first ++ second) = textOf first ++ textOf second :=
  List.flatMap_append

/-- A state is as far as its tokens are long, also where they are not the text. -/
def Counts (state : TokenizerState) : Prop := state.i = (textOf state.tokens).length

theorem counts_step (counts : Counts state) (step : tokenizeStep format text state = .ok next) :
    Counts next := by
  rcases tokenizeStep_cases step with rfl | ⟨s, tag, isRead⟩
  · exact counts
  · obtain ⟨next', step', isTokens, isIndex, -⟩ := tokenizeStep_of_read isRead
    obtain rfl := Except.ok.inj (step'.symm.trans step)
    rw [Counts, isTokens, isIndex, counts, textOf_append, List.length_append]
    simp [textOf, TokenizerState.newToken]

theorem counts_of_visited
    (visited : Visited (isUnfinished text) (tokenizeStep format text) .initial state) :
    Counts state := by
  induction visited with
  | start => rfl
  | next _ _ step counts => exact counts_step counts step

/-- Tokens are only added. -/
theorem tokens_isPrefix {start : TokenizerState}
    (visited : Visited (isUnfinished text) (tokenizeStep format text) start state) :
    start.tokens <+: state.tokens := by
  induction visited with
  | start => exact List.prefix_refl _
  | next _ _ step isPrefix =>
      rcases tokenizeStep_cases step with rfl | ⟨s, tag, isRead⟩
      · exact isPrefix
      · obtain ⟨next', step', isTokens, -⟩ := tokenizeStep_of_read isRead
        obtain rfl := Except.ok.inj (step'.symm.trans step)
        rw [isTokens]
        exact isPrefix.trans (List.prefix_append _ _)

/-! ## Runs on which no branch slips -/

/-- The tokens so far are the text so far. -/
structure Exact (text : Text) (state : TokenizerState) : Prop where
  inText : state.i ≤ text.length
  whole : textOf state.tokens = text.take state.i
  isPlaced : IsPlaced text state
  placed : Placed text state.tokens

theorem exact_initial : Exact text .initial where
  inText := Nat.zero_le _
  whole := rfl
  isPlaced := ⟨rfl, rfl⟩
  placed := fun index token isToken => by cases isToken

theorem Placed.append {tokens : List Token} {token : Token} (placed : Placed text tokens)
    (isLine : token.line = lineAt text (textOf tokens).length)
    (isCol : token.col = colAt text (textOf tokens).length) :
    Placed text (tokens ++ [token]) := by
  intro index other isOther
  rcases lt_trichotomy index tokens.length with before | rfl | after
  · rw [List.getElem?_append_left before] at isOther
    rw [List.take_append_of_le_length before.le]
    exact placed index other isOther
  · rw [List.getElem?_concat_length, Option.some.injEq] at isOther
    subst isOther
    rw [List.take_left']
    · exact ⟨isLine, isCol⟩
    · rfl
  · have outside : (tokens ++ [token]).length ≤ index := by
      rw [List.length_append, List.length_singleton]
      omega
    rw [List.getElem?_eq_none outside] at isOther
    cases isOther

/-- Reading some of the text keeps the tokens exact. -/
theorem exact_read {s tag : Text} (exact_ : Exact text state)
    (isRead : readToken text state.i (state.branch text format) = .ok (some (s, tag)))
    (reads : Reads text state.i s) (step : tokenizeStep format text state = .ok next) :
    Exact text next := by
  obtain ⟨next', step', isTokens, isIndex, keepsPlace⟩ := tokenizeStep_of_read isRead
  obtain rfl := Except.ok.inj (step'.symm.trans step)
  have length := reads.2.length_le
  rw [List.length_drop] at length
  have inText := exact_.inText
  have isTake : text.take next'.i = text.take state.i ++ s := by
    rw [isIndex, List.take_add, ← List.prefix_iff_eq_take.mp reads.2]
  have isOffset : (textOf state.tokens).length = state.i := by
    rw [exact_.whole, List.length_take_of_le inText]
  refine ⟨by omega, ?_, keepsPlace exact_.isPlaced (by omega), ?_⟩
  · rw [isTokens, isTake, textOf_append, exact_.whole]
    simp [textOf, TokenizerState.newToken]
  · rw [isTokens]
    refine exact_.placed.append ?_ ?_ <;> rw [isOffset]
    · exact exact_.isPlaced.1
    · exact exact_.isPlaced.2

/-- Without a slip a turn is exact: it reports an error, or it makes progress and keeps the tokens
exact. -/
theorem exact_step (exact_ : Exact text state) (inText : state.i < text.length)
    (clean : ¬ (state.branch text format).Slips text state.i) :
    (∃ error, tokenizeStep format text state = .error error ∧ error.IsParseError) ∨
      ∃ next, tokenizeStep format text state = .ok next ∧ Exact text next ∧
        (state.i < next.i ∨ (next.i = state.i ∧ state.inCodeBlock = true ∧
          next.inCodeBlock = false)) := by
  cases @readToken_outcome text state.i _ format _ inText rfl with
  | pastEnd slips => exact absurd slips clean
  | trimmed slips => exact absurd slips clean
  | reported _ _ error fails isReport => exact .inl (tokenizeStep_of_report fails isReport)
  | leftCode _ isCode result =>
      have inCode : state.inCodeBlock = true := by
        by_contra outside
        rw [Bool.not_eq_true] at outside
        replace isCode : Branch.choose format text state.i state.inCodeBlock = .code := isCode
        rw [outside] at isCode
        cases Branch.isAhead_of_choose isCode
      exact .inr ⟨_, tokenizeStep_of_none result,
        ⟨exact_.inText, exact_.whole, exact_.isPlaced, exact_.placed⟩, .inr ⟨rfl, inCode, rfl⟩⟩
  | read _ s tag result reads =>
      obtain ⟨next, step, -, isIndex, -⟩ := tokenizeStep_of_read result
      have notEmpty := List.length_pos_iff.mpr reads.1
      exact .inr ⟨next, step, exact_read exact_ result reads step, .inl (by omega)⟩

/-! ## Runs on which a branch slips -/

/-- The loop ends from a state. -/
abbrev EndsFrom (text : Text) (format : Option TemplateFormat) (state : TokenizerState)
    (result : Except PyError TokenizerState) : Prop :=
  Ends (isUnfinished text) (tokenizeStep format text) state result

theorem isUnfinished_of_lt (inText : state.i < text.length) : isUnfinished text state = true :=
  decide_eq_true inText

/-- No branch slips on the way to tokens that are the text. -/
theorem not_slips_of_whole {final : TokenizerState} (counts : Counts state)
    (inText : state.i < text.length) (ends : EndsFrom text format state (.ok final))
    (whole : textOf final.tokens = text) :
    ¬ (state.branch text format).Slips text state.i := by
  have continues := isUnfinished_of_lt inText
  intro slips
  cases @readToken_outcome text state.i _ format _ inText rfl with
  | pastEnd _ fails =>
      have fails := ends_of_error continues (tokenizeStep_of_index fails)
      cases ends.unique fails
  | trimmed _ isText result =>
      rcases result with result | ⟨s, tag, result, notPrefix⟩
      · -- The next turn would start where this one did, for ever.
        have outside : state.inCodeBlock = false := by
          by_contra inCode
          rw [Bool.not_eq_false] at inCode
          replace isText : Branch.choose format text state.i state.inCodeBlock = .text := isText
          rw [inCode] at isText
          cases isText
        have step := tokenizeStep_of_none result
        rw [← outside] at step
        exact not_ends_of_unchanged continues step ends
      · -- The token that is added is not what follows in the text.
        obtain ⟨next, step, isTokens, -⟩ := tokenizeStep_of_read result
        have later := (ends_iff_of_step continues step).mp ends
        obtain ⟨last, visited, isLast⟩ := later.cases
        rcases isLast with ⟨-, isFinal⟩ | ⟨error, -, -, isError⟩
        · obtain rfl := Except.ok.inj isFinal
          obtain ⟨rest, isRest⟩ := tokens_isPrefix visited
          apply notPrefix
          rw [isTokens] at isRest
          have follows : text = textOf state.tokens ++ (s ++ textOf rest) := by
            rw [← whole, ← isRest, textOf_append, textOf_append, List.append_assoc]
            simp [textOf, TokenizerState.newToken]
          rw [follows, counts, List.drop_left']
          · exact List.prefix_append _ _
          · rfl
        · cases isError
  | reported clean => exact clean slips
  | leftCode clean => exact clean slips
  | read clean => exact clean slips

/-- Where a branch reports an error, the turn raises it. -/
theorem raises_of_reports (reports : (state.branch text format).Reports text state.i) :
    ∃ error, tokenizeStep format text state = .error error ∧ error.IsParseError := by
  rcases reports with ⟨message, content, fails⟩ | ⟨isStart, s, isRead, missesName⟩
  · exact tokenizeStep_of_report (readToken_of_error fails) trivial
  · have fails := readToken_of_missesName isRead missesName
    rw [← isStart] at fails
    exact tokenizeStep_of_report fails trivial

/-- A turn that raises an error of the tokenizer has one to report. -/
theorem reports_of_raises {error : PyError} (inText : state.i < text.length)
    (fails : tokenizeStep format text state = .error error) (isOwn : error.IsParseError) :
    (state.branch text format).Reports text state.i := by
  cases @readToken_outcome text state.i _ format _ inText rfl with
  | pastEnd _ pastEnd =>
      obtain rfl := Except.error.inj ((tokenizeStep_of_index pastEnd).symm.trans fails)
      cases isOwn
  | trimmed _ _ result =>
      rcases result with result | ⟨s, tag, result, -⟩
      · cases (tokenizeStep_of_none result).symm.trans fails
      · obtain ⟨next, step, -⟩ := tokenizeStep_of_read result
        cases step.symm.trans fails
  | reported _ reports => exact reports
  | leftCode _ _ result => cases (tokenizeStep_of_none result).symm.trans fails
  | read _ s tag result =>
      obtain ⟨next, step, -⟩ := tokenizeStep_of_read result
      cases step.symm.trans fails

/-- `tokenize` ends as its loop does. -/
theorem tokenizes_iff_ends : Tokenizes text format ↔
    (∃ error, EndsFrom text format .initial (.error error) ∧ error.IsParseError) ∨
      ∃ final, EndsFrom text format .initial (.ok final) ∧ Lossless text final.tokens := by
  constructor
  · rintro ⟨fuel, result, isResult, right⟩
    obtain ⟨loopResult, ends, rfl⟩ := Option.map_eq_some_iff.mp isResult
    cases loopResult with
    | error error => exact .inl ⟨error, ⟨fuel, ends⟩, right⟩
    | ok final => exact .inr ⟨final, ⟨fuel, ends⟩, right⟩
  · rintro (⟨error, ⟨fuel, ends⟩, isOwn⟩ | ⟨final, ⟨fuel, ends⟩, lossless⟩)
    · exact ⟨fuel, .error error, Option.map_eq_some_iff.mpr ⟨_, ends, rfl⟩, isOwn⟩
    · exact ⟨fuel, .ok final.tokens, Option.map_eq_some_iff.mpr ⟨_, ends, rfl⟩, lossless⟩

/-- When no branch slips, the loop ends as it should. -/
theorem tokenizes_of_clean
    (clean : ∀ state, Reached text format state →
      ¬ (state.branch text format).Slips text state.i) : Tokenizes text format := by
  have exact_ : ∀ state, Visited (isUnfinished text) (tokenizeStep format text) .initial state →
      Exact text state := by
    intro state visited
    induction visited with
    | start => exact exact_initial
    | @next state next visited continues step inductionHypothesis =>
        have inText : state.i < text.length := of_decide_eq_true continues
        rcases exact_step inductionHypothesis inText (clean state ⟨visited, inText⟩) with
          ⟨error, fails, -⟩ | ⟨next', step', isExact, -⟩
        · rw [fails] at step
          cases step
        · obtain rfl := Except.ok.inj (step'.symm.trans step)
          exact isExact
  obtain ⟨result, ends⟩ := @exists_ends _ _ (isUnfinished text) (tokenizeStep format text) .initial
    (fun state => 2 * (text.length - state.i) + state.inCodeBlock.toNat)
    (fun state next visited continues step => by
      have inText : state.i < text.length := of_decide_eq_true continues
      rcases exact_step (exact_ state visited) inText (clean state ⟨visited, inText⟩) with
        ⟨error, fails, -⟩ | ⟨next', step', -, progress⟩
      · rw [fails] at step
        cases step
      · obtain rfl := Except.ok.inj (step'.symm.trans step)
        rcases progress with further | ⟨same, inCode, outside⟩
        · have := Bool.toNat_le next'.inCodeBlock
          omega
        · rw [same, inCode, outside]
          exact Nat.lt_succ_self _)
  rw [tokenizes_iff_ends]
  obtain ⟨state, visited, isLast⟩ := ends.cases
  rcases isLast with ⟨finished, rfl⟩ | ⟨error, continues, fails, rfl⟩
  · have isExact := exact_ state visited
    have atEnd : text.length ≤ state.i := not_lt.mp (of_decide_eq_false finished)
    have whole := isExact.whole
    rw [List.take_of_length_le atEnd] at whole
    exact .inr ⟨state, ends, whole, isExact.placed⟩
  · have inText : state.i < text.length := of_decide_eq_true continues
    rcases exact_step (exact_ state visited) inText (clean state ⟨visited, inText⟩) with
      ⟨error', fails', isOwn⟩ | ⟨next, step, -⟩
    · obtain rfl := Except.error.inj (fails'.symm.trans fails)
      exact .inl ⟨error', ends, isOwn⟩
    · rw [step] at fails
      cases fails

/-- The tokenizer ends and loses nothing, or raises an error of its own, exactly when some branch
that it takes reports an error or none slips. -/
theorem tokenizes_iff (text : Text) (format : Option TemplateFormat) :
    Tokenizes text format ↔
      (∃ state, Reached text format state ∧ (state.branch text format).Reports text state.i) ∨
        ∀ state, Reached text format state →
          ¬ (state.branch text format).Slips text state.i := by
  constructor
  · intro tokenizes
    rcases tokenizes_iff_ends.mp tokenizes with ⟨error, ends, isOwn⟩ | ⟨final, ends, lossless⟩
    · obtain ⟨state, visited, isLast⟩ := ends.cases
      rcases isLast with ⟨-, isFinal⟩ | ⟨error', continues, fails, isError⟩
      · cases isFinal
      · obtain rfl := Except.error.inj isError
        have inText : state.i < text.length := of_decide_eq_true continues
        exact .inl ⟨state, ⟨visited, inText⟩, reports_of_raises inText fails isOwn⟩
    · refine .inr fun state ⟨visited, inText⟩ => ?_
      have later := visited.ends_iff.mp ends
      exact not_slips_of_whole (counts_of_visited visited) inText later lossless.whole
  · rintro (⟨state, ⟨visited, inText⟩, reports⟩ | clean)
    · obtain ⟨error, fails, isOwn⟩ := raises_of_reports reports
      have ends := ends_of_error (isUnfinished_of_lt inText) fails
      exact tokenizes_iff_ends.mpr (.inl ⟨error, visited.ends_iff.mpr ends, isOwn⟩)
    · exact tokenizes_of_clean clean

/-- A tag that is not closed at the end of the text makes the scanner look past it, and a tab alone
is stripped to nothing over and over. -/
theorem unclosed_and_tab_not_tokenizes :
    ¬ Tokenizes ['{', '{', '#', '}'] none ∧ ¬ Tokenizes ['\t'] none := by
  constructor
  · intro tokenizes
    have past : EndsFrom ['{', '{', '#', '}'] none .initial (.error .index) :=
      ⟨1, by decide +kernel⟩
    rcases tokenizes_iff_ends.mp tokenizes with ⟨error, ends, isOwn⟩ | ⟨final, ends, -⟩
    · obtain rfl := Except.error.inj (past.unique ends)
      exact isOwn
    · cases past.unique ends
  · intro tokenizes
    have unchanged : tokenizeStep none ['\t'] .initial = .ok .initial := rfl
    rcases tokenizes_iff_ends.mp tokenizes with ⟨error, ends, -⟩ | ⟨final, ends, -⟩
    · exact not_ends_of_unchanged rfl unchanged ends
    · exact not_ends_of_unchanged rfl unchanged ends

end Zulip.Tools
