import Zulip.Tools.Validation

/-!
# Well nested templates

What `validate` accepts, as properties of a forest of blocks, with no matchers and no state.
-/

namespace Zulip.Tools

open Zulip.Markdown.Fenced (isSpacePython)

/-- What may follow indentation and other spaces. -/
structure SpacesFit (token nextToken : Token) : Prop where
  indent : token.kind = .indent → nextToken.kind ≠ .indent ∧ nextToken.kind ≠ .whitespace ∧
    nextToken.kind ≠ .newline ∧ token.s.length % 4 = 0
  whitespace : token.kind = .whitespace → token.s.length ≤ 1 ∧ nextToken.kind ≠ .newline

/-- The white space of a template is as it should be: it has none at its beginning, no four line
breaks in a row, and every other space fits what follows it. -/
structure CleanSpaces (tokens : List Token) : Prop where
  beginning : ∃ first rest, tokens = first :: rest ∧ first.kind ≠ .indent ∧ first.kind ≠ .whitespace
  newlines : ¬ List.replicate 4 Kind.newline <:+: tokens.map (·.kind)
  spaces : tokens.tail.IsChain SpacesFit

/-- Outside of foreign elements exactly the void tags close themselves. -/
def SingletonFits (foreign : Bool) (token : Token) : Prop :=
  foreign = false →
    (token.kind = .htmlStart → isOneOf htmlVoidTags token.tag = false) ∧
      (token.kind = .htmlSingleton → isOneOf htmlVoidTags token.tag = true)

/-- A token may end or divide the block of a start token. -/
def Ends (startToken endToken : Token) : Prop :=
  ¬ (startToken.bareTag = "code".toList ∧ endToken.line = startToken.line + 1) ∧
    if endToken.isElse then isOneOf ["if", "else", "unless"] startToken.bareTag = true
    else startToken.bareTag = endToken.bareTag

/-- Every block of the forest is begun by a start token and ended by a token of the same tag, and
every other token stands for itself or is an else of the block around it. -/
def WellNested : Option Token → Bool → Forest Token → Prop
  | _, _, .nil => True
  | enclosing, foreign, .leaf token rest =>
      SingletonFits foreign token ∧
        (tagFlavor token = none ∨ tagFlavor token = some .end ∧ token.isElse = true ∧
          ∃ startToken ∈ enclosing, Ends startToken token) ∧
        WellNested enclosing foreign rest
  | enclosing, foreign, .block opening body closing rest =>
      SingletonFits foreign opening ∧ tagFlavor opening = some .start ∧
        WellNested (some opening) (foreign || opening.isForeign) body ∧
        tagFlavor closing = some .end ∧ closing.isElse = false ∧ Ends opening closing ∧
        WellNested enclosing foreign rest

/-- The links of a forest whose first token has an index, in a block. -/
def linksOf : Option (ℕ × Token) → ℕ → Forest Token → List Link
  | _, _, .nil => []
  | enclosing, index, .leaf token rest =>
      (if tagFlavor token = some .end then
        enclosing.toList.map fun start => ⟨index, token, start.1, start.2⟩ else []) ++
        linksOf enclosing (index + 1) rest
  | enclosing, index, .block opening body closing rest =>
      linksOf (some (index, opening)) (index + 1) body ++
        ⟨index + 1 + body.tokens.length, closing, index, opening⟩ ::
          linksOf enclosing (index + 1 + body.tokens.length + 1) rest

/-- A block of several lines ends in the column in which it begins, or, when its tag is an inline
one, does not end at the beginning of a line. -/
structure Aligned (lines : List Text) (startToken endToken : Token) : Prop where
  block : startToken.line + 1 < endToken.line → startToken.isInline = false →
    endToken.col = startToken.col
  inline : startToken.line + 1 < endToken.line → startToken.isInline = true →
    ∃ row, lines[endToken.line - 1]? = some row ∧
      (endToken.s <+: row.dropWhile isSpacePython → endToken.col = startToken.col)


variable {fn : Text} {lines : List Text} {tokens : List Token} {token nextToken : Token}
  {startToken endToken : Token} {links : List Link} {count : ℕ}

/-! ## White space -/

/-- A run of a symbol does not go on past another symbol. -/
theorem replicate_infix_iff {Symbol : Type} {symbol other : Symbol} {list : List Symbol}
    {length : ℕ} (few : count < length) (differs : other ≠ symbol) :
    List.replicate length symbol <:+: List.replicate count symbol ++ other :: list ↔
      List.replicate length symbol <:+: list := by
  induction count generalizing length with
  | zero =>
      rw [List.replicate_zero, List.nil_append, List.infix_cons_iff]
      refine or_iff_right fun isPrefix => differs ?_
      obtain ⟨length, rfl⟩ := Nat.exists_eq_add_of_lt few
      rw [Nat.zero_add, List.replicate_succ, List.cons_prefix_cons] at isPrefix
      exact isPrefix.1.symm
  | succ count inductionHypothesis =>
      rw [List.replicate_succ, List.cons_append, List.infix_cons_iff,
        inductionHypothesis (by omega)]
      refine or_iff_right fun isPrefix => differs ?_
      rw [← List.cons_append, ← List.replicate_succ] at isPrefix
      have place := isPrefix.getElem (i := count + 1) (by simpa using few)
      rw [List.getElem_replicate, List.getElem_append_right (by simp)] at place
      simpa using place.symm

theorem preventExtraNewlines_eq_ok_iff (few : count < 4) :
    preventExtraNewlines fn count tokens = .ok () ↔
      ¬ List.replicate 4 Kind.newline <:+:
        List.replicate count Kind.newline ++ tokens.map (·.kind) := by
  induction tokens generalizing count with
  | nil =>
      refine iff_of_true rfl fun isInfix => ?_
      have length := isInfix.length_le
      simp only [List.map_nil, List.append_nil, List.length_replicate] at length
      omega
  | cons token tokens inductionHypothesis =>
      rw [preventExtraNewlines, List.map_cons]
      split_ifs with other many
      · rw [replicate_infix_iff few other, inductionHypothesis (by omega)]
        rfl
      · refine iff_of_false (by simp) (not_not.mpr ?_)
        obtain rfl : count = 3 := by omega
        rw [not_not.mp other]
        exact ⟨[], tokens.map (·.kind), rfl⟩
      · rw [inductionHypothesis (by omega), not_not.mp other,
          @List.replicate_succ' count _ Kind.newline, List.append_assoc]
        rfl

theorem checkSpaces_eq_ok_iff : checkSpaces fn token nextToken = .ok () ↔
    SpacesFit token nextToken := by
  rw [checkSpaces]
  constructor
  · intro passes
    split_ifs at passes with isIndent badNext newline odd isWhitespace wide newline
    · rw [not_or] at badNext
      refine ⟨fun _ => ⟨badNext.1, badNext.2, newline, not_not.mp odd⟩, fun isWhitespace => ?_⟩
      cases isIndent.symm.trans isWhitespace
    · exact ⟨fun isIndent' => absurd isIndent' isIndent, fun _ => ⟨by omega, newline⟩⟩
    · exact ⟨fun isIndent' => absurd isIndent' isIndent, fun isSpace => absurd isSpace isWhitespace⟩
  · intro fits
    split_ifs with isIndent badNext newline odd isWhitespace wide newline
    · obtain ⟨notIndent, notWhitespace, -⟩ := fits.indent isIndent
      exact absurd badNext (not_or.mpr ⟨notIndent, notWhitespace⟩)
    · exact absurd newline (fits.indent isIndent).2.2.1
    · exact absurd (fits.indent isIndent).2.2.2 odd
    · rfl
    · exact absurd (fits.whitespace isWhitespace).1 (by omega)
    · exact absurd newline (fits.whitespace isWhitespace).2
    · rfl
    · rfl

/-- Two checks pass exactly when both do. -/
theorem bind_eq_ok_unit_iff {check next : Except PyError Unit} :
    (check.bind fun _ => next) = .ok () ↔ check = .ok () ∧ next = .ok () := by
  cases check with
  | error error =>
      refine iff_of_false (fun passes => ?_) fun both => ?_
      · cases passes
      · cases both.1
  | ok _ => exact (and_iff_right rfl).symm

theorem checkAllSpaces_eq_ok_iff : checkAllSpaces fn tokens = .ok () ↔
    tokens.IsChain SpacesFit := by
  induction tokens with
  | nil => exact iff_of_true rfl .nil
  | cons token tokens inductionHypothesis =>
      cases tokens with
      | nil => exact iff_of_true rfl (.singleton _)
      | cons nextToken tokens =>
          rw [checkAllSpaces, bind_eq_ok_unit_iff, checkSpaces_eq_ok_iff, inductionHypothesis,
            List.isChain_cons_cons]

theorem preventWhitespaceViolations_eq_ok_iff :
    preventWhitespaceViolations fn tokens = .ok () ↔ CleanSpaces tokens := by
  cases tokens with
  | nil =>
      refine iff_of_false (by intro passes; cases passes) fun clean => ?_
      obtain ⟨first, rest, absurd, -⟩ := clean.beginning
      cases absurd
  | cons first tokens =>
      rw [preventWhitespaceViolations]
      split_ifs with blank
      · refine iff_of_false (by intro passes; cases passes) fun clean => ?_
        obtain ⟨first', rest, same, notIndent, notWhitespace⟩ := clean.beginning
        obtain ⟨rfl, rfl⟩ := List.cons.inj same
        exact not_or.mpr ⟨notIndent, notWhitespace⟩ blank
      · rw [bind_eq_ok_unit_iff, preventExtraNewlines_eq_ok_iff (by omega),
          checkAllSpaces_eq_ok_iff]
        rw [not_or] at blank
        exact ⟨fun passes => ⟨⟨first, tokens, rfl, blank⟩, passes.1, passes.2⟩,
          fun clean => ⟨clean.newlines, clean.spaces⟩⟩

/-! ## Tags -/

theorem checkSingleton_eq_ok_iff {foreign : Bool} :
    checkSingleton fn foreign token = .ok () ↔ SingletonFits foreign token := by
  rw [checkSingleton, SingletonFits]
  cases foreign with
  | true => exact iff_of_true rfl (by intro absurd; cases absurd)
  | false =>
      rw [if_neg Bool.false_ne_true]
      split_ifs with voidStart otherSingleton
      · refine iff_of_false (by intro passes; cases passes) fun fits => ?_
        have notVoid := (fits rfl).1 voidStart.1
        rw [notVoid] at voidStart
        cases voidStart.2
      · refine iff_of_false (by intro passes; cases passes) fun fits => ?_
        exact otherSingleton.2 ((fits rfl).2 otherSingleton.1)
      · refine iff_of_true rfl fun _ => ⟨fun isStart => ?_, fun isSingleton => ?_⟩
        · exact Bool.eq_false_iff.mpr fun isVoid => voidStart ⟨isStart, isVoid⟩
        · exact not_not.mp fun notVoid => otherSingleton ⟨isSingleton, notVoid⟩

theorem reportProblem_eq_none_iff : reportProblem startToken endToken = none ↔
    Ends startToken endToken := by
  rw [reportProblem, Ends]
  by_cases split : startToken.bareTag = "code".toList ∧ endToken.line = startToken.line + 1
  · rw [if_pos split]
    exact iff_of_false (Option.some_ne_none _) fun ends => ends.1 split
  · rw [if_neg split]
    cases endToken.isElse with
    | true =>
        rw [if_pos rfl, if_pos rfl]
        by_cases divides : isOneOf ["if", "else", "unless"] startToken.bareTag = true
        · rw [if_neg (not_not.mpr divides)]
          exact iff_of_true rfl ⟨split, divides⟩
        · rw [if_pos divides]
          exact iff_of_false (Option.some_ne_none _) fun ends => divides ends.2
    | false =>
        rw [if_neg Bool.false_ne_true, if_neg Bool.false_ne_true]
        by_cases same : startToken.bareTag = endToken.bareTag
        · rw [if_neg (not_not.mpr same)]
          exact iff_of_true rfl ⟨split, same⟩
        · rw [if_pos same]
          exact iff_of_false (Option.some_ne_none _) fun ends => same ends.2

/-! ## The loop -/

/-- The block around a token. -/
structure Enclosing where
  startToken : Token
  foreign : Bool

/-- What a token does in the block around it, if it is not refused. -/
def readTag (fn : Text) (enclosing : Option Enclosing) (token : Token) :
    Option (Reading Enclosing) :=
  match checkSingleton fn (enclosing.any (·.foreign)) token, tagFlavor token with
  | .error _, _ => none
  | .ok _, none => some .content
  | .ok _, some .start =>
      some (.opens ⟨token, enclosing.any (·.foreign) || token.isForeign⟩)
  | .ok _, some .end =>
      match enclosing.map fun block => reportProblem block.startToken token with
      | some none => some (if token.isElse then .content else .closes)
      | _ => none

namespace ValidationState

/-- The blocks of the matchers. -/
def blocks (foreign : Bool) : List Matcher → List Enclosing
  | [] => []
  | matcher :: matchers => ⟨matcher.startToken, foreign⟩ :: blocks matcher.oldForeign matchers

/-- Outside of all blocks nothing is foreign. -/
def Grounded (foreign : Bool) : List Matcher → Prop
  | [] => foreign = false
  | matcher :: matchers => Grounded matcher.oldForeign matchers

theorem foreign_blocks {foreign : Bool} {matchers : List Matcher}
    (grounded : Grounded foreign matchers) :
    (blocks foreign matchers).head?.any (·.foreign) = foreign := by
  cases matchers with
  | nil => exact grounded.symm
  | cons matcher matchers => rfl

/-- A turn of the loop that raises no error reads the token. -/
theorem readStack_of_step {state next : ValidationState} {entry : Token × ℕ}
    (grounded : Grounded state.foreign state.matchers) (step_ : state.step fn entry = .ok next) :
    Grounded next.foreign next.matchers ∧
      Forest.readStack (readTag fn) (blocks state.foreign state.matchers) entry.1 =
        some (blocks next.foreign next.matchers) := by
  rw [step] at step_
  rw [Forest.readStack, readTag, foreign_blocks grounded]
  cases singleton : checkSingleton fn state.foreign entry.1 with
  | error error =>
      rw [singleton] at step_
      cases step_
  | ok passed =>
      rw [singleton] at step_
      change state.matchTag fn entry.2 entry.1 = .ok next at step_
      rw [matchTag] at step_
      cases flavor : tagFlavor entry.1 with
      | none =>
          rw [flavor] at step_
          obtain rfl := Except.ok.inj step_
          exact ⟨grounded, rfl⟩
      | some flavor' =>
          rw [flavor] at step_
          cases flavor' with
          | start =>
              obtain rfl := Except.ok.inj step_
              exact ⟨grounded, rfl⟩
          | «end» =>
              dsimp only at step_
              rw [callMatcher] at step_
              cases isMatchers : state.matchers with
              | nil =>
                  rw [isMatchers] at step_
                  cases step_
              | cons matcher matchers =>
                  rw [isMatchers] at step_ grounded
                  dsimp only at step_
                  rw [blocks, List.head?_cons, Option.map_some]
                  cases problem : reportProblem matcher.startToken entry.1 with
                  | some message =>
                      rw [problem] at step_
                      cases step_
                  | none =>
                      rw [problem] at step_
                      obtain rfl := Except.ok.inj step_
                      cases entry.1.isElse with
                      | true => exact ⟨grounded, rfl⟩
                      | false => exact ⟨grounded, rfl⟩

end ValidationState

namespace ValidationState

variable {state final : ValidationState} {index : ℕ} {matcher : Matcher} {matchers : List Matcher}

/-- The loop reads the tokens. -/
theorem foldlM_readStack_of_run {entries : List (Token × ℕ)}
    (grounded : Grounded state.foreign state.matchers)
    (run : entries.foldlM (step fn) state = .ok final) :
    (entries.map Prod.fst).foldlM (Forest.readStack (readTag fn))
      (blocks state.foreign state.matchers) = some (blocks final.foreign final.matchers) := by
  induction entries generalizing state with
  | nil =>
      obtain rfl := Except.ok.inj run
      rfl
  | cons entry entries inductionHypothesis =>
      rw [List.foldlM_cons] at run
      cases stepped : state.step fn entry with
      | error error =>
          rw [stepped] at run
          cases run
      | ok next =>
          rw [stepped] at run
          obtain ⟨nextGrounded, reads⟩ := readStack_of_step grounded stepped
          rw [List.map_cons, List.foldlM_cons, reads]
          exact inductionHypothesis nextGrounded run

/-- A turn is the matching of the token when it fits. -/
theorem step_of_fits (fits : SingletonFits state.foreign token) :
    state.step fn (token, index) = state.matchTag fn index token := by
  rw [step, checkSingleton_eq_ok_iff.mpr fits]
  rfl

/-- A token that may end the block is linked to its start. -/
theorem matchTag_of_ends (isEnd : tagFlavor token = some .end)
    (around : state.matchers = matcher :: matchers) (ends : Ends matcher.startToken token) :
    state.matchTag fn index token = .ok
      { matchers := if token.isElse then state.matchers else matchers
        foreign := if token.isElse then state.foreign else matcher.oldForeign
        links := state.links ++ [⟨index, token, matcher.startIndex, matcher.startToken⟩] } := by
  rw [matchTag, isEnd]
  dsimp only
  rw [callMatcher, around]
  dsimp only
  rw [reportProblem_eq_none_iff.mpr ends]
  cases token.isElse <;> rfl

/-- The loop links the tokens of a forest and leaves the matchers as they were. -/
theorem run_of_wellNested {forest : Forest Token} {enclosing : Option (ℕ × Token)}
    (nested : WellNested (enclosing.map Prod.snd) state.foreign forest)
    (around : state.matchers.head?.map (fun matcher => (matcher.startIndex, matcher.startToken)) =
      enclosing) :
    (forest.tokens.zipIdx index).foldlM (step fn) state =
      .ok { state with links := state.links ++ linksOf enclosing index forest } := by
  induction forest generalizing state index enclosing with
  | nil =>
      rw [linksOf, List.append_nil]
      rfl
  | leaf token rest inductionHypothesis =>
      obtain ⟨fits, stands, nested⟩ := nested
      rw [Forest.tokens, List.zipIdx_cons, List.foldlM_cons, step_of_fits fits, linksOf]
      rcases stands with isPlain | ⟨isEnd, isElse, startToken, isAround, ends⟩
      · rw [matchTag, isPlain, if_neg (by simp)]
        exact inductionHypothesis nested around
      · subst around
        obtain ⟨start, isStart, isToken⟩ := Option.map_eq_some_iff.mp isAround
        obtain ⟨matcher, isMatcher, isSame⟩ := Option.map_eq_some_iff.mp isStart
        obtain ⟨matchers, isMatchers⟩ := List.head?_eq_some_iff.mp isMatcher
        subst isSame isToken
        rw [matchTag_of_ends isEnd isMatchers ends, if_pos isElse, if_pos isElse, if_pos isEnd,
          isMatcher]
        have rest := @inductionHypothesis
          { state with links := state.links ++ [⟨index, token, matcher.startIndex, matcher.startToken⟩] }
          (index + 1) _ nested rfl
        rw [isMatcher, List.append_assoc] at rest
        exact rest
  | block opening body closing rest insideHypothesis restHypothesis =>
      obtain ⟨fits, isStart, inside, isEnd, notElse, ends, nested⟩ := nested
      have closingFits : SingletonFits (state.foreign || opening.isForeign) closing := by
        refine fun _ => ⟨fun isKind => ?_, fun isKind => ?_⟩
        · rw [tagFlavor, isKind] at isEnd
          cases isEnd
        · rw [tagFlavor, isKind] at isEnd
          cases isEnd
      rw [Forest.tokens, List.zipIdx_cons, List.foldlM_cons, step_of_fits fits, matchTag, isStart,
        linksOf]
      change ((body.tokens ++ closing :: rest.tokens).zipIdx (index + 1)).foldlM (step fn)
        (state.startTagMatcher index opening) = _
      rw [List.zipIdx_append, List.foldlM_append,
        @insideHypothesis (state.startTagMatcher index opening) (index + 1)
          (some (index, opening)) inside rfl, List.zipIdx_cons]
      set inner := linksOf (some (index, opening)) (index + 1) body
      have closes := @matchTag_of_ends fn closing
        { state.startTagMatcher index opening with links := state.links ++ inner }
        (index + 1 + body.tokens.length) ⟨index, opening, state.foreign⟩ state.matchers isEnd rfl ends
      have rest := @restHypothesis
        { state with links := state.links ++ inner ++
            [⟨index + 1 + body.tokens.length, closing, index, opening⟩] }
        (index + 1 + body.tokens.length + 1) enclosing nested around
      rw [← step_of_fits closingFits, notElse] at closes
      change ((closing, index + 1 + body.tokens.length) :: _).foldlM (step fn)
        { state.startTagMatcher index opening with links := state.links ++ inner } = _
      rw [List.foldlM_cons, closes, if_neg Bool.false_ne_true, if_neg Bool.false_ne_true]
      refine rest.trans ?_
      simp only [List.append_assoc, List.singleton_append]

end ValidationState

/-! ## Forests -/

/-- What a token does in a block, in terms of the token. -/
theorem readTag_cases {enclosing : Option Enclosing} {reading : Reading Enclosing}
    (reads : readTag fn enclosing token = some reading) :
    SingletonFits (enclosing.any (·.foreign)) token ∧
      ((reading = .content ∧ (tagFlavor token = none ∨ tagFlavor token = some .end ∧
          token.isElse = true ∧ ∃ startToken ∈ enclosing.map (·.startToken), Ends startToken token)) ∨
        (reading = .opens ⟨token, enclosing.any (·.foreign) || token.isForeign⟩ ∧
          tagFlavor token = some .start) ∨
        (reading = .closes ∧ tagFlavor token = some .end ∧ token.isElse = false ∧
          ∃ startToken ∈ enclosing.map (·.startToken), Ends startToken token)) := by
  rw [readTag] at reads
  cases singleton : checkSingleton fn (enclosing.any (·.foreign)) token with
  | error error =>
      rw [singleton] at reads
      cases reads
  | ok passed =>
      refine ⟨checkSingleton_eq_ok_iff.mp singleton, ?_⟩
      rw [singleton] at reads
      cases flavor : tagFlavor token with
      | none =>
          rw [flavor] at reads
          exact .inl ⟨(Option.some.inj reads).symm, .inl rfl⟩
      | some flavor' =>
          rw [flavor] at reads
          cases flavor' with
          | start => exact .inr (.inl ⟨(Option.some.inj reads).symm, rfl⟩)
          | «end» =>
              cases enclosing with
              | none => cases reads
              | some block =>
                  dsimp only [Option.map_some] at reads ⊢
                  cases problem : reportProblem block.startToken token with
                  | some message =>
                      rw [problem] at reads
                      cases reads
                  | none =>
                      rw [problem] at reads
                      have ends := reportProblem_eq_none_iff.mp problem
                      cases isElse : token.isElse with
                      | true =>
                          rw [isElse] at reads
                          exact .inl ⟨(Option.some.inj reads).symm, .inr ⟨rfl, rfl, _, rfl, ends⟩⟩
                      | false =>
                          rw [isElse] at reads
                          exact .inr (.inr ⟨(Option.some.inj reads).symm, rfl, rfl, _, rfl, ends⟩)

/-- A forest whose tokens do in their blocks what they do is well nested. -/
theorem wellNested_of_follows {forest : Forest Token} {enclosing : Option Enclosing}
    (follows : forest.Follows (readTag fn) enclosing) :
    WellNested (enclosing.map (·.startToken)) (enclosing.any (·.foreign)) forest := by
  induction forest generalizing enclosing with
  | nil => trivial
  | leaf token rest inductionHypothesis =>
      obtain ⟨isContent, follows⟩ := follows
      obtain ⟨fits, ⟨-, stands⟩ | ⟨absurd, -⟩ | ⟨absurd, -⟩⟩ := readTag_cases isContent
      · exact ⟨fits, stands, inductionHypothesis follows⟩
      · cases absurd
      · cases absurd
  | block opening body closing rest insideHypothesis restHypothesis =>
      obtain ⟨frame, isOpening, inside, isClosing, follows⟩ := follows
      obtain ⟨fits, ⟨absurd, -⟩ | ⟨isFrame, isStart⟩ | ⟨absurd, -⟩⟩ := readTag_cases isOpening
      · cases absurd
      · obtain rfl := Reading.opens.inj isFrame
        obtain ⟨-, ⟨absurd, -⟩ | ⟨absurd, -⟩ | ⟨-, isEnd, notElse, startToken, isAround, ends⟩⟩ :=
          readTag_cases isClosing
        · cases absurd
        · cases absurd
        · obtain rfl := Option.some.inj isAround
          exact ⟨fits, isStart, insideHypothesis inside, isEnd, notElse, ends, restHypothesis follows⟩
      · cases absurd

/-- The loop gives links without an error exactly when the tokens are a well nested forest. -/
theorem matchTags_eq_ok_iff : matchTags fn tokens = .ok links ↔
      ∃ forest : Forest Token, forest.tokens = tokens ∧ WellNested none false forest ∧
        links = linksOf none 0 forest := by
  rw [matchTags]
  constructor
  · intro accepts
    cases run : tokens.zipIdx.foldlM (ValidationState.step fn) .initial with
    | error error =>
        rw [run] at accepts
        cases accepts
    | ok final =>
        rw [run] at accepts
        change final.finish fn = .ok links at accepts
        have reads := @ValidationState.foldlM_readStack_of_run fn .initial _ _ rfl run
        rw [List.zipIdx_map_fst] at reads
        rw [ValidationState.finish] at accepts
        cases isMatchers : final.matchers with
        | cons matcher matchers =>
            rw [isMatchers] at accepts
            cases accepts
        | nil =>
            rw [isMatchers] at accepts reads
            obtain ⟨forest, follows, rfl⟩ := Forest.closes_of_foldlM reads
            have nested := wellNested_of_follows follows
            refine ⟨forest, rfl, nested, ?_⟩
            have forward := @ValidationState.run_of_wellNested fn .initial 0 forest none nested rfl
            rw [run] at forward
            obtain rfl := Except.ok.inj forward
            exact (Except.ok.inj accepts).symm
  · rintro ⟨forest, rfl, nested, rfl⟩
    rw [@ValidationState.run_of_wellNested fn .initial 0 forest none nested rfl]
    rfl

/-! ## Indentation -/

theorem hasBadIndentation_eq_ok_false_iff :
    hasBadIndentation lines startToken endToken = .ok false ↔ Aligned lines startToken endToken := by
  rw [hasBadIndentation]
  by_cases far : startToken.line + 1 < endToken.line
  · rw [if_pos far]
    cases isInline : startToken.isInline with
    | false =>
        rw [if_neg Bool.false_ne_true, Except.ok.injEq, decide_eq_false_iff_not, not_not]
        exact ⟨fun same => ⟨fun _ _ => same, fun _ absurd => by simp [isInline] at absurd⟩,
          fun aligned => aligned.block far isInline⟩
    | true =>
        rw [if_pos rfl]
        cases isRow : lines[endToken.line - 1]? with
        | none =>
            refine iff_of_false (fun absurd => by cases absurd) fun aligned => ?_
            obtain ⟨row, isSome, -⟩ := aligned.inline far isInline
            cases isRow.symm.trans isSome
        | some row =>
            dsimp only
            rw [Except.ok.injEq, Bool.and_eq_false_iff, decide_eq_false_iff_not, not_not]
            constructor
            · refine fun fits => ⟨fun _ absurd => by simp [isInline] at absurd, fun _ _ =>
                ⟨row, isRow, fun begins => fits.resolve_left ?_⟩⟩
              rw [List.isPrefixOf_iff_prefix.mpr begins]
              simp
            · intro aligned
              obtain ⟨row', isSome, fits⟩ := aligned.inline far isInline
              obtain rfl := Option.some.inj (isRow.symm.trans isSome)
              cases begins : endToken.s.isPrefixOf (row.dropWhile isSpacePython) with
              | false => exact .inl rfl
              | true => exact .inr (fits (List.isPrefixOf_iff_prefix.mp begins))
  · rw [if_neg far]
    exact iff_of_true rfl ⟨fun near => absurd near far, fun near => absurd near far⟩

theorem ensureMatchingIndentation_eq_ok_iff :
    ensureMatchingIndentation fn lines links = .ok () ↔
      ∀ link ∈ links, Aligned lines link.startToken link.endToken := by
  induction links with
  | nil => exact iff_of_true rfl fun link member => by cases member
  | cons link links inductionHypothesis =>
      rw [List.forall_mem_cons, ← hasBadIndentation_eq_ok_false_iff, ← inductionHypothesis,
        ensureMatchingIndentation]
      cases hasBadIndentation lines link.startToken link.endToken with
      | error error => exact iff_of_false (fun passes => by cases passes) fun both => by cases both.1
      | ok isBad =>
          cases isBad with
          | true => exact iff_of_false (fun passes => by cases passes) fun both => by cases both.1
          | false => exact (and_iff_right rfl).symm

/-! ## The whole -/

theorem validateTokens_eq_ok_iff : validateTokens fn lines tokens = .ok links ↔
    CleanSpaces tokens ∧ ∃ forest : Forest Token, forest.tokens = tokens ∧
      WellNested none false forest ∧ links = linksOf none 0 forest ∧
      ∀ link ∈ links, Aligned lines link.startToken link.endToken := by
  have matched : (∃ forest : Forest Token, forest.tokens = tokens ∧ WellNested none false forest ∧
      links = linksOf none 0 forest ∧ ∀ link ∈ links, Aligned lines link.startToken link.endToken) ↔
      matchTags fn tokens = .ok links ∧ ensureMatchingIndentation fn lines links = .ok () := by
    rw [matchTags_eq_ok_iff, ensureMatchingIndentation_eq_ok_iff]
    constructor
    · rintro ⟨forest, whole, nested, isLinks, aligned⟩
      exact ⟨⟨forest, whole, nested, isLinks⟩, aligned⟩
    · rintro ⟨⟨forest, whole, nested, isLinks⟩, aligned⟩
      exact ⟨forest, whole, nested, isLinks, aligned⟩
  rw [matched, ← @preventWhitespaceViolations_eq_ok_iff fn, validateTokens]
  cases preventWhitespaceViolations fn tokens with
  | error error => exact iff_of_false (fun passes => by cases passes) fun both => by cases both.1
  | ok _ =>
      rw [and_iff_right rfl]
      cases matchTags fn tokens with
      | error error => exact iff_of_false (fun passes => by cases passes) fun both => by cases both.1
      | ok found =>
          constructor
          · intro passes
            change (ensureMatchingIndentation fn lines found).map _ = _ at passes
            cases indented : ensureMatchingIndentation fn lines found with
            | error error =>
                rw [indented] at passes
                cases passes
            | ok _ =>
                rw [indented] at passes
                obtain rfl := Except.ok.inj passes
                exact ⟨rfl, indented⟩
          · rintro ⟨same, indented⟩
            obtain rfl := Except.ok.inj same
            change (ensureMatchingIndentation fn lines found).map _ = _
            rw [indented]
            rfl

/-- A template is accepted exactly when its tokens are a well nested forest whose white space and
whose indentation are as they should be; its end and else tokens are then linked to the start tokens
of the blocks around them. -/
theorem validate_accepts_iff {fuel : ℕ} {fn : Option Text} {text : Text}
    {format : Option TemplateFormat} {tokens : List Token} {links : List Link} :
    validate fuel fn text format = some (.ok (tokens, links)) ↔
      ¬ (fn.getD [] = [] ∧ text = []) ∧ tokenize fuel text format = some (.ok tokens) ∧
        CleanSpaces tokens ∧ ∃ forest : Forest Token, forest.tokens = tokens ∧
          WellNested none false forest ∧ links = linksOf none 0 forest ∧
          ∀ link ∈ links, Aligned (text.splitOn '\n') link.startToken link.endToken := by
  rw [← @validateTokens_eq_ok_iff (shownName fn), validate]
  split_ifs with unnamed
  · exact iff_of_false (by simp) fun accepted => accepted.1 unnamed
  · rw [and_iff_right unnamed]
    cases tokenize fuel text format with
    | none => exact iff_of_false (by simp) (by simp)
    | some result =>
        rw [Option.map_some, Option.some.injEq, Option.some.injEq]
        cases result with
        | error error =>
            refine iff_of_false (fun passes => ?_) (by simp)
            cases error <;> cases passes
        | ok found =>
            dsimp only
            rw [Except.ok.injEq]
            constructor
            · intro passes
              cases validated : validateTokens (shownName fn) (text.splitOn '\n') found with
              | error error =>
                  rw [validated] at passes
                  cases passes
              | ok foundLinks =>
                  rw [validated] at passes
                  obtain ⟨rfl, rfl⟩ := Prod.mk.inj (Except.ok.inj passes)
                  exact ⟨rfl, validated⟩
            · rintro ⟨rfl, validated⟩
              rw [validated]
              rfl

end Zulip.Tools
