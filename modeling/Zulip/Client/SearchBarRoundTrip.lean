import Zulip.Client.SearchBarTokens
import Zulip.Foundation.Program

/-!
# The search bar, round trip

What the parser reads in the text of a list of terms. The text of a term is one token as long as
its operand holds no white space beside plain blanks and is not empty, or ends the text; the
decoder then finds the operand. The text of a search term is read word by word. Whatever else is
read, the reader is ahead of the terms that follow, and the list never comes back.
-/

namespace Zulip.Client.SearchBar

open Zulip.Foundation
open Zulip.Client.NarrowUrl (Text CaseFolding NarrowTerm smallLetters)

/-! ## Terms of a list of tokens -/

section Parser

variable (folding : CaseFolding)

/-- The terms of a list of tokens, from the given state on. -/
def parseTokens (state : ParseState) (tokenList : List Text) : List NarrowTerm :=
  (tokenList.foldl (parseToken folding) state).maybeAddSearchTerms.terms

/-- Terms that are there already stay in front. -/
def ParseState.after (terms : List NarrowTerm) (state : ParseState) : ParseState :=
  { state with terms := terms ++ state.terms }

theorem maybeAddSearchTerms_after (terms : List NarrowTerm) (state : ParseState) :
    (state.after terms).maybeAddSearchTerms = state.maybeAddSearchTerms.after terms := by
  unfold ParseState.maybeAddSearchTerms ParseState.after
  split_ifs
  · simp
  · rfl

theorem parseToken_after (terms : List NarrowTerm) (state : ParseState) (token : Text) :
    parseToken folding (state.after terms) token =
      (parseToken folding state token).after terms := by
  unfold parseToken
  simp only
  split_ifs
  · rfl
  · rfl
  · rw [maybeAddSearchTerms_after]
    simp [ParseState.after]

theorem parseTokens_after (terms : List NarrowTerm) (tokenList : List Text) :
    ∀ state : ParseState, parseTokens folding (state.after terms) tokenList =
      terms ++ parseTokens folding state tokenList := by
  unfold parseTokens
  induction tokenList with
  | nil =>
      intro state
      rw [List.foldl_nil, List.foldl_nil, maybeAddSearchTerms_after]
      rfl
  | cons token tokenList inductionHypothesis =>
      intro state
      rw [List.foldl_cons, List.foldl_cons, parseToken_after, inductionHypothesis]

theorem parse_eq_parseTokens (str : Text) :
    parse folding str = parseTokens folding ⟨[], []⟩ (tokens str) := rfl

/-- A token that is kept as a word of a search term. -/
def ReadsAsWord (token : Text) : Prop :=
  token.head? = some '\x22' ∨ (token.splitOn ':').length = 1 ∨
    operatorToPrefix folding (tokenTerm token).operator (tokenTerm token).negated = ""

instance (token : Text) : Decidable (ReadsAsWord folding token) :=
  inferInstanceAs (Decidable (_ ∨ _ ∨ _))

theorem parseToken_of_word {token : Text} (word : ReadsAsWord folding token) (state : ParseState) :
    parseToken folding state token = state.pushWord token := by
  unfold parseToken
  simp only
  split_ifs with alone unknown
  · rfl
  · rfl
  · rcases word with quoted | one | noPrefix
    · exact absurd (.inl quoted) alone
    · exact absurd (.inr one) alone
    · exact absurd noPrefix unknown

theorem parseToken_of_term {token : Text} (keyed : ¬ ReadsAsWord folding token)
    (state : ParseState) :
    parseToken folding state token =
      ParseState.after (state.maybeAddSearchTerms.terms ++ [tokenTerm token]) ⟨[], []⟩ := by
  have emptied : state.maybeAddSearchTerms.searchTerm = [] := by
    unfold ParseState.maybeAddSearchTerms
    split_ifs with pending
    · rfl
    · exact List.length_eq_zero_iff.mp (Nat.eq_zero_of_not_pos pending)
  unfold ReadsAsWord at keyed
  rw [not_or, not_or] at keyed
  unfold parseToken
  rw [if_neg (not_or.mpr ⟨keyed.1, keyed.2.1⟩)]
  simp only [if_neg keyed.2.2, emptied, ParseState.after, List.append_nil]

theorem parseTokens_keyed {token : Text} (keyed : ¬ ReadsAsWord folding token)
    (tokenList : List Text) :
    parseTokens folding ⟨[], []⟩ (token :: tokenList) =
      tokenTerm token :: parseTokens folding ⟨[], []⟩ tokenList := by
  have step := parseToken_of_term folding keyed ⟨[], []⟩
  unfold parseTokens
  rw [List.foldl_cons, step]
  exact parseTokens_after folding _ tokenList ⟨[], []⟩

/-- Words are one search term, up to a token with an operator. -/
theorem parseTokens_search {words tokenList : List Text}
    (areWords : ∀ word ∈ words, ReadsAsWord folding word) (nonempty : words ≠ [])
    (next : ∀ token ∈ tokenList.head?, ¬ ReadsAsWord folding token) :
    parseTokens folding ⟨[], []⟩ (words ++ tokenList) =
      ⟨false, "search".toList, [' '].intercalate words⟩ ::
        parseTokens folding ⟨[], []⟩ tokenList := by
  have pushed : ∀ (words pending : List Text), (∀ word ∈ words, ReadsAsWord folding word) →
      words.foldl (parseToken folding) ⟨[], pending⟩ = ⟨[], pending ++ words⟩ := by
    intro words
    induction words with
    | nil =>
        intro pending _
        rw [List.foldl_nil, List.append_nil]
    | cons word words inductionHypothesis =>
        intro pending areWords
        rw [List.foldl_cons, parseToken_of_word folding (areWords word List.mem_cons_self)]
        refine (inductionHypothesis (pending ++ [word]) fun other member =>
          areWords other (List.mem_cons_of_mem word member)).trans ?_
        rw [List.append_assoc, List.singleton_append]
  have added : (ParseState.mk [] words).maybeAddSearchTerms =
      ParseState.after [⟨false, "search".toList, [' '].intercalate words⟩] ⟨[], []⟩ := by
    unfold ParseState.maybeAddSearchTerms
    rw [if_pos (List.length_pos_of_ne_nil nonempty)]
    rfl
  unfold parseTokens
  rw [List.foldl_append, pushed words [] areWords, List.nil_append]
  rcases tokenList with _ | ⟨token, tokenList⟩
  · rw [List.foldl_nil, added]
    rfl
  · have keyed := next token rfl
    rw [List.foldl_cons, List.foldl_cons, parseToken_of_term folding keyed,
      parseToken_of_term folding keyed, added]
    have later := fun terms => parseTokens_after folding terms tokenList ⟨[], []⟩
    unfold parseTokens at later
    rw [later, later]
    rfl

theorem exists_colon_of_keyed {token : Text} (keyed : ¬ ReadsAsWord folding token) :
    ∃ name encoded, token = name ++ ':' :: encoded ∧
      (tokenTerm token).operand = decodeOperand encoded (tokenTerm token).operator := by
  have hasColon : ':' ∈ token := by
    by_contra noColon
    refine keyed (.inr (.inl ?_))
    rw [List.splitOn_eq_singleton noColon]
    rfl
  obtain ⟨name, encoded, rfl, noColon⟩ := List.eq_append_cons_of_mem hasColon
  refine ⟨name, encoded, rfl, ?_⟩
  unfold tokenTerm
  rw [List.splitOn_append_cons_self_of_not_mem noColon]
  simp only [List.headD_cons, List.tail_cons, List.intercalate_splitOn]

/-! ## The first term of a text -/

/-- Words at the start of a text, with white space in front of each, and the text behind them. -/
inductive WordsAt : Text → List Text → Text → Prop
  | done (rest : Text) : WordsAt rest [] rest
  | word {gap token behind rest : Text} {words : List Text}
      (spaces : ∀ c ∈ gap, isSpace c = true)
      (found : matchToken (token ++ behind) = some (token, behind))
      (isWord : ReadsAsWord folding token) (more : WordsAt behind words rest) :
      WordsAt (gap ++ (token ++ behind)) (token :: words) rest

theorem WordsAt.areWords {str rest : Text} {words : List Text}
    (block : WordsAt folding str words rest) : ∀ word ∈ words, ReadsAsWord folding word := by
  induction block with
  | done rest => exact List.forall_mem_nil _
  | word spaces found isWord more inductionHypothesis =>
      exact List.forall_mem_cons.mpr ⟨isWord, inductionHypothesis⟩

theorem WordsAt.tokens_eq {str rest : Text} {words : List Text}
    (block : WordsAt folding str words rest) : tokens str = words ++ tokens rest := by
  induction block with
  | done rest => rfl
  | word spaces found isWord more inductionHypothesis =>
      rw [tokens_gap spaces, tokens_of_match found, inductionHypothesis]
      rfl

/-- Words among the tokens stand at the start of the text. -/
theorem exists_wordsAt {words more : List Text} :
    ∀ {str : Text}, tokens str = words ++ more → (∀ word ∈ words, ReadsAsWord folding word) →
      ∃ rest, WordsAt folding str words rest ∧ tokens rest = more := by
  induction words with
  | nil => exact fun {str} whole _ => ⟨str, .done str, whole⟩
  | cons word words inductionHypothesis =>
      intro str whole areWords
      rcases tokens_cases str with none | ⟨gap, token, behind, spaces, rfl, found, first⟩
      · rw [none] at whole
        cases whole
      · rw [first, List.cons_append, List.cons.injEq] at whole
        obtain ⟨rfl, whole⟩ := whole
        obtain ⟨rest, block, isMore⟩ := inductionHypothesis whole fun other member =>
          areWords other (List.mem_cons_of_mem token member)
        exact ⟨rest, .word spaces found (areWords token List.mem_cons_self) block, isMore⟩

/-- All the words that a text starts with. -/
theorem exists_longest_wordsAt (str : Text) :
    ∃ words rest, WordsAt folding str words rest ∧
      ∀ token ∈ (tokens rest).head?, ¬ ReadsAsWord folding token := by
  let isWord : Text → Bool := fun token => decide (ReadsAsWord folding token)
  have parts := @List.takeWhile_append_dropWhile _ isWord (tokens str)
  obtain ⟨rest, block, isMore⟩ := exists_wordsAt folding parts.symm fun word member => by
    simpa [isWord] using List.all_eq_true.mp List.all_takeWhile word member
  refine ⟨_, rest, block, ?_⟩
  intro token isHead
  have stopped := List.head?_dropWhile_not isWord (tokens str)
  rw [isMore] at isHead
  rw [isHead] at stopped
  simpa [isWord] using stopped

/-- The first term that is read from a text, and the text behind it. -/
inductive FirstTerm : Text → NarrowTerm → Text → Prop
  | token {gap token rest : Text} (spaces : ∀ c ∈ gap, isSpace c = true)
      (found : matchToken (token ++ rest) = some (token, rest))
      (keyed : ¬ ReadsAsWord folding token) :
      FirstTerm (gap ++ (token ++ rest)) (tokenTerm token) rest
  | search {str rest : Text} {words : List Text} (block : WordsAt folding str words rest)
      (nonempty : words ≠ []) (next : ∀ token ∈ (tokens rest).head?, ¬ ReadsAsWord folding token) :
      FirstTerm str ⟨false, "search".toList, [' '].intercalate words⟩ rest

theorem FirstTerm.parse_eq {str rest : Text} {term : NarrowTerm}
    (first : FirstTerm folding str term rest) :
    parse folding str = term :: parse folding rest := by
  simp only [parse_eq_parseTokens]
  cases first with
  | token spaces found keyed =>
      rw [tokens_gap spaces, tokens_of_match found, parseTokens_keyed folding keyed]
  | search block nonempty next =>
      rw [block.tokens_eq, parseTokens_search folding block.areWords nonempty next]

theorem exists_firstTerm {str : Text} {term : NarrowTerm} {more : List NarrowTerm}
    (read : parse folding str = term :: more) :
    ∃ rest, FirstTerm folding str term rest ∧ more = parse folding rest := by
  have unique {other : NarrowTerm} {rest : Text} (first : FirstTerm folding str other rest) :
      ∃ rest, FirstTerm folding str term rest ∧ more = parse folding rest := by
    have same := first.parse_eq.symm.trans read
    injection same with sameTerm sameMore
    exact ⟨rest, sameTerm ▸ first, sameMore.symm⟩
  obtain ⟨words, rest, block, next⟩ := exists_longest_wordsAt folding str
  by_cases noWords : words = []
  · subst noWords
    cases block
    rcases tokens_cases str with none | ⟨gap, token, rest, spaces, rfl, found, isFirst⟩
    · rw [parse_eq_parseTokens, none] at read
      cases read
    · exact unique (.token spaces found (next token (by rw [isFirst]; rfl)))
  · exact unique (.search block noWords next)

/-! ## Operators -/

/-- The operators that are read as they are written. -/
def keyedOperators : List Text := "search".toList :: operatorPrefixes.map Prod.fst

theorem keyedOperators_facts :
    ∀ operator ∈ keyedOperators, operator ≠ [] ∧
      (∀ c ∈ operator, isOperatorChar c = true ∧ c ≠ '\x22' ∧ c ≠ ':') ∧
      operator.head? ≠ some '-' ∧
      (operator.all fun c => c.toNat < 128 && !c.isUpper) = true ∧
      operator ∉ ["pm-with".toList, "group-pm-with".toList, "from".toList, "subject".toList,
        "stream".toList, "streams".toList] := by
  decide

theorem canonicalizeOperator_of_keyed {operator : Text} (keyed : operator ∈ keyedOperators) :
    canonicalizeOperator folding operator = operator := by
  obtain ⟨-, -, -, small, other⟩ := keyedOperators_facts operator keyed
  simp only [List.mem_cons, List.not_mem_nil, or_false, not_or] at other
  obtain ⟨notPm, notGroup, notFrom, notSubject, notStream, notStreams⟩ := other
  unfold canonicalizeOperator
  simp only [folding.lower_ascii operator small, if_neg notPm, if_neg notGroup, if_neg notFrom,
    if_neg notSubject, if_neg notStream, if_neg notStreams]

/-- The operators that have a description are the ones that are read as they are written. -/
theorem operatorToPrefix_ne_iff (operator : Text) (negated : Bool) :
    operatorToPrefix folding operator negated ≠ "" ↔
      canonicalizeOperator folding operator ∈ keyedOperators := by
  have described : ∀ entry ∈ operatorPrefixes,
      ∃ words, operatorPrefixes.lookup entry.1 = some words ∧ words ≠ "" := by
    decide
  unfold operatorToPrefix keyedOperators
  simp only [List.mem_cons]
  split_ifs with isSearch sign
  · exact iff_of_true (by decide) (.inl isSearch)
  · exact iff_of_true (by decide) (.inl isSearch)
  all_goals
    rw [or_iff_right isSearch]
    constructor
    · intro nonempty
      by_contra unknown
      have none : operatorPrefixes.lookup (canonicalizeOperator folding operator) = none := by
        rw [List.lookup_eq_none_iff]
        intro entry member
        rw [bne_iff_ne]
        intro same
        exact unknown (same ▸ List.mem_map_of_mem member)
      rw [none] at nonempty
      exact nonempty rfl
    · intro known
      obtain ⟨entry, isEntry, same⟩ := List.mem_map.mp known
      obtain ⟨words, found, nonempty⟩ := described entry isEntry
      rw [← same, found]
      intro empty
      exact nonempty (String.append_eq_empty_iff.mp empty).2

/-- The sign in front of an operator. -/
def signText (negated : Bool) : Text := if negated then ['-'] else []

theorem operatorName_signed {operator : Text} (keyed : operator ∈ keyedOperators)
    (negated : Bool) : OperatorName (signText negated ++ operator) := by
  obtain ⟨nonempty, chars, -, -, -⟩ := keyedOperators_facts operator keyed
  have signChars : ∀ c ∈ signText negated, isOperatorChar c = true ∧ c ≠ '\x22' := by
    cases negated <;> decide
  refine ⟨?_, ?_, ?_⟩
  · intro empty
    exact nonempty (List.append_eq_nil_iff.mp empty).2
  · intro c member
    rcases List.mem_append.mp member with inSign | inOperator
    · exact (signChars c inSign).1
    · exact (chars c inOperator).1
  · intro member
    rcases List.mem_append.mp member with inSign | inOperator
    · exact (signChars _ inSign).2 rfl
    · exact (chars _ inOperator).2.1 rfl

/-- A token of such an operator is a term of it. -/
theorem tokenTerm_signed {operator : Text} (keyed : operator ∈ keyedOperators) (negated : Bool)
    (encoded : Text) :
    tokenTerm (signText negated ++ operator ++ ':' :: encoded) =
      ⟨negated, operator, decodeOperand encoded operator⟩ := by
  obtain ⟨nonempty, chars, unsigned, -, -⟩ := keyedOperators_facts operator keyed
  have noColon : ':' ∉ signText negated ++ operator := by
    intro member
    rcases List.mem_append.mp member with inSign | inOperator
    · cases negated
      · cases inSign
      · exact absurd inSign (by decide)
    · exact (chars _ inOperator).2.2 rfl
  unfold tokenTerm
  rw [List.splitOn_append_cons_self_of_not_mem noColon]
  simp only [List.headD_cons, List.tail_cons, List.intercalate_splitOn]
  cases negated with
  | true => simp [signText]
  | false => simp [signText, unsigned]

theorem keyed_signed {operator : Text} (keyed : operator ∈ keyedOperators) (negated : Bool)
    (encoded : Text) :
    ¬ ReadsAsWord folding (signText negated ++ operator ++ ':' :: encoded) := by
  have isName := operatorName_signed keyed negated
  rintro (quoted | one | noPrefix)
  · obtain ⟨first, more, shape⟩ := List.exists_cons_of_ne_nil isName.nonempty
    rw [shape, List.cons_append, List.head?_cons] at quoted
    cases quoted
    exact isName.noQuote (shape ▸ List.mem_cons_self)
  · rw [List.splitOn_append_cons_self] at one
    have left := List.length_pos_of_ne_nil (List.splitOn_ne_nil ':' (signText negated ++ operator))
    have right := List.length_pos_of_ne_nil (List.splitOn_ne_nil ':' encoded)
    rw [List.length_append] at one
    omega
  · rw [tokenTerm_signed keyed] at noPrefix
    refine (operatorToPrefix_ne_iff folding operator negated).mpr ?_ noPrefix
    rw [canonicalizeOperator_of_keyed folding keyed]
    exact keyed

theorem parseTokens_signed {operator : Text} (keyed : operator ∈ keyedOperators) (negated : Bool)
    (encoded : Text) (tokenList : List Text) :
    parseTokens folding ⟨[], []⟩ ((signText negated ++ operator ++ ':' :: encoded) :: tokenList) =
      ⟨negated, operator, decodeOperand encoded operator⟩ ::
        parseTokens folding ⟨[], []⟩ tokenList := by
  rw [parseTokens_keyed folding (keyed_signed folding keyed negated encoded),
    tokenTerm_signed keyed]

/-! ## The text of a list of terms -/

/-- What follows the first term's text. -/
def unparseRest (terms : List NarrowTerm) : Text :=
  if terms = [] then [] else ' ' :: unparse folding terms

theorem unparse_cons (term : NarrowTerm) (terms : List NarrowTerm) :
    unparse folding (term :: terms) = unparseTerm folding term ++ unparseRest folding terms := by
  unfold unparseRest unparse
  rcases terms with _ | ⟨second, more⟩
  · simp
  · rw [List.map_cons, List.map_cons, List.intercalate_cons_cons]
    simp

theorem tokens_unparseRest (terms : List NarrowTerm) :
    tokens (unparseRest folding terms) = tokens (unparse folding terms) := by
  unfold unparseRest
  split_ifs with none
  · rw [none]
    rfl
  · exact tokens_space (by decide) _

theorem head_unparseRest {terms : List NarrowTerm} {c : Char}
    (isHead : (unparseRest folding terms).head? = some c) : isSpace c = true := by
  unfold unparseRest at isHead
  split_ifs at isHead
  · cases isHead
  · cases isHead
    decide

/-- A term whose operator is read as it is written. -/
structure KeyedTerm (term : NarrowTerm) : Prop where
  notSearch : term.operator ≠ "search".toList
  operator : canonicalizeOperator folding term.operator ∈ keyedOperators
  trimmed : Trimmed term.operand

theorem KeyedTerm.isName {term : NarrowTerm} (keyed : KeyedTerm folding term) :
    OperatorName (signText term.negated ++ canonicalizeOperator folding term.operator) :=
  operatorName_signed keyed.operator term.negated

theorem unparseTerm_of_search {term : NarrowTerm} (isSearch : term.operator = "search".toList) :
    unparseTerm folding term = term.operand := by
  unfold unparseTerm
  rw [if_pos isSearch]

theorem unparseTerm_of_keyed {term : NarrowTerm} (keyed : KeyedTerm folding term) :
    unparseTerm folding term =
      signText term.negated ++ canonicalizeOperator folding term.operator ++
        ':' :: encodeOperand term.operand := by
  have nonempty : term.operator ≠ [] := by
    intro isEmpty
    have small : folding.lower [] = [] := folding.lower_ascii _ rfl
    have known := keyed.operator
    rw [isEmpty, canonicalizeOperator, small] at known
    exact absurd known (by decide)
  unfold unparseTerm
  rw [if_neg keyed.notSearch]
  simp only [if_neg nonempty]
  rfl

theorem visibleCount_unparseRest (terms : List NarrowTerm) :
    visibleCount (unparseRest folding terms) = visibleCount (unparse folding terms) := by
  unfold unparseRest
  split_ifs with none
  · rw [none]
    rfl
  · exact visibleCount_cons_of_space (by decide) _

theorem parse_unparseRest (terms : List NarrowTerm) :
    parse folding (unparseRest folding terms) = parse folding (unparse folding terms) := by
  rw [parse_eq_parseTokens, tokens_unparseRest, ← parse_eq_parseTokens]

/-! ## One term -/

/-- The term that is read is the one that was written, with the operator in canonical form. -/
structure SameTerm (term parsed : NarrowTerm) : Prop where
  negated : parsed.negated = term.negated
  operator : parsed.operator = canonicalizeOperator folding term.operator
  operand : parsed.operand = term.operand

/-- The white space of the operand survives: blanks only, and none at all for users. -/
def OperandKept (term : NarrowTerm) : Prop :=
  if canonicalizeOperator folding term.operator ∈ userOperators then
    ∀ c ∈ term.operand, isSpace c = false
  else ∀ c ∈ term.operand, isOtherSpace c = false

instance (term : NarrowTerm) : Decidable (OperandKept folding term) :=
  inferInstanceAs (Decidable (if canonicalizeOperator folding term.operator ∈ userOperators then
    ∀ c ∈ term.operand, isSpace c = false else ∀ c ∈ term.operand, isOtherSpace c = false))

/-- The operand of a term's token as the decoder sees it, up to white space the encoder left. -/
def readBack (term : NarrowTerm) : Text :=
  let before := term.operand.takeWhile fun c => !isOtherSpace c
  if canonicalizeOperator folding term.operator ∈ userOperators then before.map blankToPlus
  else before

theorem isOtherSpace_of_operandKept {term : NarrowTerm} (kept : OperandKept folding term) :
    ∀ c ∈ term.operand, isOtherSpace c = false := by
  unfold OperandKept at kept
  split_ifs at kept
  · intro c member
    simp [isOtherSpace, kept c member]
  · exact kept

/-- The operand comes back exactly if its white space survives. -/
theorem trim_readBack_iff {term : NarrowTerm} (trimmed : Trimmed term.operand) :
    trim (readBack folding term) = term.operand ↔ OperandKept folding term := by
  have beforeFree : ∀ c ∈ term.operand.takeWhile (fun c => !isOtherSpace c),
      isOtherSpace c = false := by
    intro c member
    simpa using List.all_eq_true.mp List.all_takeWhile c member
  constructor
  · intro same
    unfold OperandKept
    unfold readBack at same
    split_ifs with isUser
    · rw [if_pos isUser] at same
      intro c member
      rw [← same] at member
      obtain ⟨source, inBefore, rfl⟩ := List.mem_map.mp (mem_of_mem_trim member)
      have notOther := beforeFree source inBefore
      unfold blankToPlus
      split_ifs with blank
      · decide
      · simpa [isOtherSpace, blank] using notOther
    · rw [if_neg isUser] at same
      intro c member
      rw [← same] at member
      exact beforeFree c (mem_of_mem_trim member)
  · intro kept
    have whole : term.operand.takeWhile (fun c => !isOtherSpace c) = term.operand := by
      rw [List.takeWhile_eq_self_iff]
      intro c member
      simp [isOtherSpace_of_operandKept folding kept c member]
    have sameText : readBack folding term = term.operand := by
      unfold readBack
      unfold OperandKept at kept
      simp only [whole]
      split_ifs with isUser
      · rw [if_pos isUser] at kept
        refine (List.map_congr_left fun c member => ?_).trans (List.map_id _)
        have notBlank : c ≠ ' ' := by
          rintro rfl
          exact absurd (kept ' ' member) (by decide)
        simp [blankToPlus, notBlank]
      · rfl
    rw [sameText, trim_of_trimmed trimmed]

/-- A term with an operand is read up to the white space that the encoder left. -/
theorem parse_unparse_operand {term : NarrowTerm} {terms : List NarrowTerm}
    (keyed : KeyedTerm folding term) (nonempty : term.operand ≠ []) :
    parse folding (unparse folding (term :: terms)) =
      ⟨term.negated, canonicalizeOperator folding term.operator, trim (readBack folding term)⟩ ::
        parseTokens folding ⟨[], []⟩
          (tokens (encodeOperand (term.operand.dropWhile fun c => !isOtherSpace c) ++
            unparseRest folding terms)) := by
  have parts := @List.takeWhile_append_dropWhile _ (fun c => !isOtherSpace c) term.operand
  have beforeFree : ∀ c ∈ term.operand.takeWhile (fun c => !isOtherSpace c),
      isOtherSpace c = false := by
    intro c member
    simpa using List.all_eq_true.mp List.all_takeWhile c member
  have encodedNonempty :
      encodeOperand (term.operand.takeWhile fun c => !isOtherSpace c) ≠ [] := by
    obtain ⟨first, more, shape⟩ := List.exists_cons_of_ne_nil nonempty
    have noSpace : isSpace first = false := keyed.trimmed.head first (by rw [shape]; rfl)
    rw [shape, List.takeWhile_cons_of_pos (by simp [isOtherSpace, noSpace]),
      encodeOperand_eq_flatMap, List.flatMap_cons]
    exact fun empty => encodeOperandChar_ne_nil first (List.append_eq_nil_iff.mp empty).1
  have noSpace : ∀ c ∈ encodeOperand (term.operand.takeWhile fun c => !isOtherSpace c),
      isSpace c = false := by
    intro c member
    by_contra space
    obtain ⟨inBefore, other⟩ := (mem_encodeOperand member).2 (by simpa using space)
    rw [beforeFree c inBefore] at other
    cases other
  have stops : ∀ c, (encodeOperand (term.operand.dropWhile fun c => !isOtherSpace c) ++
      unparseRest folding terms).head? = some c → isSpace c = true := by
    intro c isHead
    rcases shape : term.operand.dropWhile (fun c => !isOtherSpace c) with _ | ⟨first, more⟩
    · rw [shape] at isHead
      exact head_unparseRest folding isHead
    · have other : isOtherSpace first = true := by
        have stopped := List.head?_dropWhile_not (fun c => !isOtherSpace c) term.operand
        rw [shape] at stopped
        simpa using stopped
      simp only [isOtherSpace, Bool.and_eq_true, bne_iff_ne] at other
      have written : encodeOperandChar first = [first] := by
        unfold encodeOperandChar
        rw [if_neg, if_neg, if_neg other.2, if_neg]
        all_goals
          rintro rfl
          exact absurd other.1 (by decide)
      rw [shape, encodeOperand_eq_flatMap, List.flatMap_cons, written] at isHead
      cases isHead
      exact other.1
  have decoded : decodeOperand (encodeOperand (term.operand.takeWhile fun c => !isOtherSpace c))
      (canonicalizeOperator folding term.operator) = trim (readBack folding term) :=
    decodeOperand_encodeOperand _ _
  have text : unparse folding (term :: terms) =
      signText term.negated ++ canonicalizeOperator folding term.operator ++
        ':' :: (encodeOperand (term.operand.takeWhile fun c => !isOtherSpace c) ++
          (encodeOperand (term.operand.dropWhile fun c => !isOtherSpace c) ++
            unparseRest folding terms)) := by
    rw [unparse_cons, unparseTerm_of_keyed folding keyed, ← List.append_assoc
      (encodeOperand _), ← encodeOperand_append, parts]
    simp
  rw [parse_eq_parseTokens, text, tokens_of_match (matchToken_operand
    keyed.isName encodedNonempty noSpace
    (fun member => (mem_encodeOperand member).1 rfl) stops),
    parseTokens_signed folding keyed.operator, decoded]

/-- A term without an operand at the end of the text comes back. -/
theorem parse_unparse_empty {term : NarrowTerm}
    (keyed : KeyedTerm folding term) (empty : term.operand = []) :
    parse folding (unparse folding [term]) =
      [⟨term.negated, canonicalizeOperator folding term.operator, []⟩] := by
  have decoded : decodeOperand [] (canonicalizeOperator folding term.operator) = [] := by
    have written := decodeOperand_encodeOperand [] (canonicalizeOperator folding term.operator)
    simpa [encodeOperand_eq_flatMap, trim, trimStart] using written
  have text : unparse folding [term] =
      signText term.negated ++ canonicalizeOperator folding term.operator ++ [':'] := by
    rw [unparse_cons, unparseTerm_of_keyed folding keyed, empty]
    simp [unparseRest, encodeOperand_eq_flatMap]
  obtain ⟨operand, rest, nothing, found⟩ := matchToken_name keyed.isName []
  obtain ⟨rfl, rfl⟩ := List.append_eq_nil_iff.mp nothing.symm
  rw [parse_eq_parseTokens, text, tokens_of_match found,
    parseTokens_signed folding keyed.operator, decoded]
  rfl

/-! ## What is taken from a text -/

theorem intercalate_cons (word : Text) {words : List Text} (nonempty : words ≠ []) :
    [' '].intercalate (word :: words) = word ++ ' ' :: [' '].intercalate words := by
  obtain ⟨second, more, rfl⟩ := List.exists_cons_of_ne_nil nonempty
  rw [List.intercalate_cons_cons, List.append_assoc, List.singleton_append]

theorem WordsAt.exists_taken {str rest : Text} {words : List Text}
    (block : WordsAt folding str words rest) (nonempty : words ≠ []) :
    ∃ taken, str = taken ++ rest ∧ EndsAt taken rest ∧
      visibleCount ([' '].intercalate words) = visibleCount taken ∧ 0 < visibleCount taken ∧
      ('\x22' ∉ taken → ∀ c ∈ [' '].intercalate words, isOtherSpace c = false) := by
  induction block with
  | done rest => exact absurd rfl nonempty
  | @word gap token behind rest words spaces found isWord more inductionHypothesis =>
      have matched := matched_of_matchToken found
      have hidden := visibleCount_eq_zero.mpr spaces
      have positive := matched.visibleCount_pos
      by_cases last : words = []
      · subst last
        cases more
        refine ⟨gap ++ token, (List.append_assoc _ _ _).symm, matched.ends.behind gap, ?_, ?_, ?_⟩
        · rw [visibleCount_append, hidden, Nat.zero_add]
          simp
        · rw [visibleCount_append]
          omega
        · intro noQuote
          simpa using matched.plain fun member => noQuote (List.mem_append_right gap member)
      · obtain ⟨taken, rfl, ends, same, -, plain⟩ := inductionHypothesis last
        refine ⟨gap ++ (token ++ taken), by simp, (ends.behind token).behind gap, ?_, ?_, ?_⟩
        · rw [intercalate_cons token last, visibleCount_append, visibleCount_append,
            visibleCount_append, visibleCount_cons_of_space (by decide), same, hidden]
          omega
        · rw [visibleCount_append, visibleCount_append]
          omega
        · intro noQuote c member
          simp only [List.mem_append, not_or] at noQuote
          rw [intercalate_cons token last] at member
          rcases List.mem_append.mp member with inToken | later
          · exact matched.plain noQuote.2.1 c inToken
          · rcases List.mem_cons.mp later with rfl | inWords
            · decide
            · exact plain noQuote.2.2 c inWords

theorem visibleCount_tokenTerm_lt {token : Text} (keyed : ¬ ReadsAsWord folding token) :
    visibleCount (tokenTerm token).operand < visibleCount token := by
  obtain ⟨name, encoded, shape, isOperand⟩ := exists_colon_of_keyed folding keyed
  have shorter := visibleCount_decodeOperand_le encoded (tokenTerm token).operator
  rw [isOperand]
  calc visibleCount (decodeOperand encoded (tokenTerm token).operator)
      ≤ visibleCount encoded := shorter
    _ < visibleCount name + (visibleCount encoded + 1) := by omega
    _ = visibleCount token := by
        rw [shape, visibleCount_append, visibleCount_cons_of_visible (by decide)]

theorem FirstTerm.exists_taken {str rest : Text} {term : NarrowTerm}
    (first : FirstTerm folding str term rest) :
    ∃ taken, str = taken ++ rest ∧ EndsAt taken rest ∧ 0 < visibleCount taken ∧
      visibleCount term.operand ≤ visibleCount taken := by
  cases first with
  | @token gap token rest spaces found keyed =>
      have matched := matched_of_matchToken found
      have hidden := visibleCount_eq_zero.mpr spaces
      have positive := matched.visibleCount_pos
      have shorter := visibleCount_tokenTerm_lt folding keyed
      refine ⟨gap ++ token, (List.append_assoc _ _ _).symm, matched.ends.behind gap, ?_, ?_⟩
      · rw [visibleCount_append]
        omega
      · rw [visibleCount_append]
        omega
  | search block nonempty next =>
      obtain ⟨taken, whole, ends, same, positive, -⟩ := block.exists_taken folding nonempty
      exact ⟨taken, whole, ends, positive, same.le⟩

/-! ## Reading inside a term -/

/-- White space that is read in an operand was written in it. -/
theorem mem_encodeOperand_of_decodeOperand {operand operator : Text} {c : Char}
    (other : isOtherSpace c = true)
    (member : c ∈ decodeOperand (encodeOperand operand) operator) : c ∈ encodeOperand operand := by
  rw [decodeOperand_encodeOperand] at member
  have written : c ∈ operand := by
    have untrimmed := mem_of_mem_trim member
    split_ifs at untrimmed
    · obtain ⟨source, inOperand, same⟩ := List.mem_map.mp untrimmed
      unfold blankToPlus at same
      split_ifs at same
      · rw [← same] at other
        exact absurd other (by decide)
      · exact same ▸ inOperand
    · exact untrimmed
  rw [encodeOperand_eq_flatMap]
  refine List.mem_flatMap.mpr ⟨c, written, ?_⟩
  rw [encodeOperandChar_of_otherSpace other]
  exact List.mem_cons_self

theorem colon_of_mem_encodeOperandChar (c : Char) (member : ':' ∈ encodeOperandChar c) :
    c = ':' := by
  unfold encodeOperandChar at member
  split_ifs at member
  · exact absurd member (by decide)
  · exact absurd member (by decide)
  · exact absurd member (by decide)
  · exact absurd member (by decide)
  · exact (List.mem_singleton.mp member).symm

/-- A part of an encoded operand up to white space or its end encodes a part of the operand. -/
theorem exists_encodeOperand_of_stops {operand encoded behind : Text} (stops : Stops behind)
    (whole : encodeOperand operand = encoded ++ behind) :
    ∃ part, encodeOperand part = encoded := by
  rcases behind with _ | ⟨space, behind⟩
  · exact ⟨operand, by rw [whole, List.append_nil]⟩
  · have written : space ∈ encodeOperand operand := by
      rw [whole]
      simp
    have other := ((mem_encodeOperand written).2 (stops space rfl)).2
    obtain ⟨part, _, _, isPart, _⟩ := encodeOperand_split
      (encodeOperandChar_of_otherSpace other)
      (fun c member => (((mem_encodeOperandChar member).2 (stops space rfl)).1).symm) whole
    exact ⟨part, isPart⟩

/-- What is taken does not go beyond a text without quotes if it leaves all that is behind. -/
theorem EndsAt.inside {taken rest written behind : Text} (ends : EndsAt taken rest)
    (noQuote : '\x22' ∉ written) (whole : written ++ behind = taken ++ rest)
    (left : visibleCount behind ≤ visibleCount rest) :
    ∃ more, written = taken ++ more ∧ rest = more ++ behind := by
  rcases List.append_eq_append_iff.mp whole with ⟨beyond, isTaken, isBehind⟩ | found
  · have hidden : ∀ c ∈ beyond, isSpace c = true := by
      rw [← visibleCount_eq_zero]
      rw [isBehind, visibleCount_append] at left
      omega
    rcases List.eq_nil_or_concat beyond with rfl | ⟨front, last, shape⟩
    · refine ⟨[], by rw [isTaken]; simp, by rw [isBehind]; simp⟩
    · -- the last character taken would be white space, though there is no quote
      rw [List.concat_eq_append] at shape
      have isLast : taken.getLast? = some last := by
        rw [isTaken, shape, ← List.append_assoc, List.getLast?_concat]
      have takenNoQuote : '\x22' ∉ taken := by
        rw [isTaken]
        intro member
        rcases List.mem_append.mp member with inWritten | inBeyond
        · exact noQuote inWritten
        · exact absurd (hidden _ inBeyond) (by decide)
      have visible := ends.last takenNoQuote last isLast
      rw [hidden last (by rw [shape]; simp)] at visible
      cases visible
  · exact found

/-- No operand with other white space is read from an encoded operand, in one token or as words. -/
theorem FirstTerm.noOther_of_inside {str rest operand behind : Text} {term : NarrowTerm}
    (first : FirstTerm folding str term rest) (whole : str = encodeOperand operand ++ behind)
    (left : visibleCount behind ≤ visibleCount rest) :
    ∀ c ∈ term.operand, isOtherSpace c = false := by
  have noQuote : '\x22' ∉ encodeOperand operand := fun member => (mem_encodeOperand member).1 rfl
  cases first with
  | @token gap token rest spaces found keyed =>
      have matched := matched_of_matchToken found
      obtain ⟨more, isWritten, isRest⟩ := (matched.ends.behind gap).inside noQuote
        (by rw [← whole, List.append_assoc]) left
      have tokenNoQuote : '\x22' ∉ token := fun member =>
        noQuote (by rw [isWritten]; simp [member])
      obtain ⟨name, encoded, shape, isOperand⟩ := exists_colon_of_keyed folding keyed
      obtain ⟨_, second, -, -, isSecond⟩ := encodeOperand_split
        (show encodeOperandChar ':' = [':'] by decide) colon_of_mem_encodeOperandChar
        (show encodeOperand operand = (gap ++ name) ++ ':' :: (encoded ++ more) by
          rw [isWritten, shape]; simp)
      have stops : Stops more := by
        intro c isHead
        rcases matched.ends.stops with restStops | isQuote
        · refine restStops c ?_
          rw [isRest, List.head?_append, isHead]
          rfl
        · exact absurd (List.mem_of_getLast? isQuote) tokenNoQuote
      obtain ⟨part, isPart⟩ := exists_encodeOperand_of_stops stops isSecond
      intro c member
      by_contra other
      rw [isOperand, ← isPart] at member
      have written := mem_encodeOperand_of_decodeOperand (by simpa using other) member
      rw [isPart] at written
      exact other (matched.plain tokenNoQuote c (by rw [shape]; simp [written]))
  | search block nonempty next =>
      obtain ⟨taken, isStr, ends, -, -, plain⟩ := block.exists_taken folding nonempty
      obtain ⟨more, isWritten, -⟩ := ends.inside noQuote (whole.symm.trans isStr) left
      exact plain fun member => noQuote (by rw [isWritten]; simp [member])

/-- Where the text of a term goes on with white space, its operand does. -/
theorem KeyedTerm.exists_otherSpace {term : NarrowTerm} (keyed : KeyedTerm folding term)
    {read inside behind : Text} (whole : unparseTerm folding term = read ++ inside)
    (nonempty : inside ≠ []) (stops : Stops (inside ++ behind)) :
    ∃ space ∈ term.operand, isOtherSpace space = true ∧
      ∃ operand, inside = encodeOperand operand := by
  obtain ⟨space, more, rfl⟩ := List.exists_cons_of_ne_nil nonempty
  have isSpace := stops space rfl
  have notColon : space ≠ ':' := by
    rintro rfl
    exact absurd isSpace (by decide)
  have notInName : space ∉ signText term.negated ++ canonicalizeOperator folding term.operator :=
    fun member => by
      have visible := (noOther_of_operatorChar (keyed.isName.operatorChars space member)).1
      rw [isSpace] at visible
      cases visible
  rw [unparseTerm_of_keyed folding keyed] at whole
  rcases List.append_eq_append_iff.mp whole with ⟨cut, -, isOperand⟩ | ⟨cut, isName, isInside⟩
  · rcases cut with _ | ⟨colon, cut⟩
    · injection isOperand with isColon _
      exact absurd isColon.symm notColon
    · injection isOperand with _ isOperand
      have written : space ∈ encodeOperand term.operand := by
        rw [isOperand]
        simp
      obtain ⟨inOperand, other⟩ := (mem_encodeOperand written).2 isSpace
      obtain ⟨_, second, -, -, isSecond⟩ := encodeOperand_split
        (encodeOperandChar_of_otherSpace other)
        (fun c member => (((mem_encodeOperandChar member).2 isSpace).1).symm) isOperand
      refine ⟨space, inOperand, other, space :: second, ?_⟩
      rw [encodeOperand_eq_flatMap, List.flatMap_cons, ← encodeOperand_eq_flatMap, isSecond,
        encodeOperandChar_of_otherSpace other, List.singleton_append]
  · rcases cut with _ | ⟨head, cut⟩
    · injection isInside with isColon _
      exact absurd isColon notColon
    · injection isInside with isHead _
      refine absurd ?_ notInName
      rw [isName, isHead]
      simp

/-! ## Ahead of the terms -/

/-- A term as the parser makes it: of `search`, as it is typed, or of a known operator. -/
def ReadTerm (term : NarrowTerm) : Prop :=
  term.operator = "search".toList ∨ KeyedTerm folding term

/-- What is left of the text of some terms when visible characters of it are read. -/
def Ahead (terms : List NarrowTerm) (str : Text) : Prop :=
  ∃ taken, unparse folding terms = taken ++ str ∧
    visibleCount str < visibleCount (unparse folding terms) ∧
    (Stops str ∨ taken.getLast? = some '\x22')

theorem quote_not_mem_unparseTerm {term : NarrowTerm} (keyed : KeyedTerm folding term) :
    '\x22' ∉ unparseTerm folding term := by
  rw [unparseTerm_of_keyed folding keyed]
  intro member
  rcases List.mem_append.mp member with inName | inOperand
  · exact keyed.isName.noQuote inName
  · rcases List.mem_cons.mp inOperand with colon | encoded
    · exact absurd colon (by decide)
    · exact (mem_encodeOperand encoded).1 rfl

theorem visibleCount_unparse_cons (term : NarrowTerm) (terms : List NarrowTerm) :
    visibleCount (unparse folding (term :: terms)) =
      visibleCount (unparseTerm folding term) + visibleCount (unparse folding terms) := by
  rw [unparse_cons, visibleCount_append, visibleCount_unparseRest]

/-- Who leaves less than the later terms is ahead of them. -/
theorem ahead_of_fewer {term : NarrowTerm} {terms : List NarrowTerm} {taken rest : Text}
    (whole : unparse folding (term :: terms) = taken ++ rest) (ends : EndsAt taken rest)
    (fewer : visibleCount rest < visibleCount (unparse folding terms)) :
    Ahead folding terms rest := by
  have notLast : terms ≠ [] := by
    rintro rfl
    exact absurd fewer (Nat.not_lt_zero _)
  have text : unparse folding (term :: terms) =
      (unparseTerm folding term ++ [' ']) ++ unparse folding terms := by
    rw [unparse_cons, unparseRest, if_neg notLast, List.append_assoc, List.singleton_append]
  rcases List.suffix_or_suffix_of_suffix ⟨taken, whole.symm⟩ ⟨_, text.symm⟩ with
    ⟨later, shape⟩ | longer
  · have nonempty : later ≠ [] := by
      rintro rfl
      rw [List.nil_append] at shape
      rw [shape] at fewer
      exact absurd fewer (Nat.lt_irrefl _)
    have isTaken : taken = (unparseTerm folding term ++ [' ']) ++ later := by
      refine @List.append_cancel_right _ taken rest _ ?_
      rw [← whole, text, ← shape, ← List.append_assoc]
    refine ⟨later, shape.symm, fewer, ends.stops.imp id fun isLast => ?_⟩
    rwa [isTaken, List.getLast?_append_of_ne_nil _ nonempty] at isLast
  · exact absurd (visibleCount_le_of_sublist longer.sublist) (Nat.not_le_of_lt fewer)

/-- Once the reader is ahead the terms do not come back: for a search term it takes as much as was
written, and inside the text of another term it does not find the white space of its operand. -/
theorem not_sameTerms_of_ahead {terms : List NarrowTerm} :
    ∀ {str : Text}, (∀ term ∈ terms, ReadTerm folding term) → Ahead folding terms str →
      ¬ List.Forall₂ (SameTerm folding) terms (parse folding str) := by
  induction terms with
  | nil =>
      rintro str - ⟨taken, -, fewer, -⟩
      exact absurd fewer (Nat.not_lt_zero _)
  | cons term terms inductionHypothesis =>
      rintro str read ⟨taken, whole, fewer, ends⟩ same
      obtain ⟨parsed, more, sameTerm, sameMore, isParsed⟩ := List.forall₂_cons_left_iff.mp same
      obtain ⟨rest, first, rfl⟩ := exists_firstTerm folding isParsed
      obtain ⟨group, rfl, groupEnds, positive, shorter⟩ := first.exists_taken folding
      rw [visibleCount_append, visibleCount_unparse_cons] at fewer
      rw [sameTerm.operand] at shorter
      by_cases less : visibleCount rest < visibleCount (unparse folding terms)
      · have wholeRest : unparse folding (term :: terms) = (taken ++ group) ++ rest := by
          rw [whole, List.append_assoc]
        exact inductionHypothesis
          (fun other member => read other (List.mem_cons_of_mem term member))
          (ahead_of_fewer folding wholeRest (groupEnds.behind taken) less) sameMore
      rcases read term List.mem_cons_self with isSearch | keyed
      · rw [unparseTerm_of_search folding isSearch] at fewer
        omega
      · rw [unparse_cons] at whole
        rcases List.append_eq_append_iff.mp whole with ⟨cut, -, isRest⟩ | ⟨inside, isText, isStr⟩
        · have count := congrArg visibleCount isRest
          rw [visibleCount_unparseRest, visibleCount_append, visibleCount_append] at count
          omega
        · have noQuote := quote_not_mem_unparseTerm folding keyed
          have stops : Stops (inside ++ unparseRest folding terms) := by
            rw [← isStr]
            refine ends.resolve_right fun isLast => noQuote ?_
            rw [isText]
            exact List.mem_append_left _ (List.mem_of_getLast? isLast)
          have nonempty : inside ≠ [] := by
            rintro rfl
            have count := congrArg visibleCount isStr
            rw [List.nil_append, visibleCount_unparseRest, visibleCount_append] at count
            omega
          obtain ⟨space, inOperand, other, operand, rfl⟩ :=
            keyed.exists_otherSpace folding isText nonempty stops
          have left : visibleCount (unparseRest folding terms) ≤ visibleCount rest := by
            rw [visibleCount_unparseRest]
            exact Nat.le_of_not_lt less
          have noOther := first.noOther_of_inside folding isStr left space
            (by rw [sameTerm.operand]; exact inOperand)
          rw [other] at noOther
          cases noOther

/-! ## The words of a search term -/

theorem WordsAt.cons_inv {str token rest : Text} {words : List Text}
    (block : WordsAt folding str (token :: words) rest) :
    ∃ gap behind, (∀ c ∈ gap, isSpace c = true) ∧ str = gap ++ (token ++ behind) ∧
      matchToken (token ++ behind) = some (token, behind) ∧ ReadsAsWord folding token ∧
      WordsAt folding behind words rest := by
  cases block with
  | word spaces found isWord more => exact ⟨_, _, spaces, rfl, found, isWord, more⟩

theorem WordsAt.blank {str token rest : Text} {words : List Text}
    (block : WordsAt folding str (token :: words) rest) :
    WordsAt folding (' ' :: str) (token :: words) rest := by
  obtain ⟨gap, behind, spaces, rfl, found, isWord, more⟩ := block.cons_inv folding
  have wider : ∀ c ∈ ' ' :: gap, isSpace c = true :=
    List.forall_mem_cons.mpr ⟨by decide, spaces⟩
  exact .word wider found isWord more

theorem gap_eq_nil {gap token behind other : Text} {first : Char} {more : Text}
    (spaces : ∀ c ∈ gap, isSpace c = true) (shape : token = first :: more)
    (visible : isSpace first = false) (whole : token ++ other = gap ++ (token ++ behind)) :
    gap = [] ∧ other = behind := by
  rcases gap with _ | ⟨space, gap⟩
  · exact ⟨rfl, List.append_cancel_left whole⟩
  · rw [shape, List.cons_append, List.cons_append] at whole
    injection whole with same _
    have hidden := spaces space List.mem_cons_self
    rw [← same, visible] at hidden
    cases hidden

/-- The words of a search term are the same with other text set apart behind them. -/
theorem wordsAt_moved {words : List Text} {behind other rest : Text} (nonempty : words ≠ [])
    (apart : SetApart behind) (otherApart : SetApart other) (ended : behind = [] → other = [])
    (block : WordsAt folding ([' '].intercalate words ++ behind) words rest) :
    rest = behind ∧ WordsAt folding ([' '].intercalate words ++ other) words other := by
  induction words with
  | nil => exact absurd rfl nonempty
  | cons word words inductionHypothesis =>
      obtain ⟨gap, after, spaces, whole, found, isWord, more⟩ := block.cons_inv folding
      obtain ⟨first, several, shape, visible⟩ := (matched_of_matchToken found).visible
      by_cases last : words = []
      · subst last
        cases more
        have single : [' '].intercalate [word] = word := by simp
        rw [single] at whole ⊢
        obtain ⟨-, rfl⟩ := gap_eq_nil spaces shape visible whole
        refine ⟨rfl, ?_⟩
        have moved : matchToken (word ++ other) = some (word, other) := by
          rcases apart with rfl | ⟨next, later, rfl, nextVisible⟩
          · rw [ended rfl]
            exact found
          · exact matchToken_moved nextVisible otherApart found
        have noGap : ∀ c ∈ ([] : Text), isSpace c = true := List.forall_mem_nil _
        exact .word noGap moved isWord (.done other)
      · rw [intercalate_cons word last, List.append_assoc, List.cons_append] at whole ⊢
        obtain ⟨-, rfl⟩ := gap_eq_nil spaces shape visible whole
        obtain ⟨second, further, rfl⟩ := List.exists_cons_of_ne_nil last
        obtain ⟨blanks, beyond, areBlanks, isText, secondFound, secondWord, furtherBlock⟩ :=
          more.cons_inv folding
        obtain ⟨head, tail, secondShape, headVisible⟩ := (matched_of_matchToken secondFound).visible
        have startsVisibly : ∃ tail, [' '].intercalate (second :: further) = head :: tail := by
          by_cases alone : further = []
          · exact ⟨tail, by rw [alone, secondShape]; simp⟩
          · exact ⟨_, by rw [intercalate_cons second alone, secondShape]; rfl⟩
        obtain ⟨later, start⟩ := startsVisibly
        rcases blanks with _ | ⟨blank, blanks⟩
        · rw [List.nil_append, secondShape] at isText
          injection isText with isBlank _
          rw [← isBlank] at headVisible
          exact absurd headVisible (by decide)
        · injection isText with _ isText
          have laterBlock : WordsAt folding ([' '].intercalate (second :: further) ++ behind)
              (second :: further) rest := by
            rw [isText]
            exact .word (fun c member => areBlanks c (List.mem_cons_of_mem blank member)) secondFound
              secondWord furtherBlock
          obtain ⟨rfl, movedBlock⟩ := inductionHypothesis last laterBlock
          refine ⟨rfl, ?_⟩
          have nextApart : SetApart (' ' :: ([' '].intercalate (second :: further) ++ other)) :=
            .inr ⟨head, later ++ other, by rw [start]; rfl, headVisible⟩
          rw [start, List.cons_append] at found
          have moved := matchToken_moved headVisible nextApart found
          have noGap : ∀ c ∈ ([] : Text), isSpace c = true := List.forall_mem_nil _
          exact .word noGap moved isWord (movedBlock.blank folding)

/-! ## All terms -/

/-- A search term that comes back: its text is that of its words, each with one blank between, and
none of them has a known operator. With another term behind it the last word ends where it ends,
and the other is no search term. -/
structure SearchKept (term : NarrowTerm) (terms : List NarrowTerm) : Prop where
  positive : term.negated = false
  nonempty : term.operand ≠ []
  words : [' '].intercalate (tokens term.operand) = term.operand
  areWords : ∀ word ∈ tokens term.operand, ReadsAsWord folding word
  apart : terms ≠ [] → tokens (term.operand ++ " x".toList) = tokens term.operand ++ ["x".toList]
  next : ∀ other ∈ terms.head?, other.operator ≠ "search".toList

/-- A term that comes back with these terms behind it. The operand of an operator keeps its white
space, and is empty at the end only. -/
def TermKept (term : NarrowTerm) (terms : List NarrowTerm) : Prop :=
  if term.operator = "search".toList then SearchKept folding term terms
  else OperandKept folding term ∧ (term.operand = [] → terms = [])

/-- The terms that come back. -/
def TermsKept : List NarrowTerm → Prop
  | [] => True
  | term :: terms => TermKept folding term terms ∧ TermsKept terms

theorem SearchKept.startsVisibly {term : NarrowTerm} {terms : List NarrowTerm}
    (kept : SearchKept folding term terms) :
    ∃ first more, term.operand = first :: more ∧ isSpace first = false := by
  rcases tokens_cases term.operand with none | ⟨gap, token, rest, -, -, found, isFirst⟩
  · have empty := kept.words
    rw [none] at empty
    exact absurd empty.symm kept.nonempty
  · obtain ⟨first, more, shape, visible⟩ := (matched_of_matchToken found).visible
    have whole := kept.words
    rw [isFirst] at whole
    by_cases last : tokens rest = []
    · exact ⟨first, more, by rw [← whole, last, shape]; simp, visible⟩
    · exact ⟨first, _, by rw [← whole, intercalate_cons token last, shape]; rfl, visible⟩

theorem setApart_unparseRest {terms : List NarrowTerm}
    (read : ∀ term ∈ terms, ReadTerm folding term) (kept : TermsKept folding terms) :
    SetApart (unparseRest folding terms) := by
  rcases terms with _ | ⟨term, terms⟩
  · exact .inl rfl
  · have startsVisibly :
        ∃ first more, unparseTerm folding term = first :: more ∧ isSpace first = false := by
      have termKept := kept.1
      rcases read term List.mem_cons_self with isSearch | keyed
      · unfold TermKept at termKept
        rw [if_pos isSearch] at termKept
        rw [unparseTerm_of_search folding isSearch]
        exact termKept.startsVisibly folding
      · obtain ⟨first, more, shape⟩ := List.exists_cons_of_ne_nil keyed.isName.nonempty
        refine ⟨first, _, by rw [unparseTerm_of_keyed folding keyed, shape]; rfl, ?_⟩
        exact (noOther_of_operatorChar (keyed.isName.operatorChars first (by rw [shape]; simp))).1
    obtain ⟨first, more, shape, visible⟩ := startsVisibly
    refine .inr ⟨first, more ++ unparseRest folding terms, ?_, visible⟩
    rw [unparseRest, if_neg (List.cons_ne_nil term terms), unparse_cons, shape]
    rfl

/-- The text of a term starts with a token of it, or with a word for a search term that is kept. -/
theorem head_tokens_unparse {term : NarrowTerm} {terms : List NarrowTerm}
    (keyed : KeyedTerm folding term) :
    ∀ token ∈ (tokens (unparse folding (term :: terms))).head?, ¬ ReadsAsWord folding token := by
  obtain ⟨operand, rest, -, found⟩ := matchToken_name keyed.isName
    (encodeOperand term.operand ++ unparseRest folding terms)
  have text : unparse folding (term :: terms) =
      signText term.negated ++ canonicalizeOperator folding term.operator ++
        ':' :: (encodeOperand term.operand ++ unparseRest folding terms) := by
    rw [unparse_cons, unparseTerm_of_keyed folding keyed, List.append_assoc, List.cons_append]
  rw [text, tokens_of_match found]
  intro token isHead
  cases isHead
  exact keyed_signed folding keyed.operator term.negated operand

theorem SearchKept.tokens_ne_nil {term : NarrowTerm} {terms : List NarrowTerm}
    (kept : SearchKept folding term terms) : tokens term.operand ≠ [] := by
  intro none
  have empty := kept.words
  rw [none] at empty
  exact kept.nonempty empty.symm

/-- The text of a search term that is kept is read as the words of its operand. -/
theorem SearchKept.wordsAt {term : NarrowTerm} {terms : List NarrowTerm}
    (kept : SearchKept folding term terms) (isSearch : term.operator = "search".toList)
    (read : ∀ other ∈ terms, ReadTerm folding other) (laterKept : TermsKept folding terms) :
    WordsAt folding (unparse folding (term :: terms)) (tokens term.operand)
      (unparseRest folding terms) := by
  let behind : Text := if terms = [] then [] else " x".toList
  have apart : SetApart behind := by
    unfold behind
    split_ifs
    · exact .inl rfl
    · exact .inr ⟨'x', [], rfl, by decide⟩
  have whole : tokens (term.operand ++ behind) = tokens term.operand ++ tokens behind := by
    unfold behind
    split_ifs with last
    · rw [List.append_nil]
      exact (List.append_nil _).symm
    · rw [kept.apart last]
      exact congrArg (tokens term.operand ++ ·) (by decide)
  have ended : behind = [] → unparseRest folding terms = [] := by
    unfold behind
    split_ifs with last
    · intro _
      rw [last]
      rfl
    · exact fun none => absurd none (by decide)
  obtain ⟨rest, block, -⟩ := exists_wordsAt folding whole kept.areWords
  have words := kept.words
  rw [← words] at block
  obtain ⟨-, moved⟩ := wordsAt_moved folding (kept.tokens_ne_nil folding) apart
    (setApart_unparseRest folding read laterKept) ended (by
      rw [words] at block ⊢
      exact block)
  rw [words] at moved
  rw [unparse_cons, unparseTerm_of_search folding isSearch]
  exact moved

/-- A search term that is kept is read again, and the other terms behind it. -/
theorem parse_unparse_search {term : NarrowTerm} {terms : List NarrowTerm}
    (isSearch : term.operator = "search".toList) (kept : SearchKept folding term terms)
    (read : ∀ other ∈ terms, ReadTerm folding other) (laterKept : TermsKept folding terms) :
    parse folding (unparse folding (term :: terms)) =
      ⟨false, "search".toList, term.operand⟩ :: parse folding (unparse folding terms) := by
  have next : ∀ token ∈ (tokens (unparseRest folding terms)).head?,
      ¬ ReadsAsWord folding token := by
    rw [tokens_unparseRest]
    rcases terms with _ | ⟨second, later⟩
    · exact fun token isHead => by cases isHead
    · exact head_tokens_unparse folding
        ((read second List.mem_cons_self).resolve_left (kept.next second rfl))
  have first := FirstTerm.search (kept.wordsAt folding isSearch read laterKept)
    (kept.tokens_ne_nil folding) next
  rw [first.parse_eq, kept.words, parse_unparseRest]

/-- The words of a search term behind this one would be read with it. -/
theorem notSearch_of_next {terms : List NarrowTerm}
    (read : ∀ other ∈ terms, ReadTerm folding other) (kept : TermsKept folding terms)
    (next : ∀ token ∈ (tokens (unparse folding terms)).head?, ¬ ReadsAsWord folding token) :
    ∀ second ∈ terms.head?, second.operator ≠ "search".toList := by
  intro second isSecond isSearch
  obtain ⟨later, rfl⟩ := List.head?_eq_some_iff.mp isSecond
  have secondKept := kept.1
  unfold TermKept at secondKept
  rw [if_pos isSearch] at secondKept
  have block := secondKept.wordsAt folding isSearch
    (fun other member => read other (List.mem_cons_of_mem second member)) kept.2
  obtain ⟨word, words, areSecond⟩ :=
    List.exists_cons_of_ne_nil (secondKept.tokens_ne_nil folding)
  refine next word ?_ (secondKept.areWords word (by rw [areSecond]; simp))
  rw [block.tokens_eq, areSecond]
  rfl

/-- A search term that came back with the terms behind it is one that is kept. -/
theorem searchKept_of_sameTerms {term : NarrowTerm} {terms : List NarrowTerm}
    (isSearch : term.operator = "search".toList) (read : ∀ other ∈ terms, ReadTerm folding other)
    (laterKept : List.Forall₂ (SameTerm folding) terms (parse folding (unparse folding terms)) →
      TermsKept folding terms)
    (same : List.Forall₂ (SameTerm folding) (term :: terms)
      (parse folding (unparse folding (term :: terms)))) :
    SearchKept folding term terms ∧ TermsKept folding terms := by
  obtain ⟨parsed, more, sameTerm, sameMore, isParsed⟩ := List.forall₂_cons_left_iff.mp same
  obtain ⟨rest, first, rfl⟩ := exists_firstTerm folding isParsed
  obtain ⟨taken, whole, ends, positive, shorter⟩ := first.exists_taken folding
  have count := congrArg visibleCount whole
  rw [visibleCount_unparse_cons, unparseTerm_of_search folding isSearch,
    visibleCount_append] at count
  have notAhead : ¬ visibleCount rest < visibleCount (unparse folding terms) := fun fewer =>
    not_sameTerms_of_ahead folding read (ahead_of_fewer folding whole ends fewer) sameMore
  rw [sameTerm.operand] at shorter
  rw [unparse_cons, unparseTerm_of_search folding isSearch] at first whole
  generalize written : term.operand ++ unparseRest folding terms = text at first whole
  cases first with
  | @token gap token rest spaces found keyed =>
      -- the token holds more than its operand
      have longer := visibleCount_tokenTerm_lt folding keyed
      have hidden := visibleCount_eq_zero.mpr spaces
      have isTaken : taken = gap ++ token :=
        List.append_cancel_right (whole.symm.trans (List.append_assoc _ _ _).symm)
      rw [isTaken, visibleCount_append] at count
      rw [sameTerm.operand] at longer
      omega
  | @search _ _ words block nonempty next =>
      have isOperand : [' '].intercalate words = term.operand := sameTerm.operand
      have sameTokens : tokens rest = tokens (unparse folding terms) := by
        rw [← tokens_unparseRest]
        refine tokens_eq_of_visibleCount whole written.symm ?_
        rw [visibleCount_unparseRest]
        omega
      have sameLater : parse folding rest = parse folding (unparse folding terms) := by
        rw [parse_eq_parseTokens, sameTokens, ← parse_eq_parseTokens]
      rw [sameLater] at sameMore
      have kept := laterKept sameMore
      have apart := setApart_unparseRest folding read kept
      rw [← written, ← isOperand] at block
      -- the words of the operand by itself, and with another word behind it
      obtain ⟨isRest, alone⟩ := wordsAt_moved folding nonempty apart (.inl rfl) (fun _ => rfl) block
      rw [isOperand, List.append_nil] at alone
      have areTokens : tokens term.operand = words := by
        rw [alone.tokens_eq]
        exact List.append_nil words
      refine ⟨⟨sameTerm.negated.symm, ?_, by rw [areTokens, isOperand], ?_, ?_, ?_⟩, kept⟩
      · intro empty
        rw [empty] at areTokens
        exact nonempty areTokens.symm
      · rw [areTokens]
        exact block.areWords
      · intro notLast
        have follows : unparseRest folding terms = [] → " x".toList = [] := by
          rw [unparseRest, if_neg notLast]
          exact fun none => by cases none
        obtain ⟨-, moved⟩ := @wordsAt_moved folding words (unparseRest folding terms) " x".toList rest
          nonempty apart (.inr ⟨'x', [], rfl, by decide⟩) follows block
        rw [isOperand] at moved
        rw [moved.tokens_eq, areTokens]
        exact congrArg (words ++ ·) (by decide)
      · rw [sameTokens] at next
        exact notSearch_of_next folding read kept next

/-- A term without an operand does not come back with other terms behind it. -/
theorem not_sameTerms_of_empty {term : NarrowTerm} {terms : List NarrowTerm}
    (keyed : KeyedTerm folding term) (empty : term.operand = []) (notLast : terms ≠ [])
    (read : ∀ other ∈ terms, ReadTerm folding other)
    (laterKept : List.Forall₂ (SameTerm folding) terms (parse folding (unparse folding terms)) →
      TermsKept folding terms) :
    ¬ List.Forall₂ (SameTerm folding) (term :: terms)
      (parse folding (unparse folding (term :: terms))) := by
  intro same
  have text : unparse folding (term :: terms) =
      signText term.negated ++ canonicalizeOperator folding term.operator ++
        ':' :: ' ' :: unparse folding terms := by
    rw [unparse_cons, unparseTerm_of_keyed folding keyed, empty, unparseRest, if_neg notLast]
    simp [encodeOperand_eq_flatMap]
  obtain ⟨operand, rest, behind, found⟩ :=
    matchToken_name keyed.isName (' ' :: unparse folding terms)
  have whole : unparse folding (term :: terms) =
      (signText term.negated ++ canonicalizeOperator folding term.operator ++ ':' :: operand) ++
        rest := by
    rw [text, behind]
    simp
  have count := congrArg visibleCount behind
  rw [visibleCount_cons_of_space (by decide), visibleCount_append] at count
  rw [parse_eq_parseTokens, text, tokens_of_match found,
    parseTokens_signed folding keyed.operator, List.forall₂_cons, ← parse_eq_parseTokens] at same
  by_cases takes : 0 < visibleCount operand
  · exact not_sameTerms_of_ahead folding read
      (ahead_of_fewer folding whole (matched_of_matchToken found).ends (by omega)) same.2
  · -- nothing is taken, so that the later terms are kept and start with a word, which is taken
    have sameTokens : tokens rest = tokens (unparse folding terms) :=
      @tokens_eq_of_visibleCount _ _ [' '] _ _ behind rfl (by omega)
    have sameLater := same.2
    rw [parse_eq_parseTokens, sameTokens, ← parse_eq_parseTokens] at sameLater
    rcases setApart_unparseRest folding read (laterKept sameLater) with none | found'
    · rw [unparseRest, if_neg notLast] at none
      cases none
    · obtain ⟨first, more, shape, visible⟩ := found'
      rw [unparseRest, if_neg notLast] at shape
      injection shape with _ shape
      obtain ⟨word, left, positive, takesWord⟩ := matchToken_takes keyed.isName visible more
      rw [shape, takesWord] at found
      have isWord := List.append_cancel_left (congrArg Prod.fst (Option.some.inj found))
      injection isWord with _ isWord
      rw [isWord] at positive
      exact takes positive

/-- Terms come back exactly if they are kept. -/
theorem sameTerms_iff_termsKept {terms : List NarrowTerm}
    (read : ∀ term ∈ terms, ReadTerm folding term) :
    List.Forall₂ (SameTerm folding) terms (parse folding (unparse folding terms)) ↔
      TermsKept folding terms := by
  induction terms with
  | nil => exact iff_of_true .nil trivial
  | cons term terms inductionHypothesis =>
      have readLater : ∀ other ∈ terms, ReadTerm folding other := fun other member =>
        read other (List.mem_cons_of_mem term member)
      have later := inductionHypothesis readLater
      rw [TermsKept, TermKept]
      rcases read term List.mem_cons_self with isSearch | keyed
      · rw [if_pos isSearch]
        constructor
        · exact searchKept_of_sameTerms folding isSearch readLater later.mp
        · rintro ⟨kept, laterKept⟩
          rw [parse_unparse_search folding isSearch kept readLater laterKept]
          refine .cons ⟨kept.positive.symm, ?_, rfl⟩ (later.mpr laterKept)
          rw [isSearch, canonicalizeOperator_of_keyed folding (by decide)]
      rw [if_neg keyed.notSearch]
      by_cases empty : term.operand = []
      · have kept : OperandKept folding term := by
          unfold OperandKept
          rw [empty]
          split_ifs <;> exact List.forall_mem_nil _
        by_cases last : terms = []
        · -- nothing follows the colon, and the whole text is one token
          subst last
          rw [parse_unparse_empty folding keyed empty]
          exact iff_of_true (.cons ⟨rfl, rfl, empty.symm⟩ .nil) ⟨⟨kept, fun _ => rfl⟩, trivial⟩
        · -- the colon takes what follows it, and the reader is ahead of the later terms
          refine iff_of_false ?_ fun all => last (all.1.2 empty)
          exact not_sameTerms_of_empty folding keyed empty last readLater later.mp
      · rw [parse_unparse_operand folding keyed empty, List.forall₂_cons]
        by_cases kept : OperandKept folding term
        · have nothingLeft : (term.operand.dropWhile fun c => !isOtherSpace c) = [] := by
            rw [List.dropWhile_eq_nil_iff]
            intro c member
            simp [isOtherSpace_of_operandKept folding kept c member]
          have same : SameTerm folding term ⟨term.negated,
              canonicalizeOperator folding term.operator, trim (readBack folding term)⟩ :=
            ⟨rfl, rfl, (trim_readBack_iff folding keyed.trimmed).mpr kept⟩
          rw [nothingLeft, show encodeOperand [] = [] from rfl, List.nil_append,
            tokens_unparseRest, ← parse_eq_parseTokens, later]
          exact and_congr_left fun _ => iff_of_true same ⟨kept, fun none => absurd none empty⟩
        · refine iff_of_false ?_ fun all => kept all.1.1
          rintro ⟨same, -⟩
          exact kept ((trim_readBack_iff folding keyed.trimmed).mp same.operand)

/-! ## Parsed texts -/

theorem readTerm_maybeAddSearchTerms {state : ParseState}
    (read : ∀ term ∈ state.terms, ReadTerm folding term) :
    ∀ term ∈ state.maybeAddSearchTerms.terms, ReadTerm folding term := by
  unfold ParseState.maybeAddSearchTerms
  split_ifs
  · intro term member
    rcases List.mem_append.mp member with before | isSearch
    · exact read term before
    · rw [List.mem_singleton.mp isSearch]
      exact .inl rfl
  · exact read

theorem readTerm_tokenTerm {token : Text} (keyed : ¬ ReadsAsWord folding token) :
    ReadTerm folding (tokenTerm token) := by
  unfold ReadsAsWord at keyed
  rw [not_or, not_or] at keyed
  by_cases isSearch : (tokenTerm token).operator = "search".toList
  · exact .inl isSearch
  · exact .inr ⟨isSearch, (operatorToPrefix_ne_iff folding _ _).mp keyed.2.2, trimmed_trim _⟩

theorem readTerm_parseToken {state : ParseState} (token : Text)
    (read : ∀ term ∈ state.terms, ReadTerm folding term) :
    ∀ term ∈ (parseToken folding state token).terms, ReadTerm folding term := by
  by_cases word : ReadsAsWord folding token
  · rw [parseToken_of_word folding word]
    exact read
  · rw [parseToken_of_term folding word]
    intro term member
    simp only [ParseState.after, List.append_nil] at member
    rcases List.mem_append.mp member with before | isToken
    · exact readTerm_maybeAddSearchTerms folding read term before
    · rw [List.mem_singleton.mp isToken]
      exact readTerm_tokenTerm folding word

theorem readTerm_of_mem_parse {str : Text} :
    ∀ term ∈ parse folding str, ReadTerm folding term := by
  have run : ∀ (tokenList : List Text) (state : ParseState),
      (∀ term ∈ state.terms, ReadTerm folding term) →
        ∀ term ∈ (tokenList.foldl (parseToken folding) state).terms, ReadTerm folding term := by
    intro tokenList
    induction tokenList with
    | nil => exact fun _ read => read
    | cons token tokenList inductionHypothesis =>
        intro state read
        exact inductionHypothesis _ (readTerm_parseToken folding token read)
  exact readTerm_maybeAddSearchTerms folding
    (run (tokens str) ⟨[], []⟩ (List.forall_mem_nil _))

/-- The operators of narrows whose operands are no users. -/
def narrowOperators : List Text :=
  ["channel".toList, "topic".toList, "is".toList, "has".toList, "in".toList, "near".toList,
    "id".toList, "channels".toList]

/-- A term for the search bar. -/
structure ValidTerm (term : NarrowTerm) : Prop where
  operator : canonicalizeOperator folding term.operator ∈ narrowOperators
  nonempty : term.operand ≠ []
  trimmed : Trimmed term.operand

theorem narrowOperators_keyed :
    ∀ operator ∈ narrowOperators, operator ∈ keyedOperators ∧ operator ∉ userOperators ∧
      operator ≠ "search".toList := by
  decide

theorem ValidTerm.keyed {term : NarrowTerm} (valid : ValidTerm folding term) :
    KeyedTerm folding term where
  notSearch := by
    intro isSearch
    refine (narrowOperators_keyed _ valid.operator).2.2 ?_
    rw [isSearch, canonicalizeOperator_of_keyed folding (by decide)]
  operator := (narrowOperators_keyed _ valid.operator).1
  trimmed := valid.trimmed

theorem termsKept_iff_of_valid {terms : List NarrowTerm}
    (valid : ∀ term ∈ terms, ValidTerm folding term) :
    TermsKept folding terms ↔ ∀ term ∈ terms, ∀ c ∈ term.operand, isOtherSpace c = false := by
  induction terms with
  | nil => exact iff_of_true trivial (List.forall_mem_nil _)
  | cons term terms inductionHypothesis =>
      have validTerm := valid term List.mem_cons_self
      have later := inductionHypothesis fun other member =>
        valid other (List.mem_cons_of_mem term member)
      rw [TermsKept, TermKept, if_neg validTerm.keyed.notSearch, OperandKept,
        if_neg (narrowOperators_keyed _ validTerm.operator).2.1, later, List.forall_mem_cons]
      have notEmpty : term.operand = [] → terms = [] := fun empty =>
        absurd empty validTerm.nonempty
      rw [and_iff_left notEmpty]

/-- Terms come back from the search bar exactly if their operands hold no white space but plain
blanks. The terms of a text come back exactly if moreover the operands of users hold no blanks, no
operand of an operator is empty but the last one, and the search terms are kept. -/
theorem searchBar_roundTrip_iff :
    (∀ terms : List NarrowTerm, (∀ term ∈ terms, ValidTerm folding term) →
      (List.Forall₂ (SameTerm folding) terms (parse folding (unparse folding terms)) ↔
        ∀ term ∈ terms, ∀ c ∈ term.operand, isOtherSpace c = false)) ∧
    ∀ str : Text,
      List.Forall₂ (SameTerm folding) (parse folding str)
          (parse folding (unparse folding (parse folding str))) ↔
        TermsKept folding (parse folding str) := by
  constructor
  · intro terms valid
    rw [← termsKept_iff_of_valid folding valid]
    exact sameTerms_iff_termsKept folding fun term member =>
      .inr (valid term member).keyed
  · intro str
    exact sameTerms_iff_termsKept folding fun term member => readTerm_of_mem_parse folding term member

end Parser

/-! ## A topic with a blank -/

def lunchTopic : NarrowTerm := ⟨true, "topic".toList, "50%+ \x22off\x22".toList⟩

theorem lunchTopic_valid : ValidTerm smallLetters lunchTopic where
  operator := show canonicalizeOperator smallLetters "topic".toList ∈ narrowOperators by decide
  nonempty := show "50%+ \x22off\x22".toList ≠ [] by decide
  trimmed := by
    constructor
    all_goals
      intro c isEnd
      cases isEnd
      decide

/-- A text with an operator, words to search for and another operator. -/
def lunchText : Text := "topic:\x22a b\x22 lunch  \x22next week\x22 -is:dm".toList

theorem searchBar_roundTrip_iff_lunchTopic :
    List.Forall₂ (SameTerm smallLetters) [lunchTopic]
        (parse smallLetters (unparse smallLetters [lunchTopic])) ∧
      List.Forall₂ (SameTerm smallLetters) (parse smallLetters lunchText)
        (parse smallLetters (unparse smallLetters (parse smallLetters lunchText))) := by
  obtain ⟨written, parsed⟩ := searchBar_roundTrip_iff smallLetters
  have read : parse smallLetters lunchText =
      [⟨false, "topic".toList, "a b".toList⟩,
        ⟨false, "search".toList, "lunch \x22next week\x22".toList⟩,
        ⟨true, "is".toList, "dm".toList⟩] := by
    decide
  constructor
  · exact (written [lunchTopic] (List.forall_mem_singleton.mpr lunchTopic_valid)).mpr
      (List.forall_mem_singleton.mpr (by decide))
  · refine (parsed lunchText).mpr ?_
    rw [read]
    refine ⟨?_, ?_, ?_, trivial⟩
    · rw [TermKept, if_neg (by decide)]
      exact ⟨by decide, by decide⟩
    · rw [TermKept, if_pos rfl]
      exact ⟨rfl, by decide, by decide, by decide, fun _ => by decide, by decide⟩
    · rw [TermKept, if_neg (by decide)]
      exact ⟨by decide, by decide⟩

/-- A topic with a no-break space is read as a topic and a word to search for. -/
theorem noBreakSpace_not_sameTerm :
    ¬ ∀ terms : List NarrowTerm, (∀ term ∈ terms, ValidTerm smallLetters term) →
      List.Forall₂ (SameTerm smallLetters) terms
        (parse smallLetters (unparse smallLetters terms)) := by
  intro roundTrip
  have valid : ValidTerm smallLetters ⟨false, "topic".toList, "a\u00a0b".toList⟩ := by
    refine ⟨by decide, by decide, ?_⟩
    constructor
    all_goals
      intro c isEnd
      cases isEnd
      decide
  have read : parse smallLetters
      (unparse smallLetters [⟨false, "topic".toList, "a\u00a0b".toList⟩]) =
        [⟨false, "topic".toList, "a".toList⟩, ⟨false, "search".toList, "b".toList⟩] := by
    decide
  have same := roundTrip _ (List.forall_mem_singleton.mpr valid)
  rw [read] at same
  exact absurd same.length_eq (by decide)

end Zulip.Client.SearchBar
