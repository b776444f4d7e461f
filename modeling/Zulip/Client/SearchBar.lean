import Zulip.Client.NarrowUrl

/-!
# The search bar

`Filter.unparse` writes the terms of a narrow as the text of the search bar, `Filter.parse`
reads such text. The tokens of the text are the matches of a regular expression over quotes,
colons and white space.
-/

namespace Zulip.Client.SearchBar

open Zulip.Foundation
open Zulip.Client.NarrowUrl (Text CaseFolding NarrowTerm)

/-! ## White space -/

/-- The characters of `\s`, which `trim` removes as well. -/
def isSpace (c : Char) : Bool :=
  ['\t', '\n', '\x0b', '\x0c', '\r', ' ', '\u00a0', '\u1680', '\u2028', '\u2029', '\u202f',
    '\u205f', '\u3000', '\ufeff'].contains c || decide ('\u2000' ≤ c ∧ c ≤ '\u200a')

/-- `trimStart`. -/
def trimStart (text : Text) : Text := text.dropWhile isSpace

/-- `trim`. -/
def trim (text : Text) : Text := (trimStart (trimStart text).reverse).reverse

/-! ## Operators -/

/-- `Filter.canonicalize_operator`. -/
def canonicalizeOperator (folding : CaseFolding) (operator : Text) : Text :=
  let operator := folding.lower operator
  if operator = "pm-with".toList then "dm".toList
  else if operator = "group-pm-with".toList then "dm-including".toList
  else if operator = "from".toList then "sender".toList
  else if operator = "subject".toList then "topic".toList
  else if operator = "stream".toList then "channel".toList
  else if operator = "streams".toList then "channels".toList
  else operator

/-- `USER_OPERATORS`. -/
def userOperators : List Text :=
  ["dm-including".toList, "dm".toList, "sender".toList, "from".toList, "pm-with".toList,
    "group-pm-with".toList]

/-- The words that describe an operator, beside `search`. -/
def operatorPrefixes : List (Text × String) :=
  [("channel".toList, "channel"), ("channels".toList, "channels"),
    ("near".toList, "messages around"), ("has".toList, "messages with"),
    ("id".toList, "message ID"), ("topic".toList, "topic"), ("sender".toList, "sent by"),
    ("dm".toList, "direct messages with"),
    ("dm-including".toList, "direct messages including"),
    ("in".toList, "messages in"), ("is".toList, "messages that are")]

/-- `Filter.operator_to_prefix`. -/
def operatorToPrefix (folding : CaseFolding) (operator : Text) (negated : Bool) : String :=
  let operator := canonicalizeOperator folding operator
  if operator = "search".toList then
    if negated then "exclude" else "search for"
  else
    let verb := if negated then "exclude " else ""
    match operatorPrefixes.lookup operator with
    | some words => verb ++ words
    | none => ""

/-! ## Operands -/

/-- `replaceAll`, of one character. -/
def replaceAll (pattern : Char) (replacement text : Text) : Text :=
  text.flatMap fun c => if c = pattern then replacement else [c]

/-- `Filter.encodeOperand`. -/
def encodeOperand (operand : Text) : Text :=
  replaceAll '\x22' "%22".toList
    (replaceAll ' ' ['+'] (replaceAll '+' "%2B".toList (replaceAll '%' "%25".toList operand)))

/-- The loop of `robust_url_decode`, from the given end on. A slice that ends inside a character
fails or succeeds with the slices beside it, so that the ends are counted in characters. -/
def decodeUpTo (str : Text) : Nat → Text
  | 0 => []
  | last + 1 =>
      match PercentEncoding.decode (str.take (last + 1)) with
      | some decoded => decoded
      | none => decodeUpTo str last

/-- `robust_url_decode`. -/
def robustUrlDecode (str : Text) : Text := decodeUpTo str str.length

/-- `Filter.decodeOperand`. -/
def decodeOperand (encoded operator : Text) : Text :=
  let encoded := replaceAll '\x22' [] encoded
  let encoded := if operator ∈ userOperators then encoded else replaceAll '+' [' '] encoded
  trim (robustUrlDecode encoded)

/-! ## Tokens -/

/-- The longest run of characters that are no white space, if there is one. -/
def matchWord (str : Text) : Option (Text × Text) :=
  let word := str.takeWhile fun c => !isSpace c
  if word = [] then none else some (word, str.dropWhile fun c => !isSpace c)

/-- `"[^"]+"?|\S+` at the start of a text, with the rest behind the match. -/
def matchOperand : Text → Option (Text × Text)
  | [] => none
  | first :: str =>
      let quoted := str.takeWhile fun c => c != '\x22'
      if first = '\x22' ∧ quoted ≠ [] then
        match str.dropWhile fun c => c != '\x22' with
        | [] => some (first :: quoted, [])
        | closing :: rest => some (first :: quoted ++ [closing], rest)
      else matchWord (first :: str)

/-- A character of an operator. -/
def isOperatorChar (c : Char) : Bool := !isSpace c && c != ':'

/-- `([^\s:]+: ?)?("[^"]+"?|\S+)` at the start of a text. Without the optional blank the operand
would have to start with the blank, so that only the whole operator is given up again. -/
def matchToken (str : Text) : Option (Text × Text) :=
  let operator := str.takeWhile isOperatorChar
  match operator, str.dropWhile isOperatorChar with
  | _ :: _, ':' :: ' ' :: rest =>
      match matchOperand rest with
      | some (operand, rest) => some (operator ++ ':' :: ' ' :: operand, rest)
      | none => matchOperand str
  | _ :: _, ':' :: rest =>
      match matchOperand rest with
      | some (operand, rest) => some (operator ++ ':' :: operand, rest)
      | none => matchOperand str
  | _, _ => matchOperand str

/-- The matches in a text, in at most `fuel` places; each place takes a character at least. -/
def tokensWithin : Nat → Text → List Text
  | _, [] => []
  | 0, _ :: _ => []
  | fuel + 1, c :: str =>
      match matchToken (c :: str) with
      | some (token, rest) => token :: tokensWithin fuel rest
      | none => tokensWithin fuel str

/-- `str.match(…)`, where no match is the empty list. -/
def tokens (str : Text) : List Text := tokensWithin str.length str

/-! ## Parsing and unparsing -/

section Parser

variable (folding : CaseFolding)

/-- The terms so far and the pending words of a search term. -/
structure ParseState where
  terms : List NarrowTerm
  searchTerm : List Text

/-- `maybe_add_search_terms`. -/
def ParseState.maybeAddSearchTerms (state : ParseState) : ParseState :=
  if 0 < state.searchTerm.length then
    ⟨state.terms ++ [⟨false, "search".toList, [' '].intercalate state.searchTerm⟩], []⟩
  else state

/-- A token that is kept as a word of a search term. -/
def ParseState.pushWord (state : ParseState) (token : Text) : ParseState :=
  { state with searchTerm := state.searchTerm ++ [token] }

/-- The term of a token with a colon, before it is known whether the operator is. -/
def tokenTerm (token : Text) : NarrowTerm :=
  let parts := token.splitOn ':'
  let operator := parts.headD []
  let negated := operator.head? == some '-'
  let operator := if negated then operator.tail else operator
  ⟨negated, operator, decodeOperand ([':'].intercalate parts.tail) operator⟩

/-- The body of the loop of `Filter.parse`. -/
def parseToken (state : ParseState) (token : Text) : ParseState :=
  if token.head? = some '\x22' ∨ (token.splitOn ':').length = 1 then state.pushWord token
  else
    let term := tokenTerm token
    if operatorToPrefix folding term.operator term.negated = "" then state.pushWord token
    else
      let state := state.maybeAddSearchTerms
      { state with terms := state.terms ++ [term] }

/-- `Filter.parse`. -/
def parse (str : Text) : List NarrowTerm :=
  ((tokens str).foldl (parseToken folding) ⟨[], []⟩).maybeAddSearchTerms.terms

/-- The text of one term. -/
def unparseTerm (term : NarrowTerm) : Text :=
  if term.operator = "search".toList then term.operand
  else
    let sign := if term.negated then ['-'] else []
    if term.operator = [] then term.operand
    else sign ++ canonicalizeOperator folding term.operator ++ ':' :: encodeOperand term.operand

/-- `Filter.unparse`. -/
def unparse (searchTerms : List NarrowTerm) : Text :=
  [' '].intercalate (searchTerms.map (unparseTerm folding))

end Parser

end Zulip.Client.SearchBar
