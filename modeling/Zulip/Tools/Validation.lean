import Zulip.Foundation.Nesting
import Zulip.Tools.Tokenizer

/-!
# Template validation

`validate` matches the tags of a template with a chain of matchers, one for each tag that is still
open, and refuses a template whose white space or whose indentation is not as it should be. It
gives back the tokens, whose end tokens then know their start tokens.
-/

namespace Zulip.Tools

open Zulip.Markdown.Fenced (isSpacePython)

/-- The strings of a set. -/
def isOneOf (names : List String) (tag : Text) : Bool := (names.map String.toList).contains tag

def htmlVoidTags : List String :=
  ["area", "base", "br", "col", "command", "embed", "hr", "img", "input", "keygen", "link", "meta",
    "param", "source", "track", "wbr"]

def htmlInlineTags : List String :=
  ["a", "b", "br", "button", "cite", "code", "em", "i", "img", "input", "kbd", "label", "object",
    "script", "select", "small", "span", "strong", "textarea"]

def isDjangoBlockTag (tag : Text) : Bool :=
  isOneOf ["autoescape", "block", "comment", "for", "if", "ifequal", "macro", "verbatim",
    "blocktrans", "trans", "raw", "with"] tag

inductive Flavor where
  | start
  | «end»
deriving DecidableEq

/-- The flavor of a token; the kinds are all there, so the source's assertion never fails. -/
def tagFlavor (token : Token) : Option Flavor :=
  match token.kind with
  | .code | .djangoComment | .handlebarsComment | .handlebarsPartial | .htmlComment | .htmlDoctype
  | .htmlSingleton | .indent | .newline | .templateVar | .text | .whitespace => none
  | .handlebarsStart | .handlebarsPartialBlock | .htmlStart => some .start
  | .djangoElse | .djangoEnd | .handlebarsElse | .handlebarsEnd | .htmlEnd
  | .jinja2WhitespaceStrippedEnd => some .end
  | .djangoStart | .jinja2WhitespaceStrippedStart | .jinja2WhitespaceStrippedType2Start =>
      if isDjangoBlockTag token.tag then some .start else none

/-- `start_token.tag.strip("~")` -/
def Token.bareTag (token : Token) : Text := Branch.stripChars ['~'] token.tag

def Token.isElse (token : Token) : Bool := token.tag = "else".toList

/-- Inside of these, tags may or may not close themselves. -/
def Token.isForeign (token : Token) : Bool := isOneOf ["math", "svg"] token.bareTag

/-! ## White space -/

def showNat (n : ℕ) : Text := (toString n).toList

/-- `prevent_extra_newlines`, from some newlines on. -/
def preventExtraNewlines (fn : Text) : ℕ → List Token → Except PyError Unit
  | _, [] => .ok ()
  | count, token :: tokens =>
      if token.kind ≠ .newline then preventExtraNewlines fn 0 tokens
      else if 4 ≤ count + 1 then
        .error (.templateParser ("Please avoid so many blank lines near row ".toList ++
          showNat token.line ++ " in ".toList ++ fn ++ ".".toList))
      else preventExtraNewlines fn (count + 1) tokens

/-- What the loop of `prevent_whitespace_violations` checks of a token and the one after it. -/
def checkSpaces (fn : Text) (token nextToken : Token) : Except PyError Unit :=
  if token.kind = .indent then
    if nextToken.kind = .indent ∨ nextToken.kind = .whitespace then
      .error (.assertion "programming error parsing indents".toList)
    else if nextToken.kind = .newline then
      .error (.templateParser ("Please just make row ".toList ++ showNat token.line ++
        " in ".toList ++ fn ++ " a truly blank line (no spaces).".toList))
    else if token.s.length % 4 ≠ 0 then
      .error (.templateParser (
        "\n                        Please use 4-space indents for template files. Most of our".toList ++
        "\n                        codebase (including Python and JavaScript) uses 4-space indents,".toList ++
        "\n                        so it's worth investing in configuring your editor to use".toList ++
        "\n                        4-space indents for files like".toList ++
        "\n                        ".toList ++ fn ++
        "\n\n                        The line at row ".toList ++ showNat token.line ++
        " is indented with ".toList ++ showNat token.s.length ++
        " spaces.\n                    ".toList))
    else .ok ()
  else if token.kind = .whitespace then
    if 1 < token.s.length then
      .error (.templateParser (
        "\n                        We did not expect this much whitespace at row ".toList ++
        showNat token.line ++ " column ".toList ++ showNat token.col ++ " in ".toList ++ fn ++
        ".\n                    ".toList))
    else if nextToken.kind = .newline then
      .error (.templateParser (
        "\n                        Unexpected trailing whitespace at row ".toList ++
        showNat token.line ++ " column ".toList ++ showNat token.col ++ " in ".toList ++ fn ++
        ".\n                    ".toList))
    else .ok ()
  else .ok ()

/-- The loop of `prevent_whitespace_violations`. -/
def checkAllSpaces (fn : Text) : List Token → Except PyError Unit
  | token :: nextToken :: tokens =>
      (checkSpaces fn token nextToken).bind fun _ => checkAllSpaces fn (nextToken :: tokens)
  | _ => .ok ()

def preventWhitespaceViolations (fn : Text) : List Token → Except PyError Unit
  | [] => .error .index
  | first :: tokens =>
      if first.kind = .indent ∨ first.kind = .whitespace then
        .error (.templateParser
          (" Please remove the whitespace at the beginning of ".toList ++ fn ++ ".".toList))
      else
        (preventExtraNewlines fn 0 (first :: tokens)).bind fun _ => checkAllSpaces fn tokens

/-! ## Matching tags -/

/-- An end or else token that has been matched, with the `start_token` that it gets. -/
structure Link where
  endIndex : ℕ
  endToken : Token
  startIndex : ℕ
  startToken : Token
deriving DecidableEq

/-- What a matcher closes over. -/
structure Matcher where
  startIndex : ℕ
  startToken : Token
  oldForeign : Bool
deriving DecidableEq

/-- The `State` of `validate`. The `old_matcher` of a matcher is the next one of the list, so
`depth` is its length, and below the last one is `no_start_tag`. -/
structure ValidationState where
  matchers : List Matcher
  foreign : Bool
  links : List Link
deriving DecidableEq

def ValidationState.initial : ValidationState := ⟨[], false, []⟩

/-- `report_problem`. -/
def reportProblem (startToken endToken : Token) : Option Text :=
  if startToken.bareTag = "code".toList ∧ endToken.line = startToken.line + 1 then
    some "Code tag is split across two lines.".toList
  else if endToken.isElse then
    if ¬ isOneOf ["if", "else", "unless"] startToken.bareTag then
      some ("Unexpected else/elif tag encountered after ".toList ++ startToken.bareTag ++
        " tag.".toList)
    else none
  else if startToken.bareTag ≠ endToken.bareTag then
    some ("Mismatched tags: (".toList ++ startToken.bareTag ++ " != ".toList ++ endToken.bareTag ++
      ")".toList)
  else none

/-- The error of `no_start_tag`. -/
def noStartTagMessage (fn : Text) (token : Token) : Text :=
  "\n            No start tag\n            fn: ".toList ++ fn ++
    "\n            end tag:\n                ".toList ++ token.tag ++
    "\n                line ".toList ++ showNat token.line ++ ", col ".toList ++
    showNat token.col ++ "\n            ".toList

/-- The error of a matcher that is called without a token. -/
def missingEndTagMessage (fn : Text) (startToken : Token) : Text :=
  "\n\n    Problem with ".toList ++ fn ++
    "\n    Missing end tag for the token at row ".toList ++ showNat startToken.line ++
    " ".toList ++ showNat startToken.col ++ "!\n\n".toList ++ startToken.s ++
    "\n\n    It's possible you have a typo in a token that you think is\n    matching this tag.".toList ++
    "\n                    ".toList

/-- The error of a matcher that finds a problem. -/
def problemMessage (fn problem : Text) (startToken endToken : Token) : Text :=
  "\n                    fn: ".toList ++ fn ++ "\n                   ".toList ++ problem ++
    "\n                    start:\n                        ".toList ++ startToken.s ++
    "\n                        line ".toList ++ showNat startToken.line ++ ", col ".toList ++
    showNat startToken.col ++ "\n                    end tag:\n                        ".toList ++
    endToken.bareTag ++ "\n                        line ".toList ++ showNat endToken.line ++
    ", col ".toList ++ showNat endToken.col ++ "\n                    ".toList

/-- Whether tags that close themselves are the void ones, outside of foreign elements. -/
def checkSingleton (fn : Text) (foreign : Bool) (token : Token) : Except PyError Unit :=
  if foreign then .ok ()
  else if token.kind = .htmlStart ∧ isOneOf htmlVoidTags token.tag then
    .error (.templateParser ("Tag must be self-closing: ".toList ++ token.tag ++ " at ".toList ++
      fn ++ " line ".toList ++ showNat token.line ++ ", col ".toList ++ showNat token.col))
  else if token.kind = .htmlSingleton ∧ ¬ isOneOf htmlVoidTags token.tag then
    .error (.templateParser ("Tag must not be self-closing: ".toList ++ token.tag ++
      " at ".toList ++ fn ++ " line ".toList ++ showNat token.line ++ ", col ".toList ++
      showNat token.col))
  else .ok ()

namespace ValidationState

/-- `start_tag_matcher`. -/
def startTagMatcher (state : ValidationState) (index : ℕ) (token : Token) : ValidationState :=
  { state with
    matchers := ⟨index, token, state.foreign⟩ :: state.matchers
    foreign := state.foreign || token.isForeign }

/-- `state.matcher` of a token. -/
def callMatcher (fn : Text) (state : ValidationState) (index : ℕ) (token : Token) :
    Except PyError ValidationState :=
  match state.matchers with
  | [] => .error (.templateParser (noStartTagMessage fn token))
  | matcher :: oldMatchers =>
      match reportProblem matcher.startToken token with
      | some problem =>
          .error (.templateParser (problemMessage fn problem matcher.startToken token))
      | none =>
          let links := state.links ++ [⟨index, token, matcher.startIndex, matcher.startToken⟩]
          .ok (if token.isElse then { state with links }
            else { matchers := oldMatchers, foreign := matcher.oldForeign, links })

/-- What a turn of the loop does by the flavor of the token. -/
def matchTag (fn : Text) (state : ValidationState) (index : ℕ) (token : Token) :
    Except PyError ValidationState :=
  match tagFlavor token with
  | none => .ok state
  | some .start => .ok (state.startTagMatcher index token)
  | some .end => state.callMatcher fn index token

/-- One turn of the loop over the tokens. -/
def step (fn : Text) (state : ValidationState) (entry : Token × ℕ) :
    Except PyError ValidationState :=
  (checkSingleton fn state.foreign entry.1).bind fun _ => state.matchTag fn entry.2 entry.1

/-- The matcher that is left is called without a token. -/
def finish (fn : Text) (state : ValidationState) : Except PyError (List Link) :=
  match state.matchers with
  | [] => .ok state.links
  | matcher :: _ => .error (.templateParser (missingEndTagMessage fn matcher.startToken))

end ValidationState

/-- The loop over the tokens, and the call after it. -/
def matchTags (fn : Text) (tokens : List Token) : Except PyError (List Link) :=
  (tokens.zipIdx.foldlM (ValidationState.step fn) .initial).bind (·.finish fn)

/-! ## Indentation -/

/-- `is_inline_tag`. -/
def Token.isInline (token : Token) : Bool :=
  isOneOf htmlInlineTags token.tag && decide (token.kind = .htmlStart)

/-- `has_bad_indentation`. -/
def hasBadIndentation (lines : List Text) (startToken endToken : Token) : Except PyError Bool :=
  if startToken.line + 1 < endToken.line then
    if startToken.isInline then
      match lines[endToken.line - 1]? with
      | none => .error .index
      | some endRowText =>
          .ok (endToken.s.isPrefixOf (endRowText.dropWhile isSpacePython) &&
            decide (endToken.col ≠ startToken.col))
    else .ok (decide (endToken.col ≠ startToken.col))
  else .ok false

def badIndentationMessage (fn : Text) (startToken endToken : Token) : Text :=
  "\n                fn: ".toList ++ fn ++
    "\n                Indentation for start/end tags does not match.".toList ++
    "\n                start tag: ".toList ++ startToken.s ++
    "\n\n                start:\n                    line ".toList ++ showNat startToken.line ++
    ", col ".toList ++ showNat startToken.col ++
    "\n                end:\n                    ".toList ++ endToken.bareTag ++
    "\n                    line ".toList ++ showNat endToken.line ++ ", col ".toList ++
    showNat endToken.col ++ "\n                ".toList

/-- `ensure_matching_indentation`: the tokens with a `start_token` are those of the links. -/
def ensureMatchingIndentation (fn : Text) (lines : List Text) : List Link → Except PyError Unit
  | [] => .ok ()
  | link :: links =>
      (hasBadIndentation lines link.startToken link.endToken).bind fun isBad =>
        if isBad then
          .error (.templateParser (badIndentationMessage fn link.startToken link.endToken))
        else ensureMatchingIndentation fn lines links

/-! ## The whole -/

/-- What `validate` does once the text is cut into tokens. -/
def validateTokens (fn : Text) (lines : List Text) (tokens : List Token) :
    Except PyError (List Link) :=
  (preventWhitespaceViolations fn tokens).bind fun _ =>
    (matchTags fn tokens).bind fun links =>
      (ensureMatchingIndentation fn lines links).map fun _ => links

/-- The name of a template; `None` and the empty name are the same to the first assertion only. -/
def shownName (fn : Option Text) : Text := fn.getD "<in memory file>".toList

/-- `validate`; `none` when the tokenizer does not end in time. -/
def validate (fuel : ℕ) (fn : Option Text) (text : Text) (format : Option TemplateFormat) :
    Option (Except PyError (List Token × List Link)) :=
  if fn.getD [] = [] ∧ text = [] then some (.error (.assertion []))
  else
    (tokenize fuel text format).map fun result =>
      match result with
      | .error (.formatted message) =>
          .error (.templateParser ("\n            fn: ".toList ++ shownName fn ++
            "\n            ".toList ++ message))
      | .error error => .error error
      | .ok tokens =>
          (validateTokens (shownName fn) (text.splitOn '\n') tokens).map fun links =>
            (tokens, links)

end Zulip.Tools
