import Zulip.Foundation.WhileLoop
import Zulip.Tools.TemplateScanners

/-!
# The template tokenizer

`tokenize` looks ahead, cuts a token with the scanner for what it sees, and goes on after as many
characters as the token has.
-/

namespace Zulip.Tools

open Zulip.Markdown.Fenced (isSpacePython dropEndWhile dropOptional)

/-- What `template_format` is when it is not `None`. -/
inductive TemplateFormat where
  | django
  | handlebars
deriving DecidableEq

inductive Kind where
  | code
  | htmlComment
  | handlebarsComment
  | djangoComment
  | handlebarsPartial
  | handlebarsPartialBlock
  | htmlDoctype
  | htmlSingleton
  | htmlStart
  | htmlEnd
  | handlebarsElse
  | handlebarsStart
  | handlebarsEnd
  | djangoElse
  | djangoEnd
  | djangoStart
  | jinja2WhitespaceStrippedStart
  | jinja2WhitespaceStrippedEnd
  | jinja2WhitespaceStrippedType2Start
  | templateVar
  | newline
  | indent
  | whitespace
  | text
deriving DecidableEq

structure Token where
  kind : Kind
  s : Text
  tag : Text
  line : ℕ
  col : ℕ
  lineSpan : ℕ
deriving DecidableEq

/-- The `TokenizerState`, and the variables of `tokenize`. -/
structure TokenizerState where
  i : ℕ
  line : ℕ
  col : ℕ
  inCodeBlock : Bool
  tokens : List Token
deriving DecidableEq

def TokenizerState.initial : TokenizerState := ⟨0, 1, 1, false, []⟩

/-! ## Looking ahead -/

/-- The branches of the loop of `tokenize`. -/
inductive Branch where
  | code
  | htmlComment
  | handlebarsComment
  | djangoComment
  | handlebarsPartial
  | handlebarsPartialBlock
  | htmlStart
  | htmlEnd
  | handlebarsElse
  | handlebarsStart
  | handlebarsEnd
  | djangoElse
  | djangoEnd
  | djangoStart
  | jinja2EndWhitespaceStripped
  | jinja2StartWhitespaceStrippedType2
  | templateVar
  | newline
  | spaces
  | unparsable
  | text
deriving DecidableEq

/-- `looking_at`. -/
def lookingAt (text : Text) (i : ℕ) (s : Text) : Bool := slice text i (i + s.length) = s

namespace Branch

/-- The `looking_at` function of a branch. -/
def isAhead (format : Option TemplateFormat) (text : Text) (i : ℕ) : Branch → Bool
  | .code => false
  | .htmlComment => lookingAt text i "<!--".toList
  | .handlebarsComment => lookingAt text i ['{', '{', '!']
  | .djangoComment => format = some .django && lookingAt text i ['{', '#']
  | .handlebarsPartial => format = some .handlebars && lookingAt text i ['{', '{', '>']
  | .handlebarsPartialBlock => format = some .handlebars && lookingAt text i ['{', '{', '#', '>']
  | .htmlStart => lookingAt text i ['<'] && !lookingAt text i ['<', '/']
  | .htmlEnd => lookingAt text i ['<', '/']
  | .handlebarsElse => format = some .handlebars && lookingAt text i ('{' :: '{' :: "else".toList)
  | .handlebarsStart =>
      lookingAt text i ['{', '{', '#'] || lookingAt text i ['{', '{', '^'] ||
        lookingAt text i ['{', '{', '~', '#']
  | .handlebarsEnd =>
      format = some .handlebars &&
        (lookingAt text i ['{', '{', '/'] || lookingAt text i ['{', '{', '~', '/'])
  | .djangoElse =>
      format = some .django &&
        (lookingAt text i ('{' :: "% else".toList) || lookingAt text i ('{' :: "% elif".toList) ||
          lookingAt text i ('{' :: "%- else".toList) || lookingAt text i ('{' :: "%- elif".toList))
  | .djangoEnd => format = some .django && lookingAt text i ('{' :: "% end".toList)
  | .djangoStart => format = some .django && lookingAt text i ['{', '%', ' ']
  | .jinja2EndWhitespaceStripped =>
      format = some .django && lookingAt text i ('{' :: "%- end".toList)
  | .jinja2StartWhitespaceStrippedType2 =>
      format = some .django && lookingAt text i ['{', '%', '-'] &&
        !lookingAt text i ('{' :: "%- end".toList)
  | .templateVar => lookingAt text i ['{']
  | .newline => lookingAt text i ['\n']
  | .spaces => lookingAt text i [' ']
  | .unparsable => text[i]? = some '{' || text[i]? = some '<'
  | .text => true

/-- The branches for the tokens that begin with something special, in their order. -/
def special : List Branch :=
  [.htmlComment, .handlebarsComment, .djangoComment, .handlebarsPartial, .handlebarsPartialBlock,
    .htmlStart, .htmlEnd, .handlebarsElse, .handlebarsStart, .handlebarsEnd, .djangoElse,
    .djangoEnd, .djangoStart, .jinja2EndWhitespaceStripped, .jinja2StartWhitespaceStrippedType2,
    .templateVar, .newline, .spaces]

/-- The branch that is taken. -/
def choose (format : Option TemplateFormat) (text : Text) (i : ℕ) (inCodeBlock : Bool) : Branch :=
  if inCodeBlock then .code
  else ((special ++ [unparsable]).find? (isAhead format text i)).getD .text

/-! ## The parts of a token -/

/-- The text of the token. -/
def scan (text : Text) (i : ℕ) : Branch → Except PyError Text
  | .code => .ok (getCode text i)
  | .htmlComment => getHtmlComment text i
  | .handlebarsComment => getHandlebarsComment text i
  | .djangoComment => getDjangoComment text i
  | .handlebarsPartial | .handlebarsPartialBlock => getHandlebarsPartial text i
  | .htmlStart | .htmlEnd => getHtmlTag text i
  | .handlebarsElse | .handlebarsStart | .handlebarsEnd => getHandlebarsTag text i
  | .djangoElse | .djangoEnd | .djangoStart | .jinja2EndWhitespaceStripped =>
      getDjangoTag text i false
  | .jinja2StartWhitespaceStrippedType2 => getDjangoTag text i true
  | .templateVar => getTemplateVar text i
  | .newline => .ok ['\n']
  | .spaces => .ok (getSpaces text i)
  | .unparsable => .error (.assertion ("tool cannot parse ".toList ++ (text.drop i).take 15))
  | .text => .ok (getText text i)

/-- `s.split()[0]`. -/
def firstPart (s : Text) : Except PyError Text :=
  match s.dropWhile isSpacePython with
  | [] => .error .index
  | rest => .ok (rest.takeWhile fun c => !isSpacePython c)

/-- `str.strip` with the characters to strip. -/
def stripChars (chars s : Text) : Text := dropEndWhile (· ∈ chars) (s.dropWhile (· ∈ chars))

def endsSingleton (s : Text) : Bool := ['/', '>'].isSuffixOf s

/-- The tag of the token, not yet stripped. -/
def tag (s : Text) : Branch → Except PyError Text
  | .htmlComment => .ok (sliceEnd s 4 3)
  | .handlebarsComment => .ok (sliceEnd s 3 2)
  | .djangoComment => .ok (sliceEnd s 2 2)
  | .handlebarsPartial => .ok (sliceEnd s 9 2)
  | .handlebarsPartialBlock => .ok (sliceEnd s 5 2)
  | .htmlStart =>
      match firstPart (sliceEnd s 1 (if endsSingleton s then 2 else 1)) with
      | .error _ => .error (.templateParser "Tag name missing".toList)
      | .ok name => .ok name
  | .htmlEnd => .ok (sliceEnd s 2 1)
  | .handlebarsElse | .djangoElse => .ok "else".toList
  | .handlebarsStart =>
      (firstPart (sliceEnd s 3 2)).map fun name => dropOptional '*' (stripChars ['#'] name)
  | .handlebarsEnd => .ok (stripChars ['/', '#', '~'] (sliceEnd s 3 2))
  | .djangoEnd => .ok (sliceEnd s 6 3)
  | .djangoStart => firstPart (sliceEnd s 3 2)
  | .jinja2EndWhitespaceStripped => .ok (sliceEnd s 7 3)
  | .jinja2StartWhitespaceStrippedType2 => firstPart (sliceEnd s 3 3)
  | .templateVar => .ok "var".toList
  | .newline => .ok "newline".toList
  | .code | .spaces | .unparsable | .text => .ok []

def kind (s tag : Text) (tokens : List Token) : Branch → Kind
  | .code => .code
  | .htmlComment => .htmlComment
  | .handlebarsComment => .handlebarsComment
  | .djangoComment => .djangoComment
  | .handlebarsPartial => .handlebarsPartial
  | .handlebarsPartialBlock => .handlebarsPartialBlock
  | .htmlStart =>
      if tag = "!DOCTYPE".toList then .htmlDoctype
      else if endsSingleton s then .htmlSingleton
      else .htmlStart
  | .htmlEnd => .htmlEnd
  | .handlebarsElse => .handlebarsElse
  | .handlebarsStart => .handlebarsStart
  | .handlebarsEnd => .handlebarsEnd
  | .djangoElse => .djangoElse
  | .djangoEnd => .djangoEnd
  | .djangoStart =>
      if s[s.length - 3]? = some '-' then .jinja2WhitespaceStrippedStart else .djangoStart
  | .jinja2EndWhitespaceStripped => .jinja2WhitespaceStrippedEnd
  | .jinja2StartWhitespaceStrippedType2 => .jinja2WhitespaceStrippedType2Start
  | .templateVar => .templateVar
  | .newline => .newline
  | .spaces =>
      match tokens.getLast? with
      | none => .indent
      | some last => if last.kind = .newline then .indent else .whitespace
  | .unparsable | .text => .text

/-- Whether the branch makes the next one the branch for code. -/
def startsCode (tag : Text) (branch : Branch) : Bool :=
  branch = .htmlStart && (["code", "pre", "script"].map String.toList).contains tag

end Branch

/-! ## The loop -/

/-- The text and the tag of a token. Empty code and empty text is no token. -/
def readToken (text : Text) (i : ℕ) (branch : Branch) : Except PyError (Option (Text × Text)) :=
  match branch.scan text i with
  | .error error => .error error
  | .ok s =>
      if (branch = .code ∨ branch = .text) ∧ s = [] then .ok none
      else (branch.tag s).map fun tag => some (s, tag)

/-- `advance`. -/
def advance (text : Text) : ℕ → TokenizerState → TokenizerState
  | 0, state => state
  | n + 1, state =>
      advance text n
        (if text[state.i]? = some '\n' then
          { state with i := state.i + 1, line := state.line + 1, col := 1 }
        else { state with i := state.i + 1, col := state.col + 1 })

/-- The token of a string and a tag that are read in a state. -/
def TokenizerState.newToken (state : TokenizerState) (branch : Branch) (s tag : Text) : Token :=
  { kind := branch.kind s tag state.tokens
    s
    tag := strip tag
    line := state.line
    col := state.col
    lineSpan := ((Branch.stripChars ['\n'] s).splitOn '\n').length }

/-- The `FormattedError` of a token. -/
def formattedMessage (message content : Text) (line col : ℕ) : Text :=
  message ++ " at line ".toList ++ (toString line).toList ++ " col ".toList ++
    (toString col).toList ++ ":\"".toList ++ content ++ "\"".toList

/-- One turn of the loop of `tokenize`. -/
def tokenizeStep (format : Option TemplateFormat) (text : Text) (state : TokenizerState) :
    Except PyError TokenizerState :=
  let branch := Branch.choose format text state.i state.inCodeBlock
  match readToken text state.i branch with
  | .error (.tokenization message content) =>
      .error (.formatted (formattedMessage message content state.line state.col))
  | .error error => .error error
  | .ok none => .ok { state with inCodeBlock := false }
  | .ok (some (s, tag)) =>
      .ok (advance text s.length
        { state with
          inCodeBlock := branch.startsCode tag
          tokens := state.tokens ++ [state.newToken branch s tag] })

/-- Whether the loop of `tokenize` goes on. -/
def isUnfinished (text : Text) (state : TokenizerState) : Bool := state.i < text.length

/-- `tokenize`; `none` when it does not end in time. -/
def tokenize (fuel : ℕ) (text : Text) (format : Option TemplateFormat) :
    Option (Except PyError (List Token)) :=
  (whileLoop (isUnfinished text) (tokenizeStep format text) fuel .initial).map
    (Except.map (·.tokens))

end Zulip.Tools
