import Zulip.Foundation.BlockStack

/-!
# Fenced blocks

The server and the client each read a text line by line with a stack of handlers. Both find fences
with a regular expression of their own. What a handler renders is left out: its output is the lines
of its block, between a token that opens and one that closes the block. A line is a list of
characters.
-/

namespace Zulip.Markdown.Fenced

abbrev Line := List Char

inductive BlockKind where
  | code
  | quote
  | math
  | spoiler (header : Line)
deriving DecidableEq

/-- What a handler is made for. Only the server has a default language. -/
structure Block where
  kind : BlockKind
  fence : Line
  defaultLanguage : Option Line
deriving DecidableEq

/-- Parts of the output, with the number of the line. -/
inductive Token where
  | opened (index : Nat) (block : Block)
  | content (index : Nat) (text : Line)
  /-- The line that closes a block, if it is closed before the end of the text. -/
  | closed (index : Option Nat)
deriving DecidableEq

structure Handler where
  block : Block
  openedAt : Nat
  lines : List Token
deriving DecidableEq

/-- The output of the outer handler, and the other handlers, the innermost one first. -/
structure Processor where
  output : List Token
  handlers : List Handler
deriving DecidableEq

namespace Processor

def initial : Processor := ⟨[], []⟩

/-- Tokens for the output of the innermost handler. -/
def write (processor : Processor) (tokens : List Token) : Processor :=
  match processor.handlers with
  | [] => { processor with output := processor.output ++ tokens }
  | handler :: rest =>
      { processor with handlers := { handler with lines := handler.lines ++ tokens } :: rest }

def push (processor : Processor) (index : Nat) (block : Block) : Processor :=
  { processor with handlers := ⟨block, index, []⟩ :: processor.handlers }

end Processor

/-! ## Fences -/

/-- The characters that `str.rstrip` drops. -/
def isSpacePython (c : Char) : Bool :=
  (9 ≤ c.toNat && c.toNat ≤ 13) || (28 ≤ c.toNat && c.toNat ≤ 32) ||
    (8192 ≤ c.toNat && c.toNat ≤ 8202) ||
    c.toNat ∈ [133, 160, 5760, 8232, 8233, 8239, 8287, 12288]

/-- The characters that `String.prototype.trimEnd` drops. -/
def isSpaceJs (c : Char) : Bool :=
  (9 ≤ c.toNat && c.toNat ≤ 13) || (8192 ≤ c.toNat && c.toNat ≤ 8202) ||
    c.toNat ∈ [32, 160, 5760, 8232, 8233, 8239, 8287, 12288, 65279]

def dropEndWhile (drops : Char → Bool) (line : Line) : Line :=
  (line.reverse.dropWhile drops).reverse

def rstrip : Line → Line := dropEndWhile isSpacePython

def trimEnd : Line → Line := dropEndWhile isSpaceJs

/-- `(~{3,}|`{3,})` at the start of a line, and the rest of the line. -/
def fenceRun (line : Line) : Option (Line × Line) :=
  match line with
  | [] => none
  | c :: _ =>
      let run := line.takeWhile (· = c)
      if (c = '~' ∨ c = '\x60') ∧ 3 ≤ run.length then some (run, line.drop run.length) else none

/-- `[a-zA-Z0-9_+-./#]` -/
def isLangChar (c : Char) : Bool := c.isAlphanum || c ∈ ['_', '+', ',', '-', '.', '/', '#']

def isFenceChar (c : Char) : Bool := c = '~' || c = '\x60'

def dropOptional (c : Char) : Line → Line
  | [] => []
  | first :: rest => if first = c then rest else first :: rest

def dropSpaces (line : Line) : Line := line.dropWhile (· = ' ')

namespace Server

/-- `\.?(?P<lang>[a-zA-Z0-9_+-./#]+)`, which needs the dot when no language follows it. -/
def langAfterDot (rest : Line) : Line :=
  if (dropOptional '.' rest).takeWhile isLangChar = [] then rest.takeWhile isLangChar
  else (dropOptional '.' rest).takeWhile isLangChar

/-- What follows the language. -/
def afterLang (rest : Line) : Line :=
  if (dropOptional '.' rest).takeWhile isLangChar = [] then rest.dropWhile isLangChar
  else (dropOptional '.' rest).dropWhile isLangChar

/-- `FENCE_RE`: the groups "fence", "lang" and "header". A header takes all of the rest, also a
brace. -/
def fenceRe (line : Line) : Option (Line × Option Line × Option Line) :=
  match fenceRun line with
  | none => none
  | some (fence, rest) =>
      if dropSpaces rest = [] then some (fence, none, none)
      else
        let rest := dropOptional '{' (dropSpaces rest)
        let lang := langAfterDot rest
        let header := dropSpaces (afterLang rest)
        if lang = [] ∨ header.any isFenceChar then none
        else some (fence, some lang, if header = [] then none else some header)

def lower (lang : Line) : Line := lang.map Char.toLower

/-- `generic_handler` -/
def genericHandler (fence : Line) (lang header defaultLanguage : Option Line) : Block :=
  let lang := lang.map lower
  if lang = some "quote".toList ∨ lang = some "quoted".toList then ⟨.quote, fence, defaultLanguage⟩
  else if lang = some "math".toList then ⟨.math, fence, none⟩
  else if lang = some "spoiler".toList then ⟨.spoiler (header.getD []), fence, none⟩
  else ⟨.code, fence, none⟩

def checkForNewFence (processor : Processor) (index : Nat) (line : Line)
    (defaultLanguage : Option Line) : Processor :=
  match fenceRe line with
  | some (fence, lang, header) =>
      let lang := if lang.getD [] = [] ∧ defaultLanguage.getD [] ≠ [] then defaultLanguage else lang
      processor.push index (genericHandler fence lang header defaultLanguage)
  | none => processor.write [.content index line]

/-- `ZulipBaseHandler.done`: a block without lines is left out. -/
def done (processor : Processor) (closedAt : Option Nat) : Processor :=
  match processor.handlers with
  | [] => processor
  | handler :: rest =>
      let below : Processor := { processor with handlers := rest }
      if handler.lines = [] then below
      else
        below.write
          (.opened handler.openedAt handler.block :: handler.lines ++ [.closed closedAt])

/-- `handle_line` of the innermost handler. -/
def handleLine (defaultLanguage : Option Line) (processor : Processor) (index : Nat)
    (line : Line) : Processor :=
  match processor.handlers with
  | [] => checkForNewFence processor index line defaultLanguage
  | handler :: _ =>
      if rstrip line = handler.block.fence then done processor (some index)
      else
        match handler.block.kind with
        | .quote => checkForNewFence processor index line handler.block.defaultLanguage
        | .spoiler _ => checkForNewFence processor index line none
        | .code | .math => processor.write [.content index (rstrip line)]

end Server

namespace Client

/-- `fence_re`: the groups 1, 3 and 5. A header takes all of the rest. -/
def fenceRe (line : Line) : Option (Line × Line × Line) :=
  match fenceRun line with
  | none => none
  | some (fence, rest) =>
      if rest.any isFenceChar then none
      else
        let rest := dropOptional '.' (dropOptional '{' (dropSpaces rest))
        let lang := rest.takeWhile isLangChar
        let rest := dropSpaces (dropOptional '}' (rest.dropWhile isLangChar))
        some (fence, lang, dropOptional '.' (dropOptional '{' rest))

/-- `handler_for_fence` -/
def handlerForFence (fence lang header : Line) : Block :=
  if lang = "quote".toList then ⟨.quote, fence, none⟩
  else if lang = "math".toList then ⟨.math, fence, none⟩
  else if lang = "spoiler".toList then ⟨.spoiler header, fence, none⟩
  else ⟨.code, fence, none⟩

def consumeLine (processor : Processor) (index : Nat) (line : Line) : Processor :=
  match fenceRe line with
  | some (fence, lang, header) => processor.push index (handlerForFence fence lang header)
  | none => processor.write [.content index line]

/-- `done` -/
def done (processor : Processor) (closedAt : Option Nat) : Processor :=
  match processor.handlers with
  | [] => processor
  | handler :: rest =>
      let below : Processor := { processor with handlers := rest }
      below.write (.opened handler.openedAt handler.block :: handler.lines ++ [.closed closedAt])

/-- `handle_line` of the innermost handler. -/
def handleLine (processor : Processor) (index : Nat) (line : Line) : Processor :=
  match processor.handlers with
  | [] => consumeLine processor index line
  | handler :: _ =>
      if line = handler.block.fence then done processor (some index)
      else
        match handler.block.kind with
        | .quote => consumeLine processor index line
        | .math | .spoiler _ => processor.write [.content index line]
        | .code => processor.write [.content index (trimEnd line)]

end Client

/-! ## Whole texts -/

/-- All lines from a number on, with the handler of each. -/
def handleLines (handleLine : Processor → Nat → Line → Processor) :
    Processor → Nat → List Line → Processor
  | processor, _, [] => processor
  | processor, index, line :: rest =>
      handleLines handleLine (handleLine processor index line) (index + 1) rest

/-- The handlers that are left are done at the end; there are at most `count` of them. -/
def doneAll (done : Processor → Option Nat → Processor) : Nat → Processor → Processor
  | 0, processor => processor
  | count + 1, processor => doneAll done count (done processor none)

/-- `FencedBlockPreprocessor.run` -/
def Server.run (defaultLanguage : Option Line) (lines : List Line) : List Token :=
  let processor := handleLines (Server.handleLine defaultLanguage) .initial 0 lines
  (doneAll Server.done processor.handlers.length processor).output

/-- `process_fenced_code` -/
def Client.processFencedCode (lines : List Line) : List Token :=
  let processor := handleLines Client.handleLine .initial 0 lines
  (doneAll Client.done processor.handlers.length processor).output

end Zulip.Markdown.Fenced
