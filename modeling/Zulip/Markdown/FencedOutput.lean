import Zulip.Foundation.WhileLoop
import Zulip.Markdown.FenceReadings

/-!
# The output of `FencedBlockPreprocessor`

The handlers of the server with the lines that they write. A text is a list of characters and of
placeholders of the stash. A placeholder remembers the text of a code or math block, whose formatting
is left out, or markup of its own. `run_content_validators` is off, as everywhere but in the API
documentation: the contents of a code block are not checked.
-/

namespace Zulip.Markdown.Fenced

/-- A character, or a placeholder with the text that it stands for. -/
inductive Symbol where
  | char (c : Char)
  | placeholder (text : Line)
deriving DecidableEq

/-- A text of the preprocessor. -/
abbrev Markup := List Symbol

namespace Markup

def ofLine (line : Line) : Markup := line.map .char

/-- The text without placeholders, as the formatters of code and math get it. -/
def source (text : Markup) : Line :=
  text.flatMap fun
    | .char c => [c]
    | .placeholder stored => stored

def newline : Symbol := .char '\n'

/-- `"\n".join(lines)` -/
def joinLines (lines : List Markup) : Markup := [newline].intercalate lines

/-- `text.split("\n")` -/
def splitLines (text : Markup) : List Markup := text.splitOn newline

end Markup

open Markup

/-! ## Formatting -/

/-- `processor.placeholder` -/
def placeholder (code : Line) : Markup := [.placeholder code]

/-- `"> "` -/
def quoteMarker : Line := ['>', ' ']

/-- `format_quote` -/
def formatQuote (text : Markup) : Markup :=
  let paragraphs := splitLines text
  joinLines (paragraphs.map fun paragraph =>
    joinLines ((splitLines paragraph).map fun line => ofLine quoteMarker ++ line))

def headerDivOpenHtml : Line :=
  "<div class=\"spoiler-block\"><div class=\"spoiler-header\">".toList

def endHeaderStartContentHtml : Line :=
  "</div><div class=\"spoiler-content\" aria-hidden=\"true\">".toList

def footerHtml : Line := "</div></div>".toList

/-- `format_spoiler`; a header that is not there is empty. -/
def formatSpoiler (header : Line) (text : Markup) : Markup :=
  [newline, newline].intercalate
    ([placeholder headerDivOpenHtml] ++ (if header = [] then [] else [ofLine header]) ++
      [placeholder endHeaderStartContentHtml, text, placeholder footerHtml])

/-- `format_text`, which leaves code and math to their placeholders. -/
def formatText (kind : BlockKind) (text : Markup) : Markup :=
  match kind with
  | .code | .math => text
  | .quote => formatQuote text
  | .spoiler header => formatSpoiler header text

/-- `process_contents` -/
def processContents : BlockKind → Bool
  | .code | .math => false
  | .quote | .spoiler _ => true

/-! ## Handlers -/

structure TextHandler where
  block : Block
  lines : List Markup
deriving DecidableEq

/-- The output, the outer handler while it is on the stack, and the other handlers, the innermost
one first. -/
structure TextProcessor where
  output : List Markup
  outer : Bool
  handlers : List TextHandler
deriving DecidableEq

namespace TextProcessor

def initial : TextProcessor := ⟨[], true, []⟩

/-- The processor has handlers. -/
def running (processor : TextProcessor) : Bool := processor.outer || !processor.handlers.isEmpty

/-- Lines for the output of the innermost handler. -/
def write (processor : TextProcessor) (lines : List Markup) : TextProcessor :=
  match processor.handlers with
  | [] => { processor with output := processor.output ++ lines }
  | handler :: rest =>
      { processor with handlers := { handler with lines := handler.lines ++ lines } :: rest }

def push (processor : TextProcessor) (block : Block) : TextProcessor :=
  { processor with handlers := ⟨block, []⟩ :: processor.handlers }

/-- `check_for_new_fence` -/
def checkForNewFence (processor : TextProcessor) (line : Line) (defaultLanguage : Option Line) :
    TextProcessor :=
  match Server.fenceRe line with
  | some (fence, lang, header) =>
      let lang := if lang.getD [] = [] ∧ defaultLanguage.getD [] ≠ [] then defaultLanguage else lang
      processor.push (Server.genericHandler fence lang header defaultLanguage)
  | none => processor.write [ofLine line]

/-- `done` of the innermost handler; the outer one has no lines. -/
def done (processor : TextProcessor) : TextProcessor :=
  match processor.handlers with
  | [] => { processor with outer := false }
  | handler :: rest =>
      let below := { processor with handlers := rest }
      if handler.lines = [] then below
      else
        let text := formatText handler.block.kind (joinLines handler.lines)
        let text := if processContents handler.block.kind then text else placeholder text.source
        below.write ([[]] ++ splitLines text ++ [[]])

/-- `handle_line` of the innermost handler. -/
def handleLine (defaultLanguage : Option Line) (processor : TextProcessor) (line : Line) :
    TextProcessor :=
  match processor.handlers with
  | [] => processor.checkForNewFence line defaultLanguage
  | handler :: _ =>
      if rstrip line = handler.block.fence then processor.done
      else
        match handler.block.kind with
        | .quote => processor.checkForNewFence line handler.block.defaultLanguage
        | .spoiler _ => processor.checkForNewFence line none
        | .code | .math => processor.write [ofLine (rstrip line)]

/-- The handling of new lines at the end of the output. -/
def endOutput (output : List Markup) : List Markup :=
  if 2 < output.length ∧ output[output.length - 2]? ≠ some [] then output ++ [[]] else output

/-- The loop over the handlers that are left ends with this processor. -/
def Finishes (processor final : TextProcessor) : Prop :=
  Ends running (fun processor => (.ok processor.done : Except Empty TextProcessor)) processor
    (.ok final)

/-- `run` up to its end, where it returns `endOutput final.output`. -/
def Runs (defaultLanguage : Option Line) (lines : List Line) (final : TextProcessor) : Prop :=
  (lines.foldl (handleLine defaultLanguage) initial).Finishes final

end TextProcessor

end Zulip.Markdown.Fenced
