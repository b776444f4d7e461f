import Zulip.Markdown.FencedCode

/-!
# How lines are read

Whatever a handler does with a line, it writes it, is done, or pushes another handler. Which one
depends on the block of the handler only: the two sides are stacks of blocks with a reading of their
own.
-/

namespace Zulip.Markdown.Fenced

/-! ## Readings -/

namespace Server

/-- The reading of `check_for_new_fence`. -/
def readFence (line : Line) (defaultLanguage : Option Line) : Reading Block :=
  match fenceRe line with
  | some (fence, lang, header) =>
      let lang := if lang.getD [] = [] ∧ defaultLanguage.getD [] ≠ [] then defaultLanguage else lang
      .opens (genericHandler fence lang header defaultLanguage)
  | none => .content

def read (defaultLanguage : Option Line) (top : Option Block) (line : Line) : Reading Block :=
  match top with
  | none => readFence line defaultLanguage
  | some block =>
      if rstrip line = block.fence then .closes
      else
        match block.kind with
        | .quote => readFence line block.defaultLanguage
        | .spoiler _ => readFence line none
        | .code | .math => .content

/-- The text that is written for a line. -/
def written (top : Option Block) (line : Line) : Line :=
  match top.map Block.kind with
  | some .code | some .math => rstrip line
  | _ => line

end Server

namespace Client

/-- The reading of `consume_line`. -/
def readFence (line : Line) : Reading Block :=
  match fenceRe line with
  | some (fence, lang, header) => .opens (handlerForFence fence lang header)
  | none => .content

def read (top : Option Block) (line : Line) : Reading Block :=
  match top with
  | none => readFence line
  | some block =>
      if line = block.fence then .closes
      else
        match block.kind with
        | .quote => readFence line
        | .math | .spoiler _ | .code => .content

def written (top : Option Block) (line : Line) : Line :=
  match top.map Block.kind with
  | some .code => trimEnd line
  | _ => line

end Client

/-! ## What a handler does -/

namespace Processor

/-- The block of the innermost handler. -/
def top (processor : Processor) : Option Block := processor.handlers.head?.map Handler.block

/-- What is done for a line that is read. -/
def apply (processor : Processor) (done : Processor → Option Nat → Processor)
    (reading : Reading Block) (index : Nat) (text : Line) : Processor :=
  match reading with
  | .content => processor.write [.content index text]
  | .closes => done processor (some index)
  | .opens block => processor.push index block

end Processor

theorem Server.checkForNewFence_eq (processor : Processor) (index : Nat) (line : Line)
    (defaultLanguage : Option Line) :
    Server.checkForNewFence processor index line defaultLanguage =
      processor.apply Server.done (Server.readFence line defaultLanguage) index line := by
  unfold Server.checkForNewFence Server.readFence
  cases Server.fenceRe line <;> rfl

theorem Client.consumeLine_eq (processor : Processor) (index : Nat) (line : Line) :
    Client.consumeLine processor index line =
      processor.apply Client.done (Client.readFence line) index line := by
  unfold Client.consumeLine Client.readFence
  cases Client.fenceRe line <;> rfl

/-- A handler of the server does what its reading of the line says. -/
theorem Server.handleLine_eq (defaultLanguage : Option Line) (processor : Processor) (index : Nat)
    (line : Line) :
    Server.handleLine defaultLanguage processor index line =
      processor.apply Server.done (Server.read defaultLanguage processor.top line) index
        (Server.written processor.top line) := by
  obtain ⟨output, handlers⟩ := processor
  cases handlers with
  | nil => exact Server.checkForNewFence_eq _ index line defaultLanguage
  | cons handler rest =>
      obtain ⟨⟨kind, fence, own⟩, openedAt, lines⟩ := handler
      unfold Server.handleLine Server.read Server.written
      by_cases isFence : rstrip line = fence
      · simp [Processor.top, isFence, Processor.apply]
      · cases kind with
        | quote => simp [Processor.top, isFence, Server.checkForNewFence_eq]
        | spoiler header => simp [Processor.top, isFence, Server.checkForNewFence_eq]
        | code => simp [Processor.top, isFence, Processor.apply]
        | math => simp [Processor.top, isFence, Processor.apply]

/-- A handler of the client does what its reading of the line says. -/
theorem Client.handleLine_eq (processor : Processor) (index : Nat) (line : Line) :
    Client.handleLine processor index line =
      processor.apply Client.done (Client.read processor.top line) index
        (Client.written processor.top line) := by
  obtain ⟨output, handlers⟩ := processor
  cases handlers with
  | nil => exact Client.consumeLine_eq _ index line
  | cons handler rest =>
      obtain ⟨⟨kind, fence, own⟩, openedAt, lines⟩ := handler
      unfold Client.handleLine Client.read Client.written
      by_cases isFence : line = fence
      · simp [Processor.top, isFence, Processor.apply]
      · cases kind with
        | quote => simp [Processor.top, isFence, Client.consumeLine_eq]
        | spoiler header => simp [Processor.top, isFence, Processor.apply]
        | code => simp [Processor.top, isFence, Processor.apply]
        | math => simp [Processor.top, isFence, Processor.apply]

/-! ## The stack of blocks -/

/-- A block, and the line where it is opened. -/
abbrev OpenBlock := Block × Nat

def Handler.openBlock (handler : Handler) : OpenBlock := (handler.block, handler.openedAt)

/-- A reading that also tells where blocks are opened. -/
def numbered (read : Option Block → Line → Reading Block) (top : Option OpenBlock)
    (line : Line × Nat) : Reading OpenBlock :=
  (read (top.map Prod.fst) line.1).map fun block => (block, line.2)

/-- The blocks that are open after some lines. -/
def openBlocks (read : Option Block → Line → Reading Block) (lines : List Line) : List OpenBlock :=
  lines.zipIdx.foldl (stepStack (numbered read)) []

namespace Processor

theorem openBlocks_write (processor : Processor) (tokens : List Token) :
    (processor.write tokens).handlers.map Handler.openBlock =
      processor.handlers.map Handler.openBlock := by
  obtain ⟨output, handlers⟩ := processor
  cases handlers <;> rfl

/-- The open blocks after a line, when being done ends the innermost one. -/
theorem openBlocks_apply (processor : Processor) (done : Processor → Option Nat → Processor)
    (read : Option Block → Line → Reading Block) (line : Line) (index : Nat) (text : Line)
    (ends : ∀ closedAt, (done processor closedAt).handlers.map Handler.openBlock =
      (processor.handlers.map Handler.openBlock).tail) :
    (processor.apply done (read processor.top line) index text).handlers.map Handler.openBlock =
      stepStack (numbered read) (processor.handlers.map Handler.openBlock) (line, index) := by
  have sameTop : (processor.handlers.map Handler.openBlock).head?.map Prod.fst = processor.top := by
    rw [List.head?_map, Option.map_map]
    rfl
  unfold stepStack numbered apply
  rw [sameTop]
  cases read processor.top line with
  | content => exact openBlocks_write _ _
  | closes => exact ends _
  | opens block => rfl

end Processor

theorem Server.openBlocks_done (processor : Processor) (closedAt : Option Nat) :
    (Server.done processor closedAt).handlers.map Handler.openBlock =
      (processor.handlers.map Handler.openBlock).tail := by
  obtain ⟨output, handlers⟩ := processor
  cases handlers with
  | nil => rfl
  | cons handler rest =>
      unfold Server.done
      dsimp only
      split_ifs
      · rfl
      · exact Processor.openBlocks_write _ _

theorem Client.openBlocks_done (processor : Processor) (closedAt : Option Nat) :
    (Client.done processor closedAt).handlers.map Handler.openBlock =
      (processor.handlers.map Handler.openBlock).tail := by
  obtain ⟨output, handlers⟩ := processor
  cases handlers with
  | nil => rfl
  | cons handler rest => exact Processor.openBlocks_write _ _

theorem Server.openBlocks_handleLine (defaultLanguage : Option Line) (processor : Processor)
    (index : Nat) (line : Line) :
    (Server.handleLine defaultLanguage processor index line).handlers.map Handler.openBlock =
      stepStack (numbered (Server.read defaultLanguage))
        (processor.handlers.map Handler.openBlock) (line, index) := by
  rw [Server.handleLine_eq]
  exact Processor.openBlocks_apply _ _ _ _ _ _ (Server.openBlocks_done processor)

theorem Client.openBlocks_handleLine (processor : Processor) (index : Nat) (line : Line) :
    (Client.handleLine processor index line).handlers.map Handler.openBlock =
      stepStack (numbered Client.read) (processor.handlers.map Handler.openBlock)
        (line, index) := by
  rw [Client.handleLine_eq]
  exact Processor.openBlocks_apply _ _ _ _ _ _ (Client.openBlocks_done processor)

/-- The handlers after some lines are those of the blocks that are open. -/
theorem openBlocks_handleLines {handleLine : Processor → Nat → Line → Processor}
    {read : Option Block → Line → Reading Block}
    (step : ∀ processor index line, (handleLine processor index line).handlers.map
      Handler.openBlock =
        stepStack (numbered read) (processor.handlers.map Handler.openBlock) (line, index))
    (processor : Processor) (index : Nat) (lines : List Line) :
    (handleLines handleLine processor index lines).handlers.map Handler.openBlock =
      (lines.zipIdx index).foldl (stepStack (numbered read))
        (processor.handlers.map Handler.openBlock) := by
  induction lines generalizing processor index with
  | nil => rfl
  | cons line rest inductionHypothesis =>
      rw [handleLines, inductionHypothesis, step, List.zipIdx_cons, List.foldl_cons]

end Zulip.Markdown.Fenced
