import Mathlib.Data.List.Chain
import Mathlib.Data.List.Nodup
import Zulip.Markdown.FenceReadings

/-!
# The blocks of the server and of the client

`fencedBlocks_agree_iff`: both sides find the same blocks exactly when every line is read alike in
the blocks that are open there, and no block is closed right after it is opened. The client writes a
token for every line; the server leaves out the tokens of empty blocks.
-/

namespace Zulip.Markdown.Fenced

/-! ## Texts up to trailing spaces -/

/-- A text without the spaces of either side at its end. -/
def stripTrailing : Line → Line := dropEndWhile fun c => isSpacePython c || isSpaceJs c

def Token.normalize : Token → Token
  | .content index text => .content index (stripTrailing text)
  | token => token

theorem dropEndWhile_dropEndWhile {narrow wide : Char → Bool}
    (inside : ∀ c, narrow c = true → wide c = true) (line : Line) :
    dropEndWhile wide (dropEndWhile narrow line) = dropEndWhile wide line := by
  unfold dropEndWhile
  rw [List.reverse_reverse]
  induction line.reverse with
  | nil => rfl
  | cons c rest inductionHypothesis =>
      cases isNarrow : narrow c with
      | true =>
          rw [List.dropWhile_cons_of_pos isNarrow, List.dropWhile_cons_of_pos (inside c isNarrow)]
          exact inductionHypothesis
      | false => rw [List.dropWhile_cons_of_neg (by simp [isNarrow])]

theorem stripTrailing_rstrip (line : Line) : stripTrailing (rstrip line) = stripTrailing line :=
  dropEndWhile_dropEndWhile (fun c isSpace => by simp [isSpace]) line

theorem stripTrailing_trimEnd (line : Line) : stripTrailing (trimEnd line) = stripTrailing line :=
  dropEndWhile_dropEndWhile (fun c isSpace => by simp [isSpace]) line

theorem Server.stripTrailing_written (top : Option Block) (line : Line) :
    stripTrailing (Server.written top line) = stripTrailing line := by
  unfold Server.written
  cases top.map Block.kind with
  | none => rfl
  | some kind =>
      cases kind with
      | code => exact stripTrailing_rstrip line
      | math => exact stripTrailing_rstrip line
      | quote => rfl
      | spoiler header => rfl

theorem Client.stripTrailing_written (top : Option Block) (line : Line) :
    stripTrailing (Client.written top line) = stripTrailing line := by
  unfold Client.written
  cases top.map Block.kind with
  | none => rfl
  | some kind =>
      cases kind with
      | code => exact stripTrailing_trimEnd line
      | math => rfl
      | quote => rfl
      | spoiler header => rfl

/-! ## A token for every line -/

def event (reading : Reading Block) (index : Nat) (line : Line) : Token :=
  match reading with
  | .content => .content index (stripTrailing line)
  | .closes => .closed (some index)
  | .opens block => .opened index block

section Events

variable (read : Option Block → Line → Reading Block)

def events : List Block → Nat → List Line → List Token
  | _, _, [] => []
  | stack, index, line :: rest =>
      event (read stack.head? line) index line ::
        events (stepStack read stack line) (index + 1) rest

/-- The tokens of all lines from a stack on, and of the blocks that are closed at the end. -/
def tokensFrom (stack : List Block) (index : Nat) (lines : List Line) : List Token :=
  events read stack index lines ++
    List.replicate (lines.foldl (stepStack read) stack).length (.closed none)

/-- The tokens of a text. -/
def tokens (lines : List Line) : List Token := tokensFrom read [] 0 lines

end Events

namespace Processor

/-- All tokens that have been written, with those of the blocks that are open. -/
def flat (processor : Processor) : List Token :=
  (processor.output ++ processor.handlers.reverse.flatMap fun handler =>
    .opened handler.openedAt handler.block :: handler.lines).map Token.normalize

def blocks (processor : Processor) : List Block := processor.handlers.map Handler.block

theorem top_eq (processor : Processor) : processor.top = processor.blocks.head? := by
  rw [blocks, List.head?_map]
  rfl

theorem flat_write (processor : Processor) (written : List Token) :
    (processor.write written).flat = processor.flat ++ written.map Token.normalize := by
  obtain ⟨output, handlers⟩ := processor
  cases handlers with
  | nil => simp [flat, write]
  | cons handler rest => simp [flat, write, List.append_assoc]

theorem flat_push (processor : Processor) (index : Nat) (block : Block) :
    (processor.push index block).flat = processor.flat ++ [.opened index block] := by
  simp [flat, push, Token.normalize, List.append_assoc]

theorem flat_of_handlers {output : List Token} {handler : Handler} {rest : List Handler} :
    (Processor.mk output (handler :: rest)).flat =
      (Processor.mk output rest).flat ++
        (.opened handler.openedAt handler.block :: handler.lines).map Token.normalize := by
  simp [flat, List.append_assoc]

end Processor

/-! ## Blocks that are left out -/

namespace Token

def isOpened : Token → Bool
  | .opened _ _ => true
  | _ => false

def isClosed : Token → Bool
  | .closed _ => true
  | _ => false

@[simp] theorem isOpened_normalize (token : Token) : token.normalize.isOpened = token.isOpened := by
  cases token <;> rfl

end Token

/-- No block is closed right after it is opened. -/
def NoEmptyBlock (tokens : List Token) : Prop :=
  tokens.IsChain fun first second => ¬(first.isOpened = true ∧ second.isClosed = true)

/-- The lines of a handler do not end with a block that is opened. -/
def Settled (processor : Processor) : Prop :=
  ∀ handler ∈ processor.handlers, ∀ token ∈ handler.lines.getLast?, token.isOpened = false

/-- A token is added, or the block that it closes has no lines and is left out. -/
inductive Writes (processor next : Processor) (token : Token) : Prop where
  | kept (isFlat : next.flat = processor.flat ++ [token])
      (apart : token.isClosed = true → ∀ last ∈ processor.flat.getLast?, last.isOpened = false)
  | dropped (openedAt : Nat) (block : Block)
      (isFlat : processor.flat = next.flat ++ [.opened openedAt block])
      (closes : token.isClosed = true)

/-- What comes of the tokens so far and of those that follow. -/
def Yields (processor : Processor) (rest final : List Token) : Prop :=
  final.Sublist (processor.flat ++ rest) ∧
    (NoEmptyBlock processor.flat →
      (final = processor.flat ++ rest ↔ NoEmptyBlock (processor.flat ++ rest)))

theorem Writes.yields {processor next : Processor} {token : Token} {rest final : List Token}
    (writes : Writes processor next token) (yields : Yields next rest final) :
    Yields processor (token :: rest) final := by
  obtain ⟨isSublist, isAll⟩ := yields
  cases writes with
  | kept isFlat apart =>
      have sameTokens : processor.flat ++ token :: rest = next.flat ++ rest := by
        rw [isFlat, List.append_assoc]
        rfl
      refine ⟨sameTokens ▸ isSublist, fun noEmpty => ?_⟩
      rw [sameTokens]
      refine isAll ?_
      rw [isFlat]
      refine List.isChain_append.mpr ⟨noEmpty, List.isChain_singleton _, ?_⟩
      intro last isLast first isFirst
      cases isFirst
      rintro ⟨isOpened, isClosed⟩
      rw [apart isClosed last isLast] at isOpened
      cases isOpened
  | dropped openedAt block isFlat closes =>
      unfold Yields
      rw [isFlat]
      refine ⟨isSublist.trans ?_, fun _ => ⟨fun isAllTokens => ?_, fun noEmpty => ?_⟩⟩
      · rw [List.append_assoc]
        exact List.Sublist.append_left ((List.sublist_cons_self _ _).trans
          (List.sublist_cons_self _ _)) _
      · -- Two tokens are missing.
        have lengths := isSublist.length_le
        rw [isAllTokens] at lengths
        simp only [List.length_append, List.length_cons] at lengths
        omega
      · rw [NoEmptyBlock, List.append_assoc] at noEmpty
        exact absurd ⟨rfl, closes⟩ (List.isChain_append_cons_cons.mp noEmpty).2.1

/-! ## Being done -/

theorem getLast?_flat {output : List Token} {handler : Handler} {rest : List Handler}
    (settled : Settled ⟨output, handler :: rest⟩) (nonempty : handler.lines ≠ []) :
    ∀ last ∈ (Processor.mk output (handler :: rest)).flat.getLast?, last.isOpened = false := by
  intro last isLast
  obtain ⟨first, final, isLines⟩ := List.eq_nil_or_concat handler.lines |>.resolve_left nonempty
  have isFlat : (Processor.mk output (handler :: rest)).flat =
      ((Processor.mk output rest).flat ++
        (.opened handler.openedAt handler.block :: first).map Token.normalize) ++
        [final.normalize] := by
    rw [Processor.flat_of_handlers, isLines]
    simp
  rw [isFlat, List.getLast?_concat] at isLast
  cases isLast
  rw [Token.isOpened_normalize]
  exact settled handler List.mem_cons_self final (by rw [isLines]; simp)

/-- The server leaves out a block without lines. -/
theorem Server.writes_done {output : List Token} {handler : Handler} {rest : List Handler}
    (settled : Settled ⟨output, handler :: rest⟩) (closedAt : Option Nat) :
    Writes ⟨output, handler :: rest⟩ (Server.done ⟨output, handler :: rest⟩ closedAt)
      (.closed closedAt) := by
  unfold Server.done
  dsimp only
  split_ifs with noLines
  · refine .dropped handler.openedAt handler.block ?_ rfl
    rw [Processor.flat_of_handlers, noLines]
    rfl
  · refine .kept ?_ fun _ => getLast?_flat settled noLines
    rw [Processor.flat_write, Processor.flat_of_handlers]
    simp [Token.normalize, List.append_assoc]

theorem Client.flat_done {output : List Token} {handler : Handler} {rest : List Handler}
    (closedAt : Option Nat) :
    (Client.done ⟨output, handler :: rest⟩ closedAt).flat =
      (Processor.mk output (handler :: rest)).flat ++ [.closed closedAt] := by
  unfold Client.done
  dsimp only
  rw [Processor.flat_write, Processor.flat_of_handlers]
  simp [Token.normalize, List.append_assoc]

theorem settled_write {processor : Processor} {written : List Token} {last : Token}
    (settled : Settled processor) (notOpened : last.isOpened = false) :
    Settled (processor.write (written ++ [last])) := by
  obtain ⟨output, handlers⟩ := processor
  cases handlers with
  | nil => nofun
  | cons handler rest =>
      intro other member token isLast
      rcases List.mem_cons.mp member with rfl | isRest
      · have isToken : last = token := by simpa [← List.append_assoc] using isLast
        rw [← isToken]
        exact notOpened
      · exact settled other (List.mem_cons_of_mem _ isRest) token isLast

theorem Settled.below {output : List Token} {handler : Handler} {rest : List Handler}
    (settled : Settled ⟨output, handler :: rest⟩) : Settled ⟨output, rest⟩ :=
  fun other member => settled other (List.mem_cons_of_mem _ member)

theorem Server.settled_done {processor : Processor} (settled : Settled processor)
    (closedAt : Option Nat) : Settled (Server.done processor closedAt) := by
  obtain ⟨output, handlers⟩ := processor
  cases handlers with
  | nil => exact settled
  | cons handler rest =>
      unfold Server.done
      dsimp only
      split_ifs
      · exact settled.below
      · exact settled_write settled.below rfl

/-! ## Runs -/

theorem Processor.blocks_eq (processor : Processor) :
    processor.blocks = (processor.handlers.map Handler.openBlock).map Prod.fst := by
  rw [List.map_map]
  rfl

theorem map_fst_stepStack (read : Option Block → Line → Reading Block) (stack : List OpenBlock)
    (line : Line) (index : Nat) :
    (stepStack (numbered read) stack (line, index)).map Prod.fst =
      stepStack read (stack.map Prod.fst) line := by
  unfold stepStack numbered
  rw [List.head?_map]
  cases read (stack.head?.map Prod.fst) line with
  | content => rfl
  | closes => simp [Reading.map]
  | opens block => rfl

theorem Server.blocks_handleLine (processor : Processor) (index : Nat) (line : Line) :
    (Server.handleLine none processor index line).blocks =
      stepStack (Server.read none) processor.blocks line := by
  rw [Processor.blocks_eq, Server.openBlocks_handleLine, map_fst_stepStack, ← Processor.blocks_eq]

theorem Client.blocks_handleLine (processor : Processor) (index : Nat) (line : Line) :
    (Client.handleLine processor index line).blocks =
      stepStack Client.read processor.blocks line := by
  rw [Processor.blocks_eq, Client.openBlocks_handleLine, map_fst_stepStack, ← Processor.blocks_eq]

/-- Only a block can be closed. -/
theorem Server.handlers_ne_nil_of_closes {processor : Processor} {line : Line}
    (closes : Server.read none processor.top line = .closes) : processor.handlers ≠ [] := by
  intro noHandlers
  rw [Processor.top, noHandlers] at closes
  unfold Server.read Server.readFence at closes
  simp only [List.head?_nil, Option.map_none] at closes
  cases isFence : Server.fenceRe line with
  | none =>
      rw [isFence] at closes
      cases closes
  | some groups =>
      rw [isFence] at closes
      cases closes

theorem Client.handlers_ne_nil_of_closes {processor : Processor} {line : Line}
    (closes : Client.read processor.top line = .closes) : processor.handlers ≠ [] := by
  intro noHandlers
  rw [Processor.top, noHandlers] at closes
  unfold Client.read Client.readFence at closes
  simp only [List.head?_nil, Option.map_none] at closes
  cases isFence : Client.fenceRe line with
  | none =>
      rw [isFence] at closes
      cases closes
  | some groups =>
      rw [isFence] at closes
      cases closes

/-- A line adds its token, unless it closes a block without lines. -/
theorem Server.writes_handleLine {processor : Processor} (settled : Settled processor) (index : Nat)
    (line : Line) :
    Writes processor (Server.handleLine none processor index line)
        (event (Server.read none processor.top line) index line) ∧
      Settled (Server.handleLine none processor index line) := by
  rw [Server.handleLine_eq]
  cases reading : Server.read none processor.top line with
  | content =>
      refine ⟨.kept ?_ (fun isClosed => by cases isClosed), @settled_write processor [] _ settled rfl⟩
      rw [Processor.apply, Processor.flat_write]
      simp [Token.normalize, Server.stripTrailing_written, event]
  | closes =>
      have someHandler := Server.handlers_ne_nil_of_closes reading
      obtain ⟨output, handlers⟩ := processor
      cases handlers with
      | nil => exact absurd rfl someHandler
      | cons handler rest =>
          exact ⟨Server.writes_done settled _, Server.settled_done settled _⟩
  | opens block =>
      refine ⟨.kept (Processor.flat_push _ _ _) (fun isClosed => by cases isClosed),
        fun handler member => ?_⟩
      rcases List.mem_cons.mp member with rfl | isOld
      · intro token isLast
        cases isLast
      · exact settled handler isOld

/-- A line always adds its token. -/
theorem Client.flat_handleLine (processor : Processor) (index : Nat) (line : Line) :
    (Client.handleLine processor index line).flat =
      processor.flat ++ [event (Client.read processor.top line) index line] := by
  rw [Client.handleLine_eq]
  cases reading : Client.read processor.top line with
  | content =>
      rw [Processor.apply, Processor.flat_write]
      simp [Token.normalize, Client.stripTrailing_written, event]
  | closes =>
      have someHandler := Client.handlers_ne_nil_of_closes reading
      obtain ⟨output, handlers⟩ := processor
      cases handlers with
      | nil => exact absurd rfl someHandler
      | cons handler rest => exact Client.flat_done _
  | opens block => exact Processor.flat_push _ _ _

theorem Processor.flat_of_nil (output : List Token) :
    (Processor.mk output []).flat = output.map Token.normalize := by
  simp [flat]

theorem Server.length_handlers_done (output : List Token) (handler : Handler) (rest : List Handler)
    (closedAt : Option Nat) :
    (Server.done ⟨output, handler :: rest⟩ closedAt).handlers.length = rest.length := by
  have ends := congrArg List.length
    (Server.openBlocks_done ⟨output, handler :: rest⟩ closedAt)
  simpa using ends

theorem Client.length_handlers_done (output : List Token) (handler : Handler) (rest : List Handler)
    (closedAt : Option Nat) :
    (Client.done ⟨output, handler :: rest⟩ closedAt).handlers.length = rest.length := by
  have ends := congrArg List.length
    (Client.openBlocks_done ⟨output, handler :: rest⟩ closedAt)
  simpa using ends

/-- The blocks that are open at the end are closed there. -/
theorem Server.yields_doneAll {count : Nat} {processor : Processor} (settled : Settled processor)
    (isCount : processor.handlers.length = count) :
    Yields processor (List.replicate count (.closed none))
      ((doneAll Server.done count processor).output.map Token.normalize) := by
  induction count generalizing processor with
  | zero =>
      obtain ⟨output, handlers⟩ := processor
      obtain rfl : handlers = [] := List.eq_nil_of_length_eq_zero isCount
      rw [doneAll, List.replicate_zero, ← Processor.flat_of_nil]
      exact ⟨by rw [List.append_nil], fun noEmpty => by simp [noEmpty]⟩
  | succ count inductionHypothesis =>
      obtain ⟨output, handlers⟩ := processor
      obtain ⟨handler, rest, rfl⟩ := List.exists_cons_of_length_eq_add_one isCount
      refine (Server.writes_done settled none).yields (inductionHypothesis
        (Server.settled_done settled none) ?_)
      rw [Server.length_handlers_done]
      simpa using isCount

theorem Client.doneAll_eq {count : Nat} {processor : Processor}
    (isCount : processor.handlers.length = count) :
    (doneAll Client.done count processor).output.map Token.normalize =
      processor.flat ++ List.replicate count (.closed none) := by
  induction count generalizing processor with
  | zero =>
      obtain ⟨output, handlers⟩ := processor
      obtain rfl : handlers = [] := List.eq_nil_of_length_eq_zero isCount
      rw [doneAll, List.replicate_zero, List.append_nil, Processor.flat_of_nil]
  | succ count inductionHypothesis =>
      obtain ⟨output, handlers⟩ := processor
      obtain ⟨handler, rest, rfl⟩ := List.exists_cons_of_length_eq_add_one isCount
      rw [doneAll, inductionHypothesis, Client.flat_done, List.append_assoc,
        List.replicate_succ, List.singleton_append]
      rw [Client.length_handlers_done]
      simpa using isCount

/-- The server writes the tokens of a text, up to the blocks without lines. -/
theorem Server.yields_run {processor : Processor} (settled : Settled processor) (index : Nat)
    (lines : List Line) :
    Yields processor (tokensFrom (Server.read none) processor.blocks index lines)
      ((doneAll Server.done
          (handleLines (Server.handleLine none) processor index lines).handlers.length
        (handleLines (Server.handleLine none) processor index lines)).output.map
          Token.normalize) := by
  induction lines generalizing processor index with
  | nil =>
      have isCount : processor.handlers.length = processor.blocks.length := by
        rw [Processor.blocks, List.length_map]
      rw [handleLines, isCount]
      exact Server.yields_doneAll settled isCount
  | cons line rest inductionHypothesis =>
      obtain ⟨writes, settledNext⟩ := Server.writes_handleLine settled index line
      have yields := inductionHypothesis settledNext (index + 1)
      rw [Server.blocks_handleLine] at yields
      rw [Processor.top_eq] at writes
      exact writes.yields yields

/-- The client writes the tokens of a text. -/
theorem Client.run_eq (processor : Processor) (index : Nat) (lines : List Line) :
    (doneAll Client.done (handleLines Client.handleLine processor index lines).handlers.length
        (handleLines Client.handleLine processor index lines)).output.map Token.normalize =
      processor.flat ++ tokensFrom Client.read processor.blocks index lines := by
  induction lines generalizing processor index with
  | nil =>
      have isCount : processor.handlers.length = processor.blocks.length := by
        rw [Processor.blocks, List.length_map]
      rw [handleLines, isCount]
      exact Client.doneAll_eq isCount
  | cons line rest inductionHypothesis =>
      rw [handleLines, inductionHypothesis, Client.flat_handleLine, Client.blocks_handleLine,
        Processor.top_eq, List.append_assoc]
      rfl

theorem Client.processFencedCode_eq (lines : List Line) :
    (Client.processFencedCode lines).map Token.normalize = tokens Client.read lines :=
  Client.run_eq .initial 0 lines

theorem Server.run_spec (lines : List Line) :
    ((Server.run none lines).map Token.normalize).Sublist (tokens (Server.read none) lines) ∧
      ((Server.run none lines).map Token.normalize = tokens (Server.read none) lines ↔
        NoEmptyBlock (tokens (Server.read none) lines)) := by
  obtain ⟨isSublist, isAll⟩ := @Server.yields_run .initial nofun 0 lines
  exact ⟨isSublist, isAll .nil⟩

/-! ## Lines that are read alike -/

/-- Both expressions find a fence, of a block of the same kind, or both find none. -/
def FencesAlike (line : Line) : Prop := Server.readFence line none = Client.readFence line

/-- A line is read alike: it is the fence of the block or not, whatever spaces follow, a spoiler
does not open a block, and elsewhere the two expressions agree. -/
def LineAlike (top : Option Block) (line : Line) : Prop :=
  match top with
  | none => FencesAlike line
  | some block =>
      (rstrip line = block.fence ↔ line = block.fence) ∧
        (line ≠ block.fence →
          match block.kind with
          | .quote => FencesAlike line
          | .spoiler _ => Server.fenceRe line = none
          | .code | .math => True)

/-- Every line is read alike, in the blocks that are open before it. -/
def LinesAlike : List Block → List Line → Prop
  | _, [] => True
  | stack, line :: rest =>
      LineAlike stack.head? line ∧ LinesAlike (stepStack Client.read stack line) rest

/-- No block of the client has a default language. -/
def PlainBlocks (stack : List Block) : Prop := ∀ block ∈ stack, block.defaultLanguage = none

theorem Client.defaultLanguage_of_readFence {line : Line} {block : Block}
    (opens : Client.readFence line = .opens block) : block.defaultLanguage = none := by
  unfold Client.readFence at opens
  cases isFence : Client.fenceRe line with
  | none =>
      rw [isFence] at opens
      cases opens
  | some groups =>
      rw [isFence] at opens
      cases opens
      unfold Client.handlerForFence
      split_ifs <;> rfl

theorem Client.defaultLanguage_of_read {top : Option Block} {line : Line} {block : Block}
    (opens : Client.read top line = .opens block) : block.defaultLanguage = none := by
  cases top with
  | none => exact Client.defaultLanguage_of_readFence opens
  | some outer =>
      obtain ⟨kind, fence, own⟩ := outer
      unfold Client.read at opens
      dsimp only at opens
      split_ifs at opens
      cases kind with
      | quote => exact Client.defaultLanguage_of_readFence opens
      | code => cases opens
      | math => cases opens
      | spoiler header => cases opens

theorem PlainBlocks.stepStack {stack : List Block} (plain : PlainBlocks stack) (line : Line) :
    PlainBlocks (stepStack Client.read stack line) := by
  unfold Zulip.stepStack
  cases reading : Client.read stack.head? line with
  | content => exact plain
  | closes => exact fun block member => plain block (List.mem_of_mem_tail member)
  | opens opened =>
      intro block member
      rcases List.mem_cons.mp member with rfl | isOld
      · exact Client.defaultLanguage_of_read reading
      · exact plain block isOld

theorem Server.readFence_eq_content_iff {line : Line} {defaultLanguage : Option Line} :
    Server.readFence line defaultLanguage = .content ↔ Server.fenceRe line = none := by
  unfold Server.readFence
  cases Server.fenceRe line with
  | none => simp
  | some groups => simp

theorem Server.readFence_ne_closes {line : Line} {defaultLanguage : Option Line} :
    Server.readFence line defaultLanguage ≠ .closes := by
  unfold Server.readFence
  cases Server.fenceRe line <;> nofun

theorem Client.readFence_ne_closes {line : Line} : Client.readFence line ≠ .closes := by
  unfold Client.readFence
  cases Client.fenceRe line <;> nofun

/-- Two readings that test for the end of a block first. -/
theorem closing_alike {stripped exactly alike : Prop} [Decidable stripped] [Decidable exactly]
    {server client : Reading Block} (serverOpen : server ≠ .closes) (clientOpen : client ≠ .closes)
    (same : alike ↔ server = client) :
    ((stripped ↔ exactly) ∧ (¬exactly → alike)) ↔
      (if stripped then .closes else server) = if exactly then Reading.closes else client := by
  by_cases isStripped : stripped
  · by_cases isExact : exactly
    · simp [isStripped, isExact]
    · simp [isStripped, isExact, clientOpen.symm]
  · by_cases isExact : exactly
    · simp [isStripped, isExact, serverOpen]
    · simp [isStripped, isExact, same]

/-- Being read alike is the same reading on both sides. -/
theorem lineAlike_iff {top : Option Block} {line : Line}
    (plain : ∀ block ∈ top, block.defaultLanguage = none) :
    LineAlike top line ↔ Server.read none top line = Client.read top line := by
  cases top with
  | none => rfl
  | some block =>
      obtain ⟨kind, fence, own⟩ := block
      obtain rfl : own = none := plain _ rfl
      cases kind with
      | quote => exact closing_alike Server.readFence_ne_closes Client.readFence_ne_closes Iff.rfl
      | spoiler header =>
          exact closing_alike Server.readFence_ne_closes nofun Server.readFence_eq_content_iff.symm
      | code => exact closing_alike nofun nofun (by simp)
      | math => exact closing_alike nofun nofun (by simp)

/-- The token of a line tells how it is read. -/
theorem event_inj {first second : Reading Block} {index : Nat} {line : Line}
    (same : event first index line = event second index line) : first = second := by
  cases first with
  | content => cases second <;> first | rfl | cases same
  | closes => cases second <;> first | rfl | cases same
  | opens block =>
      cases second with
      | content => cases same
      | closes => cases same
      | opens other =>
          cases same
          rfl

/-- The same tokens, on both sides, are those of lines that are read alike. -/
theorem events_eq_iff {stack : List Block} (plain : PlainBlocks stack) (index : Nat)
    (lines : List Line) :
    events (Server.read none) stack index lines = events Client.read stack index lines ↔
      LinesAlike stack lines := by
  induction lines generalizing stack index with
  | nil => simp [events, LinesAlike]
  | cons line rest inductionHypothesis =>
      have alike : LineAlike stack.head? line ↔
          Server.read none stack.head? line = Client.read stack.head? line :=
        lineAlike_iff fun block isTop => plain block (List.mem_of_mem_head? isTop)
      rw [events, events, List.cons.injEq, LinesAlike, alike]
      constructor
      · rintro ⟨sameEvent, sameRest⟩
        have sameReading := event_inj sameEvent
        have sameStack : stepStack (Server.read none) stack line =
            stepStack Client.read stack line := by
          rw [stepStack, stepStack, sameReading]
        rw [sameStack] at sameRest
        exact ⟨sameReading, (inductionHypothesis (plain.stepStack line) _).mp sameRest⟩
      · rintro ⟨sameReading, restAlike⟩
        have sameStack : stepStack (Server.read none) stack line =
            stepStack Client.read stack line := by
          rw [stepStack, stepStack, sameReading]
        rw [sameReading, sameStack]
        exact ⟨rfl, (inductionHypothesis (plain.stepStack line) _).mpr restAlike⟩

/-- Lines that are read alike leave the same blocks open. -/
theorem foldl_stepStack_of_linesAlike {stack : List Block} {lines : List Line}
    (plain : PlainBlocks stack) (alike : LinesAlike stack lines) :
    lines.foldl (stepStack (Server.read none)) stack = lines.foldl (stepStack Client.read) stack := by
  induction lines generalizing stack with
  | nil => rfl
  | cons line rest inductionHypothesis =>
      have sameReading := (lineAlike_iff fun block isTop =>
        plain block (List.mem_of_mem_head? isTop)).mp alike.1
      have sameStack : stepStack (Server.read none) stack line =
          stepStack Client.read stack line := by
        rw [stepStack, stepStack, sameReading]
      rw [List.foldl_cons, List.foldl_cons, sameStack]
      exact inductionHypothesis (plain.stepStack line) alike.2

/-! ## Agreement -/

/-- The line of a token. -/
def Token.line? : Token → Option Nat
  | .opened index _ => some index
  | .content index _ => some index
  | .closed index => index

theorem events_map_line? (read : Option Block → Line → Reading Block) (stack : List Block)
    (index : Nat) (lines : List Line) :
    (events read stack index lines).map Token.line? =
      (List.range' index lines.length).map some := by
  induction lines generalizing stack index with
  | nil => rfl
  | cons line rest inductionHypothesis =>
      rw [events, List.map_cons, inductionHypothesis, List.length_cons, List.range'_succ,
        List.map_cons]
      congr 1
      cases read stack.head? line <;> rfl

/-- A list that is inside another one with the same distinct keys is the other one. -/
theorem eq_of_subset_of_map_eq {α β : Type} {key : α → β} {first second : List α}
    (sameKeys : first.map key = second.map key) (distinct : (second.map key).Nodup)
    (subset : ∀ element ∈ first, element ∈ second) : first = second := by
  have sameLength : first.length = second.length := by
    simpa using congrArg List.length sameKeys
  refine List.ext_getElem sameLength fun index isFirst isSecond => ?_
  have sameKey := congrArg (fun keys => keys[index]?) sameKeys
  simp only [List.getElem?_map, List.getElem?_eq_getElem isFirst,
    List.getElem?_eq_getElem isSecond, Option.map_some, Option.some.injEq] at sameKey
  exact List.inj_on_of_nodup_map distinct (subset _ (List.getElem_mem isFirst))
    (List.getElem_mem isSecond) sameKey

/-- When the server's output has all the client's tokens, they are its own tokens. -/
theorem events_eq_of_sublist {lines : List Line}
    (isSublist : (tokens Client.read lines).Sublist (tokens (Server.read none) lines)) :
    events (Server.read none) [] 0 lines = events Client.read [] 0 lines := by
  have distinct : ((events (Server.read none) [] 0 lines).map Token.line?).Nodup := by
    rw [events_map_line?]
    exact List.Nodup.map (fun _ _ => Option.some.inj) (List.nodup_range' 1)
  refine (eq_of_subset_of_map_eq (by rw [events_map_line?, events_map_line?]) distinct
    fun token member => ?_).symm
  have hasLine : ∃ index, token.line? = some index := by
    have isLine := List.mem_map_of_mem (f := Token.line?) member
    rw [events_map_line?] at isLine
    obtain ⟨index, -, isSome⟩ := List.mem_map.mp isLine
    exact ⟨index, isSome.symm⟩
  rcases List.mem_append.mp (isSublist.subset (List.mem_append_left _ member)) with isEvent | isLast
  · exact isEvent
  · obtain ⟨index, isLine⟩ := hasLine
    rw [List.eq_of_mem_replicate isLast] at isLine
    cases isLine

/-- Both sides find the same blocks, with the same lines up to trailing spaces, exactly when every
line is read alike and no block is empty. -/
theorem fencedBlocks_agree_iff (lines : List Line) :
    (Server.run none lines).map Token.normalize =
        (Client.processFencedCode lines).map Token.normalize ↔
      LinesAlike [] lines ∧ NoEmptyBlock (tokens Client.read lines) := by
  obtain ⟨isSublist, isAll⟩ := Server.run_spec lines
  rw [Client.processFencedCode_eq]
  have plain : PlainBlocks [] := nofun
  have sameTokens : LinesAlike [] lines →
      tokens (Server.read none) lines = tokens Client.read lines := by
    intro alike
    rw [tokens, tokens, tokensFrom, tokensFrom, (events_eq_iff plain 0 lines).mpr alike,
      foldl_stepStack_of_linesAlike plain alike]
  constructor
  · intro same
    have alike := (events_eq_iff plain 0 lines).mp (events_eq_of_sublist (same ▸ isSublist))
    rw [sameTokens alike] at isAll
    exact ⟨alike, isAll.mp same⟩
  · rintro ⟨alike, noEmpty⟩
    rw [sameTokens alike] at isAll
    exact isAll.mpr noEmpty

/-- A spoiler with a code block in it. -/
def spoilerText : List Line :=
  ["\x60\x60\x60\x60spoiler".toList, "\x60\x60\x60".toList, "code".toList,
    "\x60\x60\x60".toList, "\x60\x60\x60\x60".toList]

/-- The server finds the code block, and the client does not. -/
theorem fencedBlocks_disagree_spoiler :
    ¬∀ lines : List Line, (Server.run none lines).map Token.normalize =
      (Client.processFencedCode lines).map Token.normalize := by
  intro always
  have same := always spoilerText
  revert same
  decide +kernel

end Zulip.Markdown.Fenced
