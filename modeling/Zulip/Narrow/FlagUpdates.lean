import Zulip.Foundation.Program
import Zulip.Messages.Flags
import Zulip.Narrow.LimitedHistory

/-!
# Updating the flags of a whole narrow

`update_message_flags_for_narrow` changes the flags of one page of a narrow, and the client asks for
page after page. The change may take messages out of the narrow, but only messages that were
processed, so the pages together are what matched at the start.
-/

namespace Zulip.Narrow

open Messages

/-- A row of the narrow's query: the flags of the user's `UserMessage`, if there is one, and the
columns of the message. -/
structure MessageRow (Columns : Type) where
  messageId : Int
  flags : Option Flags
  columns : Columns
deriving DecidableEq

/-- The messages that the user can fetch. -/
abbrev MessageTable (Columns : Type) := MatchingRows (MessageRow Columns) MessageRow.messageId

namespace MessageTable

variable {Columns : Type}

/-- The rows that match a narrow. -/
def narrowed (table : MessageTable Columns) (narrow : MessageRow Columns → Bool) :
    MessageTable Columns where
  rows := table.rows.filter narrow
  distinct := table.distinct.sublist (List.filter_sublist.map _)
  positive row member := table.positive row (List.mem_of_mem_filter member)
  belowMax row member := table.belowMax row (List.mem_of_mem_filter member)

/-- Rows that change their flags keep their ids. -/
def setFlags (table : MessageTable Columns) (change : MessageRow Columns → Option Flags) :
    MessageTable Columns where
  rows := table.rows.map fun row => { row with flags := change row }
  distinct := by
    rw [List.map_map]
    exact table.distinct
  positive := by
    intro row member
    obtain ⟨source, isSource, rfl⟩ := List.mem_map.mp member
    exact table.positive source isSource
  belowMax := by
    intro row member
    obtain ⟨source, isSource, rfl⟩ := List.mem_map.mp member
    exact table.belowMax source isSource

end MessageTable

/-- What the requests read besides the rows. -/
structure UpdateContext (Columns : Type) where
  /-- The message is in a stream that the user is not subscribed to. -/
  inUnsubscribedStream : Columns → Bool
  /-- `bulk_access_messages` keeps the message, for which the user has no `UserMessage`. -/
  hasAccess : Columns → Bool
  /-- `exclude_muting_conditions` hide the message. -/
  isMuted : Columns → Bool
  /-- `get_first_visible_message_id`. -/
  firstVisibleMessageId : Nat

/-! ## The update -/

/-- `UserMessage.NON_EDITABLE_FLAGS`. -/
def nonEditableFlags : Flags :=
  {.hasAlertWord, .mentioned, .streamWildcardMentioned, .topicWildcardMentioned, .groupMentioned,
    .historical, .forceExpand, .forceCollapse}

/-- The checks that `do_update_message_flags` makes of its flag. -/
def editableFlag (flag : String) : Except String Flag :=
  match allFlags.find? fun known => known.name = flag ∧ known ∉ nonApiFlags with
  | none => .error ("Invalid flag: '" ++ flag ++ "'")
  | some known =>
      if known ∈ nonEditableFlags then .error ("Flag not editable: '" ++ flag ++ "'")
      else .ok known

/-- The check of its operation; the result is `is_adding`. -/
def isAddingOperation (operation : String) : Except String Bool :=
  if operation = "add" then .ok true
  else if operation = "remove" then .ok false
  else .error ("Invalid message flag operation: '" ++ operation ++ "'")

section Update

variable {Columns : Type} (context : UpdateContext Columns) (table : MessageTable Columns)

/-- The flags with the flag set or cleared. -/
def withFlag (isAdding : Bool) (flag : Flag) (flags : Flags) : Flags :=
  if isAdding then insert flag flags else flags.erase flag

/-- The rows of `messages` whose flag is not as desired. A message that is marked as unread must be
in a stream with a subscription. -/
def isChanged (isAdding : Bool) (flag : Flag) (messages : List Int) (row : MessageRow Columns) :
    Bool :=
  messages.contains row.messageId &&
    !(flag = .read && !isAdding && context.inUnsubscribedStream row.columns) &&
    decide (flag ∈ row.flags.getD defaultHistoricalFlags) != isAdding

/-- The new flags of a row. A message without a `UserMessage` gets one when its simulated flags are
not as desired. -/
def changedFlags (isAdding : Bool) (flag : Flag) (messages : List Int) (row : MessageRow Columns) :
    Option Flags :=
  if isChanged context isAdding flag messages row then
    some (withFlag isAdding flag (row.flags.getD defaultHistoricalFlags))
  else row.flags

/-- `do_update_message_flags`: how many messages changed, and the rows afterwards. -/
def doUpdateMessageFlags (operation flag : String) (messages : List Int) :
    Except String (Nat × MessageTable Columns) := do
  let flagattr ← editableFlag flag
  let isAdding ← isAddingOperation operation
  let changed := table.rows.filter (isChanged context isAdding flagattr messages)
  let historicalMessages := changed.filter fun row => row.flags.isNone
  if !historicalMessages.all fun row => context.hasAccess row.columns then
    .error "Invalid message(s)"
  else
    .ok (changed.length, table.setFlags (changedFlags context isAdding flagattr messages))

end Update

/-! ## The request -/

/-- The anchors that `parse_anchor_value` understands. -/
inductive AnchorValue where
  | oldest
  | newest
  | firstUnread
  | number (value : Int)
deriving DecidableEq, Repr

/-- `parse_anchor_value`; `none` is the first unread message. -/
def parseAnchorValue : AnchorValue → Option Int
  | .oldest => some 0
  | .newest => some largerThanMaxMessageId
  | .firstUnread => none
  | .number value =>
      if value < 0 then some 0
      else if value > largerThanMaxMessageId then some largerThanMaxMessageId
      else some value

/-- `MAX_MESSAGES_PER_UPDATE`. -/
def maxMessagesPerUpdate : Nat := 5000

section Request

variable {Columns : Type} (context : UpdateContext Columns) (narrow : MessageRow Columns → Bool)
  (table : MessageTable Columns)

/-- `find_first_unread_anchor`. -/
def findFirstUnreadAnchor : Int :=
  let unread := fun row : MessageRow Columns =>
    row.flags.any (fun flags => !flags.test {.read}) && !context.isMuted row.columns
  match (table.narrowed narrow).ordered.find? unread with
  | some row => row.messageId
  | none => largerThanMaxMessageId

/-- The anchor that `fetch_messages` uses. -/
def resolveAnchor (anchorVal : AnchorValue) : Int :=
  (parseAnchorValue anchorVal).getD (findFirstUnreadAnchor context narrow table)

/-- The response of `update_message_flags_for_narrow`. -/
structure NarrowUpdateResponse where
  processedCount : Nat
  updatedCount : Nat
  firstProcessedId : Option Int
  lastProcessedId : Option Int
  foundOldest : Bool
  foundNewest : Bool
deriving DecidableEq, Repr

/-- A request that succeeds: what it processed, what it answered and the rows afterwards. -/
structure NarrowUpdate (Columns : Type) where
  messages : List Int
  response : NarrowUpdateResponse
  table : MessageTable Columns

/-- `update_message_flags_for_narrow`. -/
def updateMessageFlagsForNarrow (anchorVal : AnchorValue) (includeAnchor : Bool)
    (numBefore numAfter : Nat) (operation flag : String) :
    Except String (NarrowUpdate Columns) := do
  let anchor := resolveAnchor context narrow table anchorVal
  if numBefore > 0 ∧ numAfter > 0 ∧ !includeAnchor then
    .error "The anchor can only be excluded at an end of the range"
  else
    let numBefore :=
      min numBefore (max (maxMessagesPerUpdate - numAfter) (maxMessagesPerUpdate / 2))
    let numAfter := min numAfter (maxMessagesPerUpdate - numBefore)
    let queryInfo := fetchMessages MessageRow.messageId (table.narrowed narrow).rows numBefore
      numAfter anchor includeAnchor context.firstVisibleMessageId
    let messages := queryInfo.rows.map (·.messageId)
    let (updatedCount, table) ← doUpdateMessageFlags context table operation flag messages
    return {
      messages
      response :=
        { processedCount := messages.length
          updatedCount
          firstProcessedId := messages.head?
          lastProcessedId := messages.getLast?
          foundOldest := queryInfo.foundOldest
          foundNewest := queryInfo.foundNewest }
      table }

/-! ## The client -/

/-- What ends the client's loop early: the `JsonableError` of a request, or an `assert`. -/
inductive LoopError where
  | jsonable (msg : String)
  | assertion
deriving DecidableEq, Repr

/-- What the client's loop has done so far. -/
structure LoopState (Columns : Type) where
  table : MessageTable Columns
  processed : List Int
  /-- `messages_marked_unread_till_now`. -/
  updatedCount : Nat

/-- The loop of the client, for a number of requests; `none` when they do not suffice. The first
request asks for `numAfter` messages and the others for `followupBatchSize`. -/
def updateByNarrow (operation flag : String) (followupBatchSize : Nat) :
    Nat → LoopState Columns → AnchorValue → Bool → Nat →
      Option (Except LoopError (LoopState Columns))
  | 0, _, _, _, _ => none
  | requests + 1, state, anchorVal, includeAnchor, numAfter =>
      match updateMessageFlagsForNarrow context narrow state.table anchorVal includeAnchor 0 numAfter
          operation flag with
      | .error msg => some (.error (.jsonable msg))
      | .ok update =>
          let state : LoopState Columns :=
            { table := update.table
              processed := state.processed ++ update.messages
              updatedCount := state.updatedCount + update.response.updatedCount }
          if update.response.foundNewest then some (.ok state)
          else
            match update.response.lastProcessedId with
            | none => some (.error .assertion)
            | some lastProcessedId =>
                updateByNarrow operation flag followupBatchSize requests state
                  (.number lastProcessedId) false followupBatchSize

end Request

/-! ## Pages after an anchor -/

namespace MatchingRows

variable {Row : Type} {rowId : Row → Int}

/-- The rows from the anchor on, with the anchor's row if it is included. -/
def remaining (matching : MatchingRows Row rowId) (anchor : Int) (includeAnchor : Bool) : List Row :=
  (if includeAnchor then matching.anchorRows anchor else []) ++ matching.above anchor

theorem mem_remaining {matching : MatchingRows Row rowId} {anchor : Int} {row : Row} :
    row ∈ matching.remaining anchor true ↔ row ∈ matching.rows ∧ anchor ≤ rowId row := by
  simp only [remaining, if_true, List.mem_append, mem_anchorRows, mem_above]
  constructor
  · rintro (⟨isRow, same⟩ | ⟨isRow, above⟩)
    · exact ⟨isRow, same.ge⟩
    · exact ⟨isRow, above.le⟩
  · rintro ⟨isRow, within⟩
    rcases within.eq_or_lt with same | above
    · exact .inl ⟨isRow, same.symm⟩
    · exact .inr ⟨isRow, above⟩

theorem remaining_increasing (matching : MatchingRows Row rowId) (anchor : Int)
    (includeAnchor : Bool) : Increasing rowId (matching.remaining anchor includeAnchor) := by
  have ofOrdered := (matching.ordered_eq anchor) ▸ matching.ordered_increasing
  obtain ⟨-, fromAnchor, -⟩ := Increasing.append.mp ofOrdered
  cases includeAnchor with
  | true => exact fromAnchor
  | false => exact (Increasing.append.mp fromAnchor).2.1

/-- The page when only rows after the anchor are requested. -/
theorem plainPage_after (matching : MatchingRows Row rowId) (anchor : Int) (includeAnchor : Bool)
    {numAfter : Nat} (after : 0 < numAfter) :
    (matching.plainPage 0 numAfter anchor includeAnchor).rows =
      (if includeAnchor then matching.anchorRows anchor else []) ++
        (matching.above anchor).take numAfter := by
  simp [plainPage, Nat.pos_iff_ne_zero.mp after]

/-- The last page holds all that remains. -/
theorem plainPage_of_foundNewest {matching : MatchingRows Row rowId} {anchor : Int}
    {includeAnchor : Bool} {numAfter : Nat} (after : 0 < numAfter)
    (found : (matching.plainPage 0 numAfter anchor includeAnchor).foundNewest = true) :
    (matching.plainPage 0 numAfter anchor includeAnchor).rows =
      matching.remaining anchor includeAnchor := by
  have whole : (matching.above anchor).take numAfter = matching.above anchor := by
    simp only [plainPage, Bool.or_eq_true, decide_eq_true_eq, List.length_take] at found
    rcases found with right | short
    · rw [(matching.right_eq right).2, List.take_nil]
    · exact List.take_of_length_le (by omega)
  rw [matching.plainPage_after anchor includeAnchor after, whole]
  rfl

/-- After another page, what is above its last row remains. -/
theorem plainPage_of_not_foundNewest {matching : MatchingRows Row rowId} {anchor : Int}
    {includeAnchor : Bool} {numAfter : Nat} (after : 0 < numAfter)
    (found : (matching.plainPage 0 numAfter anchor includeAnchor).foundNewest = false) :
    ∃ last ∈ matching.rows,
      (matching.plainPage 0 numAfter anchor includeAnchor).rows.getLast? = some last ∧
        matching.remaining anchor includeAnchor =
          (matching.plainPage 0 numAfter anchor includeAnchor).rows ++
            matching.above (rowId last) := by
  have page := matching.plainPage_after anchor includeAnchor after
  have split : matching.remaining anchor includeAnchor =
      (matching.plainPage 0 numAfter anchor includeAnchor).rows ++
        (matching.above anchor).drop numAfter := by
    rw [page, List.append_assoc, List.take_append_drop]
    rfl
  have enough : numAfter ≤ (matching.above anchor).length := by
    simp only [plainPage, Bool.or_eq_false_iff, decide_eq_false_iff_not, List.length_take] at found
    omega
  obtain ⟨last, isLast⟩ : ∃ last,
      ((matching.above anchor).take numAfter).getLast? = some last := by
    have some : (matching.above anchor).take numAfter ≠ [] := by
      rw [← List.length_pos_iff, List.length_take]
      omega
    exact ⟨_, List.getLast?_eq_some_getLast some⟩
  have lastAbove := List.mem_of_mem_take (List.mem_of_getLast? isLast)
  obtain ⟨isRow, aboveAnchor⟩ := mem_above.mp lastAbove
  refine ⟨last, isRow, ?_, ?_⟩
  · rw [page, List.getLast?_append, isLast]
    rfl
  · rw [split]
    congr 1
    have increasing : Increasing rowId
        ((matching.above anchor).take numAfter ++ (matching.above anchor).drop numAfter) := by
      rw [List.take_append_drop]
      exact matching.ordered_increasing.filter _
    rw [← increasing.filter_above_last isLast, List.take_append_drop, above, above,
      List.filter_filter]
    refine List.filter_congr fun row _ => ?_
    rw [← Bool.decide_and]
    exact decide_eq_decide.mpr ⟨fun both => both.1, fun above => ⟨above, aboveAnchor.trans above⟩⟩

/-- The page consists of rows that were fetched. -/
theorem mem_of_mem_postProcessLimitedQuery {rows : List Row} {numBefore numAfter : Nat} {anchor : Int}
    {anchoredToLeft anchoredToRight : Bool} {firstVisibleMessageId : Int} {row : Row}
    (member : row ∈ (postProcessLimitedQuery rowId rows numBefore numAfter anchor anchoredToLeft
      anchoredToRight firstVisibleMessageId).rows) : row ∈ rows := by
  have ofVisible : ∀ visible : List Row, visible = (if firstVisibleMessageId > 0 then
      rows.filter fun row => firstVisibleMessageId ≤ rowId row else rows) → row ∈ visible →
        row ∈ rows := by
    rintro visible rfl isVisible
    split at isVisible
    · exact List.mem_of_mem_filter isVisible
    · exact isVisible
  have ofTrimmed : ∀ (count : Nat) (trimmed items : List Row), trimmed.Sublist items →
      row ∈ (if count ≠ 0 then trimmed else items) → row ∈ items := by
    intro count trimmed items isTrimmed trimmedMember
    split at trimmedMember
    · exact isTrimmed.subset trimmedMember
    · exact trimmedMember
  refine ofVisible _ rfl ?_
  simp only [postProcessLimitedQuery, List.mem_append] at member
  rcases member with (isBefore | isAnchor) | isAfter
  · have untrimmed := ofTrimmed _ _ _ (rtake_sublist _ _) isBefore
    split at untrimmed
    · exact untrimmed
    · exact List.mem_of_mem_filter untrimmed
  · split at isAnchor
    · cases isAnchor
    · exact List.mem_of_mem_filter isAnchor
  · have untrimmed := ofTrimmed _ _ _ (List.take_sublist _ _) isAfter
    split at untrimmed
    · cases untrimmed
    · exact List.mem_of_mem_filter untrimmed

/-- The limited query selects rows of the query. -/
theorem mem_of_mem_limitQueryToRange {query : List Row} {numBefore numAfter : Nat} {anchor : Int}
    {includeAnchor anchoredToLeft anchoredToRight : Bool} {firstVisibleMessageId : Int} {row : Row}
    (member : row ∈ limitQueryToRange rowId query numBefore numAfter anchor includeAnchor
      anchoredToLeft anchoredToRight firstVisibleMessageId) : row ∈ query := by
  have ofPart : ∀ (all : Bool) (keep : Row → Bool) (count : Nat) (part : List Row),
      part.Perm (if all then query.filter keep else query) → row ∈ part.take count → row ∈ query := by
    intro all keep count part permuted isTaken
    have isPart := permuted.mem_iff.mp (List.mem_of_mem_take isTaken)
    split at isPart
    · exact List.mem_of_mem_filter isPart
    · exact isPart
  have ofBefore := fun keep count => ofPart (!anchoredToRight) keep count _
    (List.perm_insertionSort (fun left right => rowId left ≥ rowId right) _)
  have ofAfter := fun keep count => ofPart (!anchoredToLeft) keep count _
    (List.perm_insertionSort (fun left right => rowId left ≤ rowId right) _)
  simp only [limitQueryToRange] at member
  split at member
  · rcases List.mem_append.mp member with isBefore | isAfter
    · exact ofBefore _ _ isBefore
    · exact ofAfter _ _ isAfter
  · split at member
    · exact ofBefore _ _ member
    · split at member
      · exact ofAfter _ _ member
      · exact List.mem_of_mem_filter member

theorem mem_of_mem_fetchMessages {query : List Row} {numBefore numAfter : Nat} {anchor : Int}
    {includeAnchor : Bool} {firstVisibleMessageId : Int} {row : Row}
    (member : row ∈ (fetchMessages rowId query numBefore numAfter anchor includeAnchor
      firstVisibleMessageId).rows) : row ∈ query :=
  mem_of_mem_limitQueryToRange
    ((List.perm_insertionSort _ _).mem_iff.mp (mem_of_mem_postProcessLimitedQuery member))

/-- A page after an anchor is that of the visible rows, unless rows hidden from the oldest anchor
use up its limit. -/
theorem fetchMessages_after (matching : MatchingRows Row rowId) (firstVisibleMessageId : Nat)
    {anchor : Int} (includeAnchor : Bool) {numAfter : Nat} (after : 0 < numAfter)
    (noneHidden : anchor = 0 → ∀ row ∈ matching.rows, (firstVisibleMessageId : Int) ≤ rowId row) :
    (fetchMessages rowId matching.rows 0 numAfter anchor includeAnchor
        firstVisibleMessageId).SamePage
      ((matching.visible firstVisibleMessageId).plainPage 0 numAfter anchor includeAnchor) := by
  rw [← fetchMessages_eq]
  have allVisible : (∀ row ∈ matching.rows, (firstVisibleMessageId : Int) ≤ rowId row) →
      (matching.visible firstVisibleMessageId).rows = matching.rows := fun visible =>
    List.filter_eq_self.mpr fun row member => decide_eq_true (visible row member)
  rcases Nat.eq_zero_or_pos firstVisibleMessageId with rfl | limited
  · rw [allVisible fun row member => (matching.positive row member).le]
    exact ⟨rfl, rfl, rfl, rfl⟩
  have limited : (0 : Int) < firstVisibleMessageId := Int.natCast_pos.mpr limited
  by_cases left : anchor = 0
  · subst left
    have hidden := matching.fetchMessages_left 0 includeAnchor limited after
    have plain := (matching.visible firstVisibleMessageId).plainPage_left 0 numAfter includeAnchor
    rw [← fetchMessages_eq] at plain
    have noneCounted : matching.hiddenCount firstVisibleMessageId = 0 := by
      rw [hiddenCount, List.length_eq_zero_iff, List.filter_eq_nil_iff]
      intro row member
      simpa using noneHidden rfl row member
    rw [noneCounted, Nat.sub_zero, Nat.min_eq_left (Nat.le_add_right _ _)] at hidden
    exact ⟨hidden.rows.trans plain.rows.symm, hidden.foundAnchor.trans plain.foundAnchor.symm,
      hidden.foundNewest.trans plain.foundNewest.symm,
      hidden.foundOldest.trans plain.foundOldest.symm⟩
  · exact matching.fetchMessages_visible limited fun same => absurd same left

end MatchingRows

/-! ## One request -/

section Requests

open MatchingRows

variable {Columns : Type} {context : UpdateContext Columns} {narrow : MessageRow Columns → Bool}
  {operation flag : String}

/-- The rows that match the narrow and are not hidden. -/
def visibleRows (context : UpdateContext Columns) (narrow : MessageRow Columns → Bool)
    (table : MessageTable Columns) : MessageTable Columns :=
  (table.narrowed narrow).visible context.firstVisibleMessageId

theorem mem_visibleRows {table : MessageTable Columns} {row : MessageRow Columns} :
    row ∈ (visibleRows context narrow table).rows ↔
      row ∈ table.rows ∧ narrow row = true ∧
        (context.firstVisibleMessageId : Int) ≤ row.messageId := by
  simp [visibleRows, visible, MessageTable.narrowed, and_comm]

/-- The flag and the operation are valid, and the user has access to the messages of the narrow. -/
structure Accepts (context : UpdateContext Columns) (narrow : MessageRow Columns → Bool)
    (operation flag : String) (table : MessageTable Columns) : Prop where
  flag : ∃ known, editableFlag flag = .ok known
  operation : ∃ isAdding, isAddingOperation operation = .ok isAdding
  access : ∀ row ∈ table.rows, narrow row = true → row.flags = none →
    context.hasAccess row.columns = true

/-- A row that is not processed does not change. -/
theorem changedFlags_of_not_mem {isAdding : Bool} {known : Flag} {messages : List Int}
    {row : MessageRow Columns} (notProcessed : row.messageId ∉ messages) :
    changedFlags context isAdding known messages row = row.flags := by
  simp [changedFlags, isChanged, notProcessed]

/-- What an accepted update leaves of the rows. -/
theorem doUpdateMessageFlags_eq_ok {table after : MessageTable Columns} {messages : List Int}
    {count : Nat}
    (done : doUpdateMessageFlags context table operation flag messages = .ok (count, after)) :
    ∃ isAdding known, editableFlag flag = .ok known ∧
      after = table.setFlags (changedFlags context isAdding known messages) := by
  obtain ⟨known, isKnown, done⟩ := exists_of_bind_eq_ok done
  obtain ⟨isAdding, -, done⟩ := exists_of_bind_eq_ok done
  dsimp only at done
  split at done
  · cases done
  · cases done
    exact ⟨isAdding, known, isKnown, rfl⟩

/-- Rows above the processed ones match the narrow as before. -/
theorem above_setFlags {table : MessageTable Columns} {isAdding : Bool} {known : Flag}
    {messages : List Int} {last : Int} (within : ∀ message ∈ messages, message ≤ last) :
    (visibleRows context narrow
        (table.setFlags (changedFlags context isAdding known messages))).above last =
      (visibleRows context narrow table).above last := by
  refine Increasing.eq_of_mem_iff ((ordered_increasing _).filter _)
    ((ordered_increasing _).filter _) fun row => ?_
  rw [mem_above, mem_above, mem_visibleRows, mem_visibleRows]
  refine and_congr_left fun above => and_congr_left fun _ => ?_
  have unchanged : ∀ source : MessageRow Columns, last < source.messageId →
      { source with flags := changedFlags context isAdding known messages source } = source := by
    intro source aboveLast
    have notProcessed : source.messageId ∉ messages := fun processed =>
      absurd (within _ processed) (not_le.mpr aboveLast)
    rw [changedFlags_of_not_mem notProcessed]
  constructor
  · intro member
    obtain ⟨source, isSource, rfl⟩ := List.mem_map.mp member
    rwa [unchanged source above]
  · intro member
    exact List.mem_map.mpr ⟨row, member, unchanged row above⟩

/-- The update keeps what makes further updates acceptable. -/
theorem Accepts.setFlags {table : MessageTable Columns} (accepts : Accepts context narrow operation
    flag table) (isAdding : Bool) (known : Flag) (messages : List Int) :
    Accepts context narrow operation flag
      (table.setFlags (changedFlags context isAdding known messages)) where
  flag := accepts.flag
  operation := accepts.operation
  access := by
    intro row member matching noRow
    obtain ⟨source, isSource, rfl⟩ := List.mem_map.mp member
    dsimp only at noRow matching ⊢
    have unchanged : changedFlags context isAdding known messages source = source.flags := by
      unfold changedFlags at noRow ⊢
      split at noRow
      · cases noRow
      · rename_i notChanged
        rw [if_neg notChanged]
    rw [unchanged] at noRow matching
    exact accepts.access source isSource matching noRow

/-- The processed messages are rows of the narrow, so that an acceptable update succeeds. -/
theorem Accepts.doUpdateMessageFlags {table : MessageTable Columns} (accepts : Accepts context narrow
    operation flag table) {messages : List Int}
    (matching : ∀ message ∈ messages, ∃ row ∈ table.rows, narrow row = true ∧
      row.messageId = message) :
    ∃ result, doUpdateMessageFlags context table operation flag messages = .ok result := by
  obtain ⟨known, isKnown⟩ := accepts.flag
  obtain ⟨isAdding, isOperation⟩ := accepts.operation
  have access : ((table.rows.filter (isChanged context isAdding known messages)).filter
      fun row => row.flags.isNone).all (fun row => context.hasAccess row.columns) = true := by
    rw [List.all_eq_true]
    intro row member
    obtain ⟨isChangedRow, noRow⟩ := List.mem_filter.mp member
    obtain ⟨isRow, changed⟩ := List.mem_filter.mp isChangedRow
    have processed : row.messageId ∈ messages := by
      simp only [isChanged, Bool.and_eq_true] at changed
      exact List.contains_iff_mem.mp changed.1.1
    obtain ⟨other, isOther, isMatching, sameId⟩ := matching _ processed
    obtain rfl := List.inj_on_of_nodup_map table.distinct isOther isRow sameId
    exact accepts.access other isRow isMatching (Option.isNone_iff_eq_none.mp noRow)
  refine ⟨((table.rows.filter (isChanged context isAdding known messages)).length,
    table.setFlags (changedFlags context isAdding known messages)),
    bind_eq_ok_iff.mpr ⟨known, isKnown, bind_eq_ok_iff.mpr ⟨isAdding, isOperation, ?_⟩⟩⟩
  dsimp only
  rw [access]
  rfl

variable {table : MessageTable Columns} {anchorVal : AnchorValue} {includeAnchor : Bool}
  {numAfter : Nat}

/-- The page that a request for rows after an anchor fetches. -/
def pageAfter (context : UpdateContext Columns) (narrow : MessageRow Columns → Bool)
    (table : MessageTable Columns) (anchorVal : AnchorValue) (includeAnchor : Bool)
    (numAfter : Nat) : LimitedMessages (MessageRow Columns) :=
  fetchMessages MessageRow.messageId (table.narrowed narrow).rows 0
    (min numAfter maxMessagesPerUpdate) (resolveAnchor context narrow table anchorVal) includeAnchor
    context.firstVisibleMessageId

/-- A request for rows after an anchor updates its page. -/
theorem updateMessageFlagsForNarrow_after :
    updateMessageFlagsForNarrow context narrow table anchorVal includeAnchor 0 numAfter operation
        flag = do
      let page := pageAfter context narrow table anchorVal includeAnchor numAfter
      let messages := page.rows.map (·.messageId)
      let (updatedCount, table) ← doUpdateMessageFlags context table operation flag messages
      return {
        messages
        response :=
          { processedCount := messages.length
            updatedCount
            firstProcessedId := messages.head?
            lastProcessedId := messages.getLast?
            foundOldest := page.foundOldest
            foundNewest := page.foundNewest }
        table } := by
  simp [updateMessageFlagsForNarrow, pageAfter]

/-- What a successful request reports and leaves. -/
theorem updateMessageFlagsForNarrow_eq_ok {update : NarrowUpdate Columns}
    (done : updateMessageFlagsForNarrow context narrow table anchorVal includeAnchor 0 numAfter
      operation flag = .ok update) :
    update.messages = (pageAfter context narrow table anchorVal includeAnchor numAfter).rows.map
        (·.messageId) ∧
      update.response.foundNewest =
        (pageAfter context narrow table anchorVal includeAnchor numAfter).foundNewest ∧
      update.response.lastProcessedId = update.messages.getLast? ∧
      ∃ isAdding known,
        update.table = table.setFlags (changedFlags context isAdding known update.messages) := by
  rw [updateMessageFlagsForNarrow_after] at done
  obtain ⟨⟨count, after⟩, updated, done⟩ := exists_of_bind_eq_ok done
  obtain ⟨isAdding, known, -, isAfter⟩ := doUpdateMessageFlags_eq_ok updated
  cases done
  exact ⟨rfl, rfl, rfl, isAdding, known, isAfter⟩

/-- Every row that is fetched matches the narrow. -/
theorem mem_of_mem_pageAfter {row : MessageRow Columns}
    (member : row ∈ (pageAfter context narrow table anchorVal includeAnchor numAfter).rows) :
    row ∈ table.rows ∧ narrow row = true :=
  List.mem_filter.mp (mem_of_mem_fetchMessages member)

/-- A request whose flag, operation and messages are acceptable succeeds. -/
theorem Accepts.exists_update (accepts : Accepts context narrow operation flag table) :
    ∃ update, updateMessageFlagsForNarrow context narrow table anchorVal includeAnchor 0 numAfter
      operation flag = .ok update := by
  rw [updateMessageFlagsForNarrow_after]
  have matching : ∀ message ∈ (pageAfter context narrow table anchorVal includeAnchor
      numAfter).rows.map (·.messageId), ∃ row ∈ table.rows, narrow row = true ∧
        row.messageId = message := by
    intro message processed
    obtain ⟨row, member, rfl⟩ := List.mem_map.mp processed
    obtain ⟨isRow, matching⟩ := mem_of_mem_pageAfter member
    exact ⟨row, isRow, matching, rfl⟩
  obtain ⟨result, done⟩ := accepts.doUpdateMessageFlags matching
  exact ⟨_, bind_eq_ok_iff.mpr ⟨result, done, rfl⟩⟩

/-- A request that does not report the newest message reports a last one. -/
theorem lastProcessedId_of_not_foundNewest (after : 0 < numAfter) {update : NarrowUpdate Columns}
    (done : updateMessageFlagsForNarrow context narrow table anchorVal includeAnchor 0 numAfter
      operation flag = .ok update) (notNewest : update.response.foundNewest = false) :
    update.response.lastProcessedId ≠ none := by
  obtain ⟨messages, foundNewest, lastProcessedId, -⟩ := updateMessageFlagsForNarrow_eq_ok done
  have positive : min numAfter maxMessagesPerUpdate ≠ 0 := by
    simp [maxMessagesPerUpdate, Nat.pos_iff_ne_zero.mp after]
  rw [foundNewest] at notNewest
  rw [lastProcessedId, messages, ne_eq, List.getLast?_eq_none_iff, List.map_eq_nil_iff]
  intro empty
  simp only [pageAfter, fetchMessages, postProcessLimitedQuery, Bool.or_eq_false_iff,
    List.append_eq_nil_iff, decide_eq_false_iff_not] at notNewest empty
  obtain ⟨notRight, enough⟩ := notNewest
  obtain ⟨-, noneAfter⟩ := empty
  rw [noneAfter] at enough
  simp only [notRight, decide_false, Bool.false_eq_true, if_false, List.length_nil] at enough
  exact enough (Nat.pos_iff_ne_zero.mpr positive)

/-! ## The loop -/

/-- What a request fetches is a plain page of the visible rows. -/
theorem samePage_pageAfter (after : 0 < numAfter)
    (noneHidden : resolveAnchor context narrow table anchorVal = 0 →
      ∀ row ∈ (table.narrowed narrow).rows,
        (context.firstVisibleMessageId : Int) ≤ row.messageId) :
    (pageAfter context narrow table anchorVal includeAnchor numAfter).SamePage
      ((visibleRows context narrow table).plainPage 0 (min numAfter maxMessagesPerUpdate)
        (resolveAnchor context narrow table anchorVal) includeAnchor) :=
  fetchMessages_after _ _ includeAnchor (lt_min after (by decide)) noneHidden

/-- A request that reports the newest message has processed all that was left. -/
theorem processed_of_foundNewest (after : 0 < numAfter)
    (noneHidden : resolveAnchor context narrow table anchorVal = 0 →
      ∀ row ∈ (table.narrowed narrow).rows,
        (context.firstVisibleMessageId : Int) ≤ row.messageId) {update : NarrowUpdate Columns}
    (done : updateMessageFlagsForNarrow context narrow table anchorVal includeAnchor 0 numAfter
      operation flag = .ok update) (newest : update.response.foundNewest = true) :
    update.messages = ((visibleRows context narrow table).remaining
      (resolveAnchor context narrow table anchorVal) includeAnchor).map (·.messageId) := by
  have positive : 0 < min numAfter maxMessagesPerUpdate := lt_min after (by decide)
  obtain ⟨messages, foundNewest, -⟩ := updateMessageFlagsForNarrow_eq_ok done
  have page := @samePage_pageAfter _ context narrow table anchorVal includeAnchor numAfter after
    noneHidden
  have isNewest := newest.symm.trans (foundNewest.trans page.foundNewest)
  rw [messages, ← plainPage_of_foundNewest positive isNewest.symm]
  exact congrArg (List.map _) page.rows

/-- The request after one that does not start above its rows, which it did not change, and has fewer
rows left. -/
theorem remaining_of_not_foundNewest (after : 0 < numAfter)
    (noneHidden : resolveAnchor context narrow table anchorVal = 0 →
      ∀ row ∈ (table.narrowed narrow).rows,
        (context.firstVisibleMessageId : Int) ≤ row.messageId) {update : NarrowUpdate Columns}
    (done : updateMessageFlagsForNarrow context narrow table anchorVal includeAnchor 0 numAfter
      operation flag = .ok update) (notNewest : update.response.foundNewest = false) :
    ∃ last : Int, update.response.lastProcessedId = some last ∧
      resolveAnchor context narrow update.table (.number last) ≠ 0 ∧ update.messages ≠ [] ∧
      ((visibleRows context narrow table).remaining
          (resolveAnchor context narrow table anchorVal) includeAnchor).map (·.messageId) =
        update.messages ++ ((visibleRows context narrow update.table).remaining
          (resolveAnchor context narrow update.table (.number last)) false).map (·.messageId) := by
  have positive : 0 < min numAfter maxMessagesPerUpdate := lt_min after (by decide)
  obtain ⟨messages, foundNewest, lastProcessedId, isAdding, known, isTable⟩ :=
    updateMessageFlagsForNarrow_eq_ok done
  have page := @samePage_pageAfter _ context narrow table anchorVal includeAnchor numAfter after
    noneHidden
  have isMessages := messages.trans (congrArg (List.map _) page.rows)
  have isNewest := notNewest.symm.trans (foundNewest.trans page.foundNewest)
  obtain ⟨last, isRow, isLast, split⟩ := plainPage_of_not_foundNewest positive isNewest.symm
  have isLastId : update.response.lastProcessedId = some last.messageId := by
    rw [lastProcessedId, isMessages, List.getLast?_map, isLast]
    rfl
  have isPositive := (visibleRows context narrow table).positive last isRow
  have belowMax := (visibleRows context narrow table).belowMax last isRow
  have isAnchor : resolveAnchor context narrow update.table (.number last.messageId) =
      last.messageId := by
    simp only [resolveAnchor, parseAnchorValue, not_lt.mpr isPositive.le, not_lt.mpr belowMax.le,
      if_false, Option.getD_some]
  have within : ∀ message ∈ update.messages, message ≤ last.messageId := by
    intro message processed
    rw [isMessages] at processed
    obtain ⟨row, member, rfl⟩ := List.mem_map.mp processed
    have increasing := (visibleRows context narrow table).remaining_increasing
      (resolveAnchor context narrow table anchorVal) includeAnchor
    rw [split] at increasing
    exact (Increasing.append.mp increasing).1.le_getLast isLast row member
  have isAbove : (visibleRows context narrow update.table).remaining last.messageId false =
      (visibleRows context narrow table).above last.messageId := by
    rw [isTable, remaining, above_setFlags within]
    rfl
  refine ⟨last.messageId, isLastId, ?_, ?_, ?_⟩
  · rw [isAnchor]
    exact isPositive.ne'
  · intro noMessages
    rw [isMessages, List.map_eq_nil_iff] at noMessages
    rw [noMessages] at isLast
    cases isLast
  · rw [isAnchor, isAbove, isMessages, ← List.map_append]
    exact congrArg (List.map _) split

/-- What a loop of enough requests ends with. -/
theorem updateByNarrow_spec {followupBatchSize : Nat} (followup : 0 < followupBatchSize)
    (requests : Nat) (state : LoopState Columns) (anchorVal : AnchorValue) (includeAnchor : Bool)
    {numAfter : Nat} (after : 0 < numAfter)
    (noneHidden : resolveAnchor context narrow state.table anchorVal = 0 →
      ∀ row ∈ (state.table.narrowed narrow).rows,
        (context.firstVisibleMessageId : Int) ≤ row.messageId)
    (enough : ((visibleRows context narrow state.table).remaining
      (resolveAnchor context narrow state.table anchorVal) includeAnchor).length < requests) :
    ∃ result, updateByNarrow context narrow operation flag followupBatchSize requests state anchorVal
        includeAnchor numAfter = some result ∧
      result ≠ .error .assertion ∧
      (Accepts context narrow operation flag state.table → ∃ final, result = .ok final) ∧
      ∀ final, result = .ok final → final.processed = state.processed ++
        ((visibleRows context narrow state.table).remaining
          (resolveAnchor context narrow state.table anchorVal) includeAnchor).map (·.messageId) := by
  induction requests generalizing state anchorVal includeAnchor numAfter with
  | zero => exact absurd enough (Nat.not_lt_zero _)
  | succ requests inductionHypothesis =>
      rw [updateByNarrow]
      cases done : updateMessageFlagsForNarrow context narrow state.table anchorVal includeAnchor 0
          numAfter operation flag with
      | error msg =>
          refine ⟨_, rfl, by simp, fun accepts => ?_, by simp⟩
          obtain ⟨update, accepted⟩ := accepts.exists_update
          rw [done] at accepted
          cases accepted
      | ok update =>
          cases newest : update.response.foundNewest with
          | true =>
              simp only [newest, if_true]
              refine ⟨_, rfl, by simp, fun _ => ⟨_, rfl⟩, fun final isFinal => ?_⟩
              cases isFinal
              dsimp only
              rw [processed_of_foundNewest after noneHidden done newest]
          | false =>
              obtain ⟨last, isLast, notZero, someMessages, split⟩ :=
                remaining_of_not_foundNewest after noneHidden done newest
              have shorter := congrArg List.length split
              rw [List.length_map, List.length_append, List.length_map] at shorter
              have processedSome := List.length_pos_of_ne_nil someMessages
              obtain ⟨result, isResult, noAssertion, accepted, isFinal⟩ := inductionHypothesis
                { table := update.table
                  processed := state.processed ++ update.messages
                  updatedCount := state.updatedCount + update.response.updatedCount }
                (.number last) false followup (fun isZero => absurd isZero notZero)
                (by dsimp only; omega)
              simp only [newest, Bool.false_eq_true, if_false, isLast]
              refine ⟨result, isResult, noAssertion, fun accepts => accepted ?_,
                fun final ends => ?_⟩
              · obtain ⟨-, -, -, isAdding, known, isTable⟩ := updateMessageFlagsForNarrow_eq_ok done
                rw [isTable]
                exact accepts.setFlags isAdding known update.messages
              · rw [isFinal final ends, split, List.append_assoc]

end Requests

/-- The loop from an anchor ends within one request more than there are rows of the narrow. Unless a
request is refused, the requests together process the visible rows of the narrow from the anchor on,
each of them once, whatever the flag change does to the narrow. From the oldest anchor, hidden rows
must not use up the limit. -/
theorem updateByNarrow_processes {Columns : Type} (context : UpdateContext Columns)
    (narrow : MessageRow Columns → Bool) (operation flag : String) (table : MessageTable Columns)
    (anchorVal : AnchorValue) {numAfter followupBatchSize : Nat} (after : 0 < numAfter)
    (followup : 0 < followupBatchSize)
    (noneHidden : resolveAnchor context narrow table anchorVal = 0 →
      ∀ row ∈ (table.narrowed narrow).rows,
        (context.firstVisibleMessageId : Int) ≤ row.messageId) :
    (∀ (table : MessageTable Columns) (anchorVal : AnchorValue) (includeAnchor : Bool)
        (update : NarrowUpdate Columns),
      updateMessageFlagsForNarrow context narrow table anchorVal includeAnchor 0 numAfter operation
          flag = .ok update →
        update.response.foundNewest = false → update.response.lastProcessedId ≠ none) ∧
    ∀ requests > (table.narrowed narrow).rows.length,
      ∃ result, updateByNarrow context narrow operation flag followupBatchSize requests ⟨table, [], 0⟩
          anchorVal true numAfter = some result ∧
        result ≠ .error .assertion ∧
        (Accepts context narrow operation flag table → ∃ final, result = .ok final) ∧
        ∀ final, result = .ok final →
          (∀ messageId, messageId ∈ final.processed ↔ ∃ row ∈ table.rows, narrow row = true ∧
            resolveAnchor context narrow table anchorVal ≤ row.messageId ∧
            (context.firstVisibleMessageId : Int) ≤ row.messageId ∧ row.messageId = messageId) ∧
          final.processed.Nodup := by
  refine ⟨fun table anchorVal includeAnchor update => lastProcessedId_of_not_foundNewest after, ?_⟩
  intro requests enough
  have fewer : ((visibleRows context narrow table).remaining
      (resolveAnchor context narrow table anchorVal) true).length < requests := by
    refine lt_of_le_of_lt ?_ enough
    have isOrdered := congrArg List.length ((visibleRows context narrow table).ordered_eq
      (resolveAnchor context narrow table anchorVal))
    have isSorted : (visibleRows context narrow table).ordered.length =
        (visibleRows context narrow table).rows.length :=
      (List.perm_insertionSort _ _).length_eq
    have isFiltered : (visibleRows context narrow table).rows.length ≤
        (table.narrowed narrow).rows.length := List.length_filter_le _ _
    rw [List.length_append] at isOrdered
    simp only [MatchingRows.remaining, if_true]
    omega
  obtain ⟨result, isResult, noAssertion, accepted, isFinal⟩ := updateByNarrow_spec followup requests
    ⟨table, [], 0⟩ anchorVal true after noneHidden fewer
  refine ⟨result, isResult, noAssertion, accepted, fun final ends => ?_⟩
  rw [isFinal final ends, List.nil_append]
  refine ⟨fun messageId => ?_, (MatchingRows.remaining_increasing _ _ _).nodup_map⟩
  rw [List.mem_map]
  constructor
  · rintro ⟨row, member, sameId⟩
    obtain ⟨isRow, within⟩ := MatchingRows.mem_remaining.mp member
    obtain ⟨stored, matching, visible⟩ := mem_visibleRows.mp isRow
    exact ⟨row, stored, matching, within, visible, sameId⟩
  · rintro ⟨row, stored, matching, within, visible, sameId⟩
    exact ⟨row, MatchingRows.mem_remaining.mpr
      ⟨mem_visibleRows.mpr ⟨stored, matching, visible⟩, within⟩, sameId⟩

/-- Three unread messages. -/
def threeUnread : MessageTable Unit where
  rows := [⟨3, some ∅, ()⟩, ⟨1, some ∅, ()⟩, ⟨2, some ∅, ()⟩]
  distinct := by decide
  positive := by decide
  belowMax := by decide

/-- The narrow `is:unread`. -/
def unreadRow (row : MessageRow Unit) : Bool := row.flags.any fun flags => !flags.test {.read}

/-- A user who may read everything that is not hidden. -/
def plainContext (firstVisibleMessageId : Nat) : UpdateContext Unit where
  inUnsubscribedStream _ := false
  hasAccess _ := true
  isMuted _ := false
  firstVisibleMessageId

/-- Marking as read one message at a time takes each message out of the narrow. -/
theorem updateByNarrow_processes_unread :
    ∃ final, updateByNarrow (plainContext 0) unreadRow "add" "read" 1 4 ⟨threeUnread, [], 0⟩ .oldest
        true 1 = some (.ok final) ∧ 3 ∈ final.processed ∧ final.processed.Nodup := by
  obtain ⟨result, isResult, -, accepted, isFinal⟩ :=
    (updateByNarrow_processes (plainContext 0) unreadRow "add" "read" threeUnread .oldest
      (Nat.zero_lt_one) (Nat.zero_lt_one) (by decide)).2 4 (by decide)
  obtain ⟨final, rfl⟩ := accepted ⟨⟨.read, by decide⟩, ⟨true, rfl⟩, by decide⟩
  obtain ⟨processed, distinct⟩ := isFinal final rfl
  exact ⟨final, isResult, (processed 3).mpr ⟨⟨3, some ∅, ()⟩, by decide⟩, distinct⟩

/-- A matching message that the history limit hides is not processed. -/
theorem hidden_not_processed :
    ¬∀ final, updateByNarrow (plainContext 2) unreadRow "add" "read" 1 4 ⟨threeUnread, [], 0⟩
        (.number 1) true 1 = some (.ok final) →
      ∀ row ∈ threeUnread.rows, unreadRow row = true → 1 ≤ row.messageId →
        row.messageId ∈ final.processed := by
  intro processed
  exact absurd (processed _ rfl ⟨1, some ∅, ()⟩ (by decide) (by decide) (by decide)) (by decide)

end Zulip.Narrow
