import Mathlib.Data.Rat.Floor
import Zulip.Client.MessageListOrder
import Zulip.Foundation.LowerBound

/-!
# The selected message

A message list finds the place of an id by a binary search in which a local echo counts as an id
next to the message from the server above it. `selectsRight_iff` says for which lists the search
finds every message, and the closest message to every id.
-/

namespace Zulip.Client

/-- `x % 1`, with the sign of `x`. -/
def remainderOne (x : ℚ) : ℚ := if 0 ≤ x then x - ⌊x⌋ else x - ⌈x⌉

/-- `Number.parseFloat(x.toFixed(0.02))`: the number of digits is truncated to zero, so that `x` is
rounded to an integer, halves away from zero. -/
def roundToInteger (x : ℚ) : ℤ := if 0 ≤ x then ⌊x + 1 / 2⌋ else -⌊-x + 1 / 2⌋

namespace MessageListData

/-- The id that a message counts as in the search. -/
def effectiveId (items : List Message) (index : ℕ) (message : Message) : ℚ :=
  if isLocalonlyId message.id then
    -- The first message from the server before this one.
    match prevNonlocalMessage items index with
    | some effective => effective.id + roundToInteger (remainderOne message.id)
    | none => message.id
  else message.id

/-- `less_func`. -/
def lessFunc (items : List Message) (refId : ℚ) (index : ℕ) : Bool :=
  items[index]?.any fun message => effectiveId items index message < refId

/-- `_lower_bound`. -/
def lowerBound (data : MessageListData) (id : ℚ) : ℕ :=
  Zulip.lowerBound (lessFunc data.items id) data.items.length

/-- `selected_idx`. -/
def selectedIdx (data : MessageListData) : ℕ := data.lowerBound data.selectedId

/-- The loop of `closest_id` over the local echoes above a place: the places it passes, and where it
ends. -/
def skipLocal (items : List Message) : ℕ → List ℕ × ℕ
  | 0 => ([], 0)
  | closest + 1 =>
      if (items[closest]?).any fun message => isLocalonlyId message.id then
        let skipped := skipLocal items closest
        ((closest + 1) :: skipped.1, skipped.2)
      else ([], closest + 1)

/-- One iteration of the choice of the best match. -/
def closerMessage (items : List Message) (id : ℚ) (item : Message) (potentialIdx : ℤ) : Message :=
  if potentialIdx < 0 then item
  else
    match items[potentialIdx.toNat]? with
    | none => item
    | some potentialItem =>
        if |id - potentialItem.id| < |item.id - id| then potentialItem else item

/-- `closest_id`; `none` for a failed assertion. -/
def closestId (data : MessageListData) (id : ℚ) : Option ℚ :=
  if id ∈ data.localOnly then some id
  else if data.items = [] then some (-1)
  else
    let closest := data.lowerBound id
    if data.items[closest]?.any fun item => item.id = id then some id
    else
      let skipped := skipLocal data.items closest
      let potentialClosestMatches : List ℤ := (skipped.1 ++ [skipped.2]).map Int.ofNat
      match data.items[skipped.2]? with
      | none => if skipped.2 = 0 then none else (data.items[skipped.2 - 1]?).map Message.id
      | some item =>
          some (((((skipped.2 : ℤ) - 1) :: potentialClosestMatches).foldl
            (closerMessage data.items id) item).id)

/-- `reset_select_to_closest`. -/
def resetSelectToClosest (data : MessageListData) : Option MessageListData :=
  (data.closestId data.selectedId).map fun id => { data with selectedId := id }

end MessageListData

/-- The visible messages in display order: the messages from the server by id, and every local echo
above the messages from the server that came after it was sent. -/
structure DisplayOrder (data : MessageListData) : Prop where
  server : Increasing Message.id (nonlocal data.items)
  distinct : (data.items.map Message.id).Nodup
  echoes : ∀ message ∈ data.items, isLocalonlyId message.id = true →
    0 ≤ message.id ∧ 1 / 100 ≤ Int.fract message.id ∧ Int.fract message.id ≤ 99 / 100
  sent : data.items.Pairwise fun above below =>
    isLocalonlyId above.id = true → isLocalonlyId below.id = false → above.id < below.id
  localOnly : ∀ id ∈ data.localOnly, isLocalonlyId id = true

/-- The search finds every message, and the closest message to every id of the server. -/
structure SelectsRight (data : MessageListData) : Prop where
  lowerBound : ∀ message ∈ data.items,
    (data.items[data.lowerBound message.id]?).map Message.id = some message.id
  selected : ∀ message ∈ data.items,
    (data.items[({ data with selectedId := message.id } : MessageListData).selectedIdx]?).map
      Message.id = some message.id
  closestOfEmpty : data.items = [] → ∀ id : ℤ, data.closestId id = some (-1)
  closestOfPresent : ∀ id : ℤ, (id : ℚ) ∈ data.items.map Message.id →
    data.closestId id = some (id : ℚ)
  closest : data.items ≠ [] → ∀ id : ℤ, ∃ message ∈ data.items,
    data.closestId id = some message.id ∧
      ∀ other ∈ data.items, |(id : ℚ) - message.id| ≤ |(id : ℚ) - other.id|

/-- The local echoes above all messages from the server are in order. Every other one stands right
below the message that was newest when it was sent, is rounded up, and is not right above the
message with the next id. -/
structure EchoesInPlace (items : List Message) : Prop where
  leading : ∀ (index : ℕ) (echo next : Message), items[index]? = some echo →
    items[index + 1]? = some next → isLocalonlyId next.id = true →
      MessageListData.prevNonlocalMessage items (index + 1 : ℕ) = none → echo.id < next.id
  following : ∀ (index : ℕ) (echo server : Message), items[index]? = some echo →
    isLocalonlyId echo.id = true → MessageListData.prevNonlocalMessage items index = some server →
      (∃ above, index = above + 1 ∧ items[above]? = some server) ∧
        server.id = ⌊echo.id⌋ ∧ 1 / 2 ≤ Int.fract echo.id ∧
        ∀ next, items[index + 1]? = some next → next.id ≠ server.id + 1

/-! ## Messages from the server and local echoes -/

theorem isLocalonlyId_eq_false_iff {id : ℚ} :
    isLocalonlyId id = false ↔ ∃ server : ℤ, (server : ℚ) = id := by
  rw [isLocalonlyId, decide_eq_false_iff_not, not_not]
  constructor
  · intro whole
    exact ⟨id.num, Rat.den_eq_one_iff id |>.mp whole⟩
  · rintro ⟨server, rfl⟩
    exact Rat.den_intCast server

/-- A local echo is rounded down or up. -/
theorem roundToInteger_remainder {id : ℚ} (nonneg : 0 ≤ id) :
    roundToInteger (remainderOne id) = if 1 / 2 ≤ Int.fract id then 1 else 0 := by
  have fract : remainderOne id = Int.fract id := if_pos nonneg
  have fractNonneg := Int.fract_nonneg id
  have fractBelow := Int.fract_lt_one id
  rw [fract, roundToInteger, if_pos fractNonneg]
  split_ifs with half
  · rw [Int.floor_eq_iff]
    constructor
    · push_cast
      linarith
    · push_cast
      linarith
  · rw [Int.floor_eq_iff]
    constructor
    · push_cast
      linarith
    · push_cast
      linarith [not_le.mp half]

namespace MessageListData

variable {items : List Message} {index : ℕ} {message : Message}

theorem prevNonlocalMessage_zero : prevNonlocalMessage items (0 : ℕ) = none := rfl

/-- The message right above is from the server, or the search goes on above it. -/
theorem prevNonlocalMessage_succ (found : items[index]? = some message) :
    prevNonlocalMessage items (index + 1 : ℕ) =
      if isLocalonlyId message.id then prevNonlocalMessage items index else some message := by
  unfold prevNonlocalMessage
  rw [Int.toNat_natCast, Int.toNat_natCast, List.take_add_one, found, Option.toList_some,
    List.reverse_append, List.reverse_singleton, List.singleton_append, List.find?_cons]
  cases isLocalonlyId message.id <;> rfl

/-- The message found above is from the server, and above. -/
theorem prevNonlocalMessage_spec {server : Message}
    (found : prevNonlocalMessage items index = some server) :
    isLocalonlyId server.id = false ∧ ∃ above < index, items[above]? = some server := by
  unfold prevNonlocalMessage at found
  rw [Int.toNat_natCast] at found
  have isServer := List.find?_some found
  have member := List.mem_reverse.mp (List.mem_of_find?_eq_some found)
  obtain ⟨above, isAbove⟩ := List.mem_iff_getElem?.mp member
  rw [List.getElem?_take] at isAbove
  split_ifs at isAbove with before
  refine ⟨?_, above, before, isAbove⟩
  simpa using isServer

theorem lessFunc_of_getElem? (found : items[index]? = some message) (refId : ℚ) :
    lessFunc items refId index = true ↔ effectiveId items index message < refId := by
  rw [lessFunc, found, Option.any_some, decide_eq_true_eq]

theorem effectiveId_of_server (server : isLocalonlyId message.id = false) :
    effectiveId items index message = message.id := by
  rw [effectiveId, server]
  rfl

theorem effectiveId_of_leading (noServer : prevNonlocalMessage items index = none) :
    effectiveId items index message = message.id := by
  rw [effectiveId, noServer]
  split <;> rfl

theorem effectiveId_of_following {server : Message} (echo : isLocalonlyId message.id = true)
    (nonneg : 0 ≤ message.id) (isServer : prevNonlocalMessage items index = some server) :
    effectiveId items index message =
      server.id + if 1 / 2 ≤ Int.fract message.id then 1 else 0 := by
  rw [effectiveId, if_pos echo, isServer]
  dsimp only
  rw [roundToInteger_remainder nonneg]
  split_ifs <;> simp

end MessageListData

open MessageListData

variable {data : MessageListData}

/-- The search finds the place of a message, which no other has the id of. -/
theorem SelectsRight.place (selects : SelectsRight data) (display : DisplayOrder data) {place : ℕ}
    {message : Message} (found : data.items[place]? = some message) :
    data.lowerBound message.id = place := by
  have isFound := selects.lowerBound message (List.mem_of_getElem? found)
  have atPlace : (data.items.map Message.id)[place]? = some message.id := by
    rw [List.getElem?_map, found]
    rfl
  have atFound : (data.items.map Message.id)[data.lowerBound message.id]? = some message.id := by
    rw [List.getElem?_map, isFound]
  have inList : place < (data.items.map Message.id).length :=
    (List.getElem?_eq_some_iff.mp atPlace).1
  exact ((List.getElem?_inj inList display.distinct).mp (atPlace.trans atFound.symm)).symm

/-- What the search compares: the message itself is not less, and the one above it is. -/
theorem SelectsRight.compared (selects : SelectsRight data) (display : DisplayOrder data)
    {place : ℕ} {message : Message} (found : data.items[place]? = some message) :
    message.id ≤ effectiveId data.items place message ∧
      ∀ above previous, place = above + 1 → data.items[above]? = some previous →
        effectiveId data.items above previous < message.id := by
  have isPlace := selects.place display found
  have inList := (List.getElem?_eq_some_iff.mp found).1
  unfold MessageListData.lowerBound at isPlace
  constructor
  · have fails := @lowerBound_at (lessFunc data.items message.id) data.items.length (by omega)
    rw [isPlace] at fails
    rw [← not_lt, ← lessFunc_of_getElem? found, fails]
    exact Bool.false_ne_true
  · rintro above previous rfl isPrevious
    have holds := @lowerBound_before (lessFunc data.items message.id) data.items.length (by omega)
    rw [isPlace, Nat.add_sub_cancel] at holds
    exact (lessFunc_of_getElem? isPrevious _).mp holds

/-- A local echo below a message from the server is found only right below the message that was
newest when it was sent, and when it is rounded up. -/
theorem SelectsRight.following (selects : SelectsRight data) (display : DisplayOrder data)
    {place : ℕ} {echo server : Message} (found : data.items[place]? = some echo)
    (isEcho : isLocalonlyId echo.id = true)
    (isServer : prevNonlocalMessage data.items place = some server) :
    (∃ above, place = above + 1 ∧ data.items[above]? = some server) ∧
      server.id = ⌊echo.id⌋ ∧ 1 / 2 ≤ Int.fract echo.id := by
  -- The induction is on the place: an echo right above would have to be rounded up as well.
  induction place generalizing echo with
  | zero =>
      rw [prevNonlocalMessage_zero] at isServer
      cases isServer
  | succ above inductionHypothesis =>
      obtain ⟨notLess, lessAbove⟩ := selects.compared display found
      obtain ⟨nonneg, atLeast, atMost⟩ := display.echoes echo (List.mem_of_getElem? found) isEcho
      obtain ⟨serverId, isServerId⟩ :=
        isLocalonlyId_eq_false_iff.mp (prevNonlocalMessage_spec isServer).1
      have inList := (List.getElem?_eq_some_iff.mp found).1
      obtain ⟨previous, isPrevious⟩ : ∃ previous, data.items[above]? = some previous :=
        ⟨_, List.getElem?_eq_getElem (by omega)⟩
      have previousLess := lessAbove above previous rfl isPrevious
      rw [effectiveId_of_following isEcho nonneg isServer] at notLess
      rw [prevNonlocalMessage_succ isPrevious] at isServer
      have parts := Int.floor_add_fract echo.id
      -- The number of the server message above is the whole part of the echo.
      have whole : server.id < echo.id → server.id = ⌊echo.id⌋ ∧ 1 / 2 ≤ Int.fract echo.id := by
        intro isLess
        split_ifs at notLess with half
        · refine ⟨?_, half⟩
          rw [← isServerId] at notLess isLess ⊢
          have floorLe : serverId ≤ ⌊echo.id⌋ := Int.le_floor.mpr isLess.le
          have floorGe : ⌊echo.id⌋ < serverId + 1 := by
            have : (⌊echo.id⌋ : ℚ) < serverId + 1 := by linarith
            exact_mod_cast this
          have same : serverId = ⌊echo.id⌋ := by omega
          exact_mod_cast same
        · linarith
      by_cases previousEcho : isLocalonlyId previous.id = true
      · rw [if_pos previousEcho] at isServer
        obtain ⟨-, previousWhole, previousHalf⟩ :=
          inductionHypothesis isPrevious previousEcho isServer
        have previousNonneg :=
          (display.echoes previous (List.mem_of_getElem? isPrevious) previousEcho).1
        rw [effectiveId_of_following previousEcho previousNonneg isServer,
          if_pos previousHalf] at previousLess
        split_ifs at notLess <;> linarith
      · rw [if_neg previousEcho, Option.some.injEq] at isServer
        subst isServer
        rw [effectiveId_of_server (Bool.eq_false_iff.mpr previousEcho)] at previousLess
        exact ⟨⟨above, rfl, isPrevious⟩, whole previousLess⟩

/-- When the search finds every message, the echoes are in place. -/
theorem SelectsRight.echoesInPlace (selects : SelectsRight data) (display : DisplayOrder data) :
    EchoesInPlace data.items where
  leading index echo next isEcho isNext nextEcho noServer := by
    have less := (selects.compared display isNext).2 index echo rfl isEcho
    rw [prevNonlocalMessage_succ isEcho] at noServer
    split_ifs at noServer with echoEcho
    rwa [effectiveId_of_leading noServer] at less
  following index echo server isEcho echoEcho isServer := by
    obtain ⟨rightBelow, whole, half⟩ := selects.following display isEcho echoEcho isServer
    refine ⟨rightBelow, whole, half, fun next isNext isSuccessor => ?_⟩
    -- The search for the next message would stop at the echo, which counts as its id.
    have less := (selects.compared display isNext).2 index echo rfl isEcho
    have nonneg := (display.echoes echo (List.mem_of_getElem? isEcho) echoEcho).1
    rw [effectiveId_of_following echoEcho nonneg isServer, if_pos half, isSuccessor] at less
    exact lt_irrefl _ less

/-! ## Echoes in place -/

/-- The messages from the server above and below. -/
theorem DisplayOrder.server_lt (display : DisplayOrder data) {above below : ℕ}
    {first second : Message} (isFirst : data.items[above]? = some first)
    (isSecond : data.items[below]? = some second) (before : above < below)
    (firstServer : isLocalonlyId first.id = false)
    (secondServer : isLocalonlyId second.id = false) : first.id < second.id := by
  have ordered := List.pairwise_filter.mp display.server
  obtain ⟨aboveIn, rfl⟩ := List.getElem?_eq_some_iff.mp isFirst
  obtain ⟨belowIn, rfl⟩ := List.getElem?_eq_some_iff.mp isSecond
  exact List.pairwise_iff_getElem.mp ordered above below aboveIn belowIn before
    (by rw [firstServer]; rfl) (by rw [secondServer]; rfl)

theorem DisplayOrder.echo_lt (display : DisplayOrder data) {above below : ℕ}
    {echo server : Message} (isEcho : data.items[above]? = some echo)
    (isServer : data.items[below]? = some server) (before : above < below)
    (echoEcho : isLocalonlyId echo.id = true)
    (serverServer : isLocalonlyId server.id = false) : echo.id < server.id := by
  obtain ⟨aboveIn, rfl⟩ := List.getElem?_eq_some_iff.mp isEcho
  obtain ⟨belowIn, rfl⟩ := List.getElem?_eq_some_iff.mp isServer
  exact List.pairwise_iff_getElem.mp display.sent above below aboveIn belowIn before echoEcho
    serverServer

/-- What a place counts as, when the echoes are in place: an echo below a message from the server
counts as the next id, and everything else as its own. -/
theorem EchoesInPlace.effectiveId_bounds (inPlace : EchoesInPlace data.items)
    (display : DisplayOrder data) {place : ℕ} {message : Message}
    (found : data.items[place]? = some message) :
    message.id ≤ effectiveId data.items place message ∧
      (effectiveId data.items place message = message.id ∨
        ∃ above server, place = above + 1 ∧ data.items[above]? = some server ∧
          isLocalonlyId server.id = false ∧
          effectiveId data.items place message = server.id + 1 ∧
          server.id < message.id ∧ server.id + 1 / 2 ≤ message.id ∧
          ∀ next, data.items[place + 1]? = some next → server.id + 2 ≤ next.id) := by
  by_cases echo : isLocalonlyId message.id = true
  · cases isServer : prevNonlocalMessage data.items place with
    | none =>
        rw [effectiveId_of_leading isServer]
        exact ⟨le_rfl, .inl rfl⟩
    | some server =>
        obtain ⟨⟨above, rfl, isAbove⟩, whole, half, notNext⟩ :=
          inPlace.following place message server found echo isServer
        obtain ⟨nonneg, atLeast, -⟩ := display.echoes message (List.mem_of_getElem? found) echo
        have parts := Int.floor_add_fract message.id
        have below := Int.fract_lt_one message.id
        rw [effectiveId_of_following echo nonneg isServer, if_pos half, whole]
        have serverServer := (prevNonlocalMessage_spec isServer).1
        rw [← whole] at parts ⊢
        refine ⟨by linarith, .inr ⟨above, server, rfl, isAbove, serverServer, rfl, by linarith,
          by linarith, fun next isNext => ?_⟩⟩
        -- An echo right below this one would be below another message from the server.
        have nextServer : isLocalonlyId next.id = false := by
          by_contra nextEcho
          have sameServer := prevNonlocalMessage_succ found
          rw [if_pos echo, isServer] at sameServer
          obtain ⟨⟨between, same, isBetween⟩, -⟩ := inPlace.following (above + 1 + 1) next server
            isNext (Bool.not_eq_false _ ▸ nextEcho) sameServer
          obtain rfl : above + 1 = between := by omega
          obtain rfl : message = server := Option.some.inj (found.symm.trans isBetween)
          rw [serverServer] at echo
          cases echo
        -- The next id is free, so that the next message comes after it.
        have after := display.server_lt isAbove isNext (by omega) serverServer nextServer
        have differs := notNext next isNext
        obtain ⟨serverId, isServerId⟩ := isLocalonlyId_eq_false_iff.mp serverServer
        obtain ⟨nextId, isNextId⟩ := isLocalonlyId_eq_false_iff.mp nextServer
        rw [← isServerId, ← isNextId] at after differs ⊢
        have afterInt : serverId < nextId := by exact_mod_cast after
        have differsInt : nextId ≠ serverId + 1 := by exact_mod_cast differs
        have later : serverId + 2 ≤ nextId := by omega
        exact_mod_cast later
  · rw [effectiveId_of_server (Bool.eq_false_iff.mpr echo)]
    exact ⟨le_rfl, .inl rfl⟩

/-- From one place to the next, what the places count as increases, and so do the ids. -/
theorem EchoesInPlace.next_lt (inPlace : EchoesInPlace data.items) (display : DisplayOrder data)
    {place : ℕ} {message next : Message} (found : data.items[place]? = some message)
    (isNext : data.items[place + 1]? = some next) :
    message.id < next.id ∧
      effectiveId data.items place message < effectiveId data.items (place + 1) next := by
  by_cases nextEcho : isLocalonlyId next.id = true
  · cases isServer : prevNonlocalMessage data.items (place + 1 : ℕ) with
    | none =>
        have less := inPlace.leading place message next found isNext nextEcho isServer
        have noServer := isServer
        rw [prevNonlocalMessage_succ found] at noServer
        split_ifs at noServer with echo
        rw [effectiveId_of_leading isServer, effectiveId_of_leading noServer]
        exact ⟨less, less⟩
    | some server =>
        obtain ⟨⟨above, same, isAbove⟩, whole, half, -⟩ :=
          inPlace.following (place + 1) next server isNext nextEcho isServer
        obtain rfl : place = above := by omega
        obtain rfl : message = server := Option.some.inj (found.symm.trans isAbove)
        have nonneg := (display.echoes next (List.mem_of_getElem? isNext) nextEcho).1
        have parts := Int.floor_add_fract next.id
        rw [effectiveId_of_following nextEcho nonneg isServer, if_pos half,
          effectiveId_of_server (prevNonlocalMessage_spec isServer).1]
        constructor <;> linarith
  · have nextServer := Bool.eq_false_iff.mpr nextEcho
    rw [effectiveId_of_server nextServer]
    by_cases echo : isLocalonlyId message.id = true
    · have less := display.echo_lt found isNext (Nat.lt_succ_self place) echo nextServer
      refine ⟨less, ?_⟩
      rcases (inPlace.effectiveId_bounds display found).2 with same | ⟨_, server, _, _, _, counts,
        _, _, later⟩
      · rwa [same]
      · rw [counts]
        linarith [later next isNext]
    · have server := Bool.eq_false_iff.mpr echo
      have less := display.server_lt found isNext (Nat.lt_succ_self place) server nextServer
      rw [effectiveId_of_server server]
      exact ⟨less, less⟩

theorem EchoesInPlace.lt_of_lt (inPlace : EchoesInPlace data.items) (display : DisplayOrder data)
    {above below : ℕ} {first second : Message} (isFirst : data.items[above]? = some first)
    (isSecond : data.items[below]? = some second) (before : above < below) :
    first.id < second.id ∧
      effectiveId data.items above first < effectiveId data.items below second := by
  induction below, before using Nat.le_induction generalizing second with
  | base => exact inPlace.next_lt display isFirst isSecond
  | succ between _ inductionHypothesis =>
      have inList := (List.getElem?_eq_some_iff.mp isSecond).1
      obtain ⟨middle, isMiddle⟩ : ∃ middle, data.items[between]? = some middle :=
        ⟨_, List.getElem?_eq_getElem (by omega)⟩
      have rest := inPlace.next_lt display isMiddle isSecond
      have start := inductionHypothesis isMiddle
      exact ⟨start.1.trans rest.1, start.2.trans rest.2⟩

/-- The search finds the place before which everything counts as less. -/
theorem EchoesInPlace.lowerBound_spec (inPlace : EchoesInPlace data.items)
    (display : DisplayOrder data) (id : ℚ) {place : ℕ} {message : Message}
    (found : data.items[place]? = some message) :
    effectiveId data.items place message < id ↔ place < data.lowerBound id := by
  have inList := (List.getElem?_eq_some_iff.mp found).1
  have atMost := @lowerBound_le (lessFunc data.items id) data.items.length
  unfold MessageListData.lowerBound
  constructor
  · intro less
    by_contra notBefore
    obtain ⟨stop, isStop⟩ : ∃ stop,
        data.items[Zulip.lowerBound (lessFunc data.items id) data.items.length]? = some stop :=
      ⟨_, List.getElem?_eq_getElem (by omega)⟩
    have fails := @lowerBound_at (lessFunc data.items id) data.items.length (by omega)
    have notLess : ¬ effectiveId data.items
        (Zulip.lowerBound (lessFunc data.items id) data.items.length) stop < id := by
      rw [← lessFunc_of_getElem? isStop, fails]
      exact Bool.false_ne_true
    rcases Nat.lt_or_eq_of_le (not_lt.mp notBefore) with after | same
    · exact notLess ((inPlace.lt_of_lt display isStop found after).2.trans less)
    · rw [same] at isStop notLess
      obtain rfl : stop = message := Option.some.inj (isStop.symm.trans found)
      exact notLess less
  · intro before
    obtain ⟨last, isLast⟩ : ∃ last,
        data.items[Zulip.lowerBound (lessFunc data.items id) data.items.length - 1]? = some last :=
      ⟨_, List.getElem?_eq_getElem (by omega)⟩
    have holds := @lowerBound_before (lessFunc data.items id) data.items.length (by omega)
    have less := (lessFunc_of_getElem? isLast id).mp holds
    rcases Nat.lt_or_eq_of_le (Nat.le_sub_one_of_lt before) with earlier | same
    · exact (inPlace.lt_of_lt display found isLast earlier).2.trans less
    · rw [← same] at isLast less
      obtain rfl : last = message := Option.some.inj (isLast.symm.trans found)
      exact less

/-- The search finds every message. -/
theorem EchoesInPlace.lowerBound_eq (inPlace : EchoesInPlace data.items)
    (display : DisplayOrder data) {place : ℕ} {message : Message}
    (found : data.items[place]? = some message) : data.lowerBound message.id = place := by
  obtain ⟨atLeast, cases⟩ := inPlace.effectiveId_bounds display found
  have notAfter : ¬ place < data.lowerBound message.id := fun before =>
    absurd ((inPlace.lowerBound_spec display message.id found).mpr before) (not_lt.mpr atLeast)
  refine le_antisymm (not_lt.mp notAfter) ?_
  by_contra before
  have inList := (List.getElem?_eq_some_iff.mp found).1
  obtain ⟨stop, isStop⟩ : ∃ stop, data.items[data.lowerBound message.id]? = some stop :=
    ⟨_, List.getElem?_eq_getElem (by omega)⟩
  have notLess : ¬ effectiveId data.items _ stop < message.id := fun less =>
    lt_irrefl _ ((inPlace.lowerBound_spec display message.id isStop).mp less)
  rcases cases with same | ⟨above, server, rfl, isAbove, serverServer, _, less, _⟩
  · exact notLess ((inPlace.lt_of_lt display isStop found (by omega)).2.trans_eq same)
  · rcases Nat.lt_or_eq_of_le (show data.lowerBound message.id ≤ above by omega) with earlier | same
    · have counts := (inPlace.lt_of_lt display isStop isAbove earlier).2
      rw [effectiveId_of_server serverServer] at counts
      exact notLess (counts.trans less)
    · rw [same] at isStop notLess
      obtain rfl : stop = server := Option.some.inj (isStop.symm.trans isAbove)
      rw [effectiveId_of_server serverServer] at notLess
      exact notLess less

/-! ## The closest message -/

/-- The choice of the best match is among the messages, and none of the places has a closer one. -/
theorem foldl_closerMessage (items : List Message) (id : ℚ) (places : List ℤ) {item : Message}
    (member : item ∈ items) :
    places.foldl (closerMessage items id) item ∈ items ∧
      |id - (places.foldl (closerMessage items id) item).id| ≤ |id - item.id| ∧
      ∀ (place : ℕ) (other : Message), (place : ℤ) ∈ places → items[place]? = some other →
        |id - (places.foldl (closerMessage items id) item).id| ≤ |id - other.id| := by
  induction places generalizing item with
  | nil => exact ⟨member, le_rfl, fun _ _ absent => absurd absent List.not_mem_nil⟩
  | cons first rest inductionHypothesis =>
      have chosen : closerMessage items id item first ∈ items ∧
          |id - (closerMessage items id item first).id| ≤ |id - item.id| ∧
          ∀ (place : ℕ) (other : Message), (place : ℤ) = first → items[place]? = some other →
            |id - (closerMessage items id item first).id| ≤ |id - other.id| := by
        unfold closerMessage
        split_ifs with negative
        · exact ⟨member, le_rfl, fun place _ same => by omega⟩
        · cases found : items[first.toNat]? with
          | none =>
              refine ⟨member, le_rfl, fun place other same isOther => ?_⟩
              rw [← same, Int.toNat_natCast, isOther] at found
              cases found
          | some potential =>
              have swapped := abs_sub_comm item.id id
              dsimp only
              split_ifs with closer
              · refine ⟨List.mem_of_getElem? found, by linarith, fun place other same isOther => ?_⟩
                rw [← same, Int.toNat_natCast, isOther, Option.some.injEq] at found
                rw [found]
              · refine ⟨member, le_rfl, fun place other same isOther => ?_⟩
                rw [← same, Int.toNat_natCast, isOther, Option.some.injEq] at found
                rw [found]
                linarith
      obtain ⟨isMember, notFarther, closest⟩ := inductionHypothesis chosen.1
      refine ⟨isMember, notFarther.trans chosen.2.1, fun place other isPlace isOther => ?_⟩
      rcases List.mem_cons.mp isPlace with same | isRest
      · exact notFarther.trans (chosen.2.2 place other same isOther)
      · exact closest place other isRest isOther

/-- The loop passes all places down to where it ends. -/
theorem skipLocal_spec (items : List Message) (closest : ℕ) :
    (skipLocal items closest).2 ≤ closest ∧
      ∀ place, (skipLocal items closest).2 ≤ place → place ≤ closest →
        place ∈ (skipLocal items closest).1 ++ [(skipLocal items closest).2] := by
  induction closest with
  | zero =>
      refine ⟨le_rfl, fun place _ atMost => ?_⟩
      obtain rfl : place = 0 := by omega
      exact List.mem_singleton_self 0
  | succ closest inductionHypothesis =>
      unfold skipLocal
      split_ifs
      · obtain ⟨notAfter, passes⟩ := inductionHypothesis
        refine ⟨by dsimp only; omega, fun place atLeast atMost => ?_⟩
        rcases Nat.lt_or_eq_of_le atMost with before | rfl
        · exact List.mem_cons_of_mem _ (passes place atLeast (by omega))
        · exact List.mem_cons_self
      · refine ⟨le_rfl, fun place atLeast atMost => ?_⟩
        obtain rfl : place = closest + 1 := le_antisymm atMost atLeast
        exact List.mem_singleton_self _

/-- The messages right before and at the place that is found are the closest ones. -/
theorem EchoesInPlace.closest (inPlace : EchoesInPlace data.items) (display : DisplayOrder data)
    (id : ℤ) {place : ℕ} {other : Message} (isOther : data.items[place]? = some other) :
    ∃ (near : ℕ) (closer : Message), (near + 1 = data.lowerBound id ∨ near = data.lowerBound id) ∧
      data.items[near]? = some closer ∧ |(id : ℚ) - closer.id| ≤ |(id : ℚ) - other.id| := by
  have inList := (List.getElem?_eq_some_iff.mp isOther).1
  by_cases before : place < data.lowerBound id
  · -- Everything before the place counts as less, and the last of it is the closest.
    have atMost := @lowerBound_le (lessFunc data.items id) data.items.length
    have bound : data.lowerBound id ≤ data.items.length := atMost
    obtain ⟨last, isLast⟩ : ∃ last, data.items[data.lowerBound id - 1]? = some last :=
      ⟨_, List.getElem?_eq_getElem (by omega)⟩
    refine ⟨_, last, .inl (by omega), isLast, ?_⟩
    have less := (inPlace.lowerBound_spec display id isLast).mpr (by omega)
    have lastBelow := (inPlace.effectiveId_bounds display isLast).1
    have ordered : other.id ≤ last.id := by
      rcases Nat.lt_or_eq_of_le (Nat.le_sub_one_of_lt before) with earlier | same
      · exact (inPlace.lt_of_lt display isOther isLast earlier).1.le
      · rw [same] at isOther
        exact (congrArg Message.id (Option.some.inj (isOther.symm.trans isLast))).le
    rw [abs_of_nonneg (by linarith), abs_of_nonneg (by linarith)]
    linarith
  · obtain ⟨stop, isStop⟩ : ∃ stop, data.items[data.lowerBound id]? = some stop :=
      ⟨_, List.getElem?_eq_getElem (by omega)⟩
    refine ⟨_, stop, .inr rfl, isStop, ?_⟩
    have notLess : (id : ℚ) ≤ effectiveId data.items (data.lowerBound id) stop :=
      not_lt.mp fun less =>
        lt_irrefl _ ((inPlace.lowerBound_spec display id isStop).mp less)
    rcases Nat.lt_or_eq_of_le (not_lt.mp before) with after | same
    · have ordered := (inPlace.lt_of_lt display isStop isOther after).1
      rcases le_or_gt (id : ℚ) stop.id with above | below
      · rw [abs_of_nonpos (by linarith), abs_of_nonpos (by linarith)]
        linarith
      · -- An echo that is rounded up to the id is at most half away, and the next message is farther.
        rcases (inPlace.effectiveId_bounds display isStop).2 with itself | ⟨above, server, isAbove,
          _, serverServer, counts, less, half, later⟩
        · linarith
        · obtain ⟨serverId, isServerId⟩ := isLocalonlyId_eq_false_iff.mp serverServer
          rw [counts, ← isServerId] at notLess
          rw [← isServerId] at less half later
          have atMost : id ≤ serverId + 1 := by exact_mod_cast notLess
          have atLeast : serverId < id := by
            have : (serverId : ℚ) < id := by linarith
            exact_mod_cast this
          have isNextId : (id : ℚ) = serverId + 1 := by
            have : id = serverId + 1 := by omega
            exact_mod_cast this
          obtain ⟨next, isNext⟩ : ∃ next, data.items[data.lowerBound id + 1]? = some next :=
            ⟨_, List.getElem?_eq_getElem (by omega)⟩
          have nextLater := later next isNext
          have otherLater : next.id ≤ other.id := by
            rcases Nat.lt_or_eq_of_le (Nat.succ_le_of_lt after) with farther | same
            · exact (inPlace.lt_of_lt display isNext isOther farther).1.le
            · rw [← same] at isOther
              exact (congrArg Message.id (Option.some.inj (isNext.symm.trans isOther))).le
          rw [abs_of_nonneg (by linarith), abs_of_nonpos (by linarith)]
          linarith
    · rw [same] at isStop
      obtain rfl : stop = other := Option.some.inj (isStop.symm.trans isOther)
      exact le_rfl

theorem DisplayOrder.notMem_localOnly (display : DisplayOrder data) (id : ℤ) :
    (id : ℚ) ∉ data.localOnly := by
  intro isLocal
  have echo := display.localOnly id isLocal
  rw [isLocalonlyId_eq_false_iff.mpr ⟨id, rfl⟩] at echo
  cases echo

/-- What `closest_id` returns for an id from the server that the search does not find. -/
theorem DisplayOrder.closestId_eq (display : DisplayOrder data) (nonempty : data.items ≠ [])
    (id : ℤ)
    (absent : (data.items[data.lowerBound id]?).any (fun item => item.id = (id : ℚ)) = false) :
    ∃ item ∈ data.items, data.closestId id = some item.id ∧
      ∀ (near : ℕ) (closer : Message), (near + 1 = data.lowerBound id ∨ near = data.lowerBound id) →
        data.items[near]? = some closer → |(id : ℚ) - item.id| ≤ |(id : ℚ) - closer.id| := by
  have atMost : data.lowerBound id ≤ data.items.length := lowerBound_le
  obtain ⟨notAfter, passes⟩ := skipLocal_spec data.items (data.lowerBound id)
  rw [closestId, if_neg (display.notMem_localOnly id), if_neg nonempty]
  dsimp only
  rw [if_neg (by rw [absent]; exact Bool.false_ne_true)]
  have length : 0 < data.items.length := List.length_pos_iff.mpr nonempty
  cases isItem : data.items[(skipLocal data.items (data.lowerBound id)).2]? with
  | none =>
      -- The place is the end of the list, and the last message is chosen.
      have atEnd := List.getElem?_eq_none_iff.mp isItem
      obtain ⟨last, isLast⟩ : ∃ last,
          data.items[(skipLocal data.items (data.lowerBound id)).2 - 1]? = some last :=
        ⟨_, List.getElem?_eq_getElem (by omega)⟩
      dsimp only
      rw [if_neg (by omega), isLast]
      refine ⟨last, List.mem_of_getElem? isLast, rfl, fun near closer isNear isCloser => ?_⟩
      have inList := (List.getElem?_eq_some_iff.mp isCloser).1
      obtain rfl : near = (skipLocal data.items (data.lowerBound id)).2 - 1 := by omega
      rw [isLast, Option.some.injEq] at isCloser
      rw [isCloser]
  | some item =>
      obtain ⟨member, -, closest⟩ := foldl_closerMessage data.items id
        ((((skipLocal data.items (data.lowerBound id)).2 : ℤ) - 1) ::
          ((skipLocal data.items (data.lowerBound id)).1 ++
            [(skipLocal data.items (data.lowerBound id)).2]).map Int.ofNat)
        (List.mem_of_getElem? isItem)
      refine ⟨_, member, rfl, fun near closer isNear isCloser => closest near closer ?_ isCloser⟩
      by_cases above : near + 1 = (skipLocal data.items (data.lowerBound id)).2
      · exact List.mem_cons.mpr (.inl (by omega))
      · exact List.mem_cons_of_mem _
          (List.mem_map_of_mem (f := Int.ofNat) (passes near (by omega) (by omega)))

/-- When the echoes are in place, the search finds every message and the closest message. -/
theorem EchoesInPlace.selectsRight (inPlace : EchoesInPlace data.items)
    (display : DisplayOrder data) : SelectsRight data := by
  have search : ∀ message ∈ data.items,
      (data.items[data.lowerBound message.id]?).map Message.id = some message.id := by
    intro message member
    obtain ⟨place, found⟩ := List.mem_iff_getElem?.mp member
    rw [inPlace.lowerBound_eq display found, found]
    rfl
  refine ⟨search, search, fun empty id => ?_, fun id isId => ?_, fun nonempty id => ?_⟩
  · rw [closestId, if_neg (display.notMem_localOnly id), if_pos empty]
  · obtain ⟨message, member, isMessage⟩ := List.mem_map.mp isId
    have found := search message member
    rw [isMessage] at found
    obtain ⟨item, isItem, same⟩ := Option.map_eq_some_iff.mp found
    have nonempty : data.items ≠ [] := List.ne_nil_of_mem member
    rw [closestId, if_neg (display.notMem_localOnly id), if_neg nonempty]
    dsimp only
    rw [isItem, Option.any_some, if_pos (decide_eq_true same)]
  · cases found : (data.items[data.lowerBound id]?).any fun item => item.id = (id : ℚ) with
    | true =>
        obtain ⟨item, isItem, same⟩ := (Option.any_eq_true _ _).mp found
        refine ⟨item, List.mem_of_getElem? isItem, ?_, fun other _ => ?_⟩
        · rw [closestId, if_neg (display.notMem_localOnly id), if_neg nonempty]
          dsimp only
          rw [found, if_pos rfl, of_decide_eq_true same]
        · rw [of_decide_eq_true same, sub_self, abs_zero]
          exact abs_nonneg _
    | false =>
        obtain ⟨item, member, returned, closest⟩ := display.closestId_eq nonempty id found
        refine ⟨item, member, returned, fun other isOther => ?_⟩
        obtain ⟨place, isPlace⟩ := List.mem_iff_getElem?.mp isOther
        obtain ⟨near, closer, isNear, isCloser, notFarther⟩ := inPlace.closest display id isPlace
        exact (closest near closer isNear isCloser).trans notFarther

/-- For lists in display order: the search finds every message, and the closest message to every id,
exactly when the local echoes are in place. -/
theorem selectsRight_iff (display : DisplayOrder data) :
    SelectsRight data ↔ EchoesInPlace data.items :=
  ⟨fun selects => selects.echoesInPlace display, fun inPlace => inPlace.selectsRight display⟩

/-- A message of a channel. -/
def messageOfId (id : ℚ) : Message := ⟨id, .stream 1 "lunch" false⟩

/-- A list with these messages. -/
def listOfIds (ids : List ℚ) : MessageListData :=
  { MessageListData.empty with items := ids.map messageOfId }

/-- An echo whose channel message before it is not visible, and two messages that came later. -/
def echoFirst : MessageListData := listOfIds [10 + 2 / 100, 11, 12]

theorem echoFirst_displayOrder : DisplayOrder echoFirst where
  server := by
    unfold Increasing
    decide +kernel
  distinct := by decide +kernel
  echoes := by decide +kernel
  sent := by decide +kernel
  localOnly := by decide +kernel

/-- An echo above all messages from the server is found. -/
theorem selectsRight_iff_echoFirst : SelectsRight echoFirst := by
  have isServer : ∀ (index : ℕ) (message : Message),
      echoFirst.items[index + 1]? = some message → isLocalonlyId message.id = false := by
    intro index message found
    have member : message ∈ echoFirst.items.tail := List.mem_of_getElem? found
    have servers : ∀ message ∈ echoFirst.items.tail, isLocalonlyId message.id = false := by
      decide +kernel
    exact servers message member
  refine (selectsRight_iff echoFirst_displayOrder).mpr ⟨?_, ?_⟩
  · intro index echo next _ isNext nextEcho _
    rw [isServer index next isNext] at nextEcho
    cases nextEcho
  · intro index echo server isEcho echoEcho isAbove
    cases index with
    | zero =>
        rw [prevNonlocalMessage_zero] at isAbove
        cases isAbove
    | succ index =>
        rw [isServer index echo isEcho] at echoEcho
        cases echoEcho

/-- An echo below a message that came after it was sent. -/
def echoBelow : MessageListData := listOfIds [11, 10 + 2 / 100, 12]

/-- The search for the echo finds the message above it, and the closest message to its number is
another one. -/
theorem echoBelow_not_selectsRight :
    DisplayOrder echoBelow ∧ echoBelow.lowerBound (10 + 2 / 100) = 0 ∧
      echoBelow.closestId 10 = some 11 ∧ ¬ SelectsRight echoBelow := by
  have display : DisplayOrder echoBelow :=
    { server := by
        unfold Increasing
        decide +kernel
      distinct := by decide +kernel
      echoes := by decide +kernel
      sent := by decide +kernel
      localOnly := by decide +kernel }
  refine ⟨display, by decide +kernel, by decide +kernel, fun selects => ?_⟩
  have found := selects.lowerBound (messageOfId (10 + 2 / 100)) (by decide +kernel)
  exact absurd found (by decide +kernel)

end Zulip.Client
