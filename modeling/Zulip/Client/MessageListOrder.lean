import Mathlib.Data.Finset.Card
import Mathlib.Tactic.Linarith
import Zulip.Client.MessageListData
import Zulip.Foundation.Transition

/-!
# The order of message lists

`messageList_always_iff` says which changes keep the parts of a message list consistent and its
messages in order: new messages must be on the right side of the messages from the server, an
acknowledged message must be out of order in the list without muted messages when it is in the other
one, and a list with local echoes must not be cleared.
-/

namespace Zulip.Client

/-- The messages with ids from the server. -/
def nonlocal (messages : List Message) : List Message :=
  messages.filter fun message => !isLocalonlyId message.id

/-- A message list and the mutings. -/
structure MessageListState where
  data : MessageListData
  muting : Muting

/-- A change of a message list. -/
inductive MessageListAction where
  | addMessages (messages : List Message)
  | remove (messageIds : List ℚ)
  | changeMessageId (oldId newId : ℚ)
  | updateItemsForMuting (muting : Muting)
  | clear

namespace MessageListState

/-- The state after a change. -/
def perform (config : MessageListConfig) (state : MessageListState) :
    MessageListAction → MessageListState
  | .addMessages messages =>
      { state with data := state.data.addMessages config state.muting messages }
  | .remove messageIds => { state with data := state.data.remove messageIds }
  | .changeMessageId oldId newId => { state with data := (state.data.changeMessageId oldId newId).1 }
  | .updateItemsForMuting muting => ⟨state.data.updateItemsForMuting config muting, muting⟩
  | .clear => { state with data := state.data.clear }

/-- New messages are sorted, and an acknowledged message gets an id from the server, larger than
those in the list. -/
def Enabled (state : MessageListState) : MessageListAction → Prop
  | .addMessages messages => messages.Pairwise fun left right => left.id ≤ right.id
  | .changeMessageId oldId newId =>
      isLocalonlyId oldId = true ∧ isLocalonlyId newId = false ∧
        ∀ message ∈ state.data.allItems, message.id < newId
  | _ => True

instance (state : MessageListState) (action : MessageListAction) :
    Decidable (state.Enabled action) :=
  match action with
  | .addMessages messages =>
      inferInstanceAs (Decidable (messages.Pairwise fun left right => left.id ≤ right.id))
  | .changeMessageId oldId newId =>
      inferInstanceAs (Decidable (isLocalonlyId oldId = true ∧ isLocalonlyId newId = false ∧
        ∀ message ∈ state.data.allItems, message.id < newId))
  | .remove _ => .isTrue trivial
  | .updateItemsForMuting _ => .isTrue trivial
  | .clear => .isTrue trivial

/-- One change. -/
def Step (config : MessageListConfig) (state : MessageListState) (action : MessageListAction)
    (next : MessageListState) : Prop :=
  state.Enabled action ∧ next = state.perform config action

/-- The index, the unmuted messages and the local echoes belong to the messages of the list, and the
messages from the server are in order. -/
structure Consistent (config : MessageListConfig) (state : MessageListState) : Prop where
  hash : ∀ id, id ∈ state.data.hash.keys ↔ id ∈ state.data.allItems.map Message.id
  distinct : (state.data.allItems.map Message.id).Nodup
  items : state.data.items = config.unmutedMessages state.muting state.data.allItems
  localOnly : ∀ id, id ∈ state.data.localOnly ↔
    id ∈ state.data.allItems.map Message.id ∧ isLocalonlyId id = true
  ordered : Increasing Message.id (nonlocal state.data.allItems)
  orderedItems : Increasing Message.id (nonlocal state.data.items)

/-- The index leads to the messages of the list. -/
def Indexed (state : MessageListState) : Prop :=
  ∀ id message, state.data.hash.get? id = some message →
    message ∈ state.data.allItems ∧ message.id = id

/-- The changes that keep a list consistent. New messages have different ids, and one from the
server that goes to an end of the list belongs there among the messages from the server. When a
message from the server follows an acknowledged one, then so in the list without muted messages.
There is no local echo in a list that is cleared. -/
def Allowed (config : MessageListConfig) (state : MessageListState) : MessageListAction → Prop
  | .addMessages messages =>
      let new := state.data.validNonDuplicatedMessages config messages
      (new.map Message.id).Nodup ∧
        ∀ message ∈ nonlocal new, ∀ other ∈ nonlocal state.data.allItems,
          (state.data.place message = .bottom → other.id < message.id) ∧
            (state.data.place message = .top → message.id < other.id)
  | .changeMessageId oldId _ =>
      ∀ message ∈ state.data.hash.get? oldId,
        nonlocal (state.data.allItems.drop (state.data.allItems.idxOf message + 1)) ≠ [] →
          (MessageListData.nextNonlocalMessage state.data.items
            (MessageListData.indexOf state.data.items message)).isSome
  | .clear => nonlocal state.data.allItems = state.data.allItems
  | _ => True

instance (config : MessageListConfig) (state : MessageListState) (action : MessageListAction) :
    Decidable (state.Allowed config action) :=
  match action with
  | .addMessages messages =>
      inferInstanceAs (Decidable
        (((state.data.validNonDuplicatedMessages config messages).map Message.id).Nodup ∧
          ∀ message ∈ nonlocal (state.data.validNonDuplicatedMessages config messages),
            ∀ other ∈ nonlocal state.data.allItems,
              (state.data.place message = .bottom → other.id < message.id) ∧
                (state.data.place message = .top → message.id < other.id)))
  | .changeMessageId oldId _ =>
      inferInstanceAs (Decidable (∀ message ∈ state.data.hash.get? oldId,
        nonlocal (state.data.allItems.drop (state.data.allItems.idxOf message + 1)) ≠ [] →
          (MessageListData.nextNonlocalMessage state.data.items
            (MessageListData.indexOf state.data.items message)).isSome))
  | .clear => inferInstanceAs (Decidable (nonlocal state.data.allItems = state.data.allItems))
  | .remove _ => .isTrue trivial
  | .updateItemsForMuting _ => .isTrue trivial

end MessageListState

/-! ## Messages that are not muted -/

section Muting

variable {config : MessageListConfig} {muting : Muting}

/-- A message is not muted. -/
def unmuted (config : MessageListConfig) (muting : Muting) (message : Message) : Bool :=
  (!config.excludesMutedTopics || MessageListConfig.topicVisible muting message) &&
    (config.isNonGroupDirectMessage || MessageListConfig.userVisible muting message)

theorem unmutedMessages_eq (config : MessageListConfig) (muting : Muting)
    (messages : List Message) :
    config.unmutedMessages muting messages = messages.filter (unmuted config muting) := by
  obtain ⟨predicate, isDirect, excludes⟩ := config
  have both : unmuted ⟨predicate, isDirect, excludes⟩ muting = fun message =>
      (!excludes || MessageListConfig.topicVisible muting message) &&
        (isDirect || MessageListConfig.userVisible muting message) := rfl
  cases isDirect <;> cases excludes <;>
    simp [MessageListConfig.unmutedMessages, MessageListConfig.messagesFilteredForTopicMutes,
      MessageListConfig.messagesFilteredForUserMutes, both]

/-- Muting does not look at ids. -/
theorem unmuted_of_body {left right : Message} (sameBody : left.body = right.body) :
    unmuted config muting left = unmuted config muting right := by
  simp only [unmuted, MessageListConfig.topicVisible, MessageListConfig.userVisible, sameBody]

end Muting

/-! ## What new messages change -/

namespace MessageListData

variable {config : MessageListConfig} {muting : Muting} {data : MessageListData}
  {messages : List Message}

@[simp] theorem addToHash_allItems (data : MessageListData) (messages : List Message) :
    (data.addToHash messages).allItems = data.allItems := by
  induction messages generalizing data with
  | nil => rfl
  | cons message rest inductionHypothesis => exact inductionHypothesis _

@[simp] theorem addToHash_items (data : MessageListData) (messages : List Message) :
    (data.addToHash messages).items = data.items := by
  induction messages generalizing data with
  | nil => rfl
  | cons message rest inductionHypothesis => exact inductionHypothesis _

@[simp] theorem mem_keys_addToHash {id : ℚ} :
    id ∈ (data.addToHash messages).hash.keys ↔
      id ∈ data.hash.keys ∨ id ∈ messages.map Message.id := by
  induction messages generalizing data with
  | nil => simp [addToHash]
  | cons message rest inductionHypothesis =>
      refine inductionHypothesis.trans ?_
      simp only [List.map_cons, List.mem_cons]
      split_ifs with present
      · have known : message.id ∈ data.hash.keys :=
          Dict.mem_keys_iff.mpr (Option.isSome_iff_exists.mp present)
        constructor
        · rintro (old | new)
          · exact .inl old
          · exact .inr (.inr new)
        · rintro (old | rfl | new)
          · exact .inl old
          · exact .inl known
          · exact .inr new
      · simp only [Dict.mem_keys_set]
        tauto

@[simp] theorem mem_localOnly_addToHash {id : ℚ} :
    id ∈ (data.addToHash messages).localOnly ↔
      id ∈ data.localOnly ∨ (id ∈ messages.map Message.id ∧ isLocalonlyId id = true) := by
  induction messages generalizing data with
  | nil => simp [addToHash]
  | cons message rest inductionHypothesis =>
      refine inductionHypothesis.trans ?_
      simp only [List.map_cons, List.mem_cons]
      split_ifs with isLocal
      · rw [Finset.mem_insert]
        constructor
        · rintro ((rfl | old) | ⟨new, newLocal⟩)
          · exact .inr ⟨.inl rfl, isLocal⟩
          · exact .inl old
          · exact .inr ⟨.inr new, newLocal⟩
        · rintro (old | ⟨rfl | new, newLocal⟩)
          · exact .inl (.inr old)
          · exact .inl (.inl rfl)
          · exact .inr ⟨new, newLocal⟩
      · constructor
        · rintro (old | ⟨new, newLocal⟩)
          · exact .inl old
          · exact .inr ⟨.inr new, newLocal⟩
        · rintro (old | ⟨rfl | new, newLocal⟩)
          · exact .inl old
          · exact absurd newLocal isLocal
          · exact .inr ⟨new, newLocal⟩

theorem get?_addToHash {id : ℚ} {found : Message}
    (isFound : (data.addToHash messages).hash.get? id = some found) :
    data.hash.get? id = some found ∨ (found ∈ messages ∧ found.id = id) := by
  induction messages generalizing data with
  | nil => exact .inl isFound
  | cons message rest inductionHypothesis =>
      rcases inductionHypothesis isFound with before | ⟨member, sameId⟩
      · simp only at before
        split_ifs at before with present
        · exact .inl before
        · rw [Dict.get?_set] at before
          split_ifs at before with sameId
          · cases before
            exact .inr ⟨List.mem_cons_self, sameId.symm⟩
          · exact .inl before
      · exact .inr ⟨List.mem_cons_of_mem _ member, sameId⟩

/-- The new messages that go to a place. -/
abbrev newAt (config : MessageListConfig) (data : MessageListData) (messages : List Message)
    (place : Place) : List Message :=
  data.placed (data.validNonDuplicatedMessages config messages) place

/-- The messages between those that go to the ends. -/
def middle (config : MessageListConfig) (data : MessageListData) (messages : List Message) :
    List Message :=
  if (newAt config data messages .interior).isEmpty then data.allItems
  else sortByKey Message.id (newAt config data messages .interior ++ data.allItems)

/-- Adding no messages at an end changes nothing. -/
theorem prepend_nil (config : MessageListConfig) (muting : Muting) (data : MessageListData) :
    data.prepend config muting [] = data := by
  rw [prepend, unmutedMessages_eq]
  rfl

theorem append_nil (config : MessageListConfig) (muting : Muting) (data : MessageListData) :
    data.append config muting [] = data := by
  rw [append, unmutedMessages_eq, List.filter_nil, List.append_nil, List.append_nil]
  rfl

/-- The list with the messages that belong inside of it. -/
def addInterior (config : MessageListConfig) (muting : Muting) (data : MessageListData)
    (messages : List Message) : MessageListData :=
  if (newAt config data messages .interior).isEmpty then data
  else data.addAnywhere config muting (newAt config data messages .interior)

theorem addMessages_eq (config : MessageListConfig) (muting : Muting) (data : MessageListData)
    (messages : List Message) :
    data.addMessages config muting messages =
      ((data.addInterior config muting messages).prepend config muting
        (newAt config data messages .top)).append config muting
          (newAt config data messages .bottom) := by
  have prepends : ∀ (data : MessageListData) (top : List Message),
      (if top.isEmpty then data else data.prepend config muting top) =
        data.prepend config muting top := by
    intro data top
    split_ifs with noTop
    · rw [List.isEmpty_iff.mp noTop, prepend_nil]
    · rfl
  have appends : ∀ (data : MessageListData) (bottom : List Message),
      (if bottom.isEmpty then data else data.append config muting bottom) =
        data.append config muting bottom := by
    intro data bottom
    split_ifs with noBottom
    · rw [List.isEmpty_iff.mp noBottom, append_nil]
    · rfl
  simp only [addMessages, prepends, appends]
  rfl

theorem addMessages_allItems (config : MessageListConfig) (muting : Muting)
    (data : MessageListData) (messages : List Message) :
    (data.addMessages config muting messages).allItems =
      newAt config data messages .top ++ middle config data messages ++
        newAt config data messages .bottom := by
  simp only [addMessages_eq, append, prepend, addInterior, middle, addToHash_allItems]
  split_ifs
  · rfl
  · simp only [addAnywhere, addToHash_allItems]

/-- Every new message goes to one place. -/
theorem mem_new_iff {message : Message} :
    message ∈ data.validNonDuplicatedMessages config messages ↔
      message ∈ newAt config data messages .top ∨ message ∈ newAt config data messages .interior ∨
        message ∈ newAt config data messages .bottom := by
  simp only [newAt, placed, List.mem_filter, decide_eq_true_eq]
  cases data.place message <;> simp

theorem new_perm :
    (newAt config data messages .top ++ (newAt config data messages .interior ++
      newAt config data messages .bottom)).Perm (data.validNonDuplicatedMessages config messages) := by
  have split : ∀ (new : List Message), (data.placed new .top ++ (data.placed new .interior ++
      data.placed new .bottom)).Perm new := by
    intro new
    induction new with
    | nil => exact .nil
    | cons message rest inductionHypothesis =>
        cases isPlace : data.place message with
        | top => simpa [placed, List.filter_cons, isPlace] using inductionHypothesis.cons message
        | interior =>
            refine List.Perm.trans ?_ (inductionHypothesis.cons message)
            simp only [placed, List.filter_cons, isPlace, decide_true, if_true, reduceCtorEq,
              decide_false, Bool.false_eq_true, if_false, List.cons_append]
            exact List.perm_middle
        | bottom =>
            refine List.Perm.trans ?_ (inductionHypothesis.cons message)
            simp only [placed, List.filter_cons, isPlace, decide_true, if_true, reduceCtorEq,
              decide_false, Bool.false_eq_true, if_false]
            rw [← List.append_assoc, ← List.append_assoc]
            exact List.perm_middle
  exact split _

theorem middle_perm :
    (middle config data messages).Perm (newAt config data messages .interior ++ data.allItems) := by
  rw [middle]
  split_ifs with noInterior
  · rw [List.isEmpty_iff.mp noInterior]
    exact .refl _
  · exact sortByKey_perm _

/-- The list has the new messages and those that it had. -/
theorem addMessages_perm (muting : Muting) :
    (data.addMessages config muting messages).allItems.Perm
      (data.validNonDuplicatedMessages config messages ++ data.allItems) := by
  rw [addMessages_allItems, List.append_assoc]
  have inner : (newAt config data messages .top ++ (middle config data messages ++
      newAt config data messages .bottom)).Perm (newAt config data messages .top ++
        ((newAt config data messages .interior ++ data.allItems) ++
          newAt config data messages .bottom)) :=
    (middle_perm.append_right _).append_left _
  refine inner.trans ?_
  have moved : ((newAt config data messages .interior ++ data.allItems) ++
      newAt config data messages .bottom).Perm ((newAt config data messages .interior ++
        newAt config data messages .bottom) ++ data.allItems) := by
    rw [List.append_assoc, List.append_assoc]
    exact List.perm_append_comm.append_left _
  refine (moved.append_left _).trans ?_
  rw [← List.append_assoc]
  exact new_perm.append_right _

theorem mem_map_new_iff {id : ℚ} :
    id ∈ (data.validNonDuplicatedMessages config messages).map Message.id ↔
      id ∈ (newAt config data messages .top).map Message.id ∨
        id ∈ (newAt config data messages .interior).map Message.id ∨
          id ∈ (newAt config data messages .bottom).map Message.id := by
  rw [← (new_perm.map Message.id).mem_iff, List.map_append, List.map_append, List.mem_append,
    List.mem_append]

theorem mem_keys_addMessages {id : ℚ} :
    id ∈ (data.addMessages config muting messages).hash.keys ↔
      id ∈ data.hash.keys ∨
        id ∈ (data.validNonDuplicatedMessages config messages).map Message.id := by
  rw [addMessages_eq, mem_map_new_iff]
  simp only [append, prepend, mem_keys_addToHash, addInterior]
  split_ifs with noInterior
  · rw [List.isEmpty_iff.mp noInterior, List.map_nil]
    simp only [List.not_mem_nil, false_or]
    tauto
  · simp only [addAnywhere, mem_keys_addToHash]
    tauto

theorem mem_localOnly_addMessages {id : ℚ} :
    id ∈ (data.addMessages config muting messages).localOnly ↔
      id ∈ data.localOnly ∨
        (id ∈ (data.validNonDuplicatedMessages config messages).map Message.id ∧
          isLocalonlyId id = true) := by
  rw [addMessages_eq, mem_map_new_iff]
  simp only [append, prepend, mem_localOnly_addToHash, addInterior]
  split_ifs with noInterior
  · rw [List.isEmpty_iff.mp noInterior, List.map_nil]
    simp only [List.not_mem_nil, false_or]
    tauto
  · simp only [addAnywhere, mem_localOnly_addToHash]
    tauto

theorem get?_addMessages {id : ℚ} {found : Message}
    (isFound : (data.addMessages config muting messages).hash.get? id = some found) :
    data.hash.get? id = some found ∨
      (found ∈ data.validNonDuplicatedMessages config messages ∧ found.id = id) := by
  rw [addMessages_eq] at isFound
  rw [mem_new_iff]
  rcases get?_addToHash isFound with before | ⟨member, sameId⟩
  · rcases get?_addToHash before with before | ⟨member, sameId⟩
    · simp only [addInterior] at before
      split_ifs at before
      · exact .inl before
      · rcases get?_addToHash before with before | ⟨member, sameId⟩
        · exact .inl before
        · exact .inr ⟨.inr (.inl member), sameId⟩
    · exact .inr ⟨.inl member, sameId⟩
  · exact .inr ⟨.inr (.inr member), sameId⟩

/-- The list without muted messages gets the new messages at the same places. -/
theorem addMessages_items (items : data.items = config.unmutedMessages muting data.allItems)
    (distinct : ((newAt config data messages .interior ++ data.allItems).map Message.id).Nodup) :
    (data.addMessages config muting messages).items =
      config.unmutedMessages muting (data.addMessages config muting messages).allItems := by
  rw [addMessages_allItems]
  simp only [addMessages_eq, append, prepend, addInterior, middle, addToHash_items,
    unmutedMessages_eq, List.filter_append] at items ⊢
  split_ifs
  · rw [items]
  · simp only [addAnywhere, addToHash_items, unmutedMessages_eq]
    rw [filter_sortByKey distinct, List.filter_append, items]

/-- A new message is not in the list yet. -/
theorem notMem_of_new {message : Message}
    (new : message ∈ data.validNonDuplicatedMessages config messages) :
    message.id ∉ data.hash.keys := by
  have meets := (List.mem_filter.mp new).2
  simp only [Bool.and_eq_true, Option.isNone_iff_eq_none] at meets
  exact Dict.get?_eq_none_iff.mp meets.1

/-- The place of a message in a list with a first and a last message. -/
theorem place_eq {first last : Message} (isFirst : data.allItems.head? = some first)
    (isLast : data.allItems.getLast? = some last) (message : Message) :
    data.place message =
      if last.id < message.id then .bottom
      else if message.id < first.id then .top
      else .interior := by
  rw [place, isFirst, isLast]

/-- A message that is not put at the bottom is compared with a first and a last message. -/
theorem exists_ends_of_place {message : Message} (notBottom : data.place message ≠ .bottom) :
    ∃ first last, data.allItems.head? = some first ∧ data.allItems.getLast? = some last := by
  cases isLast : data.allItems.getLast? with
  | none => simp [place, isLast] at notBottom
  | some last =>
      cases isFirst : data.allItems.head? with
      | none => simp [place, isFirst, isLast] at notBottom
      | some first => exact ⟨first, last, rfl, rfl⟩

/-- Messages at different places are in the order of the places. -/
theorem lt_of_place {left right : Message}
    (places : (data.place left = .top ∧ data.place right ≠ .top) ∨
      (data.place left = .interior ∧ data.place right = .bottom)) : left.id < right.id := by
  have notBottom : data.place left ≠ .bottom := by
    rcases places with ⟨isTop, -⟩ | ⟨isInterior, -⟩
    · rw [isTop]
      decide
    · rw [isInterior]
      decide
  obtain ⟨first, last, isFirst, isLast⟩ := exists_ends_of_place notBottom
  rw [place_eq isFirst isLast, place_eq isFirst isLast] at places
  split_ifs at places <;> simp_all <;> linarith

end MessageListData

namespace MessageListState

variable {config : MessageListConfig} {state : MessageListState}

/-- All of a consistent list but the order of its messages. -/
structure Linked (config : MessageListConfig) (muting : Muting) (data : MessageListData) :
    Prop where
  hash : ∀ id, id ∈ data.hash.keys ↔ id ∈ data.allItems.map Message.id
  distinct : (data.allItems.map Message.id).Nodup
  items : data.items = config.unmutedMessages muting data.allItems
  localOnly : ∀ id, id ∈ data.localOnly ↔
    id ∈ data.allItems.map Message.id ∧ isLocalonlyId id = true

/-- The order of the unmuted messages follows from that of all messages. -/
theorem Linked.consistent {muting : Muting} {data : MessageListData}
    (linked : Linked config muting data)
    (ordered : Increasing Message.id (nonlocal data.allItems)) :
    Consistent config ⟨data, muting⟩ where
  hash := linked.hash
  distinct := linked.distinct
  items := linked.items
  localOnly := linked.localOnly
  ordered := ordered
  orderedItems := by
    rw [show (MessageListState.mk data muting).data.items = _ from linked.items, unmutedMessages_eq]
    exact ordered.sublist (List.filter_sublist.filter _)

/-- The messages from the server in a part of the sorted new messages are in order. -/
theorem increasing_newAt {messages : List Message} (place : MessageListData.Place)
    (sorted : messages.Pairwise fun left right => left.id ≤ right.id)
    (distinct : ((state.data.validNonDuplicatedMessages config messages).map Message.id).Nodup) :
    Increasing Message.id (nonlocal (MessageListData.newAt config state.data messages place)) := by
  have allNew : Increasing Message.id (state.data.validNonDuplicatedMessages config messages) :=
    increasing_of_sorted (sorted.sublist List.filter_sublist) distinct
  exact (allNew.filter _).filter _

section Adding

variable {messages : List Message}

/-- The messages of a consistent list that is made longer stand in the right places. -/
theorem allowed_of_addMessages
    (next : (state.perform config (.addMessages messages)).Consistent config) :
    state.Allowed config (.addMessages messages) := by
  have distinctAll := ((@MessageListData.addMessages_perm config state.data messages
    state.muting).map Message.id).nodup_iff.mp next.distinct
  rw [List.map_append] at distinctAll
  refine ⟨(List.nodup_append.mp distinctAll).1, fun message isNew other isOther => ?_⟩
  obtain ⟨isNew, newNonlocal⟩ := List.mem_filter.mp isNew
  obtain ⟨isOther, otherNonlocal⟩ := List.mem_filter.mp isOther
  have ordered := next.ordered
  simp only [perform, nonlocal, MessageListData.addMessages_allItems, List.filter_append] at ordered
  rw [Increasing.append, Increasing.append] at ordered
  obtain ⟨⟨-, -, topBelow⟩, -, bottomAbove⟩ := ordered
  have inMiddle : other ∈ MessageListData.middle config state.data messages :=
    MessageListData.middle_perm.mem_iff.mpr (List.mem_append_right _ isOther)
  constructor
  · intro isBottom
    refine bottomAbove other ?_ message ?_
    · exact List.mem_append_right _ (List.mem_filter.mpr ⟨inMiddle, otherNonlocal⟩)
    · exact List.mem_filter.mpr
        ⟨List.mem_filter.mpr ⟨isNew, decide_eq_true isBottom⟩, newNonlocal⟩
  · intro isTop
    exact topBelow message (List.mem_filter.mpr
      ⟨List.mem_filter.mpr ⟨isNew, decide_eq_true isTop⟩, newNonlocal⟩) other
        (List.mem_filter.mpr ⟨inMiddle, otherNonlocal⟩)

/-- New messages have ids that the list does not have. -/
theorem nodup_new_append (consistent : state.Consistent config)
    (distinctNew :
      ((state.data.validNonDuplicatedMessages config messages).map Message.id).Nodup) :
    ((state.data.validNonDuplicatedMessages config messages ++
      state.data.allItems).map Message.id).Nodup := by
  rw [List.map_append]
  refine List.nodup_append.mpr ⟨distinctNew, consistent.distinct, ?_⟩
  rintro id isNew other isOther rfl
  obtain ⟨message, isMessage, rfl⟩ := List.mem_map.mp isNew
  exact MessageListData.notMem_of_new isMessage ((consistent.hash _).mpr isOther)

theorem nodup_interior_append (consistent : state.Consistent config)
    (distinctNew :
      ((state.data.validNonDuplicatedMessages config messages).map Message.id).Nodup) :
    ((MessageListData.newAt config state.data messages .interior ++
      state.data.allItems).map Message.id).Nodup :=
  (nodup_new_append consistent distinctNew).sublist
    ((List.filter_sublist.append_right _).map _)

theorem increasing_middle (consistent : state.Consistent config)
    (distinctNew :
      ((state.data.validNonDuplicatedMessages config messages).map Message.id).Nodup) :
    Increasing Message.id (nonlocal (MessageListData.middle config state.data messages)) := by
  rw [MessageListData.middle]
  split_ifs
  · exact consistent.ordered
  · exact (increasing_sortByKey (nodup_interior_append consistent distinctNew)).filter _

/-- The new messages at the top, the list with the new messages inside of it, and the new messages
at the bottom are in order, one after the other. -/
theorem increasing_addMessages (consistent : state.Consistent config)
    (sorted : messages.Pairwise fun left right => left.id ≤ right.id)
    (allowed : state.Allowed config (.addMessages messages)) :
    Increasing Message.id
      (nonlocal (state.data.addMessages config state.muting messages).allItems) := by
  obtain ⟨distinctNew, placedRight⟩ := allowed
  have newPlace : ∀ {place : MessageListData.Place} {message : Message},
      message ∈ nonlocal (MessageListData.newAt config state.data messages place) →
        message ∈ nonlocal (state.data.validNonDuplicatedMessages config messages) ∧
          state.data.place message = place := by
    intro place message member
    obtain ⟨isPlaced, isNonlocal⟩ := List.mem_filter.mp member
    obtain ⟨isNew, isPlace⟩ := List.mem_filter.mp isPlaced
    exact ⟨List.mem_filter.mpr ⟨isNew, isNonlocal⟩, of_decide_eq_true isPlace⟩
  have fromMiddle : ∀ {message : Message},
      message ∈ nonlocal (MessageListData.middle config state.data messages) →
        message ∈ nonlocal (MessageListData.newAt config state.data messages .interior) ∨
          message ∈ nonlocal state.data.allItems := by
    intro message member
    obtain ⟨inMiddle, isNonlocal⟩ := List.mem_filter.mp member
    rcases List.mem_append.mp (MessageListData.middle_perm.mem_iff.mp inMiddle) with new | old
    · exact .inl (List.mem_filter.mpr ⟨new, isNonlocal⟩)
    · exact .inr (List.mem_filter.mpr ⟨old, isNonlocal⟩)
  rw [MessageListData.addMessages_allItems]
  simp only [nonlocal, List.filter_append]
  rw [Increasing.append, Increasing.append]
  refine ⟨⟨increasing_newAt .top sorted distinctNew, increasing_middle consistent distinctNew, ?_⟩,
    increasing_newAt .bottom sorted distinctNew, ?_⟩
  · intro message isTop other inMiddle
    obtain ⟨isNew, isPlace⟩ := newPlace isTop
    rcases fromMiddle inMiddle with interior | old
    · exact MessageListData.lt_of_place (.inl ⟨isPlace, by rw [(newPlace interior).2]; decide⟩)
    · exact (placedRight message isNew other old).2 isPlace
  · intro other isBefore message isBottom
    obtain ⟨isNew, isPlace⟩ := newPlace isBottom
    rcases List.mem_append.mp isBefore with top | inMiddle
    · exact MessageListData.lt_of_place (.inl ⟨(newPlace top).2, by rw [isPlace]; decide⟩)
    · rcases fromMiddle inMiddle with interior | old
      · exact MessageListData.lt_of_place (.inr ⟨(newPlace interior).2, isPlace⟩)
      · exact (placedRight message isNew other old).1 isPlace

/-- Adding messages keeps a list consistent exactly when that is allowed. -/
theorem addMessages_consistent_iff (consistent : state.Consistent config)
    (sorted : messages.Pairwise fun left right => left.id ≤ right.id) :
    (state.perform config (.addMessages messages)).Consistent config ↔
      state.Allowed config (.addMessages messages) := by
  refine ⟨allowed_of_addMessages, fun allowed => ?_⟩
  have allIds := (@MessageListData.addMessages_perm config state.data messages
    state.muting).map Message.id
  have items := MessageListData.addMessages_items consistent.items
    (nodup_interior_append consistent allowed.1)
  refine Linked.consistent ⟨fun id => ?_,
    allIds.nodup_iff.mpr (nodup_new_append consistent allowed.1), items, fun id => ?_⟩
    (increasing_addMessages consistent sorted allowed)
  · refine MessageListData.mem_keys_addMessages.trans ?_
    rw [consistent.hash, ← or_comm, ← List.mem_append, ← List.map_append]
    exact allIds.mem_iff.symm
  · refine MessageListData.mem_localOnly_addMessages.trans ?_
    rw [consistent.localOnly, ← or_and_right, ← or_comm, ← List.mem_append, ← List.map_append]
    exact and_congr_left fun _ => allIds.mem_iff.symm

end Adding

/-! ## Other changes -/

theorem mem_keys_erase_all {ids : List ℚ} {hash : Dict ℚ Message} {id : ℚ} :
    id ∈ (ids.foldl Dict.erase hash).keys ↔ id ∈ hash.keys ∧ id ∉ ids := by
  induction ids generalizing hash with
  | nil => simp
  | cons first rest inductionHypothesis =>
      refine inductionHypothesis.trans ?_
      rw [Dict.mem_keys_erase, List.mem_cons, not_or]
      tauto

theorem get?_erase_all {ids : List ℚ} {hash : Dict ℚ Message} {id : ℚ} {message : Message}
    (found : (ids.foldl Dict.erase hash).get? id = some message) :
    hash.get? id = some message ∧ id ∉ ids := by
  induction ids generalizing hash with
  | nil => exact ⟨found, List.not_mem_nil⟩
  | cons first rest inductionHypothesis =>
      obtain ⟨before, notRest⟩ := inductionHypothesis found
      rw [Dict.get?_erase] at before
      split_ifs at before with same
      exact ⟨before, List.not_mem_cons_of_ne_of_not_mem same notRest⟩

theorem mem_erase_all {ids : List ℚ} {set : Finset ℚ} {id : ℚ} :
    id ∈ ids.foldl Finset.erase set ↔ id ∈ set ∧ id ∉ ids := by
  induction ids generalizing set with
  | nil => simp
  | cons first rest inductionHypothesis =>
      refine inductionHypothesis.trans ?_
      rw [Finset.mem_erase, List.mem_cons, not_or]
      tauto

/-- Removing messages keeps a list consistent. -/
theorem Consistent.remove (consistent : state.Consistent config) (messageIds : List ℚ) :
    (state.perform config (.remove messageIds)).Consistent config := by
  have kept : ∀ id, id ∈ (state.data.remove messageIds).allItems.map Message.id ↔
      id ∈ state.data.allItems.map Message.id ∧ id ∉ messageIds := by
    intro id
    simp only [MessageListData.remove, List.mem_map, List.mem_filter, Bool.not_eq_true',
      List.contains_eq_mem, decide_eq_false_iff_not]
    constructor
    · rintro ⟨message, ⟨member, notRemoved⟩, rfl⟩
      exact ⟨⟨message, member, rfl⟩, notRemoved⟩
    · rintro ⟨⟨message, member, rfl⟩, notRemoved⟩
      exact ⟨message, ⟨member, notRemoved⟩, rfl⟩
  refine Linked.consistent ⟨fun id => ?_, ?_, ?_, fun id => ?_⟩
    (consistent.ordered.sublist (List.filter_sublist.filter _))
  · refine mem_keys_erase_all.trans (Iff.trans ?_ (kept id).symm)
    rw [consistent.hash]
  · exact consistent.distinct.sublist (List.filter_sublist.map _)
  · simp only [MessageListData.remove, consistent.items, unmutedMessages_eq,
      List.filter_filter, Bool.and_comm]
  · refine mem_erase_all.trans ?_
    refine Iff.trans ?_ (and_congr_left' (kept id)).symm
    rw [consistent.localOnly]
    tauto

/-- Changed mutings keep a list consistent. -/
theorem Consistent.updateItemsForMuting (consistent : state.Consistent config) (muting : Muting) :
    (state.perform config (.updateItemsForMuting muting)).Consistent config :=
  Linked.consistent ⟨consistent.hash, consistent.distinct, rfl, consistent.localOnly⟩
    consistent.ordered

/-- Clearing a list keeps it consistent exactly when it has no local echoes. -/
theorem clear_consistent_iff (consistent : state.Consistent config) :
    (state.perform config .clear).Consistent config ↔ state.Allowed config .clear := by
  constructor
  · intro next
    refine List.filter_eq_self.mpr fun message member => ?_
    by_contra isLocal
    rw [Bool.not_eq_true', Bool.not_eq_false] at isLocal
    have inSet := (consistent.localOnly message.id).mpr ⟨List.mem_map_of_mem member, isLocal⟩
    have inNext := (next.localOnly message.id).mp inSet
    cases inNext.1
  · intro noEcho
    refine ⟨fun id => by simp [perform, MessageListData.clear], List.nodup_nil,
      by rw [unmutedMessages_eq]; rfl, fun id => ?_, List.Pairwise.nil, List.Pairwise.nil⟩
    refine iff_of_false (fun inSet => ?_) (fun inNil => by cases inNil.1)
    obtain ⟨isId, isLocal⟩ := (consistent.localOnly id).mp inSet
    obtain ⟨message, member, rfl⟩ := List.mem_map.mp isId
    rw [← show _ = state.data.allItems from noEcho] at member
    have notLocal := (List.mem_filter.mp member).2
    rw [isLocal] at notLocal
    cases notLocal

/-! ## Acknowledged messages -/

/-- A message with another id. -/
def renamedTo (message : Message) (newId : ℚ) (item : Message) : Message :=
  if item = message then { message with id := newId } else item

/-- The list after a message has got its new id, before it is reordered. -/
def renamed (data : MessageListData) (message : Message) (newId : ℚ) : MessageListData where
  allItems := data.allItems.map (renamedTo message newId)
  items := data.items.map (renamedTo message newId)
  hash := (data.hash.erase message.id).set newId { message with id := newId }
  localOnly :=
    if message.id ∈ data.localOnly then
      (if isLocalonlyId newId then insert newId data.localOnly else data.localOnly).erase message.id
    else data.localOnly
  selectedId := if data.selectedId = message.id then newId else data.selectedId

@[simp] theorem renamedTo_self (message : Message) (newId : ℚ) :
    renamedTo message newId message = { message with id := newId } := if_pos rfl

theorem renamedTo_ne {message item : Message} (newId : ℚ) (different : item ≠ message) :
    renamedTo message newId item = item := if_neg different

/-- Only the renamed message changes. -/
theorem map_renamedTo {message : Message} {before after : List Message} {newId : ℚ}
    (distinct : (before ++ message :: after).Nodup) :
    (before ++ message :: after).map (renamedTo message newId) =
      before ++ { message with id := newId } :: after := by
  have notBefore : message ∉ before := fun member =>
    (List.nodup_append.mp distinct).2.2 message member message List.mem_cons_self rfl
  have notAfter : message ∉ after := (List.nodup_cons.mp (List.nodup_append.mp distinct).2.1).1
  rw [List.map_append, List.map_cons, renamedTo_self]
  congr 1
  · refine (List.map_congr_left fun item member => ?_).trans (List.map_id _)
    exact renamedTo_ne newId fun same => notBefore (same ▸ member)
  · congr 1
    refine (List.map_congr_left fun item member => ?_).trans (List.map_id _)
    exact renamedTo_ne newId fun same => notAfter (same ▸ member)

theorem map_renamedTo_of_notMem {message : Message} {messages : List Message} {newId : ℚ}
    (absent : message ∉ messages) : messages.map (renamedTo message newId) = messages := by
  refine (List.map_congr_left fun item member => ?_).trans (List.map_id _)
  exact renamedTo_ne newId fun same => absent (same ▸ member)

theorem drop_idxOf {message : Message} {before after : List Message} (absent : message ∉ before) :
    (before ++ message :: after).drop ((before ++ message :: after).idxOf message + 1) = after := by
  rw [List.idxOf_append_of_notMem absent, List.idxOf_cons_self, Nat.add_zero,
    List.drop_append, List.drop_eq_nil_of_le (by omega), List.nil_append]
  simp

/-- A message list splits at a message of it. -/
theorem exists_split {messages : List Message} {message : Message} (member : message ∈ messages)
    (distinct : (messages.map Message.id).Nodup) :
    ∃ before after, messages = before ++ message :: after ∧
      (before ++ message :: after).Nodup ∧ message ∉ before := by
  obtain ⟨before, after, rfl⟩ := List.append_of_mem member
  have nodup := distinct.of_map
  exact ⟨before, after, rfl, nodup, fun inBefore =>
    (List.nodup_append.mp nodup).2.2 message inBefore message List.mem_cons_self rfl⟩

/-- Renaming a message does not change which message from the server comes next. -/
theorem nextNonlocal_renamed {messages : List Message} {message : Message} {newId : ℚ}
    (distinct : (messages.map Message.id).Nodup)
    (absent : { message with id := newId } ∉ messages) :
    MessageListData.nextNonlocalMessage (messages.map (renamedTo message newId))
        (MessageListData.indexOf (messages.map (renamedTo message newId))
          { message with id := newId }) =
      MessageListData.nextNonlocalMessage messages (MessageListData.indexOf messages message) := by
  by_cases member : message ∈ messages
  · obtain ⟨before, after, rfl, nodup, notBefore⟩ := exists_split member distinct
    have notBeforeRenamed : { message with id := newId } ∉ before :=
      fun inBefore => absent (List.mem_append_left _ inBefore)
    rw [map_renamedTo nodup]
    have place : ∀ {item : Message} {before : List Message},
        MessageListData.indexOf (before ++ item :: after) item + 1 =
          ((before ++ item :: after).idxOf item + 1 : ℕ) := by
      intro item before
      rw [MessageListData.indexOf, if_pos (by simp)]
      rfl
    rw [MessageListData.nextNonlocalMessage, MessageListData.nextNonlocalMessage, place, place,
      Int.toNat_natCast, Int.toNat_natCast, drop_idxOf notBefore, drop_idxOf notBeforeRenamed]
  · rw [map_renamedTo_of_notMem member, MessageListData.indexOf, MessageListData.indexOf,
      if_neg absent, if_neg member]

/-- The list with its messages sorted. -/
def sorted (data : MessageListData) : MessageListData :=
  { data with
    items := sortByKey Message.id data.items
    allItems := sortByKey Message.id data.allItems }

/-- A list is reordered when a message from the server follows the message in the list without muted
messages. -/
theorem reorder_renamed {data : MessageListData} {message : Message} {newId : ℚ}
    (distinct : (data.items.map Message.id).Nodup)
    (below : ∀ item ∈ data.items, item.id < newId) :
    ((renamed data message newId).reorderMessages newId).1 =
      if (MessageListData.nextNonlocalMessage data.items
        (MessageListData.indexOf data.items message)).isSome
      then sorted (renamed data message newId) else renamed data message newId := by
  have absent : { message with id := newId } ∉ data.items :=
    fun member => lt_irrefl _ (below _ member)
  have found : (renamed data message newId).hash.get? newId = some { message with id := newId } := by
    simp [renamed]
  have sameNext := @nextNonlocal_renamed _ message _ distinct absent
  have atMost : ∀ item ∈ (renamed data message newId).items, item.id ≤ newId := by
    intro item member
    obtain ⟨old, isOld, rfl⟩ := List.mem_map.mp member
    rw [renamedTo]
    split_ifs
    · exact le_refl _
    · exact (below old isOld).le
  have notBelowPrev : ∀ index, (MessageListData.prevNonlocalMessage
      (renamed data message newId).items index).any
        (fun prev => decide (newId < prev.id)) = false := by
    intro index
    cases isPrev : MessageListData.prevNonlocalMessage (renamed data message newId).items index with
    | none => rfl
    | some prev =>
        have member := List.mem_of_mem_take (List.mem_reverse.mp (List.mem_of_find?_eq_some isPrev))
        simpa using atMost prev member
  simp only [MessageListData.reorderMessages, found, notBelowPrev, Bool.or_false]
  rw [show (renamed data message newId).items = data.items.map (renamedTo message newId) from rfl,
    sameNext]
  cases isNext : MessageListData.nextNonlocalMessage data.items
      (MessageListData.indexOf data.items message) with
  | none => rfl
  | some next =>
      have member := List.mem_of_mem_drop (List.mem_of_find?_eq_some isNext)
      rw [Option.any_some, decide_eq_true (below next member), Option.isSome_some, if_pos rfl,
        if_pos rfl]
      rfl

theorem mem_ids_renamed {data : MessageListData} {message : Message} {newId id : ℚ}
    (member : message ∈ data.allItems) (distinct : (data.allItems.map Message.id).Nodup) :
    id ∈ (renamed data message newId).allItems.map Message.id ↔
      id = newId ∨ (id ∈ data.allItems.map Message.id ∧ id ≠ message.id) := by
  simp only [renamed, List.map_map, List.mem_map, Function.comp_apply]
  constructor
  · rintro ⟨item, isItem, rfl⟩
    by_cases same : item = message
    · rw [same, renamedTo_self]
      exact .inl rfl
    · rw [renamedTo_ne newId same]
      exact .inr ⟨⟨item, isItem, rfl⟩, fun sameId =>
        same (List.inj_on_of_nodup_map distinct isItem member sameId)⟩
  · rintro (rfl | ⟨⟨item, isItem, rfl⟩, different⟩)
    · exact ⟨message, member, by rw [renamedTo_self]⟩
    · refine ⟨item, isItem, ?_⟩
      rw [renamedTo_ne newId fun same => different (congrArg Message.id same)]

theorem items_renamed {data : MessageListData} {muting : Muting}
    (items : data.items = config.unmutedMessages muting data.allItems) (message : Message)
    (newId : ℚ) :
    (renamed data message newId).items =
      config.unmutedMessages muting (renamed data message newId).allItems := by
  have sameMuting : ∀ item, unmuted config muting (renamedTo message newId item) =
      unmuted config muting item := by
    intro item
    refine unmuted_of_body ?_
    rw [renamedTo]
    split_ifs with same
    · rw [same]
    · rfl
  simp only [renamed, items, unmutedMessages_eq, List.filter_map]
  congr 1
  refine List.filter_congr fun item _ => ?_
  exact (sameMuting item).symm

/-- Sorting a list keeps its parts linked. -/
theorem Linked.sorted {muting : Muting} {data : MessageListData}
    (linked : Linked config muting data) : Linked config muting (sorted data) := by
  have ids : ((MessageListState.sorted data).allItems.map Message.id).Perm
      (data.allItems.map Message.id) := (sortByKey_perm _).map _
  refine ⟨fun id => ?_, ids.nodup_iff.mpr linked.distinct, ?_, fun id => ?_⟩
  · rw [ids.mem_iff]
    exact linked.hash id
  · rw [MessageListState.sorted, linked.items, unmutedMessages_eq, unmutedMessages_eq,
      filter_sortByKey linked.distinct]
  · rw [ids.mem_iff]
    exact linked.localOnly id

/-- Renaming a local echo of a list keeps its parts linked. -/
theorem Consistent.renamed (consistent : state.Consistent config) {message : Message} {newId : ℚ}
    (member : message ∈ state.data.allItems) (oldLocal : isLocalonlyId message.id = true)
    (newNonlocal : isLocalonlyId newId = false)
    (below : ∀ item ∈ state.data.allItems, item.id < newId) :
    Linked config state.muting (renamed state.data message newId) := by
  have ids : ∀ id, id ∈ (MessageListState.renamed state.data message newId).allItems.map Message.id ↔
      id = newId ∨ (id ∈ state.data.allItems.map Message.id ∧ id ≠ message.id) :=
    fun id => mem_ids_renamed member consistent.distinct
  refine ⟨fun id => ?_, ?_, items_renamed consistent.items message newId, fun id => ?_⟩
  · rw [ids, MessageListState.renamed, Dict.mem_keys_set, Dict.mem_keys_erase, consistent.hash]
    tauto
  · have newIsNew : newId ∉ state.data.allItems.map Message.id := by
      intro isId
      obtain ⟨item, isItem, rfl⟩ := List.mem_map.mp isId
      exact lt_irrefl _ (below item isItem)
    obtain ⟨before, after, split, nodup, -⟩ := exists_split member consistent.distinct
    have old := consistent.distinct
    rw [MessageListState.renamed]
    rw [split] at old newIsNew ⊢
    rw [map_renamedTo nodup]
    rw [List.map_append, List.map_cons] at old newIsNew ⊢
    rw [List.nodup_append, List.nodup_cons] at old ⊢
    rw [List.mem_append, List.mem_cons, not_or, not_or] at newIsNew
    refine ⟨old.1, ⟨newIsNew.2.2, old.2.1.2⟩, fun id isBefore other isAfter => ?_⟩
    rcases List.mem_cons.mp isAfter with rfl | later
    · rintro rfl
      exact newIsNew.1 isBefore
    · exact old.2.2 id isBefore other (List.mem_cons_of_mem _ later)
  · have wasLocal : message.id ∈ state.data.localOnly :=
      (consistent.localOnly message.id).mpr ⟨List.mem_map_of_mem member, oldLocal⟩
    rw [ids, MessageListState.renamed, if_pos wasLocal, newNonlocal, if_neg Bool.false_ne_true,
      Finset.mem_erase, consistent.localOnly]
    constructor
    · rintro ⟨different, isId, isLocal⟩
      exact ⟨.inr ⟨isId, different⟩, isLocal⟩
    · rintro ⟨rfl | ⟨isId, different⟩, isLocal⟩
      · rw [newNonlocal] at isLocal
        cases isLocal
      · exact ⟨different, isId, isLocal⟩

/-- A message with a new id that is not reordered is in order when no message from the server
follows it. -/
theorem renamed_ordered_iff (consistent : state.Consistent config) {message : Message} {newId : ℚ}
    (member : message ∈ state.data.allItems) (newNonlocal : isLocalonlyId newId = false)
    (below : ∀ item ∈ state.data.allItems, item.id < newId) :
    Increasing Message.id (nonlocal (renamed state.data message newId).allItems) ↔
      nonlocal (state.data.allItems.drop (state.data.allItems.idxOf message + 1)) = [] := by
  obtain ⟨before, after, split, nodup, notBefore⟩ := exists_split member consistent.distinct
  have oldOrdered := consistent.ordered
  rw [split, nonlocal, List.filter_append] at oldOrdered
  rw [renamed]
  rw [split] at below ⊢
  rw [drop_idxOf notBefore, map_renamedTo nodup]
  have split' : nonlocal (before ++ { message with id := newId } :: after) =
      nonlocal before ++ { message with id := newId } :: nonlocal after := by
    simp [nonlocal, newNonlocal]
  rw [split', Increasing.append, Increasing.cons]
  constructor
  · rintro ⟨-, ⟨belowAfter, -⟩, -⟩
    by_contra later
    obtain ⟨item, isItem⟩ := List.exists_mem_of_ne_nil _ later
    refine lt_asymm (belowAfter item isItem) (below item ?_)
    exact List.mem_append_right _ (List.mem_cons_of_mem _ (List.mem_filter.mp isItem).1)
  · intro noneAfter
    rw [noneAfter]
    refine ⟨(Increasing.append.mp oldOrdered).1, ⟨by simp, Increasing.nil⟩, ?_⟩
    intro item isItem other isNew
    rw [List.mem_singleton.mp isNew]
    exact below item (List.mem_append_left _ (List.mem_filter.mp isItem).1)

/-- An acknowledged message leaves the list consistent exactly when that is allowed. -/
theorem changeMessageId_consistent_iff (consistent : state.Consistent config)
    (indexed : state.Indexed) {oldId newId : ℚ}
    (enabled : state.Enabled (.changeMessageId oldId newId)) :
    (state.perform config (.changeMessageId oldId newId)).Consistent config ↔
      state.Allowed config (.changeMessageId oldId newId) := by
  obtain ⟨oldLocal, newNonlocal, below⟩ := enabled
  cases isFound : state.data.hash.get? oldId with
  | none =>
      refine iff_of_true ?_ fun message isMessage => ?_
      · simpa [perform, MessageListData.changeMessageId, isFound] using consistent
      · rw [isFound] at isMessage
        cases isMessage
  | some message =>
      obtain ⟨member, rfl⟩ := indexed oldId message isFound
      have allowedIff : state.Allowed config (.changeMessageId message.id newId) ↔
          (nonlocal (state.data.allItems.drop (state.data.allItems.idxOf message + 1)) ≠ [] →
            (MessageListData.nextNonlocalMessage state.data.items
              (MessageListData.indexOf state.data.items message)).isSome) := by
        simp [Allowed, isFound]
      have itemsSublist : state.data.items.Sublist state.data.allItems := by
        rw [consistent.items, unmutedMessages_eq]
        exact List.filter_sublist
      have next : state.perform config (.changeMessageId message.id newId) =
          ⟨if (MessageListData.nextNonlocalMessage state.data.items
              (MessageListData.indexOf state.data.items message)).isSome
            then sorted (renamed state.data message newId)
            else renamed state.data message newId, state.muting⟩ := by
        rw [← reorder_renamed (consistent.distinct.sublist (itemsSublist.map Message.id))
          fun item isItem => below item (itemsSublist.subset isItem)]
        simp only [perform, MessageListData.changeMessageId, isFound]
        rfl
      have linked := consistent.renamed member oldLocal newNonlocal below
      rw [allowedIff, next, ← not_imp_not, not_not,
        ← renamed_ordered_iff consistent member newNonlocal below]
      by_cases reordered : (MessageListData.nextNonlocalMessage state.data.items
          (MessageListData.indexOf state.data.items message)).isSome
      · -- Sorting brings both lists in order.
        rw [if_pos reordered]
        refine iff_of_true (linked.sorted.consistent ?_) fun not => absurd reordered not
        exact (increasing_sortByKey linked.distinct).filter _
      · rw [if_neg reordered]
        exact ⟨fun consistentNext _ => consistentNext.ordered,
          fun ordered => linked.consistent (ordered reordered)⟩

/-- A change keeps a list consistent exactly when it is allowed. -/
theorem perform_consistent_iff (consistent : state.Consistent config) (indexed : state.Indexed)
    {action : MessageListAction} (enabled : state.Enabled action) :
    (state.perform config action).Consistent config ↔ state.Allowed config action := by
  cases action with
  | addMessages messages => exact addMessages_consistent_iff consistent enabled
  | remove messageIds => exact iff_of_true (consistent.remove messageIds) trivial
  | changeMessageId oldId newId => exact changeMessageId_consistent_iff consistent indexed enabled
  | updateItemsForMuting muting => exact iff_of_true (consistent.updateItemsForMuting muting) trivial
  | clear => exact clear_consistent_iff consistent

/-- A change keeps the index of a consistent list. -/
theorem Indexed.perform (indexed : state.Indexed) (consistent : state.Consistent config)
    {action : MessageListAction} (enabled : state.Enabled action) :
    (state.perform config action).Indexed := by
  intro id found isFound
  cases action with
  | addMessages messages =>
      have perm := @MessageListData.addMessages_perm config state.data messages state.muting
      rcases MessageListData.get?_addMessages isFound with before | ⟨isNew, sameId⟩
      · obtain ⟨member, sameId⟩ := indexed id found before
        exact ⟨perm.mem_iff.mpr (List.mem_append_right _ member), sameId⟩
      · exact ⟨perm.mem_iff.mpr (List.mem_append_left _ isNew), sameId⟩
  | remove messageIds =>
      obtain ⟨before, notRemoved⟩ := get?_erase_all isFound
      obtain ⟨member, rfl⟩ := indexed id found before
      exact ⟨List.mem_filter.mpr ⟨member, by simpa using notRemoved⟩, rfl⟩
  | changeMessageId oldId newId =>
      cases wasFound : state.data.hash.get? oldId with
      | none =>
          simp only [MessageListState.perform, MessageListData.changeMessageId, wasFound] at isFound ⊢
          exact indexed id found isFound
      | some message =>
          obtain ⟨member, rfl⟩ := indexed oldId message wasFound
          have itemsSublist : state.data.items.Sublist state.data.allItems := by
            rw [consistent.items, unmutedMessages_eq]
            exact List.filter_sublist
          have reorders := @reorder_renamed _ message newId
            (consistent.distinct.sublist (itemsSublist.map Message.id))
            fun item isItem => enabled.2.2 item (itemsSublist.subset isItem)
          have next : (state.perform config (.changeMessageId message.id newId)).data =
              ((renamed state.data message newId).reorderMessages newId).1 := by
            simp only [MessageListState.perform, MessageListData.changeMessageId, wasFound]
            rfl
          have renamedFound : (renamed state.data message newId).hash.get? id = some found := by
            rw [next, reorders] at isFound
            split_ifs at isFound <;> exact isFound
          have renamedMember : found ∈ (renamed state.data message newId).allItems ∧
              found.id = id := by
            rw [renamed, Dict.get?_set, Dict.get?_erase] at renamedFound
            split_ifs at renamedFound with isNew isOld
            · cases renamedFound
              exact ⟨List.mem_map.mpr ⟨message, member, renamedTo_self message newId⟩, isNew.symm⟩
            · obtain ⟨old, rfl⟩ := indexed id found renamedFound
              refine ⟨List.mem_map.mpr ⟨found, old, renamedTo_ne newId ?_⟩, rfl⟩
              rintro rfl
              exact isOld rfl
          rw [next, reorders]
          split_ifs
          · exact ⟨mem_sortByKey.mpr renamedMember.1, renamedMember.2⟩
          · exact renamedMember
  | updateItemsForMuting muting => exact indexed id found isFound
  | clear => cases isFound

/-- A list without messages. -/
def initial (muting : Muting) : MessageListState := ⟨MessageListData.empty, muting⟩

theorem initial_consistent (config : MessageListConfig) (muting : Muting) :
    (initial muting).Consistent config :=
  Linked.consistent ⟨fun id => by simp [MessageListData.empty], List.nodup_nil,
    by rw [unmutedMessages_eq]; rfl, fun id => by simp [MessageListData.empty]⟩ List.Pairwise.nil

end MessageListState

open MessageListState in
/-- A message list is consistent after every change of a sequence exactly when every change is
allowed. -/
theorem messageList_always_iff (config : MessageListConfig) (muting : Muting)
    {final : MessageListState} {trace : List (MessageListState × MessageListAction)}
    (run : Run (Step config) (initial muting) trace final) :
    Run.Always (Consistent config) trace final ↔
      ∀ visit ∈ trace, Allowed config visit.1 visit.2 := by
  have preserved : ∀ {state : MessageListState} {action : MessageListAction}
      {next : MessageListState}, state.Indexed → state.Consistent config →
        Step config state action next → state.Allowed config action → next.Indexed := by
    rintro state action next indexed consistent ⟨enabled, rfl⟩ -
    exact indexed.perform consistent enabled
  have stepIff : ∀ {state : MessageListState} {action : MessageListAction}
      {next : MessageListState}, state.Indexed → state.Consistent config →
        Step config state action next → (next.Consistent config ↔ state.Allowed config action) := by
    rintro state action next indexed consistent ⟨enabled, rfl⟩
    exact perform_consistent_iff consistent indexed enabled
  exact @Run.always_iff _ _ _ MessageListState.Indexed _ _ _ _ _ run (fun _ _ isFound => by cases isFound)
    (initial_consistent config muting) preserved stepIff

/-- A list of all messages, without those in muted topics. -/
def combinedFeed : MessageListConfig := ⟨fun _ => true, false, true⟩

def nothingMuted : Muting := ⟨fun _ _ => false, fun _ => false⟩

def lunchMessage (id : ℚ) : Message := ⟨id, .stream 1 "lunch" false⟩

/-- A local echo, a message of another user, and the acknowledgement of the local echo. -/
def oneEcho : List MessageListAction :=
  [.addMessages [lunchMessage 10], .addMessages [lunchMessage (1001 / 100)],
    .addMessages [lunchMessage 11], .changeMessageId (1001 / 100) 12]

/-- The states of the combined feed after the first changes of a sequence. -/
def feedAfter (actions : List MessageListAction) (count : ℕ) : MessageListState :=
  (actions.take count).foldl (fun state action => state.perform combinedFeed action)
    (MessageListState.initial nothingMuted)

open MessageListState in
/-- The acknowledged message is moved behind the one of the other user. -/
theorem messageList_always_iff_oneEcho :
    Run.Always (Consistent combinedFeed)
      [(feedAfter oneEcho 0, MessageListAction.addMessages [lunchMessage 10]),
        (feedAfter oneEcho 1, .addMessages [lunchMessage (1001 / 100)]),
        (feedAfter oneEcho 2, .addMessages [lunchMessage 11]),
        (feedAfter oneEcho 3, .changeMessageId (1001 / 100) 12)] (feedAfter oneEcho 4) := by
  have run : Run (Step combinedFeed) (initial nothingMuted)
      [(feedAfter oneEcho 0, .addMessages [lunchMessage 10]),
        (feedAfter oneEcho 1, .addMessages [lunchMessage (1001 / 100)]),
        (feedAfter oneEcho 2, .addMessages [lunchMessage 11]),
        (feedAfter oneEcho 3, .changeMessageId (1001 / 100) 12)] (feedAfter oneEcho 4) :=
    .step (.step (.step (.step .refl ⟨by decide +kernel, rfl⟩) ⟨by decide +kernel, rfl⟩)
      ⟨by decide +kernel, rfl⟩) ⟨by decide +kernel, rfl⟩
  exact (messageList_always_iff combinedFeed nothingMuted run).mpr (by decide +kernel)

/-- Two local echoes, the first of which is acknowledged before a message with a smaller id
arrives. -/
def twoEchoes : List MessageListAction :=
  [.addMessages [lunchMessage 10], .addMessages [lunchMessage (1001 / 100)],
    .addMessages [lunchMessage (1002 / 100)], .changeMessageId (1001 / 100) 20,
    .addMessages [lunchMessage 15]]

open MessageListState in
/-- The message that arrives last is compared with the second local echo and put behind the
acknowledged message, which has a larger id. -/
theorem arrivedMessage_misplaced :
    ∃ (trace : List (MessageListState × MessageListAction)) (final : MessageListState),
      Run (Step combinedFeed) (initial nothingMuted) trace final ∧
        ¬ Run.Always (Consistent combinedFeed) trace final := by
  have run : Run (Step combinedFeed) (initial nothingMuted)
      [(feedAfter twoEchoes 0, .addMessages [lunchMessage 10]),
        (feedAfter twoEchoes 1, .addMessages [lunchMessage (1001 / 100)]),
        (feedAfter twoEchoes 2, .addMessages [lunchMessage (1002 / 100)]),
        (feedAfter twoEchoes 3, .changeMessageId (1001 / 100) 20),
        (feedAfter twoEchoes 4, .addMessages [lunchMessage 15])] (feedAfter twoEchoes 5) :=
    .step (.step (.step (.step (.step .refl ⟨by decide +kernel, rfl⟩) ⟨by decide +kernel, rfl⟩)
      ⟨by decide +kernel, rfl⟩) ⟨by decide +kernel, rfl⟩) ⟨by decide +kernel, rfl⟩
  refine ⟨_, _, run, ?_⟩
  rintro ⟨-, consistent⟩
  have isSorted : ((nonlocal (feedAfter twoEchoes 5).data.allItems).map Message.id) =
      [10, 20, 15] := by decide +kernel
  have ordered := List.pairwise_map.mpr consistent.ordered
  rw [isSorted] at ordered
  exact absurd ordered (by decide +kernel)

end Zulip.Client
