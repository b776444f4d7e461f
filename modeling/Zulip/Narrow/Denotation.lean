import Zulip.Narrow.History

/-!
# What a narrow selects

The rows that a list of terms selects are those of the base query that every term selects alone, and
a negated term selects the complement, except for `near` and `in`, which do not look at the negation.
Search terms are joined to one search. A list of terms that are accepted one by one is rejected when
it has a term about channels and one about direct messages.
-/

namespace Zulip.Narrow

open Zulip.Access Zulip.Messages

section Loops

variable {Item Result Error : Type} {convert : Item → Except Error Result} {items : List Item}

/-- A loop returns when every item has a result. -/
theorem exists_mapM_eq_ok (converts : ∀ item ∈ items, ∃ result, convert item = .ok result) :
    ∃ results, items.mapM convert = .ok results := by
  induction items with
  | nil => exact ⟨[], rfl⟩
  | cons item rest inductionHypothesis =>
      obtain ⟨first, isFirst⟩ := converts item List.mem_cons_self
      obtain ⟨later, isLater⟩ :=
        inductionHypothesis fun other member => converts other (List.mem_cons_of_mem _ member)
      refine ⟨first :: later, ?_⟩
      rw [List.mapM_cons]
      exact bind_eq_ok_iff.mpr ⟨first, isFirst, bind_eq_ok_iff.mpr ⟨later, isLater, rfl⟩⟩

theorem mem_flatten_of_mapM {Value : Type} {convert : Item → Except Error (List Value)}
    {results : List (List Value)} (returns : items.mapM convert = .ok results) {value : Value} :
    value ∈ results.flatten ↔
      ∃ item ∈ items, ∃ found, convert item = .ok found ∧ value ∈ found := by
  rw [List.mem_flatten]
  constructor
  · rintro ⟨found, isResult, member⟩
    obtain ⟨item, isItem, isFound⟩ := exists_of_mapM_eq_ok returns found isResult
    exact ⟨item, isItem, found, isFound, member⟩
  · rintro ⟨item, isItem, found, isFound, member⟩
    obtain ⟨result, isResult, resultMember⟩ := exists_result_of_mapM_eq_ok returns item isItem
    rw [isFound] at isResult
    cases isResult
    exact ⟨found, resultMember, member⟩

end Loops

section Kinds

/-- The terms are about channels and about direct messages. -/
def Conflicting (terms : List NarrowParameter) : Prop :=
  (∃ term ∈ terms, termKind term = some .channel) ∧ ∃ term ∈ terms, termKind term = some .dm

/-- The check passes when the builder has not noted the other kind. -/
theorem exists_noted_iff {builder : NarrowBuilder}
    (notBoth : ¬(builder.isChannelNarrow = true ∧ builder.isDmNarrow = true))
    (terms : List NarrowParameter) :
    (∃ noted, terms.foldlM (fun builder term => builder.checkKind (termKind term)) builder =
        (.ok noted : Except NarrowError NarrowBuilder)) ↔
      ¬((builder.isChannelNarrow = true ∨ ∃ term ∈ terms, termKind term = some .channel) ∧
        (builder.isDmNarrow = true ∨ ∃ term ∈ terms, termKind term = some .dm)) := by
  induction terms generalizing builder with
  | nil => simpa [pure, Except.pure] using notBoth
  | cons term rest inductionHypothesis =>
      simp only [List.foldlM_cons, bind_eq_ok_iff, List.exists_mem_cons_iff]
      have step : ∀ next, builder.checkKind (termKind term) = .ok next →
          ¬(next.isChannelNarrow = true ∧ next.isDmNarrow = true) →
            ((∃ noted next', builder.checkKind (termKind term) = .ok next' ∧
                rest.foldlM (fun builder term => builder.checkKind (termKind term)) next' =
                  .ok noted) ↔
              ¬((next.isChannelNarrow = true ∨ ∃ term ∈ rest, termKind term = some .channel) ∧
                (next.isDmNarrow = true ∨ ∃ term ∈ rest, termKind term = some .dm))) := by
        intro next isNext nextNotBoth
        rw [← inductionHypothesis nextNotBoth]
        constructor
        · rintro ⟨noted, next', isNext', isRest⟩
          rw [isNext] at isNext'
          cases isNext'
          exact ⟨noted, isRest⟩
        · rintro ⟨noted, isRest⟩
          exact ⟨noted, next, isNext, isRest⟩
      cases kind : termKind term with
      | none =>
          rw [kind] at step
          simpa using step builder rfl notBoth
      | some kindFound =>
          rw [kind] at step
          cases kindFound with
          | channel =>
              cases isDm : builder.isDmNarrow with
              | false =>
                  have passes := NarrowBuilder.checkKind_channel_ok_iff.mpr ⟨isDm, rfl⟩
                  simpa [isDm] using step _ passes (by simp [isDm])
              | true =>
                  have fails : ∀ next, builder.checkKind (some .channel) ≠ .ok next := by
                    intro next passes
                    rw [(NarrowBuilder.checkKind_channel_ok_iff.mp passes).1] at isDm
                    cases isDm
                  simp [fails]
          | dm =>
              cases isChannel : builder.isChannelNarrow with
              | false =>
                  have passes := NarrowBuilder.checkKind_dm_ok_iff.mpr ⟨isChannel, rfl⟩
                  simpa [isChannel] using step _ passes (by simp [isChannel])
              | true =>
                  have fails : ∀ next, builder.checkKind (some .dm) ≠ .ok next := by
                    intro next passes
                    rw [(NarrowBuilder.checkKind_dm_ok_iff.mp passes).1] at isChannel
                    cases isChannel
                  simp [fails]

/-- A new builder rejects exactly the conflicting lists. -/
theorem exists_noted_new_iff (context : NarrowContext) (terms : List NarrowParameter) :
    (∃ noted, terms.foldlM (fun builder term => builder.checkKind (termKind term))
        ({ toNarrowContext := context } : NarrowBuilder) =
          (.ok noted : Except NarrowError NarrowBuilder)) ↔ ¬Conflicting terms := by
  rw [exists_noted_iff (by simp) terms]
  simp [Conflicting]

theorem not_conflicting_singleton (term : NarrowParameter) : ¬Conflicting [term] := by
  rintro ⟨⟨first, isFirst, isChannel⟩, ⟨second, isSecond, isDm⟩⟩
  rw [List.mem_singleton] at isFirst isSecond
  rw [isFirst] at isChannel
  rw [isSecond, isChannel] at isDm
  cases isDm

theorem Conflicting.of_perm {terms others : List NarrowParameter} (perm : terms.Perm others)
    (conflicting : Conflicting terms) : Conflicting others := by
  obtain ⟨⟨first, isFirst, isChannel⟩, ⟨second, isSecond, isDm⟩⟩ := conflicting
  exact ⟨⟨first, perm.mem_iff.mp isFirst, isChannel⟩, ⟨second, perm.mem_iff.mp isSecond, isDm⟩⟩

end Kinds

/-- The rows that a narrow selects from the messages of the realm or from the user's own. -/
def narrowRows (backend : Backend) (db : Database) (viewer : Viewer) (needUserMessage : Bool)
    (narrow : List NarrowParameter) : Except NarrowError (List Row) := do
  let base ← getBaseQueryForSearch db viewer needUserMessage
  let narrowed ← addNarrowConditions backend db viewer.context base narrow
  execute backend db needUserMessage narrowed.1

/-- The rows of the base query. -/
def baseRows (db : Database) (needUserMessage : Bool) : Viewer → List Row
  | .user profile => if needUserMessage then userRows db profile else realmRows db profile.realm
  | .spectator home => if needUserMessage then [] else realmRows db home

/-- A row that a term selects alone. -/
def Satisfies (backend : Backend) (db : Database) (viewer : Viewer) (needUserMessage : Bool)
    (row : Row) (term : NarrowParameter) : Prop :=
  ∃ rows, narrowRows backend db viewer needUserMessage [term] = .ok rows ∧ row ∈ rows

/-- The one term that the search terms are joined to. -/
def searchTerm (operands : List String) : NarrowParameter :=
  { operator := "search", operand := .str (" ".intercalate operands) }

section Selected

variable {backend : Backend} {db : Database} {viewer : Viewer} {needUserMessage : Bool}
  {narrow : List NarrowParameter} {rows : List Row} {term : NarrowParameter} {row : Row}

/-- Spectators have no rows of their own. -/
theorem getBaseQueryForSearch_eq_ok_iff {base : Query} :
    getBaseQueryForSearch db viewer needUserMessage = .ok base ↔
      (needUserMessage = true → ∃ user, viewer = .user user) ∧
        { source := baseRows db needUserMessage viewer } = base := by
  cases needUserMessage <;> cases viewer <;> simp [getBaseQueryForSearch, baseRows, Viewer.realm]

/-- Which lists are accepted, and the conditions that their rows meet. -/
theorem narrowRows_eq_ok_iff :
    narrowRows backend db viewer needUserMessage narrow = .ok rows ↔
      (needUserMessage = true → ∃ user, viewer = .user user) ∧
        ¬Conflicting (plainTerms narrow) ∧
          ∃ conditions, (plainTerms narrow).mapM (termConditions backend db viewer.context) =
              .ok conditions ∧
            ∃ operands, (searchTerms narrow).mapM searchOperand = .ok operands ∧
              (operands ≠ [] → backend.strip (" ".intercalate operands) ≠ "") ∧
                (needUserMessage = false →
                  (conditions.flatten ++ joinedSearch backend operands).any
                    ClauseElement.readsFlags = false) ∧
                  ({ source := baseRows db needUserMessage viewer
                     conditions := conditions.flatten ++ joinedSearch backend operands } :
                    Query).rows (ClauseElement.eval backend db) = rows := by
  unfold narrowRows
  simp only [bind_eq_ok_iff, getBaseQueryForSearch_eq_ok_iff, execute_eq_ok_iff]
  constructor
  · rintro ⟨_, ⟨allowed, rfl⟩, ⟨query, isSearch⟩, narrowed, flagsThere, isRows⟩
    obtain ⟨noted, conditions, isConditions, operands, isOperands, notBlank, rfl, -⟩ :=
      addNarrowConditions_eq_ok_iff.mp narrowed
    exact ⟨allowed, (exists_noted_new_iff _ _).mp noted, conditions, isConditions, operands,
      isOperands, notBlank, by simpa using flagsThere, isRows⟩
  · rintro ⟨allowed, notConflicting, conditions, isConditions, operands, isOperands, notBlank,
      flagsThere, isRows⟩
    refine ⟨_, ⟨allowed, rfl⟩, ⟨_, _⟩, addNarrowConditions_eq_ok_iff.mpr
      ⟨(exists_noted_new_iff _ _).mpr notConflicting, conditions, isConditions, operands, isOperands,
        notBlank, rfl, rfl⟩, by simpa using flagsThere, isRows⟩

theorem plainTerms_singleton (notSearch : term.operator ≠ "search") : plainTerms [term] = [term] := by
  simp [plainTerms, notSearch]

theorem searchTerms_singleton (notSearch : term.operator ≠ "search") : searchTerms [term] = [] := by
  simp [searchTerms, notSearch]

/-- What one term selects. -/
theorem narrowRows_singleton_eq_ok_iff (notSearch : term.operator ≠ "search") :
    narrowRows backend db viewer needUserMessage [term] = .ok rows ↔
      (needUserMessage = true → ∃ user, viewer = .user user) ∧
        ∃ conditions, termConditions backend db viewer.context term = .ok conditions ∧
          (needUserMessage = false → conditions.any ClauseElement.readsFlags = false) ∧
            ({ source := baseRows db needUserMessage viewer, conditions := conditions } :
              Query).rows (ClauseElement.eval backend db) = rows := by
  rw [narrowRows_eq_ok_iff, plainTerms_singleton notSearch, searchTerms_singleton notSearch]
  constructor
  · rintro ⟨allowed, -, conditions, isConditions, operands, isOperands, -, flagsThere, isRows⟩
    cases isOperands
    rw [List.mapM_cons] at isConditions
    obtain ⟨found, isFound, isConditions⟩ := exists_of_bind_eq_ok isConditions
    cases isConditions
    exact ⟨allowed, found, isFound, by simpa [joinedSearch] using flagsThere,
      by simpa [joinedSearch] using isRows⟩
  · rintro ⟨allowed, conditions, isConditions, flagsThere, isRows⟩
    refine ⟨allowed, not_conflicting_singleton term, [conditions], ?_, [], rfl, by simp,
      by simpa [joinedSearch] using flagsThere, by simpa [joinedSearch] using isRows⟩
    rw [List.mapM_cons]
    exact bind_eq_ok_iff.mpr ⟨conditions, isConditions, rfl⟩

/-- A row satisfies a term of an accepted list exactly when it meets the term's conditions. -/
theorem satisfies_iff (accepted : narrowRows backend db viewer needUserMessage narrow = .ok rows)
    (isTerm : term ∈ plainTerms narrow) {conditions : List ClauseElement}
    (isConditions : termConditions backend db viewer.context term = .ok conditions) :
    Satisfies backend db viewer needUserMessage row term ↔
      row ∈ baseRows db needUserMessage viewer ∧
        ∀ condition ∈ conditions, condition.eval backend db row = some true := by
  have notSearch := (mem_plainTerms.mp isTerm).2
  obtain ⟨allowed, -, allConditions, isAll, operands, -, -, flagsThere, -⟩ :=
    narrowRows_eq_ok_iff.mp accepted
  have termFlags : needUserMessage = false → conditions.any ClauseElement.readsFlags = false := by
    intro noUserMessage
    rw [List.any_eq_false]
    intro condition isCondition
    refine List.any_eq_false.mp (flagsThere noUserMessage) condition (List.mem_append_left _ ?_)
    exact (mem_flatten_of_mapM isAll).mpr ⟨term, isTerm, conditions, isConditions, isCondition⟩
  have selected := (narrowRows_singleton_eq_ok_iff notSearch).mpr
    ⟨allowed, conditions, isConditions, termFlags, rfl⟩
  constructor
  · rintro ⟨found, isFound, member⟩
    rw [selected] at isFound
    cases isFound
    exact Select.mem_rows.mp member
  · exact fun meets => ⟨_, selected, Select.mem_rows.mpr meets⟩

theorem searchConditions_readsFlags (backend : Backend) (operand : String) :
    (searchConditions backend operand).any ClauseElement.readsFlags = false := by
  unfold searchConditions
  split_ifs
  · rfl
  · simp [List.any_append, List.any_map, ClauseElement.readsFlags, Function.comp_def]

/-- What the joined search selects. -/
theorem satisfies_searchTerm_iff
    (allowed : needUserMessage = true → ∃ user, viewer = .user user) {operands : List String}
    (notBlank : backend.strip (" ".intercalate operands) ≠ "") (isSearch : operands ≠ []) :
    Satisfies backend db viewer needUserMessage row (searchTerm operands) ↔
      row ∈ baseRows db needUserMessage viewer ∧
        ∀ condition ∈ joinedSearch backend operands, condition.eval backend db row = some true := by
  have isJoined : joinedSearch backend [" ".intercalate operands] = joinedSearch backend operands := by
    rw [joinedSearch, joinedSearch, if_neg isSearch, if_neg (List.cons_ne_nil _ _),
      String.intercalate_singleton]
  have selected : narrowRows backend db viewer needUserMessage [searchTerm operands] =
      .ok (({ source := baseRows db needUserMessage viewer
              conditions := joinedSearch backend operands } : Query).rows
            (ClauseElement.eval backend db)) := by
    refine narrowRows_eq_ok_iff.mpr ⟨allowed, ?_, [], rfl, [" ".intercalate operands], rfl, ?_, ?_, ?_⟩
    · rintro ⟨⟨term, isTerm, -⟩, -⟩
      cases isTerm
    · rw [String.intercalate_singleton]
      exact fun _ => notBlank
    · intro _
      rw [isJoined, joinedSearch, if_neg isSearch]
      exact searchConditions_readsFlags backend _
    · rw [isJoined]
      rfl
  constructor
  · rintro ⟨found, isFound, member⟩
    rw [selected] at isFound
    cases isFound
    exact Select.mem_rows.mp member
  · exact fun meets => ⟨_, selected, Select.mem_rows.mpr meets⟩

end Selected

section Complement

variable {backend : Backend} {db : Database} {context : NarrowContext}

theorem ok_of_map_ok {Error Value Result : Type} {value : Except Error Value}
    {convert : Value → Result} {result : Result} (mapped : value.map convert = .ok result) :
    ∃ found, value = .ok found ∧ convert found = result := by
  cases value with
  | error error => cases mapped
  | ok found => exact ⟨found, rfl, Except.ok.inj mapped⟩

/-- The conditions that can be negated do not search. -/
theorem methodCondition_readsSearch {method : Method} {operand : Operand} {condition : ClauseElement}
    (isCondition : methodCondition backend db context method operand = some (.ok condition)) :
    condition.readsSearch = false := by
  cases method with
  | byHas =>
      have found := Option.some.inj isCondition
      unfold hasCondition at found
      split_ifs at found
      all_goals
        cases found
        rfl
  | byIs =>
      obtain ⟨user, -, found⟩ := exists_of_bind_eq_ok (Option.some.inj isCondition)
      split at found
      · next isOperand _ =>
          cases found
          cases isOperand <;> rfl
      · cases found
  | byChannel =>
      obtain ⟨channel, -, found⟩ := exists_of_bind_eq_ok (Option.some.inj isCondition)
      split_ifs at found
      all_goals
        cases found
        rfl
  | byChannels =>
      have found := Option.some.inj isCondition
      unfold channelsCondition at found
      split_ifs at found
      all_goals
        cases found
        rfl
  | byTopic =>
      have found := Option.some.inj isCondition
      unfold topicCondition at found
      split at found
      · split_ifs at found
        · split at found
          · cases found
          · split_ifs at found
            all_goals
              cases found
              rfl
        · cases found
          rfl
      · cases found
  | bySender =>
      obtain ⟨sender, -, found⟩ := exists_of_bind_eq_ok (Option.some.inj isCondition)
      cases found
      rfl
  | byId =>
      have found := Option.some.inj isCondition
      unfold idCondition at found
      dsimp only at found
      split_ifs at found
      cases found
      rfl
  | byDm =>
      obtain ⟨user, -, found⟩ := exists_of_bind_eq_ok (Option.some.inj isCondition)
      obtain ⟨profiles, -, found⟩ := exists_of_bind_eq_ok found
      obtain ⟨recipient, -, found⟩ := exists_of_bind_eq_ok found
      split at found
      · cases found
        rfl
      · cases found
        rfl
      · split at found
        · cases found
          rfl
        · cases found
          rfl
  | byDmIncluding =>
      obtain ⟨user, -, found⟩ := exists_of_bind_eq_ok (Option.some.inj isCondition)
      obtain ⟨other, -, found⟩ := exists_of_bind_eq_ok found
      split_ifs at found
      all_goals
        cases found
        rfl
  | byGroupPmWith =>
      obtain ⟨user, -, found⟩ := exists_of_bind_eq_ok (Option.some.inj isCondition)
      obtain ⟨other, -, found⟩ := exists_of_bind_eq_ok found
      cases found
      rfl
  | byIn => cases isCondition
  | byNear => cases isCondition
  | bySearch => cases isCondition

/-- The methods of the operators that take a negation and of those that do not. -/
theorem method_of_lookup {operator : String} {method : Method}
    (found : byMethodMap.lookup operator = some method) :
    (operator ∉ ["near", "in", "search"] → method ≠ .byNear ∧ method ≠ .byIn ∧ method ≠ .bySearch) ∧
      (operator ∈ ["near", "in"] → method = .byNear ∨ method = .byIn) := by
  have member : (operator, method) ∈ byMethodMap := by
    obtain ⟨before, after, split, -⟩ := List.lookup_eq_some_iff.mp found
    rw [split]
    exact List.mem_append_right _ List.mem_cons_self
  simp only [byMethodMap, List.mem_cons, Prod.mk.injEq, List.not_mem_nil, or_false] at member
  rcases member with ⟨rfl, rfl⟩ | ⟨rfl, rfl⟩ | ⟨rfl, rfl⟩ | ⟨rfl, rfl⟩ | ⟨rfl, rfl⟩ | ⟨rfl, rfl⟩ |
    ⟨rfl, rfl⟩ | ⟨rfl, rfl⟩ | ⟨rfl, rfl⟩ | ⟨rfl, rfl⟩ | ⟨rfl, rfl⟩ | ⟨rfl, rfl⟩ | ⟨rfl, rfl⟩ |
    ⟨rfl, rfl⟩ | ⟨rfl, rfl⟩ | ⟨rfl, rfl⟩ | ⟨rfl, rfl⟩ | ⟨rfl, rfl⟩ <;> simp

/-- A term that takes a negation has one condition, which it negates. -/
theorem termConditions_negatable {term : NarrowParameter}
    (negatable : term.operator ∉ ["near", "in", "search"]) {conditions : List ClauseElement}
    (isConditions : termConditions backend db context term = .ok conditions) :
    ∃ condition : ClauseElement, condition.readsSearch = false ∧
      ∀ negated, termConditions backend db context { term with negated := negated } =
        .ok [maybeNegate negated condition] := by
  unfold termConditions at isConditions ⊢
  cases found : byMethodMap.lookup term.operator with
  | none =>
      rw [found] at isConditions
      cases isConditions
  | some method =>
      rw [found] at isConditions
      obtain ⟨notNear, notIn, notSearch⟩ := (method_of_lookup found).1 negatable
      cases isCondition : methodCondition backend db context method term.operand with
      | none =>
          cases method with
          | byNear => exact absurd rfl notNear
          | byIn => exact absurd rfl notIn
          | bySearch => exact absurd rfl notSearch
          | _ => cases isCondition
      | some condition =>
          simp only [methodConditions, isCondition] at isConditions ⊢
          obtain ⟨clause, rfl, -⟩ := ok_of_map_ok isConditions
          refine ⟨clause, methodCondition_readsSearch isCondition, fun negated => ?_⟩
          rw [found]
          dsimp only
          rw [isCondition]
          rfl

/-- `near` and `in` add the same conditions whether they are negated or not. -/
theorem termConditions_unaffected {term : NarrowParameter} (unaffected : term.operator ∈ ["near", "in"])
    (negated : Bool) :
    termConditions backend db context { term with negated := negated } =
      termConditions backend db context term := by
  unfold termConditions
  cases found : byMethodMap.lookup term.operator with
  | none => rfl
  | some method =>
      rcases (method_of_lookup found).2 unaffected with rfl | rfl
      · rfl
      · rfl

end Complement

section Directs

/-- What the writers of messages keep: direct messages have an empty topic, and their `UserMessage`
rows are those with the flag `is_private`. -/
structure DirectsMarked (db : Database) : Prop where
  privateFlag : ∀ userMessage ∈ db.userMessages, ∀ message ∈ db.messages,
    userMessage.messageId = message.id →
      (Flag.isPrivate ∈ userMessage.flags ↔ message.recipient.isStream = false)
  emptyTopic : ∀ message ∈ db.messages, message.recipient.isStream = false → message.subject = ""

variable {backend : Backend} {db : Database} {viewer : Viewer} {needUserMessage : Bool} {row : Row}

/-- The rows of the base query are rows of messages, with the flags of a `UserMessage` row if there
are any. -/
theorem mem_baseRows (member : row ∈ baseRows db needUserMessage viewer) :
    row.message ∈ db.messages ∧
      ∀ flags, row.flags = some flags → ∃ userMessage ∈ db.userMessages,
        userMessage.messageId = row.message.id ∧ userMessage.flags = flags := by
  have ofRealm : ∀ home, row ∈ realmRows db home → row.message ∈ db.messages ∧
      ∀ flags, row.flags = some flags → ∃ userMessage ∈ db.userMessages,
        userMessage.messageId = row.message.id ∧ userMessage.flags = flags := by
    intro home inRealm
    obtain ⟨stored, -, noFlags⟩ := mem_realmRows.mp inRealm
    refine ⟨stored, fun flags isFlags => ?_⟩
    rw [noFlags] at isFlags
    cases isFlags
  unfold baseRows at member
  cases viewer with
  | spectator home =>
      dsimp only at member
      split_ifs at member
      · cases member
      · exact ofRealm home member
  | user profile =>
      dsimp only at member
      split_ifs at member
      · simp only [userRows, List.mem_filterMap, List.mem_filter, Option.map_eq_some_iff] at member
        obtain ⟨userMessage, ⟨stored, -⟩, message, found, rfl⟩ := member
        have sameId : message.id = userMessage.messageId := by simpa using List.find?_some found
        refine ⟨List.mem_of_find?_eq_some found, fun flags isFlags => ?_⟩
        exact ⟨userMessage, stored, sameId.symm, Option.some.inj isFlags⟩
      · exact ofRealm profile.realm member

/-- A row that meets `is_private`. -/
theorem direct_of_isPrivate (marked : DirectsMarked db)
    (member : row ∈ baseRows db needUserMessage viewer)
    (isPrivate : isPrivateCondition.eval backend db row = some true) :
    row.message.recipient.isStream = false := by
  obtain ⟨stored, ofUser⟩ := mem_baseRows member
  simp only [isPrivateCondition, ClauseElement.eval, Option.map_eq_some_iff,
    Flags.test_singleton] at isPrivate
  obtain ⟨flags, isFlags, isSet⟩ := isPrivate
  obtain ⟨userMessage, userMessageStored, sameId, rfl⟩ := ofUser flags isFlags
  exact (marked.privateFlag userMessage userMessageStored _ stored sameId).mp isSet

/-- What a condition about direct messages admits. -/
theorem direct_of_methodCondition (marked : DirectsMarked db)
    (member : row ∈ baseRows db needUserMessage viewer) {context : NarrowContext} {method : Method}
    {operand : Operand} (aboutDms : methodKind method operand = some .dm)
    {condition : ClauseElement}
    (isCondition : methodCondition backend db context method operand = some (.ok condition))
    (meets : condition.eval backend db row = some true) : row.message.recipient.isStream = false := by
  have ofPrivate : ∀ rest : List ClauseElement, rest ≠ [] →
      (ClauseElement.all (isPrivateCondition :: rest)).eval backend db row = some true →
        row.message.recipient.isStream = false := by
    intro rest isMore meets
    obtain ⟨first, others, rfl⟩ := List.exists_cons_of_ne_nil isMore
    have both := Truth.and_eq_true_iff.mp meets
    exact direct_of_isPrivate marked member both.1
  cases method with
  | byIs =>
      have isDm : IsOperand.of? operand = some .dm := by
        by_contra other
        simp [methodKind, other] at aboutDms
      obtain ⟨user, -, found⟩ := exists_of_bind_eq_ok (Option.some.inj isCondition)
      rw [isDm] at found
      cases found
      exact direct_of_isPrivate marked member meets
  | byDm =>
      obtain ⟨user, -, found⟩ := exists_of_bind_eq_ok (Option.some.inj isCondition)
      obtain ⟨profiles, -, found⟩ := exists_of_bind_eq_ok found
      obtain ⟨recipient, -, found⟩ := exists_of_bind_eq_ok found
      split at found
      · cases found
        cases meets
      · cases found
        simp only [ClauseElement.eval, Option.some.injEq, decide_eq_true_eq] at meets
        rw [meets]
        rfl
      · split at found
        · cases found
          exact ofPrivate _ (List.cons_ne_nil _ _) meets
        · cases found
          exact ofPrivate _ (List.cons_ne_nil _ _) meets
  | byDmIncluding =>
      obtain ⟨user, -, found⟩ := exists_of_bind_eq_ok (Option.some.inj isCondition)
      obtain ⟨other, -, found⟩ := exists_of_bind_eq_ok found
      split_ifs at found
      · cases found
        exact direct_of_isPrivate marked member meets
      · cases found
        exact ofPrivate _ (List.cons_ne_nil _ _) meets
  | byGroupPmWith =>
      obtain ⟨user, -, found⟩ := exists_of_bind_eq_ok (Option.some.inj isCondition)
      obtain ⟨other, -, found⟩ := exists_of_bind_eq_ok found
      cases found
      exact ofPrivate _ (List.cons_ne_nil _ _) meets
  | _ => cases aboutDms

/-- What a condition about channels admits, a topic apart. -/
theorem stream_of_methodCondition {context : NarrowContext} {method : Method} {operand : Operand}
    (aboutChannels : methodKind method operand = some .channel) (notTopic : method ≠ .byTopic)
    {condition : ClauseElement}
    (isCondition : methodCondition backend db context method operand = some (.ok condition))
    (meets : condition.eval backend db row = some true) : row.message.recipient.isStream = true := by
  have ofStreams : ∀ streams : List Stream,
      (ClauseElement.recipientIn (streams.map (·.recipient))).eval backend db row = some true →
        row.message.recipient.isStream = true := by
    intro streams meets
    simp only [ClauseElement.eval, Option.some.injEq, decide_eq_true_eq, List.mem_map] at meets
    obtain ⟨stream, -, toStream⟩ := meets
    rw [← toStream]
    rfl
  cases method with
  | byChannel =>
      obtain ⟨channel, -, found⟩ := exists_of_bind_eq_ok (Option.some.inj isCondition)
      split_ifs at found
      · cases found
        exact ofStreams _ meets
      · cases found
        simp only [ClauseElement.eval, Option.some.injEq, decide_eq_true_eq] at meets
        rw [meets]
        rfl
  | byChannels =>
      have found := Option.some.inj isCondition
      unfold channelsCondition at found
      split_ifs at found
      · cases found
        exact ofStreams _ meets
      · cases found
        exact ofStreams _ meets
  | byTopic => exact absurd rfl notTopic
  | byIs =>
      simp only [methodKind] at aboutChannels
      split_ifs at aboutChannels
      cases aboutChannels
  | _ => cases aboutChannels

/-- The condition of a term that is about channels or about direct messages, when it is not
negated. -/
theorem exists_condition_of_kind {context : NarrowContext} {term : NarrowParameter}
    {kind : NarrowKind} (isKind : termKind term = some kind) (plain : term.negated = false)
    {conditions : List ClauseElement}
    (isConditions : termConditions backend db context term = .ok conditions) :
    ∃ method condition, byMethodMap.lookup term.operator = some method ∧
      methodKind method term.operand = some kind ∧
        methodCondition backend db context method term.operand = some (.ok condition) ∧
          conditions = [condition] := by
  obtain ⟨method, found, methodIs⟩ := Option.bind_eq_some_iff.mp isKind
  unfold termConditions at isConditions
  rw [found] at isConditions
  dsimp only at isConditions
  cases isCondition : methodCondition backend db context method term.operand with
  | none =>
      cases method with
      | byNear => cases methodIs
      | byIn => cases methodIs
      | bySearch => cases methodIs
      | _ => cases isCondition
  | some condition =>
      simp only [methodConditions, isCondition, plain] at isConditions
      obtain ⟨clause, rfl, rfl⟩ := ok_of_map_ok isConditions
      exact ⟨method, clause, found, methodIs, isCondition, rfl⟩

theorem operator_of_byTopic {operator : String}
    (found : byMethodMap.lookup operator = some .byTopic) : operator = "topic" := by
  have member : (operator, Method.byTopic) ∈ byMethodMap := by
    obtain ⟨before, after, split, -⟩ := List.lookup_eq_some_iff.mp found
    rw [split]
    exact List.mem_append_right _ List.mem_cons_self
  simpa [byMethodMap] using member

end Directs

/-- What an accepted list of terms selects. -/
structure Denotes (backend : Backend) (db : Database) (viewer : Viewer) (needUserMessage : Bool)
    (narrow : List NarrowParameter) (rows : List Row) : Prop where
  /-- The rows are the base rows that satisfy every term and the joined search. -/
  selected : ∀ row, row ∈ rows ↔
    row ∈ baseRows db needUserMessage viewer ∧
      (∀ term ∈ plainTerms narrow, Satisfies backend db viewer needUserMessage row term) ∧
        ∀ operands, (searchTerms narrow).mapM searchOperand = .ok operands → operands ≠ [] →
          Satisfies backend db viewer needUserMessage row (searchTerm operands)
  /-- A negated term selects the complement. -/
  complement : ∀ term ∈ narrow, term.operator ∉ ["near", "in", "search"] →
    ∀ row ∈ baseRows db needUserMessage viewer,
      (Satisfies backend db viewer needUserMessage row { term with negated := true } ↔
        ¬Satisfies backend db viewer needUserMessage row { term with negated := false })
  /-- For `near` and `in`, the negation changes nothing. -/
  unaffected : ∀ term ∈ narrow, term.operator ∈ ["near", "in"] →
    ∀ row ∈ baseRows db needUserMessage viewer,
      (Satisfies backend db viewer needUserMessage row { term with negated := true } ↔
        Satisfies backend db viewer needUserMessage row { term with negated := false })
  /-- Another order of the terms selects the same, as long as the search operands are joined in the
  same order. -/
  reordered : ∀ other, narrow.Perm other →
    (searchTerms other).mapM searchOperand = (searchTerms narrow).mapM searchOperand →
      narrowRows backend db viewer needUserMessage other = .ok rows

section Denotation

variable {backend : Backend} {db : Database} {viewer : Viewer} {needUserMessage : Bool}
  {narrow : List NarrowParameter} {rows : List Row} {term : NarrowParameter} {row : Row}

/-- What a term selects alone, from its conditions. -/
theorem satisfies_of_conditions (term : NarrowParameter)
    (allowed : needUserMessage = true → ∃ user, viewer = .user user) (notSearch : term.operator ≠ "search") {conditions : List ClauseElement}
    (isConditions : termConditions backend db viewer.context term = .ok conditions)
    (flagsThere : needUserMessage = false → conditions.any ClauseElement.readsFlags = false) :
    Satisfies backend db viewer needUserMessage row term ↔
      row ∈ baseRows db needUserMessage viewer ∧
        ∀ condition ∈ conditions, condition.eval backend db row = some true := by
  have selected := (narrowRows_singleton_eq_ok_iff notSearch).mpr
    ⟨allowed, conditions, isConditions, flagsThere, rfl⟩
  constructor
  · rintro ⟨found, isFound, member⟩
    rw [selected] at isFound
    cases isFound
    exact Select.mem_rows.mp member
  · exact fun meets => ⟨_, selected, Select.mem_rows.mpr meets⟩

/-- What an accepted list says about each of its terms. -/
theorem term_of_accepted (accepted : narrowRows backend db viewer needUserMessage narrow = .ok rows)
    (isTerm : term ∈ plainTerms narrow) :
    (needUserMessage = true → ∃ user, viewer = .user user) ∧
      ∃ conditions, termConditions backend db viewer.context term = .ok conditions ∧
        (needUserMessage = false → conditions.any ClauseElement.readsFlags = false) := by
  obtain ⟨allowed, -, allConditions, isAll, operands, -, -, flagsThere, -⟩ :=
    narrowRows_eq_ok_iff.mp accepted
  obtain ⟨conditions, isConditions, -⟩ := exists_result_of_mapM_eq_ok isAll term isTerm
  refine ⟨allowed, conditions, isConditions, fun noUserMessage => ?_⟩
  rw [List.any_eq_false]
  intro condition isCondition
  refine List.any_eq_false.mp (flagsThere noUserMessage) condition (List.mem_append_left _ ?_)
  exact (mem_flatten_of_mapM isAll).mpr ⟨term, isTerm, conditions, isConditions, isCondition⟩

/-- Rows of the user's own messages have flags. -/
theorem flags_ne_none (allowed : needUserMessage = true → ∃ user, viewer = .user user)
    (member : row ∈ baseRows db needUserMessage viewer) (isUsers : needUserMessage = true) :
    row.flags ≠ none := by
  obtain ⟨user, rfl⟩ := allowed isUsers
  simp only [baseRows, isUsers, if_true, userRows, List.mem_filterMap, Option.map_eq_some_iff]
    at member
  obtain ⟨userMessage, -, message, -, rfl⟩ := member
  exact Option.some_ne_none _

theorem complement_of_accepted
    (accepted : narrowRows backend db viewer needUserMessage narrow = .ok rows)
    (isTerm : term ∈ narrow) (negatable : term.operator ∉ ["near", "in", "search"])
    (member : row ∈ baseRows db needUserMessage viewer) :
    Satisfies backend db viewer needUserMessage row { term with negated := true } ↔
      ¬Satisfies backend db viewer needUserMessage row { term with negated := false } := by
  have notSearch : term.operator ≠ "search" := by
    rintro isSearch
    exact negatable (by simp [isSearch])
  obtain ⟨allowed, conditions, isConditions, flagsThere⟩ :=
    term_of_accepted accepted (mem_plainTerms.mpr ⟨isTerm, notSearch⟩)
  obtain ⟨condition, noSearch, ofNegation⟩ := termConditions_negatable negatable isConditions
  have readsSame : needUserMessage = false → condition.readsFlags = false := by
    intro noUserMessage
    have isNegation := ofNegation term.negated
    rw [isConditions, Except.ok.injEq] at isNegation
    have reads := flagsThere noUserMessage
    rw [isNegation] at reads
    cases negated : term.negated <;>
      simpa [maybeNegate, negated, ClauseElement.readsFlags] using reads
  have known : condition.eval backend db row ≠ none := by
    refine ClauseElement.eval_ne_none (fun reads => ?_) noSearch
    cases isUsers : needUserMessage with
    | true => exact flags_ne_none allowed member isUsers
    | false =>
        rw [readsSame isUsers] at reads
        cases reads
  rw [satisfies_of_conditions { term with negated := true } allowed notSearch (ofNegation true)
      (by simpa [maybeNegate, ClauseElement.readsFlags] using readsSame),
    satisfies_of_conditions { term with negated := false } allowed notSearch (ofNegation false)
      (by simpa [maybeNegate] using readsSame)]
  simpa [member, maybeNegate, ClauseElement.eval] using Truth.not_eq_true_iff known

theorem unaffected_of_accepted
    (accepted : narrowRows backend db viewer needUserMessage narrow = .ok rows)
    (isTerm : term ∈ narrow) (unaffected : term.operator ∈ ["near", "in"]) :
    Satisfies backend db viewer needUserMessage row { term with negated := true } ↔
      Satisfies backend db viewer needUserMessage row { term with negated := false } := by
  have notSearch : term.operator ≠ "search" := by
    rintro isSearch
    rw [isSearch] at unaffected
    exact absurd unaffected (by decide)
  obtain ⟨allowed, conditions, isConditions, flagsThere⟩ :=
    term_of_accepted accepted (mem_plainTerms.mpr ⟨isTerm, notSearch⟩)
  have same : ∀ negated, Satisfies backend db viewer needUserMessage row
      { term with negated := negated } ↔ row ∈ baseRows db needUserMessage viewer ∧
        ∀ condition ∈ conditions, condition.eval backend db row = some true :=
    fun negated => satisfies_of_conditions { term with negated := negated } allowed notSearch
      ((termConditions_unaffected unaffected negated).trans isConditions) flagsThere
  rw [same, same]

theorem reordered_of_accepted
    (accepted : narrowRows backend db viewer needUserMessage narrow = .ok rows)
    {other : List NarrowParameter} (perm : narrow.Perm other)
    (sameSearch : (searchTerms other).mapM searchOperand = (searchTerms narrow).mapM searchOperand) :
    narrowRows backend db viewer needUserMessage other = .ok rows := by
  have plainPerm : (plainTerms narrow).Perm (plainTerms other) := perm.filter _
  obtain ⟨allowed, notConflicting, conditions, isConditions, operands, isOperands, notBlank,
    flagsThere, isRows⟩ := narrowRows_eq_ok_iff.mp accepted
  obtain ⟨otherConditions, isOther⟩ : ∃ results,
      (plainTerms other).mapM (termConditions backend db viewer.context) = .ok results := by
    refine exists_mapM_eq_ok fun term isTerm => ?_
    obtain ⟨found, isFound, -⟩ :=
      exists_result_of_mapM_eq_ok isConditions term (plainPerm.mem_iff.mpr isTerm)
    exact ⟨found, isFound⟩
  have sameConditions : ∀ condition, condition ∈ otherConditions.flatten ↔
      condition ∈ conditions.flatten := by
    intro condition
    rw [mem_flatten_of_mapM isOther, mem_flatten_of_mapM isConditions]
    exact exists_congr fun term => and_congr_left fun _ => plainPerm.symm.mem_iff
  refine narrowRows_eq_ok_iff.mpr ⟨allowed, fun conflicting =>
    notConflicting (conflicting.of_perm plainPerm.symm), otherConditions, isOther, operands,
    sameSearch.trans isOperands, notBlank, fun noUserMessage => ?_, ?_⟩
  · have noFlags := flagsThere noUserMessage
    rw [List.any_eq_false] at noFlags ⊢
    intro condition member
    refine noFlags condition ?_
    rw [List.mem_append] at member ⊢
    exact member.imp_left (sameConditions condition).mp
  · rw [← isRows]
    refine Select.rows_congr rfl fun condition => ?_
    rw [List.mem_append, List.mem_append, sameConditions]

theorem selected_of_accepted
    (accepted : narrowRows backend db viewer needUserMessage narrow = .ok rows) :
    row ∈ rows ↔
      row ∈ baseRows db needUserMessage viewer ∧
        (∀ term ∈ plainTerms narrow, Satisfies backend db viewer needUserMessage row term) ∧
          ∀ operands, (searchTerms narrow).mapM searchOperand = .ok operands → operands ≠ [] →
            Satisfies backend db viewer needUserMessage row (searchTerm operands) := by
  obtain ⟨allowed, -, conditions, isConditions, operands, isOperands, notBlank, flagsThere, rfl⟩ :=
    narrowRows_eq_ok_iff.mp accepted
  rw [Select.mem_rows, List.forall_mem_append]
  refine and_congr_right fun member => and_congr ?_ ?_
  · constructor
    · intro meets term isTerm
      obtain ⟨found, isFound, -⟩ := exists_result_of_mapM_eq_ok isConditions term isTerm
      refine (satisfies_iff accepted isTerm isFound).mpr ⟨member, fun condition isCondition => ?_⟩
      exact meets condition
        ((mem_flatten_of_mapM isConditions).mpr ⟨term, isTerm, found, isFound, isCondition⟩)
    · intro satisfied condition isCondition
      obtain ⟨term, isTerm, found, isFound, isCondition⟩ :=
        (mem_flatten_of_mapM isConditions).mp isCondition
      exact ((satisfies_iff accepted isTerm isFound).mp (satisfied term isTerm)).2 condition
        isCondition
  · constructor
    · intro meets others isOthers isSearch
      rw [isOperands] at isOthers
      cases isOthers
      exact (satisfies_searchTerm_iff allowed (notBlank isSearch) isSearch).mpr ⟨member, meets⟩
    · intro satisfied
      by_cases isSearch : operands = []
      · simp [joinedSearch, isSearch]
      · exact ((satisfies_searchTerm_iff allowed (notBlank isSearch) isSearch).mp
          (satisfied operands isOperands isSearch)).2

/-- Terms that are accepted one by one and rejected together are about channels and about direct
messages; when these are not negated, no row satisfies them all. -/
theorem unsatisfiable_of_rejected (marked : DirectsMarked db)
    (eachAccepted : ∀ term ∈ plainTerms narrow,
      ∃ rows, narrowRows backend db viewer needUserMessage [term] = .ok rows)
    (searchAccepted : ∃ rows, narrowRows backend db viewer needUserMessage (searchTerms narrow) =
      .ok rows)
    (rejected : ∀ rows, narrowRows backend db viewer needUserMessage narrow ≠ .ok rows)
    (notNegated : ∀ term ∈ narrow, termKind term ≠ none → term.negated = false)
    (topicsNamed : ∀ term ∈ narrow, term.operator = "topic" →
      ∀ row ∈ baseRows db needUserMessage viewer, row.message.subject = "" →
        ¬Satisfies backend db viewer needUserMessage row term) :
    ∀ row ∈ baseRows db needUserMessage viewer,
      ¬∀ term ∈ plainTerms narrow, Satisfies backend db viewer needUserMessage row term := by
  intro row member satisfied
  have conditionsOf : ∀ term ∈ plainTerms narrow, ∃ conditions,
      termConditions backend db viewer.context term = .ok conditions ∧
        (needUserMessage = false → conditions.any ClauseElement.readsFlags = false) := by
    intro term isTerm
    obtain ⟨rows, accepted⟩ := eachAccepted term isTerm
    obtain ⟨-, conditions, isConditions, flagsThere, -⟩ :=
      (narrowRows_singleton_eq_ok_iff (mem_plainTerms.mp isTerm).2).mp accepted
    exact ⟨conditions, isConditions, flagsThere⟩
  have conflicting : Conflicting (plainTerms narrow) := by
    by_contra notConflicting
    obtain ⟨rows, accepted⟩ := searchAccepted
    have sameSearch : searchTerms (searchTerms narrow) = searchTerms narrow := by
      simp [searchTerms, List.filter_filter]
    obtain ⟨allowed, -, -, -, operands, isOperands, notBlank, -, -⟩ :=
      narrowRows_eq_ok_iff.mp accepted
    rw [sameSearch] at isOperands
    obtain ⟨conditions, isConditions⟩ := exists_mapM_eq_ok fun term isTerm =>
      (conditionsOf term isTerm).imp fun _ found => found.1
    refine rejected _ (narrowRows_eq_ok_iff.mpr ⟨allowed, notConflicting, conditions, isConditions,
      operands, isOperands, notBlank, fun noUserMessage => ?_, rfl⟩)
    rw [List.any_append, Bool.or_eq_false_iff]
    constructor
    · rw [List.any_eq_false]
      intro condition isCondition
      obtain ⟨term, isTerm, found, isFound, isCondition⟩ :=
        (mem_flatten_of_mapM isConditions).mp isCondition
      obtain ⟨others, isOthers, flagsThere⟩ := conditionsOf term isTerm
      rw [isFound] at isOthers
      cases isOthers
      exact List.any_eq_false.mp (flagsThere noUserMessage) condition isCondition
    · unfold joinedSearch
      split_ifs
      · rfl
      · exact searchConditions_readsFlags backend _
  obtain ⟨⟨first, isFirst, isChannel⟩, ⟨second, isSecond, isDm⟩⟩ := conflicting
  have kindOf : ∀ term ∈ plainTerms narrow, ∀ kind, termKind term = some kind →
      ∃ method condition, byMethodMap.lookup term.operator = some method ∧
        methodKind method term.operand = some kind ∧
          methodCondition backend db viewer.context method term.operand = some (.ok condition) ∧
            condition.eval backend db row = some true := by
    intro term isTerm kind isKind
    obtain ⟨isMember, notSearch⟩ := mem_plainTerms.mp isTerm
    obtain ⟨conditions, isConditions, -⟩ := conditionsOf term isTerm
    obtain ⟨method, condition, found, methodIs, isCondition, rfl⟩ := exists_condition_of_kind isKind
      (notNegated term isMember (by simp [isKind])) isConditions
    obtain ⟨rows, accepted⟩ := eachAccepted term isTerm
    have meets := ((satisfies_iff accepted (by simp [plainTerms, notSearch]) isConditions).mp
      (satisfied term isTerm)).2
    exact ⟨method, condition, found, methodIs, isCondition,
      meets condition (List.mem_singleton_self condition)⟩
  obtain ⟨dmMethod, dmCondition, -, isDmMethod, isDmCondition, meetsDm⟩ :=
    kindOf second isSecond .dm isDm
  have isDirect := direct_of_methodCondition marked member isDmMethod isDmCondition meetsDm
  obtain ⟨method, condition, found, methodIs, isCondition, meets⟩ :=
    kindOf first isFirst .channel isChannel
  by_cases isTopic : method = .byTopic
  · have isTopicTerm := operator_of_byTopic (isTopic ▸ found)
    have noTopic := marked.emptyTopic row.message (mem_baseRows member).1 isDirect
    exact topicsNamed first (mem_plainTerms.mp isFirst).1 isTopicTerm row member noTopic
      (satisfied first isFirst)
  · rw [stream_of_methodCondition methodIs isTopic isCondition meets] at isDirect
    cases isDirect

end Denotation

/-- The meaning of a narrow. An accepted list without negated searches selects what its terms select
together, whatever their order, and negation selects the complement, `near` and `in` apart; terms
that are accepted one by one are rejected together only when nothing satisfies them, unless terms
about channels or direct messages are negated or a topic is empty. -/
theorem narrow_denotation (backend : Backend) (db : Database) (viewer : Viewer)
    (needUserMessage : Bool) (marked : DirectsMarked db) (narrow : List NarrowParameter) :
    (∀ rows, (∀ term ∈ narrow, term.operator = "search" → term.negated = false) →
      narrowRows backend db viewer needUserMessage narrow = .ok rows →
        Denotes backend db viewer needUserMessage narrow rows) ∧
      ((∀ term ∈ plainTerms narrow,
          ∃ rows, narrowRows backend db viewer needUserMessage [term] = .ok rows) →
        (∃ rows, narrowRows backend db viewer needUserMessage (searchTerms narrow) = .ok rows) →
          (∀ rows, narrowRows backend db viewer needUserMessage narrow ≠ .ok rows) →
            (∀ term ∈ narrow, termKind term ≠ none → term.negated = false) →
              (∀ term ∈ narrow, term.operator = "topic" →
                ∀ row ∈ baseRows db needUserMessage viewer, row.message.subject = "" →
                  ¬Satisfies backend db viewer needUserMessage row term) →
                ∀ row ∈ baseRows db needUserMessage viewer,
                  ¬∀ term ∈ plainTerms narrow,
                    Satisfies backend db viewer needUserMessage row term) := by
  refine ⟨fun rows _ accepted => ?_, fun eachAccepted searchAccepted rejected notNegated named =>
    unsatisfiable_of_rejected marked eachAccepted searchAccepted rejected notNegated named⟩
  exact {
    selected := fun row => selected_of_accepted accepted
    complement := fun term isTerm negatable row member =>
      complement_of_accepted accepted isTerm negatable member
    unaffected := fun term isTerm unaffected row member =>
      unaffected_of_accepted accepted isTerm unaffected
    reordered := fun other perm sameSearch => reordered_of_accepted accepted perm sameSearch }

/-- A subscriber of `protectedHistory`. -/
def coreMember : UserProfile :=
  ⟨10, ⟨1, false, false⟩, .member, "a@example.com", "a@example.com"⟩

theorem protectedHistory_marked : DirectsMarked protectedHistory where
  privateFlag := by decide
  emptyTopic := by decide

/-- A narrow to a channel and to direct messages. -/
def channelAndDirect : List NarrowParameter :=
  [{ operator := "channel", operand := .int 7 }, { operator := "is", operand := .str "dm" }]

/-- The messages of this user that are not direct messages, and a narrow that is rejected. -/
theorem narrow_denotation_notDirect :
    Denotes asciiBackend protectedHistory (.user coreMember) true
        [{ operator := "is", operand := .str "dm", negated := true }]
        [⟨⟨101, ⟨1, false, false⟩, 11, .stream 7, "plans", "after", false, false, false⟩,
          some {.read}⟩] ∧
      ∀ row ∈ baseRows protectedHistory true (.user coreMember),
        ¬∀ term ∈ plainTerms channelAndDirect,
          Satisfies asciiBackend protectedHistory (.user coreMember) true row term := by
  constructor
  · exact ( narrow_denotation asciiBackend protectedHistory (.user coreMember) true
      protectedHistory_marked [{ operator := "is", operand := .str "dm", negated := true }]).1 _
      (by simp) (by rfl)
  · refine ( narrow_denotation asciiBackend protectedHistory (.user coreMember) true
      protectedHistory_marked channelAndDirect).2 ?_ ⟨_, rfl⟩ ?_ (by decide)
      (by simp [channelAndDirect])
    · intro term isTerm
      have isMember := (mem_plainTerms.mp isTerm).1
      rcases List.mem_pair.mp isMember with rfl | rfl
      · exact ⟨_, rfl⟩
      · exact ⟨_, rfl⟩
    · intro rows accepted
      have isRejected : narrowRows asciiBackend protectedHistory (.user coreMember) true
          channelAndDirect = .error (.badNarrowOperator
            "No message can be both a channel message and direct message") := rfl
      rw [isRejected] at accepted
      cases accepted

/-- `-in:home` selects what `in:home` selects. -/
theorem in_ignores_negation :
    ¬∀ row ∈ baseRows protectedHistory true (.user coreMember),
      (Satisfies asciiBackend protectedHistory (.user coreMember) true row
          { operator := "in", operand := .str "home", negated := true } ↔
        ¬Satisfies asciiBackend protectedHistory (.user coreMember) true row
          { operator := "in", operand := .str "home", negated := false }) := by
  intro complement
  have isBase : (⟨⟨101, ⟨1, false, false⟩, 11, .stream 7, "plans", "after", false, false, false⟩,
      some {.read}⟩ : Row) ∈ baseRows protectedHistory true (.user coreMember) := by decide
  have selected : ∀ negated, Satisfies asciiBackend protectedHistory (.user coreMember) true
      ⟨⟨101, ⟨1, false, false⟩, 11, .stream 7, "plans", "after", false, false, false⟩, some {.read}⟩
      { operator := "in", operand := .str "home", negated := negated } :=
    fun negated => ⟨_, rfl, isBase⟩
  exact (complement _ isBase).mp (selected true) (selected false)

end Zulip.Narrow
