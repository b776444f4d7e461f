import Zulip.Narrow.AddTerm

/-!
# The query of a message fetch

`ok_to_include_history`, `get_base_query_for_search` and `add_narrow_conditions` as `fetch_messages`
combines them, and the checks of `get_messages_backend` on requests without a user. The rows are
those of the query before it is limited to a range of ids.
-/

namespace Zulip.Narrow

open Zulip.Access Zulip.Messages

/-- Who fetches messages. -/
inductive Viewer where
  | user (user : UserProfile)
  /-- An unauthenticated request to a realm. -/
  | spectator (realm : Realm)
deriving DecidableEq, Repr

namespace Viewer

/-- The realm of the request. -/
def realm : Viewer → Realm
  | .user profile => profile.realm
  | .spectator home => home

/-- What the builder is made for. -/
def context : Viewer → NarrowContext
  | .user profile => { userProfile := some profile, realm := profile.realm }
  | .spectator home => { userProfile := none, realm := home, isWebPublicQuery := true }

end Viewer

section Query

variable (backend : Backend) (db : Database)

/-- The exceptions of an access check, as they leave a narrow. -/
def ofAccess (access : Except AccessError Bool) : Except NarrowError Bool :=
  match access with
  | .ok granted => .ok granted
  | .error (.get _) => .error .multipleObjectsReturned
  | .error (.jsonable message) => .error (.jsonable message)
  | .error .assertionError => .error .assertionError

/-- What a term says about history, given what the terms before it said. -/
def historyOfTerm (user : UserProfile) (includeHistory : Bool) (term : NarrowParameter) :
    Except NarrowError Bool :=
  if term.operator ∈ channelOperators ∧ term.negated = false then
    match term.operand with
    | .str streamName =>
        ofAccess (canAccessStreamHistoryByName backend.toTextFunctions db user streamName)
    | .int streamId => ofAccess (canAccessStreamHistoryById db user streamId)
    | .ids _ => .error .typeError
  else if term.operator ∈ channelsOperators ∧ term.operand = .str "public" ∧
      term.negated = false ∧ user.canAccessPublicStreams = true then
    .ok true
  else .ok includeHistory

/-- Whether a term narrows on a property of the `UserMessage` row. -/
def needsUserMessage (term : NarrowParameter) : Bool :=
  term.operator = "is" ∧ term.operand ∉ [.str "resolved", .str "followed"]

/-- `ok_to_include_history`. -/
def okToIncludeHistory (narrow : Option (List NarrowParameter)) :
    Viewer → Except NarrowError Bool
  -- For web-public queries, we are always returning history
  | .spectator _ => .ok true
  | .user user => do
      let narrow := narrow.getD []
      let includeHistory ← narrow.foldlM (historyOfTerm backend db user) false
      return includeHistory && !narrow.any needsUserMessage

/-- The rows of `get_base_query_for_search` without `UserMessage`: the messages of the realm. -/
def realmRows (realm : Realm) : List Row :=
  (db.messages.filter fun message => message.realm = realm).map fun message => ⟨message, none⟩

/-- The rows of `get_base_query_for_search` with `UserMessage`. -/
def userRows (user : UserProfile) : List Row :=
  (db.userMessages.filter fun row => row.userProfileId = user.id).filterMap fun row =>
    (db.messages.find? fun message => message.id = row.messageId).map fun message =>
      ⟨message, some row.flags⟩

/-- `get_base_query_for_search`. -/
def getBaseQueryForSearch (viewer : Viewer) (needUserMessage : Bool) : Except NarrowError Query :=
  match needUserMessage, viewer with
  | false, _ => .ok { source := realmRows db viewer.realm }
  | true, .user user => .ok { source := userRows db user }
  | true, .spectator _ => .error .assertionError

/-- A search operand as it is joined with the others. -/
def searchOperand (term : NarrowParameter) : Except NarrowError String :=
  match term.operand with
  | .str operand => .ok operand
  | _ => .error .typeError

/-- `add_narrow_conditions`: the extended query, and whether there is a search. -/
def addNarrowConditions (context : NarrowContext) (query : Query) (narrow : List NarrowParameter) :
    Except NarrowError (Query × Bool) := do
  let builder : NarrowBuilder := { toNarrowContext := context }
  let state ← (narrow.filter fun term => term.operator ≠ "search").foldlM
    (fun state term => state.1.addTerm backend db state.2 term) (builder, query)
  let searchOperands ← (narrow.filter fun term => term.operator = "search").mapM searchOperand
  if searchOperands = [] then return (state.2, false)
  else do
    let searchTerm ← NarrowParameter.validateTerms backend.strip
      { operator := "search", operand := .str (" ".intercalate searchOperands) }
    let searched ← state.1.addTerm backend db state.2 searchTerm
    return (searched.2, true)

/-- The rows of a query. A query that mentions `flags` without reading `UserMessage` fails. -/
def execute (needUserMessage : Bool) (query : Query) : Except NarrowError (List Row) :=
  if needUserMessage = false ∧ query.conditions.any ClauseElement.readsFlags = true then
    .error .programmingError
  else .ok (query.rows (ClauseElement.eval backend db))

/-- The checks of `get_messages_backend` on the narrow of an unauthenticated request. -/
def narrowOfRequest (narrow : Option (List NarrowParameter)) :
    Viewer → Except NarrowError (Option (List NarrowParameter))
  | .user _ => .ok narrow
  | .spectator _ =>
      match narrow.map cleanNarrowForWebPublicApi with
      | some narrow =>
          if isWebPublicNarrow narrow ∧ isSpectatorCompatible narrow then .ok (some narrow)
          else .error .missingAuthentication
      | none => .error .missingAuthentication

/-- A query that `fetch_messages` has built, with what it decided on the way. -/
structure FetchQuery where
  includeHistory : Bool
  base : Query
  query : Query
  isSearch : Bool

/-- The query that `fetch_messages` builds. -/
def fetchQuery (viewer : Viewer) (narrow : Option (List NarrowParameter)) :
    Except NarrowError FetchQuery := do
  let includeHistory ← okToIncludeHistory backend db narrow viewer
  let base ← getBaseQueryForSearch db viewer (!includeHistory)
  match narrow with
  | none => return ⟨includeHistory, base, base, false⟩
  | some narrow => do
      let narrowed ← addNarrowConditions backend db viewer.context base narrow
      return ⟨includeHistory, base, narrowed.1, narrowed.2⟩

/-- The rows that match a request. -/
def fetchRows (viewer : Viewer) (narrow : Option (List NarrowParameter)) :
    Except NarrowError (List Row) := do
  let narrow ← narrowOfRequest narrow viewer
  let fetch ← fetchQuery backend db viewer narrow
  execute backend db (!fetch.includeHistory) fetch.query

end Query

section Conditions

variable {backend : Backend} {db : Database} {context : NarrowContext} {query query' : Query}
  {narrow : List NarrowParameter}

/-- The terms that are added one by one. -/
def plainTerms (narrow : List NarrowParameter) : List NarrowParameter :=
  narrow.filter fun term => term.operator ≠ "search"

/-- The terms whose operands are joined to one search. -/
def searchTerms (narrow : List NarrowParameter) : List NarrowParameter :=
  narrow.filter fun term => term.operator = "search"

theorem mem_plainTerms {term : NarrowParameter} :
    term ∈ plainTerms narrow ↔ term ∈ narrow ∧ term.operator ≠ "search" := by
  simp [plainTerms]

/-- The conditions of the search for the joined operands. -/
def joinedSearch (backend : Backend) (searchOperands : List String) : List ClauseElement :=
  if searchOperands = [] then [] else searchConditions backend (" ".intercalate searchOperands)

theorem validateTerms_search_ok_iff {strip : String → String} {operand : String}
    {term : NarrowParameter} :
    NarrowParameter.validateTerms strip { operator := "search", operand := .str operand } =
        .ok term ↔
      strip operand ≠ "" ∧ { operator := "search", operand := .str operand } = term := by
  unfold NarrowParameter.validateTerms
  by_cases blank : strip operand = "" <;> simp [channelOperators, blank]

/-- A search for a text is always accepted. -/
theorem addTerm_search_eq_ok_iff {builder : NarrowBuilder} {state : NarrowBuilder × Query}
    {operand : String} :
    builder.addTerm backend db query { operator := "search", operand := .str operand } = .ok state ↔
      (builder, query.filterByAll (searchConditions backend operand)) = state := by
  have unfolded : builder.addTerm backend db query
      { operator := "search", operand := .str operand } =
        .ok (builder, query.filterByAll ((searchConditions backend operand).map id)) := rfl
  rw [unfolded, List.map_id, Except.ok.injEq]

/-- What `add_narrow_conditions` does: the plain terms are noted and add their conditions, and the
search operands add those of one search. -/
theorem addNarrowConditions_eq_ok_iff {isSearch : Bool} :
    addNarrowConditions backend db context query narrow = .ok (query', isSearch) ↔
      (∃ builder, (plainTerms narrow).foldlM (fun builder term => builder.checkKind (termKind term))
          ({ toNarrowContext := context } : NarrowBuilder) = .ok builder) ∧
        ∃ conditions, (plainTerms narrow).mapM (termConditions backend db context) =
            .ok conditions ∧
          ∃ operands, (searchTerms narrow).mapM searchOperand = .ok operands ∧
            (operands ≠ [] → backend.strip (" ".intercalate operands) ≠ "") ∧
              query' = query.filterByAll (conditions.flatten ++ joinedSearch backend operands) ∧
                isSearch = decide (operands ≠ []) := by
  unfold addNarrowConditions
  rw [← plainTerms, ← searchTerms]
  simp only [bind_eq_ok_iff]
  constructor
  · rintro ⟨⟨builder, plain⟩, isPlain, operands, isOperands, returns⟩
    obtain ⟨isNoted, conditions, isConditions, rfl⟩ :=
      NarrowBuilder.addTerms_eq_ok_iff.mp isPlain
    refine ⟨⟨builder, isNoted⟩, conditions, isConditions, operands, isOperands, ?_⟩
    by_cases noSearch : operands = []
    · rw [if_pos noSearch] at returns
      cases returns
      simp [noSearch, joinedSearch]
    · rw [if_neg noSearch] at returns
      simp only [bind_eq_ok_iff] at returns
      obtain ⟨searchTerm, isValid, searched, isSearched, returns⟩ := returns
      obtain ⟨notBlank, rfl⟩ := validateTerms_search_ok_iff.mp isValid
      obtain rfl := addTerm_search_eq_ok_iff.mp isSearched
      cases returns
      exact ⟨fun _ => notBlank, by simp [joinedSearch, noSearch], by simp [noSearch]⟩
  · rintro ⟨⟨builder, isNoted⟩, conditions, isConditions, operands, isOperands, notBlank, rfl, rfl⟩
    refine ⟨_, NarrowBuilder.addTerms_eq_ok_iff.mpr ⟨isNoted, conditions, isConditions, rfl⟩,
      operands, isOperands, ?_⟩
    by_cases noSearch : operands = []
    · rw [if_pos noSearch]
      simp [noSearch, joinedSearch, pure, Except.pure]
    · rw [if_neg noSearch]
      simp only [bind_eq_ok_iff]
      refine ⟨_, validateTerms_search_ok_iff.mpr ⟨notBlank noSearch, rfl⟩, _,
        addTerm_search_eq_ok_iff.mpr rfl, ?_⟩
      simp [noSearch, joinedSearch, pure, Except.pure]

end Conditions

end Zulip.Narrow
