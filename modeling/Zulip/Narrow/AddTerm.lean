import Zulip.Foundation.Program
import Zulip.Narrow.Builder

/-!
# What a term adds to a query

A term that `add_term` accepts adds conditions that depend on the term and on the builder's context
only, and the builder notes whether the term is about channels or about direct messages.
-/

namespace Zulip.Narrow

open Zulip.Access Zulip.Messages

/-- What `check_not_both_channel_and_dm_narrow` tells apart. -/
inductive NarrowKind where
  | channel
  | dm
deriving DecidableEq, Repr

/-- What the term is about, where its method checks that. -/
def methodKind : Method → Operand → Option NarrowKind
  | .byChannel, _ | .byChannels, _ | .byTopic, _ => some .channel
  | .byDm, _ | .byDmIncluding, _ | .byGroupPmWith, _ => some .dm
  | .byIs, operand => if IsOperand.of? operand = some .dm then some .dm else none
  | _, _ => none

/-- The condition of a method that adds one, through `maybe_negate`. -/
def methodCondition (backend : Backend) (db : Database) (context : NarrowContext) :
    Method → Operand → Option (Except NarrowError ClauseElement)
  | .byHas, operand => some (hasCondition operand)
  | .byIs, operand => some (isCondition context operand)
  | .byChannel, operand => some (channelCondition backend db context operand)
  | .byChannels, operand => some (channelsCondition db context operand)
  | .byTopic, operand => some (topicCondition context operand)
  | .bySender, operand => some (senderCondition backend db context operand)
  | .byId, operand => some (idCondition operand)
  | .byDm, operand => some (dmCondition backend db context operand)
  | .byDmIncluding, operand => some (dmIncludingCondition backend db context operand)
  | .byGroupPmWith, operand => some (groupPmWithCondition backend db context operand)
  | .byIn, _ | .byNear, _ | .bySearch, _ => none

/-- The conditions that the other methods add. -/
def otherConditions (backend : Backend) (db : Database) (context : NarrowContext) :
    Method → Operand → ConditionTransform → Except NarrowError (List ClauseElement)
  | .byIn, operand, _ => do
      let user ← context.requireUser
      if operand = .str "home" then return excludeMutingConditions db user
      else if operand = .str "all" then return []
      else .error (.badNarrowOperator ("unknown 'in' operand " ++ operand.toStr))
  | .bySearch, .str operand, maybeNegate => return (searchConditions backend operand).map maybeNegate
  | .bySearch, _, _ => .error .typeError
  | _, _, _ => return []

/-- The conditions that a method adds. -/
def methodConditions (backend : Backend) (db : Database) (context : NarrowContext) (method : Method)
    (operand : Operand) (maybeNegate : ConditionTransform) :
    Except NarrowError (List ClauseElement) :=
  match methodCondition backend db context method operand with
  | some condition => condition.map fun condition => [maybeNegate condition]
  | none => otherConditions backend db context method operand maybeNegate

namespace NarrowBuilder

/-- The check for a term that is about channels, about direct messages or about neither. -/
def checkKind (self : NarrowBuilder) : Option NarrowKind → Except NarrowError NarrowBuilder
  | some .channel => self.checkNotBothChannelAndDmNarrow false true
  | some .dm => self.checkNotBothChannelAndDmNarrow true false
  | none => .ok self

variable {backend : Backend} {db : Database} {self self' : NarrowBuilder} {query query' : Query}

theorem checkKind_isIs (self : NarrowBuilder) (operand : Operand) :
    self.checkIs operand = self.checkKind (methodKind .byIs operand) := by
  simp only [checkIs, methodKind]
  split_ifs <;> rfl

/-- The check changes what the builder notes and nothing else. -/
theorem checkKind_context {kind : Option NarrowKind} (checked : self.checkKind kind = .ok self') :
    self'.toNarrowContext = self.toNarrowContext := by
  have ofCheck : ∀ isDm isChannel, self.checkNotBothChannelAndDmNarrow isDm isChannel = .ok self' →
      self'.toNarrowContext = self.toNarrowContext := by
    intro isDm isChannel checked
    unfold checkNotBothChannelAndDmNarrow at checked
    dsimp only at checked
    split_ifs at checked
    cases checked
    rfl
  rcases kind with _ | _ | _
  · cases checked
    rfl
  · exact ofCheck _ _ checked
  · exact ofCheck _ _ checked

theorem checkKind_dm_ok_iff :
    self.checkKind (some .dm) = .ok self' ↔
      self.isChannelNarrow = false ∧ { self with isDmNarrow := true } = self' := by
  unfold checkKind checkNotBothChannelAndDmNarrow
  cases isChannel : self.isChannelNarrow <;> simp

theorem checkKind_channel_ok_iff :
    self.checkKind (some .channel) = .ok self' ↔
      self.isDmNarrow = false ∧ { self with isChannelNarrow := true } = self' := by
  unfold checkKind checkNotBothChannelAndDmNarrow
  cases isDm : self.isDmNarrow <;> simp

/-- A check and one condition, as most methods have them. -/
theorem checked_condition_ok_iff (kind : Option NarrowKind)
    (condition : NarrowContext → Except NarrowError ClauseElement)
    {maybeNegate : ConditionTransform} :
    (do
      let self ← self.checkKind kind
      let condition ← condition self.toNarrowContext
      return (self, query.filterBy (maybeNegate condition))) =
        (Except.ok (self', query') : Except NarrowError (NarrowBuilder × Query)) ↔
      self.checkKind kind = .ok self' ∧ ∃ conditions,
        (condition self.toNarrowContext).map (fun condition => [maybeNegate condition]) =
          .ok conditions ∧ query' = query.filterByAll conditions := by
  constructor
  · intro returns
    obtain ⟨noted, isNoted, returns⟩ := exists_of_bind_eq_ok returns
    obtain ⟨found, isFound, returns⟩ := exists_of_bind_eq_ok returns
    cases returns
    rw [checkKind_context isNoted] at isFound
    exact ⟨isNoted, [maybeNegate found], by rw [isFound]; rfl, rfl⟩
  · rintro ⟨isNoted, conditions, isConditions, rfl⟩
    cases isFound : condition self.toNarrowContext with
    | error error =>
        rw [isFound] at isConditions
        cases isConditions
    | ok found =>
        rw [isFound] at isConditions
        cases isConditions
        rw [isNoted]
        refine bind_eq_ok_iff.mpr ⟨self', rfl, bind_eq_ok_iff.mpr ⟨found, ?_, rfl⟩⟩
        rw [checkKind_context isNoted, isFound]

/-- What a method does. -/
theorem callMethod_eq_ok_iff {method : Method} {operand : Operand}
    {maybeNegate : ConditionTransform} :
    callMethod backend db self method query operand maybeNegate = .ok (self', query') ↔
      self.checkKind (methodKind method operand) = .ok self' ∧ ∃ conditions,
        methodConditions backend db self.toNarrowContext method operand maybeNegate =
          .ok conditions ∧ query' = query.filterByAll conditions := by
  cases method with
  | byHas => exact checked_condition_ok_iff none fun _ => hasCondition operand
  | byIs =>
      have unfolded : callMethod backend db self .byIs query operand maybeNegate = (do
          let self ← self.checkKind (methodKind .byIs operand)
          let condition ← isCondition self.toNarrowContext operand
          return (self, query.filterBy (maybeNegate condition))) := by
        rw [← checkKind_isIs]
        rfl
      rw [unfolded]
      exact checked_condition_ok_iff _ fun context => isCondition context operand
  | byChannel =>
      exact checked_condition_ok_iff (some .channel) fun context =>
        channelCondition backend db context operand
  | byChannels =>
      exact checked_condition_ok_iff (some .channel) fun context =>
        channelsCondition db context operand
  | byTopic =>
      exact checked_condition_ok_iff (some .channel) fun context => topicCondition context operand
  | bySender =>
      exact checked_condition_ok_iff none fun context => senderCondition backend db context operand
  | byId => exact checked_condition_ok_iff none fun _ => idCondition operand
  | byDm =>
      exact checked_condition_ok_iff (some .dm) fun context => dmCondition backend db context operand
  | byDmIncluding =>
      exact checked_condition_ok_iff (some .dm) fun context =>
        dmIncludingCondition backend db context operand
  | byGroupPmWith =>
      exact checked_condition_ok_iff (some .dm) fun context =>
        groupPmWithCondition backend db context operand
  | byNear =>
      simp [callMethod, byNear, methodConditions, methodCondition, otherConditions, methodKind,
        checkKind, pure, Except.pure, eq_comm]
  | byIn =>
      cases isUser : self.requireUser with
      | error error =>
          simp [callMethod, byIn, methodConditions, methodCondition, otherConditions, isUser, bind,
            Except.bind]
      | ok user =>
          simp only [callMethod, byIn, methodConditions, methodCondition, otherConditions, isUser,
            methodKind, checkKind, bind, Except.bind]
          split_ifs
          · simp [pure, Except.pure, eq_comm]
          · simp [pure, Except.pure, eq_comm]
          · simp
  | bySearch =>
      cases operand with
      | str text =>
          simp [callMethod, bySearch, methodConditions, methodCondition, otherConditions,
            methodKind, checkKind, pure, Except.pure, eq_comm]
      | int value => simp [callMethod, bySearch, methodConditions, methodCondition, otherConditions]
      | ids values => simp [callMethod, bySearch, methodConditions, methodCondition, otherConditions]

end NarrowBuilder

/-- What a term is about, where its method checks that. -/
def termKind (term : NarrowParameter) : Option NarrowKind :=
  (byMethodMap.lookup term.operator).bind fun method => methodKind method term.operand

/-- `maybe_negate` for a term. -/
def maybeNegate (negated : Bool) : ConditionTransform := if negated then .not_ else id

/-- The conditions that a term adds. -/
def termConditions (backend : Backend) (db : Database) (context : NarrowContext)
    (term : NarrowParameter) : Except NarrowError (List ClauseElement) :=
  match byMethodMap.lookup term.operator with
  | none => .error (.badNarrowOperator ("unknown operator " ++ term.operator))
  | some method =>
      methodConditions backend db context method term.operand (maybeNegate term.negated)

namespace NarrowBuilder

variable {backend : Backend} {db : Database} {self self' : NarrowBuilder} {query query' : Query}

/-- What `add_term` does. -/
theorem addTerm_eq_ok_iff {term : NarrowParameter} :
    self.addTerm backend db query term = .ok (self', query') ↔
      self.checkKind (termKind term) = .ok self' ∧ ∃ conditions,
        termConditions backend db self.toNarrowContext term = .ok conditions ∧
          query' = query.filterByAll conditions := by
  unfold addTerm termKind termConditions
  cases byMethodMap.lookup term.operator with
  | none => simp
  | some method => exact callMethod_eq_ok_iff

/-- What adding some terms does. -/
theorem addTerms_eq_ok_iff {terms : List NarrowParameter} :
    terms.foldlM (fun state term => state.1.addTerm backend db state.2 term) (self, query) =
        .ok (self', query') ↔
      terms.foldlM (fun builder term => builder.checkKind (termKind term)) self = .ok self' ∧
        ∃ conditions, terms.mapM (termConditions backend db self.toNarrowContext) = .ok conditions ∧
          query' = query.filterByAll conditions.flatten := by
  induction terms generalizing self query with
  | nil => simp [pure, Except.pure, eq_comm]
  | cons term rest inductionHypothesis =>
      simp only [List.foldlM_cons, List.mapM_cons, bind_eq_ok_iff]
      constructor
      · rintro ⟨⟨noted, added⟩, isAdded, isRest⟩
        obtain ⟨isNoted, conditions, isConditions, rfl⟩ := addTerm_eq_ok_iff.mp isAdded
        obtain ⟨restNoted, restConditions, isRestConditions, rfl⟩ := inductionHypothesis.mp isRest
        rw [checkKind_context isNoted] at isRestConditions
        exact ⟨⟨noted, isNoted, restNoted⟩, conditions :: restConditions,
          ⟨conditions, isConditions, restConditions, isRestConditions, rfl⟩, by simp⟩
      · rintro ⟨⟨noted, isNoted, restNoted⟩, _, ⟨conditions, isConditions, restConditions,
          isRestConditions, isAll⟩, rfl⟩
        cases isAll
        refine ⟨(noted, query.filterByAll conditions),
          addTerm_eq_ok_iff.mpr ⟨isNoted, conditions, isConditions, rfl⟩,
          inductionHypothesis.mpr ⟨restNoted, restConditions, ?_, by simp⟩⟩
        rw [checkKind_context isNoted]
        exact isRestConditions

end NarrowBuilder

end Zulip.Narrow
