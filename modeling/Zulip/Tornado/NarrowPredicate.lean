import Zulip.Tornado.Event

/-!
# Narrows of event queues

`narrow_dataclasses_from_tuples`, `check_narrow_for_events` and the predicate
that `build_narrow_predicate` returns. `str.lower` is a parameter.
-/

namespace Zulip.Tornado

/-- The exceptions that the modelled code can raise. -/
inductive PyError where
  | keyError
  | indexError
  | typeError
  | assertionError
  /-- A `JsonableError` with its message. -/
  | jsonable (message : String)
deriving DecidableEq, Repr

/-- `NarrowTerm`. -/
structure NarrowTerm where
  operator : String
  operand : String
deriving DecidableEq, Repr

/-- `narrow_dataclasses_from_tuples`: the first two items of every tuple. -/
def narrowDataclassesFromTuples (tups : List (List String)) : Except PyError (List NarrowTerm) :=
  tups.mapM fun tup =>
    match tup with
    | operator :: operand :: _ => .ok ⟨operator, operand⟩
    | _ => .error .indexError

/-- `channel_operators`; `"stream"` is a legacy alias for `"channel"`. -/
def channelOperators : List String := ["channel", "stream"]

/-- `check_narrow_for_events`. -/
def checkNarrowForEvents (narrow : List NarrowTerm) : Except PyError Unit :=
  narrow.forM fun narrowTerm =>
    let supportedOperators := channelOperators ++ ["topic", "sender", "is"]
    if narrowTerm.operator ∉ supportedOperators then
      .error (.jsonable ("Operator " ++ narrowTerm.operator ++ " not supported."))
    else if narrowTerm.operator = "is" ∧ narrowTerm.operand ∈ ["followed"] then
      .error (.jsonable ("Operand " ++ narrowTerm.operand ++ " not supported."))
    else .ok ()

/-- `RESOLVED_TOPIC_PREFIX`. -/
def resolvedTopicPrefix : String := "✔ "

/-- The conditions of `satisfies_operator` that need a channel message. -/
def onStream (message : MessagePayload) (test : String → Bool) : Bool :=
  match message.displayRecipient with
  | .stream displayRecipient => test displayRecipient
  | .direct _ => false

/-- The inner function `satisfies_operator` of `build_narrow_predicate`. -/
def satisfiesOperator (lower : String → String) (message : MessagePayload) (flags : List String)
    (operator operand : String) : Bool :=
  if operator ∈ channelOperators then
    onStream message fun displayRecipient => lower operand = lower displayRecipient
  else if operator = "topic" then
    onStream message fun _ => lower operand = lower message.subject
  else if operator = "sender" then lower operand = lower message.senderEmail
  -- "is:private" is a legacy alias for "is:dm"
  else if operator = "is" ∧ operand ∈ ["dm", "private"] then
    message.displayRecipient.type = "private"
  else if operator = "is" ∧ operand ∈ ["starred"] then flags.contains operand
  else if operator = "is" ∧ operand = "unread" then !flags.contains "read"
  else if operator = "is" ∧ operand ∈ ["alerted", "mentioned"] then flags.contains "mentioned"
  else if operator = "is" ∧ operand = "resolved" then
    onStream message fun _ => startswith message.subject resolvedTopicPrefix
  else true

/-- The predicate that `build_narrow_predicate` returns. -/
def narrowPredicate (lower : String → String) (narrow : List NarrowTerm)
    (message : MessagePayload) (flags : List String) : Bool :=
  narrow.all fun term => satisfiesOperator lower message flags term.operator term.operand

/-- The checks that building the predicate makes, and the terms it is built from. -/
def buildNarrowTerms (tups : List (List String)) : Except PyError (List NarrowTerm) := do
  let narrow ← narrowDataclassesFromTuples tups
  checkNarrowForEvents narrow
  return narrow

end Zulip.Tornado
