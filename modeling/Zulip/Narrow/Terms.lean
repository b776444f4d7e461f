import Zulip.Access.Tables

/-!
# Narrow terms

`NarrowParameter` and its checks, and the names that the Zephyr mirroring realm treats as one.
-/

namespace Zulip.Narrow

/-- The exceptions of a narrow. -/
inductive NarrowError where
  /-- `BadNarrowOperatorError` with its description. -/
  | badNarrowOperator (desc : String)
  /-- A `JsonableError` with its message. -/
  | jsonable (message : String)
  | assertionError
  | typeError
  | multipleObjectsReturned
  /-- The database rejects the query: it mentions a column that is not there. -/
  | programmingError
  /-- `MissingAuthenticationError` -/
  | missingAuthentication
deriving DecidableEq, Repr

/-- The operand of a term. -/
inductive Operand where
  | str (text : String)
  | int (value : Int)
  | ids (values : List Int)
deriving DecidableEq, Repr

namespace Operand

/-- `str(operand)`. -/
def toStr : Operand → String
  | .str text => text
  | .int value => toString value
  | .ids values => "[" ++ ", ".intercalate (values.map toString) ++ "]"

end Operand

/-- `NarrowParameter`. -/
structure NarrowParameter where
  operator : String
  operand : Operand
  negated : Bool := false
deriving DecidableEq, Repr

/-- `channel_operators`; `"stream"` is a legacy alias for `"channel"`. -/
def channelOperators : List String := ["channel", "stream"]

/-- `channels_operators`; `"streams"` is a legacy alias for `"channels"`. -/
def channelsOperators : List String := ["channels", "streams"]

/-- `NarrowParameter.validate_terms`. -/
def NarrowParameter.validateTerms (strip : String → String) (term : NarrowParameter) :
    Except NarrowError NarrowParameter :=
  let operatorsSupportingId :=
    channelOperators ++ ["id", "sender", "group-pm-with", "dm-including", "with"]
  let operatorsSupportingIds := ["pm-with", "dm"]
  let operatorsNonEmptyOperand := ["search"]
  if term.operator ∈ operatorsSupportingId then
    match term.operand with
    | .ids _ => .error (.jsonable "operand is not a string or integer")
    | _ => .ok term
  else if term.operator ∈ operatorsSupportingIds then
    match term.operand with
    | .int _ => .error (.jsonable "operand is not a string or an integer list")
    | _ => .ok term
  else
    match term.operand with
    | .str text =>
        if term.operator ∈ operatorsNonEmptyOperand ∧ strip text = "" then
          .error (.jsonable "operand cannot be blank.")
        else .ok term
    | _ => .error (.jsonable "operand is not a string")

/-- `is_spectator_compatible`. -/
def isSpectatorCompatible (narrow : List NarrowParameter) : Bool :=
  let supportedOperators :=
    channelOperators ++ channelsOperators ++
      ["topic", "sender", "has", "search", "near", "id", "with"]
  narrow.all fun element => element.operator ∈ supportedOperators

/-- `is_web_public_narrow`. -/
def isWebPublicNarrow (narrow : List NarrowParameter) : Bool :=
  narrow.any fun term =>
    term.operator ∈ channelsOperators ∧ term.operand = .str "web-public" ∧ term.negated = false

/-- `clean_narrow_for_web_public_api`. -/
def cleanNarrowForWebPublicApi (narrow : List NarrowParameter) : List NarrowParameter :=
  narrow.filter fun term =>
    ¬(term.operator = "in" ∧ term.operand = .str "home" ∧ term.negated = false)

section Zephyr

/-- Two characters that spell `un`. -/
def isUn (first second : Char) : Bool := first ∈ ['u', 'U'] ∧ second ∈ ['n', 'N']

/-- The last two characters of a text, last one first, that spell `.d`. -/
def isDotD (last before : Char) : Bool := last ∈ ['d', 'D'] ∧ before = '.'

/-- Drop what `(?:un)*` matches at the start when something must follow. -/
def dropUns : List Char → List Char
  | first :: second :: third :: rest =>
      if isUn first second then dropUns (third :: rest) else first :: second :: third :: rest
  | chars => chars

/-- Drop what `(?:\.d)*` matches at the end of a reversed text when something must precede. -/
def dropDotDs : List Char → List Char
  | last :: before :: third :: rest =>
      if isDotD last before then dropDotDs (third :: rest) else last :: before :: third :: rest
  | chars => chars

/-- The group of `^(?:un)*(.+?)(?:\.d)*$`; names have no line breaks. -/
def baseChannelName (name : String) : String :=
  String.ofList (dropDotDs (dropUns name.toList).reverse).reverse

/-- What may follow some `un`s. -/
def afterUns : List Char → List (List Char)
  | first :: second :: rest =>
      (first :: second :: rest) :: if isUn first second then afterUns rest else []
  | chars => [chars]

/-- What may precede some `.d`s, in a reversed text. -/
def beforeDotDs : List Char → List (List Char)
  | last :: before :: rest =>
      (last :: before :: rest) :: if isDotD last before then beforeDotDs rest else []
  | chars => [chars]

/-- Whether a name matches `^(un)*base(\.d)*$`, without regard to case. -/
def matchesChannelName (upper : String → String) (base name : String) : Bool :=
  (afterUns name.toList).any fun rest =>
    (beforeDotDs rest.reverse).any fun core => upper (String.ofList core.reverse) = upper base

/-- Drop what `(?:\.d)*` matches at the end of a reversed text. -/
def dropAllDotDs : List Char → List Char
  | last :: before :: rest =>
      if isDotD last before then dropAllDotDs rest else last :: before :: rest
  | chars => chars

/-- The group of `^(.*?)(?:\.d)*$`, if there is a match: a line break can only be at the end. -/
def baseTopic (operand : String) : Option String :=
  let chars := operand.toList
  let line := if chars.getLast? = some '\n' then chars.dropLast else chars
  if '\n' ∈ line then none else some (String.ofList (dropAllDotDs line.reverse).reverse)

end Zephyr

end Zulip.Narrow
