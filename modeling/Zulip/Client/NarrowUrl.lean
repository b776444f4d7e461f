import Zulip.Foundation.PercentEncoding

/-!
# Narrow URLs

The fragment of a narrow's URL, as `hash_util.ts` writes and reads it: a sign, an operator
and an operand for each term, in a percent encoding that hides the percent signs, with slugs
for streams and users in place of their names.
-/

namespace Zulip.Client.NarrowUrl

open Zulip.Foundation

/-- Text of a URL, one character at a time. -/
abbrev Text := List Char

instance : LawfulBEq Text := inferInstance

/-- The `URIError` of `decodeURIComponent`. -/
inductive UriError
  | malformed
  deriving DecidableEq, Repr

/-! ## Percent encoding -/

/-- The marks that `encodeURIComponent` leaves as they are, beside letters and digits. -/
def uriMarks : List Char := ['-', '_', '.', '!', '~', '*', '\x27', '(', ')']

/-- The characters that `encodeURIComponent` leaves as they are. -/
def isUriUnreserved (c : Char) : Bool := c.isAlphanum || uriMarks.contains c

/-- `encodeURIComponent`. -/
def encodeURIComponent (str : Text) : Text := PercentEncoding.encode isUriUnreserved str

/-- `decodeURIComponent`. -/
def decodeURIComponent (str : Text) : Except UriError Text :=
  match PercentEncoding.decode str with
  | some decoded => .ok decoded
  | none => .error .malformed

/-- `hashReplacements`, with the characters it does not name. -/
def hashReplacements (c : Char) : Text :=
  if c = '%' then ['.']
  else if c = '(' then ['.', '2', '8']
  else if c = ')' then ['.', '2', '9']
  else if c = '.' then ['.', '2', 'E']
  else [c]

/-- `encodeHashComponent`. -/
def encodeHashComponent (str : Text) : Text := (encodeURIComponent str).flatMap hashReplacements

/-- Turns the dots of a hash component into percent signs. -/
def dotToPercent (c : Char) : Char := if c = '.' then '%' else c

/-- `decodeHashComponent`. -/
def decodeHashComponent (str : Text) : Except UriError Text :=
  decodeURIComponent (str.map dotToPercent)

/-! ## Case folding and stream synonyms -/

/-- `toLowerCase`, with what the code relies on. -/
structure CaseFolding where
  lower : Text → Text
  lower_lower : ∀ text, lower (lower text) = lower text
  lower_ascii : ∀ text : Text,
    (text.all fun c => c.toNat < 128 && !c.isUpper) = true → lower text = text
  comma_of_lower : ∀ text, ',' ∈ lower text → ',' ∈ text

/-- Case folding where all text is in small letters. -/
def smallLetters : CaseFolding where
  lower := id
  lower_lower := fun _ => rfl
  lower_ascii := fun _ _ => rfl
  comma_of_lower := fun _ member => member

/-- `is_stream_synonym`. -/
def isStreamSynonym (text : Text) : Bool := text = "channel".toList

/-- `is_streams_synonym`. -/
def isStreamsSynonym (text : Text) : Bool := text = "channels".toList

/-- `canonicalize_stream_synonyms`. -/
def canonicalizeStreamSynonyms (folding : CaseFolding) (text : Text) : Text :=
  if isStreamSynonym (folding.lower text) then "stream".toList
  else if isStreamsSynonym (folding.lower text) then "streams".toList
  else text

/-! ## Known users and streams -/

/-- A user as far as slugs need one. -/
structure User where
  userId : Nat
  email : Text
  fullName : Text
  deriving DecidableEq, Repr

/-- The dictionaries of `people.ts`. E-mails are folded keys of `people_dict`, which may also
hold the old e-mails of a user; an id is positive and exact as a number. -/
structure People (folding : CaseFolding) where
  peopleDict : Text → Option User
  peopleByUserIdDict : Nat → Option User
  myUserId : Nat
  byUserId_of_peopleDict : ∀ {key user},
    peopleDict key = some user → peopleByUserIdDict user.userId = some user
  userId_of_byUserId : ∀ {id user}, peopleByUserIdDict id = some user → user.userId = id
  peopleDict_of_byUserId : ∀ {id user},
    peopleByUserIdDict id = some user → peopleDict (folding.lower user.email) = some user
  userId_pos : ∀ {id user}, peopleByUserIdDict id = some user → 0 < id
  email_at : ∀ {key user}, peopleDict key = some user → '@' ∈ key
  email_comma : ∀ {id user}, peopleByUserIdDict id = some user → ',' ∉ user.email

/-- A stream as far as slugs need one. -/
structure StreamSubscription where
  streamId : Nat
  name : Text
  deriving DecidableEq, Repr

/-- The dictionaries of `stream_data.ts` and `sub_store.ts`. -/
structure Streams (folding : CaseFolding) where
  streamIdsByName : Text → Option Nat
  streamIdsByOldNames : Text → Option Nat
  subStore : Nat → Option StreamSubscription
  streamId_pos : ∀ {id sub}, subStore id = some sub → 0 < id
  streamIdsByName_of_subStore : ∀ {id sub},
    subStore id = some sub → streamIdsByName (folding.lower sub.name) = some id

section Slugs

variable {folding : CaseFolding} (people : People folding) (streams : Streams folding)
  (categoryOther : Char → Bool)

/-! ## Numbers in text

A JavaScript number is exact up to `2 ^ 53`, and rounded above. Ids are taken to stay below. -/

/-- A number in a template string, where `none` stands for `NaN`. -/
def printInt : Option Nat → Text
  | some number => Nat.toDigits 10 number
  | none => "NaN".toList

/-- `Number.parseInt(text, 10)`, for a text that starts with neither a blank nor a sign, and with
digits of a number up to `2 ^ 53`. -/
def parseInt (text : Text) : Option Nat :=
  let digits := text.takeWhile Char.isDigit
  if digits = [] then none else some (Nat.ofDigitChars 10 digits 0)

/-- `split_to_ints`. -/
def splitToInts (lst : Text) : List (Option Nat) := (lst.splitOn ',').map parseInt

/-- `user_ids.join(",")`. -/
def joinInts (ids : List (Option Nat)) : Text := [','].intercalate (ids.map printInt)

/-- `try_parse_as_truthy`. -/
def tryParseAsTruthy {Value : Type} (truthy : Value → Bool) (values : List (Option Value)) :
    Option (List Value) :=
  values.mapM fun value => value.filter truthy

/-! ## User slugs -/

/-- `get_by_email`. -/
def getByEmail (email : Text) : Option User := people.peopleDict (folding.lower email)

/-- `reply_to_to_user_ids_string`. -/
def replyToToUserIdsString (emailsString : Text) : Option Text := do
  let userIds ← tryParseAsTruthy (fun id => id != 0)
    ((emailsString.splitOn ',').map fun email => (getByEmail people email).map User.userId)
  return joinInts ((userIds.mergeSort (fun left right => left ≤ right)).map some)

/-- The characters that a user slug leaves out, with the Unicode category of other characters. -/
def isLeftOut (c : Char) : Bool :=
  [' ', '\x22', '%', '/', '<', '>', '\x60'].contains c || categoryOther c

/-- Replaces each run of such characters by one dash. -/
def replaceRuns (leftOut : Char → Bool) : Bool → Text → Text
  | _, [] => []
  | inRun, c :: rest =>
      if leftOut c then
        (if inRun then [] else ['-']) ++ replaceRuns leftOut true rest
      else
        c :: replaceRuns leftOut false rest

/-- The part of a slug behind the ids. -/
def slugSuffix (emails : List Text) : Text :=
  match emails with
  | [email] =>
      -- the person was found when the ids were, so that the assertion cannot fail
      match getByEmail people email with
      | some person => replaceRuns (isLeftOut categoryOther) false person.fullName
      | none => []
  | _ => "group".toList

/-- `emails_to_slug`. -/
def emailsToSlug (emailsString : Text) : Option Text :=
  match replyToToUserIdsString people emailsString with
  | none => none
  | some userIdsString =>
      if userIdsString = [] then none
      else some (userIdsString ++ '-' ::
        slugSuffix people categoryOther (emailsString.splitOn ','))

/-- `is_my_user_id`. -/
def isMyUserId (userId : Option Nat) : Bool := userId == some people.myUserId

/-- `exclude_me_from_string`. -/
def excludeMeFromString (userIdsString : Text) : Text :=
  let userIds := splitToInts userIdsString
  if userIds.length ≤ 1 then joinInts userIds
  else joinInts (userIds.filter fun userId => !isMyUserId people userId)

/-- The UTF-16 code units of a character, by which `sort` compares strings. -/
def utf16Units (c : Char) : List Nat :=
  if c.toNat < 0x10000 then [c.toNat]
  else [0xD800 + (c.toNat - 0x10000) / 0x400, 0xDC00 + (c.toNat - 0x10000) % 0x400]

/-- `emails.sort()`. -/
def sortStrings (texts : List Text) : List Text :=
  texts.mergeSort fun left right => !decide (right.flatMap utf16Units < left.flatMap utf16Units)

/-- `user_ids_string_to_emails_string`. -/
def userIdsStringToEmailsString (userIdsString : Text) : Option Text := do
  let emails ← tryParseAsTruthy (fun email => email != [])
    ((splitToInts userIdsString).map fun userId =>
      (userId.bind people.peopleByUserIdDict).map User.email)
  return [','].intercalate (sortStrings (emails.map folding.lower))

/-- A character of the ids at the start of a user slug. -/
def isIdOrComma (c : Char) : Bool := c.isDigit || c == ','

/-- `slug_to_emails`. The rest of the pattern is optional and not anchored, so that any text
may follow the ids. -/
def slugToEmails (slug : Text) : Option Text :=
  let ids := slug.takeWhile isIdOrComma
  if ids = [] then none
  else userIdsStringToEmailsString people (excludeMeFromString people ids)

/-! ## Stream slugs -/

/-- `get_stream_id`. -/
def getStreamId (name : Text) : Option Nat :=
  match (streams.streamIdsByName (folding.lower name)).filter (fun id => id != 0) with
  | some streamId => some streamId
  | none => streams.streamIdsByOldNames (folding.lower name)

/-- `name_to_slug`. -/
def nameToSlug (name : Text) : Text :=
  match (getStreamId streams name).filter (fun id => id != 0) with
  | none => name
  | some streamId =>
      Nat.toDigits 10 streamId ++ '-' :: name.map fun c => if c = ' ' then '-' else c

/-- The characters that a dot of a regular expression does not match. -/
def isLineTerminator (c : Char) : Bool :=
  c == '\n' || c == '\r' || c == '\u2028' || c == '\u2029'

/-- The stream id of a modern slug, `/^(\d+)(-.*)?$/`. -/
def slugStreamId (slug : Text) : Option Nat :=
  let digits := slug.takeWhile Char.isDigit
  let rest := slug.dropWhile Char.isDigit
  if digits ≠ [] ∧
      (rest = [] ∨ (rest.head? = some '-' ∧ rest.all fun c => !isLineTerminator c)) then
    some (Nat.ofDigitChars 10 digits 0)
  else none

/-- `slug_to_name`. -/
def slugToName (slug : Text) : Text :=
  match (slugStreamId slug).bind streams.subStore with
  | some sub => sub.name
  | none => slug

/-! ## Terms -/

/-- The operators whose operands are users. -/
def userOperators : List Text :=
  ["group-pm-with".toList, "dm-including".toList, "dm".toList, "sender".toList, "pm-with".toList]

/-- A term of a narrow. -/
structure NarrowTerm where
  negated : Bool
  operator : Text
  operand : Text
  deriving DecidableEq, Repr

/-- `encode_stream_name`. -/
def encodeStreamName (operand : Text) : Text := encodeHashComponent (nameToSlug streams operand)

/-- `encode_operand`. -/
def encodeOperand (operator operand : Text) : Text :=
  match (if operator ∈ userOperators then emailsToSlug people categoryOther operand
      else none).filter (fun slug => slug != []) with
  | some slug => slug
  | none =>
      if operator = "stream".toList then encodeStreamName streams operand
      else encodeHashComponent operand

/-- `decode_operand`. -/
def decodeOperand (operator operand : Text) : Except UriError Text :=
  match (if operator ∈ userOperators then slugToEmails people operand
      else none).filter (fun emails => emails != []) with
  | some emails => .ok emails
  | none => do
      let operand ← decodeHashComponent operand
      if canonicalizeStreamSynonyms folding operator = "stream".toList then
        return slugToName streams operand
      return operand

/-- What one term adds to the hash. -/
def termToHash (term : NarrowTerm) : Text :=
  let operator := canonicalizeStreamSynonyms folding term.operator
  let sign := if term.negated then ['-'] else []
  '/' :: sign ++ encodeHashComponent operator ++
    '/' :: encodeOperand people streams categoryOther operator term.operand

/-- `search_terms_to_hash`, of a list of terms. -/
def searchTermsToHash (terms : List NarrowTerm) : Text :=
  "#narrow".toList ++ terms.flatMap (termToHash people streams categoryOther)

/-- The loop of `parse_narrow`, from an operator on. -/
def parseTerms : List Text → Except UriError (Option (List NarrowTerm))
  | [] => return some []
  | [rawOperator] => do
      let operator ← decodeHashComponent rawOperator
      if operator = [] then return some []
      return none
  | rawOperator :: rawOperand :: hash => do
      let operator ← decodeHashComponent rawOperator
      if operator = [] then return some []
      if rawOperand = [] then return none
      let negated := operator.head? == some '-'
      let operator := if negated then operator.tail else operator
      let operand ← decodeOperand people streams operator rawOperand
      let terms ← parseTerms hash
      return terms.map fun terms => { negated, operator, operand } :: terms

/-- `parse_narrow`. -/
def parseNarrow (hash : List Text) : Except UriError (Option (List NarrowTerm)) :=
  parseTerms people streams (hash.drop 1)

end Slugs

end Zulip.Client.NarrowUrl
