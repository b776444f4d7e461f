import Zulip.Foundation.Dict

/-!
# Addresses of the e-mail mirror

A stream has an address that is made of a name for humans, a secret token and options, joined by
dots and put into the pattern of the gateway. Mail to the address is taken apart again by a regular
expression. Texts are lists of characters.
-/

namespace Zulip.EmailMirror

abbrev Text := List Char

/-- The gateway, and the text functions of the libraries. -/
structure Gateway where
  /-- `EMAIL_GATEWAY_PATTERN` -/
  emailGatewayPattern : Text
  /-- `\w` -/
  isWord : Char → Bool
  /-- `str.isalnum`, for one character. -/
  isAlnum : Char → Bool
  /-- `django.utils.text.slugify` -/
  slugify : Text → Text
  isAlnum_separator : ∀ c ∈ ['.', '+', '-', '%', '\n'], isAlnum c = false
  slugify_ascii : ∀ name, ∀ c ∈ slugify name, c.isAlphanum = true ∨ c = '-' ∨ c = '_'

/-! ## Encoding -/

/-- `re.sub(r"\W+", "-", name)`; `inRun` is set after a character that is replaced. -/
def subNonWords (isWord : Char → Bool) (inRun : Bool) : Text → Text
  | [] => []
  | c :: rest =>
      if isWord c then c :: subNonWords isWord false rest
      else if inRun then subNonWords isWord true rest
      else '-' :: subNonWords isWord true rest

/-- `pattern % (argument,)`; `none` where Python raises an exception. Conversions other than `%s`,
which would take the argument, are left out: a pattern that has one counts as failing. -/
def percentFormat (argument : Text) : Bool → Text → Option Text
  | used, [] => if used then some [] else none
  | used, '%' :: '%' :: rest => (percentFormat argument used rest).map ('%' :: ·)
  | used, '%' :: 's' :: rest =>
      if used then none else (percentFormat argument true rest).map (argument ++ ·)
  | _, '%' :: _ => none
  | used, c :: rest => (percentFormat argument used rest).map (c :: ·)

namespace Gateway

variable (gateway : Gateway)

/-- The name in an address; empty when letters would be dropped. -/
def encodedName (name : Text) : Text :=
  let name := subNonWords gateway.isWord false name
  let slugName := gateway.slugify name
  if slugName.length = name.length then slugName else []

/-- What the address has in the place of `%s`. -/
def encodedToken (name emailToken : Text) (showSender : Bool) : Text :=
  let encodedName := gateway.encodedName name
  let encodedToken := if encodedName ≠ [] then encodedName ++ '.' :: emailToken else emailToken
  if showSender then encodedToken ++ ".show-sender".toList else encodedToken

/-- `encode_email_address_helper` -/
def encodeEmailAddressHelper (name emailToken : Text) (showSender : Bool) : Option Text :=
  if gateway.emailGatewayPattern = [] then some []
  else
    percentFormat (gateway.encodedToken name emailToken showSender) false
      gateway.emailGatewayPattern

end Gateway

/-! ## Decoding -/

inductive DecodeError where
  /-- `ZulipEmailForwardError` -/
  | forwardError (message : String)
  | indexError
deriving DecidableEq

/-- `pattern.split("%s")` -/
def splitPattern : Text → List Text
  | [] => [[]]
  | '%' :: 's' :: rest => [] :: splitPattern rest
  | c :: rest => (splitPattern rest).modifyHead (c :: ·)

/-- The groups when `(.*?)` comes first and the rest of the expression is matched by `next`. -/
def lazyGroup (next : Text → Option (List Text)) : Text → Option (List Text)
  | [] => (next []).map ([] :: ·)
  | c :: rest =>
      match next (c :: rest) with
      | some groups => some ([] :: groups)
      | none =>
          -- A dot matches any character but a newline.
          if c = '\n' then none
          else (lazyGroup next rest).map fun groups => groups.modifyHead (c :: ·)

/-- `re.match` of the parts of the pattern, joined by `(.*?)`: the groups. -/
def matchParts : List Text → Text → Option (List Text)
  | [], _ => some []
  | [part], address => if part.isPrefixOf address then some [] else none
  | part :: parts, address =>
      if part.isPrefixOf address then
        lazyGroup (matchParts parts) (address.drop part.length)
      else none

/-- `optional_address_tokens`: the key and the value that an option sets. -/
def optionalAddressTokens : Dict Text (String × Bool) :=
  Dict.ofList
    [("show-sender".toList, ("show_sender", true)),
      ("include-footer".toList, ("include_footer", true)),
      ("include-quotes".toList, ("include_quotes", true)),
      ("prefer-text".toList, ("prefer_text", true)),
      ("prefer-html".toList, ("prefer_text", false))]

/-- The options of an address. -/
abbrev Options := Dict String Bool

def setOption (options : Options) (part : Text) : Options :=
  match optionalAddressTokens.get? part with
  | some option => options.set option.1 option.2
  | none => options

/-- The token and the options, from the parts of an address. -/
def decodeParts (parts : List Text) : Except DecodeError (Text × Options) :=
  let options := parts.foldl setOption Dict.empty
  let remainingParts := parts.filter fun part => part ∉ optionalAddressTokens.keys
  match remainingParts with
  | [token] => .ok (token, options)
  | _ :: token :: _ => .ok (token, options)
  | [] => .error .indexError

namespace Gateway

variable (gateway : Gateway)

def getEmailGatewayMessageStringFromAddress (address : Text) : Except DecodeError Text :=
  match matchParts (splitPattern gateway.emailGatewayPattern) address with
  | none => .error (.forwardError "Address not recognized by gateway.")
  | some (msgString :: _) => .ok msgString
  | some [] => .error .indexError

/-- `decode_email_address` -/
def decodeEmailAddress (email : Text) : Except DecodeError (Text × Options) := do
  let msgString ← gateway.getEmailGatewayMessageStringFromAddress email
  let msgString := msgString.map fun c => if c = '.' then '+' else c
  decodeParts (msgString.splitOn '+')

/-- The options that are encoded. -/
def encodedOptions (showSender : Bool) : Options :=
  if showSender then Dict.empty.set "show_sender" true else Dict.empty

/-- Decoding the address gives back the token and the options. -/
def RoundTrips (name emailToken : Text) (showSender : Bool) : Prop :=
  ∃ address, gateway.encodeEmailAddressHelper name emailToken showSender = some address ∧
    gateway.decodeEmailAddress address = .ok (emailToken, encodedOptions showSender)

end Gateway

/-- The text before the first place where a mark occurs, or the whole text. -/
def beforeFirst (mark : Text) : Text → Text
  | [] => []
  | c :: rest => if mark.isPrefixOf (c :: rest) then [] else c :: beforeFirst mark rest

end Zulip.EmailMirror
