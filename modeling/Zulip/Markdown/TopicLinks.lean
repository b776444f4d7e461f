import Zulip.Foundation.Greedy
import Zulip.Foundation.Scanning

/-!
# Links in topics

The server and the client each look for linkifiers and raw URLs in a topic, and drop what overlaps
something of a higher priority. The regular expressions are parameters: for each one, what it
matches at a position. A topic is a list of characters.
-/

namespace Zulip.Markdown

abbrev Text := List Char

structure Linkifier where
  pattern : String
  urlTemplate : String

/-- `TopicLinkMatch` of the server, `Link` of the client. -/
structure TopicLinkMatch where
  url : String
  text : Text
  index : Nat
  precedence : Option Nat
  /-- Where the text begins in the topic, which the source does not keep. -/
  start : Nat
deriving DecidableEq

/-- What the augmented pattern of a linkifier matches, with the groups of the linkifier itself. -/
structure ServerMatch (Groups : Type) where
  before : Text
  text : Text
  after : Text
  groups : Groups
deriving DecidableEq

structure ClientMatch (Groups : Type) where
  text : Text
  groups : Groups
deriving DecidableEq

/-- `prepare_linkifier_pattern` -/
def prepareLinkifierPattern (source : String) : String :=
  "(?P<linkifier_before_match>^|\\s|\u0085|\\pZ|[\x27\x22\\(,:<])(?P<linkifier_actual_match>" ++
    source ++ ")(?P<linkifier_after_match>$|[^\\pL\\pN])"

/-- The libraries of the server. -/
structure Server (Groups : Type) where
  /-- `re2.compile`, and what the expression matches at a position of a topic. -/
  compile : String → Option (Text → Nat → Option (ServerMatch Groups))
  expand : String → Groups → String
  /-- Where `get_web_link_regex()` finds its group "url" in a text, and what that is. -/
  webLink : Text → Option (Nat × Text)
  /-- A web link with its scheme. -/
  linkUrl : Text → String
  /-- A delimiter is one character, or the start of the topic. -/
  before_of_match : ∀ source matchAt topic position found,
    compile (prepareLinkifierPattern source) = some matchAt →
      matchAt topic position = some found →
        (position = 0 ∧ found.before = []) ∨ found.before.length = 1
  match_inside : ∀ source matchAt topic position found,
    compile (prepareLinkifierPattern source) = some matchAt →
      matchAt topic position = some found →
        position + found.before.length + found.text.length + found.after.length ≤ topic.length
  webLink_inside : ∀ segment offset text, webLink segment = some (offset, text) →
    text ≠ [] ∧ offset + text.length ≤ segment.length

/-- The libraries of the client. -/
structure Client (Groups : Type) where
  /-- `python_to_js_linkifier`, and what the expression matches at a position of a topic. -/
  compile : String → Option (Text → Nat → Option (ClientMatch Groups))
  expand : String → Groups → String
  /-- What `url_re` matches at a position of a topic. -/
  urlRe : Text → Nat → Option Text
  urlRe_inside : ∀ topic position text, urlRe topic position = some text →
    text ≠ [] ∧ position + text.length ≤ topic.length

variable {Groups : Type}

namespace Server

variable (server : Server Groups)

/-- The matches of a linkifier, with their positions; `none` when the loop does not end. -/
def finds (linkifier : Linkifier) (topic : Text) : Option (List (Nat × ServerMatch Groups)) :=
  match server.compile (prepareLinkifierPattern linkifier.pattern) with
  | none => some []
  | some matchAt =>
      scan
        (fun pos =>
          if pos < topic.length then leftmost (matchAt topic) (topic.length + 1 - pos) pos
          else none)
        -- The character after the text may also come before the next one.
        (fun found => found.1 + found.2.before.length + found.2.text.length)
        (topic.length + 1) 0

def toMatch (linkifier : Linkifier) (precedence : Nat) (found : Nat × ServerMatch Groups) :
    TopicLinkMatch where
  url := server.expand linkifier.urlTemplate found.2.groups
  text := found.2.text
  index := found.1
  precedence := some precedence
  start := found.1 + found.2.before.length

/-- The matches of all linkifiers. A pattern that is not valid has no precedence. -/
def linkifierMatches (topic : Text) : List Linkifier → Nat → Option (List TopicLinkMatch)
  | [], _ => some []
  | linkifier :: rest, precedence =>
      match server.compile (prepareLinkifierPattern linkifier.pattern) with
      | none => linkifierMatches topic rest precedence
      | some _ => do
          let found ← server.finds linkifier topic
          let later ← linkifierMatches topic rest (precedence + 1)
          some (found.map (server.toMatch linkifier precedence) ++ later)

/-- `basic_link_splitter` -/
def basicLinkSplitter (c : Char) : Bool := c ∈ [' ', '!', ';', ')', ',', '\'', '"']

/-- The raw URLs of what is left of a topic at `pos`; `fuel` is at least its length. -/
def rawUrls : Nat → Nat → Text → List TopicLinkMatch
  | _, _, [] => []
  | 0, _, _ => []
  | fuel + 1, pos, rest =>
      let segment := rest.takeWhile fun c => !basicLinkSplitter c
      let later := rawUrls fuel (pos + segment.length + 1) (rest.drop (segment.length + 1))
      match server.webLink segment with
      | none => later
      | some (offset, text) => ⟨server.linkUrl text, text, pos, none, pos + offset⟩ :: later

end Server

def areMatchesOverlapping (matchA matchB : TopicLinkMatch) : Bool :=
  (matchB.index ≤ matchA.index && matchA.index < matchB.index + matchB.text.length) ||
    (matchA.index ≤ matchB.index && matchB.index < matchA.index + matchA.text.length)

/-- The key `(k.precedence, k.index)`. -/
def sortsBefore (a b : TopicLinkMatch) : Bool :=
  a.precedence.getD 0 < b.precedence.getD 0 ||
    (a.precedence.getD 0 = b.precedence.getD 0 && a.index ≤ b.index)

def indexBefore (a b : TopicLinkMatch) : Bool := a.index ≤ b.index

namespace Server

variable (server : Server Groups)

/-- `applied_matches` at the end of `topic_links`. -/
def appliedMatches (linkifiers : List Linkifier) (topic : Text) : Option (List TopicLinkMatch) := do
  let linkifierMatches ← server.linkifierMatches topic linkifiers 0
  let sorted := linkifierMatches.mergeSort sortsBefore
  let applied :=
    selectGreedily areMatchesOverlapping (sorted ++ server.rawUrls topic.length 0 topic)
  some (applied.mergeSort indexBefore)

/-- `topic_links`: the URLs and their texts. -/
def topicLinks (linkifiers : List Linkifier) (topic : Text) : Option (List (String × Text)) :=
  (server.appliedMatches linkifiers topic).map (List.map fun link => (link.url, link.text))

end Server

/-- The comparison of `links.sort`. -/
def comesBefore (a b : TopicLinkMatch) : Bool :=
  match a.precedence, b.precedence with
  | some first, some second => if first ≠ second then first < second else a.index ≤ b.index
  | _, _ => a.index ≤ b.index

def isXBetween (x start length : Nat) : Bool := start ≤ x && x < start + length

def isOverlapping (matchA matchB : TopicLinkMatch) : Bool :=
  isXBetween matchA.index matchB.index matchB.text.length ||
    isXBetween matchB.index matchA.index matchA.text.length

namespace Client

variable (client : Client Groups)

/-- `pattern.exec(topic)` until it is null, with the matches' positions. -/
def execAll (pattern : Nat → Option (ClientMatch Groups)) (topic : Text) :
    Option (List (Nat × ClientMatch Groups)) :=
  scan (fun lastIndex => leftmost pattern (topic.length + 1 - lastIndex) lastIndex)
    (fun found => found.1 + found.2.text.length) (topic.length + 1) 0

/-- The matches of a linkifier; none when its pattern could not be converted. -/
def finds (linkifier : Linkifier) (topic : Text) : Option (List (Nat × ClientMatch Groups)) :=
  match client.compile linkifier.pattern with
  | none => some []
  | some pattern => execAll (pattern topic) topic

def toLink (linkifier : Linkifier) (precedence : Nat) (found : Nat × ClientMatch Groups) :
    TopicLinkMatch where
  url := client.expand linkifier.urlTemplate found.2.groups
  text := found.2.text
  index := found.1
  precedence := some precedence
  start := found.1

/-- The links of all linkifiers of the map. -/
def linkifierLinks (topic : Text) : List Linkifier → Nat → Option (List TopicLinkMatch)
  | [], _ => some []
  | linkifier :: rest, precedence =>
      match client.compile linkifier.pattern with
      | none => linkifierLinks topic rest precedence
      | some _ => do
          let found ← client.finds linkifier topic
          let later ← linkifierLinks topic rest (precedence + 1)
          some (found.map (client.toLink linkifier precedence) ++ later)

/-- The matches of `url_re`. -/
def rawUrls (topic : Text) : Option (List TopicLinkMatch) :=
  (scan (fun lastIndex => leftmost (client.urlRe topic) (topic.length + 1 - lastIndex) lastIndex)
      (fun found => found.1 + found.2.length) (topic.length + 1) 0).map
    (List.map fun found => ⟨String.ofList found.2, found.2, found.1, none, found.1⟩)

/-- `applied_matches` at the end of `get_topic_links`. -/
def appliedMatches (linkifiers : List Linkifier) (topic : Text) : Option (List TopicLinkMatch) := do
  let links ← client.linkifierLinks topic linkifiers 0
  let sorted := links.mergeSort comesBefore
  let rawUrls ← client.rawUrls topic
  let applied := selectGreedily isOverlapping (sorted ++ rawUrls)
  some (applied.mergeSort indexBefore)

/-- `get_topic_links`: the URLs and their texts. -/
def getTopicLinks (linkifiers : List Linkifier) (topic : Text) : Option (List (String × Text)) :=
  (client.appliedMatches linkifiers topic).map (List.map fun link => (link.url, link.text))

end Client

end Zulip.Markdown
