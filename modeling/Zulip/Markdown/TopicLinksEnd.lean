import Zulip.Markdown.TopicLinksAgree

/-!
# Whether the search for links in a topic ends

A search goes on where the text of the last match ended. `linkifying_ends_iff` says when each loop
of `topic_links` and `get_topic_links` ends: on the server a linkifier must not match the empty text
at the start of the topic, in the client none that is found may be empty. The loops over raw URLs
always end.
-/

namespace Zulip.Markdown

variable {Groups : Type}

/-! ## The loops, for any number of turns -/

namespace Server

variable (server : Server Groups)

/-- Whether `filter_pattern_validator` accepts a pattern. -/
def filterPatternValidator (value : String) : Bool := (server.compile value).isSome

/-- `pattern.search(topic_name, pos)` in the loop over `pos`. -/
def search (matchAt : Text → Nat → Option (ServerMatch Groups)) (topic : Text) (pos : Nat) :
    Option (Nat × ServerMatch Groups) :=
  if pos < topic.length then leftmost (matchAt topic) (topic.length + 1 - pos) pos else none

/-- Where the search goes on: `m.end() - len(match_details[AFTER_CAPTURE_GROUP])`. -/
def goesOn (found : Nat × ServerMatch Groups) : Nat :=
  found.1 + found.2.before.length + found.2.text.length

/-- The loop over the matches of a linkifier; `none` when it does not end in time. -/
def findsWithin (fuel : Nat) (linkifier : Linkifier) (topic : Text) :
    Option (List (Nat × ServerMatch Groups)) :=
  match server.compile (prepareLinkifierPattern linkifier.pattern) with
  | none => some []
  | some matchAt => scan (search matchAt topic) goesOn fuel 0

/-- The loop over the segments of a topic; `none` when it does not end in time. -/
def rawUrlsWithin : Nat → Nat → Text → Option (List TopicLinkMatch)
  | _, _, [] => some []
  | 0, _, _ => none
  | fuel + 1, pos, rest => do
      let segment := rest.takeWhile fun c => !basicLinkSplitter c
      let later ← rawUrlsWithin fuel (pos + segment.length + 1) (rest.drop (segment.length + 1))
      match server.webLink segment with
      | none => some later
      | some (offset, text) =>
          some (⟨server.linkUrl text, text, pos, none, pos + offset⟩ :: later)

/-- All loops of `topic_links` end. -/
structure LoopsEnd (linkifiers : List Linkifier) (topic : Text) : Prop where
  linkifiers : ∀ linkifier ∈ linkifiers, ∃ fuel founds,
    server.findsWithin fuel linkifier topic = some founds
  rawUrls : ∃ fuel urls, server.rawUrlsWithin fuel 0 topic = some urls

/-- At the start of the topic the linkifier matches the empty text, with nothing before it. -/
def MatchesEmptyStart (linkifier : Linkifier) (topic : Text) : Prop :=
  topic ≠ [] ∧ ∃ matchAt found,
    server.compile (prepareLinkifierPattern linkifier.pattern) = some matchAt ∧
      matchAt topic 0 = some found ∧ found.before = [] ∧ found.text = []

end Server

namespace Client

variable (client : Client Groups)

/-- `pattern.exec(topic)`. -/
def exec (pattern : Text → Nat → Option (ClientMatch Groups)) (topic : Text) (lastIndex : Nat) :
    Option (Nat × ClientMatch Groups) :=
  leftmost (pattern topic) (topic.length + 1 - lastIndex) lastIndex

/-- `lastIndex` after a match. -/
def lastIndexAfter (found : Nat × ClientMatch Groups) : Nat := found.1 + found.2.text.length

/-- The loop over the matches of a linkifier; `none` when it does not end in time. -/
def findsWithin (fuel : Nat) (linkifier : Linkifier) (topic : Text) :
    Option (List (Nat × ClientMatch Groups)) :=
  match client.compile linkifier.pattern with
  | none => some []
  | some pattern => scan (exec pattern topic) lastIndexAfter fuel 0

/-- The loop over the matches of `url_re`; `none` when it does not end in time. -/
def rawUrlsWithin (fuel : Nat) (topic : Text) : Option (List (Nat × Text)) :=
  scan (fun lastIndex => leftmost (client.urlRe topic) (topic.length + 1 - lastIndex) lastIndex)
    (fun found => found.1 + found.2.length) fuel 0

/-- All loops of `get_topic_links` end. -/
structure LoopsEnd (linkifiers : List Linkifier) (topic : Text) : Prop where
  linkifiers : ∀ linkifier ∈ linkifiers, ∃ fuel founds,
    client.findsWithin fuel linkifier topic = some founds
  rawUrls : ∃ fuel urls, client.rawUrlsWithin fuel topic = some urls

/-- From some `lastIndex` that the loop reaches, the linkifier matches the empty text first. -/
def FindsEmpty (linkifier : Linkifier) (topic : Text) : Prop :=
  ∃ pattern lastIndex found, client.compile linkifier.pattern = some pattern ∧
    Scanned (exec pattern topic) lastIndexAfter 0 lastIndex ∧
      exec pattern topic lastIndex = some found ∧ found.2.text = []

end Client

variable {server : Server Groups} {client : Client Groups} {linkifier : Linkifier} {topic : Text}
  {linkifiers : List Linkifier}

/-! ## Loops over linkifiers -/

/-- A match on the server leaves the position unchanged only at the start of the topic. -/
theorem Server.findsWithin_ends_iff :
    (∃ fuel founds, server.findsWithin fuel linkifier topic = some founds) ↔
      ¬ server.MatchesEmptyStart linkifier topic := by
  unfold findsWithin MatchesEmptyStart
  cases compiles : server.compile (prepareLinkifierPattern linkifier.pattern) with
  | none =>
      refine iff_of_true ⟨0, [], rfl⟩ ?_
      rintro ⟨-, matchAt, found, isMatch, -⟩
      cases isMatch
  | some matchAt =>
      have searches : ∀ pos found, search matchAt topic pos = some found →
          pos < topic.length ∧ pos ≤ found.1 ∧ matchAt topic found.1 = some found.2 := by
        intro pos found isFound
        unfold search at isFound
        split_ifs at isFound with inside
        exact ⟨inside, (leftmost_bounds isFound).1, matchAt_of_leftmost isFound⟩
      have again : ∀ pos found, search matchAt topic pos = some found →
          search matchAt topic found.1 = some found := by
        intro pos found isFound
        obtain ⟨inside, order, isMatch⟩ := searches pos found isFound
        have fits := server.match_inside _ _ _ _ _ compiles isMatch
        have starts := server.before_of_match _ _ _ _ _ compiles isMatch
        have inTopic : found.1 < topic.length := by
          rcases starts with ⟨isStart, -⟩ | isOne <;> omega
        have enough : topic.length + 1 - found.1 = topic.length - found.1 + 1 := by omega
        unfold search
        rw [if_pos inTopic, enough, leftmost, isMatch]
      refine (@exists_scan_iff _ (search matchAt topic) Prod.fst goesOn topic.length 0
        (fun pos found isFound => ?_) again fun pos found isFound =>
          Nat.le_of_lt (searches pos found isFound).1).trans ?_
      · have order := (searches pos found isFound).2.1
        unfold goesOn
        omega
      · constructor
        · rintro advances ⟨notEmpty, matchAt', found, isMatch, isFound, noBefore, noText⟩
          cases isMatch
          have inTopic : 0 < topic.length := List.length_pos_iff.mpr notEmpty
          have isSearch : search matchAt topic 0 = some (0, found) := by
            unfold search
            rw [if_pos inTopic, Nat.sub_zero, leftmost, isFound]
          apply advances 0 (0, found) .start isSearch
          simp [goesOn, noBefore, noText]
        · intro noEmpty pos found scanned isFound stays
          obtain ⟨inside, order, isMatch⟩ := searches pos found isFound
          have starts := server.before_of_match _ _ _ _ _ compiles isMatch
          unfold goesOn at stays
          rcases starts with ⟨isStart, noBefore⟩ | isOne
          · have noText : found.2.text = [] := List.length_eq_zero_iff.mp (by omega)
            rw [isStart] at isMatch
            have notEmpty : topic ≠ [] := List.length_pos_iff.mp (by omega)
            exact noEmpty ⟨notEmpty, matchAt, found.2, rfl, isMatch, noBefore, noText⟩
          · omega

/-- A match in the client leaves `lastIndex` unchanged when it is empty. -/
theorem Client.findsWithin_ends_iff :
    (∃ fuel founds, client.findsWithin fuel linkifier topic = some founds) ↔
      ¬ client.FindsEmpty linkifier topic := by
  unfold findsWithin FindsEmpty
  cases compiles : client.compile linkifier.pattern with
  | none =>
      refine iff_of_true ⟨0, [], rfl⟩ ?_
      rintro ⟨pattern, lastIndex, found, isPattern, -⟩
      cases isPattern
  | some pattern =>
      refine (@exists_scan_iff _ (exec pattern topic) Prod.fst lastIndexAfter topic.length 0
        (fun lastIndex found isFound => ?_) (fun lastIndex found isFound => ?_)
        fun lastIndex found isFound => ?_).trans ?_
      · have order := (leftmost_bounds isFound).1
        unfold lastIndexAfter
        omega
      · have bounds := leftmost_bounds isFound
        have enough : topic.length + 1 - found.1 = topic.length - found.1 + 1 := by omega
        unfold exec
        rw [enough]
        exact leftmost_again isFound _
      · have bounds := leftmost_bounds isFound
        omega
      · constructor
        · rintro advances ⟨pattern', lastIndex, found, isPattern, scanned, isFound, noText⟩
          cases isPattern
          apply advances lastIndex found scanned isFound
          simp [lastIndexAfter, noText]
        · intro noEmpty lastIndex found scanned isFound stays
          unfold lastIndexAfter at stays
          have noText : found.2.text = [] := List.length_eq_zero_iff.mp (by omega)
          exact noEmpty ⟨pattern, lastIndex, found, rfl, scanned, isFound, noText⟩

/-! ## Loops over raw URLs -/

/-- Each segment of the topic is shorter than what is left. -/
theorem Server.rawUrlsWithin_ends (pos : Nat) {rest : Text} {fuel : Nat}
    (enough : rest.length ≤ fuel) :
    server.rawUrlsWithin fuel pos rest = some (server.rawUrls fuel pos rest) := by
  induction fuel generalizing pos rest with
  | zero =>
      obtain rfl : rest = [] := List.length_eq_zero_iff.mp (by omega)
      rfl
  | succ fuel inductionHypothesis =>
      cases rest with
      | nil => rfl
      | cons c rest =>
          unfold rawUrlsWithin rawUrls
          dsimp only
          generalize (c :: rest).takeWhile (fun c => !basicLinkSplitter c) = segment
          have shorter : ((c :: rest).drop (segment.length + 1)).length ≤ fuel := by
            rw [List.length_drop]
            omega
          rw [inductionHypothesis _ shorter]
          cases server.webLink segment with
          | none => rfl
          | some url => rfl

theorem Client.rawUrlsWithin_ends :
    ∃ fuel urls, client.rawUrlsWithin fuel topic = some urls := by
  obtain ⟨links, isLinks, -⟩ := @Client.rawUrls_spec _ client topic
  unfold Client.rawUrls at isLinks
  obtain ⟨urls, scans, -⟩ := Option.map_eq_some_iff.mp isLinks
  exact ⟨topic.length + 1, urls, scans⟩

/-! ## All loops -/

theorem Server.loopsEnd_iff :
    server.LoopsEnd linkifiers topic ↔
      ∀ linkifier ∈ linkifiers, ¬ server.MatchesEmptyStart linkifier topic := by
  constructor
  · intro ends linkifier member
    exact Server.findsWithin_ends_iff.mp (ends.linkifiers linkifier member)
  · intro noEmpty
    exact ⟨fun linkifier member => Server.findsWithin_ends_iff.mpr (noEmpty linkifier member),
      _, _, Server.rawUrlsWithin_ends 0 (Nat.le_refl _)⟩

theorem Client.loopsEnd_iff :
    client.LoopsEnd linkifiers topic ↔
      ∀ linkifier ∈ linkifiers, ¬ client.FindsEmpty linkifier topic := by
  constructor
  · intro ends linkifier member
    exact Client.findsWithin_ends_iff.mp (ends.linkifiers linkifier member)
  · intro noEmpty
    exact ⟨fun linkifier member => Client.findsWithin_ends_iff.mpr (noEmpty linkifier member),
      Client.rawUrlsWithin_ends⟩

/-- Linkifying a topic ends exactly when no linkifier matches the empty text at the start of the
topic on the server, and none finds an empty text in the client. -/
theorem linkifying_ends_iff (server : Server Groups) (client : Client Groups)
    (linkifiers : List Linkifier) (topic : Text) :
    (server.LoopsEnd linkifiers topic ∧ client.LoopsEnd linkifiers topic) ↔
      ∀ linkifier ∈ linkifiers, ¬ server.MatchesEmptyStart linkifier topic ∧
        ¬ client.FindsEmpty linkifier topic := by
  rw [Server.loopsEnd_iff, Client.loopsEnd_iff]
  constructor
  · rintro ⟨onServer, inClient⟩ linkifier member
    exact ⟨onServer linkifier member, inClient linkifier member⟩
  · intro both
    exact ⟨fun linkifier member => (both linkifier member).1,
      fun linkifier member => (both linkifier member).2⟩

/-! ## A linkifier that matches the empty text -/

theorem noWebLink_inside : ∀ (segment : Text) (offset : Nat) (text : Text),
    (none : Option (Nat × Text)) = some (offset, text) →
      text ≠ [] ∧ offset + text.length ≤ segment.length := by
  intro segment offset text isUrl
  cases isUrl

/-- A server where the pattern `a*` is the only one. In topics without an `a` it matches what the
empty text matches. -/
def starServer : Server Unit where
  compile prepared :=
    if prepared = "a*" ∨ prepared = prepareLinkifierPattern "a*" then some (plainServerMatch [])
    else none
  expand template _ := template
  webLink _ := none
  linkUrl := String.ofList
  before_of_match source matchAt topic position found compiles isFound := by
    split_ifs at compiles
    cases compiles
    exact (plainServerMatch_spec isFound).1
  match_inside source matchAt topic position found compiles isFound := by
    split_ifs at compiles
    cases compiles
    exact (plainServerMatch_spec isFound).2
  webLink_inside := noWebLink_inside

/-- The pattern `a*` is accepted, and in a topic that begins with a delimiter the server searches
for it at the start again and again. -/
theorem linkifying_never_ends :
    ¬∀ (server : Server Unit) (client : Client Unit) (linkifiers : List Linkifier) (topic : Text),
      (∀ linkifier ∈ linkifiers, server.filterPatternValidator linkifier.pattern = true) →
        server.LoopsEnd linkifiers topic ∧ client.LoopsEnd linkifiers topic := by
  intro always
  have accepted : ∀ linkifier ∈ [Linkifier.mk "a*" "https://example.com/"],
      starServer.filterPatternValidator linkifier.pattern = true := by
    intro linkifier member
    obtain rfl := List.mem_singleton.mp member
    rfl
  obtain ⟨ends, -⟩ := always starServer (plainClient []) _ "#12".toList accepted
  apply Server.loopsEnd_iff.mp ends _ List.mem_cons_self
  have compiles : starServer.compile (prepareLinkifierPattern "a*") = some (plainServerMatch []) := by
    simp only [starServer, or_true, if_true]
  exact ⟨by decide, plainServerMatch [], ⟨[], [], ['#'], ()⟩, compiles, by decide +kernel, rfl, rfl⟩

end Zulip.Markdown
