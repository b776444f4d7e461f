import Mathlib.Data.List.Pairwise
import Zulip.Markdown.TopicLinks

/-!
# The links of the server and of the client

`topicLinks_agree_iff`: the server records where a match begins with its delimiter, and where a
segment begins with a raw URL. So it takes a linkifier text at the start of the topic for one that
overlaps the next text, and does not see that a raw URL overlaps the end of a text.
-/

namespace Zulip.Markdown

/-! ## Texts in a topic -/

/-- A link, and where its text is. -/
structure Occurrence where
  start : Nat
  text : Text
  url : String
deriving DecidableEq

namespace Occurrence

/-- Two texts have a character of the topic in common. -/
def meets (first second : Occurrence) : Bool :=
  first.start < second.start + second.text.length && second.start < first.start + first.text.length

/-- The text as it is recorded by the server, with the delimiter before it. -/
def recorded (occurrence : Occurrence) : Occurrence :=
  { occurrence with start := occurrence.start - 1 }

def recordedMeets (first second : Occurrence) : Bool := first.recorded.meets second.recorded

theorem meets_iff {first second : Occurrence} :
    first.meets second = true ↔ first.start < second.start + second.text.length ∧
      second.start < first.start + first.text.length := by
  simp [meets]

theorem meets_comm (first second : Occurrence) : first.meets second = second.meets first :=
  Bool.and_comm _ _

theorem recordedMeets_comm (first second : Occurrence) :
    first.recordedMeets second = second.recordedMeets first :=
  meets_comm _ _

theorem recordedMeets_iff {first second : Occurrence} :
    first.recordedMeets second = true ↔
      first.start - 1 < second.start - 1 + second.text.length ∧
        second.start - 1 < first.start - 1 + first.text.length :=
  meets_iff

/-- Texts that meet are recorded so. -/
theorem recordedMeets_of_meets {first second : Occurrence} (isMeeting : first.meets second = true)
    (some : first.text ≠ []) (someSecond : second.text ≠ []) :
    first.recordedMeets second = true := by
  have long := List.length_pos_iff.mpr some
  have longSecond := List.length_pos_iff.mpr someSecond
  rw [recordedMeets_iff]
  rw [meets_iff] at isMeeting
  omega

/-- What is recorded meets otherwise only where one text begins the topic and the other follows. -/
theorem recordedMeets_iff_of_not_meets {first second : Occurrence}
    (apart : first.meets second = false) (some : first.text ≠ []) (someSecond : second.text ≠ []) :
    first.recordedMeets second = true ↔
      (first.start = 0 ∧ second.start = first.text.length) ∨
        (second.start = 0 ∧ first.start = second.text.length) := by
  have long := List.length_pos_iff.mpr some
  have longSecond := List.length_pos_iff.mpr someSecond
  have apart : ¬(first.start < second.start + second.text.length ∧
      second.start < first.start + first.text.length) := by
    rw [← meets_iff, apart]
    exact Bool.false_ne_true
  rw [recordedMeets_iff]
  omega

end Occurrence

namespace TopicLinkMatch

def occurrence (link : TopicLinkMatch) : Occurrence := ⟨link.start, link.text, link.url⟩

def Occupies (link : TopicLinkMatch) (position : Nat) : Prop :=
  link.start ≤ position ∧ position < link.start + link.text.length

def Disjoint (first second : TopicLinkMatch) : Prop :=
  ∀ position, ¬(first.Occupies position ∧ second.Occupies position)

theorem disjoint_iff {first second : TopicLinkMatch} (some : first.text ≠ [])
    (someSecond : second.text ≠ []) :
    first.Disjoint second ↔ first.occurrence.meets second.occurrence = false := by
  have long := List.length_pos_iff.mpr some
  have longSecond := List.length_pos_iff.mpr someSecond
  rw [← Bool.not_eq_true, Occurrence.meets_iff]
  constructor
  · intro disjoint isMeeting
    have isMeeting : first.start < second.start + second.text.length ∧
        second.start < first.start + first.text.length := isMeeting
    exact disjoint (max first.start second.start)
      ⟨⟨Nat.le_max_left _ _, by omega⟩, ⟨Nat.le_max_right _ _, by omega⟩⟩
  · rintro apart position ⟨⟨after, before⟩, afterSecond, beforeSecond⟩
    exact apart ⟨Nat.lt_of_le_of_lt after beforeSecond, Nat.lt_of_le_of_lt afterSecond before⟩

theorem Disjoint.symm {first second : TopicLinkMatch} (disjoint : first.Disjoint second) :
    second.Disjoint first := fun position both => disjoint position both.symm

end TopicLinkMatch

/-- The texts of links have no character of the topic in common. -/
def DisjointSpans (links : List TopicLinkMatch) : Prop := links.Pairwise TopicLinkMatch.Disjoint

/-- The links of linkifiers, with their places. -/
def linkifierOccurrences (links : List TopicLinkMatch) : List Occurrence :=
  (links.filter fun link => link.precedence.isSome).map TopicLinkMatch.occurrence

/-- Both sides return the same links of linkifiers in the same order, and disjoint texts. -/
def LinksAgree {Groups : Type} (server : Server Groups) (client : Client Groups)
    (linkifiers : List Linkifier) (topic : Text) : Prop :=
  ∃ serverMatches clientMatches, server.appliedMatches linkifiers topic = some serverMatches ∧
    client.appliedMatches linkifiers topic = some clientMatches ∧
    linkifierOccurrences serverMatches = linkifierOccurrences clientMatches ∧
    DisjointSpans serverMatches ∧ DisjointSpans clientMatches

/-- The text that the client finds where the server finds a match. -/
def ServerMatch.inner {Groups : Type} (found : Nat × ServerMatch Groups) :
    Nat × ClientMatch Groups :=
  (found.1 + found.2.before.length, ⟨found.2.text, found.2.groups⟩)

/-- Both engines find the same texts of a linkifier, and come to an end. -/
def SameTexts {Groups : Type} (server : Server Groups) (client : Client Groups) (topic : Text)
    (linkifier : Linkifier) : Prop :=
  ∃ found, server.finds linkifier topic = some found ∧
    client.finds linkifier topic = some (found.map ServerMatch.inner)

/-- The texts that are found, by priority and position. -/
def Server.foundTexts {Groups : Type} (server : Server Groups) (linkifiers : List Linkifier)
    (topic : Text) : List Occurrence :=
  linkifiers.flatMap fun linkifier =>
    ((server.finds linkifier topic).getD []).map fun found =>
      ⟨found.1 + found.2.before.length, found.2.text,
        server.expand linkifier.urlTemplate found.2.groups⟩

/-! ## Priorities -/

/-- The links of linkifiers from a precedence on, sorted. -/
structure Ranked (precedence : Nat) (links : List TopicLinkMatch) : Prop where
  atLeast : ∀ link ∈ links, ∃ own, precedence ≤ own ∧ link.precedence = some own
  sorted : links.Pairwise fun first second => ∃ own other, first.precedence = some own ∧
    second.precedence = some other ∧ (own < other ∨ (own = other ∧ first.index ≤ second.index))

namespace Ranked

variable {precedence : Nat} {links these later : List TopicLinkMatch}

theorem nil : Ranked precedence [] := ⟨nofun, .nil⟩

theorem succ (ranked : Ranked (precedence + 1) links) : Ranked precedence links where
  atLeast link member := by
    obtain ⟨own, atLeast, isOwn⟩ := ranked.atLeast link member
    exact ⟨own, by omega, isOwn⟩
  sorted := ranked.sorted

/-- The links of one linkifier come before those of the next ones. -/
theorem append (own : ∀ link ∈ these, link.precedence = some precedence)
    (sorted : these.Pairwise fun first second => first.index ≤ second.index)
    (ranked : Ranked (precedence + 1) later) : Ranked precedence (these ++ later) where
  atLeast link member := by
    rcases List.mem_append.mp member with isThese | isLater
    · exact ⟨precedence, Nat.le_refl _, own link isThese⟩
    · exact ranked.succ.atLeast link isLater
  sorted := by
    refine List.pairwise_append.mpr ⟨?_, ranked.sorted, ?_⟩
    · exact sorted.imp_of_mem fun isFirst isSecond before =>
        ⟨precedence, precedence, own _ isFirst, own _ isSecond, .inr ⟨rfl, before⟩⟩
    · intro first isFirst second isSecond
      obtain ⟨other, atLeast, isOther⟩ := ranked.atLeast second isSecond
      exact ⟨precedence, other, own first isFirst, isOther, .inl (by omega)⟩

theorem mergeSort_sortsBefore (ranked : Ranked precedence links) :
    links.mergeSort sortsBefore = links :=
  List.mergeSort_of_pairwise (ranked.sorted.imp fun {first second} => by
    rintro ⟨own, other, isOwn, isOther, order⟩
    simpa [sortsBefore, isOwn, isOther] using order)

theorem mergeSort_comesBefore (ranked : Ranked precedence links) :
    links.mergeSort comesBefore = links :=
  List.mergeSort_of_pairwise (ranked.sorted.imp fun {first second} => by
    rintro ⟨own, other, isOwn, isOther, order⟩
    rcases order with before | ⟨rfl, before⟩
    · simp [comesBefore, isOwn, isOther, Nat.ne_of_lt before, before]
    · simp [comesBefore, isOwn, isOther, before])

theorem isSome (ranked : Ranked precedence links) {link : TopicLinkMatch} (member : link ∈ links) :
    link.precedence.isSome = true := by
  obtain ⟨own, -, isOwn⟩ := ranked.atLeast link member
  rw [isOwn]
  rfl

end Ranked

/-! ## What is found -/

section Finding

variable {Groups : Type} {server : Server Groups} {client : Client Groups} {topic : Text}
  {linkifier : Linkifier} {linkifiers : List Linkifier}

/-- A match of the server begins one character before its text, or at the start of the topic. -/
theorem Server.index_of_mem_finds {founds : List (Nat × ServerMatch Groups)}
    (finds : server.finds linkifier topic = some founds) {found : Nat × ServerMatch Groups}
    (member : found ∈ founds) : found.1 = found.1 + found.2.before.length - 1 := by
  unfold Server.finds at finds
  cases compiles : server.compile (prepareLinkifierPattern linkifier.pattern) with
  | none =>
      rw [compiles] at finds
      cases finds
      cases member
  | some matchAt =>
      rw [compiles] at finds
      obtain ⟨position, isFound⟩ := search_of_mem_scan finds member
      split_ifs at isFound
      rcases server.before_of_match _ _ _ _ _ compiles (matchAt_of_leftmost isFound) with
        ⟨isStart, noBefore⟩ | oneBefore
      · simp [isStart, noBefore]
      · omega

/-- The matches of the server are found from the left to the right. -/
theorem Server.finds_sorted {founds : List (Nat × ServerMatch Groups)}
    (finds : server.finds linkifier topic = some founds) :
    founds.Pairwise fun first second => first.1 ≤ second.1 := by
  unfold Server.finds at finds
  cases compiles : server.compile (prepareLinkifierPattern linkifier.pattern) with
  | none =>
      rw [compiles] at finds
      cases finds
      exact .nil
  | some matchAt =>
      rw [compiles] at finds
      refine (@scan_pairwise _ _ Prod.fst _ _ _ _ ?_ finds).imp fun before => by omega
      intro position found isFound
      split_ifs at isFound
      have bounds := leftmost_bounds isFound
      omega

/-- The client finds from the left to the right, and no empty texts. -/
theorem Client.finds_spec {founds : List (Nat × ClientMatch Groups)}
    (finds : client.finds linkifier topic = some founds) :
    (founds.Pairwise fun first second => first.1 ≤ second.1) ∧
      ∀ found ∈ founds, found.2.text ≠ [] := by
  unfold Client.finds at finds
  cases compiles : client.compile linkifier.pattern with
  | none =>
      rw [compiles] at finds
      cases finds
      exact ⟨.nil, nofun⟩
  | some matchAt =>
      rw [compiles] at finds
      refine ⟨(@scan_pairwise _ _ Prod.fst _ _ _ _ ?_ finds).imp fun before => by omega, ?_⟩
      · intro position found isFound
        have bounds := leftmost_bounds isFound
        omega
      · intro found member noText
        have advances := @scan_advances _ _ Prod.fst _ _ _ _ _ ?_ finds member
        · simp [noText] at advances
        · intro position found isFound
          have bounds := leftmost_bounds isFound
          have enough : topic.length + 1 - found.1 = topic.length - found.1 + 1 := by omega
          rw [enough]
          exact leftmost_again isFound _

theorem foundTexts_cons :
    server.foundTexts (linkifier :: linkifiers) topic =
      ((server.finds linkifier topic).getD []).map (fun found =>
        ⟨found.1 + found.2.before.length, found.2.text,
          server.expand linkifier.urlTemplate found.2.groups⟩) ++
      server.foundTexts linkifiers topic := rfl

/-- The matches of the server are the texts, with the index one character before. -/
theorem Server.linkifierMatches_spec
    (same : ∀ linkifier ∈ linkifiers, SameTexts server client topic linkifier) (precedence : Nat) :
    ∃ links, server.linkifierMatches topic linkifiers precedence = some links ∧
      links.map TopicLinkMatch.occurrence = server.foundTexts linkifiers topic ∧
      Ranked precedence links ∧ ∀ link ∈ links, link.index = link.start - 1 ∧ link.text ≠ [] := by
  induction linkifiers generalizing precedence with
  | nil => exact ⟨[], rfl, rfl, .nil, nofun⟩
  | cons linkifier rest inductionHypothesis =>
      have inductionHypothesis := inductionHypothesis fun linkifier member =>
        same linkifier (List.mem_cons_of_mem _ member)
      obtain ⟨found, serverFinds, clientFinds⟩ := same linkifier List.mem_cons_self
      rw [foundTexts_cons, serverFinds, Option.getD_some, Server.linkifierMatches]
      cases compiles : server.compile (prepareLinkifierPattern linkifier.pattern) with
      | none =>
          obtain ⟨links, isLinks, areTexts, ranked, recorded⟩ := inductionHypothesis precedence
          have noneFound : found = [] := by
            unfold Server.finds at serverFinds
            rw [compiles] at serverFinds
            cases serverFinds
            rfl
          exact ⟨links, isLinks, by rw [areTexts, noneFound]; rfl, ranked, recorded⟩
      | some matchAt =>
          obtain ⟨links, isLinks, areTexts, ranked, recorded⟩ := inductionHypothesis (precedence + 1)
          have sorted := Server.finds_sorted serverFinds
          refine ⟨found.map (server.toMatch linkifier precedence) ++ links, ?_, ?_,
            ranked.append ?_ (List.pairwise_map.mpr sorted), ?_⟩
          · simp only [serverFinds, isLinks, bind, Option.bind]
          · rw [List.map_append, areTexts, List.map_map]
            rfl
          · intro link member
            obtain ⟨one, -, rfl⟩ := List.mem_map.mp member
            rfl
          · intro link member
            rcases List.mem_append.mp member with isThese | isLater
            · obtain ⟨one, isOne, rfl⟩ := List.mem_map.mp isThese
              exact ⟨Server.index_of_mem_finds serverFinds isOne,
                (Client.finds_spec clientFinds).2 _ (List.mem_map_of_mem isOne)⟩
            · exact recorded link isLater

/-- The links of the client are the same texts, where they are. -/
theorem Client.linkifierLinks_spec
    (sameExpand : ∀ template groups, client.expand template groups = server.expand template groups)
    (same : ∀ linkifier ∈ linkifiers, SameTexts server client topic linkifier) (precedence : Nat) :
    ∃ links, client.linkifierLinks topic linkifiers precedence = some links ∧
      links.map TopicLinkMatch.occurrence = server.foundTexts linkifiers topic ∧
      Ranked precedence links ∧ ∀ link ∈ links, link.index = link.start ∧ link.text ≠ [] := by
  induction linkifiers generalizing precedence with
  | nil => exact ⟨[], rfl, rfl, .nil, nofun⟩
  | cons linkifier rest inductionHypothesis =>
      have inductionHypothesis := inductionHypothesis fun linkifier member =>
        same linkifier (List.mem_cons_of_mem _ member)
      obtain ⟨found, serverFinds, clientFinds⟩ := same linkifier List.mem_cons_self
      rw [foundTexts_cons, serverFinds, Option.getD_some, Client.linkifierLinks]
      cases compiles : client.compile linkifier.pattern with
      | none =>
          obtain ⟨links, isLinks, areTexts, ranked, recorded⟩ := inductionHypothesis precedence
          have noneFound : found = [] := by
            unfold Client.finds at clientFinds
            rw [compiles] at clientFinds
            exact List.map_eq_nil_iff.mp (Option.some.inj clientFinds).symm
          exact ⟨links, isLinks, by rw [areTexts, noneFound]; rfl, ranked, recorded⟩
      | some matchAt =>
          obtain ⟨links, isLinks, areTexts, ranked, recorded⟩ := inductionHypothesis (precedence + 1)
          obtain ⟨sorted, nonempty⟩ := Client.finds_spec clientFinds
          refine ⟨(found.map ServerMatch.inner).map (client.toLink linkifier precedence) ++ links,
            ?_, ?_, ranked.append ?_ (List.pairwise_map.mpr sorted), ?_⟩
          · simp only [clientFinds, isLinks, bind, Option.bind]
          · rw [List.map_append, areTexts, List.map_map, List.map_map]
            congr 1
            refine List.map_congr_left fun one _ => ?_
            simp [TopicLinkMatch.occurrence, Client.toLink, ServerMatch.inner, sameExpand]
          · intro link member
            obtain ⟨one, -, rfl⟩ := List.mem_map.mp member
            rfl
          · intro link member
            rcases List.mem_append.mp member with isThese | isLater
            · obtain ⟨one, isOne, rfl⟩ := List.mem_map.mp isThese
              exact ⟨rfl, nonempty one isOne⟩
            · exact recorded link isLater

end Finding

/-! ## Raw URLs -/

section RawUrls

variable {Groups : Type} {server : Server Groups} {client : Client Groups}

/-- A raw URL of the server lies in a segment that it is recorded at. -/
theorem Server.rawUrls_spec (fuel pos : Nat) (rest : Text) :
    (∀ link ∈ server.rawUrls fuel pos rest, link.precedence = none ∧ link.text ≠ [] ∧
      pos ≤ link.index ∧ link.index ≤ link.start) ∧
    (server.rawUrls fuel pos rest).Pairwise fun first second =>
      first.start + first.text.length ≤ second.index := by
  induction fuel generalizing pos rest with
  | zero => cases rest <;> exact ⟨nofun, .nil⟩
  | succ fuel inductionHypothesis =>
      cases rest with
      | nil => exact ⟨nofun, .nil⟩
      | cons c rest =>
          unfold Server.rawUrls
          dsimp only
          generalize (c :: rest).takeWhile (fun c => !basicLinkSplitter c) = segment
          obtain ⟨laterSpec, laterSorted⟩ := inductionHypothesis (pos + segment.length + 1)
            ((c :: rest).drop (segment.length + 1))
          have laterSpec : ∀ link ∈ server.rawUrls fuel (pos + segment.length + 1)
              ((c :: rest).drop (segment.length + 1)), link.precedence = none ∧ link.text ≠ [] ∧
                pos + segment.length < link.index ∧ link.index ≤ link.start := laterSpec
          cases isUrl : server.webLink segment with
          | none =>
              dsimp only
              refine ⟨fun link member => ?_, laterSorted⟩
              obtain ⟨noPrecedence, nonempty, after, before⟩ := laterSpec link member
              exact ⟨noPrecedence, nonempty, by omega, before⟩
          | some url =>
              obtain ⟨nonempty, inside⟩ := server.webLink_inside _ _ _ isUrl
              dsimp only
              refine ⟨fun link member => ?_, .cons (fun link member => ?_) laterSorted⟩
              · rcases List.mem_cons.mp member with rfl | isLater
                · exact ⟨rfl, nonempty, Nat.le_refl _, Nat.le_add_right _ _⟩
                · obtain ⟨noPrecedence, nonempty, after, before⟩ := laterSpec link isLater
                  exact ⟨noPrecedence, nonempty, by omega, before⟩
              · obtain ⟨-, -, after, -⟩ := laterSpec link member
                change pos + url.1 + url.2.length ≤ link.index
                omega

/-- The client finds its raw URLs one after the other. -/
theorem Client.rawUrls_spec (topic : Text) :
    ∃ links, client.rawUrls topic = some links ∧
      (∀ link ∈ links, link.precedence = none ∧ link.text ≠ [] ∧ link.index = link.start) ∧
      links.Pairwise fun first second => first.index + first.text.length ≤ second.index := by
  have found : ∀ position found,
      leftmost (client.urlRe topic) (topic.length + 1 - position) position = some found →
        position ≤ found.1 ∧ found.2 ≠ [] ∧ found.1 + found.2.length ≤ topic.length := by
    intro position found isFound
    obtain ⟨nonempty, inside⟩ := client.urlRe_inside _ _ _ (matchAt_of_leftmost isFound)
    exact ⟨(leftmost_bounds isFound).1, nonempty, inside⟩
  obtain ⟨founds, scans⟩ := @exists_scan _
    (fun lastIndex => leftmost (client.urlRe topic) (topic.length + 1 - lastIndex) lastIndex)
    (fun found => found.1 + found.2.length) (topic.length + 1) 0 topic.length
    (fun position one isFound => by
      obtain ⟨after, nonempty, inside⟩ := found position one isFound
      have long := List.length_pos_iff.mpr nonempty
      omega)
    (by omega) (by omega)
  refine ⟨_, by rw [Client.rawUrls, scans, Option.map_some], ?_, ?_⟩
  · intro link member
    obtain ⟨one, isOne, rfl⟩ := List.mem_map.mp member
    obtain ⟨position, isFound⟩ := search_of_mem_scan scans isOne
    exact ⟨rfl, (found position one isFound).2.1, rfl⟩
  · refine List.pairwise_map.mpr (@scan_pairwise _ _ Prod.fst _ _ _ _ ?_ scans)
    intro position one isFound
    exact ⟨(found position one isFound).1, Nat.le_add_right _ _⟩

end RawUrls

/-! ## What is applied -/

section Applied

variable {links urls : List TopicLinkMatch}

theorem areMatchesOverlapping_iff {first second : TopicLinkMatch} (some : first.text ≠ [])
    (someSecond : second.text ≠ []) :
    areMatchesOverlapping first second = true ↔
      first.index < second.index + second.text.length ∧
        second.index < first.index + first.text.length := by
  have long := List.length_pos_iff.mpr some
  have longSecond := List.length_pos_iff.mpr someSecond
  simp only [areMatchesOverlapping, Bool.or_eq_true, Bool.and_eq_true, decide_eq_true_eq]
  omega

/-- The two sides compare in the same way. -/
theorem isOverlapping_eq : isOverlapping = areMatchesOverlapping := rfl

theorem areMatchesOverlapping_comm (first second : TopicLinkMatch) :
    areMatchesOverlapping first second = areMatchesOverlapping second first :=
  Bool.or_comm _ _

/-- Sorting by the index keeps the links of linkifiers. -/
theorem linkifierOccurrences_perm (ranked : ∀ link ∈ links, link.precedence.isSome = true)
    (raw : ∀ url ∈ urls, url.precedence = none) :
    (linkifierOccurrences ((links ++ urls).mergeSort indexBefore)).Perm
      (links.map TopicLinkMatch.occurrence) := by
  have kept : (links ++ urls).filter (fun link => link.precedence.isSome) = links := by
    rw [List.filter_append, List.filter_eq_self.mpr ranked, List.filter_eq_nil_iff.mpr, List.append_nil]
    intro url member
    simp [raw url member]
  have sorted := (List.mergeSort_perm (links ++ urls) indexBefore).filter
    fun link => link.precedence.isSome
  rw [kept] at sorted
  exact sorted.map _

theorem mergeSort_indexBefore_sorted (links : List TopicLinkMatch) :
    (links.mergeSort indexBefore).Pairwise fun first second => first.index ≤ second.index := by
  have sorted := @List.pairwise_mergeSort _ indexBefore
    (fun a b c => by simp only [indexBefore, decide_eq_true_eq]; omega)
    (fun a b => by simp only [indexBefore, Bool.or_eq_true, decide_eq_true_eq]; omega) links
  exact sorted.imp fun before => by simpa [indexBefore] using before

/-- The links of linkifiers are sorted by their place, when the index sorts them so. -/
theorem linkifierOccurrences_sorted (ranked : ∀ url ∈ urls, url.precedence = none)
    (sameOrder : ∀ first ∈ links, ∀ second ∈ links, first.index ≤ second.index →
      first.start ≤ second.start) :
    (linkifierOccurrences ((links ++ urls).mergeSort indexBefore)).Pairwise
      fun first second => first.start ≤ second.start := by
  refine List.pairwise_map.mpr ?_
  refine ((mergeSort_indexBefore_sorted _).filter _).imp_of_mem ?_
  have isLink : ∀ link ∈ ((links ++ urls).mergeSort indexBefore).filter
      (fun link => link.precedence.isSome), link ∈ links := by
    intro link member
    obtain ⟨isSorted, isSome⟩ := List.mem_filter.mp member
    rcases List.mem_append.mp (List.mem_mergeSort.mp isSorted) with isLink | isUrl
    · exact isLink
    · rw [ranked link isUrl] at isSome
      cases isSome
  intro first second isFirst isSecond before
  exact sameOrder first (isLink first isFirst) second (isLink second isSecond) before

/-- Whether spans are disjoint does not depend on the order. -/
theorem disjointSpans_mergeSort :
    DisjointSpans (links.mergeSort indexBefore) ↔ DisjointSpans links :=
  (List.mergeSort_perm links indexBefore).pairwise_iff fun disjoint => disjoint.symm

end Applied

/-! ## Agreement -/

section Agreement

variable {Groups : Type} {server : Server Groups} {client : Client Groups}
  {linkifiers : List Linkifier} {topic : Text}

/-- The texts that are picked by priority, where they do not meet. -/
def Server.pickedTexts (server : Server Groups) (linkifiers : List Linkifier) (topic : Text) :
    List Occurrence :=
  selectGreedily Occurrence.meets (server.foundTexts linkifiers topic)

/-- No text that begins the topic is followed by another one. -/
def NoneFollowsFirst (picked : List Occurrence) : Prop :=
  ∀ first ∈ picked, ∀ second ∈ picked,
    ¬(first.start = 0 ∧ second.start = first.text.length)

/-- A raw URL that meets a text is also recorded so, perhaps with another text. -/
def UrlsAreSeen (picked : List Occurrence) (urls : List TopicLinkMatch) : Prop :=
  ∀ url ∈ urls, (∃ text ∈ picked, text.meets url.occurrence = true) →
    ∃ text ∈ picked, text.recorded.meets { url.occurrence with start := url.index } = true

/-- Two elements of a list that is free of a symmetric conflict. -/
theorem of_pairwise {α : Type} {conflict : α → α → Bool} {selected : List α} {first second : α}
    (symmetric : ∀ first second, conflict first second = conflict second first)
    (free : selected.Pairwise fun first second => conflict first second = false)
    (isFirst : first ∈ selected) (isSecond : second ∈ selected) (different : first ≠ second) :
    conflict first second = false := by
  have : Std.Symm fun first second => conflict first second = false :=
    ⟨fun first second isFree => (symmetric second first).trans isFree⟩
  exact free.forall isFirst isSecond different

/-- What the server selects is recorded apart. -/
theorem picked_pairwise_recorded_iff {picked : List Occurrence}
    (apart : picked.Pairwise fun first second => first.meets second = false)
    (nonempty : ∀ text ∈ picked, text.text ≠ []) :
    (picked.Pairwise fun first second => first.recordedMeets second = false) ↔
      NoneFollowsFirst picked := by
  constructor
  · intro recordedApart first isFirst second isSecond follows
    have long := List.length_pos_iff.mpr (nonempty first isFirst)
    have different : first ≠ second := by
      rintro rfl
      omega
    have isApart := of_pairwise Occurrence.meets_comm apart isFirst isSecond different
    have isRecordedApart := of_pairwise Occurrence.recordedMeets_comm recordedApart isFirst
      isSecond different
    have meets := (Occurrence.recordedMeets_iff_of_not_meets isApart (nonempty first isFirst)
      (nonempty second isSecond)).mpr (.inl follows)
    rw [isRecordedApart] at meets
    cases meets
  · intro noneFollows
    refine apart.imp_of_mem fun {first second} isFirst isSecond isApart => ?_
    rw [← Bool.not_eq_true, Occurrence.recordedMeets_iff_of_not_meets isApart
      (nonempty first isFirst) (nonempty second isSecond)]
    rintro (follows | follows)
    · exact noneFollows first isFirst second isSecond follows
    · exact noneFollows second isSecond first isFirst follows

/-- The server compares its texts as they are recorded. -/
theorem selected_occurrences_recorded {links : List TopicLinkMatch}
    (recorded : ∀ link ∈ links, link.index = link.start - 1 ∧ link.text ≠ []) :
    (selectGreedily areMatchesOverlapping links).map TopicLinkMatch.occurrence =
      selectGreedily Occurrence.recordedMeets (links.map TopicLinkMatch.occurrence) := by
  refine selectGreedily_map fun first isFirst second isSecond => ?_
  obtain ⟨firstIndex, firstText⟩ := recorded first isFirst
  obtain ⟨secondIndex, secondText⟩ := recorded second isSecond
  rw [Bool.eq_iff_iff, areMatchesOverlapping_iff firstText secondText,
    Occurrence.recordedMeets_iff, firstIndex, secondIndex]
  rfl

/-- The client compares the texts. -/
theorem selected_occurrences {links : List TopicLinkMatch}
    (exactly : ∀ link ∈ links, link.index = link.start ∧ link.text ≠ []) :
    (selectGreedily areMatchesOverlapping links).map TopicLinkMatch.occurrence =
      selectGreedily Occurrence.meets (links.map TopicLinkMatch.occurrence) := by
  refine selectGreedily_map fun first isFirst second isSecond => ?_
  obtain ⟨firstIndex, firstText⟩ := exactly first isFirst
  obtain ⟨secondIndex, secondText⟩ := exactly second isSecond
  rw [Bool.eq_iff_iff, areMatchesOverlapping_iff firstText secondText, Occurrence.meets_iff,
    firstIndex, secondIndex]
  rfl

/-- The matches of the server's linkifiers, before raw URLs are added. -/
theorem Server.appliedMatches_spec
    (same : ∀ linkifier ∈ linkifiers, SameTexts server client topic linkifier) :
    ∃ links selected urls, server.appliedMatches linkifiers topic =
        some ((selected ++ urls).mergeSort indexBefore) ∧
      links.map TopicLinkMatch.occurrence = server.foundTexts linkifiers topic ∧
      (∀ link ∈ links, link.index = link.start - 1 ∧ link.text ≠ [] ∧
        link.precedence.isSome = true) ∧
      selected = selectGreedily areMatchesOverlapping links ∧
      urls = (server.rawUrls topic.length 0 topic).filter
        (isFree areMatchesOverlapping selected) ∧
      selected.map TopicLinkMatch.occurrence =
        selectGreedily Occurrence.recordedMeets (server.foundTexts linkifiers topic) ∧
      (linkifierOccurrences ((selected ++ urls).mergeSort indexBefore)).Perm
        (selected.map TopicLinkMatch.occurrence) := by
  obtain ⟨links, isLinks, areTexts, ranked, recorded⟩ := Server.linkifierMatches_spec same 0
  obtain ⟨urlSpec, urlSorted⟩ := @Server.rawUrls_spec _ server topic.length 0 topic
  have urlsFree : (server.rawUrls topic.length 0 topic).Pairwise fun first second =>
      areMatchesOverlapping first second = false := by
    refine urlSorted.imp_of_mem fun {first second} isFirst isSecond before => ?_
    obtain ⟨-, nonempty, -, startAfter⟩ := urlSpec first isFirst
    rw [← Bool.not_eq_true,
      areMatchesOverlapping_iff nonempty (urlSpec second isSecond).2.1]
    omega
  refine ⟨links, _, _, ?_, areTexts, fun link member => ?_, rfl, rfl, ?_, ?_⟩
  · rw [Server.appliedMatches, isLinks]
    simp only [bind, Option.bind]
    rw [ranked.mergeSort_sortsBefore, selectGreedily_append urlsFree]
  · exact ⟨(recorded link member).1, (recorded link member).2, ranked.isSome member⟩
  · rw [← areTexts]
    exact selected_occurrences_recorded recorded
  · exact linkifierOccurrences_perm
      (fun link member => ranked.isSome ((selectGreedily_sublist _ _).subset member))
      fun url member => (urlSpec url (List.mem_filter.mp member).1).1

/-- The links of the client's linkifiers, before raw URLs are added. -/
theorem Client.appliedMatches_spec
    (sameExpand : ∀ template groups, client.expand template groups = server.expand template groups)
    (same : ∀ linkifier ∈ linkifiers, SameTexts server client topic linkifier) :
    ∃ links selected urls, client.appliedMatches linkifiers topic =
        some ((selected ++ urls).mergeSort indexBefore) ∧
      links.map TopicLinkMatch.occurrence = server.foundTexts linkifiers topic ∧
      (∀ link ∈ links, link.index = link.start ∧ link.text ≠ [] ∧
        link.precedence.isSome = true) ∧
      selected = selectGreedily areMatchesOverlapping links ∧
      (∀ url ∈ urls, url.precedence = none) ∧
      DisjointSpans (selected ++ urls) ∧
      (linkifierOccurrences ((selected ++ urls).mergeSort indexBefore)).Perm
        (server.pickedTexts linkifiers topic) := by
  obtain ⟨links, isLinks, areTexts, ranked, recorded⟩ :=
    Client.linkifierLinks_spec sameExpand same 0
  obtain ⟨urls, isUrls, urlSpec, urlSorted⟩ := @Client.rawUrls_spec _ client topic
  have urlsFree : urls.Pairwise fun first second =>
      areMatchesOverlapping first second = false := by
    refine urlSorted.imp_of_mem fun {first second} isFirst isSecond before => ?_
    rw [← Bool.not_eq_true, areMatchesOverlapping_iff (urlSpec first isFirst).2.1
      (urlSpec second isSecond).2.1]
    omega
  have applied := @selectGreedily_append _ areMatchesOverlapping links urls urlsFree
  refine ⟨links, _, urls.filter (isFree areMatchesOverlapping
    (selectGreedily areMatchesOverlapping links)), ?_, areTexts, fun link member => ?_, rfl,
    fun url member => (urlSpec url (List.mem_filter.mp member).1).1, ?_, ?_⟩
  · rw [Client.appliedMatches, isLinks]
    simp only [bind, Option.bind, isUrls]
    rw [ranked.mergeSort_comesBefore, isOverlapping_eq, applied]
  · exact ⟨(recorded link member).1, (recorded link member).2, ranked.isSome member⟩
  · rw [← applied]
    -- The client keeps the places of the texts themselves.
    have exact' : ∀ link ∈ selectGreedily areMatchesOverlapping (links ++ urls),
        link.index = link.start ∧ link.text ≠ [] := by
      intro link member
      rcases List.mem_append.mp ((selectGreedily_sublist _ _).subset member) with isLink | isUrl
      · exact recorded link isLink
      · exact ⟨(urlSpec link isUrl).2.2, (urlSpec link isUrl).2.1⟩
    refine (selectGreedily_pairwise areMatchesOverlapping (links ++ urls)).imp_of_mem
      fun {first second} isFirst isSecond apart => ?_
    obtain ⟨firstIndex, firstText⟩ := exact' first isFirst
    obtain ⟨secondIndex, secondText⟩ := exact' second isSecond
    rw [TopicLinkMatch.disjoint_iff firstText secondText, ← Bool.not_eq_true,
      Occurrence.meets_iff]
    rw [← Bool.not_eq_true, areMatchesOverlapping_iff firstText secondText, firstIndex,
      secondIndex] at apart
    exact apart
  · rw [Server.pickedTexts, ← areTexts, ← selected_occurrences recorded]
    exact linkifierOccurrences_perm
      (fun link member => ranked.isSome ((selectGreedily_sublist _ _).subset member))
      fun url member => (urlSpec url (List.mem_filter.mp member).1).1

/-- Texts that are recorded apart have the order that is recorded. -/
theorem start_le_of_index_le {selected : List TopicLinkMatch}
    (recorded : ∀ link ∈ selected, link.index = link.start - 1 ∧ link.text ≠ [])
    (apart : selected.Pairwise fun first second => areMatchesOverlapping first second = false) :
    ∀ first ∈ selected, ∀ second ∈ selected, first.index ≤ second.index →
      first.start ≤ second.start := by
  intro first isFirst second isSecond before
  by_cases same : first = second
  · exact Nat.le_of_eq (by rw [same])
  · obtain ⟨firstIndex, firstText⟩ := recorded first isFirst
    obtain ⟨secondIndex, secondText⟩ := recorded second isSecond
    have isApart := of_pairwise areMatchesOverlapping_comm apart isFirst isSecond same
    rw [← Bool.not_eq_true, areMatchesOverlapping_iff firstText secondText] at isApart
    have long := List.length_pos_iff.mpr firstText
    have longSecond := List.length_pos_iff.mpr secondText
    omega

/-- Texts of which no two meet are told apart by where they start. -/
theorem eq_of_sorted {firsts seconds : List Occurrence} (perm : firsts.Perm seconds)
    (apart : seconds.Pairwise fun first second => first.meets second = false)
    (nonempty : ∀ text ∈ seconds, text.text ≠ [])
    (sorted : firsts.Pairwise fun first second => first.start ≤ second.start)
    (sortedSecond : seconds.Pairwise fun first second => first.start ≤ second.start) :
    firsts = seconds := by
  refine List.Perm.eq_of_pairwise (fun first second isFirst isSecond before after => ?_) sorted
    sortedSecond perm
  by_contra different
  have isApart := of_pairwise Occurrence.meets_comm apart (perm.subset isFirst) isSecond different
  have long := List.length_pos_iff.mpr (nonempty first (perm.subset isFirst))
  have longSecond := List.length_pos_iff.mpr (nonempty second isSecond)
  rw [← Bool.not_eq_true, Occurrence.meets_iff] at isApart
  omega

/-- With the same texts, the server's spans are disjoint when it sees all its raw URLs. -/
theorem disjointSpans_iff_urlsAreSeen {selected : List TopicLinkMatch} {picked : List Occurrence}
    (isPicked : selected.map TopicLinkMatch.occurrence = picked)
    (recorded : ∀ link ∈ selected, link.index = link.start - 1 ∧ link.text ≠ [])
    (apart : picked.Pairwise fun first second => first.meets second = false) :
    DisjointSpans (selected ++ (server.rawUrls topic.length 0 topic).filter
        (isFree areMatchesOverlapping selected)) ↔
      UrlsAreSeen picked (server.rawUrls topic.length 0 topic) := by
  obtain ⟨urlSpec, urlSorted⟩ := @Server.rawUrls_spec _ server topic.length 0 topic
  subst isPicked
  have overlaps : ∀ link ∈ selected, ∀ url ∈ server.rawUrls topic.length 0 topic,
      areMatchesOverlapping link url = true ↔
        link.occurrence.recorded.meets { url.occurrence with start := url.index } = true := by
    intro link isLink url isUrl
    obtain ⟨linkIndex, linkText⟩ := recorded link isLink
    rw [areMatchesOverlapping_iff linkText (urlSpec url isUrl).2.1, Occurrence.meets_iff, linkIndex]
    rfl
  constructor
  · rintro disjoint url isUrl ⟨text, isText, isMeeting⟩
    obtain ⟨link, isLink, rfl⟩ := List.mem_map.mp isText
    by_contra unseen
    have free : isFree areMatchesOverlapping selected url = true := by
      refine isFree_iff.mpr fun other isOther => ?_
      rw [← Bool.not_eq_true]
      exact fun isOverlapping => unseen ⟨other.occurrence, List.mem_map_of_mem isOther,
        (overlaps other isOther url isUrl).mp isOverlapping⟩
    have isDisjoint := (List.pairwise_append.mp disjoint).2.2 link isLink url
      (List.mem_filter.mpr ⟨isUrl, free⟩)
    rw [TopicLinkMatch.disjoint_iff (recorded link isLink).2 (urlSpec url isUrl).2.1,
      isMeeting] at isDisjoint
    cases isDisjoint
  · intro seen
    refine List.pairwise_append.mpr ⟨?_, ?_, ?_⟩
    · refine (List.pairwise_map.mp apart).imp_of_mem fun {first second} isFirst isSecond isApart => ?_
      exact (TopicLinkMatch.disjoint_iff (recorded first isFirst).2
        (recorded second isSecond).2).mpr isApart
    · refine (urlSorted.filter _).imp_of_mem fun {first second} isFirst isSecond before => ?_
      have secondSpec := urlSpec second (List.mem_filter.mp isSecond).1
      rintro position ⟨⟨-, inFirst⟩, inSecond, -⟩
      omega
    · intro link isLink url isUrl
      obtain ⟨isUrl, free⟩ := List.mem_filter.mp isUrl
      rw [TopicLinkMatch.disjoint_iff (recorded link isLink).2 (urlSpec url isUrl).2.1,
        ← Bool.not_eq_true]
      intro isMeeting
      obtain ⟨text, isText, isSeen⟩ :=
        seen url isUrl ⟨link.occurrence, List.mem_map_of_mem isLink, isMeeting⟩
      obtain ⟨other, isOther, rfl⟩ := List.mem_map.mp isText
      exact not_isFree isOther ((overlaps other isOther url isUrl).mpr isSeen) free

/-- The links agree, and are disjoint, exactly when no text that begins the topic is followed by
another one, and every raw URL that meets a text is seen to meet one. -/
theorem topicLinks_agree_iff (server : Server Groups) (client : Client Groups)
    (linkifiers : List Linkifier) (topic : Text)
    (sameExpand : ∀ template groups, client.expand template groups = server.expand template groups)
    (same : ∀ linkifier ∈ linkifiers, SameTexts server client topic linkifier) :
    LinksAgree server client linkifiers topic ↔
      NoneFollowsFirst (server.pickedTexts linkifiers topic) ∧
        UrlsAreSeen (server.pickedTexts linkifiers topic)
          (server.rawUrls topic.length 0 topic) := by
  obtain ⟨links, selected, urls, serverApplies, areTexts, recorded, isSelected, isUrls,
    serverTexts, serverPerm⟩ := Server.appliedMatches_spec same
  obtain ⟨clientLinks, clientSelected, clientUrls, clientApplies, -, exactly, isClientSelected,
    clientRaw, clientDisjoint, clientPerm⟩ := Client.appliedMatches_spec sameExpand same
  have selectedRecorded : ∀ link ∈ selected, link.index = link.start - 1 ∧ link.text ≠ [] ∧
      link.precedence.isSome = true := fun link member =>
    recorded link ((selectGreedily_sublist _ _).subset (isSelected ▸ member))
  have clientExactly : ∀ link ∈ clientSelected, link.index = link.start ∧ link.text ≠ [] ∧
      link.precedence.isSome = true := fun link member =>
    exactly link ((selectGreedily_sublist _ _).subset (isClientSelected ▸ member))
  have foundNonempty : ∀ text ∈ server.foundTexts linkifiers topic, text.text ≠ [] := by
    rw [← areTexts]
    intro text member
    obtain ⟨link, isLink, rfl⟩ := List.mem_map.mp member
    exact (recorded link isLink).2.1
  have nonempty : ∀ text ∈ server.pickedTexts linkifiers topic, text.text ≠ [] :=
    fun text member => foundNonempty text ((selectGreedily_sublist _ _).subset member)
  have apart := selectGreedily_pairwise Occurrence.meets (server.foundTexts linkifiers topic)
  have serverRaw : ∀ url ∈ urls, url.precedence = none := by
    rw [isUrls]
    exact fun url member =>
      (Server.rawUrls_spec topic.length 0 topic |>.1 url (List.mem_filter.mp member).1).1
  have samePicked : NoneFollowsFirst (server.pickedTexts linkifiers topic) →
      selected.map TopicLinkMatch.occurrence = server.pickedTexts linkifiers topic := by
    intro noneFollows
    rw [serverTexts]
    refine (selectGreedily_eq_iff fun old isOld candidate isCandidate isMeeting => ?_).mpr
      ((picked_pairwise_recorded_iff apart nonempty).mpr noneFollows)
    exact Occurrence.recordedMeets_of_meets isMeeting (foundNonempty old isOld)
      (foundNonempty candidate isCandidate)
  have disjoint_iff := fun noneFollows => @disjointSpans_iff_urlsAreSeen _ server topic _ _
    (samePicked noneFollows) (fun link member =>
      ⟨(selectedRecorded link member).1, (selectedRecorded link member).2.1⟩) apart
  constructor
  · rintro ⟨serverMatches, clientMatches, isServer, isClient, agree, serverDisjoint, -⟩
    rw [serverApplies] at isServer
    rw [clientApplies] at isClient
    cases isServer
    cases isClient
    rw [agree, serverTexts] at serverPerm
    have recordedApart := ((serverPerm.symm.trans clientPerm).pairwise_iff
      fun {first second} isApart => by rwa [Occurrence.recordedMeets_comm]).mp
        (selectGreedily_pairwise Occurrence.recordedMeets (server.foundTexts linkifiers topic))
    have noneFollows := (picked_pairwise_recorded_iff apart nonempty).mp recordedApart
    exact ⟨noneFollows, (disjoint_iff noneFollows).mp
      (isUrls ▸ disjointSpans_mergeSort.mp serverDisjoint)⟩
  · rintro ⟨noneFollows, seen⟩
    rw [samePicked noneFollows] at serverPerm
    refine ⟨_, _, serverApplies, clientApplies, ?_, disjointSpans_mergeSort.mpr
      (isUrls ▸ (disjoint_iff noneFollows).mpr seen), disjointSpans_mergeSort.mpr clientDisjoint⟩
    refine eq_of_sorted (serverPerm.trans clientPerm.symm)
      ((clientPerm.pairwise_iff fun {first second} isApart => by
        rwa [Occurrence.meets_comm]).mpr apart)
      (fun text member => nonempty text (clientPerm.subset member))
      (linkifierOccurrences_sorted serverRaw (start_le_of_index_le
        (fun link member => ⟨(selectedRecorded link member).1, (selectedRecorded link member).2.1⟩)
        (isSelected ▸ selectGreedily_pairwise _ _)))
      (linkifierOccurrences_sorted clientRaw fun first isFirst second isSecond before => ?_)
    rwa [(clientExactly first isFirst).1, (clientExactly second isSecond).1] at before

end Agreement

/-! ## Linkifiers that are plain texts -/

/-- A character that may come before a linkifier. -/
def opensLinkifier (c : Char) : Bool := c.isWhitespace || c ∈ ['\'', '"', '(', ',', ':', '<']

/-- What a plain text matches on the server. -/
def plainServerMatch (text topic : Text) (position : Nat) : Option (ServerMatch Unit) :=
  let endsAfter (rest : Text) : Bool := ((rest.drop text.length).head?.all fun c => !c.isAlphanum)
  if position = 0 && text.isPrefixOf topic && endsAfter topic then
    some ⟨[], text, (topic.drop text.length).take 1, ()⟩
  else
    match topic.drop position with
    | [] => none
    | c :: rest =>
        if opensLinkifier c && text.isPrefixOf rest && endsAfter rest then
          some ⟨[c], text, (rest.drop text.length).take 1, ()⟩
        else none

/-- What a plain text matches in the client. -/
def plainClientMatch (text topic : Text) (position : Nat) : Option (ClientMatch Unit) :=
  let rest := topic.drop position
  if text.isPrefixOf rest && (rest.drop text.length).head?.all fun c => !(c.isAlphanum || c == '_')
  then some ⟨text, ()⟩
  else none

theorem length_of_isPrefixOf {text rest : Text} (isPrefix : text.isPrefixOf rest = true) :
    text.length + ((rest.drop text.length).take 1).length ≤ rest.length := by
  have shorter := (List.isPrefixOf_iff_prefix.mp isPrefix).length_le
  rw [List.length_take, List.length_drop]
  omega

theorem plainServerMatch_spec {text topic : Text} {position : Nat} {found : ServerMatch Unit}
    (isFound : plainServerMatch text topic position = some found) :
    ((position = 0 ∧ found.before = []) ∨ found.before.length = 1) ∧
      position + found.before.length + found.text.length + found.after.length ≤ topic.length := by
  unfold plainServerMatch at isFound
  dsimp only at isFound
  split_ifs at isFound with atStart
  · simp only [Bool.and_eq_true, decide_eq_true_eq] at atStart
    obtain ⟨⟨rfl, isPrefix⟩, -⟩ := atStart
    cases isFound
    have shorter := length_of_isPrefixOf isPrefix
    exact ⟨.inl ⟨rfl, rfl⟩, by simpa using shorter⟩
  · cases isRest : topic.drop position with
    | nil =>
        rw [isRest] at isFound
        cases isFound
    | cons c rest =>
        rw [isRest] at isFound
        dsimp only at isFound
        split_ifs at isFound with isMatch
        simp only [Bool.and_eq_true] at isMatch
        cases isFound
        have shorter := length_of_isPrefixOf isMatch.1.2
        have lengths := congrArg List.length isRest
        rw [List.length_drop, List.length_cons] at lengths
        refine ⟨.inr rfl, ?_⟩
        simp only [List.length_singleton]
        omega

/-- A server that knows some plain texts, for topics without URLs. -/
def plainServer (texts : List String) : Server Unit where
  compile prepared :=
    (texts.find? fun text => prepareLinkifierPattern text = prepared).map fun text =>
      plainServerMatch text.toList
  expand template _ := template
  webLink _ := none
  linkUrl := String.ofList
  before_of_match source matchAt topic position found compiles isFound := by
    obtain ⟨text, -, rfl⟩ := Option.map_eq_some_iff.mp compiles
    exact (plainServerMatch_spec isFound).1
  match_inside source matchAt topic position found compiles isFound := by
    obtain ⟨text, -, rfl⟩ := Option.map_eq_some_iff.mp compiles
    exact (plainServerMatch_spec isFound).2
  webLink_inside _ _ _ isUrl := by cases isUrl

def plainClient (texts : List String) : Client Unit where
  compile pattern := if pattern ∈ texts then some (plainClientMatch pattern.toList) else none
  expand template _ := template
  urlRe _ _ := none
  urlRe_inside _ _ _ isUrl := by cases isUrl

def ticketLinkifiers : List Linkifier :=
  [⟨"ticket:", "https://example.com/tickets"⟩, ⟨"#12", "https://example.com/tickets/12"⟩]

/-- Both sides find the two texts of the topic "ticket:#12". -/
theorem sameTexts_ticket : ∀ linkifier ∈ ticketLinkifiers,
    SameTexts (plainServer ["ticket:", "#12"]) (plainClient ["ticket:", "#12"]) "ticket:#12".toList
      linkifier := by
  intro linkifier member
  simp only [ticketLinkifiers, List.mem_cons, List.not_mem_nil, or_false] at member
  rcases member with rfl | rfl
  · exact ⟨[(0, ⟨[], "ticket:".toList, ['#'], ()⟩)], by decide +kernel, by decide +kernel⟩
  · exact ⟨[(6, ⟨[':'], "#12".toList, [], ()⟩)], by decide +kernel, by decide +kernel⟩

/-- With a word in between, both sides find the same, and nothing is lost. -/
theorem sameTexts_ticket_word : ∀ linkifier ∈ ticketLinkifiers,
    SameTexts (plainServer ["ticket:", "#12"]) (plainClient ["ticket:", "#12"])
      "ticket: #12".toList linkifier := by
  intro linkifier member
  simp only [ticketLinkifiers, List.mem_cons, List.not_mem_nil, or_false] at member
  rcases member with rfl | rfl
  · exact ⟨[(0, ⟨[], "ticket:".toList, [' '], ()⟩)], by decide +kernel, by decide +kernel⟩
  · exact ⟨[(7, ⟨[' '], "#12".toList, [], ()⟩)], by decide +kernel, by decide +kernel⟩

theorem topicLinks_agree_iff_ticket_word :
    LinksAgree (plainServer ["ticket:", "#12"]) (plainClient ["ticket:", "#12"]) ticketLinkifiers
        "ticket: #12".toList ↔
      NoneFollowsFirst ((plainServer ["ticket:", "#12"]).pickedTexts ticketLinkifiers
          "ticket: #12".toList) ∧
        UrlsAreSeen ((plainServer ["ticket:", "#12"]).pickedTexts ticketLinkifiers
            "ticket: #12".toList)
          ((plainServer ["ticket:", "#12"]).rawUrls "ticket: #12".toList.length 0
            "ticket: #12".toList) :=
  topicLinks_agree_iff _ _ _ _ (fun _ _ => rfl) sameTexts_ticket_word

/-- The server drops the link of "#12" in "ticket:#12". -/
theorem topicLinks_disagree_ticket :
    ¬∀ (server : Server Unit) (client : Client Unit) (linkifiers : List Linkifier) (topic : Text),
      (∀ template groups, client.expand template groups = server.expand template groups) →
        (∀ linkifier ∈ linkifiers, SameTexts server client topic linkifier) →
          LinksAgree server client linkifiers topic := by
  intro always
  obtain ⟨serverMatches, clientMatches, isServer, isClient, agree, -⟩ :=
    always (plainServer ["ticket:", "#12"]) (plainClient ["ticket:", "#12"]) ticketLinkifiers
      "ticket:#12".toList (fun _ _ => rfl) sameTexts_ticket
  obtain ⟨_, _, _, serverApplies, -, -, -, -, serverTexts, serverPerm⟩ :=
    Server.appliedMatches_spec sameTexts_ticket
  obtain ⟨_, _, _, clientApplies, -, -, -, -, -, clientPerm⟩ :=
    Client.appliedMatches_spec (fun _ _ => rfl) sameTexts_ticket
  rw [isServer] at serverApplies
  rw [isClient] at clientApplies
  cases serverApplies
  cases clientApplies
  rw [agree, serverTexts] at serverPerm
  have sameLength := (serverPerm.symm.trans clientPerm).length_eq
  revert sameLength
  decide +kernel

end Zulip.Markdown
