import Zulip.Client.NarrowUrlRoundTrip

/-!
# Links that the server makes

The narrow URLs of `url_encoding.py`, as the web client reads them. The server percent-quotes with
other exceptions than the client, but what it writes is one more encoding that the client's decoder
undoes; slugs are read by the ids at their start.
-/

namespace Zulip.Client.ServerLinks

open Zulip.Foundation
open Zulip.Client.NarrowUrl

/-! ## The server's URLs -/

/-- The characters that `quote` leaves as they are, with `safe` empty. -/
def isQuoteSafe (c : Char) : Bool := c.isAlphanum || ['_', '.', '-', '~'].contains c

/-- `quote(string, safe=b"")`. -/
def quote (string : Text) : Text := PercentEncoding.encode isQuoteSafe string

/-- `str.replace`, of one character. -/
def replace (string : Text) (old : Char) (new : Text) : Text :=
  string.flatMap fun c => if c = old then new else [c]

/-- `hash_util_encode`. -/
def hashUtilEncode (string : Text) : Text :=
  replace (replace (quote string) '.' "%2E".toList) '%' ['.']

/-- `encode_stream`. -/
def encodeStream (streamId : Nat) (streamName : Text) : Text :=
  Nat.toDigits 10 streamId ++ '-' :: hashUtilEncode (replace streamName ' ' ['-'])

/-- `stream_narrow_url`. -/
def streamNarrowUrl (realmUrl : Text) (stream : StreamSubscription) : Text :=
  realmUrl ++ "/#narrow/stream/".toList ++ encodeStream stream.streamId stream.name

/-- `topic_narrow_url`. -/
def topicNarrowUrl (realmUrl : Text) (stream : StreamSubscription) (topicName : Text) : Text :=
  realmUrl ++ "/#narrow/stream/".toList ++ encodeStream stream.streamId stream.name ++
    "/topic/".toList ++ hashUtilEncode topicName

/-- `near_stream_message_url`, of a message of the stream. -/
def nearStreamMessageUrl (realmUrl : Text) (stream : StreamSubscription) (topicName : Text)
    (messageId : Nat) : Text :=
  ['/'].intercalate
    [realmUrl, "#narrow".toList, "stream".toList, encodeStream stream.streamId stream.name,
      "topic".toList, hashUtilEncode topicName, "near".toList, Nat.toDigits 10 messageId]

/-- `near_pm_message_url`, of a message with these recipients. -/
def nearPmMessageUrl (realmUrl : Text) (recipientIds : List Nat) (messageId : Nat) : Text :=
  let strUserIds := recipientIds.map (Nat.toDigits 10)
  let pmStr := [','].intercalate strUserIds ++ "-pm".toList
  ['/'].intercalate
    [realmUrl, "#narrow".toList, "dm".toList, pmStr, "near".toList, Nat.toDigits 10 messageId]

/-- `direct_message_group_narrow_url`, for the given user. -/
def directMessageGroupNarrowUrl (realmUrl : Text) (userId : Nat) (recipientIds : List Nat) : Text :=
  let otherUserIds := recipientIds.filter fun id => id != userId
  let pmSlug := [','].intercalate
    ((otherUserIds.mergeSort fun left right => left ≤ right).map (Nat.toDigits 10)) ++
      "-group".toList
  realmUrl ++ "/#narrow/dm/".toList ++ pmSlug

/-- The part of a URL from the number sign on, `window.location.hash`. -/
def hashPart (url : Text) : Text := url.dropWhile fun c => c != '#'

/-! ## What a link is for -/

/-- The conversations that the server links to. -/
inductive ServerLink
  | stream (stream : StreamSubscription)
  | topic (stream : StreamSubscription) (topicName : Text)
  | nearStream (stream : StreamSubscription) (topicName : Text) (messageId : Nat)
  | nearPm (recipientIds : List Nat) (messageId : Nat)
  | group (recipientIds : List Nat)

/-- The URL of a link that is made for the given user. -/
def ServerLink.url (realmUrl : Text) (userId : Nat) : ServerLink → Text
  | .stream sub => streamNarrowUrl realmUrl sub
  | .topic sub topicName => topicNarrowUrl realmUrl sub topicName
  | .nearStream sub topicName messageId =>
      nearStreamMessageUrl realmUrl sub topicName messageId
  | .nearPm recipientIds messageId => nearPmMessageUrl realmUrl recipientIds messageId
  | .group recipientIds => directMessageGroupNarrowUrl realmUrl userId recipientIds

/-- A term that a link should be read as. -/
inductive ExpectedTerm
  | text (operator operand : Text)
  | users (userIds : List Nat)

/-- The users of a conversation, without the current one when there are others. -/
def conversationUsers (myUserId : Nat) (recipientIds : List Nat) : List Nat :=
  if ∃ id ∈ recipientIds, id ≠ myUserId then recipientIds.filter fun id => id != myUserId
  else recipientIds

/-- The terms that a link should be read as. -/
def ServerLink.expected (myUserId : Nat) : ServerLink → List ExpectedTerm
  | .stream sub => [.text "stream".toList sub.name]
  | .topic sub topicName => [.text "stream".toList sub.name, .text "topic".toList topicName]
  | .nearStream sub topicName messageId =>
      [.text "stream".toList sub.name, .text "topic".toList topicName,
        .text "near".toList (Nat.toDigits 10 messageId)]
  | .nearPm recipientIds messageId =>
      [.users (conversationUsers myUserId recipientIds),
        .text "near".toList (Nat.toDigits 10 messageId)]
  | .group recipientIds => [.users (conversationUsers myUserId recipientIds)]

section Links

variable {folding : CaseFolding} (people : People folding) (streams : Streams folding)

/-- Streams and users of the link are known to the client. -/
def ServerLink.Known : ServerLink → Prop
  | .stream sub => streams.subStore sub.streamId = some sub
  | .topic sub topicName =>
      streams.subStore sub.streamId = some sub ∧ topicName ≠ []
  | .nearStream sub topicName _ =>
      streams.subStore sub.streamId = some sub ∧ topicName ≠ []
  | .nearPm recipientIds _ | .group recipientIds =>
      recipientIds ≠ [] ∧ recipientIds.Nodup ∧
        ∀ id ∈ recipientIds, (people.peopleByUserIdDict id).isSome = true

/-- The links that are read as they should be: the stream's name has no line terminator, and a
group link has somebody to name. -/
def ServerLink.Readable : ServerLink → Prop
  | .stream sub | .topic sub _ | .nearStream sub _ _ => StreamNameOnOneLine sub.name
  | .nearPm _ _ => True
  | .group recipientIds => ∃ id ∈ recipientIds, id ≠ people.myUserId

/-- A term is read as expected; users are compared as a set. -/
def ReadsAs : ExpectedTerm → NarrowTerm → Prop
  | .text operator operand, term => term = ⟨false, operator, operand⟩
  | .users userIds, term =>
      term.negated = false ∧ term.operator = "dm".toList ∧
        ((term.operand.splitOn ',').map (getByEmail people)).Perm
          (userIds.map people.peopleByUserIdDict)

end Links

/-! ## Hash components -/

/-- The characters that the server's hash components leave as they are. -/
def isServerSafe (c : Char) : Bool := isQuoteSafe c && c != '.'

/-- The two replacements that follow the quoting. -/
def hashCharacters (quoted : Text) : Text :=
  quoted.flatMap fun c =>
    (if c = '.' then "%2E".toList else [c]).flatMap fun c => if c = '%' then ['.'] else [c]

theorem hashCharacters_append (first second : Text) :
    hashCharacters (first ++ second) = hashCharacters first ++ hashCharacters second :=
  List.flatMap_append

theorem hexDigits_plain : ∀ c ∈ PercentEncoding.hexDigits, c ≠ '.' ∧ c ≠ '%' := by
  decide

theorem map_hashCharacters_escapeByte (byte : UInt8) :
    (hashCharacters (PercentEncoding.escapeByte byte)).map dotToPercent =
      PercentEncoding.escapeByte byte := by
  have bound : byte.toNat < 256 := byte.toNat_lt
  have high := hexDigits_plain (PercentEncoding.hexDigit (byte.toNat / 16))
    (PercentEncoding.hexDigit_mem_hexDigits (by omega))
  have low := hexDigits_plain (PercentEncoding.hexDigit (byte.toNat % 16))
    (PercentEncoding.hexDigit_mem_hexDigits (by omega))
  simp [hashCharacters, PercentEncoding.escapeByte, dotToPercent, high, low]

theorem map_hashUtilEncode (string : Text) :
    (hashUtilEncode string).map dotToPercent = PercentEncoding.encode isServerSafe string := by
  unfold hashUtilEncode replace quote PercentEncoding.encode
  rw [List.flatMap_assoc, List.flatMap_assoc, List.map_flatMap]
  refine List.flatMap_congr fun c _ => ?_
  rw [← hashCharacters]
  by_cases dot : c = '.'
  · subst c
    decide
  have sameSafe : isServerSafe c = isQuoteSafe c := by simp [isServerSafe, dot]
  unfold PercentEncoding.encodeChar
  rw [sameSafe]
  split_ifs with safe
  · have notPercent : c ≠ '%' := by
      rintro rfl
      exact absurd safe (by decide)
    simp [hashCharacters, dotToPercent, dot, notPercent]
  · unfold PercentEncoding.escapeChar
    induction String.utf8EncodeChar c with
    | nil => rfl
    | cons byte bytes inductionHypothesis =>
        rw [List.flatMap_cons, hashCharacters_append, List.map_append, inductionHypothesis,
          map_hashCharacters_escapeByte]

theorem decodeHashComponent_hashUtilEncode (string : Text) :
    decodeHashComponent (hashUtilEncode string) = .ok string := by
  have decoded :
      PercentEncoding.decode ((hashUtilEncode string).map dotToPercent) = some string := by
    rw [map_hashUtilEncode]
    exact PercentEncoding.decode_encode (by decide) string
  unfold decodeHashComponent decodeURIComponent
  rw [decoded]

theorem hashUtilEncode_append (first second : Text) :
    hashUtilEncode (first ++ second) = hashUtilEncode first ++ hashUtilEncode second := by
  simp [hashUtilEncode, replace, quote, PercentEncoding.encode]

/-- Plain characters are written as they are. -/
theorem hashUtilEncode_eq_self {text : Text} (plain : ∀ c ∈ text, isServerSafe c = true) :
    hashUtilEncode text = text := by
  have safe : ∀ c ∈ text, isQuoteSafe c = true := by
    intro c member
    have kept := plain c member
    simp only [isServerSafe, Bool.and_eq_true] at kept
    exact kept.1
  have unchanged : ∀ {old : Char} {new : Text}, old ∉ text → replace text old new = text := by
    intro old new absent
    refine (List.flatMap_congr fun c member => ?_).trans (List.flatMap_singleton' text)
    rw [if_neg]
    rintro rfl
    exact absent member
  unfold hashUtilEncode quote
  rw [PercentEncoding.encode_eq_self safe, unchanged, unchanged]
  · intro percent
    exact absurd (safe '%' percent) (by decide)
  · intro dot
    exact absurd (plain '.' dot) (by decide)

/-- Every character of a hash component is one that needs no quoting. -/
theorem quoteSafe_of_mem_hashUtilEncode {string : Text} {c : Char}
    (member : c ∈ hashUtilEncode string) : isQuoteSafe c = true := by
  obtain ⟨source, undotted, isPercent⟩ := List.mem_flatMap.mp member
  split_ifs at isPercent with percent
  · rw [List.mem_singleton.mp isPercent]
    decide
  rw [List.mem_singleton] at isPercent
  subst isPercent
  obtain ⟨quoted, inQuoted, isDot⟩ := List.mem_flatMap.mp undotted
  split_ifs at isDot with dot
  · have replaced : ∀ c ∈ "%2E".toList, c ≠ '%' → isQuoteSafe c = true := by decide
    exact replaced c isDot percent
  rw [List.mem_singleton] at isDot
  subst isDot
  rcases PercentEncoding.mem_encode inQuoted with ⟨kept, -⟩ | isPercent | digit
  · exact kept
  · exact absurd isPercent percent
  · have digitsSafe : ∀ c ∈ PercentEncoding.hexDigits, isQuoteSafe c = true := by decide
    exact digitsSafe c digit

theorem hashUtilEncode_ne_nil {string : Text} (nonempty : string ≠ []) :
    hashUtilEncode string ≠ [] := by
  intro empty
  have decoded := decodeHashComponent_hashUtilEncode string
  rw [empty] at decoded
  cases decoded
  exact nonempty rfl

/-! ## Slugs -/

theorem serverSafe_of_mem_toDigits {number : Nat} {c : Char}
    (member : c ∈ Nat.toDigits 10 number) : isServerSafe c = true := by
  have digit := isDigit_of_mem_toDigits member
  have notDot : c ≠ '.' := by
    rintro rfl
    exact absurd digit (by decide)
  simp [isServerSafe, isQuoteSafe, Char.isAlphanum, digit, notDot]

/-- A stream's slug is encoded as a whole, since its id needs no quoting. -/
theorem encodeStream_eq (streamId : Nat) (streamName : Text) :
    encodeStream streamId streamName =
      hashUtilEncode (Nat.toDigits 10 streamId ++ '-' :: dashSpaces streamName) := by
  have dashed : replace streamName ' ' ['-'] = dashSpaces streamName := by
    unfold replace dashSpaces
    induction streamName with
    | nil => rfl
    | cons c streamName inductionHypothesis =>
        rw [List.flatMap_cons, List.map_cons, inductionHypothesis]
        split_ifs <;> rfl
  have dash : '-' :: dashSpaces streamName = ['-'] ++ dashSpaces streamName := rfl
  have idWritten : hashUtilEncode (Nat.toDigits 10 streamId) = Nat.toDigits 10 streamId :=
    hashUtilEncode_eq_self fun c member => serverSafe_of_mem_toDigits member
  have dashWritten : hashUtilEncode ['-'] = ['-'] := hashUtilEncode_eq_self (by decide)
  unfold encodeStream
  rw [dashed, dash, hashUtilEncode_append, hashUtilEncode_append, idWritten, dashWritten]
  rfl

section Links

variable {folding : CaseFolding} (people : People folding) (streams : Streams folding)

/-- An operand that is no user's is decoded, and a stream's is looked up. -/
theorem decodeOperand_of_decode {operator raw text : Text} (notUser : operator ∉ userOperators)
    (decodes : decodeHashComponent raw = .ok text) :
    decodeOperand people streams operator raw =
      .ok (if canonicalizeStreamSynonyms folding operator = "stream".toList then
        slugToName streams text else text) := by
  simp only [decodeOperand, if_neg notUser, Option.filter, decodes]
  split_ifs <;> rfl

theorem decodeOperand_stream {sub : StreamSubscription}
    (known : streams.subStore sub.streamId = some sub) :
    decodeOperand people streams "stream".toList (encodeStream sub.streamId sub.name) =
      .ok (if StreamNameOnOneLine sub.name then sub.name else nameToSlug streams sub.name) := by
  have canonical : canonicalizeStreamSynonyms folding "stream".toList = "stream".toList := by
    have lowered : folding.lower "stream".toList = "stream".toList :=
      folding.lower_ascii _ (by decide)
    unfold canonicalizeStreamSynonyms
    rw [lowered]
    decide
  have decodes := decodeHashComponent_hashUtilEncode
    (Nat.toDigits 10 sub.streamId ++ '-' :: dashSpaces sub.name)
  rw [← encodeStream_eq, ← nameToSlug_of_known streams known] at decodes
  rw [decodeOperand_of_decode people streams (by decide) decodes, if_pos canonical,
    slugToName_nameToSlug streams known]

/-- Topics and message ids are read as they are. -/
theorem decodeOperand_plain {operator : Text} (notUser : operator ∉ userOperators)
    (plain : (operator.all fun c => c.toNat < 128 && !c.isUpper) = true)
    (notSynonym : operator ∉ ["channel".toList, "channels".toList, "stream".toList])
    (text : Text) :
    decodeOperand people streams operator (hashUtilEncode text) = .ok text := by
  simp only [List.mem_cons, List.not_mem_nil, or_false, not_or] at notSynonym
  have canonical : canonicalizeStreamSynonyms folding operator ≠ "stream".toList := by
    unfold canonicalizeStreamSynonyms
    rw [folding.lower_ascii operator plain]
    simp only [isStreamSynonym, isStreamsSynonym, decide_eq_true_eq, if_neg notSynonym.1,
      if_neg notSynonym.2.1]
    exact notSynonym.2.2
  rw [decodeOperand_of_decode people streams notUser (decodeHashComponent_hashUtilEncode text),
    if_neg canonical]

theorem hashUtilEncode_toDigits (number : Nat) :
    hashUtilEncode (Nat.toDigits 10 number) = Nat.toDigits 10 number :=
  hashUtilEncode_eq_self fun _ member => serverSafe_of_mem_toDigits member

theorem joinInts_map_some (ids : List Nat) :
    [','].intercalate (ids.map (Nat.toDigits 10)) = joinInts (ids.map some) := by
  unfold joinInts
  rw [List.map_map]
  rfl

/-- A list of known ids is read as the users it leaves when the current one is excluded. -/
theorem decodeOperand_ids {ids : List Nat} (suffix : Text) (nonempty : ids ≠ [])
    (left : idsWithoutMe people ids ≠ [])
    (known : ∀ id ∈ ids, (people.peopleByUserIdDict id).isSome = true) :
    ∃ emails, decodeOperand people streams "dm".toList
        (joinInts (ids.map some) ++ '-' :: suffix) = .ok emails ∧
      ((emails.splitOn ',').map (getByEmail people)).Perm
        ((idsWithoutMe people ids).map people.peopleByUserIdDict) := by
  have knownLeft : ∀ id ∈ idsWithoutMe people ids,
      (people.peopleByUserIdDict id).isSome = true := by
    intro id member
    refine known id ?_
    unfold idsWithoutMe at member
    split_ifs at member
    · exact member
    · exact List.mem_of_mem_filter member
  obtain ⟨users, areUsers⟩ := exists_values knownLeft
  obtain ⟨emails, read, emailsNonempty, permutation⟩ :=
    userIdsStringToEmailsString_known people left areUsers
  refine ⟨emails, ?_, areUsers ▸ permutation⟩
  exact decodeOperand_of_emails people streams (by decide)
    ((slugToEmails_slug people nonempty suffix).trans read) emailsNonempty

/-! ## Conversations -/

theorem idsWithoutMe_eq_conversationUsers {ids : List Nat} (nodup : ids.Nodup) :
    idsWithoutMe people ids = conversationUsers people.myUserId ids := by
  unfold idsWithoutMe conversationUsers
  rcases ids with _ | ⟨first, _ | ⟨second, more⟩⟩
  · simp
  · by_cases other : first = people.myUserId
    · simp [other]
    · simp [other]
  · have someOther : ∃ id ∈ first :: second :: more, id ≠ people.myUserId := by
      by_cases other : first = people.myUserId
      · refine ⟨second, by simp, ?_⟩
        rintro rfl
        rw [other] at nodup
        exact (List.nodup_cons.mp nodup).1 List.mem_cons_self
      · exact ⟨first, by simp, other⟩
    rw [if_pos someOther, if_neg (by simp)]

theorem conversationUsers_ne_nil {myUserId : Nat} {ids : List Nat} (nonempty : ids ≠ []) :
    conversationUsers myUserId ids ≠ [] := by
  unfold conversationUsers
  split_ifs with someOther
  · obtain ⟨id, member, other⟩ := someOther
    intro empty
    have kept : id ∈ ids.filter fun id => id != myUserId :=
      List.mem_filter.mpr ⟨member, by simpa using other⟩
    rw [empty] at kept
    cases kept
  · exact nonempty

/-- A message's recipients are read as its conversation. -/
theorem decodeOperand_nearPm {ids : List Nat} (nonempty : ids ≠ []) (nodup : ids.Nodup)
    (known : ∀ id ∈ ids, (people.peopleByUserIdDict id).isSome = true) :
    ∃ emails, decodeOperand people streams "dm".toList
        ([','].intercalate (ids.map (Nat.toDigits 10)) ++ "-pm".toList) = .ok emails ∧
      ((emails.splitOn ',').map (getByEmail people)).Perm
        ((conversationUsers people.myUserId ids).map people.peopleByUserIdDict) := by
  have same := idsWithoutMe_eq_conversationUsers people nodup
  have left : idsWithoutMe people ids ≠ [] := by
    rw [same]
    exact conversationUsers_ne_nil nonempty
  obtain ⟨emails, read, permutation⟩ :=
    decodeOperand_ids people streams "pm".toList nonempty left known
  refine ⟨emails, ?_, same ▸ permutation⟩
  rw [joinInts_map_some]
  exact read

/-- The ids of a group link, in the order of the slug. -/
def groupIds (userId : Nat) (recipientIds : List Nat) : List Nat :=
  (recipientIds.filter fun id => id != userId).mergeSort fun left right => left ≤ right

/-- A group link with somebody to name is read as its conversation. -/
theorem decodeOperand_group {ids : List Nat}
    (known : ∀ id ∈ ids, (people.peopleByUserIdDict id).isSome = true)
    (someOther : ∃ id ∈ ids, id ≠ people.myUserId) :
    ∃ emails, decodeOperand people streams "dm".toList
        ([','].intercalate ((groupIds people.myUserId ids).map (Nat.toDigits 10)) ++
          "-group".toList) = .ok emails ∧
      ((emails.splitOn ',').map (getByEmail people)).Perm
        ((conversationUsers people.myUserId ids).map people.peopleByUserIdDict) := by
  have sorted : (groupIds people.myUserId ids).Perm
      (conversationUsers people.myUserId ids) := by
    rw [conversationUsers, if_pos someOther]
    exact List.mergeSort_perm _ _
  have others : ∀ id ∈ groupIds people.myUserId ids, id ∈ ids ∧ id ≠ people.myUserId := by
    intro id member
    have kept := (List.mergeSort_perm _ _).mem_iff.mp member
    rw [List.mem_filter] at kept
    exact ⟨kept.1, by simpa using kept.2⟩
  have nonempty : groupIds people.myUserId ids ≠ [] := by
    obtain ⟨id, member, -⟩ := someOther
    intro empty
    rw [empty] at sorted
    exact conversationUsers_ne_nil (List.ne_nil_of_mem member) sorted.symm.eq_nil
  have withoutMe : idsWithoutMe people (groupIds people.myUserId ids) =
      groupIds people.myUserId ids := by
    unfold idsWithoutMe
    split_ifs
    · rfl
    · rw [List.filter_eq_self]
      intro id member
      simpa using (others id member).2
  obtain ⟨emails, read, permutation⟩ :=
    decodeOperand_ids people streams "group".toList nonempty (by rwa [withoutMe])
      fun id member => known id (others id member).1
  rw [withoutMe] at permutation
  refine ⟨emails, ?_, permutation.trans (sorted.map _)⟩
  rw [joinInts_map_some]
  exact read

/-- A group link with nobody to name is read as the text of its slug. -/
theorem decodeOperand_emptyGroup {ids : List Nat}
    (nobodyElse : ¬ ∃ id ∈ ids, id ≠ people.myUserId) :
    decodeOperand people streams "dm".toList
        ([','].intercalate ((groupIds people.myUserId ids).map (Nat.toDigits 10)) ++
          "-group".toList) = .ok "-group".toList := by
  have noIds : groupIds people.myUserId ids = [] := by
    have nothing : (ids.filter fun id => id != people.myUserId) = [] := by
      rw [List.filter_eq_nil_iff]
      intro id member
      by_contra other
      exact nobodyElse ⟨id, member, by simpa using other⟩
    rw [groupIds, nothing, List.mergeSort_nil]
  have noSlug : slugToEmails people "-group".toList = none := by
    have noPrefix : "-group".toList.takeWhile isIdOrComma = [] := by decide
    simp only [slugToEmails, noPrefix, if_true]
  rw [noIds]
  exact (decodeOperand_of_no_emails people streams (by decide) noSlug).trans rfl

/-- The text of an empty group slug names nobody. -/
theorem getByEmail_group : getByEmail people "-group".toList = none := by
  refine getByEmail_of_noAt people ?_
  rw [folding.lower_ascii _ (by decide)]
  decide

/-! ## Whole links -/

/-- The components of a link's hash behind the first one. -/
def ServerLink.components (userId : Nat) : ServerLink → List Text
  | .stream sub => ["stream".toList, encodeStream sub.streamId sub.name]
  | .topic sub topicName =>
      ["stream".toList, encodeStream sub.streamId sub.name, "topic".toList,
        hashUtilEncode topicName]
  | .nearStream sub topicName messageId =>
      ["stream".toList, encodeStream sub.streamId sub.name, "topic".toList,
        hashUtilEncode topicName, "near".toList, Nat.toDigits 10 messageId]
  | .nearPm recipientIds messageId =>
      ["dm".toList, [','].intercalate (recipientIds.map (Nat.toDigits 10)) ++ "-pm".toList,
        "near".toList, Nat.toDigits 10 messageId]
  | .group recipientIds =>
      ["dm".toList, [','].intercalate ((groupIds userId recipientIds).map (Nat.toDigits 10)) ++
        "-group".toList]

theorem url_eq_components (realmUrl : Text) (userId : Nat) (link : ServerLink) :
    link.url realmUrl userId = realmUrl ++ '/' :: ("#narrow".toList ++
      (link.components userId).flatMap fun component => '/' :: component) := by
  cases link with
  | stream sub => simp [ServerLink.url, ServerLink.components, streamNarrowUrl]
  | topic sub topicName => simp [ServerLink.url, ServerLink.components, topicNarrowUrl]
  | nearStream sub topicName messageId =>
      simp [ServerLink.url, ServerLink.components, nearStreamMessageUrl,
        List.intercalate_cons_cons]
  | nearPm recipientIds messageId =>
      simp [ServerLink.url, ServerLink.components, nearPmMessageUrl, List.intercalate_cons_cons]
  | group recipientIds =>
      simp [ServerLink.url, ServerLink.components, directMessageGroupNarrowUrl, groupIds]

/-- No component holds the slash between components. -/
theorem slash_not_mem_component {userId : Nat} {link : ServerLink} {component : Text}
    (member : component ∈ link.components userId) : '/' ∉ component := by
  have inHash (string : Text) : '/' ∉ hashUtilEncode string := fun inString =>
    absurd (quoteSafe_of_mem_hashUtilEncode inString) (by decide)
  have inStream (sub : StreamSubscription) : '/' ∉ encodeStream sub.streamId sub.name := by
    rw [encodeStream_eq]
    exact inHash _
  have inNumber (number : Nat) : '/' ∉ Nat.toDigits 10 number := by
    rw [← hashUtilEncode_toDigits]
    exact inHash _
  have inIds (ids : List Nat) {suffix : Text} (free : '/' ∉ suffix) :
      '/' ∉ [','].intercalate (ids.map (Nat.toDigits 10)) ++ suffix := by
    rw [joinInts_map_some]
    intro inSlug
    rcases List.mem_append.mp inSlug with inList | inSuffix
    · exact absurd (isIdOrComma_of_mem_joinInts inList) (by decide)
    · exact free inSuffix
  cases link with
  | stream sub =>
      simp only [ServerLink.components, List.mem_cons, List.not_mem_nil, or_false] at member
      rcases member with rfl | rfl
      · decide
      · exact inStream sub
  | topic sub topicName =>
      simp only [ServerLink.components, List.mem_cons, List.not_mem_nil, or_false] at member
      rcases member with rfl | rfl | rfl | rfl
      · decide
      · exact inStream sub
      · decide
      · exact inHash topicName
  | nearStream sub topicName messageId =>
      simp only [ServerLink.components, List.mem_cons, List.not_mem_nil, or_false] at member
      rcases member with rfl | rfl | rfl | rfl | rfl | rfl
      · decide
      · exact inStream sub
      · decide
      · exact inHash topicName
      · decide
      · exact inNumber messageId
  | nearPm recipientIds messageId =>
      simp only [ServerLink.components, List.mem_cons, List.not_mem_nil, or_false] at member
      rcases member with rfl | rfl | rfl | rfl
      · decide
      · exact inIds recipientIds (by decide)
      · decide
      · exact inNumber messageId
  | group recipientIds =>
      simp only [ServerLink.components, List.mem_cons, List.not_mem_nil, or_false] at member
      rcases member with rfl | rfl
      · decide
      · exact inIds (groupIds userId recipientIds) (by decide)

/-- The client splits the hash of a link into its components. -/
theorem splitOn_hashPart_url {realmUrl : Text} (noHash : '#' ∉ realmUrl) (userId : Nat)
    (link : ServerLink) :
    (hashPart (link.url realmUrl userId)).splitOn '/' =
      "#narrow".toList :: link.components userId := by
  have skipped : ∀ c ∈ realmUrl, (c != '#') = true := by
    intro c member
    have different : c ≠ '#' := fun same => noHash (same ▸ member)
    simpa using different
  have hash : hashPart (link.url realmUrl userId) = "#narrow".toList ++
      (link.components userId).flatMap fun component => '/' :: component := by
    unfold hashPart
    rw [url_eq_components, List.dropWhile_append_of_pos skipped]
    rfl
  rw [hash]
  exact splitOn_flatMap_cons (by decide) fun component member =>
    slash_not_mem_component member

/-- One operator and one operand of a hash are one term. -/
theorem parseTerms_component {operator raw operand : Text} {hash : List Text}
    {terms : List NarrowTerm}
    (plain : decodeHashComponent operator = .ok operator ∧ operator ≠ [] ∧
      operator.head? ≠ some '-')
    (rawNonempty : raw ≠ []) (read : decodeOperand people streams operator raw = .ok operand)
    (rest : parseTerms people streams hash = .ok (some terms)) :
    parseTerms people streams (operator :: raw :: hash) =
      .ok (some (⟨false, operator, operand⟩ :: terms)) := by
  obtain ⟨decodes, nonempty, unsigned⟩ := plain
  rw [parseTerms, decodes]
  simp [nonempty, unsigned, rawNonempty, read, rest, bind, Except.bind, pure, Except.pure]

theorem operators_plain :
    ∀ operator ∈ ["stream".toList, "topic".toList, "near".toList, "dm".toList],
      decodeHashComponent operator = .ok operator ∧ operator ≠ [] ∧
        operator.head? ≠ some '-' := by
  intro operator member
  simp only [List.mem_cons, List.not_mem_nil, or_false] at member
  rcases member with rfl | rfl | rfl | rfl <;> exact ⟨rfl, by decide, by decide⟩

/-- The stream of a link, which may be read wrong, and the terms behind it. -/
theorem parseTerms_stream {sub : StreamSubscription}
    (known : streams.subStore sub.streamId = some sub) {hash : List Text}
    {terms : List NarrowTerm} (rest : parseTerms people streams hash = .ok (some terms)) :
    parseTerms people streams ("stream".toList :: encodeStream sub.streamId sub.name :: hash) =
      .ok (some (⟨false, "stream".toList,
        if StreamNameOnOneLine sub.name then sub.name else nameToSlug streams sub.name⟩ ::
          terms)) :=
  parseTerms_component people streams (operators_plain _ (by simp))
    (by simp [encodeStream]) (decodeOperand_stream people streams known) rest

theorem parseTerms_topic {topicName : Text} (nonempty : topicName ≠ []) {hash : List Text}
    {terms : List NarrowTerm} (rest : parseTerms people streams hash = .ok (some terms)) :
    parseTerms people streams ("topic".toList :: hashUtilEncode topicName :: hash) =
      .ok (some (⟨false, "topic".toList, topicName⟩ :: terms)) :=
  parseTerms_component people streams (operators_plain _ (by simp))
    (hashUtilEncode_ne_nil nonempty)
    (decodeOperand_plain people streams (by decide) (by decide) (by decide) topicName) rest

theorem parseTerms_near (messageId : Nat) :
    parseTerms people streams ["near".toList, Nat.toDigits 10 messageId] =
      .ok (some [⟨false, "near".toList, Nat.toDigits 10 messageId⟩]) := by
  have read := @decodeOperand_plain folding people streams "near".toList (by decide) (by decide)
    (by decide) (Nat.toDigits 10 messageId)
  rw [hashUtilEncode_toDigits] at read
  exact parseTerms_component people streams (operators_plain _ (by simp)) Nat.toDigits_ne_nil
    read rfl

/-- The stream's term is as expected exactly if its name has no line terminator. -/
theorem readsAs_stream_iff {sub : StreamSubscription}
    (known : streams.subStore sub.streamId = some sub) :
    ReadsAs people (.text "stream".toList sub.name) ⟨false, "stream".toList,
        if StreamNameOnOneLine sub.name then sub.name else nameToSlug streams sub.name⟩ ↔
      StreamNameOnOneLine sub.name := by
  unfold ReadsAs
  split_ifs with oneLine
  · exact iff_of_true rfl oneLine
  · refine iff_of_false (fun same => ?_) oneLine
    exact nameToSlug_ne_name streams known (congrArg NarrowTerm.operand same)

/-- What the client reads in the hash of a link, and when it is what the link is for. -/
theorem parse_components {link : ServerLink} (known : link.Known people streams) :
    ∃ terms, parseTerms people streams (link.components people.myUserId) = .ok (some terms) ∧
      (List.Forall₂ (ReadsAs people) (link.expected people.myUserId) terms ↔
        link.Readable people) := by
  cases link with
  | stream sub =>
      refine ⟨_, parseTerms_stream people streams known rfl, ?_⟩
      rw [ServerLink.expected, List.forall₂_cons, readsAs_stream_iff people streams known]
      exact and_iff_left .nil
  | topic sub topicName =>
      obtain ⟨knownStream, nonempty⟩ := known
      refine ⟨_, parseTerms_stream people streams knownStream
        (parseTerms_topic people streams nonempty rfl), ?_⟩
      rw [ServerLink.expected, List.forall₂_cons, readsAs_stream_iff people streams knownStream]
      exact and_iff_left (.cons rfl .nil)
  | nearStream sub topicName messageId =>
      obtain ⟨knownStream, nonempty⟩ := known
      refine ⟨_, parseTerms_stream people streams knownStream
        (parseTerms_topic people streams nonempty (parseTerms_near people streams messageId)), ?_⟩
      rw [ServerLink.expected, List.forall₂_cons, readsAs_stream_iff people streams knownStream]
      exact and_iff_left (.cons rfl (.cons rfl .nil))
  | nearPm recipientIds messageId =>
      obtain ⟨nonempty, nodup, knownIds⟩ := known
      obtain ⟨emails, read, permutation⟩ :=
        decodeOperand_nearPm people streams nonempty nodup knownIds
      refine ⟨_, parseTerms_component people streams (operators_plain _ (by simp)) (by simp) read
        (parseTerms_near people streams messageId), ?_⟩
      exact iff_of_true (.cons ⟨rfl, rfl, permutation⟩ (.cons rfl .nil)) trivial
  | group recipientIds =>
      obtain ⟨nonempty, nodup, knownIds⟩ := known
      by_cases someOther : ∃ id ∈ recipientIds, id ≠ people.myUserId
      · obtain ⟨emails, read, permutation⟩ :=
          decodeOperand_group people streams knownIds someOther
        refine ⟨_, parseTerms_component people streams (operators_plain _ (by simp)) (by simp)
          read rfl, ?_⟩
        exact iff_of_true (.cons ⟨rfl, rfl, permutation⟩ .nil) someOther
      · refine ⟨_, parseTerms_component people streams (operators_plain _ (by simp)) (by simp)
          (decodeOperand_emptyGroup people streams someOther) rfl, ?_⟩
        refine iff_of_false (fun same => ?_) someOther
        obtain ⟨⟨-, -, permutation⟩, -⟩ := List.forall₂_cons.mp same
        have nobody : none ∈ (conversationUsers people.myUserId recipientIds).map
            people.peopleByUserIdDict := by
          refine permutation.mem_iff.mp ?_
          rw [show "-group".toList.splitOn ',' = ["-group".toList] by decide, List.map_singleton,
            getByEmail_group]
          exact List.mem_singleton_self none
        obtain ⟨id, member, unknown⟩ := List.mem_map.mp nobody
        rw [conversationUsers, if_neg someOther] at member
        have isKnown := knownIds id member
        rw [unknown] at isKnown
        cases isKnown

/-- The client reads a link of the server as the conversation it was made for exactly if the name
of the stream has no line terminator, and a group link has somebody to name. -/
theorem serverLink_opens_iff {realmUrl : Text} (noHash : '#' ∉ realmUrl) (link : ServerLink)
    (known : link.Known people streams) :
    (∃ terms, parseNarrow people streams
        ((hashPart (link.url realmUrl people.myUserId)).splitOn '/') = .ok (some terms) ∧
        List.Forall₂ (ReadsAs people) (link.expected people.myUserId) terms) ↔
      link.Readable people := by
  obtain ⟨terms, read, sameIff⟩ := parse_components people streams known
  have whole : parseNarrow people streams
      ((hashPart (link.url realmUrl people.myUserId)).splitOn '/') = .ok (some terms) := by
    rw [splitOn_hashPart_url noHash]
    exact read
  rw [whole, ← sameIff]
  constructor
  · rintro ⟨other, otherRead, same⟩
    cases otherRead
    exact same
  · intro same
    exact ⟨terms, rfl, same⟩

end Links

theorem onlyStream_subStore (sub : StreamSubscription) (positive : 0 < sub.streamId) :
    (onlyStream sub positive).subStore sub.streamId = some sub :=
  if_pos rfl

theorem serverLink_opens_iff_funTime :
    ∃ terms, parseNarrow nobody (onlyStream funTime funTime_positive)
        ((hashPart ((ServerLink.topic funTime "a/b (c)".toList).url
          "https://z.example".toList nobody.myUserId)).splitOn '/') = .ok (some terms) ∧
      List.Forall₂ (ReadsAs nobody)
        ((ServerLink.topic funTime "a/b (c)".toList).expected nobody.myUserId) terms := by
  have known : (ServerLink.topic funTime "a/b (c)".toList).Known nobody
      (onlyStream funTime funTime_positive) :=
    ⟨onlyStream_subStore funTime funTime_positive, by decide⟩
  have oneLine : StreamNameOnOneLine funTime.name := by decide
  exact (serverLink_opens_iff nobody _ (by decide) _ known).mpr oneLine

/-- The link to a stream whose name has a line separator is read as the name of a stream. -/
theorem lineSeparator_link_not_readsAs :
    (ServerLink.stream twoLines).Known nobody (onlyStream twoLines twoLines_positive) ∧
      ¬ ∃ terms, parseNarrow nobody (onlyStream twoLines twoLines_positive)
          ((hashPart ((ServerLink.stream twoLines).url "https://z.example".toList
            nobody.myUserId)).splitOn '/') = .ok (some terms) ∧
        List.Forall₂ (ReadsAs nobody) ((ServerLink.stream twoLines).expected nobody.myUserId)
          terms := by
  refine ⟨onlyStream_subStore twoLines twoLines_positive, ?_⟩
  have read : parseNarrow nobody (onlyStream twoLines twoLines_positive)
      ((hashPart ((ServerLink.stream twoLines).url "https://z.example".toList
        nobody.myUserId)).splitOn '/') =
      .ok (some [⟨false, "stream".toList, "17-fun\u2028time".toList⟩]) := by
    rfl
  rintro ⟨terms, otherRead, same⟩
  rw [read] at otherRead
  cases otherRead
  obtain ⟨sameTerm, -⟩ := List.forall₂_cons.mp same
  exact absurd (congrArg NarrowTerm.operand sameTerm) (by decide)

end Zulip.Client.ServerLinks
