import Mathlib
import Zulip.Client.NarrowUrl
import Zulip.Foundation.Program
import Zulip.Foundation.Scanning

/-!
# Narrow URLs, round trip

What `parse_narrow` reads in the hash of a list of terms. Components and stream slugs are
undone by their decoders, user slugs by the ids at their start, and no component holds the
slash between components. A term comes back as it was except where a stream name has a line
terminator, and where a legacy operand is read as a slug or names the current user.
-/

namespace Zulip.Client.NarrowUrl

open Zulip.Foundation

/-! ## Hash components -/

/-- The characters that a hash component leaves as they are. -/
def isHashSafe (c : Char) : Bool := isUriUnreserved c && !(['.', '(', ')'].contains c)

theorem hexDigits_kept :
    ∀ c ∈ PercentEncoding.hexDigits, hashReplacements c = [c] ∧ dotToPercent c = c := by
  decide

theorem hexDigits_unreserved : ∀ c ∈ PercentEncoding.hexDigits, isUriUnreserved c = true := by
  decide

theorem map_hashReplacements_escapeByte (byte : UInt8) :
    ((PercentEncoding.escapeByte byte).flatMap hashReplacements).map dotToPercent =
      PercentEncoding.escapeByte byte := by
  have bound : byte.toNat < 256 := byte.toNat_lt
  have high := hexDigits_kept (PercentEncoding.hexDigit (byte.toNat / 16))
    (PercentEncoding.hexDigit_mem_hexDigits (by omega))
  have low := hexDigits_kept (PercentEncoding.hexDigit (byte.toNat % 16))
    (PercentEncoding.hexDigit_mem_hexDigits (by omega))
  have percent : hashReplacements '%' = ['.'] := rfl
  simp only [PercentEncoding.escapeByte, List.flatMap_cons, List.flatMap_nil, high.1, low.1,
    percent, List.cons_append, List.nil_append, List.map_cons, List.map_nil, high.2, low.2]
  rfl

theorem map_hashReplacements_encodeChar (c : Char) :
    ((PercentEncoding.encodeChar isUriUnreserved c).flatMap hashReplacements).map dotToPercent =
      PercentEncoding.encodeChar isHashSafe c := by
  by_cases special : c = '.' ∨ c = '(' ∨ c = ')'
  · rcases special with rfl | rfl | rfl <;> decide
  push Not at special
  have sameKept : isHashSafe c = isUriUnreserved c := by simp [isHashSafe, special]
  unfold PercentEncoding.encodeChar
  rw [sameKept]
  split_ifs with kept
  · have notPercent : c ≠ '%' := by
      rintro rfl
      revert kept
      decide
    simp [hashReplacements, dotToPercent, special, notPercent]
  · unfold PercentEncoding.escapeChar
    induction String.utf8EncodeChar c with
    | nil => rfl
    | cons byte bytes inductionHypothesis =>
        rw [List.flatMap_cons, List.flatMap_append, List.map_append, inductionHypothesis,
          map_hashReplacements_escapeByte]

theorem map_encodeHashComponent (str : Text) :
    (encodeHashComponent str).map dotToPercent = PercentEncoding.encode isHashSafe str := by
  unfold encodeHashComponent encodeURIComponent
  induction str with
  | nil => rfl
  | cons c str inductionHypothesis =>
      simp only [PercentEncoding.encode, List.flatMap_cons, List.flatMap_append,
        List.map_append] at inductionHypothesis ⊢
      rw [inductionHypothesis, map_hashReplacements_encodeChar]

theorem decodeHashComponent_encodeHashComponent (str : Text) :
    decodeHashComponent (encodeHashComponent str) = .ok str := by
  have decoded :
      PercentEncoding.decode ((encodeHashComponent str).map dotToPercent) = some str := by
    rw [map_encodeHashComponent]
    exact PercentEncoding.decode_encode (by decide) str
  unfold decodeHashComponent decodeURIComponent
  rw [decoded]

/-- Every character of a hash component is one that needs no encoding. -/
theorem unreserved_of_mem_encodeHashComponent {str : Text} {c : Char}
    (member : c ∈ encodeHashComponent str) : isUriUnreserved c = true := by
  obtain ⟨source, encoded, replaced⟩ := List.mem_flatMap.mp member
  unfold hashReplacements at replaced
  split_ifs at replaced with percent openParenthesis closeParenthesis dot
  case neg =>
    rw [List.mem_singleton] at replaced
    subst replaced
    rcases PercentEncoding.mem_encode encoded with ⟨kept, -⟩ | isPercent | digit
    · exact kept
    · exact absurd isPercent percent
    · exact hexDigits_unreserved _ digit
  all_goals
    clear member encoded
    revert c
    decide

theorem encodeHashComponent_ne_nil {str : Text} (nonempty : str ≠ []) :
    encodeHashComponent str ≠ [] := by
  intro empty
  have decoded := decodeHashComponent_encodeHashComponent str
  rw [empty] at decoded
  cases decoded
  exact nonempty rfl

theorem encodeHashComponent_cons (c : Char) (str : Text) :
    encodeHashComponent (c :: str) =
      (PercentEncoding.encodeChar isUriUnreserved c).flatMap hashReplacements ++
        encodeHashComponent str := by
  simp [encodeHashComponent, encodeURIComponent, PercentEncoding.encode]

/-- A character that is no digit is not written as part of the ids of a user slug. -/
theorem encodeHashComponent_first {c : Char} (notDigit : ¬ c.isDigit = true) :
    ∃ first rest, (PercentEncoding.encodeChar isUriUnreserved c).flatMap hashReplacements =
      first :: rest ∧ ¬ isIdOrComma first = true := by
  unfold PercentEncoding.encodeChar
  split_ifs with kept
  · have notComma : c ≠ ',' := by
      rintro rfl
      revert kept
      decide
    rw [List.flatMap_cons, List.flatMap_nil, List.append_nil]
    unfold hashReplacements
    split_ifs
    case neg => exact ⟨c, [], rfl, by simp [isIdOrComma, notDigit, notComma]⟩
    all_goals exact ⟨_, _, rfl, by decide⟩
  · rcases bytes : String.utf8EncodeChar c with _ | ⟨byte, more⟩
    · have sizePositive := c.utf8Size_pos
      rw [← String.length_utf8EncodeChar, bytes] at sizePositive
      simp at sizePositive
    · rw [PercentEncoding.escapeChar, bytes, List.flatMap_cons, PercentEncoding.escapeByte,
        List.cons_append, List.flatMap_cons]
      exact ⟨'.', _, rfl, by decide⟩

/-- The ids a user slug would start with are the leading digits of the text. -/
theorem takeWhile_encodeHashComponent (str : Text) :
    (encodeHashComponent str).takeWhile isIdOrComma = str.takeWhile Char.isDigit := by
  induction str with
  | nil => rfl
  | cons c str inductionHypothesis =>
      rw [encodeHashComponent_cons]
      by_cases digit : c.isDigit = true
      · have written :
            (PercentEncoding.encodeChar isUriUnreserved c).flatMap hashReplacements = [c] := by
          have kept : isUriUnreserved c = true := by simp [isUriUnreserved, Char.isAlphanum, digit]
          have plain : hashReplacements c = [c] := by
            unfold hashReplacements
            split_ifs with percent openParenthesis closeParenthesis dot
            case neg => rfl
            all_goals
              subst c
              revert digit
              decide
          simp [PercentEncoding.encodeChar, kept, plain]
        have idChar : isIdOrComma c = true := by simp [isIdOrComma, digit]
        rw [written, List.singleton_append, List.takeWhile_cons_of_pos idChar,
          List.takeWhile_cons_of_pos digit, inductionHypothesis]
      · obtain ⟨first, rest, written, notId⟩ := encodeHashComponent_first digit
        rw [written, List.cons_append, List.takeWhile_cons_of_neg notId,
          List.takeWhile_cons_of_neg digit]

/-! ## Numbers and lists in text -/

theorem isDigit_of_mem_toDigits {number : Nat} {c : Char} (member : c ∈ Nat.toDigits 10 number) :
    c.isDigit = true :=
  Nat.isDigit_of_mem_toDigits (by decide) (by decide) member

theorem parseInt_digits {digits : Text} (nonempty : digits ≠ [])
    (areDigits : ∀ c ∈ digits, c.isDigit = true) :
    parseInt digits = some (Nat.ofDigitChars 10 digits 0) := by
  unfold parseInt
  simp only [List.takeWhile_eq_self_iff.mpr areDigits, if_neg nonempty]

theorem parseInt_toDigits (number : Nat) : parseInt (Nat.toDigits 10 number) = some number := by
  rw [parseInt_digits Nat.toDigits_ne_nil fun c member => isDigit_of_mem_toDigits member,
    Nat.ofDigitChars_ten_toDigits]

theorem comma_not_mem_toDigits (number : Nat) : ',' ∉ Nat.toDigits 10 number := by
  intro member
  have digit := isDigit_of_mem_toDigits member
  revert digit
  decide

theorem splitToInts_joinInts {ids : List Nat} (nonempty : ids ≠ []) :
    splitToInts (joinInts (ids.map some)) = ids.map some := by
  have pieces : (joinInts (ids.map some)).splitOn ',' = (ids.map some).map printInt := by
    refine List.splitOn_intercalate ',' ?_ (by simp [nonempty])
    intro piece member
    simp only [List.map_map, List.mem_map, Function.comp_apply] at member
    obtain ⟨id, -, rfl⟩ := member
    exact comma_not_mem_toDigits id
  unfold splitToInts
  rw [pieces, List.map_map, List.map_map]
  refine List.map_congr_left fun id _ => ?_
  exact parseInt_toDigits id

theorem joinInts_ne_nil {ids : List (Option Nat)} (nonempty : ids ≠ []) : joinInts ids ≠ [] := by
  rcases ids with _ | ⟨id, _ | ⟨second, more⟩⟩
  · exact absurd rfl nonempty
  · cases id with
    | none => simp [joinInts, printInt]
    | some number => simp [joinInts, printInt]
  · simp [joinInts, List.intercalate_cons_cons]

/-- A character of a joined list is one of its members or the separator. -/
theorem mem_intercalate {separator c : Char} {pieces : List Text}
    (member : c ∈ [separator].intercalate pieces) :
    c = separator ∨ ∃ piece ∈ pieces, c ∈ piece := by
  induction pieces with
  | nil => simp at member
  | cons piece pieces inductionHypothesis =>
      rcases pieces with _ | ⟨second, more⟩
      · exact .inr ⟨piece, List.mem_cons_self, by simpa using member⟩
      · rw [List.intercalate_cons_cons, List.mem_append, List.mem_append] at member
        rcases member with (inPiece | isSeparator) | later
        · exact .inr ⟨piece, List.mem_cons_self, inPiece⟩
        · exact .inl (List.mem_singleton.mp isSeparator)
        · rcases inductionHypothesis later with isSeparator | ⟨found, inRest, inFound⟩
          · exact .inl isSeparator
          · exact .inr ⟨found, List.mem_cons_of_mem piece inRest, inFound⟩

theorem isIdOrComma_of_mem_joinInts {ids : List Nat} {c : Char}
    (member : c ∈ joinInts (ids.map some)) : isIdOrComma c = true := by
  rcases mem_intercalate member with rfl | ⟨piece, inPieces, inPiece⟩
  · rfl
  · simp only [List.map_map, List.mem_map, Function.comp_apply] at inPieces
    obtain ⟨id, -, rfl⟩ := inPieces
    simp [isIdOrComma, isDigit_of_mem_toDigits inPiece]

/-- The pieces of a text hold only characters of the text. -/
theorem mem_of_mem_splitOn {separator c : Char} {text piece : Text}
    (inPieces : piece ∈ text.splitOn separator) (inPiece : c ∈ piece) : c ∈ text := by
  have joined : [separator].intercalate (text.splitOn separator) = text :=
    List.intercalate_splitOn separator
  rw [← joined]
  clear joined
  generalize text.splitOn separator = pieces at inPieces
  induction pieces with
  | nil => cases inPieces
  | cons first rest inductionHypothesis =>
      rcases rest with _ | ⟨second, more⟩
      · rw [List.mem_singleton] at inPieces
        simpa [← inPieces] using inPiece
      · rw [List.intercalate_cons_cons, List.mem_append, List.mem_append]
        rcases List.mem_cons.mp inPieces with rfl | later
        · exact .inl (.inl inPiece)
        · exact .inr (inductionHypothesis later)

/-- If a function is defined on every member of a list, the values form a list. -/
theorem exists_values {Source Value : Type} {find : Source → Option Value} {sources : List Source}
    (found : ∀ source ∈ sources, (find source).isSome = true) :
    ∃ values : List Value, sources.map find = values.map some := by
  induction sources with
  | nil => exact ⟨[], rfl⟩
  | cons source sources inductionHypothesis =>
      obtain ⟨value, isValue⟩ := Option.isSome_iff_exists.mp (found source List.mem_cons_self)
      obtain ⟨values, areValues⟩ := inductionHypothesis fun other member =>
        found other (List.mem_cons_of_mem source member)
      exact ⟨value :: values, by rw [List.map_cons, List.map_cons, isValue, areValues]⟩

theorem tryParseAsTruthy_map_some {Value : Type} {truthy : Value → Bool} {values : List Value}
    (allTruthy : ∀ value ∈ values, truthy value = true) :
    tryParseAsTruthy truthy (values.map some) = some values := by
  unfold tryParseAsTruthy
  induction values with
  | nil => rfl
  | cons value values inductionHypothesis =>
      have truthyHead := allTruthy value List.mem_cons_self
      have truthyTail := inductionHypothesis fun other member =>
        allTruthy other (List.mem_cons_of_mem value member)
      rw [List.map_cons, List.mapM_cons, truthyTail]
      simp [Option.filter, truthyHead]

theorem tryParseAsTruthy_of_none_mem {Value : Type} {truthy : Value → Bool}
    {values : List (Option Value)} (missing : none ∈ values) :
    tryParseAsTruthy truthy values = none := by
  unfold tryParseAsTruthy
  induction values with
  | nil => cases missing
  | cons value values inductionHypothesis =>
      rw [List.mapM_cons]
      rcases List.mem_cons.mp missing with rfl | later
      · rfl
      · rw [inductionHypothesis later]
        cases Option.filter truthy value <;> rfl

/-! ## Stream slugs -/

/-- Names whose characters a dot of a regular expression matches. -/
def StreamNameOnOneLine (name : Text) : Prop := ∀ c ∈ name, isLineTerminator c = false

instance (name : Text) : Decidable (StreamNameOnOneLine name) :=
  inferInstanceAs (Decidable (∀ c ∈ name, isLineTerminator c = false))

/-- The name part of a stream slug. -/
def dashSpaces (name : Text) : Text := name.map fun c => if c = ' ' then '-' else c

theorem dashSpaces_onOneLine_iff (name : Text) :
    StreamNameOnOneLine (dashSpaces name) ↔ StreamNameOnOneLine name := by
  have sameTerminator :
      ∀ c, isLineTerminator (if c = ' ' then '-' else c) = isLineTerminator c := by
    intro c
    split_ifs with space
    · rw [space]
      rfl
    · rfl
  simp [StreamNameOnOneLine, dashSpaces, sameTerminator]

section Streams

variable {folding : CaseFolding} (streams : Streams folding)

theorem slugStreamId_slug (streamId : Nat) (name : Text) :
    slugStreamId (Nat.toDigits 10 streamId ++ '-' :: name) =
      if StreamNameOnOneLine name then some streamId else none := by
  have digits : ∀ c ∈ Nat.toDigits 10 streamId, c.isDigit = true := fun c member =>
    isDigit_of_mem_toDigits member
  have dash : isLineTerminator '-' = false := rfl
  have notDigit : Char.isDigit '-' = false := rfl
  unfold slugStreamId
  rw [List.takeWhile_append_of_pos digits, List.dropWhile_append_of_pos digits,
    List.takeWhile_cons_of_neg (by simp [notDigit]),
    List.dropWhile_cons_of_neg (by simp [notDigit]),
    List.append_nil]
  have matched : (('-' :: name).all fun c => !isLineTerminator c) = true ↔
      StreamNameOnOneLine name := by
    simp [StreamNameOnOneLine, dash]
  simp only [matched, Nat.ofDigitChars_ten_toDigits]
  simp

theorem nameToSlug_of_known {streamId : Nat} {sub : StreamSubscription}
    (known : streams.subStore streamId = some sub) :
    nameToSlug streams sub.name = Nat.toDigits 10 streamId ++ '-' :: dashSpaces sub.name := by
  have positive : (streamId != 0) = true := by
    simpa using Nat.pos_iff_ne_zero.mp (streams.streamId_pos known)
  have id : getStreamId streams sub.name = some streamId := by
    simp [getStreamId, streams.streamIdsByName_of_subStore known, Option.filter, positive]
  unfold nameToSlug
  simp only [id, Option.filter, positive, if_true]
  rfl

/-- A stream slug is read as the stream unless its name has a line terminator; then the slug
itself is taken for the name. -/
theorem slugToName_nameToSlug {streamId : Nat} {sub : StreamSubscription}
    (known : streams.subStore streamId = some sub) :
    slugToName streams (nameToSlug streams sub.name) =
      if StreamNameOnOneLine sub.name then sub.name else nameToSlug streams sub.name := by
  rw [nameToSlug_of_known streams known]
  unfold slugToName
  rw [slugStreamId_slug]
  by_cases oneLine : StreamNameOnOneLine sub.name
  · rw [if_pos ((dashSpaces_onOneLine_iff sub.name).mpr oneLine), if_pos oneLine]
    simp [known]
  · rw [if_neg fun other => oneLine ((dashSpaces_onOneLine_iff sub.name).mp other), if_neg oneLine]
    rfl

theorem nameToSlug_ne_name {streamId : Nat} {sub : StreamSubscription}
    (known : streams.subStore streamId = some sub) : nameToSlug streams sub.name ≠ sub.name := by
  rw [nameToSlug_of_known streams known]
  intro same
  have lengths := congrArg List.length same
  simp only [dashSpaces, List.length_append, List.length_cons, List.length_map] at lengths
  omega

end Streams

/-! ## User slugs -/

section People

variable {folding : CaseFolding} (people : People folding)

/-- The ids that are left when the current user is excluded. -/
def idsWithoutMe (ids : List Nat) : List Nat :=
  if ids.length ≤ 1 then ids else ids.filter fun id => id != people.myUserId

theorem excludeMeFromString_joinInts {ids : List Nat} (nonempty : ids ≠ []) :
    excludeMeFromString people (joinInts (ids.map some)) =
      joinInts ((idsWithoutMe people ids).map some) := by
  unfold excludeMeFromString idsWithoutMe
  simp only [splitToInts_joinInts nonempty, List.length_map]
  split_ifs with single
  · rfl
  · rw [List.filter_map]
    rfl

/-- No ids at all are one number that is not a number. -/
theorem userIdsStringToEmailsString_nil :
    userIdsStringToEmailsString people (joinInts []) = none := by
  have unknown : none ∈ (splitToInts (joinInts [])).map fun userId =>
      (userId.bind people.peopleByUserIdDict).map User.email := by
    simp [joinInts, splitToInts, parseInt]
  unfold userIdsStringToEmailsString
  rw [tryParseAsTruthy_of_none_mem unknown]
  rfl

theorem userIdsStringToEmailsString_unknown {id : Nat}
    (unknown : people.peopleByUserIdDict id = none) :
    userIdsStringToEmailsString people (joinInts [some id]) = none := by
  have ids : splitToInts (joinInts [some id]) = [some id] :=
    splitToInts_joinInts (List.cons_ne_nil id [])
  unfold userIdsStringToEmailsString
  rw [ids]
  simp [unknown, tryParseAsTruthy, Option.filter]

theorem email_of_known {id : Nat} {user : User}
    (known : people.peopleByUserIdDict id = some user) :
    '@' ∈ folding.lower user.email ∧ user.email ≠ [] ∧ ',' ∉ folding.lower user.email := by
  have hasAt := people.email_at (people.peopleDict_of_byUserId known)
  refine ⟨hasAt, ?_, ?_⟩
  · intro empty
    rw [empty, folding.lower_ascii [] rfl] at hasAt
    cases hasAt
  · intro hasComma
    exact people.email_comma known (folding.comma_of_lower _ hasComma)

theorem getByEmail_lower_of_known {id : Nat} {user : User}
    (known : people.peopleByUserIdDict id = some user) :
    getByEmail people (folding.lower user.email) = some user := by
  unfold getByEmail
  rw [folding.lower_lower, people.peopleDict_of_byUserId known]

/-- E-mails of known ids are the folded e-mails of the users, in some order. -/
theorem userIdsStringToEmailsString_known {ids : List Nat} {users : List User}
    (nonempty : ids ≠ []) (known : ids.map people.peopleByUserIdDict = users.map some) :
    ∃ emails, userIdsStringToEmailsString people (joinInts (ids.map some)) = some emails ∧
      emails ≠ [] ∧
      ((emails.splitOn ',').map (getByEmail people)).Perm (users.map some) := by
  have knownUser : ∀ user ∈ users, ∃ id, people.peopleByUserIdDict id = some user := by
    intro user member
    have inResults : some user ∈ ids.map people.peopleByUserIdDict := by
      rw [known]
      exact List.mem_map_of_mem member
    obtain ⟨id, -, found⟩ := List.mem_map.mp inResults
    exact ⟨id, found⟩
  have results :
      tryParseAsTruthy (fun email => email != [])
        ((splitToInts (joinInts (ids.map some))).map fun userId =>
          (userId.bind people.peopleByUserIdDict).map User.email) =
        some (users.map User.email) := by
    have values :
        ((splitToInts (joinInts (ids.map some))).map fun userId =>
          (userId.bind people.peopleByUserIdDict).map User.email) =
          (users.map User.email).map some := by
      calc
        _ = (ids.map people.peopleByUserIdDict).map (Option.map User.email) := by
          rw [splitToInts_joinInts nonempty, List.map_map, List.map_map]
          rfl
        _ = (users.map User.email).map some := by
          rw [known, List.map_map, List.map_map]
          rfl
    rw [values]
    refine tryParseAsTruthy_map_some fun email member => ?_
    obtain ⟨user, isUser, rfl⟩ := List.mem_map.mp member
    obtain ⟨id, found⟩ := knownUser user isUser
    simpa using (email_of_known people found).2.1
  let lowered : List Text := (users.map User.email).map folding.lower
  have memberLowered : ∀ email ∈ lowered, '@' ∈ email ∧ ',' ∉ email := by
    intro email member
    simp only [lowered, List.map_map, List.mem_map, Function.comp_apply] at member
    obtain ⟨user, isUser, rfl⟩ := member
    obtain ⟨id, found⟩ := knownUser user isUser
    exact ⟨(email_of_known people found).1, (email_of_known people found).2.2⟩
  have sorted : (sortStrings lowered).Perm lowered := List.mergeSort_perm lowered _
  have loweredNonempty : lowered ≠ [] := by
    have usersNonempty : users ≠ [] := by
      rintro rfl
      exact nonempty (List.map_eq_nil_iff.mp known)
    simpa [lowered] using usersNonempty
  have pieces : ([','].intercalate (sortStrings lowered)).splitOn ',' = sortStrings lowered := by
    refine List.splitOn_intercalate ',' (fun email member => ?_) ?_
    · exact (memberLowered email (sorted.mem_iff.mp member)).2
    · intro empty
      rw [empty] at sorted
      exact loweredNonempty sorted.symm.eq_nil
  refine ⟨[','].intercalate (sortStrings lowered), ?_, ?_, ?_⟩
  · unfold userIdsStringToEmailsString
    rw [results]
    rfl
  · intro empty
    rw [empty, List.splitOn_nil] at pieces
    have emptyMember : [] ∈ lowered := by
      rw [← sorted.mem_iff, ← pieces]
      exact List.mem_cons_self
    cases (memberLowered [] emptyMember).1
  · rw [pieces]
    have found : lowered.map (getByEmail people) = users.map some := by
      simp only [lowered, List.map_map]
      refine List.map_congr_left fun user isUser => ?_
      obtain ⟨id, isKnown⟩ := knownUser user isUser
      exact getByEmail_lower_of_known people isKnown
    rw [← found]
    exact sorted.map (getByEmail people)

theorem slugToEmails_slug {ids : List Nat} (nonempty : ids ≠ []) (suffix : Text) :
    slugToEmails people (joinInts (ids.map some) ++ '-' :: suffix) =
      userIdsStringToEmailsString people (joinInts ((idsWithoutMe people ids).map some)) := by
  have idChars : ∀ c ∈ joinInts (ids.map some), isIdOrComma c = true := fun c member =>
    isIdOrComma_of_mem_joinInts member
  have dash : isIdOrComma '-' = false := rfl
  have printed : joinInts (ids.map some) ≠ [] := joinInts_ne_nil (by simpa using nonempty)
  unfold slugToEmails
  simp only [List.takeWhile_append_of_pos idChars, List.takeWhile_cons, dash, Bool.false_eq_true,
    if_false, List.append_nil, if_neg printed, excludeMeFromString_joinInts people nonempty]

/-- Every piece of the operand is the e-mail of a known user. -/
def AllKnown (operand : Text) : Prop :=
  ∀ email ∈ operand.splitOn ',', (getByEmail people email).isSome = true

/-- The current user is one of several users. -/
def NamesMeInGroup (operand : Text) : Prop :=
  1 < (operand.splitOn ',').length ∧
    ∃ email ∈ operand.splitOn ',',
      (getByEmail people email).map User.userId = some people.myUserId

/-- The users of a known operand, with the ids that `sort_numerically` puts in order. -/
structure OperandUsers (operand : Text) (users : List User) (ids : List Nat) : Prop where
  found : (operand.splitOn ',').map (getByEmail people) = users.map some
  ids_perm : ids.Perm (users.map User.userId)
  printed : replyToToUserIdsString people operand = some (joinInts (ids.map some))

theorem map_userId_of_found {emails : List Text} {users : List User}
    (found : emails.map (getByEmail people) = users.map some) :
    (emails.map fun email => (getByEmail people email).map User.userId) =
      (users.map User.userId).map some := by
  calc
    _ = (emails.map (getByEmail people)).map (Option.map User.userId) := by
      rw [List.map_map]
      rfl
    _ = (users.map User.userId).map some := by
      rw [found, List.map_map, List.map_map]
      rfl

theorem exists_operandUsers {operand : Text} (known : AllKnown people operand) :
    ∃ users ids, OperandUsers people operand users ids := by
  obtain ⟨users, found⟩ := exists_values known
  let sorted : List Nat := (users.map User.userId).mergeSort (fun left right => left ≤ right)
  refine ⟨users, sorted, found, List.mergeSort_perm _ _, ?_⟩
  have truthy : ∀ id ∈ users.map User.userId, (id != 0) = true := by
    intro id member
    obtain ⟨user, isUser, rfl⟩ := List.mem_map.mp member
    have inResults : some user ∈ (operand.splitOn ',').map (getByEmail people) := by
      rw [found]
      exact List.mem_map_of_mem isUser
    obtain ⟨email, -, isFound⟩ := List.mem_map.mp inResults
    have positive := people.userId_pos (people.byUserId_of_peopleDict isFound)
    simpa using Nat.pos_iff_ne_zero.mp positive
  unfold replyToToUserIdsString
  rw [map_userId_of_found people found, tryParseAsTruthy_map_some truthy]
  rfl

namespace OperandUsers

variable {people} {operand : Text} {users : List User} {ids : List Nat}

theorem byUserId (facts : OperandUsers people operand users ids) :
    ∀ user ∈ users, people.peopleByUserIdDict user.userId = some user := by
  intro user isUser
  have inResults : some user ∈ (operand.splitOn ',').map (getByEmail people) := by
    rw [facts.found]
    exact List.mem_map_of_mem isUser
  obtain ⟨email, -, isFound⟩ := List.mem_map.mp inResults
  exact people.byUserId_of_peopleDict isFound

theorem length_eq (facts : OperandUsers people operand users ids) :
    (operand.splitOn ',').length = users.length ∧ ids.length = users.length := by
  constructor
  · simpa using congrArg List.length facts.found
  · simpa using facts.ids_perm.length_eq

theorem ids_ne_nil (facts : OperandUsers people operand users ids) : ids ≠ [] := by
  rintro rfl
  have pieces : (operand.splitOn ',').length = 0 := by
    rw [facts.length_eq.1, ← facts.length_eq.2]
    rfl
  exact List.splitOn_ne_nil ',' operand (List.length_eq_zero_iff.mp pieces)

/-- Looking the ids up gives the users again. -/
theorem map_byUserId (facts : OperandUsers people operand users ids) :
    (ids.map people.peopleByUserIdDict).Perm (users.map some) := by
  have looked : (users.map User.userId).map people.peopleByUserIdDict = users.map some := by
    rw [List.map_map]
    exact List.map_congr_left facts.byUserId
  rw [← looked]
  exact facts.ids_perm.map people.peopleByUserIdDict

theorem byUserId_isSome (facts : OperandUsers people operand users ids) :
    ∀ id ∈ ids, (people.peopleByUserIdDict id).isSome = true := by
  intro id member
  have inUsers : people.peopleByUserIdDict id ∈ users.map some :=
    facts.map_byUserId.mem_iff.mp (List.mem_map_of_mem member)
  obtain ⟨user, -, isFound⟩ := List.mem_map.mp inUsers
  rw [← isFound]
  rfl

/-- The current user is among several exactly when the decoder leaves somebody out. -/
theorem namesMeInGroup_iff (facts : OperandUsers people operand users ids) :
    NamesMeInGroup people operand ↔ 1 < ids.length ∧ people.myUserId ∈ ids := by
  unfold NamesMeInGroup
  rw [facts.length_eq.1, facts.length_eq.2, facts.ids_perm.mem_iff]
  refine and_congr_right fun _ => ?_
  calc
    (∃ email ∈ operand.splitOn ',',
        (getByEmail people email).map User.userId = some people.myUserId) ↔
        some people.myUserId ∈ (operand.splitOn ',').map fun email =>
          (getByEmail people email).map User.userId := by
      rw [List.mem_map]
    _ ↔ people.myUserId ∈ users.map User.userId := by
      rw [map_userId_of_found people facts.found]
      simp

theorem idsWithoutMe_eq_self (facts : OperandUsers people operand users ids)
    (kept : ¬ NamesMeInGroup people operand) : idsWithoutMe people ids = ids := by
  rw [facts.namesMeInGroup_iff] at kept
  unfold idsWithoutMe
  split_ifs with single
  · rfl
  · rw [List.filter_eq_self]
    intro id member
    have different : id ≠ people.myUserId := by
      rintro rfl
      exact kept ⟨by omega, member⟩
    simpa using different

theorem idsWithoutMe_length_lt (facts : OperandUsers people operand users ids)
    (left : NamesMeInGroup people operand) : (idsWithoutMe people ids).length < ids.length := by
  obtain ⟨several, member⟩ := facts.namesMeInGroup_iff.mp left
  unfold idsWithoutMe
  rw [if_neg (by omega)]
  exact List.length_filter_lt_length_iff_exists.mpr ⟨_, member, by simp⟩

end OperandUsers

/-! ## Operands -/

variable (streams : Streams folding) (categoryOther : Char → Bool)

/-- The two operands name the same users, unknown pieces counted as nobody. -/
def SameUsers (operand parsed : Text) : Prop :=
  ((operand.splitOn ',').map (getByEmail people)).Perm
    ((parsed.splitOn ',').map (getByEmail people))

theorem getByEmail_of_noAt {email : Text} (noAt : '@' ∉ folding.lower email) :
    getByEmail people email = none := by
  rcases found : getByEmail people email with _ | user
  · rfl
  · exact absurd (people.email_at found) noAt

theorem emailsToSlug_eq {operand : Text} {users : List User} {ids : List Nat}
    (facts : OperandUsers people operand users ids) :
    emailsToSlug people categoryOther operand =
      some (joinInts (ids.map some) ++ '-' ::
        slugSuffix people categoryOther (operand.splitOn ',')) := by
  have printed : joinInts (ids.map some) ≠ [] :=
    joinInts_ne_nil (by simpa using facts.ids_ne_nil)
  unfold emailsToSlug
  rw [facts.printed]
  simp only [if_neg printed]

theorem emailsToSlug_unknown {operand : Text} (unknown : ¬ AllKnown people operand) :
    emailsToSlug people categoryOther operand = none := by
  unfold AllKnown at unknown
  push Not at unknown
  obtain ⟨email, isPiece, notFound⟩ := unknown
  have missing : none ∈ (operand.splitOn ',').map fun email =>
      (getByEmail people email).map User.userId := by
    refine List.mem_map.mpr ⟨email, isPiece, ?_⟩
    rw [Option.not_isSome_iff_eq_none.mp notFound]
    rfl
  unfold emailsToSlug replyToToUserIdsString
  rw [tryParseAsTruthy_of_none_mem missing]
  rfl

theorem canonicalize_userOperator {operator : Text} (isUser : operator ∈ userOperators) :
    canonicalizeStreamSynonyms folding operator = operator ∧ operator ≠ "stream".toList := by
  have plain : folding.lower operator = operator := by
    refine folding.lower_ascii operator ?_
    revert operator
    decide
  have other : isStreamSynonym operator = false ∧ isStreamsSynonym operator = false ∧
      operator ≠ "stream".toList := by
    clear plain
    revert operator
    decide
  refine ⟨?_, other.2.2⟩
  simp [canonicalizeStreamSynonyms, plain, other.1, other.2.1]

theorem decodeOperand_of_emails {operator operand emails : Text} (isUser : operator ∈ userOperators)
    (read : slugToEmails people operand = some emails) (nonempty : emails ≠ []) :
    decodeOperand people streams operator operand = .ok emails := by
  have truthy : (emails != []) = true := by simpa using nonempty
  simp [decodeOperand, isUser, read, Option.filter, truthy]

theorem decodeOperand_of_no_emails {operator operand : Text} (isUser : operator ∈ userOperators)
    (read : slugToEmails people operand = none) :
    decodeOperand people streams operator operand = decodeHashComponent operand := by
  obtain ⟨canonical, notStream⟩ := @canonicalize_userOperator folding operator isUser
  have plain : canonicalizeStreamSynonyms folding operator ≠ "stream".toList := by
    rwa [canonical]
  simp only [decodeOperand, if_pos isUser, read, Option.filter, if_neg plain]
  cases decodeHashComponent operand <;> rfl

/-- A group slug has nothing to decode. -/
theorem decodeHashComponent_groupSlug (ids : List Nat) :
    decodeHashComponent (joinInts (ids.map some) ++ '-' :: "group".toList) =
      .ok (joinInts (ids.map some) ++ '-' :: "group".toList) := by
  have plain : ∀ c ∈ joinInts (ids.map some) ++ '-' :: "group".toList, c ≠ '.' ∧ c ≠ '%' := by
    intro c member
    rcases List.mem_append.mp member with inIds | inSuffix
    · have idChar := isIdOrComma_of_mem_joinInts inIds
      constructor
      all_goals
        rintro rfl
        revert idChar
        decide
    · clear member
      revert c
      decide
  have undotted : (joinInts (ids.map some) ++ '-' :: "group".toList).map dotToPercent =
      joinInts (ids.map some) ++ '-' :: "group".toList := by
    refine (List.map_congr_left fun c member => ?_).trans (List.map_id _)
    simp [dotToPercent, (plain c member).1]
  unfold decodeHashComponent decodeURIComponent
  rw [undotted, PercentEncoding.decode_eq_self fun member => (plain '%' member).2 rfl]

/-- Digits, commas, dashes and small letters are folded already, and none is an at sign. -/
theorem plain_of_mem_groupSlug {ids : List Nat} {c : Char}
    (member : c ∈ joinInts (ids.map some) ++ '-' :: "group".toList) :
    c.toNat < 128 ∧ c.isUpper = false ∧ c ≠ '@' := by
  rcases List.mem_append.mp member with inIds | inSuffix
  · have idChar := isIdOrComma_of_mem_joinInts inIds
    simp only [isIdOrComma, Bool.or_eq_true, beq_iff_eq] at idChar
    rcases idChar with digit | rfl
    · have bounds : 48 ≤ c.val.toNat ∧ c.val.toNat ≤ 57 := by
        simpa [Char.isDigit, UInt32.le_iff_toNat_le] using digit
      have notUpper : c.isUpper = false := by
        simp only [Char.isUpper, decide_eq_false_iff_not, ge_iff_le, UInt32.le_iff_toNat_le]
        have letter : 'A'.val.toNat = 65 := rfl
        omega
      refine ⟨?_, notUpper, ?_⟩
      · change c.val.toNat < 128
        omega
      · rintro rfl
        revert digit
        decide
    · decide
  · clear member
    revert c
    decide

/-- No piece of a group slug is the e-mail of a user. -/
theorem not_sameUsers_groupSlug {operand : Text} {users : List User} {ids : List Nat}
    (facts : OperandUsers people operand users ids) :
    ¬ SameUsers people operand (joinInts (ids.map some) ++ '-' :: "group".toList) := by
  intro same
  obtain ⟨piece, isPiece⟩ := List.exists_mem_of_ne_nil _
    (List.splitOn_ne_nil ',' (joinInts (ids.map some) ++ '-' :: "group".toList))
  have plain : ∀ c ∈ piece, c.toNat < 128 ∧ c.isUpper = false ∧ c ≠ '@' := fun c inPiece =>
    plain_of_mem_groupSlug (mem_of_mem_splitOn isPiece inPiece)
  have lowered : folding.lower piece = piece := by
    refine folding.lower_ascii piece (List.all_eq_true.mpr fun c inPiece => ?_)
    simp [plain c inPiece]
  have unknown : getByEmail people piece = none := by
    refine getByEmail_of_noAt people ?_
    rw [lowered]
    exact fun member => (plain '@' member).2.2 rfl
  have inOperand : none ∈ (operand.splitOn ',').map (getByEmail people) :=
    same.symm.mem_iff.mp (unknown ▸ List.mem_map_of_mem isPiece)
  rw [facts.found] at inOperand
  simp at inOperand

/-- Known users come back unless the current user is one of several. -/
theorem decodeOperand_userSlug {operator operand : Text} {users : List User} {ids : List Nat}
    (isUser : operator ∈ userOperators) (facts : OperandUsers people operand users ids) :
    ∃ parsed, decodeOperand people streams operator
        (joinInts (ids.map some) ++ '-' :: slugSuffix people categoryOther (operand.splitOn ',')) =
          .ok parsed ∧
      (SameUsers people operand parsed ↔ ¬ NamesMeInGroup people operand) := by
  have read := slugToEmails_slug people facts.ids_ne_nil
    (slugSuffix people categoryOther (operand.splitOn ','))
  by_cases nobody : idsWithoutMe people ids = []
  · -- only the current user was named, more than once: the slug is taken for the operand
    have named : NamesMeInGroup people operand := by
      by_contra notNamed
      rw [facts.idsWithoutMe_eq_self notNamed] at nobody
      exact facts.ids_ne_nil nobody
    have suffix : slugSuffix people categoryOther (operand.splitOn ',') = "group".toList := by
      have several := named.1
      unfold slugSuffix
      split
      · rename_i email single
        rw [single] at several
        simp at several
      · rfl
    rw [suffix] at read ⊢
    rw [nobody, List.map_nil, userIdsStringToEmailsString_nil] at read
    refine ⟨_, ?_, iff_of_false (not_sameUsers_groupSlug people facts) (not_not_intro named)⟩
    rw [decodeOperand_of_no_emails people streams isUser read, decodeHashComponent_groupSlug]
  · have known : ∀ id ∈ idsWithoutMe people ids, (people.peopleByUserIdDict id).isSome = true := by
      intro id member
      refine facts.byUserId_isSome id ?_
      unfold idsWithoutMe at member
      split_ifs at member
      · exact member
      · exact List.mem_of_mem_filter member
    obtain ⟨kept, areKept⟩ := exists_values known
    obtain ⟨emails, isRead, nonempty, permutation⟩ :=
      userIdsStringToEmailsString_known people nobody areKept
    refine ⟨emails, decodeOperand_of_emails people streams isUser (read.trans isRead) nonempty, ?_⟩
    unfold SameUsers
    rw [facts.found]
    constructor
    · intro same named
      have lengths := (same.trans permutation).length_eq
      have fewer := facts.idsWithoutMe_length_lt named
      have keptLength := congrArg List.length areKept
      simp only [List.length_map] at lengths keptLength
      have idsLength := facts.length_eq.2
      omega
    · intro notNamed
      rw [facts.idsWithoutMe_eq_self notNamed] at areKept
      refine (permutation.trans ?_).symm
      rw [← areKept]
      exact facts.map_byUserId

theorem slugToEmails_encodeHashComponent (operand : Text) :
    slugToEmails people (encodeHashComponent operand) =
      match parseInt operand with
      | none => none
      | some id => userIdsStringToEmailsString people (joinInts [some id]) := by
  unfold slugToEmails
  simp only [takeWhile_encodeHashComponent]
  by_cases noDigits : operand.takeWhile Char.isDigit = []
  · simp [parseInt, noDigits]
  · have areDigits : ∀ c ∈ operand.takeWhile Char.isDigit, c.isDigit = true :=
      List.all_eq_true.mp List.all_takeWhile
    have noComma : ',' ∉ operand.takeWhile Char.isDigit := by
      intro member
      have digit := areDigits ',' member
      revert digit
      decide
    have single : splitToInts (operand.takeWhile Char.isDigit) =
        [some (Nat.ofDigitChars 10 (operand.takeWhile Char.isDigit) 0)] := by
      rw [splitToInts, List.splitOn_eq_singleton noComma, List.map_singleton,
        parseInt_digits noDigits areDigits]
    have number : parseInt operand =
        some (Nat.ofDigitChars 10 (operand.takeWhile Char.isDigit) 0) := by
      simp only [parseInt, if_neg noDigits]
    rw [if_neg noDigits, number]
    simp [excludeMeFromString, single]

/-- An operand with an unknown piece comes back unless it starts with the id of a user. -/
theorem decodeOperand_unknown {operator operand : Text} (isUser : operator ∈ userOperators)
    (unknown : ¬ AllKnown people operand) :
    ∃ parsed, decodeOperand people streams operator (encodeHashComponent operand) = .ok parsed ∧
      (SameUsers people operand parsed ↔
        (parseInt operand).bind people.peopleByUserIdDict = none) := by
  have read := slugToEmails_encodeHashComponent people operand
  have plain (missing : slugToEmails people (encodeHashComponent operand) = none) :
      decodeOperand people streams operator (encodeHashComponent operand) = .ok operand := by
    rw [decodeOperand_of_no_emails people streams isUser missing,
      decodeHashComponent_encodeHashComponent]
  rcases number : parseInt operand with _ | id
  · rw [number] at read
    exact ⟨operand, plain read, iff_of_true (List.Perm.refl _) rfl⟩
  · rw [number] at read
    rcases found : people.peopleByUserIdDict id with _ | user
    · exact ⟨operand, plain (read.trans (userIdsStringToEmailsString_unknown people found)),
        iff_of_true (List.Perm.refl _) found⟩
    · have known : [id].map people.peopleByUserIdDict = [user].map some := by
        simpa using found
      obtain ⟨emails, isRead, nonempty, permutation⟩ :=
        userIdsStringToEmailsString_known people (List.cons_ne_nil id []) known
      refine ⟨emails, decodeOperand_of_emails people streams isUser (read.trans isRead) nonempty,
        iff_of_false ?_ (by simp [found])⟩
      intro same
      refine unknown fun email isPiece => ?_
      have result := (same.trans permutation).mem_iff.mp (List.mem_map_of_mem isPiece)
      rw [List.map_singleton, List.mem_singleton] at result
      rw [result]
      rfl

/-! ## Terms -/

/-- The operators of old links whose operands are users. -/
def legacyUserOperators : List Text := ["group-pm-with".toList, "pm-with".toList]

/-- A term of the kind the URL is made for: a known stream under its name, or known users without
the current one among several. -/
structure ValidTerm (term : NarrowTerm) : Prop where
  operator_nonempty : term.operator ≠ []
  operator_unsigned : term.operator.head? ≠ some '-'
  operand_nonempty : term.operand ≠ []
  stream_known : canonicalizeStreamSynonyms folding term.operator = "stream".toList →
    ∃ streamId sub, streams.subStore streamId = some sub ∧ sub.name = term.operand
  users_known : term.operator ∈ userOperators → term.operator ∉ legacyUserOperators →
    AllKnown people term.operand ∧ ¬ NamesMeInGroup people term.operand

/-- The term that is read is the one that was written, with the operator in its stream form. -/
structure SameTerm (term parsed : NarrowTerm) : Prop where
  negated : parsed.negated = term.negated
  operator : parsed.operator = canonicalizeStreamSynonyms folding term.operator
  operand : if term.operator ∈ userOperators then SameUsers people term.operand parsed.operand
    else parsed.operand = term.operand

variable {people} in
theorem SameTerm.operand_of_not_user {term parsed : NarrowTerm} (same : SameTerm people term parsed)
    (notUser : term.operator ∉ userOperators) : parsed.operand = term.operand := by
  have operand := same.operand
  rwa [if_neg notUser] at operand

/-- A legacy operand that comes back: known users without the current one among several, or no
known users and no user's id at its start. -/
def LegacyOperandKept (operand : Text) : Prop :=
  (AllKnown people operand ∧ ¬ NamesMeInGroup people operand) ∨
    (¬ AllKnown people operand ∧ (parseInt operand).bind people.peopleByUserIdDict = none)

/-- The terms that come back as they were. -/
structure TermKept (term : NarrowTerm) : Prop where
  stream : canonicalizeStreamSynonyms folding term.operator = "stream".toList →
    StreamNameOnOneLine term.operand
  legacy : term.operator ∈ legacyUserOperators → LegacyOperandKept people term.operand

theorem canonicalize_cases (operator : Text) :
    canonicalizeStreamSynonyms folding operator = "stream".toList ∨
      canonicalizeStreamSynonyms folding operator = "streams".toList ∨
      canonicalizeStreamSynonyms folding operator = operator := by
  unfold canonicalizeStreamSynonyms
  split_ifs
  · exact .inl rfl
  · exact .inr (.inl rfl)
  · exact .inr (.inr rfl)

/-- The stream form of an operator is its own stream form. -/
theorem canonicalize_canonicalize (operator : Text) :
    canonicalizeStreamSynonyms folding (canonicalizeStreamSynonyms folding operator) =
      canonicalizeStreamSynonyms folding operator := by
  have loweredStream : folding.lower "stream".toList = "stream".toList :=
    folding.lower_ascii _ (by decide)
  have loweredStreams : folding.lower "streams".toList = "streams".toList :=
    folding.lower_ascii _ (by decide)
  rcases @canonicalize_cases folding operator with isStream | isStreams | same
  · rw [isStream]
    unfold canonicalizeStreamSynonyms
    rw [loweredStream]
    decide
  · rw [isStreams]
    unfold canonicalizeStreamSynonyms
    rw [loweredStreams]
    decide
  · rw [same, same]

theorem canonicalize_mem_userOperators {operator : Text} :
    canonicalizeStreamSynonyms folding operator ∈ userOperators ↔ operator ∈ userOperators := by
  constructor
  · intro member
    rcases @canonicalize_cases folding operator with isStream | isStreams | same
    · rw [isStream] at member
      exact absurd member (by decide)
    · rw [isStreams] at member
      exact absurd member (by decide)
    · rwa [same] at member
  · intro member
    rwa [(@canonicalize_userOperator folding operator member).1]

theorem encodeOperand_slug {operator operand slug : Text} (isUser : operator ∈ userOperators)
    (written : emailsToSlug people categoryOther operand = some slug) (nonempty : slug ≠ []) :
    encodeOperand people streams categoryOther operator operand = slug := by
  have truthy : (slug != []) = true := by simpa using nonempty
  simp [encodeOperand, isUser, written, Option.filter, truthy]

theorem encodeOperand_plain {operator operand : Text} (notStream : operator ≠ "stream".toList)
    (noSlug : operator ∈ userOperators → emailsToSlug people categoryOther operand = none) :
    encodeOperand people streams categoryOther operator operand = encodeHashComponent operand := by
  unfold encodeOperand
  rw [if_neg notStream]
  split_ifs with isUser
  · rw [noSlug isUser]
    rfl
  · rfl

theorem encodeOperand_stream (operand : Text) :
    encodeOperand people streams categoryOther "stream".toList operand =
      encodeHashComponent (nameToSlug streams operand) := by
  have notUser : "stream".toList ∉ userOperators := by decide
  simp only [encodeOperand, if_neg notUser, Option.filter, if_true, encodeStreamName]

theorem decodeOperand_encodeHashComponent {operator operand : Text}
    (notUser : operator ∉ userOperators) :
    decodeOperand people streams operator (encodeHashComponent operand) =
      .ok (if canonicalizeStreamSynonyms folding operator = "stream".toList then
        slugToName streams operand else operand) := by
  simp only [decodeOperand, if_neg notUser, Option.filter, decodeHashComponent_encodeHashComponent]
  split_ifs <;> rfl

/-- A term of user operators comes back exactly if it is kept. -/
theorem userTerm_roundTrip {term : NarrowTerm} (valid : ValidTerm people streams term)
    (isUser : term.operator ∈ userOperators) :
    ∃ parsed, decodeOperand people streams term.operator
        (encodeOperand people streams categoryOther term.operator term.operand) = .ok parsed ∧
      (SameUsers people term.operand parsed ↔ TermKept people term) := by
  obtain ⟨canonical, notStream⟩ := @canonicalize_userOperator folding _ isUser
  have keptIff : TermKept people term ↔
      (term.operator ∈ legacyUserOperators → LegacyOperandKept people term.operand) := by
    constructor
    · exact TermKept.legacy
    · intro legacy
      refine ⟨fun isStream => ?_, legacy⟩
      rw [canonical] at isStream
      exact absurd isStream notStream
  rw [keptIff]
  by_cases known : AllKnown people term.operand
  · obtain ⟨users, ids, facts⟩ := exists_operandUsers people known
    obtain ⟨parsed, read, same⟩ :=
      decodeOperand_userSlug people streams categoryOther isUser facts
    have slug := emailsToSlug_eq people categoryOther facts
    rw [encodeOperand_slug people streams categoryOther isUser slug (by simp)]
    refine ⟨parsed, read, same.trans ?_⟩
    constructor
    · intro notNamed _
      exact .inl ⟨known, notNamed⟩
    · intro legacyKept
      by_cases legacy : term.operator ∈ legacyUserOperators
      · rcases legacyKept legacy with ⟨-, notNamed⟩ | ⟨unknown, -⟩
        · exact notNamed
        · exact absurd known unknown
      · exact (valid.users_known isUser legacy).2
  · have legacy : term.operator ∈ legacyUserOperators := by
      by_contra modern
      exact known (valid.users_known isUser modern).1
    obtain ⟨parsed, read, same⟩ := decodeOperand_unknown people streams isUser known
    rw [encodeOperand_plain people streams categoryOther notStream fun _ =>
      emailsToSlug_unknown people categoryOther known]
    refine ⟨parsed, read, same.trans ?_⟩
    simp [LegacyOperandKept, legacy, known]

/-- What the decoder makes of one term's operand, and when that is the term again. -/
theorem term_roundTrip {term : NarrowTerm} (valid : ValidTerm people streams term) :
    ∃ parsed, decodeOperand people streams (canonicalizeStreamSynonyms folding term.operator)
        (encodeOperand people streams categoryOther
          (canonicalizeStreamSynonyms folding term.operator) term.operand) = .ok parsed ∧
      (SameTerm people term
          ⟨term.negated, canonicalizeStreamSynonyms folding term.operator, parsed⟩ ↔
        TermKept people term) := by
  have sameIff (parsed : Text) : SameTerm people term
      ⟨term.negated, canonicalizeStreamSynonyms folding term.operator, parsed⟩ ↔
        if term.operator ∈ userOperators then SameUsers people term.operand parsed
        else parsed = term.operand :=
    ⟨fun same => same.operand, fun operand => ⟨rfl, rfl, operand⟩⟩
  by_cases isUser : term.operator ∈ userOperators
  · rw [(@canonicalize_userOperator folding _ isUser).1] at sameIff ⊢
    obtain ⟨parsed, read, same⟩ := userTerm_roundTrip people streams categoryOther valid isUser
    refine ⟨parsed, read, ?_⟩
    rw [sameIff, if_pos isUser, same]
  · have notUser : canonicalizeStreamSynonyms folding term.operator ∉ userOperators :=
      fun member => isUser (canonicalize_mem_userOperators.mp member)
    have notLegacy : term.operator ∉ legacyUserOperators := by
      intro legacy
      refine isUser ?_
      simp only [legacyUserOperators, List.mem_cons, List.not_mem_nil, or_false] at legacy
      rcases legacy with isLegacy | isLegacy
      · rw [isLegacy]
        decide
      · rw [isLegacy]
        decide
    have keptIff : TermKept people term ↔
        (canonicalizeStreamSynonyms folding term.operator = "stream".toList →
          StreamNameOnOneLine term.operand) :=
      ⟨TermKept.stream, fun stream => ⟨stream, fun legacy => absurd legacy notLegacy⟩⟩
    simp only [sameIff, keptIff, if_neg isUser]
    by_cases isStream : canonicalizeStreamSynonyms folding term.operator = "stream".toList
    · obtain ⟨streamId, sub, known, name⟩ := valid.stream_known isStream
      rw [← canonicalize_canonicalize] at isStream
      refine ⟨slugToName streams (nameToSlug streams term.operand), ?_, ?_⟩
      · have written : decodeOperand people streams
            (canonicalizeStreamSynonyms folding term.operator)
            (encodeHashComponent (nameToSlug streams term.operand)) = _ :=
          decodeOperand_encodeHashComponent people streams notUser
        rw [if_pos isStream] at written
        rw [canonicalize_canonicalize] at isStream
        rw [isStream] at written ⊢
        rw [encodeOperand_stream, written]
      · rw [canonicalize_canonicalize] at isStream
        rw [← name, slugToName_nameToSlug streams known]
        split_ifs with oneLine
        · simp [oneLine]
        · exact iff_of_false (nameToSlug_ne_name streams known) fun kept => oneLine (kept isStream)
    · refine ⟨term.operand, ?_, iff_of_true rfl fun other => absurd other isStream⟩
      rw [encodeOperand_plain people streams categoryOther isStream
          fun other => absurd other notUser,
        decodeOperand_encodeHashComponent people streams notUser, canonicalize_canonicalize,
        if_neg isStream]

/-! ## The slash between components -/

theorem slash_not_mem_encodeHashComponent (str : Text) : '/' ∉ encodeHashComponent str := by
  intro member
  have unreserved := unreserved_of_mem_encodeHashComponent member
  revert unreserved
  decide

theorem kept_of_mem_replaceRuns {leftOut : Char → Bool} {c : Char} {text : Text} :
    ∀ {inRun : Bool}, c ∈ replaceRuns leftOut inRun text → c = '-' ∨ leftOut c = false := by
  induction text with
  | nil =>
      intro inRun member
      cases member
  | cons first rest inductionHypothesis =>
      intro inRun member
      unfold replaceRuns at member
      split_ifs at member with isLeftOut run
      · exact inductionHypothesis member
      · rcases List.mem_cons.mp member with dash | later
        · exact .inl dash
        · exact inductionHypothesis later
      · rcases List.mem_cons.mp member with rfl | later
        · exact .inr (by simpa using isLeftOut)
        · exact inductionHypothesis later

theorem slash_not_mem_slugSuffix (emails : List Text) :
    '/' ∉ slugSuffix people categoryOther emails := by
  unfold slugSuffix
  split
  · split
    · intro member
      rcases kept_of_mem_replaceRuns member with dash | kept
      · exact absurd dash (by decide)
      · simp [isLeftOut] at kept
    · exact List.not_mem_nil
  · decide

theorem nameToSlug_ne_nil {name : Text} (nonempty : name ≠ []) : nameToSlug streams name ≠ [] := by
  unfold nameToSlug
  split
  · exact nonempty
  · simp

/-- An operand is written as a user slug or as a hash component. -/
theorem encodeOperand_cases (operator operand : Text) :
    (∃ ids : List Nat, encodeOperand people streams categoryOther operator operand =
      joinInts (ids.map some) ++ '-' ::
        slugSuffix people categoryOther (operand.splitOn ',')) ∨
    ∃ str, encodeOperand people streams categoryOther operator operand = encodeHashComponent str ∧
      (operand ≠ [] → str ≠ []) := by
  by_cases slug : operator ∈ userOperators ∧ AllKnown people operand
  · obtain ⟨isUser, known⟩ := slug
    obtain ⟨users, ids, facts⟩ := exists_operandUsers people known
    exact .inl ⟨ids, encodeOperand_slug people streams categoryOther isUser
      (emailsToSlug_eq people categoryOther facts) (by simp)⟩
  · by_cases isStream : operator = "stream".toList
    · rw [isStream, encodeOperand_stream]
      exact .inr ⟨_, rfl, nameToSlug_ne_nil streams⟩
    · rw [encodeOperand_plain people streams categoryOther isStream fun isUser =>
        emailsToSlug_unknown people categoryOther fun known => slug ⟨isUser, known⟩]
      exact .inr ⟨operand, rfl, id⟩

theorem slash_not_mem_encodeOperand (operator operand : Text) :
    '/' ∉ encodeOperand people streams categoryOther operator operand := by
  rcases encodeOperand_cases people streams categoryOther operator operand with
    ⟨ids, isSlug⟩ | ⟨str, isComponent, -⟩
  · rw [isSlug]
    intro member
    rcases List.mem_append.mp member with inIds | inSuffix
    · have idChar := isIdOrComma_of_mem_joinInts inIds
      revert idChar
      decide
    · rcases List.mem_cons.mp inSuffix with dash | later
      · exact absurd dash (by decide)
      · exact slash_not_mem_slugSuffix people categoryOther _ later
  · rw [isComponent]
    exact slash_not_mem_encodeHashComponent str

theorem encodeOperand_ne_nil {operator operand : Text} (nonempty : operand ≠ []) :
    encodeOperand people streams categoryOther operator operand ≠ [] := by
  rcases encodeOperand_cases people streams categoryOther operator operand with
    ⟨ids, isSlug⟩ | ⟨str, isComponent, strNonempty⟩
  · rw [isSlug]
    simp
  · rw [isComponent]
    exact encodeHashComponent_ne_nil (strNonempty nonempty)

/-- Text whose later pieces follow a separator is split into its pieces. -/
theorem splitOn_flatMap_cons {separator : Char} {pieces : List Text} :
    ∀ {first : Text}, separator ∉ first → (∀ piece ∈ pieces, separator ∉ piece) →
      (first ++ pieces.flatMap fun piece => separator :: piece).splitOn separator =
        first :: pieces := by
  induction pieces with
  | nil =>
      intro first free _
      rw [List.flatMap_nil, List.append_nil, List.splitOn_eq_singleton free]
  | cons piece pieces inductionHypothesis =>
      intro first free allFree
      rw [List.flatMap_cons, List.cons_append,
        List.splitOn_append_cons_self_of_not_mem free,
        inductionHypothesis (allFree piece List.mem_cons_self) fun other member =>
          allFree other (List.mem_cons_of_mem piece member)]

/-! ## The whole hash -/

/-- The two components of a term. -/
def termComponents (term : NarrowTerm) : List Text :=
  [(if term.negated then ['-'] else []) ++
      encodeHashComponent (canonicalizeStreamSynonyms folding term.operator),
    encodeOperand people streams categoryOther
      (canonicalizeStreamSynonyms folding term.operator) term.operand]

theorem splitOn_searchTermsToHash (terms : List NarrowTerm) :
    (searchTermsToHash people streams categoryOther terms).splitOn '/' =
      "#narrow".toList :: terms.flatMap (termComponents people streams categoryOther) := by
  have written : searchTermsToHash people streams categoryOther terms =
      "#narrow".toList ++
        (terms.flatMap (termComponents people streams categoryOther)).flatMap fun piece =>
          '/' :: piece := by
    unfold searchTermsToHash
    rw [List.flatMap_assoc]
    refine congrArg _ (List.flatMap_congr fun term _ => ?_)
    simp [termToHash, termComponents]
  rw [written]
  refine splitOn_flatMap_cons (by decide) fun piece member => ?_
  obtain ⟨term, -, isComponent⟩ := List.mem_flatMap.mp member
  simp only [termComponents, List.mem_cons, List.not_mem_nil, or_false] at isComponent
  rcases isComponent with rfl | rfl
  · intro slash
    rcases List.mem_append.mp slash with inSign | inOperator
    · split_ifs at inSign
      · exact absurd inSign (by decide)
      · cases inSign
    · exact slash_not_mem_encodeHashComponent _ inOperator
  · exact slash_not_mem_encodeOperand people streams categoryOther _ _

theorem decodeHashComponent_signed (negated : Bool) (operator : Text) :
    decodeHashComponent ((if negated then ['-'] else []) ++ encodeHashComponent operator) =
      .ok ((if negated then ['-'] else []) ++ operator) := by
  cases negated with
  | false => exact decodeHashComponent_encodeHashComponent operator
  | true => exact decodeHashComponent_encodeHashComponent ('-' :: operator)

theorem canonicalize_signless {operator : Text} (nonempty : operator ≠ [])
    (unsigned : operator.head? ≠ some '-') :
    canonicalizeStreamSynonyms folding operator ≠ [] ∧
      (canonicalizeStreamSynonyms folding operator).head? ≠ some '-' := by
  rcases @canonicalize_cases folding operator with isStream | isStreams | same
  · rw [isStream]
    decide
  · rw [isStreams]
    decide
  · rw [same]
    exact ⟨nonempty, unsigned⟩

/-- Reading a term's two components adds one term to what the rest of the hash gives. -/
theorem parseTerms_termComponents {term : NarrowTerm} (valid : ValidTerm people streams term)
    {parsed : Text}
    (read : decodeOperand people streams (canonicalizeStreamSynonyms folding term.operator)
      (encodeOperand people streams categoryOther
        (canonicalizeStreamSynonyms folding term.operator) term.operand) = .ok parsed)
    {hash : List Text} {terms : List NarrowTerm}
    (rest : parseTerms people streams hash = .ok (some terms)) :
    parseTerms people streams (termComponents people streams categoryOther term ++ hash) =
      .ok (some
        (⟨term.negated, canonicalizeStreamSynonyms folding term.operator, parsed⟩ :: terms)) := by
  obtain ⟨nonempty, unsigned⟩ :=
    @canonicalize_signless folding _ valid.operator_nonempty valid.operator_unsigned
  have operandNonempty := @encodeOperand_ne_nil folding people streams categoryOther
    (canonicalizeStreamSynonyms folding term.operator) _ valid.operand_nonempty
  unfold termComponents
  rw [List.cons_append, List.cons_append, List.nil_append, parseTerms,
    decodeHashComponent_signed]
  cases sign : term.negated with
  | false =>
      simp [nonempty, unsigned, operandNonempty, read, rest, bind, Except.bind, pure, Except.pure]
  | true =>
      simp [operandNonempty, read, rest, bind, Except.bind, pure, Except.pure]

/-- The hash of valid terms is read as one term for each, and which of them are the same is
known term by term. -/
theorem parseNarrow_searchTermsToHash {terms : List NarrowTerm}
    (valid : ∀ term ∈ terms, ValidTerm people streams term) :
    ∃ parsed, parseNarrow people streams
        ((searchTermsToHash people streams categoryOther terms).splitOn '/') =
          .ok (some parsed) ∧
      List.Forall₂ (fun term read => SameTerm people term read ↔ TermKept people term)
        terms parsed := by
  rw [splitOn_searchTermsToHash]
  change ∃ parsed, parseTerms people streams
    (terms.flatMap (termComponents people streams categoryOther)) = .ok (some parsed) ∧ _
  induction terms with
  | nil => exact ⟨[], rfl, .nil⟩
  | cons term terms inductionHypothesis =>
      obtain ⟨parsed, rest, sameRest⟩ := inductionHypothesis fun other member =>
        valid other (List.mem_cons_of_mem term member)
      have validTerm := valid term List.mem_cons_self
      obtain ⟨operand, read, same⟩ := term_roundTrip people streams categoryOther validTerm
      refine ⟨_, ?_, .cons same sameRest⟩
      rw [List.flatMap_cons]
      exact parseTerms_termComponents people streams categoryOther validTerm read rest

end People

/-! ## A client that knows one stream -/

/-- Nobody is known. -/
def nobody : People smallLetters where
  peopleDict := fun _ => none
  peopleByUserIdDict := fun _ => none
  myUserId := 9
  byUserId_of_peopleDict := fun found => nomatch found
  userId_of_byUserId := fun found => nomatch found
  peopleDict_of_byUserId := fun found => nomatch found
  userId_pos := fun found => nomatch found
  email_at := fun found => nomatch found
  email_comma := fun found => nomatch found

/-- The only stream, under its id and its folded name. -/
def onlyStream (sub : StreamSubscription) (positive : 0 < sub.streamId) :
    Streams smallLetters where
  streamIdsByName := fun key => if key = sub.name then some sub.streamId else none
  streamIdsByOldNames := fun _ => none
  subStore := fun id => if id = sub.streamId then some sub else none
  streamId_pos := by
    intro id known found
    split_ifs at found with same
    rw [same]
    exact positive
  streamIdsByName_of_subStore := by
    intro id known found
    split_ifs at found with same
    cases found
    rw [same]
    exact if_pos rfl

theorem onlyStream_valid (sub : StreamSubscription) (positive : 0 < sub.streamId) (negated : Bool)
    (nonempty : sub.name ≠ []) :
    ValidTerm nobody (onlyStream sub positive) ⟨negated, "channel".toList, sub.name⟩ where
  operator_nonempty := show "channel".toList ≠ [] by decide
  operator_unsigned := show "channel".toList.head? ≠ some '-' by decide
  operand_nonempty := nonempty
  stream_known := fun _ => ⟨sub.streamId, sub, if_pos rfl, rfl⟩
  users_known := fun isUser =>
    absurd isUser (show "channel".toList ∉ userOperators by decide)

def funTime : StreamSubscription := ⟨17, "fun time".toList⟩

theorem funTime_positive : 0 < funTime.streamId := by decide

def twoLines : StreamSubscription := ⟨17, "fun\u2028time".toList⟩

theorem twoLines_positive : 0 < twoLines.streamId := by decide

section Claim

variable {folding : CaseFolding} (people : People folding) (streams : Streams folding)
  (categoryOther : Char → Bool)

/-- A list of terms comes back from its URL exactly if every term is kept. -/
theorem narrowUrl_roundTrip_iff (terms : List NarrowTerm)
    (valid : ∀ term ∈ terms, ValidTerm people streams term) :
    (∃ parsed, parseNarrow people streams
        ((searchTermsToHash people streams categoryOther terms).splitOn '/') =
          .ok (some parsed) ∧
        List.Forall₂ (SameTerm people) terms parsed) ↔
      ∀ term ∈ terms, TermKept people term := by
  obtain ⟨parsed, read, pointwise⟩ :=
    parseNarrow_searchTermsToHash people streams categoryOther valid
  rw [← forall₂_iff_forall_of_iff pointwise]
  constructor
  · rintro ⟨other, otherRead, same⟩
    rw [read] at otherRead
    cases otherRead
    exact same
  · intro same
    exact ⟨parsed, read, same⟩

end Claim

theorem narrowUrl_roundTrip_iff_funTime :
    ∃ parsed, parseNarrow nobody (onlyStream funTime funTime_positive)
        ((searchTermsToHash nobody (onlyStream funTime funTime_positive) (fun _ => false)
          [⟨true, "channel".toList, funTime.name⟩]).splitOn '/') = .ok (some parsed) ∧
      List.Forall₂ (SameTerm nobody) [⟨true, "channel".toList, funTime.name⟩] parsed := by
  have valid := onlyStream_valid funTime funTime_positive true (by decide)
  refine (narrowUrl_roundTrip_iff nobody _ _ _ (List.forall_mem_singleton.mpr valid)).mpr ?_
  exact List.forall_mem_singleton.mpr ⟨fun _ => by decide, fun legacy => absurd legacy (by decide)⟩

/-- The slug of a stream whose name has a line separator is read as the name of a stream. -/
theorem lineSeparator_not_sameTerm :
    (∀ term ∈ [(⟨false, "channel".toList, twoLines.name⟩ : NarrowTerm)],
      ValidTerm nobody (onlyStream twoLines twoLines_positive) term) ∧
    ¬ ∃ parsed, parseNarrow nobody (onlyStream twoLines twoLines_positive)
        ((searchTermsToHash nobody (onlyStream twoLines twoLines_positive) (fun _ => false)
          [⟨false, "channel".toList, twoLines.name⟩]).splitOn '/') = .ok (some parsed) ∧
      List.Forall₂ (SameTerm nobody) [⟨false, "channel".toList, twoLines.name⟩] parsed := by
  have valid := onlyStream_valid twoLines twoLines_positive false (by decide)
  refine ⟨List.forall_mem_singleton.mpr valid, ?_⟩
  have read : parseNarrow nobody (onlyStream twoLines twoLines_positive)
      ((searchTermsToHash nobody (onlyStream twoLines twoLines_positive) (fun _ => false)
        [⟨false, "channel".toList, twoLines.name⟩]).splitOn '/') =
      .ok (some [⟨false, "stream".toList, "17-fun\u2028time".toList⟩]) := by
    rfl
  rintro ⟨parsed, otherRead, same⟩
  rw [read] at otherRead
  cases otherRead
  obtain ⟨sameTerm, -⟩ := List.forall₂_cons.mp same
  exact absurd (sameTerm.operand_of_not_user (by decide)) (by decide)

end Zulip.Client.NarrowUrl
