import Mathlib.Data.List.Infix
import Zulip.EmailMirror.Addresses
import Zulip.Foundation.Program
import Zulip.Foundation.Scanning

/-!
# Addresses that are read back

`address_roundTrip_iff`: an address gives back its token and options exactly when the pattern has no
other percent sign, and the part that the regular expression reads is the whole of what was put in,
with a name that is not taken for an option; or a shorter part that happens to say the same.
-/

namespace Zulip.EmailMirror

/-! ## Texts that are split at a character -/

section Splitting

variable {α : Type} [DecidableEq α] {separator : α} {parts : List (List α)} {text : List α}

omit [DecidableEq α] in
theorem intercalate_cons_cons (first second : List α) (rest : List (List α)) :
    [separator].intercalate (first :: second :: rest) =
      first ++ separator :: [separator].intercalate (second :: rest) := by
  rw [List.intercalate_cons_cons, List.append_assoc, List.singleton_append]

omit [DecidableEq α] in
theorem mem_of_mem_intercalate {element : α}
    (isMember : element ∈ [separator].intercalate parts) :
    element = separator ∨ ∃ part ∈ parts, element ∈ part := by
  induction parts with
  | nil => cases isMember
  | cons first rest inductionHypothesis =>
      cases rest with
      | nil =>
          rw [List.intercalate_singleton] at isMember
          exact .inr ⟨first, List.mem_cons_self, isMember⟩
      | cons second rest =>
          rw [intercalate_cons_cons] at isMember
          rcases List.mem_append.mp isMember with inFirst | isLater
          · exact .inr ⟨first, List.mem_cons_self, inFirst⟩
          · rcases List.mem_cons.mp isLater with isSeparator | isLater
            · exact .inl isSeparator
            · rcases inductionHypothesis isLater with isSeparator | ⟨part, isPart, inPart⟩
              · exact .inl isSeparator
              · exact .inr ⟨part, List.mem_cons_of_mem _ isPart, inPart⟩

omit [DecidableEq α] in
/-- A beginning of two texts ends in the first one, or goes on in the second. -/
theorem prefix_append_cases {first tail : List α} (isPrefix : text <+: first ++ tail) :
    text <+: first ∨ ∃ after, text = first ++ after ∧ after <+: tail := by
  obtain ⟨later, isAppend⟩ := isPrefix
  rcases List.append_eq_append_iff.mp isAppend with ⟨between, isFirst, -⟩ | ⟨after, isText, isTail⟩
  · exact .inl ⟨between, isFirst.symm⟩
  · exact .inr ⟨after, isText, ⟨later, isTail.symm⟩⟩

theorem splitOn_of_prefix {part : List α} (free : separator ∉ part) (isPrefix : text <+: part) :
    text.splitOn separator = [text] :=
  List.splitOn_eq_singleton fun member => free (isPrefix.subset member)

/-- A beginning of joined parts splits into some of the parts and a beginning of the next one. -/
theorem exists_splitOn_of_prefix (free : ∀ part ∈ parts, separator ∉ part) (some : parts ≠ [])
    (isPrefix : text <+: [separator].intercalate parts) :
    ∃ full part whole rest, text.splitOn separator = full ++ [part] ∧
      parts = full ++ whole :: rest ∧ part <+: whole := by
  induction parts generalizing text with
  | nil => exact absurd rfl some
  | cons first rest inductionHypothesis =>
      have firstFree := free first List.mem_cons_self
      cases rest with
      | nil =>
          have isPrefix : text <+: first := by simpa using isPrefix
          exact ⟨[], text, first, [], splitOn_of_prefix firstFree isPrefix, rfl, isPrefix⟩
      | cons second rest =>
          rw [intercalate_cons_cons] at isPrefix
          rcases prefix_append_cases isPrefix with inFirst | ⟨after, rfl, isAfter⟩
          · exact ⟨[], text, first, second :: rest, splitOn_of_prefix firstFree inFirst, rfl,
              inFirst⟩
          · cases after with
            | nil =>
                rw [List.append_nil]
                exact ⟨[], first, first, second :: rest,
                  splitOn_of_prefix firstFree List.prefix_rfl, rfl, List.prefix_rfl⟩
            | cons head later =>
                obtain ⟨rfl, isLater⟩ := List.cons_prefix_cons.mp isAfter
                obtain ⟨full, part, whole, others, isSplit, isParts, partOf⟩ :=
                  inductionHypothesis (fun part member => free part (List.mem_cons_of_mem _ member))
                    (List.cons_ne_nil _ _) isLater
                refine ⟨first :: full, part, whole, others, ?_, ?_, partOf⟩
                · rw [List.splitOn_append_cons_self_of_not_mem firstFree, isSplit]
                  rfl
                · rw [isParts]
                  rfl

/-- Being joined parts, by what a split gives. -/
theorem eq_intercalate_iff (free : ∀ part ∈ parts, separator ∉ part) (some : parts ≠ []) :
    text = [separator].intercalate parts ↔ text.splitOn separator = parts := by
  constructor
  · rintro rfl
    exact List.splitOn_intercalate separator free some
  · intro isSplit
    rw [← isSplit, List.intercalate_splitOn]

end Splitting

/-! ## Parts of an address -/

def showSenderPart : Text := "show-sender".toList

/-- The parts that an address is made of. -/
def addressParts (encodedName emailToken : Text) (showSender : Bool) : List Text :=
  (if encodedName ≠ [] then [encodedName] else []) ++
    emailToken :: if showSender then [showSenderPart] else []

/-- A part that is read as an option. -/
abbrev IsOption (part : Text) : Prop := part ∈ optionalAddressTokens.keys

theorem mem_dash_of_isOption {part : Text} (isOption : IsOption part) : '-' ∈ part := by
  have all : ∀ part ∈ optionalAddressTokens.keys, '-' ∈ part := by decide
  exact all part isOption

/-- No proper beginning of the option that is written is an option. -/
theorem not_isOption_of_isPrefix {part : Text} (isPrefix : part <+: showSenderPart)
    (proper : part ≠ showSenderPart) : ¬IsOption part := by
  have all : ∀ part ∈ showSenderPart.inits, part ≠ showSenderPart →
      part ∉ optionalAddressTokens.keys := by decide
  exact all part (List.mem_inits _ _ |>.mpr isPrefix) proper

theorem setOption_of_not_isOption {part : Text} (options : Options)
    (notOption : ¬IsOption part) : setOption options part = options := by
  unfold setOption
  rw [Dict.get?_eq_none_iff.mpr notOption]

theorem setOption_showSender (options : Options) :
    setOption options showSenderPart = options.set "show_sender" true := rfl

/-- An option in the place of the name shows in the options. -/
theorem setOption_ne {part : Text} (isOption : IsOption part) :
    setOption Dict.empty part ≠ Dict.empty ∧
      (part ≠ showSenderPart →
        setOption Dict.empty part ≠ Dict.empty.set "show_sender" true ∧
        (setOption Dict.empty part).set "show_sender" true ≠
          Dict.empty.set "show_sender" true) := by
  have all : ∀ part ∈ optionalAddressTokens.keys, setOption Dict.empty part ≠ Dict.empty ∧
      (part ≠ showSenderPart →
        setOption Dict.empty part ≠ Dict.empty.set "show_sender" true ∧
        (setOption Dict.empty part).set "show_sender" true ≠
          Dict.empty.set "show_sender" true) := by decide
  exact all part isOption

/-- What the parts of an address are read as. -/
theorem decodeParts_eq_ok_iff {parts : List Text} {token : Text} {options : Options} :
    decodeParts parts = .ok (token, options) ↔
      parts.foldl setOption Dict.empty = options ∧
        ((parts.filter fun part => part ∉ optionalAddressTokens.keys) = [token] ∨
          ∃ first rest, (parts.filter fun part => part ∉ optionalAddressTokens.keys) =
            first :: token :: rest) := by
  unfold decodeParts
  dsimp only
  cases parts.filter fun part => part ∉ optionalAddressTokens.keys with
  | nil => simp
  | cons first rest =>
      cases rest with
      | nil => simp [and_comm]
      | cons second rest => simp [and_comm]

/-! ## The regular expression -/

section Matching

variable {before after text : Text}

theorem matchParts_singleton (part address : Text) :
    matchParts [part] address = if part.isPrefixOf address then some [] else none := rfl

theorem matchParts_pair (part next address : Text) :
    matchParts [part, next] address =
      if part.isPrefixOf address then
        lazyGroup (matchParts [next]) (address.drop part.length)
      else none := rfl

/-- The group ends where the text after it occurs first. -/
theorem lazyGroup_append (noNewline : '\n' ∉ text) :
    lazyGroup (matchParts [after]) (text ++ after) = some [beforeFirst after (text ++ after)] := by
  induction text with
  | nil =>
      cases after with
      | nil => rfl
      | cons head rest =>
          have isPrefix : (head :: rest).isPrefixOf (head :: rest) = true :=
            List.isPrefixOf_iff_prefix.mpr List.prefix_rfl
          simp [lazyGroup, beforeFirst, matchParts_singleton, isPrefix]
  | cons c rest inductionHypothesis =>
      obtain ⟨notNewline, noNewline⟩ := List.ne_and_not_mem_of_not_mem_cons noNewline
      rw [List.cons_append, lazyGroup, beforeFirst, matchParts_singleton]
      by_cases isPrefix : after.isPrefixOf (c :: (rest ++ after)) = true
      · rw [if_pos isPrefix, if_pos isPrefix]
      · rw [if_neg isPrefix, if_neg isPrefix, if_neg (Ne.symm notNewline),
          inductionHypothesis noNewline]
        rfl

theorem beforeFirst_append_isPrefix : beforeFirst after (text ++ after) <+: text := by
  induction text with
  | nil =>
      cases after with
      | nil => exact List.prefix_rfl
      | cons head rest =>
          have isPrefix : (head :: rest).isPrefixOf (head :: rest) = true :=
            List.isPrefixOf_iff_prefix.mpr List.prefix_rfl
          rw [List.nil_append, beforeFirst, if_pos isPrefix]
  | cons c rest inductionHypothesis =>
      rw [List.cons_append, beforeFirst]
      split_ifs with isPrefix
      · exact List.nil_prefix
      · exact List.cons_prefix_cons.mpr ⟨rfl, inductionHypothesis⟩

theorem matchParts_append (noNewline : '\n' ∉ text) :
    matchParts [before, after] (before ++ (text ++ after)) =
      some [beforeFirst after (text ++ after)] := by
  have isPrefix : before.isPrefixOf (before ++ (text ++ after)) = true :=
    List.isPrefixOf_iff_prefix.mpr (List.prefix_append _ _)
  rw [matchParts_pair, if_pos isPrefix, List.drop_left, lazyGroup_append noNewline]

theorem exists_of_lazyGroup {groups : List Text}
    (isMatch : lazyGroup (matchParts [after]) text = some groups) :
    ∃ group later, text = group ++ (after ++ later) := by
  induction text generalizing groups with
  | nil =>
      rw [lazyGroup, matchParts_singleton] at isMatch
      split_ifs at isMatch with isPrefix
      · obtain ⟨later, isText⟩ := List.isPrefixOf_iff_prefix.mp isPrefix
        exact ⟨[], later, isText.symm⟩
      · cases isMatch
  | cons c rest inductionHypothesis =>
      rw [lazyGroup, matchParts_singleton] at isMatch
      by_cases isPrefix : after.isPrefixOf (c :: rest) = true
      · obtain ⟨later, isText⟩ := List.isPrefixOf_iff_prefix.mp isPrefix
        exact ⟨[], later, isText.symm⟩
      · rw [if_neg isPrefix] at isMatch
        have notNewline : c ≠ '\n' := by
          rintro rfl
          cases isMatch
        rw [if_neg notNewline] at isMatch
        obtain ⟨inner, isInner, -⟩ := Option.map_eq_some_iff.mp isMatch
        obtain ⟨group, later, rfl⟩ := inductionHypothesis isInner
        exact ⟨c :: group, later, rfl⟩

/-- A text that is matched has both parts in it. -/
theorem exists_of_matchParts {address : Text} {groups : List Text}
    (isMatch : matchParts [before, after] address = some groups) :
    ∃ group later, address = before ++ (group ++ (after ++ later)) := by
  rw [matchParts_pair] at isMatch
  by_cases isPrefix : before.isPrefixOf address = true
  · rw [if_pos isPrefix] at isMatch
    obtain ⟨tail, rfl⟩ := List.isPrefixOf_iff_prefix.mp isPrefix
    rw [List.drop_left] at isMatch
    obtain ⟨group, later, rfl⟩ := exists_of_lazyGroup isMatch
    exact ⟨group, later, rfl⟩
  · rw [if_neg isPrefix] at isMatch
    cases isMatch

end Matching

/-! ## The pattern -/

section Pattern

variable {pattern argument address before after : Text}

theorem splitPattern_ne_nil (pattern : Text) : splitPattern pattern ≠ [] := by
  fun_induction splitPattern pattern with
  | case1 => simp
  | case2 rest _ => simp
  | case3 c rest _ inductionHypothesis => simpa using inductionHypothesis

theorem intercalate_splitPattern (pattern : Text) :
    ['%', 's'].intercalate (splitPattern pattern) = pattern := by
  fun_induction splitPattern pattern with
  | case1 => rfl
  | case2 rest inductionHypothesis =>
      rw [List.intercalate_cons_of_ne_nil (splitPattern_ne_nil rest), inductionHypothesis]
      rfl
  | case3 c rest _ inductionHypothesis =>
      obtain ⟨first, others, isSplit⟩ := List.exists_cons_of_ne_nil (splitPattern_ne_nil rest)
      rw [isSplit] at inductionHypothesis ⊢
      rw [List.modifyHead_cons, List.intercalate_cons_cons_left, inductionHypothesis]

theorem eq_of_splitPattern (onePlace : splitPattern pattern = [before, after]) :
    pattern = before ++ '%' :: 's' :: after := by
  have isPattern := intercalate_splitPattern pattern
  rw [onePlace] at isPattern
  simpa using isPattern.symm

/-- All percent signs of a pattern are used in pairs, apart from the one of the place. -/
theorem count_percentFormat {used : Bool} (free : '%' ∉ argument)
    (isFormat : percentFormat argument used pattern = some address) :
    pattern.count '%' = 2 * address.count '%' + if used then 0 else 1 := by
  fun_induction percentFormat argument used pattern generalizing address with
  | case1 =>
      cases isFormat
      simp
  | case2 => cases isFormat
  | case3 used rest inductionHypothesis =>
      obtain ⟨inner, isInner, rfl⟩ := Option.map_eq_some_iff.mp isFormat
      have counts := inductionHypothesis isInner
      simp only [List.count_cons_self]
      omega
  | case4 => cases isFormat
  | case5 used rest notUsed inductionHypothesis =>
      obtain ⟨inner, isInner, rfl⟩ := Option.map_eq_some_iff.mp isFormat
      have counts := inductionHypothesis isInner
      simp [List.count_eq_zero_of_not_mem free, notUsed] at counts ⊢
      omega
  | case6 => cases isFormat
  | case7 used c rest _ _ notPercent inductionHypothesis =>
      obtain ⟨inner, isInner, rfl⟩ := Option.map_eq_some_iff.mp isFormat
      have counts := inductionHypothesis isInner
      have notPercent : c ≠ '%' := fun isPercent => notPercent isPercent
      rw [List.count_cons_of_ne notPercent, List.count_cons_of_ne notPercent, counts]

theorem percentFormat_append {used : Bool} {rest : Text} (free : '%' ∉ before) :
    percentFormat argument used (before ++ rest) =
      (percentFormat argument used rest).map (before ++ ·) := by
  induction before with
  | nil => simp
  | cons c later inductionHypothesis =>
      obtain ⟨notPercent, free⟩ := List.ne_and_not_mem_of_not_mem_cons free
      have notPercent : c ≠ '%' := Ne.symm notPercent
      rw [List.cons_append, percentFormat, inductionHypothesis free, Option.map_map]
      · rfl
      all_goals simp [notPercent]

theorem percentFormat_place (freeBefore : '%' ∉ before) (freeAfter : '%' ∉ after) :
    percentFormat argument false (before ++ '%' :: 's' :: after) =
      some (before ++ (argument ++ after)) := by
  have atEnd : percentFormat argument true after = some after := by
    have appended := @percentFormat_append argument after true [] freeAfter
    simpa [percentFormat] using appended
  rw [percentFormat_append freeBefore, percentFormat, if_neg Bool.false_ne_true, atEnd]
  rfl

end Pattern

/-! ## What the parts are read as -/

section Parts

variable {encodedName emailToken read : Text} {showSender : Bool} {options : Options}

theorem isOption_showSender : IsOption showSenderPart := by decide

theorem showOptions_ne : (Dict.empty : Options) ≠ Dict.empty.set "show_sender" true := by decide

/-- One part is read as the token, unless it is an option. -/
theorem decodeParts_singleton {part : Text} :
    decodeParts [part] = .ok (emailToken, options) ↔
      ¬IsOption part ∧ part = emailToken ∧ Dict.empty = options := by
  rw [decodeParts_eq_ok_iff]
  by_cases isOption : IsOption part
  · simp [isOption]
  · simp [isOption, setOption_of_not_isOption, and_comm]

/-- Two parts, the second of which is not an option. -/
theorem decodeParts_pair {first part : Text} (notOption : ¬IsOption part) :
    decodeParts [first, part] = .ok (emailToken, options) ↔
      part = emailToken ∧ setOption Dict.empty first = options := by
  rw [decodeParts_eq_ok_iff]
  by_cases isOption : IsOption first
  · simp [isOption, notOption, setOption_of_not_isOption _ notOption, and_comm]
  · simp [isOption, notOption, setOption_of_not_isOption _ notOption, and_comm]

/-- A part that is not an option, and the option that is written. -/
theorem decodeParts_pair_showSender {first : Text} (notOption : ¬IsOption first) :
    decodeParts [first, showSenderPart] = .ok (emailToken, options) ↔
      first = emailToken ∧ Dict.empty.set "show_sender" true = options := by
  rw [decodeParts_eq_ok_iff]
  simp [isOption_showSender, notOption, setOption_of_not_isOption _ notOption,
    setOption_showSender, and_comm]

/-- A name, a part that is not an option, and the option that is written. -/
theorem decodeParts_triple_showSender {first second : Text} (notOption : ¬IsOption second) :
    decodeParts [first, second, showSenderPart] = .ok (emailToken, options) ↔
      second = emailToken ∧ (setOption Dict.empty first).set "show_sender" true = options := by
  rw [decodeParts_eq_ok_iff]
  by_cases isOption : IsOption first
  · simp [isOption, isOption_showSender, notOption, setOption_of_not_isOption _ notOption,
      setOption_showSender, and_comm]
  · simp [isOption, isOption_showSender, notOption, setOption_of_not_isOption _ notOption,
      setOption_showSender, and_comm]

/-- A name, and two parts that are not options. -/
theorem decodeParts_triple {first second part : Text} (notOption : ¬IsOption second)
    (partNotOption : ¬IsOption part) :
    decodeParts [first, second, part] = .ok (emailToken, options) ↔
      (if IsOption first then part else second) = emailToken ∧
        setOption Dict.empty first = options := by
  rw [decodeParts_eq_ok_iff]
  by_cases isOption : IsOption first
  · simp [isOption, notOption, partNotOption, setOption_of_not_isOption _ notOption,
      setOption_of_not_isOption _ partNotOption, and_comm]
  · simp [isOption, notOption, partNotOption, setOption_of_not_isOption _ notOption,
      setOption_of_not_isOption _ partNotOption, and_comm]

/-! A part leaves the options as they are, or sets the one that is written, in these cases only. -/

theorem setOption_eq_empty_iff {part : Text} :
    setOption Dict.empty part = Dict.empty ↔ ¬IsOption part :=
  ⟨fun isEmpty isOption => (setOption_ne isOption).1 isEmpty, setOption_of_not_isOption _⟩

theorem setOption_eq_show_iff {part : Text} :
    setOption Dict.empty part = Dict.empty.set "show_sender" true ↔ part = showSenderPart := by
  constructor
  · intro isShow
    by_cases isOption : IsOption part
    · by_contra other
      exact ((setOption_ne isOption).2 other).1 isShow
    · rw [setOption_of_not_isOption _ isOption] at isShow
      exact absurd isShow showOptions_ne
  · rintro rfl
    exact setOption_showSender _

theorem set_setOption_eq_show_iff {part : Text} :
    (setOption Dict.empty part).set "show_sender" true = Dict.empty.set "show_sender" true ↔
      (IsOption part → part = showSenderPart) := by
  constructor
  · intro isShow isOption
    by_contra other
    exact ((setOption_ne isOption).2 other).2 isShow
  · intro onlyShow
    by_cases isOption : IsOption part
    · rw [onlyShow isOption]
      rfl
    · rw [setOption_of_not_isOption _ isOption]

/-- The parts that are read are all that were put in, with a name that is not taken for another
option; or they are fewer, and say the same. -/
def ReadsParts (encodedName emailToken : Text) (showSender : Bool) (parts : List Text) : Prop :=
  (parts = addressParts encodedName emailToken showSender ∧
    (IsOption encodedName → showSender = true ∧ encodedName = showSenderPart)) ∨
  (showSender = false ∧ parts = [emailToken]) ∨
  (showSender = true ∧ encodedName = showSenderPart ∧
    (parts = [showSenderPart, emailToken] ∨ parts = [showSenderPart, emailToken, emailToken]))

variable {full rest : List Text} {part whole : Text}

theorem not_isOption_of_isPrefix_token (noDash : '-' ∉ emailToken) (partOf : part <+: emailToken) :
    ¬IsOption part := fun isOption =>
  noDash (partOf.subset (mem_dash_of_isOption isOption))

theorem not_isOption_nil : ¬IsOption [] := by decide

/-- Without the option, the token is the last of the parts. -/
theorem decodeParts_iff_readsParts_plain (noDash : '-' ∉ emailToken)
    (isParts : addressParts encodedName emailToken false = full ++ whole :: rest)
    (partOf : part <+: whole) :
    decodeParts (full ++ [part]) = .ok (emailToken, Dict.empty) ↔
      ReadsParts encodedName emailToken false (full ++ [part]) := by
  have tokenNotOption := not_isOption_of_isPrefix_token noDash List.prefix_rfl
  unfold ReadsParts addressParts at *
  by_cases noName : encodedName = []
  · subst noName
    cases full with
    | nil =>
        obtain ⟨rfl, rfl⟩ : emailToken = whole ∧ rest = [] := by simpa [eq_comm] using isParts
        have notOption := not_isOption_of_isPrefix_token noDash partOf
        simp [decodeParts_singleton, notOption, not_isOption_nil]
    | cons first full => simp at isParts
  · cases full with
    | nil =>
        rw [List.nil_append, decodeParts_singleton]
        constructor
        · rintro ⟨-, rfl, -⟩
          simp
        · intro reads
          obtain rfl : part = emailToken := by simpa [noName] using reads
          exact ⟨tokenNotOption, rfl, rfl⟩
    | cons first full =>
        cases full with
        | nil =>
            obtain ⟨rfl, rfl, rfl⟩ : first = encodedName ∧ whole = emailToken ∧ rest = [] := by
              simpa [noName, eq_comm] using isParts
            have notOption := not_isOption_of_isPrefix_token noDash partOf
            rw [List.singleton_append, decodeParts_pair notOption, setOption_eq_empty_iff]
            simp [noName]
        | cons second full => simp [noName] at isParts

/-- With the option, the token is the last part but one. -/
theorem decodeParts_iff_readsParts_showSender (noDash : '-' ∉ emailToken)
    (isParts : addressParts encodedName emailToken true = full ++ whole :: rest)
    (partOf : part <+: whole) :
    decodeParts (full ++ [part]) =
        .ok (emailToken, Dict.empty.set "show_sender" true) ↔
      ReadsParts encodedName emailToken true (full ++ [part]) := by
  have tokenNotOption := not_isOption_of_isPrefix_token noDash List.prefix_rfl
  unfold ReadsParts addressParts at *
  by_cases noName : encodedName = []
  · subst noName
    have notShow : [] ≠ showSenderPart := by decide
    cases full with
    | nil => simp [decodeParts_singleton, showOptions_ne, notShow]
    | cons first full =>
        cases full with
        | nil =>
            obtain ⟨rfl, rfl, rfl⟩ : first = emailToken ∧ whole = showSenderPart ∧ rest = [] := by
              simpa [eq_comm] using isParts
            rw [List.singleton_append]
            by_cases isWhole : part = showSenderPart
            · subst isWhole
              simp [decodeParts_pair_showSender tokenNotOption, not_isOption_nil]
            · rw [decodeParts_pair (not_isOption_of_isPrefix partOf isWhole),
                setOption_of_not_isOption _ tokenNotOption]
              simp [showOptions_ne, isWhole, notShow]
        | cons second full => simp at isParts
  · cases full with
    | nil => simp [decodeParts_singleton, showOptions_ne, noName]
    | cons first full =>
        cases full with
        | nil =>
            obtain ⟨rfl, rfl, rfl⟩ :
                first = encodedName ∧ whole = emailToken ∧ rest = [showSenderPart] := by
              simpa [noName, eq_comm] using isParts
            have notOption := not_isOption_of_isPrefix_token noDash partOf
            rw [List.singleton_append, decodeParts_pair notOption, setOption_eq_show_iff]
            constructor
            · rintro ⟨rfl, rfl⟩
              exact .inr (.inr ⟨rfl, rfl, .inl rfl⟩)
            · intro reads
              obtain ⟨isShow, isToken⟩ : first = showSenderPart ∧ part = whole := by
                simpa [noName] using reads
              exact ⟨isToken, isShow⟩
        | cons second full =>
            cases full with
            | nil =>
                obtain ⟨rfl, rfl, rfl, rfl⟩ : first = encodedName ∧ second = emailToken ∧
                    whole = showSenderPart ∧ rest = [] := by
                  simpa [noName, eq_comm] using isParts
                by_cases isWhole : part = showSenderPart
                · subst isWhole
                  rw [List.cons_append, List.singleton_append,
                    decodeParts_triple_showSender tokenNotOption, set_setOption_eq_show_iff]
                  constructor
                  · rintro ⟨-, onlyShow⟩
                    exact .inl ⟨by simp [noName], fun isOption => ⟨rfl, onlyShow isOption⟩⟩
                  · rintro (⟨-, onlyShow⟩ | ⟨impossible, -⟩ | ⟨-, isShow, -⟩)
                    · exact ⟨rfl, fun isOption => (onlyShow isOption).2⟩
                    · cases impossible
                    · exact ⟨rfl, fun _ => isShow⟩
                · rw [List.cons_append, List.singleton_append,
                    decodeParts_triple tokenNotOption (not_isOption_of_isPrefix partOf isWhole),
                    setOption_eq_show_iff]
                  constructor
                  · rintro ⟨isToken, rfl⟩
                    rw [if_pos isOption_showSender] at isToken
                    exact .inr (.inr ⟨rfl, rfl, .inr (by rw [isToken])⟩)
                  · intro reads
                    obtain ⟨rfl, rfl⟩ : first = showSenderPart ∧ part = second := by
                      simpa [noName, isWhole] using reads
                    exact ⟨if_pos isOption_showSender, rfl⟩
            | cons third full => simp [noName] at isParts

end Parts

/-! ## The round trip -/

/-- Plus signs and dots both separate, and there is no plus sign. -/
theorem splitOn_map_dots {text : Text} (noPlus : '+' ∉ text) :
    (text.map fun c => if c = '.' then '+' else c).splitOn '+' = text.splitOn '.' := by
  induction text with
  | nil => rfl
  | cons c rest inductionHypothesis =>
      obtain ⟨notPlus, noPlus⟩ := List.ne_and_not_mem_of_not_mem_cons noPlus
      rw [List.map_cons, List.splitOn_cons_eq_if_modifyHead, List.splitOn_cons_eq_if_modifyHead,
        inductionHypothesis noPlus]
      by_cases isDot : c = '.'
      · simp [isDot]
      · simp [isDot, Ne.symm notPlus]

namespace Gateway

variable {gateway : Gateway} {name emailToken : Text} {showSender : Bool} {c : Char}

/-- The text that is read is all that was put in, with a name that is not taken for another option;
or it is shorter, and says the same. -/
def ReadsBack (gateway : Gateway) (name emailToken : Text) (showSender : Bool) (read : Text) :
    Prop :=
  (read = gateway.encodedToken name emailToken showSender ∧
    (IsOption (gateway.encodedName name) →
      showSender = true ∧ gateway.encodedName name = showSenderPart)) ∨
  (showSender = false ∧ read = emailToken) ∨
  (showSender = true ∧ gateway.encodedName name = showSenderPart ∧
    (read = ['.'].intercalate [showSenderPart, emailToken] ∨
      read = ['.'].intercalate [showSenderPart, emailToken, emailToken]))

theorem encodedToken_eq_intercalate :
    gateway.encodedToken name emailToken showSender =
      ['.'].intercalate (addressParts (gateway.encodedName name) emailToken showSender) := by
  have dotShowSender : ".show-sender".toList = '.' :: showSenderPart := rfl
  unfold encodedToken addressParts
  by_cases noName : gateway.encodedName name = []
  · cases showSender with
    | false => simp [noName]
    | true => simp [noName, dotShowSender]
  · cases showSender with
    | false => simp [noName]
    | true => simp [noName, dotShowSender]

theorem ascii_of_mem_encodedName (isMember : c ∈ gateway.encodedName name) :
    c.isAlphanum = true ∨ c = '-' ∨ c = '_' := by
  unfold encodedName at isMember
  dsimp only at isMember
  split_ifs at isMember with sameLength
  · exact gateway.slugify_ascii _ c isMember
  · cases isMember

theorem mem_addressParts {encodedName part : Text}
    (isPart : part ∈ addressParts encodedName emailToken showSender) :
    part = encodedName ∨ part = emailToken ∨ part = showSenderPart := by
  unfold addressParts at isPart
  rcases List.mem_append.mp isPart with isName | isLater
  · split_ifs at isName
    · exact .inl (List.mem_singleton.mp isName)
    · cases isName
  · rcases List.mem_cons.mp isLater with isToken | isOption
    · exact .inr (.inl isToken)
    · split_ifs at isOption
      · exact .inr (.inr (List.mem_singleton.mp isOption))
      · cases isOption

/-- A character of an address part is none of the special ones. -/
theorem not_mem_addressParts (alnum : ∀ c ∈ emailToken, gateway.isAlnum c = true)
    (isSpecial : c ∈ ['.', '+', '%', '\n']) {part : Text}
    (isPart : part ∈ addressParts (gateway.encodedName name) emailToken showSender) : c ∉ part := by
  intro isMember
  rcases mem_addressParts isPart with rfl | rfl | rfl
  · rcases ascii_of_mem_encodedName isMember with isAlphanum | rfl | rfl
    · have none : ∀ c ∈ ['.', '+', '%', '\n'], c.isAlphanum = false := by decide
      rw [none c isSpecial] at isAlphanum
      cases isAlphanum
    · revert isSpecial
      decide
    · revert isSpecial
      decide
  · have separators : ∀ c ∈ ['.', '+', '%', '\n'], c ∈ ['.', '+', '-', '%', '\n'] := by decide
    have notAlnum := gateway.isAlnum_separator c (separators c isSpecial)
    rw [alnum c isMember] at notAlnum
    cases notAlnum
  · have none : ∀ c ∈ ['.', '+', '%', '\n'], c ∉ showSenderPart := by decide
    exact none c isSpecial isMember

theorem not_mem_encodedToken (alnum : ∀ c ∈ emailToken, gateway.isAlnum c = true)
    (isSpecial : c ∈ ['+', '%', '\n']) :
    c ∉ gateway.encodedToken name emailToken showSender := by
  have special : ∀ c ∈ ['+', '%', '\n'], c ∈ ['.', '+', '%', '\n'] ∧ c ≠ '.' := by decide
  rw [encodedToken_eq_intercalate]
  intro isMember
  rcases mem_of_mem_intercalate isMember with isDot | ⟨part, isPart, inPart⟩
  · exact (special c isSpecial).2 isDot
  · exact not_mem_addressParts alnum (special c isSpecial).1 isPart inPart

/-- Decoding an address that is read as a part of what was put in. -/
theorem decodeParts_iff_readsParts (alnum : ∀ c ∈ emailToken, gateway.isAlnum c = true)
    {read : Text} (isPrefix : read <+: gateway.encodedToken name emailToken showSender) :
    decodeParts (read.splitOn '.') = .ok (emailToken, encodedOptions showSender) ↔
      ReadsParts (gateway.encodedName name) emailToken showSender (read.splitOn '.') := by
  have noDash : '-' ∉ emailToken := by
    intro isMember
    have notAlnum := gateway.isAlnum_separator '-' (by decide)
    rw [alnum '-' isMember] at notAlnum
    cases notAlnum
  have noDot : ∀ part ∈ addressParts (gateway.encodedName name) emailToken showSender,
      '.' ∉ part := fun part isPart => not_mem_addressParts alnum (by decide) isPart
  have someParts : addressParts (gateway.encodedName name) emailToken showSender ≠ [] := by
    simp [addressParts]
  rw [encodedToken_eq_intercalate] at isPrefix
  obtain ⟨full, part, whole, rest, isSplit, isParts, partOf⟩ :=
    exists_splitOn_of_prefix noDot someParts isPrefix
  rw [isSplit]
  cases showSender with
  | false => exact decodeParts_iff_readsParts_plain noDash isParts partOf
  | true => exact decodeParts_iff_readsParts_showSender noDash isParts partOf

/-- Being put together gives the text back when the parts are all that were put in. -/
theorem readsParts_splitOn_iff (alnum : ∀ c ∈ emailToken, gateway.isAlnum c = true) {read : Text} :
    ReadsParts (gateway.encodedName name) emailToken showSender (read.splitOn '.') ↔
      gateway.ReadsBack name emailToken showSender read := by
  have noDot : ∀ part ∈ addressParts (gateway.encodedName name) emailToken showSender,
      '.' ∉ part := fun part isPart => not_mem_addressParts alnum (by decide) isPart
  have someParts : addressParts (gateway.encodedName name) emailToken showSender ≠ [] := by
    simp [addressParts]
  have tokenNoDot : '.' ∉ emailToken := noDot _ (by simp [addressParts])
  have showNoDot : '.' ∉ showSenderPart := by decide
  have single := @eq_intercalate_iff _ _ '.' [emailToken] read (by simp [tokenNoDot]) (by simp)
  have pair := @eq_intercalate_iff _ _ '.' [showSenderPart, emailToken] read
    (by simp [tokenNoDot, showNoDot]) (by simp)
  have triple := @eq_intercalate_iff _ _ '.' [showSenderPart, emailToken, emailToken] read
    (by simp [tokenNoDot, showNoDot]) (by simp)
  unfold ReadsParts ReadsBack
  rw [← eq_intercalate_iff noDot someParts, ← single, ← pair, ← triple,
    ← encodedToken_eq_intercalate, List.intercalate_singleton]

/-- Without other percent signs in the pattern, the address is read as a beginning of what was put
in. -/
theorem roundTrips_iff_readsBack (alnum : ∀ c ∈ emailToken, gateway.isAlnum c = true)
    {before after : Text} (onePlace : splitPattern gateway.emailGatewayPattern = [before, after])
    (freeBefore : '%' ∉ before) (freeAfter : '%' ∉ after) :
    gateway.RoundTrips name emailToken showSender ↔
      gateway.ReadsBack name emailToken showSender
        (beforeFirst after (gateway.encodedToken name emailToken showSender ++ after)) := by
  have noNewline := @not_mem_encodedToken gateway name emailToken showSender '\n' alnum (by decide)
  have noPlus := @not_mem_encodedToken gateway name emailToken showSender '+' alnum (by decide)
  have isPattern := eq_of_splitPattern onePlace
  have isPrefix := @beforeFirst_append_isPrefix after
    (gateway.encodedToken name emailToken showSender)
  have encodes : gateway.encodeEmailAddressHelper name emailToken showSender =
      some (before ++ (gateway.encodedToken name emailToken showSender ++ after)) := by
    rw [encodeEmailAddressHelper, if_neg (by simp [isPattern]), isPattern]
    exact percentFormat_place freeBefore freeAfter
  have decodes : gateway.decodeEmailAddress
        (before ++ (gateway.encodedToken name emailToken showSender ++ after)) =
      decodeParts
        ((beforeFirst after
          (gateway.encodedToken name emailToken showSender ++ after)).splitOn '.') := by
    rw [decodeEmailAddress, getEmailGatewayMessageStringFromAddress, onePlace,
      matchParts_append noNewline]
    dsimp only [Except.bind, bind, Bind.bind]
    rw [splitOn_map_dots fun isMember => noPlus (isPrefix.subset isMember)]
  rw [← readsParts_splitOn_iff alnum, ← decodeParts_iff_readsParts alnum isPrefix, ← decodes]
  constructor
  · rintro ⟨address, isAddress, reads⟩
    rw [encodes] at isAddress
    cases isAddress
    exact reads
  · intro reads
    exact ⟨_, encodes, reads⟩

/-- A pattern with another percent sign loses it. -/
theorem free_of_roundTrips (alnum : ∀ c ∈ emailToken, gateway.isAlnum c = true)
    {before after : Text} (onePlace : splitPattern gateway.emailGatewayPattern = [before, after])
    (roundTrips : gateway.RoundTrips name emailToken showSender) :
    '%' ∉ before ∧ '%' ∉ after := by
  obtain ⟨address, encodes, decodes⟩ := roundTrips
  have isPattern := eq_of_splitPattern onePlace
  have noPercent := @not_mem_encodedToken gateway name emailToken showSender '%' alnum (by decide)
  have formatted : percentFormat (gateway.encodedToken name emailToken showSender) false
      gateway.emailGatewayPattern = some address := by
    rwa [encodeEmailAddressHelper, if_neg (by simp [isPattern])] at encodes
  have counts := count_percentFormat noPercent formatted
  obtain ⟨msgString, isMatch, -⟩ := exists_of_bind_eq_ok decodes
  obtain ⟨groups, isGroups⟩ :
      ∃ groups, matchParts (splitPattern gateway.emailGatewayPattern) address = some groups := by
    rw [getEmailGatewayMessageStringFromAddress] at isMatch
    cases isGroups : matchParts (splitPattern gateway.emailGatewayPattern) address with
    | none =>
        rw [isGroups] at isMatch
        cases isMatch
    | some groups => exact ⟨groups, rfl⟩
  rw [onePlace] at isGroups
  obtain ⟨group, later, rfl⟩ := exists_of_matchParts isGroups
  rw [isPattern] at counts
  simp only [List.count_append, List.count_cons_self, Bool.false_eq_true, if_false] at counts
  have sign : ('s' == '%') = false := by decide
  simp only [List.count_cons, sign, Bool.false_eq_true, if_false] at counts
  have noneBefore : before.count '%' = 0 := by omega
  have noneAfter : after.count '%' = 0 := by omega
  exact ⟨List.count_eq_zero.mp noneBefore, List.count_eq_zero.mp noneAfter⟩

/-- An address gives back its token and options exactly when the pattern has no other percent sign,
and the regular expression reads all of what was put in, or as much as says the same. -/
theorem address_roundTrip_iff (gateway : Gateway) (name emailToken : Text) (showSender : Bool)
    (alnum : ∀ c ∈ emailToken, gateway.isAlnum c = true) (before after : Text)
    (onePlace : splitPattern gateway.emailGatewayPattern = [before, after]) :
    gateway.RoundTrips name emailToken showSender ↔
      '%' ∉ before ∧ '%' ∉ after ∧
        gateway.ReadsBack name emailToken showSender
          (beforeFirst after (gateway.encodedToken name emailToken showSender ++ after)) := by
  constructor
  · intro roundTrips
    obtain ⟨freeBefore, freeAfter⟩ := free_of_roundTrips alnum onePlace roundTrips
    exact ⟨freeBefore, freeAfter,
      (roundTrips_iff_readsBack alnum onePlace freeBefore freeAfter).mp roundTrips⟩
  · rintro ⟨freeBefore, freeAfter, readsBack⟩
    exact (roundTrips_iff_readsBack alnum onePlace freeBefore freeAfter).mpr readsBack

/-! ## Streams whose name is an option -/

/-- A gateway as it is set up, for texts in ASCII. -/
def asciiGateway (emailGatewayPattern : Text) : Gateway where
  emailGatewayPattern := emailGatewayPattern
  isWord c := c.isAlphanum || c == '_'
  isAlnum := Char.isAlphanum
  slugify name := (name.map Char.toLower).filter fun c => c.isAlphanum || c == '-' || c == '_'
  isAlnum_separator := by decide
  slugify_ascii name c isMember := by
    have isKept := (List.mem_filter.mp isMember).2
    simp only [Bool.or_eq_true, beq_iff_eq] at isKept
    tauto

theorem address_roundTrip_iff_general :
    (asciiGateway "%s@streams.example.com".toList).RoundTrips "general".toList "a1b2".toList true ↔
      '%' ∉ ([] : Text) ∧ '%' ∉ "@streams.example.com".toList ∧
        (asciiGateway "%s@streams.example.com".toList).ReadsBack "general".toList "a1b2".toList true
          (beforeFirst "@streams.example.com".toList
            ((asciiGateway "%s@streams.example.com".toList).encodedToken "general".toList
              "a1b2".toList true ++ "@streams.example.com".toList)) :=
  address_roundTrip_iff _ _ _ _ (by decide) _ _ (by decide)

/-- The stream "prefer text" sets an option that was not asked for. -/
theorem address_roundTrip_fails_prefer_text :
    ¬∀ (gateway : Gateway) (name emailToken : Text) (showSender : Bool) (before after : Text),
      emailToken ≠ [] → (∀ c ∈ emailToken, gateway.isAlnum c = true) →
      splitPattern gateway.emailGatewayPattern = [before, after] →
        gateway.RoundTrips name emailToken showSender := by
  intro always
  obtain ⟨address, encodes, decodes⟩ :=
    always (asciiGateway "%s@streams.example.com".toList) "prefer text".toList "a1b2".toList false
      [] "@streams.example.com".toList (by decide) (by decide) (by decide)
  have isAddress : (asciiGateway "%s@streams.example.com".toList).encodeEmailAddressHelper
      "prefer text".toList "a1b2".toList false =
        some "prefer-text.a1b2@streams.example.com".toList := by decide
  rw [isAddress] at encodes
  cases encodes
  have isRead : (asciiGateway "%s@streams.example.com".toList).decodeEmailAddress
      "prefer-text.a1b2@streams.example.com".toList =
        .ok ("a1b2".toList, Dict.empty.set "prefer_text" true) := by decide
  rw [isRead] at decodes
  revert decodes
  decide

end Gateway

end Zulip.EmailMirror
