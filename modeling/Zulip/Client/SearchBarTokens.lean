import Mathlib.Data.List.TakeWhile
import Zulip.Client.SearchBar
import Zulip.Foundation.Scanning

/-!
# The search bar, encoded operands and tokens

What the decoder makes of an encoded operand, and what the tokenizer matches at the start of a
text. A match ends at white space, at the end of the text or at a quote. It stays the match where
something else stands behind it, as long as that is a blank and another word again.
-/

namespace Zulip.Client.SearchBar

open Zulip.Foundation
open Zulip.Client.NarrowUrl (Text)

/-! ## Encoded operands -/

/-- White space that the encoder leaves as it is. -/
def isOtherSpace (c : Char) : Bool := isSpace c && c != ' '

/-- What the encoder writes for one character. -/
def encodeOperandChar (c : Char) : Text :=
  if c = '%' then "%25".toList
  else if c = '+' then "%2B".toList
  else if c = ' ' then ['+']
  else if c = '\x22' then "%22".toList
  else [c]

theorem encodeOperand_eq_flatMap (operand : Text) :
    encodeOperand operand = operand.flatMap encodeOperandChar := by
  unfold encodeOperand replaceAll
  rw [List.flatMap_assoc, List.flatMap_assoc, List.flatMap_assoc]
  refine List.flatMap_congr fun c _ => ?_
  unfold encodeOperandChar
  split_ifs with percent plus blank quote
  · subst c
    decide
  · subst c
    decide
  · subst c
    decide
  · subst c
    decide
  · simp [plus, blank, quote]

theorem encodeOperand_append (first second : Text) :
    encodeOperand (first ++ second) = encodeOperand first ++ encodeOperand second := by
  simp [encodeOperand_eq_flatMap]

theorem encodeOperandChar_ne_nil (c : Char) : encodeOperandChar c ≠ [] := by
  unfold encodeOperandChar
  split_ifs <;> simp

/-- The encoder writes no quotes and no white space but what it leaves as it is. -/
theorem mem_encodeOperandChar {c written : Char} (member : written ∈ encodeOperandChar c) :
    written ≠ '\x22' ∧ (isSpace written = true → written = c ∧ isOtherSpace c = true) := by
  unfold encodeOperandChar at member
  split_ifs at member with percent plus blank quote
  case neg =>
    rw [List.mem_singleton] at member
    subst written
    exact ⟨quote, fun space => ⟨rfl, by simp [isOtherSpace, space, blank]⟩⟩
  all_goals
    have unchanged : isSpace written = false ∧ written ≠ '\x22' := by
      revert written
      decide
    exact ⟨unchanged.2, fun space => absurd space (by simp [unchanged.1])⟩

theorem mem_encodeOperand {operand : Text} {written : Char}
    (member : written ∈ encodeOperand operand) :
    written ≠ '\x22' ∧
      (isSpace written = true → written ∈ operand ∧ isOtherSpace written = true) := by
  rw [encodeOperand_eq_flatMap] at member
  obtain ⟨c, inOperand, inChar⟩ := List.mem_flatMap.mp member
  refine ⟨(mem_encodeOperandChar inChar).1, fun space => ?_⟩
  obtain ⟨rfl, other⟩ := (mem_encodeOperandChar inChar).2 space
  exact ⟨inOperand, other⟩

/-- White space that the encoder leaves is written for itself only. -/
theorem encodeOperandChar_of_otherSpace {c : Char} (other : isOtherSpace c = true) :
    encodeOperandChar c = [c] := by
  simp only [isOtherSpace, Bool.and_eq_true, bne_iff_ne] at other
  unfold encodeOperandChar
  rw [if_neg, if_neg, if_neg other.2, if_neg]
  all_goals
    rintro rfl
    exact absurd other.1 (by decide)

/-- An encoded operand is split at a character that is written for itself only. -/
theorem encodeOperand_split {pivot : Char} (plain : encodeOperandChar pivot = [pivot])
    (only : ∀ c, pivot ∈ encodeOperandChar c → c = pivot) {operand : Text} :
    ∀ {before behind : Text}, encodeOperand operand = before ++ pivot :: behind →
      ∃ first second, operand = first ++ pivot :: second ∧ encodeOperand first = before ∧
        encodeOperand second = behind := by
  simp only [encodeOperand_eq_flatMap]
  induction operand with
  | nil =>
      intro before behind shape
      simp at shape
  | cons c operand inductionHypothesis =>
      intro before behind shape
      have later (cut : Text) (isBefore : before = encodeOperandChar c ++ cut)
          (isLater : operand.flatMap encodeOperandChar = cut ++ pivot :: behind) :
          ∃ first second, c :: operand = first ++ pivot :: second ∧
            first.flatMap encodeOperandChar = before ∧
            second.flatMap encodeOperandChar = behind := by
        obtain ⟨first, second, rfl, isFirst, isSecond⟩ := inductionHypothesis isLater
        exact ⟨c :: first, second, rfl, by rw [List.flatMap_cons, isFirst, isBefore], isSecond⟩
      rw [List.flatMap_cons] at shape
      rcases List.append_eq_append_iff.mp shape with
        ⟨cut, isBefore, isLater⟩ | ⟨cut, isChar, isBehind⟩
      · exact later cut isBefore isLater
      · rcases cut with _ | ⟨head, cut⟩
        · rw [List.append_nil] at isChar
          exact later [] (by rw [isChar, List.append_nil]) isBehind.symm
        · rw [List.cons_append] at isBehind
          injection isBehind with isPivot isBehind
          subst isPivot
          have isC : c = pivot := only c (by rw [isChar]; simp)
          rw [isC, plain] at isChar
          rcases before with _ | ⟨head, before⟩
          · injection isChar with _ noCut
            refine ⟨[], operand, by rw [isC]; rfl, rfl, ?_⟩
            rw [isBehind, ← noCut, List.nil_append]
          · injection isChar with _ tooLong
            simp at tooLong

/-! ## Decoded operands -/

/-- The characters that stand for themselves in the search bar. -/
def isKept (c : Char) : Bool := !(['%', '+', '\x22'].contains c)

/-- A blank as a user operator reads it back. -/
def blankToPlus (c : Char) : Char := if c = ' ' then '+' else c

theorem replaceAll_of_not_mem {pattern : Char} {replacement text : Text} (absent : pattern ∉ text) :
    replaceAll pattern replacement text = text := by
  induction text with
  | nil => rfl
  | cons c text inductionHypothesis =>
      have different : c ≠ pattern := fun same => absent (same ▸ List.mem_cons_self)
      have rest := inductionHypothesis fun member => absent (List.mem_cons_of_mem c member)
      unfold replaceAll at rest ⊢
      rw [List.flatMap_cons, if_neg different, rest]
      rfl

theorem robustUrlDecode_of_decode {str decoded : Text}
    (decodes : PercentEncoding.decode str = some decoded) : robustUrlDecode str = decoded := by
  unfold robustUrlDecode
  rcases str with _ | ⟨c, str⟩
  · cases decodes
    rfl
  · rw [List.length_cons, decodeUpTo, ← List.length_cons, List.take_length, decodes]

theorem plusToBlank_encodeOperand (operand : Text) :
    replaceAll '+' [' '] (encodeOperand operand) = PercentEncoding.encode isKept operand := by
  rw [encodeOperand_eq_flatMap, replaceAll, List.flatMap_assoc]
  refine List.flatMap_congr fun c _ => ?_
  unfold encodeOperandChar
  split_ifs with percent plus blank quote
  · subst c
    decide
  · subst c
    decide
  · subst c
    decide
  · subst c
    decide
  · simp [PercentEncoding.encodeChar, isKept, percent, plus, quote]

theorem encodes_encodeOperand (operand : Text) :
    PercentEncoding.Encodes (encodeOperand operand) (operand.map blankToPlus) := by
  rw [encodeOperand_eq_flatMap]
  induction operand with
  | nil => exact .nil
  | cons c operand inductionHypothesis =>
      rw [List.flatMap_cons, List.map_cons]
      have escaped (d : Char) (written : encodeOperandChar c = PercentEncoding.escapeChar d)
          (same : blankToPlus c = d) :
          PercentEncoding.Encodes (encodeOperandChar c ++ operand.flatMap encodeOperandChar)
            (blankToPlus c :: operand.map blankToPlus) := by
        rw [written, same]
        exact .escaped d inductionHypothesis
      have plain (d : Char) (notPercent : d ≠ '%') (written : encodeOperandChar c = [d])
          (same : blankToPlus c = d) :
          PercentEncoding.Encodes (encodeOperandChar c ++ operand.flatMap encodeOperandChar)
            (blankToPlus c :: operand.map blankToPlus) := by
        rw [written, same]
        exact .plain notPercent inductionHypothesis
      by_cases percent : c = '%'
      · subst c
        exact escaped '%' (by decide) (by decide)
      by_cases plus : c = '+'
      · subst c
        exact escaped '+' (by decide) (by decide)
      by_cases blank : c = ' '
      · subst c
        exact plain '+' (by decide) (by decide) (by decide)
      by_cases quote : c = '\x22'
      · subst c
        exact escaped '\x22' (by decide) (by decide)
      exact plain c percent (by simp [encodeOperandChar, percent, plus, blank, quote])
        (by simp [blankToPlus, blank])

/-- What the decoder makes of an encoded operand. -/
theorem decodeOperand_encodeOperand (operand operator : Text) :
    decodeOperand (encodeOperand operand) operator =
      trim (if operator ∈ userOperators then operand.map blankToPlus else operand) := by
  have noQuotes : replaceAll '\x22' [] (encodeOperand operand) = encodeOperand operand :=
    replaceAll_of_not_mem fun member => (mem_encodeOperand member).1 rfl
  unfold decodeOperand
  simp only [noQuotes]
  refine congrArg trim ?_
  split_ifs
  · exact robustUrlDecode_of_decode
      (PercentEncoding.decode_of_encodes (encodes_encodeOperand operand))
  · rw [plusToBlank_encodeOperand]
    exact robustUrlDecode_of_decode (PercentEncoding.decode_encode (by decide) operand)

/-! ## Trimmed texts -/

/-- Texts without white space at their ends. -/
structure Trimmed (text : Text) : Prop where
  head : ∀ c, text.head? = some c → isSpace c = false
  last : ∀ c, text.getLast? = some c → isSpace c = false

theorem trimStart_of_head {text : Text} (head : ∀ c, text.head? = some c → isSpace c = false) :
    trimStart text = text := by
  rcases text with _ | ⟨c, text⟩
  · rfl
  · exact List.dropWhile_cons_of_neg (by simp [head c rfl])

theorem trim_of_trimmed {text : Text} (trimmed : Trimmed text) : trim text = text := by
  unfold trim
  rw [trimStart_of_head trimmed.head, trimStart_of_head, List.reverse_reverse]
  intro c isHead
  rw [List.head?_reverse] at isHead
  exact trimmed.last c isHead

theorem head_trimStart {text : Text} {c : Char} (isHead : (trimStart text).head? = some c) :
    isSpace c = false := by
  induction text with
  | nil => cases isHead
  | cons first text inductionHypothesis =>
      unfold trimStart at isHead inductionHypothesis
      by_cases space : isSpace first = true
      · rw [List.dropWhile_cons_of_pos space] at isHead
        exact inductionHypothesis isHead
      · rw [List.dropWhile_cons_of_neg space] at isHead
        cases isHead
        simpa using space

theorem trimmed_trim (text : Text) : Trimmed (trim text) := by
  unfold trim
  constructor
  · intro c isHead
    rw [List.head?_reverse] at isHead
    have suffix : trimStart (trimStart text).reverse <:+ (trimStart text).reverse :=
      List.dropWhile_suffix _
    obtain ⟨dropped, whole⟩ := suffix
    refine @head_trimStart text c ?_
    rw [← List.getLast?_reverse, ← whole, List.getLast?_append, isHead]
    rfl
  · intro c isLast
    rw [List.getLast?_reverse] at isLast
    exact head_trimStart isLast

theorem mem_of_mem_trim {text : Text} {c : Char} (member : c ∈ trim text) : c ∈ text := by
  unfold trim at member
  rw [List.mem_reverse] at member
  have inReverse := (List.dropWhile_sublist _).subset member
  rw [List.mem_reverse] at inReverse
  exact (List.dropWhile_sublist _).subset inReverse

/-! ## Visible characters -/

/-- How many characters of a text are no white space. -/
def visibleCount (text : Text) : Nat := text.countP fun c => !isSpace c

theorem visibleCount_append (first second : Text) :
    visibleCount (first ++ second) = visibleCount first + visibleCount second :=
  List.countP_append

theorem visibleCount_cons_of_visible {c : Char} (visible : isSpace c = false) (text : Text) :
    visibleCount (c :: text) = visibleCount text + 1 :=
  List.countP_cons_of_pos (by simp [visible])

theorem visibleCount_cons_of_space {c : Char} (space : isSpace c = true) (text : Text) :
    visibleCount (c :: text) = visibleCount text :=
  List.countP_cons_of_neg (by simp [space])

theorem visibleCount_eq_zero {text : Text} :
    visibleCount text = 0 ↔ ∀ c ∈ text, isSpace c = true := by
  simp [visibleCount, List.countP_eq_zero]

theorem visibleCount_le_of_sublist {first second : Text} (sublist : first.Sublist second) :
    visibleCount first ≤ visibleCount second := sublist.countP_le

theorem visibleCount_trim_le (text : Text) : visibleCount (trim text) ≤ visibleCount text := by
  have dropped : ∀ other : Text, visibleCount (trimStart other) ≤ visibleCount other :=
    fun other => visibleCount_le_of_sublist (List.dropWhile_sublist _)
  have reversed : ∀ other : Text, visibleCount other.reverse = visibleCount other :=
    fun other => List.countP_reverse
  calc visibleCount (trim text)
      = visibleCount (trimStart (trimStart text).reverse) := reversed _
    _ ≤ visibleCount (trimStart text).reverse := dropped _
    _ = visibleCount (trimStart text) := reversed _
    _ ≤ visibleCount text := dropped text

theorem visibleCount_robustUrlDecode_le (str : Text) :
    visibleCount (robustUrlDecode str) ≤ visibleCount str := by
  have upTo : ∀ last, visibleCount (decodeUpTo str last) ≤ visibleCount str := by
    intro last
    induction last with
    | zero => exact Nat.zero_le _
    | succ last inductionHypothesis =>
        rw [decodeUpTo]
        split
        · rename_i decoded decodes
          exact (PercentEncoding.countP_decode_le (by decide) decodes).trans
            (visibleCount_le_of_sublist (List.take_sublist _ _))
        · exact inductionHypothesis
  exact upTo str.length

theorem visibleCount_replaceAll_le {pattern : Char} {replacement : Text}
    (hidden : visibleCount replacement = 0) (text : Text) :
    visibleCount (replaceAll pattern replacement text) ≤ visibleCount text := by
  induction text with
  | nil => exact le_rfl
  | cons c text inductionHypothesis =>
      have whole : replaceAll pattern replacement (c :: text) =
          (if c = pattern then replacement else [c]) ++ replaceAll pattern replacement text :=
        List.flatMap_cons
      have apart : visibleCount (c :: text) = visibleCount [c] + visibleCount text :=
        visibleCount_append [c] text
      rw [whole, visibleCount_append, apart]
      refine Nat.add_le_add ?_ inductionHypothesis
      split_ifs
      · rw [hidden]
        exact Nat.zero_le _
      · exact le_rfl

/-- The decoder makes no operand longer. -/
theorem visibleCount_decodeOperand_le (encoded operator : Text) :
    visibleCount (decodeOperand encoded operator) ≤ visibleCount encoded := by
  have unquoted := @visibleCount_replaceAll_le '\x22' [] rfl encoded
  unfold decodeOperand
  refine (visibleCount_trim_le _).trans ((visibleCount_robustUrlDecode_le _).trans ?_)
  split_ifs
  · exact unquoted
  · exact (@visibleCount_replaceAll_le '+' [' '] (by decide) _).trans unquoted

/-! ## Tokens -/

/-- A text that is empty or starts with white space. -/
def Stops (rest : Text) : Prop := ∀ c, rest.head? = some c → isSpace c = true

theorem matchWord_append {word rest : Text} (nonempty : word ≠ [])
    (noSpace : ∀ c ∈ word, isSpace c = false)
    (stops : Stops rest) :
    matchWord (word ++ rest) = some (word, rest) := by
  have kept : ∀ c ∈ word, (!isSpace c) = true := fun c member => by simp [noSpace c member]
  have restStops : rest.takeWhile (fun c => !isSpace c) = [] ∧
      rest.dropWhile (fun c => !isSpace c) = rest := by
    rcases rest with _ | ⟨c, rest⟩
    · exact ⟨rfl, rfl⟩
    · have space := stops c rfl
      exact ⟨List.takeWhile_cons_of_neg (by simp [space]),
        List.dropWhile_cons_of_neg (by simp [space])⟩
  unfold matchWord
  simp only [List.takeWhile_append_of_pos kept, List.dropWhile_append_of_pos kept, restStops,
    List.append_nil, if_neg nonempty]

/-- An operand that does not start with a quote is matched as a word. -/
theorem matchOperand_append {word rest : Text} (nonempty : word ≠ [])
    (noSpace : ∀ c ∈ word, isSpace c = false) (noQuote : '\x22' ∉ word)
    (stops : Stops rest) :
    matchOperand (word ++ rest) = some (word, rest) := by
  have matched := matchWord_append nonempty noSpace stops
  rcases word with _ | ⟨first, word⟩
  · exact absurd rfl nonempty
  · have notQuote : first ≠ '\x22' := fun same => noQuote (same ▸ List.mem_cons_self)
    rw [List.cons_append] at matched ⊢
    rw [matchOperand]
    simp only [notQuote, false_and, if_false]
    exact matched

/-- What can stand in front of the colon of a token. -/
structure OperatorName (name : Text) : Prop where
  nonempty : name ≠ []
  operatorChars : ∀ c ∈ name, isOperatorChar c = true
  noQuote : '\x22' ∉ name

theorem span_operatorName {name : Text} (isName : OperatorName name) (rest : Text) :
    (name ++ ':' :: rest).takeWhile isOperatorChar = name ∧
      (name ++ ':' :: rest).dropWhile isOperatorChar = ':' :: rest := by
  have colon : ¬ isOperatorChar ':' = true := by decide
  rw [List.takeWhile_append_of_pos isName.operatorChars,
    List.dropWhile_append_of_pos isName.operatorChars, List.takeWhile_cons_of_neg colon,
    List.dropWhile_cons_of_neg colon, List.append_nil]
  exact ⟨rfl, rfl⟩

/-- An operator and an operand without white space in front are one token. -/
theorem matchToken_operand {name operand rest : Text} (isName : OperatorName name)
    (nonempty : operand ≠ []) (noSpace : ∀ c ∈ operand, isSpace c = false)
    (noQuote : '\x22' ∉ operand) (stops : Stops rest) :
    matchToken (name ++ ':' :: (operand ++ rest)) = some (name ++ ':' :: operand, rest) := by
  obtain ⟨taken, dropped⟩ := span_operatorName isName (operand ++ rest)
  have matched := matchOperand_append nonempty noSpace noQuote stops
  obtain ⟨firstName, moreName, nameShape⟩ := List.exists_cons_of_ne_nil isName.nonempty
  rcases operand with _ | ⟨first, operand⟩
  · exact absurd rfl nonempty
  · have notBlank : first ≠ ' ' := by
      rintro rfl
      exact absurd (noSpace ' ' List.mem_cons_self) (by decide)
    unfold matchToken
    simp only [taken, dropped]
    rw [List.cons_append] at matched ⊢
    rw [nameShape]
    split
    · rename_i isBlank
      simp only [List.cons.injEq, true_and] at isBlank
      exact absurd isBlank.1 notBlank
    · rename_i sameRest
      simp only [List.cons.injEq, true_and] at sameRest
      subst sameRest
      rw [matched]
    · rename_i other
      exact absurd rfl (other firstName moreName _ rfl)

/-! ## Matches -/

/-- What is taken from a text ends with a quote, or before white space or the end of the text.
Without a quote its last character is visible. -/
structure EndsAt (taken rest : Text) : Prop where
  nonempty : taken ≠ []
  stops : Stops rest ∨ taken.getLast? = some '\x22'
  last : '\x22' ∉ taken → ∀ c, taken.getLast? = some c → isSpace c = false

theorem EndsAt.behind {taken rest : Text} (ends : EndsAt taken rest) (lead : Text) :
    EndsAt (lead ++ taken) rest where
  nonempty := fun empty => ends.nonempty (List.append_eq_nil_iff.mp empty).2
  stops := by
    rw [List.getLast?_append_of_ne_nil lead ends.nonempty]
    exact ends.stops
  last := by
    intro noQuote c isLast
    rw [List.getLast?_append_of_ne_nil lead ends.nonempty] at isLast
    exact ends.last (fun member => noQuote (List.mem_append_right lead member)) c isLast

/-- What a match is: the front of the text, from a visible character on. Without a quote all its
white space is plain blanks. -/
structure Matched (str token rest : Text) : Prop where
  whole : str = token ++ rest
  visible : ∃ first more, token = first :: more ∧ isSpace first = false
  ends : EndsAt token rest
  plain : '\x22' ∉ token → ∀ c ∈ token, isOtherSpace c = false

theorem Matched.shorter {str token rest : Text} (matched : Matched str token rest) :
    rest.length < str.length := by
  obtain ⟨first, more, shape, -⟩ := matched.visible
  rw [matched.whole, shape, List.length_append, List.length_cons]
  omega

theorem Matched.visibleCount_pos {str token rest : Text} (matched : Matched str token rest) :
    0 < visibleCount token := by
  obtain ⟨first, more, rfl, visible⟩ := matched.visible
  rw [visibleCount_cons_of_visible visible]
  exact Nat.succ_pos _

theorem noOther_of_operatorChar {c : Char} (operatorChar : isOperatorChar c = true) :
    isSpace c = false ∧ isOtherSpace c = false := by
  simp only [isOperatorChar, Bool.and_eq_true, Bool.not_eq_true'] at operatorChar
  exact ⟨operatorChar.1, by simp [isOtherSpace, operatorChar.1]⟩

/-- A match stays one with an operator in front. -/
theorem Matched.withOperator {str token rest name : Text} (matched : Matched str token rest)
    (nonempty : name ≠ []) (chars : ∀ c ∈ name, isOperatorChar c = true) {colon : Text}
    (noOther : ∀ c ∈ colon, isOtherSpace c = false) :
    Matched (name ++ (colon ++ str)) (name ++ (colon ++ token)) rest where
  whole := by simp [matched.whole]
  visible := by
    obtain ⟨first, more, rfl⟩ := List.exists_cons_of_ne_nil nonempty
    exact ⟨first, _, rfl, (noOther_of_operatorChar (chars first List.mem_cons_self)).1⟩
  ends := (matched.ends.behind colon).behind name
  plain := by
    intro noQuote
    have other := matched.plain fun member =>
      noQuote (List.mem_append_right name (List.mem_append_right colon member))
    intro c member
    rcases List.mem_append.mp member with inName | later
    · exact (noOther_of_operatorChar (chars c inName)).2
    · exact (List.mem_append.mp later).elim (noOther c) (other c)

theorem stops_dropWhile (str : Text) : Stops (str.dropWhile fun c => !isSpace c) := by
  intro c isHead
  have stopped := List.head?_dropWhile_not (fun c => !isSpace c) str
  rw [isHead] at stopped
  simpa using stopped

theorem matched_of_noSpace {word rest : Text} (nonempty : word ≠ [])
    (noSpace : ∀ c ∈ word, isSpace c = false) (stops : Stops rest) :
    Matched (word ++ rest) word rest where
  whole := rfl
  visible := by
    obtain ⟨first, more, rfl⟩ := List.exists_cons_of_ne_nil nonempty
    exact ⟨first, more, rfl, noSpace first List.mem_cons_self⟩
  ends := ⟨nonempty, .inl stops, fun _ c isLast => noSpace c (List.mem_of_getLast? isLast)⟩
  plain := fun _ c member => by simp [isOtherSpace, noSpace c member]

theorem noSpace_of_matchWord {str word rest : Text} (matched : matchWord str = some (word, rest)) :
    str = word ++ rest ∧ word ≠ [] ∧ (∀ c ∈ word, isSpace c = false) ∧ Stops rest := by
  unfold matchWord at matched
  simp only [Option.ite_none_left_eq_some, Option.some.injEq, Prod.mk.injEq] at matched
  obtain ⟨nonempty, rfl, rfl⟩ := matched
  refine ⟨List.takeWhile_append_dropWhile.symm, nonempty, ?_, stops_dropWhile str⟩
  intro c member
  simpa using List.mem_takeWhile_imp member

theorem matched_of_matchOperand {str operand rest : Text}
    (found : matchOperand str = some (operand, rest)) : Matched str operand rest := by
  rcases str with _ | ⟨first, str⟩
  · cases found
  have parts := @List.takeWhile_append_dropWhile _ (fun c => c != '\x22') str
  rw [matchOperand] at found
  split_ifs at found with quoted
  · have visible : isSpace first = false := by
      rw [quoted.1]
      decide
    have hasQuote : '\x22' ∈ first :: str.takeWhile fun c => c != '\x22' := by
      rw [quoted.1]
      exact List.mem_cons_self
    split at found
    · rename_i nothing
      cases found
      rw [nothing, List.append_nil] at parts
      refine ⟨by rw [parts, List.append_nil], ⟨first, _, rfl, visible⟩,
        ⟨List.cons_ne_nil _ _, .inl ?_, ?_⟩, ?_⟩
      · exact fun c isHead => by cases isHead
      · exact fun noQuote => absurd hasQuote noQuote
      · exact fun noQuote => absurd hasQuote noQuote
    · rename_i closing behind closes
      cases found
      have isQuote : closing = '\x22' := by
        have stopped := List.head?_dropWhile_not (fun c => c != '\x22') str
        rw [closes] at stopped
        simpa using stopped
      rw [closes] at parts
      refine ⟨?_, ⟨first, _, rfl, visible⟩,
        ⟨List.cons_ne_nil _ _, .inr (by rw [List.getLast?_concat, isQuote]), ?_⟩, ?_⟩
      · rw [List.cons_append, List.cons_append, List.append_assoc, List.singleton_append, parts]
      · exact fun noQuote => absurd (List.mem_append_left _ hasQuote) noQuote
      · exact fun noQuote => absurd (List.mem_append_left _ hasQuote) noQuote
  · obtain ⟨whole, nonempty, noSpace, stops⟩ := noSpace_of_matchWord found
    rw [whole]
    exact matched_of_noSpace nonempty noSpace stops

theorem matched_of_matchToken {str token rest : Text}
    (found : matchToken str = some (token, rest)) : Matched str token rest := by
  have parts := @List.takeWhile_append_dropWhile _ isOperatorChar str
  have chars : ∀ c ∈ str.takeWhile isOperatorChar, isOperatorChar c = true := fun c member =>
    List.mem_takeWhile_imp member
  unfold matchToken at found
  simp only at found
  split at found
  · rename_i first more behind name shape
    split at found
    · rename_i operand after isOperand
      cases found
      have whole : str.takeWhile isOperatorChar ++ ([':', ' '] ++ behind) = str := by
        rw [shape] at parts
        exact parts
      have lead := (matched_of_matchOperand isOperand).withOperator
        (by rw [name]; exact List.cons_ne_nil first more) chars
        (show ∀ c ∈ [':', ' '], isOtherSpace c = false by decide)
      rw [whole] at lead
      exact lead
    · exact matched_of_matchOperand found
  · rename_i first more behind _ name shape
    split at found
    · rename_i operand after isOperand
      cases found
      have whole : str.takeWhile isOperatorChar ++ ([':'] ++ behind) = str := by
        rw [shape] at parts
        exact parts
      have lead := (matched_of_matchOperand isOperand).withOperator
        (by rw [name]; exact List.cons_ne_nil first more) chars
        (show ∀ c ∈ [':'], isOtherSpace c = false by decide)
      rw [whole] at lead
      exact lead
    · exact matched_of_matchOperand found
  · exact matched_of_matchOperand found

theorem matchToken_shorter {str token rest : Text}
    (matched : matchToken str = some (token, rest)) : rest.length < str.length :=
  (matched_of_matchToken matched).shorter

/-! ## Matches with something else behind them -/

theorem matchOperand_of_visible {first : Char} (visible : isSpace first = false) (str : Text) :
    ∃ operand rest, matchOperand (first :: str) = some (operand, rest) := by
  rw [matchOperand]
  split_ifs
  · split
    · exact ⟨_, _, rfl⟩
    · exact ⟨_, _, rfl⟩
  · have nonempty : (first :: str).takeWhile (fun c => !isSpace c) ≠ [] := by
      rw [List.takeWhile_cons_of_pos (by simp [visible])]
      exact List.cons_ne_nil _ _
    unfold matchWord
    simp only [if_neg nonempty]
    exact ⟨_, _, rfl⟩

theorem matchOperand_of_stops {str : Text} (stops : Stops str) : matchOperand str = none := by
  rcases isOperand : matchOperand str with _ | ⟨operand, rest⟩
  · rfl
  · have matched := matched_of_matchOperand isOperand
    obtain ⟨first, more, shape, visible⟩ := matched.visible
    have space := stops first (by rw [matched.whole, shape]; rfl)
    rw [visible] at space
    cases space

theorem span_quoted {quoted : Text} (inside : '\x22' ∉ quoted) (rest : Text) :
    (quoted ++ '\x22' :: rest).takeWhile (fun c => c != '\x22') = quoted ∧
      (quoted ++ '\x22' :: rest).dropWhile (fun c => c != '\x22') = '\x22' :: rest := by
  have kept : ∀ c ∈ quoted, (c != '\x22') = true := by
    intro c member
    have different : c ≠ '\x22' := fun same => inside (same ▸ member)
    simpa using different
  constructor
  · rw [List.takeWhile_append_of_pos kept, List.takeWhile_cons_of_neg (by decide), List.append_nil]
  · rw [List.dropWhile_append_of_pos kept, List.dropWhile_cons_of_neg (by decide)]

/-- An operand ends where it ends, whatever follows the white space behind it. -/
theorem matchOperand_moved {word rest other : Text} (follows : rest ≠ []) (stops : Stops rest)
    (otherStops : Stops other) (found : matchOperand (word ++ rest) = some (word, rest)) :
    matchOperand (word ++ other) = some (word, other) := by
  obtain ⟨first, more, rfl, -⟩ := (matched_of_matchOperand found).visible
  obtain ⟨space, behind, rfl⟩ := List.exists_cons_of_ne_nil follows
  have notQuote : space ≠ '\x22' := by
    rintro rfl
    exact absurd (stops _ rfl) (by decide)
  rw [List.cons_append, matchOperand] at found ⊢
  split_ifs at found with quoted
  · -- the closing quote is the last character of the operand
    split at found
    · rename_i nothing
      have noRest := congrArg Prod.snd (Option.some.inj found)
      exact absurd noRest (List.cons_ne_nil space behind).symm
    · rename_i closing after closes
      simp only [Option.some.injEq, Prod.mk.injEq, List.cons_append, List.cons.injEq,
        true_and] at found
      obtain ⟨same, -⟩ := found
      have isQuote : closing = '\x22' := by
        have stopped := List.head?_dropWhile_not (fun c => c != '\x22') (more ++ space :: behind)
        rw [closes] at stopped
        simpa using stopped
      have inside : '\x22' ∉ (more ++ space :: behind).takeWhile fun c => c != '\x22' := by
        intro member
        exact absurd (List.all_eq_true.mp List.all_takeWhile _ member) (by decide)
      obtain ⟨taken, dropped⟩ := span_quoted inside other
      have moved : more ++ other =
          (more ++ space :: behind).takeWhile (fun c => c != '\x22') ++ '\x22' :: other := by
        calc more ++ other
            = (more ++ space :: behind).takeWhile (fun c => c != '\x22') ++ [closing] ++ other :=
              congrArg (· ++ other) same.symm
          _ = _ := by rw [isQuote, List.append_assoc, List.singleton_append]
      rw [isQuote] at same
      rw [moved, taken, dropped, if_pos quoted]
      simp only [List.cons_append, same]
  · have unquoted : ¬ (first = '\x22' ∧ (more ++ other).takeWhile (fun c => c != '\x22') ≠ []) := by
      rintro ⟨isQuote, something⟩
      have nothing : (more ++ space :: behind).takeWhile (fun c => c != '\x22') = [] := by
        by_contra nonempty
        exact quoted ⟨isQuote, nonempty⟩
      rcases more with _ | ⟨second, more⟩
      · rw [List.nil_append, List.takeWhile_cons_of_pos (by simp [notQuote])] at nothing
        cases nothing
      · have isSecond : second = '\x22' := by
          by_contra different
          rw [List.cons_append, List.takeWhile_cons_of_pos (by simp [different])] at nothing
          cases nothing
        rw [List.cons_append, isSecond] at something
        exact something (List.takeWhile_cons_of_neg (by simp))
    obtain ⟨-, nonempty, noSpace, -⟩ := noSpace_of_matchWord found
    rw [if_neg unquoted]
    exact matchWord_append nonempty noSpace otherStops

/-- A text that is empty, or a blank with a visible character behind it. -/
def SetApart (rest : Text) : Prop :=
  rest = [] ∨ ∃ first more, rest = ' ' :: first :: more ∧ isSpace first = false

theorem SetApart.stops {rest : Text} (apart : SetApart rest) : Stops rest := by
  rcases apart with rfl | ⟨first, more, rfl, -⟩
  · exact fun c isHead => by cases isHead
  · intro c isHead
    cases isHead
    decide

theorem span_append_of_stops {rest : Text} (stops : Stops rest) (word : Text) :
    (word ++ rest).takeWhile isOperatorChar = word.takeWhile isOperatorChar ∧
      (word ++ rest).dropWhile isOperatorChar = word.dropWhile isOperatorChar ++ rest := by
  have restStops : rest.takeWhile isOperatorChar = [] ∧ rest.dropWhile isOperatorChar = rest := by
    rcases rest with _ | ⟨c, rest⟩
    · exact ⟨rfl, rfl⟩
    · have noOperator : ¬ isOperatorChar c = true := by simp [isOperatorChar, stops c rfl]
      exact ⟨List.takeWhile_cons_of_neg noOperator, List.dropWhile_cons_of_neg noOperator⟩
  induction word with
  | nil => exact restStops
  | cons c word inductionHypothesis =>
      by_cases operatorChar : isOperatorChar c = true
      · rw [List.cons_append, List.takeWhile_cons_of_pos operatorChar,
          List.takeWhile_cons_of_pos operatorChar, List.dropWhile_cons_of_pos operatorChar,
          List.dropWhile_cons_of_pos operatorChar, inductionHypothesis.1, inductionHypothesis.2]
        exact ⟨rfl, rfl⟩
      · rw [List.cons_append, List.takeWhile_cons_of_neg operatorChar,
          List.takeWhile_cons_of_neg operatorChar, List.dropWhile_cons_of_neg operatorChar,
          List.dropWhile_cons_of_neg operatorChar]
        exact ⟨rfl, rfl⟩

/-- The operand behind an operator, or else a match without one. -/
def matchWith (str lead rest : Text) : Option (Text × Text) :=
  match matchOperand rest with
  | some (operand, rest) => some (lead ++ operand, rest)
  | none => matchOperand str

theorem matchToken_plain {str : Text} (plain : str.takeWhile isOperatorChar = [] ∨
    (str.dropWhile isOperatorChar).head? ≠ some ':') : matchToken str = matchOperand str := by
  unfold matchToken
  simp only
  split
  · rename_i name shape
    exact absurd plain (by simp [name, shape])
  · rename_i name shape
    exact absurd plain (by simp [name, shape])
  · rfl

theorem matchToken_blank {str rest : Text} (name : str.takeWhile isOperatorChar ≠ [])
    (colon : str.dropWhile isOperatorChar = ':' :: ' ' :: rest) :
    matchToken str = matchWith str (str.takeWhile isOperatorChar ++ [':', ' ']) rest := by
  obtain ⟨first, more, shape⟩ := List.exists_cons_of_ne_nil name
  unfold matchToken matchWith
  rw [shape, colon]
  simp only
  rcases matchOperand rest with _ | operand
  · rfl
  · simp

theorem matchToken_colon {str rest : Text} (name : str.takeWhile isOperatorChar ≠ [])
    (colon : str.dropWhile isOperatorChar = ':' :: rest) (noBlank : rest.head? ≠ some ' ') :
    matchToken str = matchWith str (str.takeWhile isOperatorChar ++ [':']) rest := by
  obtain ⟨first, more, shape⟩ := List.exists_cons_of_ne_nil name
  unfold matchToken matchWith
  rw [shape, colon]
  rcases rest with _ | ⟨second, rest⟩
  · rfl
  · have notBlank : second ≠ ' ' := fun same => noBlank (by rw [same]; rfl)
    simp only
    split
    · rename_i isBlank
      injection isBlank with _ isBlank
      injection isBlank with isBlank
      exact absurd isBlank notBlank
    · rename_i same
      injection same with _ same
      subst same
      rcases matchOperand (second :: rest) with _ | operand
      · rfl
      · simp
    · rename_i other
      exact absurd rfl (other first more _ rfl)

/-- An operand behind an operator ends where it ends, and so does the word without one. -/
theorem matchWith_moved {word lead part behind other : Text} {first : Char}
    (visible : isSpace first = false) (apart : SetApart other) (isWord : lead ++ part = word)
    (found : matchWith (word ++ ' ' :: first :: behind) lead (part ++ ' ' :: first :: behind) =
      some (word, ' ' :: first :: behind)) :
    matchWith (word ++ other) lead (part ++ other) = some (word, other) := by
  have stops : Stops (' ' :: first :: behind) :=
    SetApart.stops (.inr ⟨first, behind, rfl, visible⟩)
  unfold matchWith at found ⊢
  rcases isOperand : matchOperand (part ++ ' ' :: first :: behind) with _ | result
  · rw [isOperand] at found
    have stopsOther : Stops (part ++ other) := by
      rcases part with _ | ⟨head, part⟩
      · exact apart.stops
      · intro c isHead
        cases isHead
        by_contra shown
        obtain ⟨_, _, operand⟩ := matchOperand_of_visible (by simpa using shown)
          (part ++ ' ' :: first :: behind)
        rw [← List.cons_append, isOperand] at operand
        cases operand
    rw [matchOperand_of_stops stopsOther]
    exact matchOperand_moved (List.cons_ne_nil _ _) stops apart.stops found
  · rw [isOperand] at found
    simp only [Option.some.injEq, Prod.mk.injEq] at found
    have samePart : result.1 = part := List.append_cancel_left (found.1.trans isWord.symm)
    have partFound : matchOperand (part ++ ' ' :: first :: behind) =
        some (part, ' ' :: first :: behind) := by
      rw [isOperand, ← found.2, ← samePart]
    rw [matchOperand_moved (List.cons_ne_nil _ _) stops apart.stops partFound]
    simp only [isWord]

/-- A word that ends with the colon of its operator takes the next word too. -/
theorem matchToken_colonLast {word behind : Text} {first : Char} (visible : isSpace first = false)
    (name : word.takeWhile isOperatorChar ≠ []) (colon : word.dropWhile isOperatorChar = [':']) :
    matchToken (word ++ ' ' :: first :: behind) ≠ some (word, ' ' :: first :: behind) := by
  intro found
  obtain ⟨taken, dropped⟩ :=
    span_append_of_stops (SetApart.stops (.inr ⟨first, behind, rfl, visible⟩)) word
  have parts := @List.takeWhile_append_dropWhile _ isOperatorChar word
  rw [colon] at dropped parts
  rw [matchToken_blank (by rw [taken]; exact name) dropped, matchWith] at found
  obtain ⟨operand, rest, isOperand⟩ := matchOperand_of_visible visible behind
  rw [isOperand, taken] at found
  simp only [Option.some.injEq, Prod.mk.injEq] at found
  have tooLong := congrArg List.length (found.1.trans parts.symm)
  simp at tooLong

/-- A token ends where it ends, with any word behind the blank, or with nothing at all. -/
theorem matchToken_moved {word behind other : Text} {first : Char}
    (visible : isSpace first = false) (apart : SetApart other)
    (found : matchToken (word ++ ' ' :: first :: behind) = some (word, ' ' :: first :: behind)) :
    matchToken (word ++ other) = some (word, other) := by
  have stops : Stops (' ' :: first :: behind) :=
    SetApart.stops (.inr ⟨first, behind, rfl, visible⟩)
  obtain ⟨taken, dropped⟩ := span_append_of_stops stops word
  obtain ⟨takenOther, droppedOther⟩ := span_append_of_stops apart.stops word
  have parts := @List.takeWhile_append_dropWhile _ isOperatorChar word
  by_cases name : word.takeWhile isOperatorChar = []
  · rw [matchToken_plain (.inl (by rw [taken, name]))] at found
    rw [matchToken_plain (.inl (by rw [takenOther, name]))]
    exact matchOperand_moved (List.cons_ne_nil _ _) stops apart.stops found
  by_cases colon : (word.dropWhile isOperatorChar).head? = some ':'
  · obtain ⟨tail, tailShape⟩ := List.head?_eq_some_iff.mp colon
    rcases tail with _ | ⟨second, part⟩
    · exact absurd found (matchToken_colonLast visible name tailShape)
    · rw [tailShape] at dropped droppedOther parts
      by_cases blank : second = ' '
      · subst blank
        rw [matchToken_blank (by rw [taken]; exact name) dropped, taken] at found
        rw [matchToken_blank (by rw [takenOther]; exact name) droppedOther, takenOther]
        exact matchWith_moved visible apart (by rw [List.append_assoc]; exact parts) found
      · have notBlank : ∀ rest : Text, ((second :: part) ++ rest).head? ≠ some ' ' := by
          intro rest isBlank
          cases isBlank
          exact blank rfl
        rw [matchToken_colon (by rw [taken]; exact name) dropped (notBlank _), taken] at found
        rw [matchToken_colon (by rw [takenOther]; exact name) droppedOther (notBlank _),
          takenOther]
        exact matchWith_moved visible apart (by rw [List.append_assoc]; exact parts) found
  · have noColon : ∀ rest : Text, Stops rest →
        (word.dropWhile isOperatorChar ++ rest).head? ≠ some ':' := by
      intro rest restStops
      rcases shape : word.dropWhile isOperatorChar with _ | ⟨head, tail⟩
      · intro isColon
        exact absurd (restStops ':' isColon) (by decide)
      · rw [shape] at colon
        exact colon
    rw [matchToken_plain (.inr (by rw [dropped]; exact noColon _ stops))] at found
    rw [matchToken_plain (.inr (by rw [droppedOther]; exact noColon _ apart.stops))]
    exact matchOperand_moved (List.cons_ne_nil _ _) stops apart.stops found

/-- Behind an operator and its colon, an operand is matched or the token ends. -/
theorem matchToken_name {name : Text} (isName : OperatorName name) (behind : Text) :
    ∃ operand rest, behind = operand ++ rest ∧
      matchToken (name ++ ':' :: behind) = some (name ++ ':' :: operand, rest) := by
  obtain ⟨taken, dropped⟩ := span_operatorName isName behind
  have named : (name ++ ':' :: behind).takeWhile isOperatorChar ≠ [] := by
    rw [taken]
    exact isName.nonempty
  have alone : ∃ operand rest, behind = operand ++ rest ∧
      matchOperand (name ++ ':' :: behind) = some (name ++ ':' :: operand, rest) := by
    have noSpace : ∀ c ∈ name ++ ':' :: behind.takeWhile (fun c => !isSpace c),
        isSpace c = false := by
      intro c member
      rcases List.mem_append.mp member with inName | later
      · exact (noOther_of_operatorChar (isName.operatorChars c inName)).1
      · rcases List.mem_cons.mp later with rfl | inBehind
        · decide
        · simpa using List.mem_takeWhile_imp inBehind
    have matched := @matchWord_append _ (behind.dropWhile fun c => !isSpace c) (by simp) noSpace
      (stops_dropWhile behind)
    rw [List.append_assoc, List.cons_append, List.takeWhile_append_dropWhile] at matched
    refine ⟨behind.takeWhile fun c => !isSpace c, behind.dropWhile fun c => !isSpace c,
      List.takeWhile_append_dropWhile.symm, ?_⟩
    obtain ⟨first, more, rfl⟩ := List.exists_cons_of_ne_nil isName.nonempty
    have notQuote : first ≠ '\x22' := fun same => isName.noQuote (same ▸ List.mem_cons_self)
    rw [List.cons_append] at matched ⊢
    rw [matchOperand, if_neg fun quoted => notQuote quoted.1]
    exact matched
  have withLead : ∀ {lead rest : Text}, lead ++ rest = ':' :: behind →
      (∃ more, lead = ':' :: more) → ∃ operand after, behind = operand ++ after ∧
        matchWith (name ++ ':' :: behind) (name ++ lead) rest =
          some (name ++ ':' :: operand, after) := by
    rintro lead rest whole ⟨more, rfl⟩
    unfold matchWith
    rcases isOperand : matchOperand rest with _ | ⟨operand, after⟩
    · exact alone
    · have matched := matched_of_matchOperand isOperand
      have whole : more ++ rest = behind := (List.cons.inj whole).2
      refine ⟨more ++ operand, after, ?_, ?_⟩
      · rw [← whole, matched.whole, List.append_assoc]
      · simp
  by_cases blank : behind.head? = some ' '
  · obtain ⟨rest, isBlank⟩ : ∃ rest, behind = ' ' :: rest := by
      rcases behind with _ | ⟨head, rest⟩
      · cases blank
      · cases blank
        exact ⟨rest, rfl⟩
    rw [matchToken_blank named (by rw [dropped, isBlank]), taken]
    exact withLead (by rw [isBlank]; rfl) ⟨[' '], rfl⟩
  · rw [matchToken_colon named dropped blank, taken]
    exact withLead rfl ⟨[], rfl⟩

/-- An operator without an operand takes a word behind a blank. -/
theorem matchToken_takes {name : Text} (isName : OperatorName name) {first : Char}
    (visible : isSpace first = false) (more : Text) :
    ∃ operand rest, 0 < visibleCount operand ∧
      matchToken (name ++ ':' :: ' ' :: first :: more) = some (name ++ ':' :: operand, rest) := by
  obtain ⟨taken, dropped⟩ := span_operatorName isName (' ' :: first :: more)
  obtain ⟨operand, rest, isOperand⟩ := matchOperand_of_visible visible more
  refine ⟨' ' :: operand, rest, ?_, ?_⟩
  · rw [visibleCount_cons_of_space (by decide)]
    exact (matched_of_matchOperand isOperand).visibleCount_pos
  · rw [matchToken_blank (by rw [taken]; exact isName.nonempty) dropped, taken, matchWith, isOperand]
    simp

/-! ## Tokens of a whole text -/

/-- Fuel that covers the text is as good as any. -/
theorem tokensWithin_eq_tokens :
    ∀ (fuel : Nat) (str : Text), str.length ≤ fuel → tokensWithin fuel str = tokens str := by
  have sameFuel : ∀ (fuel other : Nat) (str : Text), str.length ≤ fuel → str.length ≤ other →
      tokensWithin fuel str = tokensWithin other str := by
    intro fuel
    induction fuel with
    | zero =>
        intro other str enough _
        rw [List.length_eq_zero_iff.mp (Nat.le_zero.mp enough)]
        cases other <;> rfl
    | succ fuel inductionHypothesis =>
        intro other str enough otherEnough
        rcases str with _ | ⟨c, str⟩
        · cases other <;> rfl
        · rw [List.length_cons] at enough otherEnough
          obtain ⟨less, rfl⟩ : ∃ less, other = less + 1 := ⟨other - 1, by omega⟩
          rw [tokensWithin, tokensWithin]
          rcases matched : matchToken (c :: str) with _ | ⟨token, rest⟩
          · exact inductionHypothesis less str (by omega) (by omega)
          · have shorter := matchToken_shorter matched
            rw [List.length_cons] at shorter
            simp only
            rw [inductionHypothesis less rest (by omega) (by omega)]
  exact fun fuel str enough => sameFuel fuel str.length str enough le_rfl

theorem tokens_of_match {str token rest : Text} (matched : matchToken str = some (token, rest)) :
    tokens str = token :: tokens rest := by
  rcases str with _ | ⟨c, str⟩
  · cases matched
  · have shorter := matchToken_shorter matched
    rw [List.length_cons] at shorter
    unfold tokens
    rw [List.length_cons, tokensWithin, matched]
    simp only
    rw [tokensWithin_eq_tokens _ _ (by omega)]
    rfl

/-- White space between tokens is skipped. -/
theorem tokens_space {c : Char} (space : isSpace c = true) (str : Text) :
    tokens (c :: str) = tokens str := by
  have noOperator : (c :: str).takeWhile isOperatorChar = [] :=
    List.takeWhile_cons_of_neg (by simp [isOperatorChar, space])
  have notQuote : c ≠ '\x22' := by
    rintro rfl
    exact absurd space (by decide)
  have noWord : (c :: str).takeWhile (fun c => !isSpace c) = [] :=
    List.takeWhile_cons_of_neg (by simp [space])
  have unmatched : matchToken (c :: str) = none := by
    have noOperand : matchOperand (c :: str) = none := by
      simp [matchOperand, notQuote, matchWord, noWord]
    unfold matchToken
    simp only [noOperator]
    exact noOperand
  rw [tokens, List.length_cons, tokensWithin, unmatched]
  exact tokensWithin_eq_tokens str.length str le_rfl

theorem tokens_gap {gap : Text} (spaces : ∀ c ∈ gap, isSpace c = true) (str : Text) :
    tokens (gap ++ str) = tokens str := by
  induction gap with
  | nil => rfl
  | cons c gap inductionHypothesis =>
      rw [List.cons_append, tokens_space (spaces c List.mem_cons_self)]
      exact inductionHypothesis fun other member => spaces other (List.mem_cons_of_mem c member)

theorem matchToken_of_visible {first : Char} (visible : isSpace first = false) (str : Text) :
    ∃ token rest, matchToken (first :: str) = some (token, rest) := by
  obtain ⟨operand, behind, alone⟩ := matchOperand_of_visible visible str
  unfold matchToken
  simp only
  split
  · split
    · exact ⟨_, _, rfl⟩
    · exact ⟨operand, behind, alone⟩
  · split
    · exact ⟨_, _, rfl⟩
    · exact ⟨operand, behind, alone⟩
  · exact ⟨operand, behind, alone⟩

/-- The first token of a text stands behind some white space. -/
theorem tokens_cases (str : Text) : tokens str = [] ∨ ∃ gap token rest,
    (∀ c ∈ gap, isSpace c = true) ∧ str = gap ++ (token ++ rest) ∧
      matchToken (token ++ rest) = some (token, rest) ∧ tokens str = token :: tokens rest := by
  induction str with
  | nil => exact .inl rfl
  | cons c str inductionHypothesis =>
      by_cases space : isSpace c = true
      · rw [tokens_space space]
        refine inductionHypothesis.imp id ?_
        rintro ⟨gap, token, rest, spaces, shape, found, first⟩
        exact ⟨c :: gap, token, rest, List.forall_mem_cons.mpr ⟨space, spaces⟩, by rw [shape]; rfl,
          found, first⟩
      · obtain ⟨token, rest, found⟩ := matchToken_of_visible (by simpa using space) str
        have whole := (matched_of_matchToken found).whole
        refine .inr ⟨[], token, rest, List.forall_mem_nil _, whole, ?_, tokens_of_match found⟩
        rw [← whole, found]

/-- What is left of a text has the same tokens if only white space is between. -/
theorem tokens_eq_of_visibleCount {str before before' first second : Text}
    (isFirst : str = before ++ first) (isSecond : str = before' ++ second)
    (same : visibleCount first = visibleCount second) : tokens first = tokens second := by
  have shorter {one two : Text} (suffix : one <:+ two) (same : visibleCount one = visibleCount two) :
      tokens one = tokens two := by
    obtain ⟨gap, rfl⟩ := suffix
    rw [visibleCount_append] at same
    exact (tokens_gap (visibleCount_eq_zero.mp (by omega)) one).symm
  rcases List.suffix_or_suffix_of_suffix (show first <:+ str from ⟨before, isFirst.symm⟩)
    (show second <:+ str from ⟨before', isSecond.symm⟩) with suffix | suffix
  · exact shorter suffix same
  · exact (shorter suffix same.symm).symm

end Zulip.Client.SearchBar
