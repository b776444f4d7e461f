import Mathlib.Algebra.Order.Group.Nat
import Mathlib.Data.List.TakeDrop
import Zulip.Markdown.FencedCode

/-!
# The scanners of the template tokenizer

Each scanner of `template_parser.py` cuts one token out of the text from an index on. Some of them
look past the end of the text when a token is not closed: `getTag_cases` and `closingIndex_cases`
say on which texts. Texts are lists of characters.
-/

namespace Zulip.Tools

open Zulip.Markdown.Fenced (isSpacePython dropEndWhile)

abbrev Text := List Char

/-- What the tokenizer may raise. A `tokenization` error does not leave it. -/
inductive PyError where
  | tokenization (message lineContent : Text)
  | formatted (message : Text)
  | templateParser (message : Text)
  | assertion (message : Text)
  | index
deriving DecidableEq

/-- `text[first:last]`. -/
def slice (text : Text) (first last : ℕ) : Text := (text.take last).drop first

/-- `text[first:-dropped]`. -/
def sliceEnd (text : Text) (first dropped : ℕ) : Text := slice text first (text.length - dropped)

/-- `str.strip` without arguments. -/
def strip (text : Text) : Text := dropEndWhile isSpacePython (text.dropWhile isSpacePython)

/-! ## Tags of Handlebars and Django -/

/-- The loop of `get_handlebars_tag` and `get_django_tag` over `end`. -/
def markIndex (text : Text) (mark : Char) (last : ℕ) : ℕ :=
  if last + 1 < text.length ∧ text[last]? ≠ some mark then markIndex text mark (last + 1) else last
termination_by text.length - last

/-- A tag that goes on until `mark` and a brace. The brace is looked up also when the mark is the
last character. -/
def getTag (mark : Char) (message text : Text) (i first : ℕ) : Except PyError Text :=
  let last := markIndex text mark first
  let missing := .error (.tokenization message (slice text i (last + 2)))
  match text[last]? with
  | none => .error .index
  | some found =>
      if found ≠ mark then missing
      else
        match text[last + 1]? with
        | none => .error .index
        | some brace => if brace ≠ '}' then missing else .ok (slice text i (last + 2))

/-- `get_handlebars_tag`. -/
def getHandlebarsTag (text : Text) (i : ℕ) : Except PyError Text :=
  getTag '}' "Tag missing \"\x7d\x7d\"".toList text i (i + 2)

/-- `get_django_tag`. -/
def getDjangoTag (text : Text) (i : ℕ) (stripped : Bool) : Except PyError Text :=
  getTag '%' "Tag missing \"%\x7d\"".toList text i (if stripped then i + 3 else i + 2)

/-! ## Comments, partials and variables -/

/-- The loop over `end` of the scanners that look for a closing string. The start of an unclosed tag
is zero while no such tag is found. -/
def closingIndex (closing message text : Text) (i last unclosedEnd : ℕ) : Except PyError ℕ :=
  if last ≤ text.length then
    if slice text (last - closing.length) last = closing then .ok last
    else if unclosedEnd = 0 then
      match text[last]? with
      | none => .error .index
      | some found =>
          closingIndex closing message text i (last + 1) (if found = '<' then last else unclosedEnd)
    else closingIndex closing message text i (last + 1) unclosedEnd
  else .error (.tokenization message (slice text i unclosedEnd))
termination_by text.length + 1 - last

/-- A token that goes on until a closing string, which ends `offset` characters after the beginning
of the token or later. -/
def getClosed (closing message text : Text) (offset i : ℕ) : Except PyError Text :=
  (closingIndex closing message text i (i + offset) 0).map (slice text i)

/-- `get_html_comment`. -/
def getHtmlComment (text : Text) (i : ℕ) : Except PyError Text :=
  getClosed "-->".toList "Unclosed comment".toList text 7 i

/-- `get_handlebars_comment`. -/
def getHandlebarsComment (text : Text) (i : ℕ) : Except PyError Text :=
  getClosed ['}', '}'] "Unclosed comment".toList text 5 i

/-- `get_template_var`, which takes a second brace along. -/
def getTemplateVar (text : Text) (i : ℕ) : Except PyError Text :=
  (closingIndex ['}'] "Unclosed var".toList text i (i + 3) 0).map fun last =>
    slice text i (if text[last]? = some '}' then last + 1 else last)

/-- `get_django_comment`. -/
def getDjangoComment (text : Text) (i : ℕ) : Except PyError Text :=
  getClosed ['#', '}'] "Unclosed comment".toList text 4 i

/-- `get_handlebars_partial`, for partials and partial blocks. -/
def getHandlebarsPartial (text : Text) (i : ℕ) : Except PyError Text :=
  getClosed ['}', '}'] "Unclosed partial".toList text 10 i

/-! ## Tags of HTML -/

/-- The loop of `get_html_tag`: `end`, `quote_count` and `unclosed_end` after it. -/
def htmlTagLoop (text : Text) (last quoteCount unclosedEnd : ℕ) : ℕ × ℕ × ℕ :=
  match text[last]? with
  | none => (last, quoteCount, unclosedEnd)
  | some found =>
      if last < text.length ∧ (found ≠ '>' ∨ quoteCount % 2 ≠ 0 ∧ found ≠ '<') then
        htmlTagLoop text (last + 1) (if found = '"' then quoteCount + 1 else quoteCount)
          (if unclosedEnd = 0 ∧ found = '<' then last else unclosedEnd)
      else (last, quoteCount, unclosedEnd)
termination_by text.length - last

/-- `get_html_tag`. -/
def getHtmlTag (text : Text) (i : ℕ) : Except PyError Text :=
  let (last, quoteCount, unclosedEnd) := htmlTagLoop text (i + 1) 0 0
  if quoteCount % 2 ≠ 0 then
    .error (.tokenization "Unbalanced quotes".toList
      (slice text i (if unclosedEnd ≠ 0 then unclosedEnd else last + 1)))
  else if last = text.length ∨ text[last]? ≠ some '>' then
    .error (.tokenization "Tag missing \">\"".toList (slice text i (last + 1)))
  else .ok (slice text i (last + 1))

/-! ## Spaces, code and text -/

/-- `get_spaces`. -/
def getSpaces (text : Text) (i : ℕ) : Text := (text.drop i).takeWhile (· = ' ')

/-- `get_code`. -/
def getCode (text : Text) (i : ℕ) : Text := (text.drop i).takeWhile (· ≠ '<')

/-- `get_text`, which strips what it has read. -/
def getText (text : Text) (i : ℕ) : Text :=
  strip ((text.drop i).takeWhile fun c => c ≠ '{' ∧ c ≠ '<')

/-! ## What is read -/

/-- A token at an index: some of the text from there on. -/
def Reads (text : Text) (i : ℕ) (s : Text) : Prop := s ≠ [] ∧ s <+: text.drop i

variable {text closing message : Text} {mark : Char} {i first last unclosedEnd : ℕ}

theorem slice_eq_take_drop : slice text first last = (text.drop first).take (last - first) :=
  List.drop_take

theorem reads_slice (order : i < last) (inText : i < text.length) :
    Reads text i (slice text i last) := by
  rw [slice_eq_take_drop]
  refine ⟨?_, List.take_prefix _ _⟩
  rw [Ne, List.take_eq_nil_iff, List.drop_eq_nil_iff]
  omega

/-- What is left from the first mark on. -/
def fromMark (mark : Char) (rest : Text) : Text := rest.dropWhile (· ≠ mark)

/-- What is before the first mark. -/
def beforeMark (mark : Char) (rest : Text) : Text := rest.takeWhile (· ≠ mark)

theorem beforeMark_append_fromMark (mark : Char) (rest : Text) :
    beforeMark mark rest ++ fromMark mark rest = rest :=
  List.takeWhile_append_dropWhile

/-- A mark that is there is where the loop ends. -/
theorem markIndex_of_mem (isMarked : mark ∈ text.drop first) :
    text.drop (markIndex text mark first) = fromMark mark (text.drop first) ∧
      markIndex text mark first = first + (beforeMark mark (text.drop first)).length := by
  fun_induction markIndex text mark first with
  | case1 first unmarked inductionHypothesis =>
      obtain ⟨inText, unmarked⟩ := unmarked
      have inText : first < text.length := by omega
      rw [List.getElem?_eq_getElem inText, Ne, Option.some.injEq] at unmarked
      have next : text.drop first = text[first] :: text.drop (first + 1) :=
        List.drop_eq_getElem_cons inText
      have isLater : mark ∈ text.drop (first + 1) := by
        rw [next] at isMarked
        exact (List.mem_cons.mp isMarked).resolve_left (Ne.symm unmarked)
      obtain ⟨rest, length⟩ := inductionHypothesis isLater
      rw [next, fromMark, beforeMark, List.dropWhile_cons_of_pos (by simpa using unmarked),
        List.takeWhile_cons_of_pos (by simpa using unmarked)]
      refine ⟨rest, ?_⟩
      rw [length, List.length_cons, beforeMark]
      omega
  | case2 first finished =>
      have inText : first < text.length := by
        by_contra outside
        rw [List.drop_of_length_le (by omega)] at isMarked
        cases isMarked
      have next : text.drop first = text[first] :: text.drop (first + 1) :=
        List.drop_eq_getElem_cons inText
      have isMark : text[first] = mark := by
        by_cases isLast : first + 1 < text.length
        · by_contra different
          exact finished ⟨isLast, by rw [List.getElem?_eq_getElem inText]; simpa using different⟩
        · rw [next, List.drop_of_length_le (by omega)] at isMarked
          exact (List.mem_singleton.mp isMarked).symm
      rw [fromMark, beforeMark, next, List.dropWhile_cons_of_neg (by simpa using isMark),
        List.takeWhile_cons_of_neg (by simpa using isMark)]
      exact ⟨rfl, rfl⟩

/-- Without a mark the loop ends at another character, or outside of the text. -/
theorem markIndex_of_not_mem (unmarked : mark ∉ text.drop first) :
    text[markIndex text mark first]? ≠ some mark ∧
      (text[markIndex text mark first]? = none ↔ text.drop first = []) := by
  fun_induction markIndex text mark first with
  | case1 first continues inductionHypothesis =>
      have inText : first < text.length := by omega
      rw [List.drop_eq_getElem_cons inText, List.mem_cons, not_or] at unmarked
      obtain ⟨different, isEmpty⟩ := inductionHypothesis unmarked.2
      refine ⟨different, isEmpty.trans ?_⟩
      rw [List.drop_eq_nil_iff, List.drop_eq_nil_iff]
      omega
  | case2 first finished =>
      refine ⟨fun isMark => unmarked ?_, ?_⟩
      · obtain ⟨inText, rfl⟩ := List.getElem?_eq_some_iff.mp isMark
        rw [List.drop_eq_getElem_cons inText]
        exact List.mem_cons_self
      · rw [List.getElem?_eq_none_iff, List.drop_eq_nil_iff]

/-- The text ends where a mark may stand, or with the first mark. -/
def EndsAtMark (mark : Char) (text : Text) (first : ℕ) : Prop :=
  text.drop first = [] ∨ fromMark mark (text.drop first) = [mark]

theorem fromMark_eq_nil_or_cons (mark : Char) (rest : Text) :
    (mark ∉ rest ∧ fromMark mark rest = []) ∨
      (mark ∈ rest ∧ ∃ after, fromMark mark rest = mark :: after) := by
  induction rest with
  | nil => exact .inl ⟨List.not_mem_nil, rfl⟩
  | cons c rest inductionHypothesis =>
      by_cases same : c = mark
      · subst same
        exact .inr ⟨List.mem_cons_self, rest, by simp [fromMark]⟩
      · have skipped : fromMark mark (c :: rest) = fromMark mark rest :=
          List.dropWhile_cons_of_pos (by simpa using same)
        rw [skipped, List.mem_cons, or_iff_right (Ne.symm same)]
        exact inductionHypothesis

theorem slice_add (order : i ≤ first) (length : ℕ) :
    slice text i (first + length) = slice text i first ++ (text.drop first).take length := by
  rw [slice_eq_take_drop, slice_eq_take_drop, show first + length - i = first - i + length by omega,
    List.take_add, List.drop_drop, show i + (first - i) = first by omega]

/-- A tag is read up to the first mark and its brace. It looks past the end of the text exactly when
the text ends where the mark or the brace may stand, and else reports a tag that is not closed. -/
theorem getTag_cases (order : i ≤ first) :
    (EndsAtMark mark text first ∧ getTag mark message text i first = .error .index) ∨
      ((¬ EndsAtMark mark text first ∧
          ¬ ∃ after, fromMark mark (text.drop first) = mark :: '}' :: after) ∧
        ∃ message' content,
          getTag mark message text i first = .error (.tokenization message' content)) ∨
      (¬ EndsAtMark mark text first ∧
        (∃ after, fromMark mark (text.drop first) = mark :: '}' :: after) ∧
        getTag mark message text i first = .ok (slice text i first ++
          beforeMark mark (text.drop first) ++ [mark, '}'])) := by
  unfold EndsAtMark
  rcases fromMark_eq_nil_or_cons mark (text.drop first) with ⟨unmarked, noRest⟩ |
    ⟨isMarked, after, rest⟩
  · obtain ⟨different, isEmpty⟩ := markIndex_of_not_mem unmarked
    rw [getTag, noRest]
    cases isFound : text[markIndex text mark first]? with
    | none => exact .inl ⟨.inl (isEmpty.mp isFound), rfl⟩
    | some found =>
        have isOther : found ≠ mark := fun same => different (isFound.trans (congrArg some same))
        have notEmpty : text.drop first ≠ [] := fun noText => by
          rw [isEmpty.mpr noText] at isFound
          cases isFound
        exact .inr (.inl ⟨⟨by simp [notEmpty], by simp⟩, _, _, if_pos isOther⟩)
  · obtain ⟨fromLast, isLast⟩ := markIndex_of_mem isMarked
    have whole := beforeMark_append_fromMark mark (text.drop first)
    rw [rest] at fromLast whole
    have isMark : text[markIndex text mark first]? = some mark := by
      rw [← Nat.add_zero (markIndex text mark first), ← List.getElem?_drop, fromLast]
      rfl
    have isNext : text[markIndex text mark first + 1]? = after[0]? := by
      rw [← List.getElem?_drop, fromLast]
      rfl
    have notEmpty : text.drop first ≠ [] := fun noText => by
      rw [noText] at isMarked
      cases isMarked
    rw [getTag, rest, isMark]
    dsimp only
    rw [if_neg (not_not.mpr rfl), isNext]
    cases after with
    | nil => exact .inl ⟨.inr rfl, rfl⟩
    | cons brace after =>
        have notLast : ¬ (text.drop first = [] ∨ mark :: brace :: after = [mark]) := by
          simp [notEmpty]
        by_cases closed : brace = '}'
        · subst closed
          refine .inr (.inr ⟨notLast, ⟨after, rfl⟩, ?_⟩)
          rw [isLast, Nat.add_assoc, slice_add order]
          have taken : (text.drop first).take ((beforeMark mark (text.drop first)).length + 2) =
              beforeMark mark (text.drop first) ++ [mark, '}'] := by
            generalize beforeMark mark (text.drop first) = before at whole
            rw [← whole, List.take_length_add_append]
            rfl
          rw [taken, List.append_assoc]
          rfl
        · exact .inr (.inl ⟨⟨notLast, by simp [closed]⟩, _, _, if_pos closed⟩)

theorem slice_append_drop (order : i ≤ first) :
    slice text i first ++ text.drop first = text.drop i := by
  rw [slice_eq_take_drop, show text.drop first = (text.drop i).drop (first - i) by
    rw [List.drop_drop, Nat.add_sub_cancel' order], List.take_append_drop]

/-- A tag that is closed is read. -/
theorem reads_of_closed {after : Text} (order : i ≤ first)
    (closed : fromMark mark (text.drop first) = mark :: '}' :: after) :
    Reads text i (slice text i first ++ beforeMark mark (text.drop first) ++ [mark, '}']) := by
  refine ⟨by simp, after, ?_⟩
  have whole := beforeMark_append_fromMark mark (text.drop first)
  rw [closed] at whole
  rw [← slice_append_drop order]
  generalize beforeMark mark (text.drop first) = before at whole
  rw [← whole, List.append_assoc, List.append_assoc]
  rfl

/-! ## What the other scanners read -/

/-- From `first` on no closing string ends, and no tag begins. -/
def RunsPast (closing text : Text) (first : ℕ) : Prop :=
  first ≤ text.length ∧
    (∀ last ≤ text.length, first ≤ last → slice text (last - closing.length) last ≠ closing) ∧
    '<' ∉ text.drop first

/-- The loop looks past the end of the text exactly when it has seen no tag begin and there is
neither a closing string nor the beginning of a tag. -/
theorem closingIndex_cases (positive : 0 < first) :
    (unclosedEnd = 0 ∧ RunsPast closing text first ∧
        closingIndex closing message text i first unclosedEnd = .error .index) ∨
      (¬ (unclosedEnd = 0 ∧ RunsPast closing text first) ∧
        ((∃ content, closingIndex closing message text i first unclosedEnd =
            .error (.tokenization message content)) ∨
          ∃ last, closingIndex closing message text i first unclosedEnd = .ok last ∧
            first ≤ last ∧ last ≤ text.length)) := by
  unfold RunsPast
  fun_induction closingIndex closing message text i first unclosedEnd with
  | case1 first unclosedEnd inText isClosed =>
      refine .inr ⟨fun ⟨_, _, never, _⟩ => never first inText le_rfl isClosed, .inr ?_⟩
      exact ⟨first, rfl, le_rfl, inText⟩
  | case2 first inText notClosed isOut =>
      have atEnd : text.length = first := by
        have := List.getElem?_eq_none_iff.mp isOut
        omega
      refine .inl ⟨rfl, ⟨inText, fun last within order => ?_, ?_⟩, rfl⟩
      · obtain rfl : first = last := by omega
        exact notClosed
      · rw [List.drop_of_length_le atEnd.le]
        exact List.not_mem_nil
  | case3 first inText notClosed found isFound inductionHypothesis =>
      obtain ⟨isBelow, isHere⟩ := List.getElem?_eq_some_iff.mp isFound
      have next : text.drop first = found :: text.drop (first + 1) := by
        rw [List.drop_eq_getElem_cons isBelow, isHere]
      by_cases isTag : found = '<'
      · have isLater : (if found = '<' then first else 0) ≠ 0 := by
          rw [if_pos isTag]
          omega
        have hasTag : '<' ∈ text.drop first := by
          rw [next, isTag]
          exact List.mem_cons_self
        rcases inductionHypothesis (by omega) with ⟨noTag, -⟩ | ⟨-, result⟩
        · exact absurd noTag isLater
        · refine .inr ⟨fun none => none.2.2.2 hasTag, ?_⟩
          rcases result with reported | ⟨last, isLast, order, within⟩
          · exact .inl reported
          · exact .inr ⟨last, isLast, by omega, within⟩
      · have noTag : '<' ∉ text.drop first ↔ '<' ∉ text.drop (first + 1) := by
          rw [next, List.mem_cons, or_iff_right (Ne.symm isTag)]
        rw [dif_neg isTag] at inductionHypothesis
        rw [if_neg isTag]
        rcases inductionHypothesis (by omega) with ⟨-, ⟨within, never, clean⟩, isError⟩ |
          ⟨notPast, result⟩
        · refine .inl ⟨rfl, ⟨inText, fun last inside order => ?_, noTag.mpr clean⟩, isError⟩
          rcases order.eq_or_lt with rfl | later
          · exact notClosed
          · exact never last inside later
        · refine .inr ⟨fun ⟨_, _, never, clean⟩ => notPast ⟨rfl, isBelow,
            fun last inside order => never last inside (by omega), noTag.mp clean⟩, ?_⟩
          rcases result with reported | ⟨last, isLast, order, inside⟩
          · exact .inl reported
          · exact .inr ⟨last, isLast, by omega, inside⟩
  | case4 first unclosedEnd inText notClosed hasTag inductionHypothesis =>
      rcases inductionHypothesis (by omega) with ⟨noTag, -⟩ | ⟨-, result⟩
      · exact absurd noTag hasTag
      · refine .inr ⟨fun none => hasTag none.1, ?_⟩
        rcases result with reported | ⟨last, isLast, order, within⟩
        · exact .inl reported
        · exact .inr ⟨last, isLast, by omega, within⟩
  | case5 first unclosedEnd outside =>
      exact .inr ⟨fun ⟨_, inText, _⟩ => outside inText, .inl ⟨_, rfl⟩⟩

/-- A scanner for a closing string looks past the end of the text, reports a token that is not
closed, or reads. -/
theorem getClosed_cases {offset : ℕ} (positive : 0 < offset) (inText : i < text.length) :
    (RunsPast closing text (i + offset) ∧
        getClosed closing message text offset i = .error .index) ∨
      (¬ RunsPast closing text (i + offset) ∧
        ((∃ message' content, getClosed closing message text offset i =
            .error (.tokenization message' content)) ∨
          ∃ s, getClosed closing message text offset i = .ok s ∧ Reads text i s)) := by
  unfold getClosed
  rcases @closingIndex_cases text closing message i (i + offset) 0 (by omega) with
    ⟨-, past, isError⟩ | ⟨notPast, ⟨content, isError⟩ | ⟨last, isLast, order, -⟩⟩
  · exact .inl ⟨past, by rw [isError]; rfl⟩
  · exact .inr ⟨fun past => notPast ⟨rfl, past⟩, .inl ⟨message, content, by rw [isError]; rfl⟩⟩
  · exact .inr ⟨fun past => notPast ⟨rfl, past⟩, .inr ⟨slice text i last, by rw [isLast]; rfl,
      reads_slice (by omega) inText⟩⟩

theorem getTemplateVar_cases (inText : i < text.length) :
    (RunsPast ['}'] text (i + 3) ∧ getTemplateVar text i = .error .index) ∨
      (¬ RunsPast ['}'] text (i + 3) ∧
        ((∃ message content, getTemplateVar text i = .error (.tokenization message content)) ∨
          ∃ s, getTemplateVar text i = .ok s ∧ Reads text i s)) := by
  unfold getTemplateVar
  rcases @closingIndex_cases text ['}'] "Unclosed var".toList i (i + 3) 0 (by omega) with
    ⟨-, past, isError⟩ | ⟨notPast, ⟨content, isError⟩ | ⟨last, isLast, order, -⟩⟩
  · exact .inl ⟨past, by rw [isError]; rfl⟩
  · exact .inr ⟨fun past => notPast ⟨rfl, past⟩, .inl ⟨_, content, by rw [isError]; rfl⟩⟩
  · refine .inr ⟨fun past => notPast ⟨rfl, past⟩, .inr ⟨_, by rw [isLast]; rfl,
      reads_slice ?_ inText⟩⟩
    split_ifs <;> omega

theorem le_htmlTagLoop (text : Text) (last quoteCount unclosedEnd : ℕ) :
    last ≤ (htmlTagLoop text last quoteCount unclosedEnd).1 := by
  fun_induction htmlTagLoop text last quoteCount unclosedEnd with
  | case1 => exact le_rfl
  | case2 last quoteCount unclosedEnd found isFound continues inductionHypothesis =>
      exact (Nat.le_succ last).trans inductionHypothesis
  | case3 => exact le_rfl

/-- The scanner of HTML tags never looks past the end of the text. -/
theorem getHtmlTag_cases (inText : i < text.length) :
    (∃ message content, getHtmlTag text i = .error (.tokenization message content)) ∨
      ∃ s, getHtmlTag text i = .ok s ∧ Reads text i s := by
  have order := le_htmlTagLoop text (i + 1) 0 0
  rw [getHtmlTag]
  generalize htmlTagLoop text (i + 1) 0 0 = finish at order
  obtain ⟨last, quoteCount, unclosedEnd⟩ := finish
  dsimp only at order ⊢
  split_ifs
  · exact .inl ⟨_, _, rfl⟩
  · exact .inl ⟨_, _, rfl⟩
  · exact .inl ⟨_, _, rfl⟩
  · exact .inr ⟨_, rfl, reads_slice (by omega) inText⟩

/-- What a loop over characters reads, when it reads the first one. -/
theorem reads_takeWhile {continues : Char → Bool} {c : Char} {rest : Text}
    (isFirst : text.drop i = c :: rest) (isRead : continues c = true) :
    Reads text i ((text.drop i).takeWhile continues) := by
  refine ⟨?_, List.takeWhile_prefix _⟩
  rw [isFirst, List.takeWhile_cons_of_pos isRead]
  exact List.cons_ne_nil _ _

end Zulip.Tools
