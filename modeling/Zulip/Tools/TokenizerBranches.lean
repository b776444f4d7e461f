import Mathlib.Data.List.TakeWhile
import Zulip.Tools.Tokenizer

/-!
# What one turn of the tokenizer reads

`Branch.Slips` collects the texts on which a branch goes wrong: it looks past the end of the text,
it takes the first word of a blank name, or it drops white space. `readToken_outcome` says that these
are all: elsewhere a branch reads some of the text or reports an error of the tokenizer's own.
-/

namespace Zulip.Tools

open Zulip.Markdown.Fenced (isSpacePython dropEndWhile)

/-! ## Where a branch goes wrong -/

/-- The characters of a text are all white space. -/
def IsBlank (s : Text) : Prop := ∀ c ∈ s, isSpacePython c = true

/-- A tag is closed after its first mark, and what `name` takes of the text before it is blank. -/
def BlankName (mark : Char) (name : Text → Text) (text : Text) (first : ℕ) : Prop :=
  (∃ after, fromMark mark (text.drop first) = mark :: '}' :: after) ∧
    IsBlank (name (beforeMark mark (text.drop first)))

namespace Branch

/-- The branch goes wrong on the text at an index. -/
def Slips (text : Text) (i : ℕ) : Branch → Prop
  | .htmlComment => RunsPast "-->".toList text (i + 7)
  | .handlebarsComment => RunsPast ['}', '}'] text (i + 5)
  | .djangoComment => RunsPast ['#', '}'] text (i + 4)
  | .handlebarsPartial | .handlebarsPartialBlock => RunsPast ['}', '}'] text (i + 10)
  | .templateVar => RunsPast ['}'] text (i + 3)
  | .handlebarsElse | .handlebarsEnd => EndsAtMark '}' text (i + 2)
  | .handlebarsStart => EndsAtMark '}' text (i + 2) ∨ BlankName '}' id text (i + 3)
  | .djangoElse | .djangoEnd | .jinja2EndWhitespaceStripped => EndsAtMark '%' text (i + 2)
  | .djangoStart => EndsAtMark '%' text (i + 2) ∨ BlankName '%' id text (i + 3)
  | .jinja2StartWhitespaceStrippedType2 =>
      EndsAtMark '%' text (i + 3) ∨ BlankName '%' List.dropLast text (i + 3)
  | .text => ∃ c, text[i]? = some c ∧ isSpacePython c = true
  | .code | .htmlStart | .htmlEnd | .newline | .spaces | .unparsable => False

/-- What `get_html_tag` has read has no name. -/
def MissesName (s : Text) : Prop := IsBlank (sliceEnd s 1 (if endsSingleton s then 2 else 1))

/-- The scanner of the branch reports an error of its own, or the tag has no name. -/
def Reports (text : Text) (i : ℕ) (branch : Branch) : Prop :=
  (∃ message content, branch.scan text i = .error (.tokenization message content)) ∨
    (branch = .htmlStart ∧ ∃ s, getHtmlTag text i = .ok s ∧ MissesName s)

end Branch

/-- The errors that a turn turns into errors of the tokenizer, or passes on as such. -/
def PyError.IsReport : PyError → Prop
  | .tokenization _ _ | .templateParser _ => True
  | .formatted _ | .assertion _ | .index => False

/-- What a branch does with the text at an index. -/
inductive Outcome (text : Text) (i : ℕ) (branch : Branch) : Prop where
  | pastEnd (slips : branch.Slips text i) (fails : readToken text i branch = .error .index)
  | trimmed (slips : branch.Slips text i) (isText : branch = .text)
      (result : readToken text i branch = .ok none ∨
        ∃ s tag, readToken text i branch = .ok (some (s, tag)) ∧ ¬ s <+: text.drop i)
  | reported (clean : ¬ branch.Slips text i) (reports : branch.Reports text i) (error : PyError)
      (fails : readToken text i branch = .error error) (isReport : error.IsReport)
  | leftCode (clean : ¬ branch.Slips text i) (isCode : branch = .code)
      (result : readToken text i branch = .ok none)
  | read (clean : ¬ branch.Slips text i) (s tag : Text)
      (result : readToken text i branch = .ok (some (s, tag))) (reads : Reads text i s)

variable {text : Text} {i : ℕ} {branch : Branch} {format : Option TemplateFormat}

/-! ## Looking ahead -/

theorem isPrefix_of_lookingAt {s : Text} (isAhead : lookingAt text i s = true) :
    s <+: text.drop i := by
  have isSlice : slice text i (i + s.length) = s := of_decide_eq_true isAhead
  rw [← isSlice, slice_eq_take_drop]
  exact List.take_prefix _ _

theorem drop_of_lookingAt {c : Char} {s : Text} (isAhead : lookingAt text i (c :: s) = true) :
    ∃ rest, text.drop i = c :: (s ++ rest) := by
  obtain ⟨rest, isRest⟩ := isPrefix_of_lookingAt isAhead
  exact ⟨rest, isRest.symm⟩

/-- The character at an index is ahead. -/
theorem lookingAt_of_getElem? {c : Char} (isHere : text[i]? = some c) :
    lookingAt text i [c] = true := by
  obtain ⟨inText, rfl⟩ := List.getElem?_eq_some_iff.mp isHere
  refine decide_eq_true ?_
  rw [slice_eq_take_drop, List.drop_eq_getElem_cons inText, Nat.add_sub_cancel_left]
  rfl

namespace Branch

variable {inCodeBlock : Bool}

/-- The branch that is taken is ahead. -/
theorem isAhead_of_choose (isChosen : choose format text i false = branch) :
    branch.isAhead format text i = true := by
  rw [choose, if_neg Bool.false_ne_true] at isChosen
  cases found : (special ++ [unparsable]).find? (isAhead format text i) with
  | none =>
      rw [found] at isChosen
      rw [← isChosen]
      rfl
  | some first =>
      rw [found] at isChosen
      rw [← isChosen]
      exact List.find?_some found

/-- The last two branches are taken when nothing special is ahead. -/
theorem not_isAhead_of_choose (isChosen : choose format text i false = branch)
    (isOther : branch ∉ special) : ∀ first ∈ special, first.isAhead format text i = false := by
  rw [choose, if_neg Bool.false_ne_true, List.find?_append] at isChosen
  cases found : special.find? (isAhead format text i) with
  | none =>
      exact fun first isSpecial => Bool.eq_false_iff.mpr (List.find?_eq_none.mp found _ isSpecial)
  | some first =>
      rw [found] at isChosen
      obtain rfl : first = branch := isChosen
      exact absurd (List.mem_of_find?_eq_some found) isOther

/-- No brace and no angle bracket is left to the last two branches. -/
theorem not_bracket_of_choose (isChosen : choose format text i false = branch)
    (isOther : branch ∉ special) : text[i]? ≠ some '{' ∧ text[i]? ≠ some '<' := by
  have notAhead := not_isAhead_of_choose isChosen isOther
  constructor
  · intro isBrace
    have notVar : lookingAt text i ['{'] = false := notAhead .templateVar (by decide)
    rw [lookingAt_of_getElem? isBrace] at notVar
    cases notVar
  · intro isBracket
    have notEnd : lookingAt text i ['<', '/'] = false := notAhead .htmlEnd (by decide)
    have notStart : (lookingAt text i ['<'] && !lookingAt text i ['<', '/']) = false :=
      notAhead .htmlStart (by decide)
    rw [lookingAt_of_getElem? isBracket, notEnd] at notStart
    cases notStart

theorem choose_ne_unparsable : choose format text i false ≠ .unparsable := by
  intro isChosen
  have isAhead := isAhead_of_choose isChosen
  obtain ⟨notBrace, notBracket⟩ := not_bracket_of_choose isChosen (by decide)
  have isEither : (decide (text[i]? = some '{') || decide (text[i]? = some '<')) = true := isAhead
  rw [decide_eq_false notBrace, decide_eq_false notBracket] at isEither
  cases isEither

end Branch

/-! ## The branches one by one -/

theorem readToken_of_error {error : PyError} (fails : branch.scan text i = .error error) :
    readToken text i branch = .error error := by
  rw [readToken, fails]

theorem readToken_of_ok {s : Text} (scans : branch.scan text i = .ok s) (notEmpty : s ≠ []) :
    readToken text i branch = (branch.tag s).map fun tag => some (s, tag) := by
  rw [readToken, scans]
  exact if_neg fun none => notEmpty none.2

/-- A branch whose tag never fails does what its scanner does. -/
theorem outcome_of_scan (tagged : ∀ s, ∃ tag, branch.tag s = .ok tag)
    (scans : (branch.Slips text i ∧ branch.scan text i = .error .index) ∨
      (¬ branch.Slips text i ∧
        ((∃ message content, branch.scan text i = .error (.tokenization message content)) ∨
          ∃ s, branch.scan text i = .ok s ∧ Reads text i s))) : Outcome text i branch := by
  rcases scans with ⟨slips, fails⟩ | ⟨clean, ⟨message, content, fails⟩ | ⟨s, isRead, reads⟩⟩
  · exact .pastEnd slips (readToken_of_error fails)
  · exact .reported clean (.inl ⟨message, content, fails⟩) _ (readToken_of_error fails) trivial
  · obtain ⟨tag, isTag⟩ := tagged s
    refine .read clean s tag ?_ reads
    rw [readToken_of_ok isRead reads.1, isTag]
    rfl

/-- What a scanner of tags says of its branch. -/
theorem scans_of_tag {mark : Char} {message : Text} {first : ℕ} (order : i ≤ first) :
    (EndsAtMark mark text first ∧ getTag mark message text i first = .error .index) ∨
      (¬ EndsAtMark mark text first ∧
        ((∃ message' content, getTag mark message text i first =
            .error (.tokenization message' content)) ∨
          ∃ s, getTag mark message text i first = .ok s ∧ Reads text i s)) := by
  rcases @getTag_cases text message mark i first order with
    past | ⟨notPast, reports⟩ | ⟨notPast, ⟨after, closed⟩, isTag⟩
  · exact .inl past
  · exact .inr ⟨notPast.1, .inl reports⟩
  · exact .inr ⟨notPast, .inr ⟨_, isTag, reads_of_closed order closed⟩⟩

/-- The first word of a text, if it is not blank. -/
theorem firstPart_cases (s : Text) :
    (IsBlank s ∧ Branch.firstPart s = .error .index) ∨
      (¬ IsBlank s ∧ ∃ name, Branch.firstPart s = .ok name) := by
  rw [Branch.firstPart]
  cases rest : s.dropWhile isSpacePython with
  | nil => exact .inl ⟨List.dropWhile_eq_nil_iff.mp rest, rfl⟩
  | cons c after =>
      refine .inr ⟨fun blank => ?_, _, rfl⟩
      rw [List.dropWhile_eq_nil_iff.mpr blank] at rest
      cases rest

/-- A branch that takes the first word of some of a tag. -/
theorem outcome_of_named {mark : Char} {message : Text} {first : ℕ} {part finish : Text → Text}
    (order : i ≤ first) (isScan : branch.scan text i = getTag mark message text i first)
    (isTag : ∀ s, branch.tag s = (Branch.firstPart (part s)).map finish)
    (isSlip : branch.Slips text i ↔ EndsAtMark mark text first ∨
      ((∃ after, fromMark mark (text.drop first) = mark :: '}' :: after) ∧
        IsBlank (part (slice text i first ++ beforeMark mark (text.drop first) ++ [mark, '}'])))) :
    Outcome text i branch := by
  rcases @getTag_cases text message mark i first order with
    ⟨past, fails⟩ | ⟨⟨notPast, notClosed⟩, message', content, fails⟩ |
      ⟨notPast, ⟨after, closed⟩, isRead⟩
  · exact .pastEnd (isSlip.mpr (.inl past)) (readToken_of_error (isScan.trans fails))
  · have clean : ¬ branch.Slips text i := fun slips =>
      (isSlip.mp slips).elim notPast fun isBlank => notClosed isBlank.1
    exact .reported clean (.inl ⟨message', content, isScan.trans fails⟩) _
      (readToken_of_error (isScan.trans fails)) trivial
  · have reads := reads_of_closed order closed
    generalize slice text i first ++ beforeMark mark (text.drop first) ++ [mark, '}'] = s at *
    have result := readToken_of_ok (isScan.trans isRead) reads.1
    rw [isTag] at result
    rcases firstPart_cases (part s) with ⟨blank, fails⟩ | ⟨notBlank, name, isName⟩
    · rw [fails] at result
      exact .pastEnd (isSlip.mpr (.inr ⟨⟨after, closed⟩, blank⟩)) result
    · rw [isName] at result
      exact .read (fun slips => (isSlip.mp slips).elim notPast fun isBlank => notBlank isBlank.2)
        s (finish name) result reads

/-- With another character before, the first mark is the same. -/
theorem mark_of_drop_cons {mark c : Char} {first : ℕ} {rest : Text} (different : c ≠ mark)
    (isCons : text.drop first = c :: rest) :
    fromMark mark (text.drop first) = fromMark mark (text.drop (first + 1)) ∧
      beforeMark mark (text.drop first) = c :: beforeMark mark (text.drop (first + 1)) := by
  have isRest : text.drop (first + 1) = rest := by
    rw [← List.drop_drop, isCons]
    rfl
  rw [isRest, isCons]
  exact ⟨List.dropWhile_cons_of_pos (by simpa using different),
    List.takeWhile_cons_of_pos (by simpa using different)⟩

/-- `s[3:-2]` of a tag that is scanned from its third character on. -/
theorem sliceEnd_of_tag {mark first second third : Char} {rest : Text} (different : third ≠ mark)
    (isAhead : text.drop i = first :: second :: third :: rest) :
    sliceEnd (slice text i (i + 2) ++ beforeMark mark (text.drop (i + 2)) ++ [mark, '}']) 3 2 =
      beforeMark mark (text.drop (i + 3)) := by
  have third_ : text.drop (i + 2) = third :: rest := by
    rw [← List.drop_drop, isAhead]
    rfl
  have start : slice text i (i + 2) = [first, second] := by
    rw [slice_eq_take_drop, isAhead, Nat.add_sub_cancel_left]
    rfl
  rw [(mark_of_drop_cons different third_).2, start]
  generalize beforeMark mark (text.drop (i + 2 + 1)) = name
  simp [sliceEnd, slice]

/-- A branch that takes the first word of a tag that is scanned from its third character on. -/
theorem outcome_of_third {mark first second third : Char} {message rest : Text}
    {finish : Text → Text} (different : third ≠ mark)
    (isAhead : text.drop i = first :: second :: third :: rest)
    (isScan : branch.scan text i = getTag mark message text i (i + 2))
    (isTag : ∀ s, branch.tag s = (Branch.firstPart (sliceEnd s 3 2)).map finish)
    (isSlip : branch.Slips text i ↔
      EndsAtMark mark text (i + 2) ∨ BlankName mark id text (i + 3)) : Outcome text i branch := by
  have third_ : text.drop (i + 2) = third :: rest := by
    rw [← List.drop_drop, isAhead]
    rfl
  refine outcome_of_named (by omega) isScan isTag (isSlip.trans ?_)
  rw [sliceEnd_of_tag different isAhead, (mark_of_drop_cons different third_).1]
  exact Iff.rfl

/-- Code is read up to a tag, or the branch for code is left. -/
theorem outcome_code : Outcome text i .code := by
  by_cases isEmpty : getCode text i = []
  · refine .leftCode not_false rfl ?_
    rw [readToken, show Branch.code.scan text i = .ok (getCode text i) from rfl]
    exact if_pos ⟨.inl rfl, isEmpty⟩
  · exact .read not_false _ _ (readToken_of_ok rfl isEmpty) ⟨isEmpty, List.takeWhile_prefix _⟩

theorem dropEndWhile_isPrefix (drops : Char → Bool) (s : Text) : dropEndWhile drops s <+: s := by
  have isSuffix := List.dropWhile_suffix (p := drops) (l := s.reverse)
  rw [← List.reverse_prefix, List.reverse_reverse] at isSuffix
  exact isSuffix

/-- What is stripped does not begin with white space. -/
theorem strip_head {c : Char} {rest s : Text} (isStrip : strip s = c :: rest) :
    isSpacePython c = false := by
  obtain ⟨after, whole⟩ := dropEndWhile_isPrefix isSpacePython (s.dropWhile isSpacePython)
  rw [strip] at isStrip
  rw [isStrip] at whole
  have isHead := List.head?_dropWhile_not isSpacePython s
  rw [← whole] at isHead
  exact isHead

/-- A text that does not begin with white space is stripped at its end only. -/
theorem strip_isPrefix {c : Char} {rest : Text} (notSpace : isSpacePython c = false) :
    strip (c :: rest) <+: c :: rest ∧ strip (c :: rest) ≠ [] := by
  have noneDropped : (c :: rest).dropWhile isSpacePython = c :: rest :=
    List.dropWhile_cons_of_neg (by simp [notSpace])
  rw [strip, noneDropped]
  refine ⟨dropEndWhile_isPrefix _ _, fun isEmpty => ?_⟩
  have allSpace := List.dropWhile_eq_nil_iff.mp (List.reverse_eq_nil_iff.mp isEmpty) c (by simp)
  rw [notSpace] at allSpace
  cases allSpace

/-- Text is read as it stands exactly when it does not begin with white space. -/
theorem outcome_text (inText : i < text.length) (notBrace : text[i]? ≠ some '{')
    (notBracket : text[i]? ≠ some '<') : Outcome text i .text := by
  obtain ⟨c, isFirst⟩ : ∃ c, text[i]? = some c := ⟨_, List.getElem?_eq_getElem inText⟩
  have next : text.drop i = c :: text.drop (i + 1) := by
    obtain ⟨_, rfl⟩ := List.getElem?_eq_some_iff.mp isFirst
    exact List.drop_eq_getElem_cons inText
  rw [isFirst, Ne, Option.some.injEq] at notBrace notBracket
  have isRead : ((text.drop i).takeWhile fun c => c ≠ '{' ∧ c ≠ '<') =
      c :: (text.drop (i + 1)).takeWhile fun c => c ≠ '{' ∧ c ≠ '<' := by
    rw [next, List.takeWhile_cons_of_pos (by simp [notBrace, notBracket])]
  cases isSpace : isSpacePython c with
  | false =>
      have clean : ¬ Branch.Slips text i .text := fun ⟨c', isFirst', isSpace'⟩ => by
        rw [isFirst] at isFirst'
        rw [Option.some.inj isFirst', isSpace'] at isSpace
        cases isSpace
      obtain ⟨isPrefix, notEmpty⟩ := @strip_isPrefix c _ isSpace
      rw [← isRead] at isPrefix notEmpty
      exact .read clean _ _ (readToken_of_ok rfl notEmpty)
        ⟨notEmpty, isPrefix.trans (List.takeWhile_prefix _)⟩
  | true =>
      refine .trimmed ⟨c, isFirst, isSpace⟩ rfl ?_
      by_cases isEmpty : getText text i = []
      · refine .inl ?_
        rw [readToken, show Branch.text.scan text i = .ok (getText text i) from rfl]
        exact if_pos ⟨.inr rfl, isEmpty⟩
      · refine .inr ⟨_, _, readToken_of_ok rfl isEmpty, fun isPrefix => ?_⟩
        obtain ⟨first, rest, isStrip⟩ := List.exists_cons_of_ne_nil isEmpty
        rw [isStrip, next, List.cons_prefix_cons] at isPrefix
        have notSpace := strip_head isStrip
        rw [isPrefix.1, isSpace] at notSpace
        cases notSpace

theorem outcome_html (isTag : branch = .htmlStart ∨ branch = .htmlEnd)
    (inText : i < text.length) : Outcome text i branch := by
  have isScan : branch.scan text i = getHtmlTag text i := by rcases isTag with rfl | rfl <;> rfl
  have clean : ¬ branch.Slips text i := by rcases isTag with rfl | rfl <;> exact not_false
  rcases getHtmlTag_cases inText with ⟨message, content, fails⟩ | ⟨s, isRead, reads⟩
  · exact .reported clean (.inl ⟨message, content, isScan.trans fails⟩) _
      (readToken_of_error (isScan.trans fails)) trivial
  · have result := readToken_of_ok (isScan.trans isRead) reads.1
    rcases isTag with rfl | rfl
    · rw [Branch.tag] at result
      rcases firstPart_cases (sliceEnd s 1 (if Branch.endsSingleton s then 2 else 1)) with
        ⟨blank, fails⟩ | ⟨-, name, isName⟩
      · rw [fails] at result
        exact .reported clean (.inr ⟨rfl, s, isRead, blank⟩) _ result trivial
      · rw [isName] at result
        exact .read clean _ _ result reads
    · exact .read clean _ _ result reads

theorem outcome_handlebarsStart
    (isAhead : Branch.handlebarsStart.isAhead format text i = true) :
    Outcome text i .handlebarsStart := by
  have third : ∃ third rest, third ≠ '}' ∧ text.drop i = '{' :: '{' :: third :: rest := by
    rcases Bool.or_eq_true_iff.mp isAhead with isAhead | isAhead
    · rcases Bool.or_eq_true_iff.mp isAhead with isAhead | isAhead
      all_goals
        obtain ⟨rest, isRest⟩ := drop_of_lookingAt isAhead
        exact ⟨_, rest, by decide, isRest⟩
    · obtain ⟨rest, isRest⟩ := drop_of_lookingAt isAhead
      exact ⟨'~', '#' :: rest, by decide, isRest⟩
  obtain ⟨third, rest, different, isRest⟩ := third
  exact outcome_of_third different isRest rfl (fun _ => rfl) Iff.rfl

theorem outcome_djangoStart (isAhead : Branch.djangoStart.isAhead format text i = true) :
    Outcome text i .djangoStart := by
  obtain ⟨rest, isRest⟩ := drop_of_lookingAt (Bool.and_eq_true_iff.mp isAhead).2
  have different : ' ' ≠ '%' := by decide
  have isTag : ∀ s, Branch.djangoStart.tag s = (Branch.firstPart (sliceEnd s 3 2)).map id := by
    intro s
    rw [Branch.tag]
    cases Branch.firstPart (sliceEnd s 3 2) <;> rfl
  exact outcome_of_third different isRest rfl isTag Iff.rfl

/-- A tag that strips white space loses one more character at its end. -/
theorem outcome_jinja2Start
    (isAhead : Branch.jinja2StartWhitespaceStrippedType2.isAhead format text i = true) :
    Outcome text i .jinja2StartWhitespaceStrippedType2 := by
  obtain ⟨rest, isRest⟩ :=
    drop_of_lookingAt (Bool.and_eq_true_iff.mp (Bool.and_eq_true_iff.mp isAhead).1).2
  have start : slice text i (i + 3) = ['{', '%', '-'] := by
    rw [slice_eq_take_drop, isRest, Nat.add_sub_cancel_left]
    rfl
  have isTag : ∀ s, Branch.jinja2StartWhitespaceStrippedType2.tag s =
      (Branch.firstPart ((sliceEnd · 3 3) s)).map id := by
    intro s
    rw [Branch.tag]
    cases Branch.firstPart (sliceEnd s 3 3) <;> rfl
  have isName : sliceEnd (slice text i (i + 3) ++ beforeMark '%' (text.drop (i + 3)) ++
      ['%', '}']) 3 3 = (beforeMark '%' (text.drop (i + 3))).dropLast := by
    rw [start]
    rcases List.eq_nil_or_concat (beforeMark '%' (text.drop (i + 3))) with isEmpty |
      ⟨name, last, isConcat⟩
    · rw [isEmpty]
      rfl
    · rw [isConcat]
      simp [sliceEnd, slice]
  refine outcome_of_named (Nat.le_add_right i 3) rfl isTag ?_
  rw [isName]
  exact Iff.rfl

theorem readToken_of_missesName {s : Text} (isRead : getHtmlTag text i = .ok s)
    (missesName : Branch.MissesName s) :
    readToken text i .htmlStart = .error (.templateParser "Tag name missing".toList) := by
  rw [readToken, show Branch.htmlStart.scan text i = getHtmlTag text i from rfl, isRead]
  dsimp only
  rw [if_neg (by simp), Branch.tag]
  rcases firstPart_cases (sliceEnd s 1 (if Branch.endsSingleton s then 2 else 1)) with
    ⟨-, fails⟩ | ⟨notBlank, -⟩
  · rw [fails]
    rfl
  · exact absurd missesName notBlank

/-- A branch that is taken looks past the end of the text or trims it exactly when it slips. Else it
reports an error, or reads, or the code is over. -/
theorem readToken_outcome {inCodeBlock : Bool} (inText : i < text.length)
    (isChosen : Branch.choose format text i inCodeBlock = branch) : Outcome text i branch := by
  cases inCodeBlock with
  | true =>
      obtain rfl : Branch.code = branch := isChosen
      exact outcome_code
  | false =>
      have isAhead := Branch.isAhead_of_choose isChosen
      cases branch with
      | code => cases isAhead
      | htmlComment =>
          exact outcome_of_scan (fun s => ⟨_, rfl⟩) (getClosed_cases (by decide) inText)
      | handlebarsComment =>
          exact outcome_of_scan (fun s => ⟨_, rfl⟩) (getClosed_cases (by decide) inText)
      | djangoComment =>
          exact outcome_of_scan (fun s => ⟨_, rfl⟩) (getClosed_cases (by decide) inText)
      | handlebarsPartial =>
          exact outcome_of_scan (fun s => ⟨_, rfl⟩) (getClosed_cases (by decide) inText)
      | handlebarsPartialBlock =>
          exact outcome_of_scan (fun s => ⟨_, rfl⟩) (getClosed_cases (by decide) inText)
      | htmlStart => exact outcome_html (.inl rfl) inText
      | htmlEnd => exact outcome_html (.inr rfl) inText
      | handlebarsElse =>
          exact outcome_of_scan (fun s => ⟨_, rfl⟩) (scans_of_tag (by omega))
      | handlebarsStart => exact outcome_handlebarsStart isAhead
      | handlebarsEnd =>
          exact outcome_of_scan (fun s => ⟨_, rfl⟩) (scans_of_tag (by omega))
      | djangoElse =>
          exact outcome_of_scan (fun s => ⟨_, rfl⟩) (scans_of_tag (by omega))
      | djangoEnd =>
          exact outcome_of_scan (fun s => ⟨_, rfl⟩) (scans_of_tag (by omega))
      | djangoStart => exact outcome_djangoStart isAhead
      | jinja2EndWhitespaceStripped =>
          exact outcome_of_scan (fun s => ⟨_, rfl⟩) (scans_of_tag (by omega))
      | jinja2StartWhitespaceStrippedType2 => exact outcome_jinja2Start isAhead
      | templateVar =>
          exact outcome_of_scan (fun s => ⟨_, rfl⟩) (getTemplateVar_cases inText)
      | newline =>
          obtain ⟨rest, isRest⟩ := drop_of_lookingAt isAhead
          exact .read not_false _ _ (readToken_of_ok rfl (List.cons_ne_nil _ _))
            ⟨List.cons_ne_nil _ _, rest, isRest.symm⟩
      | spaces =>
          obtain ⟨rest, isRest⟩ := drop_of_lookingAt isAhead
          have reads := @reads_takeWhile text i (fun c => c = ' ') _ _ isRest rfl
          exact .read not_false _ _ (readToken_of_ok rfl reads.1) reads
      | unparsable => exact absurd isChosen Branch.choose_ne_unparsable
      | text =>
          obtain ⟨notBrace, notBracket⟩ := Branch.not_bracket_of_choose isChosen (by decide)
          exact outcome_text inText notBrace notBracket

end Zulip.Tools
