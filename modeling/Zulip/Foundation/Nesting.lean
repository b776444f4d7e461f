import Zulip.Foundation.BlockStack

/-!
# Forests of blocks

A list of tokens in which every token opens a block, closes the innermost one, stands in it or is
rejected. The list is accepted exactly when it is the list of the tokens of a `Forest` that follows
the same rules without a stack.
-/

namespace Zulip

universe u v

/-- Tokens, some of which enclose others. -/
inductive Forest (Token : Type u) where
  | nil
  | leaf (token : Token) (rest : Forest Token)
  | block (opening : Token) (body : Forest Token) (closing : Token) (rest : Forest Token)

namespace Forest

variable {Token : Type u} {Frame : Type v} (read : Option Frame → Token → Option (Reading Frame))

/-- The tokens in their order. -/
def tokens : Forest Token → List Token
  | nil => []
  | leaf token rest => token :: rest.tokens
  | block opening body closing rest => opening :: (body.tokens ++ closing :: rest.tokens)

/-- Every token does what it does inside of the block that it stands in. -/
def Follows : Option Frame → Forest Token → Prop
  | _, nil => True
  | top, leaf token rest => read top token = some .content ∧ Follows top rest
  | top, block opening body closing rest =>
      ∃ frame, read top opening = some (.opens frame) ∧ Follows (some frame) body ∧
        read (some frame) closing = some .closes ∧ Follows top rest

/-- The open blocks after a token that is not rejected. -/
def readStack (stack : List Frame) (token : Token) : Option (List Frame) :=
  match read stack.head? token with
  | none => none
  | some .content => some stack
  | some .closes => stack.tail?
  | some (.opens frame) => some (frame :: stack)

/-- Tokens that close the open blocks one after the other, with a forest before each. -/
def Closes : List Frame → List Token → Prop
  | [], list => ∃ forest : Forest Token, Follows read none forest ∧ forest.tokens = list
  | frame :: stack, list =>
      ∃ (forest : Forest Token) (closing : Token) (rest : List Token),
        Follows read (some frame) forest ∧ read (some frame) closing = some .closes ∧
          forest.tokens ++ closing :: rest = list ∧ Closes stack rest

variable {read} {token : Token} {list rest : List Token} {frame : Frame} {stack : List Frame}

/-- What may stand in the innermost block may stand before what closes it. -/
theorem Closes.prepend (before : List Token) (closes : Closes read stack list)
    (extend : ∀ forest : Forest Token, Follows read stack.head? forest →
      ∃ longer : Forest Token, Follows read stack.head? longer ∧
        longer.tokens = before ++ forest.tokens) :
    Closes read stack (before ++ list) := by
  cases stack with
  | nil =>
      obtain ⟨forest, follows, rfl⟩ := closes
      exact extend forest follows
  | cons frame stack =>
      obtain ⟨forest, closing, rest, follows, isClosing, rfl, closes⟩ := closes
      obtain ⟨longer, longerFollows, isLonger⟩ := extend forest follows
      refine ⟨longer, closing, rest, longerFollows, isClosing, ?_, closes⟩
      rw [isLonger, List.append_assoc]

/-- Tokens that leave no block open close those that were open. -/
theorem closes_of_foldlM (run : list.foldlM (readStack read) stack = some []) :
    Closes read stack list := by
  induction list generalizing stack with
  | nil =>
      obtain rfl := Option.some.inj run
      exact ⟨.nil, trivial, rfl⟩
  | cons token list inductionHypothesis =>
      rw [List.foldlM_cons] at run
      obtain ⟨next, step, run⟩ := Option.bind_eq_some_iff.mp run
      have closes := inductionHypothesis run
      rw [readStack] at step
      cases reading : read stack.head? token with
      | none =>
          rw [reading] at step
          cases step
      | some kind =>
          rw [reading] at step
          cases kind with
          | content =>
              obtain rfl := Option.some.inj step
              exact closes.prepend [token]
                fun forest follows => ⟨.leaf token forest, ⟨reading, follows⟩, rfl⟩
          | closes =>
              cases stack with
              | nil => cases step
              | cons frame stack =>
                  obtain rfl := Option.some.inj step
                  exact ⟨.nil, token, list, trivial, reading, rfl, closes⟩
          | opens frame =>
              obtain rfl := Option.some.inj step
              obtain ⟨body, closing, rest, inside, isClosing, rfl, closes⟩ := closes
              have whole := closes.prepend (token :: (body.tokens ++ [closing]))
                fun forest follows => ⟨.block token body closing forest,
                  ⟨frame, reading, inside, isClosing, follows⟩, by simp [tokens]⟩
              rwa [List.cons_append, List.append_assoc] at whole

end Forest

end Zulip
