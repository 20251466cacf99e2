import Keypad.Proofs.Binary64.Display
import Keypad.Proofs.Session.Shape

/-! # The recorded expression

An outcome records the expression that was evaluated, as it was displayed.  Typed numbers, operators
and displayed results are single words (`IsTyped.isWord`, `isWord_symbol`, `isWord_display`), and so
is the error text, if it has no blank character.  Hence the tokens of every reachable session are
the words of its display (`WellShaped.isWord`, `split_intercalate`), and evaluating the words of a
recorded expression gives the recorded outcome again (`recorded_expression_evaluates`). -/

namespace Keypad

/-! ### Tokens are words -/

/-- Words joined by spaces are split again. -/
theorem Token.split_intercalate {tokens : List String}
    (h : ∀ token ∈ tokens, Text.IsWord token.toList) :
    Token.split (" ".intercalate tokens) = tokens := by
  have hwords : ∀ w ∈ tokens.map String.toList, Text.IsWord w := by simpa using h
  have htext : (" ".intercalate tokens).toList = [' '].intercalate (tokens.map String.toList) :=
    String.toList_intercalate
  rw [Token.split, htext, Text.words_intercalate hwords, List.map_map]
  simp [Function.comp_def]

theorem Operator.isWord_symbol (op : Operator) : Text.IsWord op.symbol.toList := by
  cases op <;> exact ⟨by decide, Text.forall_not_blank_iff.mpr (by decide)⟩

theorem IsTyped.isWord {text : String} (h : IsTyped text) : Text.IsWord text.toList where
  ne_nil := h.ne_nil
  not_blank c hc := Binary64.isBlank_of_isWritten ((h.chars c hc).imp_right Or.inl)

theorem Chain.mem_tokens {c : Chain String} {token : String} (h : token ∈ c.tokens) :
    token = c.first ∨ ∃ p ∈ c.links, token = p.1.symbol ∨ token = p.2 := by
  rcases List.mem_cons.mp h with rfl | h
  · exact Or.inl rfl
  · obtain ⟨p, hp, hmem⟩ := List.mem_flatMap.mp h
    exact Or.inr ⟨p, hp, by simpa using hmem⟩

namespace Session

variable {s : Session}

theorem IsOutcomeText.isWord {text : String} (h : s.IsOutcomeText text)
    (herror : ∀ c ∈ s.settings.errorText.toList, Text.isBlank c = false) :
    Text.IsWord text.toList := by
  rcases h with ⟨e, x, -, rfl⟩ | ⟨e, kind, m, -, rfl⟩
  · exact Binary64.isWord_display s.settings.significantDigits_pos x
  · have hne := s.settings.errorText_ne_empty
    exact ⟨by simpa using hne, herror⟩

/-- **Every token is a word.** -/
theorem WellShaped.isWord (h : s.WellShaped)
    (herror : ∀ c ∈ s.settings.errorText.toList, Text.isBlank c = false) :
    ∀ token ∈ s.expression.tokens, Text.IsWord token.toList := by
  intro token htoken
  cases hwait : s.expression.awaitingReset with
  | true =>
    obtain ⟨text, htext, htokens⟩ := h.awaiting hwait
    rw [htokens, List.mem_singleton] at htoken
    rw [htoken]
    exact htext.isWord herror
  | false =>
    obtain ⟨c, trailing, htokens, hlinks, hfirst⟩ := h.entering hwait (List.ne_nil_of_mem htoken)
    rw [htokens, List.mem_append] at htoken
    rcases htoken with hchain | htrailing
    · rcases Chain.mem_tokens hchain with rfl | ⟨p, hp, rfl | rfl⟩
      · rcases hfirst with htyped | ⟨htext, -⟩
        · exact htyped.isWord
        · exact htext.isWord herror
      · exact p.1.isWord_symbol
      · exact (hlinks p hp).isWord
    · obtain ⟨op, -, rfl⟩ := List.mem_map.mp htrailing
      exact op.isWord_symbol

end Session

/-! ### Evaluating a recorded expression -/

namespace Outcome

/-- The expression that an outcome records. -/
def expression : Outcome → String
  | .success expression _ => expression
  | .failure expression _ _ => expression

theorem expression_ofTokens (settings : Settings) (tokens : List String) :
    (ofTokens settings tokens).expression = expressionText tokens := by
  unfold ofTokens
  cases evaluate settings tokens <;> rfl

end Outcome

namespace Session

theorem mem_of_mem_operandTokens {tokens : List String} {token : String}
    (h : token ∈ Expression.operandTokens tokens) : token ∈ tokens := by
  unfold Expression.operandTokens at h
  split at h
  · exact List.mem_of_mem_dropLast h
  · exact h

/-- **A recorded expression evaluates to the recorded outcome.**  If the error text has no blank
character, the words of the display of a reachable session are its tokens.  The outcome that `=`
leaves records an expression whose words are the tokens before `=`, without an operator at the end,
and these words have the same outcome: the same expression, and the same result or the same kind
and message of a failure. -/
theorem recorded_expression_evaluates (settings : Settings) (calls : List Call)
    (herror : ∀ c ∈ settings.errorText.toList, Text.isBlank c = false) :
    let s := (start settings).run calls
    s.expression.tokens ≠ [] →
      Token.split s.display = s.expression.tokens ∧
      ∃ outcome, s.equals.1.lastOutcome = some outcome ∧
        Token.split outcome.expression = Expression.operandTokens s.expression.tokens ∧
        Outcome.ofTokens settings (Token.split outcome.expression) = outcome := by
  intro s hne
  obtain ⟨hshape, hsettings⟩ := (wellShaped_start settings).run calls
  replace hsettings : s.settings = settings := hsettings
  have hwords := WellShaped.isWord hshape (by rwa [hsettings])
  have hdisplay : s.display = " ".intercalate s.expression.tokens := by
    rw [display, Expression.display, if_neg (by simpa using hne)]
  refine ⟨by rw [hdisplay, Token.split_intercalate hwords],
    Outcome.ofTokens settings (Expression.operandTokens s.expression.tokens), ?_, ?_⟩
  · rw [equals_eq hne, hsettings]
  · have hsplit : Token.split (Outcome.ofTokens settings
        (Expression.operandTokens s.expression.tokens)).expression =
        Expression.operandTokens s.expression.tokens := by
      rw [Outcome.expression_ofTokens]
      exact Token.split_intercalate fun token h => hwords token (mem_of_mem_operandTokens h)
    exact ⟨hsplit, by rw [hsplit]⟩

/-- A small negative result, continued by an operator. -/
theorem recorded_expression_small :
    let s := (start .standard).run [.press "1", .press "-", .press "2", .press "=", .press "/",
      .press "4", .press "0", .press "0", .press "0", .press "0", .press "0", .press "0",
      .press "=", .press "+"]
    s.expression.tokens = ["-2.5e-07", "+"] ∧ Token.split s.display = ["-2.5e-07", "+"] ∧
      ∃ outcome, s.equals.1.lastOutcome = some outcome ∧
        Token.split outcome.expression = ["-2.5e-07"] ∧
        Outcome.ofTokens .standard (Token.split outcome.expression) = outcome := by
  have htokens : ((start .standard).run [.press "1", .press "-", .press "2", .press "=", .press "/",
      .press "4", .press "0", .press "0", .press "0", .press "0", .press "0", .press "0",
      .press "=", .press "+"]).expression.tokens = ["-2.5e-07", "+"] := by decide +kernel
  have herror : ∀ c ∈ Settings.standard.errorText.toList, Text.isBlank c = false :=
    Text.forall_not_blank_iff.mpr (by decide)
  have hoperands : Expression.operandTokens ["-2.5e-07", "+"] = ["-2.5e-07"] := by decide
  have hrecorded := recorded_expression_evaluates .standard _ herror (by rw [htokens]; simp)
  rw [htokens, hoperands] at hrecorded
  exact ⟨htokens, hrecorded⟩

-- an error text of two words is displayed as one token and split into two
example :
    let settings := { Settings.standard with
      errorText := "not defined"
      errorText_ne_empty := by decide }
    let s := (start settings).run ("1/0=".toList.map fun c => .press (String.singleton c))
    s.expression.tokens = ["not defined"] ∧ Token.split s.display = ["not", "defined"] := by
  decide +kernel

end Session

end Keypad
