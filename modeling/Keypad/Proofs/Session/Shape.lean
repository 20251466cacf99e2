import Keypad.Proofs.Chain
import Keypad.Session

/-! # The shape of a session

A session is well shaped (`WellShaped`) if its expression is empty and nothing was evaluated since
`C`, or it is what the latest `=` left, or it is a chain of typed numbers with at most one operator
after it.  In the last case the first operand may also be what the latest `=` left, but then an
operator follows, so that no key ever extends it.

A call leaves a session as it is or presses one key (`after_cases`), every key keeps the shape
(`WellShaped.enterNumber`, …, `WellShaped.clear`), and so every run from a fresh session ends well
shaped (`wellShaped_run`). -/

namespace Keypad

/-! ### Typed numbers -/

/-- A text typed key by key: ASCII digits and at most one point, at least one of them. -/
structure IsTyped (text : String) : Prop where
  ne_nil : text.toList ≠ []
  chars : ∀ c ∈ text.toList, c.isDigit = true ∨ c = '.'
  points : text.toList.count '.' ≤ 1

namespace NumberKey

@[simp] theorem toList_label (key : NumberKey) : key.label.toList = [key.char] :=
  String.toList_ofList

theorem char_cases (key : NumberKey) : key.char.isDigit = true ∨ key.char = '.' := by
  have h := key.isNumberChar
  simpa [Token.isNumberChar] using h

theorem isTyped_label (key : NumberKey) : IsTyped key.label where
  ne_nil := by simp
  chars := by simpa using key.char_cases
  points := by
    rw [toList_label]
    exact List.count_le_length

end NumberKey

namespace IsTyped

theorem looksNumeric {text : String} (h : IsTyped text) : Token.looksNumeric text = true :=
  Token.looksNumeric_iff.mpr ⟨h.ne_nil, h.chars⟩

theorem isOperator_eq_false {text : String} (h : IsTyped text) : Token.isOperator text = false :=
  Token.isOperator_of_looksNumeric h.looksNumeric

/-- A typed number stays one, unless a second point is typed. -/
theorem append {text : String} {key : NumberKey} (h : IsTyped text)
    (hk : ¬ (key = .point ∧ text.contains '.' = true)) : IsTyped (text ++ key.label) where
  ne_nil := by simp
  chars := by
    intro c hc
    rw [String.toList_append, List.mem_append, NumberKey.toList_label, List.mem_singleton] at hc
    rcases hc with hc | rfl
    · exact h.chars c hc
    · exact key.char_cases
  points := by
    rw [String.toList_append, List.count_append, NumberKey.toList_label]
    by_cases hp : key.char = '.'
    · have hkey : key = .point := by
        obtain ⟨c, hc⟩ := key
        cases hp
        rfl
      have h0 : text.toList.count '.' = 0 := by
        rw [List.count_eq_zero]
        intro hmem
        exact hk ⟨hkey, by rw [String.contains_char_eq]; exact decide_eq_true hmem⟩
      have := List.count_le_length (a := '.') (l := [key.char])
      simp only [List.length_singleton] at this
      omega
    · have := h.points
      rw [List.count_singleton]
      simp [hp]
      omega

end IsTyped

/-! ### One key on the tokens -/

namespace Expression

theorem openNumber?_append_symbol (ts : List String) (op : Operator) :
    openNumber? (ts ++ [op.symbol]) = none := by
  simp [openNumber?]

theorem openNumber?_append {t : String} (ts : List String) (h : Token.isOperator t = false) :
    openNumber? (ts ++ [t]) = some t := by
  simp [openNumber?, h]

theorem openNumber?_eq_some {ts : List String} {t : String} (h : openNumber? ts = some t) :
    ts.getLast? = some t ∧ Token.isOperator t = false := by
  obtain ⟨hl, ht⟩ := Option.filter_eq_some_iff.mp h
  exact ⟨hl, by simpa using ht⟩

/-- After an operator a number key begins a number. -/
theorem typeChar_append_symbol (ts : List String) (op : Operator) (key : NumberKey) :
    typeChar (ts ++ [op.symbol]) key = ts ++ [op.symbol] ++ [key.label] := by
  rw [typeChar, openNumber?_append_symbol]

/-- A number key extends the number at the end, or is a second point and does nothing. -/
theorem typeChar_append {t : String} (ts : List String) (key : NumberKey) (h : IsTyped t) :
    ∃ t', IsTyped t' ∧ typeChar (ts ++ [t]) key = ts ++ [t'] := by
  rw [typeChar, openNumber?_append ts h.isOperator_eq_false]
  by_cases hk : key = .point ∧ t.contains '.' = true
  · exact ⟨t, h, by simp [hk.1, hk.2]⟩
  · refine ⟨t ++ key.label, h.append hk, ?_⟩
    simp only [List.dropLast_concat]
    rw [if_neg (by simpa using hk)]

end Expression

/-! ### The invariant -/

namespace Session

/-- What the latest evaluation left: the result to the digits of the settings, or the error text. -/
def IsOutcomeText (s : Session) (text : String) : Prop :=
  (∃ e x, s.lastOutcome = some (.success e x) ∧
    text = Binary64.display s.settings.significantDigits x) ∨
  ∃ e kind m, s.lastOutcome = some (.failure e kind m) ∧ text = s.settings.errorText

/-- The expression is a chain of typed numbers with at most one operator after it.  Its first
operand may be what the latest evaluation left, if an operator follows. -/
def IsEntering (s : Session) : Prop :=
  ∃ (c : Chain String) (trailing : Option Operator),
    s.expression.tokens = c.tokens ++ trailing.toList.map Operator.symbol ∧
      (∀ p ∈ c.links, IsTyped p.2) ∧
        (IsTyped c.first ∨ s.IsOutcomeText c.first ∧ Token.isOperator c.first = false ∧
          (c.links ≠ [] ∨ trailing ≠ none))

/-- **The session invariant.** -/
structure WellShaped (s : Session) : Prop where
  empty : s.expression.tokens = [] → s.expression.awaitingReset = false ∧ s.lastOutcome = none
  awaiting : s.expression.awaitingReset = true →
    ∃ text, s.IsOutcomeText text ∧ s.expression.tokens = [text]
  entering : s.expression.awaitingReset = false → s.expression.tokens ≠ [] → s.IsEntering

theorem isOutcomeText_display {s : Session} {outcome : Outcome}
    (h : s.lastOutcome = some outcome) : s.IsOutcomeText (outcome.display s.settings) := by
  cases outcome with
  | success e x => exact Or.inl ⟨e, x, h, rfl⟩
  | failure e kind m => exact Or.inr ⟨e, kind, m, h, rfl⟩

theorem wellShaped_start (settings : Settings) : (start settings).WellShaped where
  empty _ := ⟨rfl, rfl⟩
  awaiting h := by cases h
  entering _ h := absurd rfl h

/-- A session in which a chain is being entered is well shaped. -/
theorem IsEntering.wellShaped {s : Session} (h : s.IsEntering)
    (ha : s.expression.awaitingReset = false) : s.WellShaped where
  empty hnil := by
    obtain ⟨c, trailing, ht, -, -⟩ := h
    rw [hnil] at ht
    cases ht
  awaiting hw := by
    rw [ha] at hw
    cases hw
  entering _ _ := h

/-- Entering a first number. -/
theorem isEntering_label {s : Session} {key : NumberKey}
    (h : s.expression.tokens = [key.label]) : s.IsEntering :=
  ⟨⟨key.label, []⟩, none, h, by simp, Or.inl key.isTyped_label⟩

/-- A number key continues the chain that is being entered. -/
theorem IsEntering.typeChar {s : Session} (h : s.IsEntering) (key : NumberKey) :
    (s.withExpression ⟨Expression.typeChar s.expression.tokens key, false⟩).IsEntering := by
  obtain ⟨⟨x, links⟩, trailing, ht, hl, hx⟩ := h
  cases trailing with
  | some op =>
    -- the key begins the number after the operator
    refine ⟨⟨x, links ++ [(op, key.label)]⟩, none, ?_, ?_, ?_⟩
    · show Expression.typeChar s.expression.tokens key = _
      rw [ht, Chain.tokens_concat]
      simpa using Expression.typeChar_append_symbol _ op key
    · exact List.forall_mem_append.mpr ⟨hl, by simpa using key.isTyped_label⟩
    · exact hx.imp_right fun ⟨h1, h2, _⟩ => ⟨h1, h2, Or.inl (by simp)⟩
  | none =>
    -- the key extends the last operand, which is typed
    rcases List.eq_nil_or_concat links with rfl | ⟨init, ⟨op, y⟩, rfl⟩
    · have htyped : IsTyped x := by
        rcases hx with hx | ⟨-, -, hx | hx⟩
        · exact hx
        · exact absurd rfl hx
        · exact absurd rfl hx
      obtain ⟨x', hx', heq⟩ := Expression.typeChar_append [] key htyped
      refine ⟨⟨x', []⟩, none, ?_, by simp, Or.inl hx'⟩
      show Expression.typeChar s.expression.tokens key = _
      rw [ht]
      exact heq
    · simp only [List.concat_eq_append] at ht hl
      obtain ⟨hinit, hy⟩ := List.forall_mem_append.mp hl
      obtain ⟨y', hy', heq⟩ := Expression.typeChar_append
        (Chain.tokens ⟨x, init⟩ ++ [op.symbol]) key (hy (op, y) (by simp))
      refine ⟨⟨x, init ++ [(op, y')]⟩, none, ?_, ?_, ?_⟩
      · show Expression.typeChar s.expression.tokens key = _
        rw [ht, Chain.tokens_concat, Chain.tokens_concat]
        simpa using heq
      · exact List.forall_mem_append.mpr ⟨hinit, by simpa using hy'⟩
      · exact hx.imp_right fun ⟨h1, h2, _⟩ => ⟨h1, h2, Or.inl (by simp)⟩

/-- The session after a number key. -/
theorem WellShaped.enterNumber {s : Session} (h : s.WellShaped) (key : NumberKey) :
    (s.enterNumber key).WellShaped := by
  unfold Session.enterNumber Expression.enterNumber
  split
  · exact (isEntering_label rfl).wellShaped rfl
  · next ha =>
    have ha' : s.expression.awaitingReset = false := by simpa using ha
    have hent :
        (s.withExpression ⟨Expression.typeChar s.expression.tokens key, false⟩).IsEntering := by
      by_cases hnil : s.expression.tokens = []
      · rw [hnil]
        exact isEntering_label rfl
      · exact (h.entering ha' hnil).typeChar key
    rw [ha']
    exact hent.wellShaped rfl

/-- The session after an operator key. -/
theorem WellShaped.enterOperator {s : Session} (h : s.WellShaped) (op : Operator) :
    (s.enterOperator op).WellShaped := by
  unfold Session.enterOperator Expression.enterOperator
  split
  · exact h
  · next t ht =>
    refine IsEntering.wellShaped ?_ rfl
    cases ha : s.expression.awaitingReset with
    | true =>
      -- the operator continues from what the evaluation left
      obtain ⟨text, htext, heq⟩ := h.awaiting ha
      rw [heq] at ht
      obtain ⟨hlast, hop⟩ := Expression.openNumber?_eq_some ht
      obtain rfl : text = t := by simpa using hlast
      refine ⟨⟨text, []⟩, some op, ?_, by simp, Or.inr ⟨htext, hop, Or.inr (by simp)⟩⟩
      show s.expression.tokens ++ [op.symbol] = _
      rw [heq]
      rfl
    | false =>
      have hne : s.expression.tokens ≠ [] := by
        intro hnil
        rw [hnil] at ht
        cases ht
      obtain ⟨c, trailing, heq, hl, hx⟩ := h.entering ha hne
      cases trailing with
      | some op' =>
        rw [heq] at ht
        simp [Expression.openNumber?_append_symbol] at ht
      | none =>
        refine ⟨c, some op, ?_, hl, hx.imp_right fun ⟨h1, h2, _⟩ => ⟨h1, h2, Or.inr (by simp)⟩⟩
        show s.expression.tokens ++ [op.symbol] = _
        rw [heq]
        simp

/-- `=` replaces an expression by the text of its outcome. -/
theorem equals_eq {s : Session} (h : s.expression.tokens ≠ []) :
    let outcome := Outcome.ofTokens s.settings (Expression.operandTokens s.expression.tokens)
    s.equals.1 = ⟨s.settings, ⟨[outcome.display s.settings], true⟩, some outcome⟩ := by
  unfold Session.equals Expression.evaluate
  rw [if_neg (by simpa using h)]

/-- `=` does nothing without an expression. -/
theorem equals_of_nil {s : Session} (h : s.expression.tokens = []) : s.equals.1 = s := by
  simp [Session.equals, Expression.evaluate, h]

/-- The session after `=` with an expression, whatever it was before. -/
theorem wellShaped_equals {s : Session} (h : s.expression.tokens ≠ []) : s.equals.1.WellShaped := by
  have hequals := equals_eq h
  dsimp only at hequals
  rw [hequals]
  exact {
    empty := fun hnil => by cases hnil
    awaiting := fun _ => ⟨_, isOutcomeText_display rfl, rfl⟩
    entering := fun hwait => by cases hwait }

/-- The session after `=`. -/
theorem WellShaped.equals {s : Session} (h : s.WellShaped) : s.equals.1.WellShaped := by
  by_cases hnil : s.expression.tokens = []
  · rw [equals_of_nil hnil]
    exact h
  · exact wellShaped_equals hnil

/-! ### Calls and runs -/

/-- A call that is not refused presses one key. -/
theorem call_eq_ok {s : Session} {c : Call} {r : Session × List Log.Entry}
    (h : s.call c = .ok r) : ∃ key : Key, r = s.press key := by
  cases c with
  | press label =>
    simp only [call, pressLabel] at h
    split at h
    · next key _ => exact ⟨key, (Except.ok.inj h).symm⟩
    · cases h
  | digit text =>
    simp only [call] at h
    split at h
    · next key _ =>
      split at h
      · exact ⟨.number key, (Except.ok.inj h).symm⟩
      · cases h
    · cases h
  | number text =>
    simp only [call, Expression.enterNumberText] at h
    split at h
    · next key _ => exact ⟨.number key, (Except.ok.inj h).symm⟩
    · cases h
  | operator text =>
    simp only [call, Expression.enterOperatorText] at h
    split at h
    · next op _ => exact ⟨.operator op, (Except.ok.inj h).symm⟩
    · cases h
  | point => exact ⟨.number .point, (Except.ok.inj h).symm⟩
  | equals => exact ⟨.equals, (Except.ok.inj h).symm⟩
  | clear => exact ⟨.clear, (Except.ok.inj h).symm⟩

/-- A call leaves the session as it is or presses one key. -/
theorem after_cases (s : Session) (c : Call) :
    s.after c = s ∨ ∃ key : Key, s.after c = (s.press key).1 := by
  unfold after
  split
  · next h =>
    obtain ⟨key, hkey⟩ := call_eq_ok h
    exact Or.inr ⟨key, congrArg Prod.fst hkey⟩
  · exact Or.inl rfl

theorem after_press (s : Session) (key : Key) : s.after (.press key.label) = (s.press key).1 := by
  simp [after, call, pressLabel]

theorem press_settings (s : Session) (key : Key) : (s.press key).1.settings = s.settings := by
  cases key with
  | number key => rfl
  | operator op => rfl
  | clear => rfl
  | equals =>
    simp only [press, equals]
    split <;> rfl

theorem WellShaped.press {s : Session} (h : s.WellShaped) (key : Key) :
    (s.press key).1.WellShaped := by
  cases key with
  | number key => exact h.enterNumber key
  | operator op => exact h.enterOperator op
  | equals => exact h.equals
  | clear => exact wellShaped_start s.settings

/-- **A call keeps the shape and the settings of a session.** -/
theorem WellShaped.after {s : Session} (h : s.WellShaped) (c : Call) :
    (s.after c).WellShaped ∧ (s.after c).settings = s.settings := by
  rcases after_cases s c with heq | ⟨key, heq⟩
  · rw [heq]
    exact ⟨h, rfl⟩
  · rw [heq]
    exact ⟨h.press key, press_settings s key⟩

theorem WellShaped.run {s : Session} (h : s.WellShaped) (calls : List Call) :
    (s.run calls).WellShaped ∧ (s.run calls).settings = s.settings := by
  induction calls generalizing s with
  | nil => exact ⟨h, rfl⟩
  | cons c calls ih =>
    obtain ⟨hc, hset⟩ := h.after c
    obtain ⟨hrun, hset'⟩ := ih hc
    exact ⟨hrun, hset'.trans hset⟩

/-- **Every reachable session is well shaped**, whatever the settings and the calls, refused ones
included. -/
theorem wellShaped_run (settings : Settings) (calls : List Call) :
    ((start settings).run calls).WellShaped ∧ ((start settings).run calls).settings = settings :=
  (wellShaped_start settings).run calls

end Session

end Keypad
