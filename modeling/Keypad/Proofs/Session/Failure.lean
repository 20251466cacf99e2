import Keypad.Proofs.Evaluation.Stacks
import Keypad.Proofs.Session.Shape

/-! # Failures that stay

After a failed `=` the error text is the only token.  A key continues from it unless it is `C` or a
number key that starts over (`ContinuesAll`).  As long as every key does, the error text stays the
first token, and it is never alone when a number key extends the last token (`Stuck`).

If the error text is no number, then every further `=` fails again, since no expression that begins
with it has a value.  If it is a number, then already the next `=` succeeds.  So failures stay for
exactly the error texts that are no numbers (`failures_stay_iff`). -/

namespace Keypad

namespace Session

/-- The latest evaluation failed. -/
def Failed (s : Session) : Prop := ∃ e kind m, s.lastOutcome = some (.failure e kind m)

/-- A key that keeps what the latest evaluation left: it is not `C`, and no number key that starts
over. -/
def Continues (s : Session) : Key → Prop
  | .clear => False
  | .number _ => s.expression.awaitingReset = false
  | .operator _ => True
  | .equals => True

/-- The session after some keys. -/
def pressAll (s : Session) (keys : List Key) : Session :=
  s.run (keys.map fun key => .press key.label)

theorem pressAll_cons (s : Session) (key : Key) (keys : List Key) :
    s.pressAll (key :: keys) = (s.press key).1.pressAll keys := by
  rw [← after_press]
  rfl

/-- Each of the keys continues the session in which it is pressed. -/
def ContinuesAll : Session → List Key → Prop
  | _, [] => True
  | s, key :: keys => s.Continues key ∧ ContinuesAll (s.press key).1 keys

/-- The error text is the first token, and a number key does not extend it. -/
structure Stuck (s : Session) : Prop where
  head : ∃ rest, s.expression.tokens = s.settings.errorText :: rest
  extended : s.expression.awaitingReset = false → 2 ≤ s.expression.tokens.length

/-! ### One key -/

/-- A number key changes no token before the last. -/
theorem typeChar_cons {t : String} {rest : List String} (key : NumberKey) (h : rest ≠ []) :
    ∃ rest', rest' ≠ [] ∧ Expression.typeChar (t :: rest) key = t :: rest' := by
  unfold Expression.typeChar
  split
  · exact ⟨rest ++ [key.label], by simp, rfl⟩
  · split
    · exact ⟨rest, h, rfl⟩
    · rw [List.dropLast_cons_of_ne_nil h]
      exact ⟨_, by simp, rfl⟩

/-- A number key that does not start over keeps the first of several tokens. -/
theorem enterNumber_cons {e : Expression} {t : String} {rest : List String} (key : NumberKey)
    (htokens : e.tokens = t :: rest) (h : rest ≠ []) (hwait : e.awaitingReset = false) :
    ∃ rest', rest' ≠ [] ∧ e.enterNumber key = ⟨t :: rest', false⟩ := by
  obtain ⟨rest', hne, hrest'⟩ := typeChar_cons key h
  refine ⟨rest', hne, ?_⟩
  rw [Expression.enterNumber, if_neg (by simp [hwait]), htokens, hrest', hwait]

/-- An operator key does nothing, or it keeps the tokens and adds its own. -/
theorem enterOperator_cons {e : Expression} {t : String} {rest : List String} (op : Operator)
    (htokens : e.tokens = t :: rest) :
    e.enterOperator op = e ∨ e.enterOperator op = ⟨t :: (rest ++ [op.symbol]), false⟩ := by
  unfold Expression.enterOperator
  split
  · exact Or.inl rfl
  · rw [htokens]
    exact Or.inr rfl

theorem Stuck.enterNumber {s : Session} (h : s.Stuck) {key : NumberKey}
    (hk : s.expression.awaitingReset = false) : (s.enterNumber key).Stuck := by
  obtain ⟨rest, hrest⟩ := h.head
  have hlen := h.extended hk
  have hne : rest ≠ [] := by
    rintro rfl
    simp [hrest] at hlen
  obtain ⟨rest', hne', hexpr⟩ := enterNumber_cons key hrest hne hk
  replace hexpr : (s.enterNumber key).expression = ⟨s.settings.errorText :: rest', false⟩ := hexpr
  constructor
  · exact ⟨rest', by rw [hexpr]; rfl⟩
  · intro _
    rw [hexpr]
    have := List.length_pos_iff.mpr hne'
    simp only [List.length_cons]
    omega

theorem Stuck.enterOperator {s : Session} (h : s.Stuck) (op : Operator) :
    (s.enterOperator op).Stuck := by
  obtain ⟨rest, hrest⟩ := h.head
  unfold Session.enterOperator
  rcases enterOperator_cons op hrest with hexpr | hexpr
  · rw [hexpr]
    exact h
  · rw [hexpr]
    exact ⟨⟨_, rfl⟩, fun _ => by simp [withExpression]⟩

/-- What is evaluated of an expression is nothing, or begins as the expression does. -/
theorem operandTokens_cons (t : String) (rest : List String) :
    Expression.operandTokens (t :: rest) = [] ∨
      ∃ rest', Expression.operandTokens (t :: rest) = t :: rest' := by
  unfold Expression.operandTokens
  split
  · cases rest with
    | nil => exact Or.inl rfl
    | cons u rest => exact Or.inr ⟨_, List.dropLast_cons_of_ne_nil (List.cons_ne_nil _ _)⟩
  · exact Or.inr ⟨rest, rfl⟩

theorem evaluate_operandTokens (settings : Settings) {t : String} (rest : List String)
    (h : Token.isNumber t = false) :
    ∃ fault, evaluate settings (Expression.operandTokens (t :: rest)) = .error fault := by
  rcases operandTokens_cons t rest with hnil | ⟨rest', hcons⟩
  · rw [hnil]
    exact ⟨.empty, rfl⟩
  · rw [hcons]
    exact evaluate_of_not_isNumber settings rest' h

/-- **`=` fails again** and leaves the error text, if that is no number. -/
theorem Stuck.equals {s : Session} (h : s.Stuck)
    (herr : Token.isNumber s.settings.errorText = false) :
    s.equals.1.Stuck ∧ s.equals.1.Failed ∧ s.equals.1.display = s.settings.errorText := by
  obtain ⟨rest, hrest⟩ := h.head
  obtain ⟨fault, hfault⟩ := evaluate_operandTokens s.settings rest herr
  have hequals := equals_eq (s := s) (by simp [hrest])
  rw [hrest, Outcome.ofTokens_of_error hfault] at hequals
  rw [hequals]
  refine ⟨⟨⟨[], rfl⟩, ?_⟩, ⟨_, _, _, rfl⟩, rfl⟩
  intro hw
  cases hw

theorem Stuck.press {s : Session} (h : s.Stuck)
    (herr : Token.isNumber s.settings.errorText = false) {key : Key} (hk : s.Continues key) :
    (s.press key).1.Stuck := by
  cases key with
  | number key => exact h.enterNumber hk
  | operator op => exact h.enterOperator op
  | equals => exact (h.equals herr).1
  | clear => exact hk.elim

/-- `=` on a single number. -/
theorem equals_number {s : Session} {t : String} {x : Binary64} (ht : s.expression.tokens = [t])
    (hx : Token.number? t = some x) : s.equals.1 =
      ⟨s.settings, ⟨[x.display s.settings.significantDigits], true⟩, some (.success t x)⟩ := by
  have hnum : Token.isNumber t = true := by simp [Token.isNumber, hx]
  have ho : Token.isOperator t = false := Token.isOperator_of_isNumber hnum
  have hoperands : Expression.operandTokens [t] = [t] := by simp [Expression.operandTokens, ho]
  have hequals := equals_eq (s := s) (by simp [ht])
  rw [ht, hoperands, Outcome.ofTokens_of_ok (evaluate_number hx)] at hequals
  have htext : Outcome.expressionText [t] = t := by simp [Outcome.expressionText]
  rw [hequals, htext]
  rfl

/-! ### Runs -/

theorem Stuck.pressAll {s : Session} (h : s.Stuck)
    (herr : Token.isNumber s.settings.errorText = false) {keys : List Key}
    (hk : s.ContinuesAll keys) :
    (s.pressAll keys).Stuck ∧ (s.pressAll keys).settings = s.settings := by
  induction keys generalizing s with
  | nil => exact ⟨h, rfl⟩
  | cons key keys ih =>
    obtain ⟨hkey, hkeys⟩ := hk
    have hset := press_settings s key
    have hrun := ih (h.press herr hkey) (hset ▸ herr) hkeys
    rw [pressAll_cons, ← hset]
    exact hrun

/-- An `=` that leaves an outcome had an expression. -/
theorem WellShaped.tokens_ne_nil {s : Session} (h : s.WellShaped) {outcome : Outcome}
    (hlast : s.equals.1.lastOutcome = some outcome) : s.expression.tokens ≠ [] := by
  intro hnil
  rw [equals_of_nil hnil, (h.empty hnil).2] at hlast
  cases hlast

/-- A failed evaluation leaves the error text alone. -/
theorem expression_of_failed {s : Session} (h : s.WellShaped) (hf : s.equals.1.Failed) :
    s.equals.1.expression = ⟨[s.settings.errorText], true⟩ := by
  obtain ⟨e, kind, m, hlast⟩ := hf
  have hequals := equals_eq (h.tokens_ne_nil hlast)
  simp only [hequals, Option.some.injEq] at hlast
  rw [hequals, hlast]
  rfl

/-- A successful `=` leaves the text of the result alone. -/
theorem expression_of_success {s : Session} (h : s.expression.tokens ≠ []) {e : String}
    {x : Binary64} (hlast : s.equals.1.lastOutcome = some (.success e x)) :
    s.equals.1.expression = ⟨[x.display s.settings.significantDigits], true⟩ := by
  have hequals := equals_eq h
  dsimp only at hequals
  rw [hequals] at hlast ⊢
  rw [Option.some.inj hlast]
  rfl

theorem stuck_of_failed {s : Session} (h : s.WellShaped) (hf : s.equals.1.Failed) :
    s.equals.1.Stuck := by
  have hexpr := expression_of_failed h hf
  have hset : s.equals.1.settings = s.settings := press_settings s .equals
  constructor
  · exact ⟨[], by rw [hexpr, hset]⟩
  · intro hw
    rw [hexpr] at hw
    cases hw

/-- A lone point fails under all settings. -/
theorem failed_point (settings : Settings) :
    ((start settings).run [.press "."]).equals.1.Failed := by
  obtain ⟨fault, hfault⟩ := evaluate_of_not_isNumber settings [] (t := ".") (by decide)
  have htokens : ((start settings).run [.press "."]).expression.tokens = ["."] := rfl
  have hequals := equals_eq (s := (start settings).run [.press "."]) (by simp [htokens])
  have hset : ((start settings).run [.press "."]).settings = settings := rfl
  have hoperands : Expression.operandTokens ["."] = ["."] := by decide
  rw [htokens, hset, hoperands, Outcome.ofTokens_of_error hfault] at hequals
  rw [hequals]
  exact ⟨_, _, _, rfl⟩

/-- **Failures stay exactly if the error text is no number.**  After a failed `=`, and keys that
continue from it, every `=` fails again and shows the error text. -/
theorem failures_stay_iff (settings : Settings) :
    (∀ (history : List Call) (keys : List Key),
      let failed := ((start settings).run history).equals.1
      failed.Failed → failed.ContinuesAll keys →
        let again := (failed.pressAll keys).equals.1
        again.Failed ∧ again.display = settings.errorText) ↔
      Token.isNumber settings.errorText = false := by
  constructor
  · intro h
    cases hnum : Token.isNumber settings.errorText with
    | false => rfl
    | true =>
      -- the error text is evaluated as a number by the next `=`
      obtain ⟨x, hx⟩ := Option.isSome_iff_exists.mp hnum
      have hfailed := failed_point settings
      obtain ⟨hshape, hsettings⟩ := (wellShaped_start settings).run [.press "."]
      have hexpr := expression_of_failed hshape hfailed
      rw [hsettings] at hexpr
      obtain ⟨⟨e, kind, m, hlast⟩, -⟩ := h [.press "."] [] hfailed trivial
      have hagain := equals_number (congrArg Expression.tokens hexpr) hx
      rw [show ∀ s : Session, s.pressAll [] = s from fun _ => rfl, hagain] at hlast
      cases hlast
  · intro herr history keys failed hfailed hkeys
    obtain ⟨hshape, hsettings⟩ := (wellShaped_start settings).run history
    have hstuck : failed.Stuck := stuck_of_failed hshape hfailed
    have hset : failed.settings = settings := (press_settings _ .equals).trans hsettings
    obtain ⟨hafter, hset'⟩ := hstuck.pressAll (hset ▸ herr) hkeys
    obtain ⟨-, hagain, hdisplay⟩ := hafter.equals (hset' ▸ hset ▸ herr)
    exact ⟨hagain, hdisplay.trans (by rw [hset', hset])⟩

/-- With an error text that is a number, the calculator calculates on from it. -/
theorem failure_with_numeric_text :
    let settings : Settings :=
      { Settings.standard with errorText := "12", errorText_ne_empty := by decide }
    let failed := ((start settings).run [.press "."]).equals.1
    let again := (failed.pressAll [.operator .add, .number ⟨'3', rfl⟩]).equals.1
    failed.Failed ∧ failed.ContinuesAll [.operator .add, .number ⟨'3', rfl⟩] ∧
      ¬ again.Failed ∧ again.display = "15" := by
  intro settings failed again
  have hlast : again.lastOutcome = some (.success "12 + 3" (.ofDecimal false ⟨15, 0⟩)) := by
    decide +kernel
  refine ⟨failed_point settings, ⟨trivial, rfl, trivial⟩, ?_, by decide +kernel⟩
  rintro ⟨e, kind, m, h⟩
  rw [hlast] at h
  cases h

end Session

end Keypad
