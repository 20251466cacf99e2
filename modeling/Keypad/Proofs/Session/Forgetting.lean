import Keypad.Proofs.Session.Failure

/-! # What a session forgets

`C` leaves a fresh session.  A number key that starts over leaves the expression of a fresh session;
all that is left of the past is the outcome of the latest evaluation.  Two sessions that differ in
no more than that (`Alike`) stay alike under every key (`Alike.press`), and the first `=` or `C`
makes them equal (`Alike.press_eq`).  So the keys after a `C` act as on a fresh session, and so do
those after a result that begin with a number key (`history_forgotten`). -/

namespace Keypad

/-- A number key never leaves an empty expression. -/
theorem Expression.typeChar_ne_nil (tokens : List String) (key : NumberKey) :
    typeChar tokens key ≠ [] := by
  unfold typeChar
  split
  · simp
  · next last hlast =>
    split
    · rintro rfl
      cases hlast
    · simp

namespace Session

/-- **Alike**: the same settings and the same expression.  Without an expression an `=` keeps the
outcome, so in that case the outcomes are the same, too. -/
structure Alike (a b : Session) : Prop where
  settings : a.settings = b.settings
  expression : a.expression = b.expression
  lastOutcome : a.expression.tokens = [] → a.lastOutcome = b.lastOutcome

namespace Alike

variable {a b : Session}

theorem refl (a : Session) : Alike a a := ⟨rfl, rfl, fun _ => rfl⟩

theorem display (h : Alike a b) : a.display = b.display := by
  rw [Session.display, Session.display, h.expression, h.settings]

theorem eq (h : Alike a b) (hlast : a.lastOutcome = b.lastOutcome) : a = b := by
  obtain ⟨settings, expression, lastOutcome⟩ := a
  obtain ⟨rfl, rfl, -⟩ := h
  obtain rfl : lastOutcome = b.lastOutcome := hlast
  rfl

/-- The same step of the expression, if it leaves no empty one where there was none. -/
theorem withExpression (h : Alike a b) {f : Expression → Expression}
    (hf : (f a.expression).tokens = [] → a.expression.tokens = []) :
    Alike (a.withExpression (f a.expression)) (b.withExpression (f b.expression)) :=
  ⟨h.settings, congrArg f h.expression, fun hnil => h.lastOutcome (hf hnil)⟩

/-! ### One key -/

/-- **`=` and `C` make alike sessions equal.** -/
theorem press_eq (h : Alike a b) {key : Key} (hkey : key = .equals ∨ key = .clear) :
    (a.press key).1 = (b.press key).1 := by
  rcases hkey with rfl | rfl
  · show a.equals.1 = b.equals.1
    by_cases hnil : a.expression.tokens = []
    · have hnil' : b.expression.tokens = [] := h.expression ▸ hnil
      rw [equals_of_nil hnil, equals_of_nil hnil']
      exact h.eq (h.lastOutcome hnil)
    · have hne : b.expression.tokens ≠ [] := h.expression ▸ hnil
      rw [equals_eq hnil, equals_eq hne, h.expression, h.settings]
  · exact congrArg start h.settings

/-- **Every key keeps sessions alike.** -/
theorem press (h : Alike a b) (key : Key) : Alike (a.press key).1 (b.press key).1 := by
  cases key with
  | equals => exact h.press_eq (.inl rfl) ▸ refl _
  | clear => exact h.press_eq (.inr rfl) ▸ refl _
  | number key =>
    refine h.withExpression (f := (·.enterNumber key)) fun hnil => absurd hnil ?_
    unfold Expression.enterNumber
    split
    · exact Expression.typeChar_ne_nil [] key
    · exact Expression.typeChar_ne_nil a.expression.tokens key
  | operator op =>
    refine h.withExpression (f := (·.enterOperator op)) fun hnil => ?_
    unfold Expression.enterOperator at hnil
    split at hnil
    · exact hnil
    · simp at hnil

/-! ### Runs -/

theorem pressAll (h : Alike a b) (keys : List Key) : Alike (a.pressAll keys) (b.pressAll keys) := by
  induction keys generalizing a b with
  | nil => exact h
  | cons key keys ih =>
    rw [pressAll_cons, pressAll_cons]
    exact ih (h.press key)

/-- Keys with an `=` or a `C` among them leave equal sessions. -/
theorem pressAll_eq (h : Alike a b) {keys : List Key} (hkeys : .equals ∈ keys ∨ .clear ∈ keys) :
    a.pressAll keys = b.pressAll keys := by
  induction keys generalizing a b with
  | nil => simp at hkeys
  | cons key keys ih =>
    rw [pressAll_cons, pressAll_cons]
    by_cases hkey : key = .equals ∨ key = .clear
    · rw [h.press_eq hkey]
    · refine ih (h.press key) ?_
      rw [not_or] at hkey
      simpa [Ne.symm hkey.1, Ne.symm hkey.2] using hkeys

end Alike

/-- A number key that starts over enters what it enters in a fresh session. -/
theorem alike_enterNumber {s : Session} (h : s.expression.awaitingReset = true) (key : NumberKey) :
    Alike (s.enterNumber key) ((start s.settings).enterNumber key) := by
  have hexpr : s.expression.enterNumber key = ⟨Expression.typeChar [] key, false⟩ := if_pos h
  refine ⟨rfl, hexpr, fun hnil => ?_⟩
  have htokens : (s.enterNumber key).expression.tokens = Expression.typeChar [] key :=
    congrArg Expression.tokens hexpr
  exact absurd (htokens.symm.trans hnil) (Expression.typeChar_ne_nil _ _)

/-- **What was before is forgotten.**  After any history, the keys that follow a `C` leave the
session that they leave of a fresh one.  After a history that ends with a result, keys that begin
with a number key show and enter, from the first one on, what they do in a fresh session; from the
first `=` or `C` among them on the outcome is that of the fresh session, too. -/
theorem history_forgotten (settings : Settings) (history : List Call) (keys : List Key) :
    let used := (start settings).run history
    let fresh := start settings
    used.pressAll (.clear :: keys) = fresh.pressAll keys ∧
      (used.expression.awaitingReset = true → (∃ first rest, keys = .number first :: rest) →
        ∀ entered, entered ≠ [] → entered <+: keys →
          (used.pressAll entered).display = (fresh.pressAll entered).display ∧
            (used.pressAll entered).expression = (fresh.pressAll entered).expression ∧
              (.equals ∈ entered ∨ .clear ∈ entered →
                (used.pressAll entered).lastOutcome = (fresh.pressAll entered).lastOutcome)) := by
  intro used fresh
  have hset : used.settings = settings := ((wellShaped_start settings).run history).2
  constructor
  · show (used.clear).pressAll keys = _
    rw [Session.clear, hset]
  · rintro hwait ⟨first, rest, rfl⟩ entered hne hprefix
    obtain ⟨keys, rfl⟩ : ∃ keys, entered = .number first :: keys := by
      obtain ⟨key, keys, rfl⟩ := List.exists_cons_of_ne_nil hne
      exact ⟨keys, by rw [(List.cons_prefix_cons.mp hprefix).1]⟩
    have halike := alike_enterNumber hwait first
    rw [hset] at halike
    rw [pressAll_cons, pressAll_cons]
    have hall := halike.pressAll keys
    refine ⟨hall.display, hall.expression, fun hmem => ?_⟩
    have hkeys : .equals ∈ keys ∨ .clear ∈ keys := by simpa using hmem
    exact congrArg Session.lastOutcome (halike.pressAll_eq hkeys)

-- until the next `=` the outcome is still that of the history
example :
    let used := (start .standard).run [.press "1", .press "="]
    used.expression.awaitingReset = true ∧
      (used.pressAll [.number ⟨'2', rfl⟩]).lastOutcome ≠
        ((start .standard).pressAll [.number ⟨'2', rfl⟩]).lastOutcome := by
  decide +kernel

end Session

end Keypad
