import Keypad.Proofs.Decimal.Points
import Keypad.Proofs.Evaluation.Stacks
import Keypad.Proofs.Session.Objects

/-! # Typed tokens

A number key is typed into the last token: it begins the token, extends it, or is a second point and
does nothing.  `typedFrom` follows the positions of the tokens that number keys were typed into; `=`
and `C` leave no such token.  All other tokens are operators, or stand first and were left by the
latest evaluation (`Typing`), which every key keeps (`Typing.press`).

A typed token is a text of digits with at most one point (`WellShaped.exists_enterNumber`).  So it
is a number unless it has no digit, and then it is a lone point (`IsTyped.isNumber_iff`). -/

namespace Keypad

/-- **A typed number is a number**, except for a lone point. -/
theorem IsTyped.isNumber_iff {text : String} (h : IsTyped text) :
    Token.isNumber text = true ↔ text ≠ "." := by
  rw [Token.isNumber_iff_of_looksNumeric h.looksNumeric, and_iff_left h.points]
  constructor
  · rintro ⟨c, hc, hdigit⟩ rfl
    rw [List.mem_singleton.mp hc] at hdigit
    cases hdigit
  · intro hne
    by_contra hnone
    -- without a digit there are only points, and just one of them
    have hall : ∀ c ∈ text.toList, c = '.' := fun c hc =>
      (h.chars c hc).resolve_left fun hdigit => hnone ⟨c, hc, hdigit⟩
    have hlength : text.toList.length ≤ 1 := by
      rw [← List.count_eq_length.mpr fun c hc => (hall c hc).symm]
      exact h.points
    obtain ⟨c, hc⟩ : ∃ c, text.toList = [c] := by
      have := List.length_pos_iff.mpr h.ne_nil
      exact List.length_eq_one_iff.mp (by omega)
    obtain rfl := hall c (by simp [hc])
    exact hne (String.toList_inj.mp hc)

namespace Session

variable {s : Session} {typed : List ℕ}

/-! ### What number keys are typed into -/

/-- The positions of the typed tokens after one more key. -/
def typedAfter (s : Session) (typed : List ℕ) : Key → List ℕ
  | .number key =>
    let last := (s.enterNumber key).expression.tokens.length - 1
    typed.filter (· < last) ++ [last]
  | .operator _ => typed
  | .equals => []
  | .clear => []

/-- **The positions of the typed tokens** after some calls. -/
def typedFrom (s : Session) (typed : List ℕ) : List Call → List ℕ
  | [] => typed
  | c :: calls =>
    match c.key with
    | .ok key => typedFrom (s.press key).1 (s.typedAfter typed key) calls
    | .error _ => typedFrom s typed calls

/-- The number that the next number key continues is typed, unless that key starts over. -/
theorem WellShaped.isTyped_openNumber (h : s.WellShaped)
    (hwait : s.expression.awaitingReset = false) {t : String}
    (ht : Expression.openNumber? s.expression.tokens = some t) : IsTyped t := by
  have hne : s.expression.tokens ≠ [] := by
    intro hnil
    rw [hnil] at ht
    cases ht
  obtain ⟨⟨x, links⟩, trailing, htokens, hlinks, hfirst⟩ := h.entering hwait hne
  cases trailing with
  | some op =>
    rw [htokens] at ht
    simp [Expression.openNumber?_append_symbol] at ht
  | none =>
    rw [htokens] at ht
    have hlast := (Expression.openNumber?_eq_some ht).1
    rcases List.eq_nil_or_concat links with rfl | ⟨init, ⟨op, y⟩, rfl⟩
    · obtain rfl : x = t := by simpa [Chain.tokens, Chain.write] using hlast
      rcases hfirst with hx | ⟨-, -, hx | hx⟩
      · exact hx
      · exact absurd rfl hx
      · exact absurd rfl hx
    · rw [List.concat_eq_append, Chain.tokens_concat] at hlast
      obtain rfl : y = t := by simpa using hlast
      exact hlinks (op, y) (by simp)

/-- **A number key** leaves a typed number as the last token, and of the other tokens those before
it or none. -/
theorem WellShaped.exists_enterNumber (h : s.WellShaped) (key : NumberKey) : ∃ init t,
    (s.enterNumber key).expression.tokens = init ++ [t] ∧ IsTyped t ∧
      init <+: s.expression.tokens := by
  unfold Session.enterNumber Expression.enterNumber
  cases hwait : s.expression.awaitingReset with
  | true => exact ⟨[], key.label, rfl, key.isTyped_label, List.nil_prefix⟩
  | false =>
    cases hopen : Expression.openNumber? s.expression.tokens with
    | none =>
      refine ⟨s.expression.tokens, key.label, ?_, key.isTyped_label, List.prefix_refl _⟩
      show Expression.typeChar s.expression.tokens key = _
      rw [Expression.typeChar, hopen]
    | some last =>
      obtain ⟨ts, hts⟩ := List.getLast?_eq_some_iff.mp (Expression.openNumber?_eq_some hopen).1
      obtain ⟨t, ht, htype⟩ :=
        Expression.typeChar_append ts key (h.isTyped_openNumber hwait hopen)
      refine ⟨ts, t, ?_, ht, hts ▸ List.prefix_append ts [last]⟩
      show Expression.typeChar s.expression.tokens key = _
      rw [hts, htype]

/-! ### The typed tokens and the others -/

/-- The tokens at the given positions are typed numbers.  All others are operators, except that the
first token may be what the latest evaluation left. -/
structure Typing (s : Session) (typed : List ℕ) : Prop where
  isTyped : ∀ i ∈ typed, ∃ t, s.expression.tokens[i]? = some t ∧ IsTyped t
  others : ∀ i t, s.expression.tokens[i]? = some t → i ∉ typed →
    (∃ op : Operator, t = op.symbol) ∨ i = 0 ∧ s.IsOutcomeText t

theorem Typing.of_nil (h : s.expression.tokens = []) : s.Typing [] where
  isTyped := nofun
  others i t ht := by
    rw [h] at ht
    cases ht

/-- One more token at the end. -/
theorem getElem?_concat_eq_some_iff {α : Type} {ts : List α} {t u : α} {i : ℕ} :
    (ts ++ [t])[i]? = some u ↔ ts[i]? = some u ∨ i = ts.length ∧ u = t := by
  by_cases hlt : i < ts.length
  · rw [List.getElem?_append_left hlt]
    exact (or_iff_left fun h => hlt.ne h.1).symm
  · rw [List.getElem?_append_right (by omega), List.getElem?_eq_none (by omega : ts.length ≤ i),
      List.getElem?_singleton]
    by_cases hi : i = ts.length
    · simp [hi, eq_comm]
    · have hne : i - ts.length ≠ 0 := by omega
      simp [hi, hne]

theorem Typing.enterNumber (h : s.Typing typed) (hs : s.WellShaped) (key : NumberKey) :
    (s.enterNumber key).Typing (s.typedAfter typed (.number key)) := by
  obtain ⟨init, t, htokens, ht, rest, hinit⟩ := hs.exists_enterNumber key
  have hafter : s.typedAfter typed (.number key) =
      typed.filter (· < init.length) ++ [init.length] := by
    simp [typedAfter, htokens]
  have hkept : ∀ i < init.length, init[i]? = s.expression.tokens[i]? := by
    intro i hi
    rw [← hinit, List.getElem?_append_left hi]
  rw [hafter]
  constructor
  · intro i hi
    simp only [htokens, getElem?_concat_eq_some_iff]
    rcases List.mem_append.mp hi with hi | hi
    · obtain ⟨hmem, hlt⟩ := List.mem_filter.mp hi
      obtain ⟨u, hu, htyped⟩ := h.isTyped i hmem
      exact ⟨u, .inl ((hkept i (of_decide_eq_true hlt)).trans hu), htyped⟩
    · exact ⟨t, .inr ⟨List.mem_singleton.mp hi, rfl⟩, ht⟩
  · intro i u hu hi
    rw [htokens, getElem?_concat_eq_some_iff] at hu
    rcases hu with hu | ⟨rfl, -⟩
    · have hlt := (List.getElem?_eq_some_iff.mp hu).1
      refine h.others i u ((hkept i hlt).symm.trans hu) fun hmem => hi ?_
      exact List.mem_append_left _ (List.mem_filter.mpr ⟨hmem, decide_eq_true hlt⟩)
    · exact absurd (by simp) hi

theorem Typing.enterOperator (h : s.Typing typed) (op : Operator) :
    (s.enterOperator op).Typing typed := by
  unfold Session.enterOperator Expression.enterOperator
  split
  · exact h
  · constructor
    · intro i hi
      obtain ⟨t, ht, htyped⟩ := h.isTyped i hi
      exact ⟨t, getElem?_concat_eq_some_iff.mpr (.inl ht), htyped⟩
    · intro i t ht hi
      rcases getElem?_concat_eq_some_iff.mp ht with hbefore | ⟨-, rfl⟩
      · exact h.others i t hbefore hi
      · exact .inl ⟨op, rfl⟩

/-- `=` leaves at most one token, which nobody typed. -/
theorem typing_equals (s : Session) : s.equals.1.Typing [] := by
  by_cases hnil : s.expression.tokens = []
  · rw [equals_of_nil hnil]
    exact .of_nil hnil
  · have hequals := equals_eq hnil
    dsimp only at hequals
    rw [hequals]
    refine ⟨nofun, fun i t ht _ => .inr ?_⟩
    obtain ⟨hi, rfl⟩ := List.getElem?_eq_some_iff.mp ht
    obtain rfl : i = 0 := Nat.lt_one_iff.mp hi
    exact ⟨rfl, isOutcomeText_display rfl⟩

theorem Typing.press (h : s.Typing typed) (hs : s.WellShaped) (key : Key) :
    (s.press key).1.Typing (s.typedAfter typed key) := by
  cases key with
  | number key => exact h.enterNumber hs key
  | operator op => exact h.enterOperator op
  | equals => exact typing_equals s
  | clear => exact .of_nil rfl

theorem Typing.run (h : s.Typing typed) (hs : s.WellShaped) (calls : List Call) :
    (s.run calls).Typing (s.typedFrom typed calls) := by
  induction calls generalizing s typed with
  | nil => exact h
  | cons c calls ih =>
    show ((s.after c).run calls).Typing _
    have hcall := s.call_eq c
    unfold after typedFrom
    cases hkey : c.key with
    | error refusal =>
      rw [hkey] at hcall
      rw [hcall]
      exact ih h hs
    | ok key =>
      rw [hkey] at hcall
      rw [hcall]
      exact ih (h.press hs key) (hs.press key)

/-- **Typed numbers are numbers, except for a lone point.**  A text of digits and points is a number
exactly if it has a digit and at most one point.  In every reachable session a typed token is such a
text, and it can be reported as a malformed number exactly if it is a lone point; the tokens that
are not typed are operators, and at the front what the latest evaluation left. -/
theorem typed_numbers_parse :
    (∀ text : String, Token.looksNumeric text = true → (Token.isNumber text = true ↔
      (∃ c ∈ text.toList, c.isDigit = true) ∧ text.toList.count '.' ≤ 1)) ∧
    ∀ (settings : Settings) (calls : List Call),
      let s := (start settings).run calls
      let typed := (start settings).typedFrom [] calls
      (∀ i ∈ typed, ∃ t, s.expression.tokens[i]? = some t ∧ Token.looksNumeric t = true ∧
        ((∃ tokens, evaluate settings tokens = .error (.malformedNumber t)) ↔ t = ".")) ∧
      ∀ i t, s.expression.tokens[i]? = some t → i ∉ typed →
        (∃ op : Operator, t = op.symbol) ∨ i = 0 ∧ s.IsOutcomeText t := by
  refine ⟨fun text => Token.isNumber_iff_of_looksNumeric, fun settings calls => ?_⟩
  intro s typed
  have htyping : s.Typing typed := (Typing.of_nil rfl).run (wellShaped_start settings) calls
  refine ⟨fun i hi => ?_, htyping.others⟩
  obtain ⟨t, ht, htyped⟩ := htyping.isTyped i hi
  refine ⟨t, ht, htyped.looksNumeric, ?_⟩
  rw [exists_evaluate_eq_malformedNumber_iff, and_iff_right htyped.looksNumeric,
    ← Bool.not_eq_true, htyped.isNumber_iff, not_not]

/-- An error text of digits and points is no typed token, and it is reported.  Of the tokens typed
after it the lone point can be reported, too. -/
theorem typed_numbers_parse_after_failure :
    let settings := { Settings.standard with
      errorText := "1..2"
      errorText_ne_empty := by decide }
    let calls := "1/0=+.5*.".toList.map fun c => Call.press (String.singleton c)
    let s := (start settings).run calls
    Token.looksNumeric "1..2" = true ∧ Token.isNumber "1..2" = false ∧
      s.expression.tokens = ["1..2", "+", ".5", "*", "."] ∧
      (start settings).typedFrom [] calls = [2, 4] ∧
      evaluate settings s.expression.tokens = .error (.malformedNumber "1..2") ∧
      s.IsOutcomeText "1..2" ∧
      ¬ (∃ tokens, evaluate settings tokens = .error (.malformedNumber ".5")) ∧
      ∃ tokens, evaluate settings tokens = .error (.malformedNumber ".") := by
  intro settings calls s
  have hlooks : Token.looksNumeric "1..2" = true := by decide
  have htokens : s.expression.tokens = ["1..2", "+", ".5", "*", "."] := by decide +kernel
  have htyped : (start settings).typedFrom [] calls = [2, 4] := by decide +kernel
  obtain ⟨hparse, hsession⟩ := typed_numbers_parse
  obtain ⟨htyping, hothers⟩ := hsession settings calls
  have hnumber : Token.isNumber "1..2" = false := by
    rw [← Bool.not_eq_true, hparse "1..2" hlooks]
    exact fun h => absurd h.2 (by decide)
  have hfirst : s.IsOutcomeText "1..2" := by
    have hzero : s.expression.tokens[0]? = some "1..2" := by rw [htokens]; rfl
    rcases hothers 0 "1..2" hzero (by rw [htyped]; decide) with ⟨op, hop⟩ | ⟨-, htext⟩
    · rw [hop, Token.looksNumeric_symbol] at hlooks
      cases hlooks
    · exact htext
  have hreported : ∀ i ∈ [2, 4], ∀ t, s.expression.tokens[i]? = some t →
      ((∃ tokens, evaluate settings tokens = .error (.malformedNumber t)) ↔ t = ".") := by
    intro i hi t ht
    obtain ⟨u, hu, -, hiff⟩ := htyping i (htyped ▸ hi)
    obtain rfl := Option.some.inj (ht.symm.trans hu)
    exact hiff
  have hhalf := hreported 2 (by decide) ".5" (by rw [htokens]; rfl)
  have hpoint := hreported 4 (by decide) "." (by rw [htokens]; rfl)
  exact ⟨hlooks, hnumber, htokens, htyped, by decide +kernel, hfirst,
    fun h => absurd (hhalf.mp h) (by decide), hpoint.mpr rfl⟩

end Session

end Keypad
