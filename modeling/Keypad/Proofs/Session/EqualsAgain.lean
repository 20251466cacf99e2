import Keypad.Proofs.Evaluation.Checked
import Keypad.Proofs.Session.Failure

/-! # Pressing `=` again

An `=` leaves a single token, and the next `=` evaluates that token alone.  A result is read from
its text and displayed again; an error text that is no number fails again.  So a second `=` keeps
the display unless the text of a result is one of those that change when they are read
(`equals_again_iff`), and when it keeps the display, so do all that follow
(`display_equals_iterate`).  A second `=` after a success does not fail
(`result_succeeds_again`). -/

namespace Keypad

namespace Session

variable {s : Session}

/-- What is no number is no text that changes. -/
theorem not_unsettled_of_not_isNumber {count : ℕ} {text : String}
    (h : Token.isNumber text = false) : ¬ Binary64.Unsettled count text := by
  have hnone : Token.number? text = none := by simpa [Token.isNumber] using h
  have hread : Numeral.read? text.toList = none := by simpa [Token.number?] using hnone
  intro hunsettled
  cases hunsettled with
  | whole y cs marked read => simp [hnone] at read
  | overflow s d read => simp [hread] at read
  | powerOfTen s d m read => simp [hread] at read

theorem display_of_tokens {t : String} (h : s.expression.tokens = [t]) : s.display = t := by
  simp [display, Expression.display, h]

/-- `=` on a single text that is no number. -/
theorem equals_not_number {t : String} (ht : s.expression.tokens = [t])
    (hnum : Token.isNumber t = false) :
    s.equals.1.settings = s.settings ∧ s.equals.1.expression = ⟨[s.settings.errorText], true⟩ := by
  obtain ⟨fault, hfault⟩ := evaluate_operandTokens s.settings [] hnum
  have hequals := equals_eq (s := s) (by simp [ht])
  rw [ht, Outcome.ofTokens_of_error hfault] at hequals
  rw [hequals]
  exact ⟨rfl, rfl⟩

/-- `=` leaves what is displayed as the only token. -/
theorem expression_equals (hne : s.expression.tokens ≠ []) :
    s.equals.1.settings = s.settings ∧ s.equals.1.expression = ⟨[s.equals.1.display], true⟩ := by
  have hequals := equals_eq hne
  dsimp only at hequals
  rw [hequals, display_of_tokens rfl]
  exact ⟨rfl, rfl⟩

/-- If a second `=` keeps the display, then so does every further one. -/
theorem display_equals_iterate (hne : s.expression.tokens ≠ [])
    (hkeep : s.equals.1.equals.1.display = s.equals.1.display) (n : ℕ) :
    ((fun t : Session => t.equals.1)^[n] s.equals.1).display = s.equals.1.display := by
  -- the settings and the expression stay as the first `=` left them
  have hstay : ∀ n, ((fun t : Session => t.equals.1)^[n] s.equals.1).settings = s.settings ∧
      ((fun t : Session => t.equals.1)^[n] s.equals.1).expression =
        ⟨[s.equals.1.display], true⟩ := by
    intro n
    induction n with
    | zero => exact expression_equals hne
    | succ n ih =>
      obtain ⟨hset, hexpr⟩ := ih
      obtain ⟨hset₁, hexpr₁⟩ := expression_equals hne
      have hagain := equals_eq (s := s.equals.1) (by rw [hexpr₁]; simp)
      have hnext := equals_eq (s := (fun t : Session => t.equals.1)^[n] s.equals.1)
        (by rw [hexpr]; simp)
      have hsame : ((fun t : Session => t.equals.1)^[n] s.equals.1).equals.1 =
          s.equals.1.equals.1 := by
        rw [hnext, hagain, hset, hexpr, hset₁, hexpr₁]
      obtain ⟨hset₂, hexpr₂⟩ := expression_equals (s := s.equals.1) (by rw [hexpr₁]; simp)
      rw [Function.iterate_succ_apply', hsame, hset₂, hexpr₂, hkeep]
      exact ⟨hset₁, rfl⟩
  exact display_of_tokens (congrArg Expression.tokens (hstay n).2)

theorem display_equals (hne : s.expression.tokens ≠ []) : s.equals.1.display =
    (Outcome.ofTokens s.settings (Expression.operandTokens s.expression.tokens)).display
      s.settings := by
  have hequals := equals_eq hne
  dsimp only at hequals
  rw [hequals]
  exact display_of_tokens rfl

/-- A second `=` evaluates what the first one displays. -/
theorem display_equals_equals_of_number (hne : s.expression.tokens ≠ []) {y : Binary64}
    (hy : Token.number? s.equals.1.display = some y) :
    s.equals.1.equals.1.display = y.display s.settings.significantDigits := by
  obtain ⟨hset, hexpr⟩ := expression_equals hne
  have hagain := equals_number (congrArg Expression.tokens hexpr) hy
  rw [hagain, hset]
  exact display_of_tokens rfl

theorem display_equals_equals_of_not_isNumber (hne : s.expression.tokens ≠ [])
    (hnum : Token.isNumber s.equals.1.display = false) :
    s.equals.1.equals.1.display = s.settings.errorText := by
  obtain ⟨hset, hexpr⟩ := expression_equals hne
  obtain ⟨-, hagain⟩ := equals_not_number (congrArg Expression.tokens hexpr) hnum
  rw [display_of_tokens (congrArg Expression.tokens hagain), hset]

/-- **A second `=`** keeps the display, unless the text is one that changes. -/
theorem equals_again_iff (hne : s.expression.tokens ≠ [])
    (herr : s.settings.errorText = Settings.standard.errorText) :
    s.equals.1.equals.1.display = s.equals.1.display ↔
      ¬ Binary64.Unsettled s.settings.significantDigits s.equals.1.display := by
  have hdisplay := display_equals hne
  cases houtcome : Outcome.ofTokens s.settings (Expression.operandTokens s.expression.tokens) with
  | success e x =>
    rw [houtcome] at hdisplay
    replace hdisplay : s.equals.1.display = x.display s.settings.significantDigits := hdisplay
    have hnum := Binary64.isNumber_display s.settings.significantDigits_pos x
    obtain ⟨y, hy⟩ := Option.isSome_iff_exists.mp hnum
    rw [display_equals_equals_of_number hne (hdisplay ▸ hy), hdisplay]
    exact Binary64.display_again_iff s.settings.significantDigits_pos x hy
  | failure e kind m =>
    rw [houtcome] at hdisplay
    replace hdisplay : s.equals.1.display = s.settings.errorText := hdisplay
    have hnum : Token.isNumber s.equals.1.display = false := by
      rw [hdisplay, herr]
      decide
    rw [display_equals_equals_of_not_isNumber hne hnum, ← hdisplay]
    exact iff_of_true rfl (not_unsettled_of_not_isNumber hnum)

/-- The display of one third stays. -/
theorem equals_again_third :
    let s := (start .standard).run [.press "1", .press "/", .press "3"]
    s.expression.tokens ≠ [] ∧ s.settings.errorText = Settings.standard.errorText ∧
      s.equals.1.display = "0.333333333333" ∧
      ¬ Binary64.Unsettled s.settings.significantDigits s.equals.1.display :=
  have hne : ((start .standard).run
      [.press "1", .press "/", .press "3"]).expression.tokens ≠ [] := by decide
  have hkeep :
      ((start .standard).run [.press "1", .press "/", .press "3"]).equals.1.equals.1.display =
        ((start .standard).run [.press "1", .press "/", .press "3"]).equals.1.display := by
    decide +kernel
  ⟨hne, rfl, by decide +kernel, (equals_again_iff hne rfl).mp hkeep⟩

/-- Thirteen digits before the point are rounded, and the rounded number is shown in full. -/
theorem equals_again_rounded :
    let s := (start .standard).run
      ("12345678901274/10".toList.map fun c => .press (String.singleton c))
    s.expression.tokens ≠ [] ∧ s.equals.1.display = "1.23456789013e+12" ∧
      s.equals.1.equals.1.display = "1234567890130" := by
  decide +kernel

/-! ### After a success -/

/-- **A result succeeds again.**  Every number, infinite ones and NaN included, is displayed without
a break-off with any count of digits that settings can have: by one word that is no operator and is
read as a number.  So after a successful `=` of any run a second `=` evaluates this word, and
succeeds with the number that it is read as. -/
theorem result_succeeds_again :
    (∀ (x : Binary64) (count : ℕ), 1 ≤ count → count ≤ 17 → ∃ text,
        Checked.display count x = .ok text ∧ Text.IsWord text.toList ∧
          Token.isOperator text = false ∧ Token.isNumber text = true) ∧
      ∀ (settings : Settings) (calls : List Call) (e : String) (x : Binary64),
        let s := ((start settings).run calls).equals.1
        s.lastOutcome = some (.success e x) → ∃ y, Token.number? s.display = some y ∧
          s.equals.1.lastOutcome = some (.success s.display y) ∧
          Checked.evaluate settings.zeroTolerance settings.significantDigits settings.errorText
              s.expression =
            .ok (some (.success s.display y), ⟨[y.display settings.significantDigits], true⟩) := by
  constructor
  · intro x count hpos hle
    have hnum := Binary64.isNumber_display hpos x
    exact ⟨_, Checked.display_eq hle x, Binary64.isWord_display hpos x,
      Token.isOperator_of_isNumber hnum, hnum⟩
  · intro settings calls e x s hlast
    obtain ⟨hshape, hsettings⟩ := (wellShaped_start settings).run calls
    have hrun : ((start settings).run calls).settings = settings := hsettings
    have hset : s.settings = settings := (press_settings _ .equals).trans hrun
    have hne := hshape.tokens_ne_nil hlast
    have hexpr : s.expression = ⟨[s.display], true⟩ := (expression_equals hne).2
    have htext : s.display = x.display settings.significantDigits := by
      rw [← hrun]
      exact display_of_tokens (congrArg Expression.tokens (expression_of_success hne hlast))
    have hnum : Token.isNumber s.display = true :=
      htext ▸ Binary64.isNumber_display settings.significantDigits_pos x
    obtain ⟨y, hy⟩ := Option.isSome_iff_exists.mp hnum
    have hagain := equals_number (congrArg Expression.tokens hexpr) hy
    have hne' : s.expression.tokens ≠ [] := by simp [hexpr]
    obtain ⟨hchecked, -⟩ := Checked.evaluate_eq settings settings hne'
    -- the checked evaluation has the outcome of the second `=`
    have houtcome := congrArg lastOutcome (equals_eq hne')
    rw [hset, hagain] at houtcome
    rw [← Option.some.inj houtcome] at hchecked
    exact ⟨y, hy, by rw [hagain], hchecked⟩

/-- A result that is displayed with an exponent is no text that keys can type, and succeeds
again. -/
theorem result_succeeds_again_exponent :
    let s := ((start .standard).run
      ("9007199254740992*2".toList.map fun c => .press (String.singleton c))).equals.1
    s.display = "1.80143985095e+16" ∧
      s.equals.1.lastOutcome =
        some (.success "1.80143985095e+16" (Binary64.ofDecimal false ⟨180143985095, 5⟩)) ∧
      Checked.display 1 .nan = .ok "nan" ∧ Token.isNumber "nan" = true := by
  intro s
  have hdisplay : s.display = "1.80143985095e+16" := by decide +kernel
  have hlast : s.lastOutcome =
      some (.success "9007199254740992 * 2" (Binary64.ofDecimal false ⟨18014398509481984, 0⟩)) := by
    decide +kernel
  obtain ⟨hwords, hruns⟩ := result_succeeds_again
  obtain ⟨y, hy, hagain, -⟩ := hruns .standard _ _ _ hlast
  have hread : Token.number? "1.80143985095e+16" =
      some (Binary64.ofDecimal false ⟨180143985095, 5⟩) := by
    decide +kernel
  rw [hdisplay] at hy hagain
  obtain rfl := Option.some.inj (hread.symm.trans hy)
  obtain ⟨text, htext, -, -, hnum⟩ := hwords .nan 1 (by decide) (by decide)
  have hnan : Checked.display 1 .nan = .ok "nan" := rfl
  obtain rfl : "nan" = text := Except.ok.inj (hnan.symm.trans htext)
  exact ⟨hdisplay, by rw [hagain], hnan, hnum⟩

end Session

end Keypad
