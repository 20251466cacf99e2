import Keypad.Proofs.Binary64.Seventeen
import Keypad.Proofs.Session.Failure

/-! # Results that are carried on

An operator after a result keeps the text of the result as the first token, and until the next `=`
or `C` no key changes it (`IsCarried.pressAll`).  So the next evaluation begins with the number that
the text is read as (`exists_carried_evaluation`).  For a whole number below `2 ^ 53` this is the
result itself, however many digits are displayed (`whole_result_carried_on`); with 17 digits it is
the result itself for every finite number (`seventeen_digits_carried_on`). -/

namespace Keypad

namespace Session

variable {s : Session} {text : String}

/-! ### What is evaluated -/

/-- The operands of the chain that is being entered are no operators. -/
theorem IsEntering.exists_chain (h : s.IsEntering) : ∃ c : Chain String,
    Expression.operandTokens s.expression.tokens = c.tokens ∧
      hasDanglingOperator c.tokens = false := by
  obtain ⟨c, trailing, htokens, hlinks, hfirst⟩ := h
  have hfirst' : Token.isOperator c.first = false :=
    hfirst.elim IsTyped.isOperator_eq_false fun hresult => hresult.2.1
  have hoperands : ∀ p ∈ c.operands, Token.isOperator (id p.2) = false := by
    intro p hp
    rcases List.mem_cons.mp hp with rfl | hp
    · exact hfirst'
    · obtain ⟨link, hlink, rfl⟩ := List.mem_map.mp hp
      exact (hlinks link hlink).isOperator_eq_false
  have hdangling : hasDanglingOperator c.tokens = false := Chain.hasDanglingOperator_write hoperands
  refine ⟨c, ?_, hdangling⟩
  rw [htokens]
  cases trailing with
  | some op => simp [Expression.operandTokens]
  | none =>
    have hlast := (hasDanglingOperator_eq_false_iff.mp hdangling).2
    have hany : c.tokens.getLast?.any Token.isOperator = false := by
      cases hget : c.tokens.getLast? with
      | none => rfl
      | some t => exact hlast t hget
    simp [Expression.operandTokens, hany]

/-! ### Keys that carry on -/

/-- A text is the first of several tokens, and the next key does not start over. -/
structure IsCarried (text : String) (s : Session) : Prop where
  wellShaped : s.WellShaped
  first : ∃ rest, rest ≠ [] ∧ s.expression = ⟨text :: rest, false⟩

theorem IsCarried.press (h : IsCarried text s) {key : Key} (hequals : key ≠ .equals)
    (hclear : key ≠ .clear) : IsCarried text (s.press key).1 := by
  refine ⟨h.wellShaped.press key, ?_⟩
  obtain ⟨rest, hne, hexpr⟩ := h.first
  cases key with
  | equals => exact absurd rfl hequals
  | clear => exact absurd rfl hclear
  | number key =>
    exact enterNumber_cons key (congrArg Expression.tokens hexpr) hne
      (congrArg Expression.awaitingReset hexpr)
  | operator op =>
    show ∃ rest, rest ≠ [] ∧ s.expression.enterOperator op = _
    rcases enterOperator_cons op (congrArg Expression.tokens hexpr) with hsame | hadded
    · exact ⟨rest, hne, hsame.trans hexpr⟩
    · exact ⟨rest ++ [op.symbol], by simp, hadded⟩

theorem IsCarried.pressAll (h : IsCarried text s) {keys : List Key} (hequals : .equals ∉ keys)
    (hclear : .clear ∉ keys) :
    IsCarried text (s.pressAll keys) ∧ (s.pressAll keys).settings = s.settings := by
  induction keys generalizing s with
  | nil => exact ⟨h, rfl⟩
  | cons key keys ih =>
    rw [List.mem_cons, not_or] at hequals hclear
    obtain ⟨hcarried, hsettings⟩ :=
      ih (h.press (Ne.symm hequals.1) (Ne.symm hclear.1)) hequals.2 hclear.2
    rw [pressAll_cons]
    exact ⟨hcarried, hsettings.trans (press_settings s key)⟩

/-- **The next evaluation** begins with the number that the first token is read as. -/
theorem IsCarried.evaluate_eq (h : IsCarried text s) {x : Binary64}
    (hx : Token.number? text = some x) :
    ∃ rest, Expression.operandTokens s.expression.tokens = text :: rest ∧
      evaluate s.settings (text :: rest) =
        Stacks.runFrom Token.ofText (Operator.apply s.settings.zeroTolerance) ⟨[x], []⟩ rest := by
  obtain ⟨rest, hne, hexpr⟩ := h.first
  have htokens : s.expression.tokens = text :: rest := congrArg Expression.tokens hexpr
  have hentering := h.wellShaped.entering (congrArg Expression.awaitingReset hexpr)
    (by simp [htokens])
  obtain ⟨c, hoperands, hdangling⟩ := hentering.exists_chain
  rcases operandTokens_cons text rest with hnil | ⟨rest', hcons⟩
  · rw [htokens, hnil] at hoperands
    cases hoperands
  · rw [htokens, hcons] at hoperands ⊢
    rw [← hoperands] at hdangling
    refine ⟨rest', rfl, ?_⟩
    rw [evaluate_eq_runFrom (List.cons_ne_nil _ _) hdangling, Stacks.empty,
      Stacks.runFrom_number (Token.ofText_of_number? hx)]

/-! ### After a result -/

/-- An operator after a single token that is no operator. -/
theorem enterOperator_singleton {e : Expression} (htokens : e.tokens = [text])
    (hno : Token.isOperator text = false) (op : Operator) :
    e.enterOperator op = ⟨[text, op.symbol], false⟩ := by
  have hopen : Expression.openNumber? e.tokens = some text := by
    rw [htokens]
    exact Expression.openNumber?_append [] hno
  rw [Expression.enterOperator, hopen, htokens]
  rfl

/-- An operator after a result carries on the text of the result. -/
theorem isCarried_enterOperator (hne : s.expression.tokens ≠ [])
    (htext : s.equals.1.expression = ⟨[text], true⟩) (hno : Token.isOperator text = false)
    (op : Operator) : IsCarried text (s.equals.1.enterOperator op) :=
  ⟨(wellShaped_equals hne).enterOperator op, [op.symbol], by simp,
    enterOperator_singleton (congrArg Expression.tokens htext) hno op⟩

/-- **The next `=`** reports the outcome of an expression that begins with the first token. -/
theorem IsCarried.lastOutcome_equals (h : IsCarried text s) {rest : List String}
    (hoperands : Expression.operandTokens s.expression.tokens = text :: rest) :
    s.equals.1.lastOutcome = some (.ofTokens s.settings (text :: rest)) := by
  obtain ⟨tail, -, htail⟩ := h.first
  have hequals := equals_eq (s := s) (by rw [htail]; simp)
  rw [hoperands] at hequals
  rw [hequals]

/-- **A result is carried on** as the number that its text is read as: after an operator and
whatever number keys and operators follow, the next evaluation takes the text as its first token and
begins with this number. -/
theorem exists_carried_evaluation {x : Binary64} (hne : s.expression.tokens ≠ [])
    (htext : s.equals.1.expression = ⟨[text], true⟩) (hx : Token.number? text = some x)
    (op : Operator) {keys : List Key} (hequals : .equals ∉ keys) (hclear : .clear ∉ keys) :
    let u := s.equals.1.pressAll (.operator op :: keys)
    ∃ rest, Expression.operandTokens u.expression.tokens = text :: rest ∧
      u.equals.1.lastOutcome = some (.ofTokens s.settings (text :: rest)) ∧
      evaluate s.settings (text :: rest) =
        Stacks.runFrom Token.ofText (Operator.apply s.settings.zeroTolerance) ⟨[x], []⟩ rest := by
  intro u
  have hno : Token.isOperator text = false :=
    Token.isOperator_of_isNumber (Option.isSome_iff_exists.mpr ⟨_, hx⟩)
  have hcarried := isCarried_enterOperator hne htext hno op
  obtain ⟨hu, hsettings⟩ := hcarried.pressAll hequals hclear
  have hstep : u = (s.equals.1.enterOperator op).pressAll keys :=
    pressAll_cons s.equals.1 (.operator op) keys
  rw [← hstep] at hu hsettings
  replace hsettings : u.settings = s.settings := hsettings.trans (press_settings s .equals)
  obtain ⟨rest, hoperands, hvalue⟩ := hu.evaluate_eq hx
  have houtcome := hu.lastOutcome_equals hoperands
  rw [hsettings] at hvalue houtcome
  exact ⟨rest, hoperands, houtcome, hvalue⟩

/-- **Whole results are carried on exactly.**  A number with the value of an integer below `2 ^ 53`
is displayed by the text of the integer, whatever the count of digits, and this text is read as the
number, zero without its sign.  After an `=` with such a result an operator leaves the text of the
integer and its own symbol as the tokens.  Whatever number keys and operators follow, the next
evaluation takes the text of the integer as its first token and begins with the number. -/
theorem whole_result_carried_on {x : Binary64} {z : ℤ} (hx : x.value? = some (z : ℚ))
    (hz : |z| < 2 ^ 53) :
    (∀ count, x.display count = toString z) ∧
      Token.number? (toString z) = some x.withoutZeroSign ∧
      ∀ (s : Session) (e : String), s.expression.tokens ≠ [] →
        s.equals.1.lastOutcome = some (.success e x) → ∀ op : Operator,
        (s.equals.1.enterOperator op).expression = ⟨[toString z, op.symbol], false⟩ ∧
          ∀ keys : List Key, .equals ∉ keys → .clear ∉ keys →
            let u := s.equals.1.pressAll (.operator op :: keys)
            ∃ rest, Expression.operandTokens u.expression.tokens = toString z :: rest ∧
              u.equals.1.lastOutcome = some (.ofTokens s.settings (toString z :: rest)) ∧
              evaluate s.settings (toString z :: rest) =
                Stacks.runFrom Token.ofText (Operator.apply s.settings.zeroTolerance)
                  ⟨[x.withoutZeroSign], []⟩ rest := by
  have hlimit : z.natAbs < Binary64.wholeLimit := by
    rw [← Int.natCast_natAbs] at hz
    exact_mod_cast hz
  have hdisplay := Binary64.display_eq_toString hx hlimit
  have hread := Binary64.number?_toString hx
  refine ⟨hdisplay, hread, fun s e hne hlast op => ?_⟩
  have hno : Token.isOperator (toString z) = false :=
    Token.isOperator_of_isNumber (Option.isSome_iff_exists.mpr ⟨_, hread⟩)
  have hresult : s.equals.1.expression = ⟨[toString z], true⟩ := by
    rw [expression_of_success hne hlast, hdisplay]
  exact ⟨enterOperator_singleton (congrArg Expression.tokens hresult) hno op,
    fun keys hequals hclear => exists_carried_evaluation hne hresult hread op hequals hclear⟩

/-- The largest whole number below the limit is carried on, though six digits are displayed of other
results. -/
theorem whole_result_carried_on_largest :
    let settings : Settings := { Settings.standard with
      significantDigits := 6
      significantDigits_pos := by decide
      significantDigits_le := by decide }
    let x := Binary64.ofDecimal true ⟨9007199254740991, 0⟩
    let s := (start settings).run
      ("1-9007199254740992".toList.map fun c => .press (String.singleton c))
    let u := s.equals.1.pressAll [.operator .mul, .number ⟨'2', rfl⟩, .operator .add]
    x.value? = some ((-9007199254740991 : ℤ) : ℚ) ∧
      s.equals.1.lastOutcome = some (.success "1 - 9007199254740992" x) ∧
      x.display 6 = "-9007199254740991" ∧
      u.expression.tokens = ["-9007199254740991", "*", "2", "+"] ∧
      evaluate settings ["-9007199254740991", "*", "2"] =
        Stacks.runFrom Token.ofText (Operator.apply settings.zeroTolerance) ⟨[x], []⟩
          ["*", "2"] := by
  intro settings x s u
  have hvalue : x.value? = some ((-9007199254740991 : ℤ) : ℚ) := by decide +kernel
  have hlast : s.equals.1.lastOutcome = some (.success "1 - 9007199254740992" x) := by
    decide +kernel
  have htokens : s.expression.tokens = ["1", "-", "9007199254740992"] := by decide +kernel
  have hsign : x.withoutZeroSign = x := by decide +kernel
  obtain ⟨hdisplay, -, hcarried⟩ := whole_result_carried_on hvalue (by decide)
  obtain ⟨-, hkeys⟩ := hcarried s _ (by rw [htokens]; simp) hlast .mul
  obtain ⟨rest, hoperands, -, hrest⟩ :=
    hkeys [.number ⟨'2', rfl⟩, .operator .add] (by decide) (by decide)
  have hu : u.expression.tokens = ["-9007199254740991", "*", "2", "+"] := by decide +kernel
  obtain rfl : ["*", "2"] = rest := by
    rw [hu] at hoperands
    exact (List.cons.inj hoperands).2
  rw [hsign] at hrest
  exact ⟨hvalue, hlast, hdisplay 6, hu, hrest⟩

/-! ### Seventeen digits -/

/-- **With 17 digits a finite result is carried on exactly.**  The text of every finite number with
17 digits is read as the number, zero without its sign.  So after an `=` with this result, which
leaves the text as its only token, an operator has the result as its left operand: the text, the
operator and a number have the value of the operator for the result and that number.  Whatever
number keys and operators follow, the next evaluation takes the text as its first token and begins
with the result. -/
theorem seventeen_digits_carried_on (negative : Bool) (m : Magnitude) :
    let x := Binary64.finite negative m
    Token.number? (x.display 17) = some x.withoutZeroSign ∧
      ∀ (s : Session) (e : String), s.settings.significantDigits = 17 →
        s.expression.tokens ≠ [] → s.equals.1.lastOutcome = some (.success e x) →
        s.equals.1.expression = ⟨[x.display 17], true⟩ ∧ ∀ op : Operator,
          (s.equals.1.enterOperator op).expression = ⟨[x.display 17, op.symbol], false⟩ ∧
          (∀ t y, Token.number? t = some y → evaluate s.settings [x.display 17, op.symbol, t] =
            op.apply s.settings.zeroTolerance x.withoutZeroSign y) ∧
          ∀ keys : List Key, .equals ∉ keys → .clear ∉ keys →
            let u := s.equals.1.pressAll (.operator op :: keys)
            ∃ rest, Expression.operandTokens u.expression.tokens = x.display 17 :: rest ∧
              u.equals.1.lastOutcome = some (.ofTokens s.settings (x.display 17 :: rest)) ∧
              evaluate s.settings (x.display 17 :: rest) =
                Stacks.runFrom Token.ofText (Operator.apply s.settings.zeroTolerance)
                  ⟨[x.withoutZeroSign], []⟩ rest := by
  intro x
  have hread : Token.number? (x.display 17) = some x.withoutZeroSign :=
    Binary64.number?_display_seventeen negative m
  have hno : Token.isOperator (x.display 17) = false :=
    Token.isOperator_of_isNumber (Option.isSome_iff_exists.mpr ⟨_, hread⟩)
  refine ⟨hread, fun s e hdigits hne hlast => ?_⟩
  have hresult : s.equals.1.expression = ⟨[x.display 17], true⟩ := by
    rw [expression_of_success hne hlast, hdigits]
  exact ⟨hresult, fun op => ⟨enterOperator_singleton (congrArg Expression.tokens hresult) hno op,
    fun t y hy => evaluate_operator hread hy op,
    fun keys hequals hclear => exists_carried_evaluation hne hresult hread op hequals hclear⟩⟩

/-- A third is carried on as it is, which a number with twelve digits is not. -/
theorem seventeen_digits_carried_on_third :
    let settings : Settings := { Settings.standard with
      significantDigits := 17
      significantDigits_pos := by decide
      significantDigits_le := by decide }
    let m : Magnitude := ⟨6004799503160661 * 2 ^ 1020, by decide +kernel, by decide +kernel⟩
    let s := (start settings).run [.press "1", .press "/", .press "3"]
    let u := s.equals.1.pressAll [.operator .mul, .number ⟨'3', rfl⟩]
    s.equals.1.lastOutcome = some (.success "1 / 3" (.finite false m)) ∧
      u.expression.tokens = ["0.33333333333333331", "*", "3"] ∧
      u.equals.1.lastOutcome =
        some (.ofTokens settings ["0.33333333333333331", "*", "3"]) ∧
      evaluate settings ["0.33333333333333331", "*", "3"] =
        Operator.mul.apply settings.zeroTolerance (.finite false m)
          (Binary64.ofDecimal false ⟨3, 0⟩) ∧
      Token.number? ((Binary64.finite false m).display 12) ≠ some (.finite false m) := by
  intro settings m s u
  have htext : (Binary64.finite false m).display 17 = "0.33333333333333331" := by decide +kernel
  have hsign : (Binary64.finite false m).withoutZeroSign = .finite false m := by decide +kernel
  have hlast : s.equals.1.lastOutcome = some (.success "1 / 3" (.finite false m)) := by
    decide +kernel
  have hsettings : s.settings = settings := rfl
  have hthree : Token.number? "3" = some (Binary64.ofDecimal false ⟨3, 0⟩) := by decide +kernel
  obtain ⟨-, hsession⟩ := seventeen_digits_carried_on false m
  obtain ⟨-, hoperator⟩ := hsession s _ rfl (by decide) hlast
  obtain ⟨-, hvalue, hkeys⟩ := hoperator .mul
  obtain ⟨rest, hoperands, houtcome, -⟩ :=
    hkeys [.number ⟨'3', rfl⟩] (by decide) (by decide)
  have hu : u.expression.tokens = ["0.33333333333333331", "*", "3"] := by decide +kernel
  rw [htext] at hoperands houtcome
  rw [hsettings] at houtcome
  obtain rfl : ["*", "3"] = rest := by
    rw [hu] at hoperands
    exact (List.cons.inj hoperands).2
  have hthird := hvalue "3" _ hthree
  rw [htext, hsign] at hthird
  exact ⟨hlast, hu, by rw [houtcome], hthird, by decide +kernel⟩

end Session

end Keypad
