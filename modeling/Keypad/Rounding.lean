/-! # Rounding a quotient

`roundHalfEven num den` is the natural number nearest to `num / den`; of two equally near ones it is
the even one.  Binary and decimal numbers are both cut to their number of digits by this one
function.  It stays within one of the truncated quotient (`div_le_roundHalfEven`,
`roundHalfEven_le`) and changes nothing when the division is exact (`roundHalfEven_mul_right`). -/

-- Powers of natural numbers and integers are the core ones, also where a monoid's are in scope.
attribute [instance (high + 1), default_instance (high + 1)] instPowNat

namespace Keypad

/-- The natural number nearest to `num / den`, a half going to the even neighbour. -/
def roundHalfEven (num den : Nat) : Nat :=
  let q := num / den
  let r := num % den
  if 2 * r < den then q
  else if den < 2 * r then q + 1
  else q + q % 2

theorem div_le_roundHalfEven (num den : Nat) : num / den ≤ roundHalfEven num den := by
  unfold roundHalfEven
  dsimp only
  split
  · exact Nat.le_refl _
  · split <;> omega

theorem roundHalfEven_le (num den : Nat) : roundHalfEven num den ≤ num / den + 1 := by
  unfold roundHalfEven
  dsimp only
  split
  · omega
  · split
    · exact Nat.le_refl _
    · have := Nat.mod_lt (num / den) (by decide : 0 < 2)
      omega

theorem roundHalfEven_mul_right (q : Nat) {den : Nat} (h : 0 < den) :
    roundHalfEven (q * den) den = q := by
  simp [roundHalfEven, Nat.mul_div_cancel _ h, h]

end Keypad
