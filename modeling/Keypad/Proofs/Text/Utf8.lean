import Keypad.Text.Utf8
import Mathlib.Tactic.IntervalCases

/-! # Decoding what is encoded

A character is encoded by one to four octets: the first tells how many follow, each of the others
carries six bits.  Reading them one after the other gives the character again and leaves the octets
that follow (`decodeFrom_encoded`).  So a text is decoded from its own octets
(`decodeUtf8_toUTF8`). -/

namespace Keypad.Text

variable {position k h i j : Nat} {bs : List UInt8}

theorem toNat_ofNat {n : Nat} (hn : n < 256) : (UInt8.ofNat n).toNat = n :=
  UInt8.toNat_ofNat'.trans (Nat.mod_eq_of_lt hn)

/-! ### First octets -/

theorem begin?_two (hlow : 2 ≤ k) (hhigh : k < 32) :
    PartialChar.begin? position (UInt8.ofNat (k + 192)) =
      some ⟨position, UInt8.ofNat (k + 192), 1, 0x80, 0xbf, k⟩ := by
  interval_cases k <;> rfl

/-- The first octet of three excludes overlong forms and surrogates. -/
theorem begin?_three (hk : k < 16) :
    PartialChar.begin? position (UInt8.ofNat (k + 224)) =
      some ⟨position, UInt8.ofNat (k + 224), 2, if k = 0 then 0xa0 else 0x80,
        if k = 13 then 0x9f else 0xbf, k⟩ := by
  interval_cases k <;> rfl

/-- The first octet of four excludes overlong forms and what is beyond the last code point. -/
theorem begin?_four (hk : k < 5) :
    PartialChar.begin? position (UInt8.ofNat (k + 240)) =
      some ⟨position, UInt8.ofNat (k + 240), 3, if k = 0 then 0x90 else 0x80,
        if k = 4 then 0x8f else 0xbf, k⟩ := by
  interval_cases k <;> rfl

theorem decodeFrom_begin {p : PartialChar} {n : Nat} (hlow : 128 ≤ n) (hhigh : n < 256)
    (hp : PartialChar.begin? position (UInt8.ofNat n) = some p) :
    decodeFrom position none (UInt8.ofNat n :: bs) = decodeFrom (position + 1) (some p) bs := by
  have hascii : ¬ UInt8.ofNat n < 0x80 := by
    rw [UInt8.lt_iff_toNat_lt, toNat_ofNat hhigh]
    exact Nat.not_lt.mpr hlow
  rw [decodeFrom]
  simp only [hascii, if_false, hp]

/-! ### Continuation octets -/

section Continuation

variable {start owed bits : Nat} {lead : UInt8}

theorem inRange {low high : UInt8} (hj : j < 64) (hlow : low.toNat ≤ j + 128)
    (hhigh : j + 128 ≤ high.toNat) :
    (low ≤ UInt8.ofNat (j + 128) && UInt8.ofNat (j + 128) ≤ high) = true := by
  rw [Bool.and_eq_true, decide_eq_true_eq, decide_eq_true_eq, UInt8.le_iff_toNat_le,
    UInt8.le_iff_toNat_le, toNat_ofNat (by omega)]
  exact ⟨hlow, hhigh⟩

theorem toNat_mod (hj : j < 64) : (UInt8.ofNat (j + 128)).toNat % 64 = j := by
  rw [toNat_ofNat (by omega)]
  omega

/-- A continuation octet carries six bits. -/
theorem decodeFrom_continue (low high : UInt8) (hj : j < 64) (hlow : low.toNat ≤ j + 128)
    (hhigh : j + 128 ≤ high.toNat) :
    decodeFrom position (some ⟨start, lead, owed + 2, low, high, bits⟩)
        (UInt8.ofNat (j + 128) :: bs) =
      decodeFrom (position + 1) (some ⟨start, lead, owed + 1, 0x80, 0xbf, bits * 64 + j⟩) bs := by
  rw [decodeFrom]
  simp only [inRange hj hlow hhigh, if_true, toNat_mod hj, if_neg (by omega : ¬ owed + 2 ≤ 1)]
  rfl

/-- The last continuation octet completes the character. -/
theorem decodeFrom_last (hj : j < 64) :
    decodeFrom position (some ⟨start, lead, 1, 0x80, 0xbf, bits⟩) (UInt8.ofNat (j + 128) :: bs) =
      (Char.ofNat (bits * 64 + j) :: ·) <$> decodeFrom (position + 1) none bs := by
  have hrange : (0x80 ≤ UInt8.ofNat (j + 128) && UInt8.ofNat (j + 128) ≤ 0xbf) = true :=
    inRange hj (Nat.le_add_left 128 j) (show j + 128 ≤ 191 by omega)
  rw [decodeFrom]
  simp only [hrange, if_true, toNat_mod hj, Nat.le_refl]

end Continuation

/-! ### Characters -/

theorem decodeFrom_two (hlow : 2 ≤ k) (hhigh : k < 32) (hj : j < 64) :
    decodeFrom position none (UInt8.ofNat (k + 192) :: UInt8.ofNat (j + 128) :: bs) =
      (Char.ofNat (k * 64 + j) :: ·) <$> decodeFrom (position + 2) none bs := by
  rw [decodeFrom_begin (by omega) (by omega) (begin?_two hlow hhigh), decodeFrom_last hj]

theorem decodeFrom_three (hk : k < 16) (hi : i < 64) (hj : j < 64)
    (hoverlong : k = 0 → 32 ≤ i) (hsurrogate : k = 13 → i < 32) :
    decodeFrom position none
        (UInt8.ofNat (k + 224) :: UInt8.ofNat (i + 128) :: UInt8.ofNat (j + 128) :: bs) =
      (Char.ofNat ((k * 64 + i) * 64 + j) :: ·) <$> decodeFrom (position + 3) none bs := by
  have hlow : (if k = 0 then 0xa0 else 0x80 : UInt8).toNat ≤ i + 128 := by
    split
    · next h0 =>
      have := hoverlong h0
      exact show 160 ≤ i + 128 by omega
    · exact Nat.le_add_left 128 i
  have hhigh : i + 128 ≤ (if k = 13 then 0x9f else 0xbf : UInt8).toNat := by
    split
    · next h13 =>
      have := hsurrogate h13
      exact show i + 128 ≤ 159 by omega
    · exact show i + 128 ≤ 191 by omega
  rw [decodeFrom_begin (by omega) (by omega) (begin?_three hk),
    decodeFrom_continue _ _ hi hlow hhigh, decodeFrom_last hj]

theorem decodeFrom_four (hk : k < 5) (hh : h < 64) (hi : i < 64) (hj : j < 64)
    (hoverlong : k = 0 → 16 ≤ h) (hbeyond : k = 4 → h < 16) :
    decodeFrom position none (UInt8.ofNat (k + 240) :: UInt8.ofNat (h + 128) ::
        UInt8.ofNat (i + 128) :: UInt8.ofNat (j + 128) :: bs) =
      (Char.ofNat (((k * 64 + h) * 64 + i) * 64 + j) :: ·) <$>
        decodeFrom (position + 4) none bs := by
  have hlow : (if k = 0 then 0x90 else 0x80 : UInt8).toNat ≤ h + 128 := by
    split
    · next h0 =>
      have := hoverlong h0
      exact show 144 ≤ h + 128 by omega
    · exact Nat.le_add_left 128 h
  have hhigh : h + 128 ≤ (if k = 4 then 0x8f else 0xbf : UInt8).toNat := by
    split
    · next h4 =>
      have := hbeyond h4
      exact show h + 128 ≤ 143 by omega
    · exact show h + 128 ≤ 191 by omega
  rw [decodeFrom_begin (by omega) (by omega) (begin?_four hk),
    decodeFrom_continue _ _ hh hlow hhigh,
    decodeFrom_continue 0x80 0xbf hi (Nat.le_add_left 128 i) (show i + 128 ≤ 191 by omega),
    decodeFrom_last hj]

/-- **A character** is decoded from its octets, and the octets after it are left. -/
theorem decodeFrom_encoded (position : Nat) (c : Char) (bs : List UInt8) :
    decodeFrom position none (String.utf8EncodeChar c ++ bs) =
      (c :: ·) <$> decodeFrom (position + (String.utf8EncodeChar c).length) none bs := by
  have hvalid : c.toNat < 0xd800 ∨ 0xdfff < c.toNat ∧ c.toNat < 0x110000 := c.valid
  have hchar : ∀ {n : Nat}, n = c.toNat → Char.ofNat n = c := by
    rintro n rfl
    exact Char.ofNat_toNat c
  have hv : c.val.toNat = c.toNat := rfl
  unfold String.utf8EncodeChar
  simp only [hv]
  -- the number of octets, from one to four
  split
  · next h1 =>
    have hn := toNat_ofNat (n := c.toNat) (by omega)
    have hascii : UInt8.ofNat c.toNat < 0x80 := by
      rw [UInt8.lt_iff_toNat_lt, hn]
      exact show c.toNat < 128 by omega
    rw [List.singleton_append, decodeFrom]
    simp only [hascii, if_true, hn, hchar]
    rfl
  split
  · next h1 h2 =>
    have hk : c.toNat / 64 % 32 = c.toNat / 64 := by omega
    rw [hk]
    refine (decodeFrom_two (by omega) (by omega) (Nat.mod_lt _ (by decide))).trans ?_
    rw [hchar (by omega)]
    rfl
  split
  · next h1 h2 h3 =>
    have hk : c.toNat / 4096 % 16 = c.toNat / 4096 := by omega
    rw [hk]
    refine (decodeFrom_three (by omega) (Nat.mod_lt _ (by decide)) (Nat.mod_lt _ (by decide))
      (by omega) (by omega)).trans ?_
    rw [hchar (by omega)]
    rfl
  · next h1 h2 h3 =>
    have hk : c.toNat / 262144 % 8 = c.toNat / 262144 := by omega
    rw [hk]
    refine (decodeFrom_four (by omega) (Nat.mod_lt _ (by decide)) (Nat.mod_lt _ (by decide))
      (Nat.mod_lt _ (by decide)) (by omega) (by omega)).trans ?_
    rw [hchar (by omega)]
    rfl

/-! ### Texts -/

theorem decodeFrom_flatMap (position : Nat) (cs : List Char) :
    decodeFrom position none (cs.flatMap String.utf8EncodeChar) = .ok cs := by
  induction cs generalizing position with
  | nil => rfl
  | cons c cs ih =>
    rw [List.flatMap_cons, decodeFrom_encoded, ih]
    rfl

theorem toList_loop (octets : ByteArray) (start : Nat) (before : List UInt8) :
    ByteArray.toList.loop octets start before =
      before.reverse ++ octets.data.toList.drop start := by
  fun_induction ByteArray.toList.loop octets start before with
  | case1 start before hlt ih =>
    have hstart : start < octets.data.toList.length := by simpa using hlt
    rw [ih, List.drop_eq_getElem_cons hstart]
    simp [ByteArray.get!, hlt]
  | case2 start before hge =>
    rw [List.drop_eq_nil_of_le (by simpa using Nat.le_of_not_lt hge), List.append_nil]

/-- The octets of a text are those of its characters. -/
theorem toList_toUTF8 (s : String) :
    s.toUTF8.toList = s.toList.flatMap String.utf8EncodeChar := by
  conv_lhs => rw [← String.ofList_toList (s := s)]
  rw [String.toUTF8_eq_toByteArray, String.toByteArray_ofList, List.utf8Encode, ByteArray.toList,
    toList_loop, List.toList_data_toByteArray]
  rfl

/-- **A text** is decoded from its octets. -/
theorem decodeUtf8_toUTF8 (s : String) : decodeUtf8 s.toUTF8.toList = .ok s.toList := by
  rw [toList_toUTF8]
  exact decodeFrom_flatMap 0 s.toList

end Keypad.Text
