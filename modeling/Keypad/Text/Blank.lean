/-! # Blank characters and words

The blank characters are the white space of Unicode together with the four information separators
`U+001C` to `U+001F`.  A text is cut into words at every blank character, and trimming removes the
blank characters at both ends. -/

namespace Keypad.Text

/-- First and last code point of every range of white space. -/
def whiteSpaceRanges : List (Nat × Nat) :=
  [(0x09, 0x0d), (0x20, 0x20), (0x85, 0x85), (0xa0, 0xa0), (0x1680, 0x1680), (0x2000, 0x200a),
   (0x2028, 0x2029), (0x202f, 0x202f), (0x205f, 0x205f), (0x3000, 0x3000)]

/-- Whether a character is white space. -/
def isWhiteSpace (c : Char) : Bool :=
  whiteSpaceRanges.any fun (first, last) => first ≤ c.toNat && c.toNat ≤ last

/-- Whether a character separates words. -/
def isBlank (c : Char) : Bool := isWhiteSpace c || (0x1c ≤ c.toNat && c.toNat ≤ 0x1f)

/-- The pieces of a text between the characters of a class; there is one more piece than there are
such characters. -/
def pieces (p : Char → Bool) : List Char → List (List Char)
  | [] => [[]]
  | c :: cs =>
    if p c then [] :: pieces p cs
    else match pieces p cs with
      | [] => [[c]]
      | w :: ws => (c :: w) :: ws

theorem pieces_ne_nil (p : Char → Bool) (cs : List Char) : pieces p cs ≠ [] := by
  cases cs with
  | nil => simp [pieces]
  | cons c cs =>
    unfold pieces
    split
    · simp
    · split <;> simp

/-- A piece holds no character of the class. -/
theorem eq_false_of_mem_pieces {p : Char → Bool} {cs w : List Char} {c : Char}
    (hw : w ∈ pieces p cs) (hc : c ∈ w) : p c = false := by
  induction cs generalizing w with
  | nil =>
    simp only [pieces, List.mem_singleton] at hw
    simp [hw] at hc
  | cons d cs ih =>
    unfold pieces at hw
    split at hw
    · rcases List.mem_cons.mp hw with rfl | hw
      · cases hc
      · exact ih hw hc
    · next hd =>
      split at hw
      · next h => exact absurd h (pieces_ne_nil p cs)
      · next v vs h =>
        rcases List.mem_cons.mp hw with rfl | hw
        · rcases List.mem_cons.mp hc with rfl | hc
          · simpa using hd
          · exact ih (h ▸ List.mem_cons_self) hc
        · exact ih (h ▸ List.mem_cons_of_mem _ hw) hc

/-- The words of a text: the non-empty pieces between blank characters. -/
def words (cs : List Char) : List (List Char) :=
  (pieces isBlank cs).filter (!·.isEmpty)

theorem ne_nil_of_mem_words {cs w : List Char} (h : w ∈ words cs) : w ≠ [] := by
  simpa using (List.mem_filter.mp h).2

theorem isBlank_eq_false_of_mem_words {cs w : List Char} {c : Char} (hw : w ∈ words cs)
    (hc : c ∈ w) : isBlank c = false :=
  eq_false_of_mem_pieces (List.mem_filter.mp hw).1 hc

/-- A text without the characters of a class at its end. -/
def trimEnd (p : Char → Bool) (cs : List Char) : List Char :=
  (cs.reverse.dropWhile p).reverse

/-- A text without the characters of a class at its two ends. -/
def trim (p : Char → Bool) (cs : List Char) : List Char :=
  trimEnd p (cs.dropWhile p)

end Keypad.Text
