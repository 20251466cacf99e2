import Keypad.Text.Blank
import Keypad.Text.Line
import Mathlib.Data.List.DropRight

/-! # Words and lines

Words are cut at every blank character.  So a blank character splits the words of a text into those
before and those after it (`words_append_cons`), words joined by spaces are the words of the text
(`words_intercalate`), trimming keeps them (`words_trim`), and since every line end is blank, the
words of the lines of a text are the words of the text (`flatMap_words_lines`).  Conversely every
character that is not blank belongs to a word (`exists_mem_words`).

A carriage return, a line feed and the two together each end one line.  So making them all line
feeds keeps the lines (`lines_unifyLineEnds`), and no line holds one of them
(`isLineEnd_eq_false_of_mem_lines`). -/

namespace Keypad.Text

/-! ### Words -/

/-- A text without a character of the class is one piece. -/
theorem pieces_eq_singleton {p : Char → Bool} {cs : List Char} (h : ∀ c ∈ cs, p c = false) :
    pieces p cs = [cs] := by
  induction cs with
  | nil => rfl
  | cons c cs ih =>
    obtain ⟨hc, hcs⟩ := List.forall_mem_cons.mp h
    rw [pieces, hc, ih hcs]
    rfl

theorem pieces_append_cons {p : Char → Bool} {c : Char} (h : p c = true) (xs ys : List Char) :
    pieces p (xs ++ c :: ys) = pieces p xs ++ pieces p ys := by
  induction xs with
  | nil => simp [pieces, h]
  | cons x xs ih =>
    rw [List.cons_append, pieces, pieces, ih]
    cases p x with
    | true => rfl
    | false =>
      cases hx : pieces p xs with
      | nil => exact absurd hx (pieces_ne_nil p xs)
      | cons w ws => rfl

/-- **A blank character** stands between words. -/
theorem words_append_cons {c : Char} (h : isBlank c = true) (xs ys : List Char) :
    words (xs ++ c :: ys) = words xs ++ words ys := by
  rw [words, pieces_append_cons h, List.filter_append]
  rfl

theorem words_cons {c : Char} (h : isBlank c = true) (cs : List Char) :
    words (c :: cs) = words cs := words_append_cons h [] cs

/-- A text of blank characters has no words, and is the only one. -/
theorem words_eq_nil_iff {cs : List Char} : words cs = [] ↔ cs.all isBlank = true := by
  induction cs with
  | nil => exact iff_of_true rfl rfl
  | cons c cs ih =>
    cases hc : isBlank c with
    | true => rw [words_cons hc, ih, List.all_cons, hc, Bool.true_and]
    | false =>
      refine iff_of_false ?_ (by simp [hc])
      unfold words pieces
      rw [hc]
      cases pieces isBlank cs <;> simp

theorem words_append_of_all {xs ys : List Char} (h : ys.all isBlank = true) :
    words (xs ++ ys) = words xs := by
  cases ys with
  | nil => rw [List.append_nil]
  | cons y ys =>
    rw [List.all_cons, Bool.and_eq_true] at h
    rw [words_append_cons h.1, words_eq_nil_iff.mpr h.2, List.append_nil]

theorem words_dropWhile (cs : List Char) : words (cs.dropWhile isBlank) = words cs := by
  induction cs with
  | nil => rfl
  | cons c cs ih =>
    cases hc : isBlank c with
    | true => rw [List.dropWhile_cons_of_pos hc, ih, words_cons hc]
    | false => rw [List.dropWhile_cons_of_neg (by simp [hc])]

theorem words_trimEnd (cs : List Char) : words (trimEnd isBlank cs) = words cs := by
  have hcs : cs.rdropWhile isBlank ++ cs.rtakeWhile isBlank = cs :=
    List.rdropWhile_append_rtakeWhile
  have hall : (cs.rtakeWhile isBlank).all isBlank = true :=
    List.all_eq_true.mpr fun _ => List.mem_rtakeWhile_imp
  conv_rhs => rw [← hcs, words_append_of_all hall]
  rfl

/-- **Trimming** keeps the words. -/
theorem words_trim (cs : List Char) : words (trim isBlank cs) = words cs := by
  rw [trim, words_trimEnd, words_dropWhile]

/-- Trimming leaves nothing exactly of the texts of blank characters. -/
theorem trim_eq_nil_iff {cs : List Char} : trim isBlank cs = [] ↔ cs.all isBlank = true := by
  rw [← @words_eq_nil_iff cs, ← words_trim]
  constructor
  · intro h
    rw [h]
    rfl
  · intro h
    have hall := words_eq_nil_iff.mp h
    have hend : (cs.dropWhile isBlank).rdropWhile isBlank = trim isBlank cs := rfl
    by_contra hne
    -- the last character that is left is not blank
    have hlast := List.rdropWhile_last_not isBlank (cs.dropWhile isBlank) (hend ▸ hne)
    exact hlast (List.all_eq_true.mp (hend ▸ hall) _ (List.getLast_mem _))

/-- A text that is one word. -/
structure IsWord (cs : List Char) : Prop where
  ne_nil : cs ≠ []
  not_blank : ∀ c ∈ cs, isBlank c = false

theorem forall_not_blank_iff {cs : List Char} :
    (∀ c ∈ cs, isBlank c = false) ↔ cs.all (!isBlank ·) = true := by
  simp

theorem words_eq_singleton {w : List Char} (h : IsWord w) : words w = [w] := by
  rw [words, pieces_eq_singleton h.not_blank]
  simp [h.ne_nil]

/-- **Words joined by spaces** are the words of the text. -/
theorem words_intercalate {ws : List (List Char)} (h : ∀ w ∈ ws, IsWord w) :
    words ([' '].intercalate ws) = ws := by
  have hspace : isBlank ' ' = true := rfl
  induction ws with
  | nil => rfl
  | cons w ws ih =>
    obtain ⟨hw, hws⟩ := List.forall_mem_cons.mp h
    cases ws with
    | nil => rw [List.intercalate_singleton, words_eq_singleton hw]
    | cons w' ws =>
      rw [List.intercalate_cons_cons, List.append_assoc, List.singleton_append,
        words_append_cons hspace, words_eq_singleton hw, ih hws]
      rfl

/-! ### Characters -/

theorem exists_mem_pieces {p : Char → Bool} {cs : List Char} {c : Char} (hc : c ∈ cs)
    (hp : p c = false) : ∃ w ∈ pieces p cs, c ∈ w := by
  obtain ⟨xs, ys, rfl⟩ := List.append_of_mem hc
  clear hc
  induction xs with
  | nil =>
    rw [List.nil_append, pieces, hp]
    cases pieces p ys with
    | nil => exact ⟨[c], by simp, by simp⟩
    | cons w ws => exact ⟨c :: w, by simp, by simp⟩
  | cons x xs ih =>
    obtain ⟨w, hw, hcw⟩ := ih
    rw [List.cons_append, pieces]
    cases p x with
    | true => exact ⟨w, List.mem_cons_of_mem _ hw, hcw⟩
    | false =>
      cases hpieces : pieces p (xs ++ c :: ys) with
      | nil => exact absurd hpieces (pieces_ne_nil p _)
      | cons v vs =>
        rw [hpieces] at hw
        rcases List.mem_cons.mp hw with rfl | hw
        · exact ⟨x :: w, by simp, by simp [hcw]⟩
        · exact ⟨w, by simp [hw], hcw⟩

/-- **A character that is not blank** belongs to a word. -/
theorem exists_mem_words {cs : List Char} {c : Char} (hc : c ∈ cs) (hblank : isBlank c = false) :
    ∃ w ∈ words cs, c ∈ w := by
  obtain ⟨w, hw, hcw⟩ := exists_mem_pieces hc hblank
  refine ⟨w, List.mem_filter.mpr ⟨hw, ?_⟩, hcw⟩
  simpa using List.ne_nil_of_mem hcw

theorem mem_of_mem_trim {p : Char → Bool} {cs : List Char} {c : Char} (h : c ∈ trim p cs) :
    c ∈ cs := by
  have hrev := List.mem_reverse.mp h
  have hdrop := (List.dropWhile_sublist p).subset hrev
  exact (List.dropWhile_sublist p).subset (List.mem_reverse.mp hdrop)

theorem mem_intercalate {sep : List Char} {ws : List (List Char)} {c : Char}
    (h : c ∈ sep.intercalate ws) : c ∈ sep ∨ ∃ w ∈ ws, c ∈ w := by
  induction ws with
  | nil => simp at h
  | cons w ws ih =>
    cases ws with
    | nil => exact Or.inr ⟨w, by simp, by simpa using h⟩
    | cons w' ws =>
      rw [List.intercalate_cons_cons, List.append_assoc, List.mem_append, List.mem_append] at h
      rcases h with hw | hsep | hrest
      · exact Or.inr ⟨w, by simp, hw⟩
      · exact Or.inl hsep
      · exact (ih hrest).imp_right fun ⟨v, hv, hc⟩ => ⟨v, List.mem_cons_of_mem _ hv, hc⟩

/-! ### Lines -/

/-- Every line end is blank. -/
theorem isBlank_of_isLineEnd {c : Char} (h : isLineEnd c = true) : isBlank c = true := by
  simp only [isLineEnd, isBlank, isWhiteSpace, whiteSpaceRanges, List.any_cons, List.any_nil,
    Bool.or_eq_true, Bool.and_eq_true, decide_eq_true_eq, beq_iff_eq, Bool.false_eq_true] at h ⊢
  omega

/-- No line holds a line end. -/
theorem isLineEnd_eq_false_of_mem_lines {cs l : List Char} {c : Char} (hl : l ∈ lines cs)
    (hc : c ∈ l) : isLineEnd c = false := by
  fun_induction lines cs generalizing l with
  | case1 => cases hl
  | case2 cs ih =>
    rcases List.mem_cons.mp hl with rfl | hl
    · cases hc
    · exact ih hl hc
  | case3 d cs _ hd ih =>
    rcases List.mem_cons.mp hl with rfl | hl
    · cases hc
    · exact ih hl hc
  | case4 d cs _ hd hlines ih =>
    obtain rfl := List.mem_singleton.mp hl
    obtain rfl := List.mem_singleton.mp hc
    simpa using hd
  | case5 d cs _ hd first rest hlines ih =>
    rw [hlines] at ih
    rcases List.mem_cons.mp hl with rfl | hl
    · rcases List.mem_cons.mp hc with rfl | hc
      · simpa using hd
      · exact ih List.mem_cons_self hc
    · exact ih (List.mem_cons_of_mem _ hl) hc

theorem lines_cons_of_isLineEnd {c : Char} {cs : List Char} (h : isLineEnd c = true)
    (hc : c ≠ '\r' ∨ cs.head? ≠ some '\n') : lines (c :: cs) = [] :: lines cs := by
  rw [lines.eq_def]
  split
  · next heq => cases heq
  · next heq =>
    cases heq
    simp at hc
  · next heq =>
    cases heq
    rw [if_pos h]

theorem lines_cons_of_not_isLineEnd {c : Char} (h : isLineEnd c = false) (cs : List Char) :
    lines (c :: cs) = match lines cs with
      | [] => [[c]]
      | l :: ls => (c :: l) :: ls := by
  rw [lines.eq_def]
  split
  · next heq => cases heq
  · next heq =>
    cases heq
    cases h
  · next heq =>
    cases heq
    exact (if_neg (by simp [h])).trans (by cases lines cs <;> rfl)

/-- The words of a text that begins with some characters of the first line. -/
theorem words_append_eq (xs cs : List Char) : words (xs ++ cs) =
    match lines cs with
      | [] => words xs
      | l :: ls => words (xs ++ l) ++ ls.flatMap words := by
  -- for no characters before, this is the statement about all lines
  have hall : ∀ cs : List Char, words ([] ++ cs) =
      (match lines cs with
        | [] => words []
        | l :: ls => words ([] ++ l) ++ ls.flatMap words) →
      words cs = (lines cs).flatMap words := by
    intro cs h
    rw [List.nil_append] at h
    rw [h]
    cases lines cs <;> rfl
  fun_induction lines cs generalizing xs with
  | case1 => rw [List.append_nil]
  | case2 cs ih =>
    dsimp only
    rw [words_append_cons rfl, words_cons rfl, List.append_nil, hall cs (ih [])]
  | case3 c cs _ hc ih =>
    dsimp only
    rw [words_append_cons (isBlank_of_isLineEnd hc), List.append_nil, hall cs (ih [])]
  | case4 c cs _ hc hlines ih =>
    have h := ih (xs ++ [c])
    rw [hlines] at h
    rw [List.append_cons, h]
    simp
  | case5 c cs _ hc l ls hlines ih =>
    have h := ih (xs ++ [c])
    rw [hlines] at h
    rw [List.append_cons, h]
    simp

/-- **The words of the lines** of a text, line after line, are its words. -/
theorem flatMap_words_lines (cs : List Char) : (lines cs).flatMap words = words cs := by
  have h := words_append_eq [] cs
  rw [List.nil_append] at h
  rw [h]
  cases lines cs <;> rfl

/-- **Unified line ends** end the same lines. -/
theorem lines_unifyLineEnds (cs : List Char) : lines (unifyLineEnds cs) = lines cs := by
  fun_induction unifyLineEnds cs with
  | case1 => rfl
  | case2 cs ih =>
    rw [lines_cons_of_isLineEnd rfl (Or.inl (by decide)), ih]
    rfl
  | case3 c cs hpair ih =>
    have hhead : c ≠ '\r' ∨ cs.head? ≠ some '\n' := by
      by_contra h
      push Not at h
      obtain ⟨rest, rfl⟩ := List.head?_eq_some_iff.mp h.2
      exact hpair rest h.1 rfl
    by_cases hc : c = '\r'
    · subst hc
      rw [if_pos rfl, lines_cons_of_isLineEnd rfl (Or.inl (by decide)), ih,
        lines_cons_of_isLineEnd rfl hhead]
    · rw [if_neg hc]
      cases hend : isLineEnd c with
      | true =>
        rw [lines_cons_of_isLineEnd hend (Or.inl hc), ih, lines_cons_of_isLineEnd hend hhead]
      | false => rw [lines_cons_of_not_isLineEnd hend, ih, lines_cons_of_not_isLineEnd hend]

end Keypad.Text
