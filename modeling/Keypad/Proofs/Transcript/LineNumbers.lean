import Keypad.Proofs.CommandLine.AllOrNothing
import Keypad.Proofs.Transcript.Checked

/-! # The line numbers of failures

A replay that ends with a text that is no label gives the number of its line.  A file ends its lines
with line feeds, with carriage returns, or with both in this order (`countLineEnds`).  A script ends
them also with eight other blank characters, the separators (`isSeparator`), among them the form
feed.

* `FirstUnknown`: the first word of a text that is no label, with what stands before and after it;
  every text with such a word has one (`exists_firstUnknown`).
* `firstUnknown?_resume`: its line has as many lines before it as there are line ends of the file
  and separators before the word.
* `replay_line_number`: so the number is that of the line of the file exactly if no separator stands
  before the word. -/

namespace Keypad

namespace Text

/-! ### Ends of lines -/

/-- The line ends of a file: line feeds, carriage returns, and both in this order as one. -/
def countLineEnds : List Char → ℕ
  | [] => 0
  | '\r' :: '\n' :: cs => countLineEnds cs + 1
  | c :: cs => countLineEnds cs + if c = '\n' ∨ c = '\r' then 1 else 0

/-- Whether a character ends a line of a script but not of a file. -/
def isSeparator (c : Char) : Bool := isLineEnd c && c != '\n' && c != '\r'

/-- The lines of a text that begins with some characters of the first of them. -/
def resume (xs : List Char) : List (List Char) → List (List Char)
  | [] => [xs]
  | l :: ls => (xs ++ l) :: ls

theorem resume_lines_cons (xs : List Char) {c : Char} (h : isLineEnd c = false) (cs : List Char) :
    resume xs (lines (c :: cs)) = resume (xs ++ [c]) (lines cs) := by
  rw [lines_cons_of_not_isLineEnd h]
  cases lines cs <;> simp [resume]

theorem resume_lines_append (xs : List Char) {ys : List Char}
    (h : ∀ c ∈ ys, isLineEnd c = false) (cs : List Char) :
    resume xs (lines (ys ++ cs)) = resume (xs ++ ys) (lines cs) := by
  induction ys generalizing xs with
  | nil => simp
  | cons y ys ih =>
    obtain ⟨hy, hys⟩ := List.forall_mem_cons.mp h
    rw [List.cons_append, resume_lines_cons xs hy, ih _ hys, List.append_assoc]
    rfl

/-- What ends a line is a line end of a file or a separator. -/
theorem count_isLineEnd (c : Char) :
    ((if c = '\n' ∨ c = '\r' then 1 else 0) + if isSeparator c then 1 else 0) =
      if isLineEnd c then 1 else 0 := by
  unfold isSeparator
  by_cases hfile : c = '\n' ∨ c = '\r'
  · rcases hfile with rfl | rfl <;> rfl
  · rw [if_neg hfile]
    rw [not_or] at hfile
    simp [hfile.1, hfile.2]

/-- The first line begins as its text does, unless it is empty. -/
theorem isBlank_head?_of_lines {cs l : List Char} {ls : List (List Char)}
    (h : lines cs = l :: ls) (hcs : ∀ c ∈ cs.head?, isBlank c = true) :
    ∀ c ∈ l.head?, isBlank c = true := by
  unfold lines at h
  split at h
  · cases h
  · obtain ⟨rfl, -⟩ := List.cons.inj h
    simp
  next c cs _ =>
  split at h
  · obtain ⟨rfl, -⟩ := List.cons.inj h
    simp
  · split at h
    · obtain ⟨rfl, -⟩ := List.cons.inj h
      exact hcs
    · obtain ⟨rfl, -⟩ := List.cons.inj h
      exact hcs

/-! ### Words -/

theorem words_append_of_getLast? {xs : List Char} (h : ∀ c ∈ xs.getLast?, isBlank c = true)
    (ys : List Char) : words (xs ++ ys) = words xs ++ words ys := by
  cases hlast : xs.getLast? with
  | none =>
    rw [List.getLast?_eq_none_iff.mp hlast]
    rfl
  | some c =>
    obtain ⟨init, rfl⟩ := List.getLast?_eq_some_iff.mp hlast
    have hc := h c hlast
    rw [List.append_assoc, List.singleton_append, words_append_cons hc, words_append_cons hc]
    simp [words, pieces]

theorem words_append_of_head? (xs : List Char) {ys : List Char}
    (h : ∀ c ∈ ys.head?, isBlank c = true) : words (xs ++ ys) = words xs ++ words ys := by
  cases ys with
  | nil => simp [words, pieces]
  | cons c ys =>
    have hc := h c rfl
    rw [words_append_cons hc, words_cons hc]

/-- A text begins with characters of a class, up to the first that is not in it. -/
theorem exists_span (p : Char → Bool) (cs : List Char) : ∃ xs ys, cs = xs ++ ys ∧
    (∀ c ∈ xs, p c = true) ∧ ∀ c ∈ ys.head?, p c = false := by
  refine ⟨cs.takeWhile p, cs.dropWhile p, List.takeWhile_append_dropWhile.symm,
    fun _ => List.mem_takeWhile_imp, fun c hc => ?_⟩
  have hhead := List.head?_dropWhile_not p cs
  rw [Option.mem_def.mp hc] at hhead
  simpa using hhead

/-- A text with words is blank characters, its first word and a rest that does not continue it. -/
theorem exists_first_word {cs w : List Char} {ws : List (List Char)} (h : words cs = w :: ws) :
    ∃ blanks rest, cs = blanks ++ (w ++ rest) ∧ blanks.all isBlank = true ∧
      (∀ c ∈ rest.head?, isBlank c = true) ∧ words rest = ws := by
  obtain ⟨blanks, start, rfl, hblanks, hstart⟩ := exists_span isBlank cs
  obtain ⟨first, rest, rfl, hfirst, hrest⟩ := exists_span (!isBlank ·) start
  simp only [Bool.not_eq_true', Bool.not_eq_false'] at hfirst hrest
  have hlast : ∀ c ∈ blanks.getLast?, isBlank c = true :=
    fun c hc => hblanks c (List.mem_of_getLast? hc)
  have hnil : words blanks = [] := words_eq_nil_iff.mpr (List.all_eq_true.mpr hblanks)
  rw [words_append_of_getLast? hlast, hnil, List.nil_append, words_append_of_head? first hrest] at h
  have hne : first ≠ [] := by
    rintro rfl
    -- no character can follow the blank ones
    cases rest with
    | nil => cases h
    | cons c rest => cases (hstart c rfl).symm.trans (hrest c rfl)
  rw [words_eq_singleton ⟨hne, hfirst⟩] at h
  obtain ⟨rfl, hws⟩ := List.cons.inj h
  exact ⟨blanks, rest, rfl, List.all_eq_true.mpr hblanks, hrest, hws⟩

end Text

namespace Transcript

/-- **The first word of a text that is no label**, with what stands before and after it. -/
structure FirstUnknown (text before key after : List Char) : Prop where
  text_eq : text = before ++ (key ++ after)
  isWord : Text.IsWord key
  not_label : String.ofList key ∉ Key.labels
  labels : ∀ w ∈ Text.words before, String.ofList w ∈ Key.labels
  left : ∀ c ∈ before.getLast?, Text.isBlank c = true
  right : ∀ c ∈ after.head?, Text.isBlank c = true

/-- A text with a word that is no label has a first one. -/
theorem exists_firstUnknown {text : List Char}
    (h : ∃ w ∈ Text.words text, String.ofList w ∉ Key.labels) :
    ∃ before key after, FirstUnknown text before key after := by
  generalize hwords : Text.words text = ws at h
  induction ws generalizing text with
  | nil => simp at h
  | cons w ws ih =>
    obtain ⟨blanks, rest, rfl, hblanks, hrest, hws⟩ := Text.exists_first_word hwords
    have hlast : ∀ c ∈ blanks.getLast?, Text.isBlank c = true :=
      fun c hc => List.all_eq_true.mp hblanks c (List.mem_of_getLast? hc)
    have hnil : Text.words blanks = [] := Text.words_eq_nil_iff.mpr hblanks
    have hword : Text.IsWord w :=
      ⟨Text.ne_nil_of_mem_words (hwords ▸ List.mem_cons_self),
        fun _ => Text.isBlank_eq_false_of_mem_words (hwords ▸ List.mem_cons_self)⟩
    by_cases hw : String.ofList w ∈ Key.labels
    · have hlater : ∃ v ∈ ws, String.ofList v ∉ Key.labels := by
        obtain ⟨v, hv, hunknown⟩ := h
        rcases List.mem_cons.mp hv with rfl | hv
        · exact absurd hw hunknown
        · exact ⟨v, hv, hunknown⟩
      obtain ⟨before, key, after, rfl, hkey, hunknown, hlabels, hleft, hright⟩ := ih hws hlater
      have hne : before ≠ [] := by
        rintro rfl
        obtain ⟨c, cs, rfl⟩ := List.exists_cons_of_ne_nil hkey.ne_nil
        cases (hkey.not_blank c List.mem_cons_self).symm.trans (hrest c rfl)
      have hhead : ∀ c ∈ before.head?, Text.isBlank c = true := by
        rwa [List.head?_append_of_ne_nil _ hne] at hrest
      refine ⟨blanks ++ (w ++ before), key, after, by simp, hkey, hunknown, ?_, ?_, hright⟩
      · rw [Text.words_append_of_getLast? hlast, hnil, List.nil_append,
          Text.words_append_of_head? w hhead, Text.words_eq_singleton hword]
        exact List.forall_mem_cons.mpr ⟨hw, hlabels⟩
      · rwa [← List.append_assoc, List.getLast?_append_of_ne_nil _ hne]
    · exact ⟨blanks, w, rest, rfl, hword, hw, by simp [hnil], hlast, hrest⟩

/-! ### Numbers of lines -/

theorem firstUnknown?_resume_nil (number : ℕ) (cs : List Char) :
    firstUnknown? number ((Text.resume [] (Text.lines cs)).map String.ofList) =
      firstUnknown? number (scriptLines cs) := by
  unfold scriptLines
  cases Text.lines cs <;> rfl

/-- A line of labels only is skipped. -/
theorem firstUnknown?_resume_ended (number : ℕ) {xs text cs : List Char}
    (hlines : Text.lines text = [] :: Text.lines cs)
    (hlabels : ∀ w ∈ Text.words xs, String.ofList w ∈ Key.labels) :
    firstUnknown? number ((Text.resume xs (Text.lines text)).map String.ofList) =
      firstUnknown? (number + 1) ((Text.resume [] (Text.lines cs)).map String.ofList) := by
  have hnone : (Token.split (String.ofList xs)).find? (· ∉ Key.labels) = none := by
    rw [split_ofList, find?_unknown_eq_none_iff]
    exact List.forall_mem_map.mpr hlabels
  rw [hlines, Text.resume, List.append_nil, List.map_cons, firstUnknown?_cons, hnone,
    Option.map_none, Option.none_or, firstUnknown?_resume_nil]
  rfl

/-- A line is the first with a text that is no label. -/
theorem firstUnknown?_resume_word (number : ℕ) {xs key after : List Char} (hkey : Text.IsWord key)
    (hunknown : String.ofList key ∉ Key.labels)
    (hlabels : ∀ w ∈ Text.words xs, String.ofList w ∈ Key.labels)
    (hleft : ∀ c ∈ xs.getLast?, Text.isBlank c = true)
    (hright : ∀ c ∈ after.head?, Text.isBlank c = true) :
    firstUnknown? number ((Text.resume xs (Text.lines (key ++ after))).map String.ofList) =
      some (number, String.ofList key) := by
  have hend : ∀ c ∈ key, Text.isLineEnd c = false := by
    intro c hc
    rw [← Bool.not_eq_true]
    intro hlineEnd
    cases (hkey.not_blank c hc).symm.trans (Text.isBlank_of_isLineEnd hlineEnd)
  obtain ⟨l, ls, hl, hlines⟩ : ∃ l ls, (∀ c ∈ l.head?, Text.isBlank c = true) ∧
      Text.resume xs (Text.lines (key ++ after)) = (xs ++ (key ++ l)) :: ls := by
    rw [Text.resume_lines_append xs hend]
    cases hafter : Text.lines after with
    | nil => exact ⟨[], [], by simp, by simp [Text.resume]⟩
    | cons l ls => exact ⟨l, ls, Text.isBlank_head?_of_lines hafter hright, by simp [Text.resume]⟩
  have hwords : Text.words (xs ++ (key ++ l)) = Text.words xs ++ key :: Text.words l := by
    rw [Text.words_append_of_getLast? hleft, Text.words_append_of_head? key hl,
      Text.words_eq_singleton hkey]
    rfl
  have hfind : (Token.split (String.ofList (xs ++ (key ++ l)))).find? (· ∉ Key.labels) =
      some (String.ofList key) := by
    rw [split_ofList, hwords, List.map_append, List.map_cons]
    exact find?_unknown_append (List.forall_mem_map.mpr hlabels) hunknown
  rw [hlines, List.map_cons, firstUnknown?_cons, hfind]
  rfl

/-- A word does not begin with a line feed. -/
theorem head?_ne_lineFeed {key : List Char} (hkey : Text.IsWord key) (after : List Char)
    {cs : List Char} (hcs : ∀ ds, cs ≠ '\n' :: ds) :
    (cs ++ (key ++ after)).head? ≠ some '\n' := by
  intro hlf
  cases cs with
  | nil =>
    obtain ⟨k, ks, rfl⟩ := List.exists_cons_of_ne_nil hkey.ne_nil
    cases Option.some.inj hlf
    cases hkey.not_blank '\n' List.mem_cons_self
  | cons d ds =>
    cases Option.some.inj hlf
    exact hcs ds rfl

/-- **The number of a line** is counted by the ends of lines before it. -/
theorem firstUnknown?_resume {before key after : List Char} (hkey : Text.IsWord key)
    (hunknown : String.ofList key ∉ Key.labels) (hright : ∀ c ∈ after.head?, Text.isBlank c = true)
    (number : ℕ) (xs : List Char)
    (hlabels : ∀ w ∈ Text.words (xs ++ before), String.ofList w ∈ Key.labels)
    (hleft : ∀ c ∈ (xs ++ before).getLast?, Text.isBlank c = true) :
    firstUnknown? number
        ((Text.resume xs (Text.lines (before ++ (key ++ after)))).map String.ofList) =
      some (number + Text.countLineEnds before + before.countP Text.isSeparator,
        String.ofList key) := by
  fun_induction Text.countLineEnds before generalizing number xs with
  | case1 =>
    rw [List.append_nil] at hlabels hleft
    exact firstUnknown?_resume_word number hkey hunknown hlabels hleft hright
  | case2 cs ih =>
    rw [Text.words_append_cons rfl, Text.words_cons rfl, List.forall_mem_append] at hlabels
    have hleft' : ∀ c ∈ cs.getLast?, Text.isBlank c = true := fun c hc => hleft c (by
      rw [List.append_cons, List.append_cons]
      exact List.mem_getLast?_append_of_mem_getLast? hc)
    have hcr : Text.isSeparator '\r' = false := rfl
    have hlf : Text.isSeparator '\n' = false := rfl
    rw [List.cons_append, List.cons_append, firstUnknown?_resume_ended number rfl hlabels.1,
      ih (number + 1) [] hlabels.2 hleft', List.countP_cons_of_neg (by simp [hcr]),
      List.countP_cons_of_neg (by simp [hlf])]
    congr 2
    omega
  | case3 c cs hpair ih =>
    have hcount := Text.count_isLineEnd c
    rw [List.countP_cons]
    cases hc : Text.isLineEnd c with
    | true =>
      rw [Text.words_append_cons (Text.isBlank_of_isLineEnd hc), List.forall_mem_append] at hlabels
      have hleft' : ∀ c ∈ cs.getLast?, Text.isBlank c = true := fun d hd => hleft d (by
        rw [List.append_cons]
        exact List.mem_getLast?_append_of_mem_getLast? hd)
      have hhead : c ≠ '\r' ∨ (cs ++ (key ++ after)).head? ≠ some '\n' := by
        by_cases hcr : c = '\r'
        · exact Or.inr (head?_ne_lineFeed hkey after fun ds => hpair ds hcr)
        · exact Or.inl hcr
      have hlines := Text.lines_cons_of_isLineEnd hc hhead
      rw [hc, if_pos rfl] at hcount
      rw [List.cons_append, firstUnknown?_resume_ended number hlines hlabels.1,
        ih (number + 1) [] hlabels.2 hleft']
      congr 2
      omega
    | false =>
      rw [hc, if_neg Bool.false_ne_true] at hcount
      rw [List.append_cons] at hlabels hleft
      rw [List.cons_append, Text.resume_lines_cons xs hc, ih number (xs ++ [c]) hlabels hleft]
      congr 2
      omega

/-- The number of the line of a word, counted by the ends of lines before it. -/
def lineNumber (before : List Char) : ℕ :=
  1 + Text.countLineEnds before + before.countP Text.isSeparator

theorem FirstUnknown.firstUnknown?_eq {text before key after : List Char}
    (h : FirstUnknown text before key after) :
    firstUnknown? 1 (scriptLines text) = some (lineNumber before, String.ofList key) := by
  obtain ⟨rfl, hkey, hunknown, hlabels, hleft, hright⟩ := h
  rw [← firstUnknown?_resume_nil]
  exact firstUnknown?_resume hkey hunknown hright 1 [] hlabels hleft

variable {t : FileTree} {input : Path} {loaded text : List Char}

/-- The replay of a file ends with its first word that is no label, whether or not the line ends of
the file are unified. -/
theorem FirstUnknown.error_replay {before key after : List Char}
    (h : FirstUnknown text before key after) (hload : Script.load t input = .ok loaded)
    (htext : loaded = text ∨ loaded = Text.unifyLineEnds text) (settings : Settings)
    (output : Path) : (Script.replay settings t input output).error =
      some (.key ⟨lineNumber before, .unknown (String.ofList key)⟩) := by
  have hlines : scriptLines loaded = scriptLines text := by
    rcases htext with rfl | rfl
    · rfl
    · rw [scriptLines, scriptLines, Text.lines_unifyLineEnds]
  have hreplay := Script.replay_of_load settings output hload
  rw [hlines, h.firstUnknown?_eq] at hreplay
  exact hreplay.1

theorem lineNumber_eq_iff {before : List Char} :
    lineNumber before = 1 + Text.countLineEnds before ↔
      ∀ c ∈ before, Text.isSeparator c = false := by
  have hzero : before.countP Text.isSeparator = 0 ↔ ∀ c ∈ before, Text.isSeparator c = false := by
    rw [List.countP_eq_zero]
    simp
  rw [← hzero, lineNumber]
  omega

/-- **The line numbers of failures.**  If a word of a script is no label, then its replay ends with
the first such word.  The number of its line is one more than the line ends of the file and the
separators before the word, so it is that of the line of the file exactly if there are no
separators before the word. -/
theorem replay_line_number (settings : Settings) (output : Path)
    (hload : Script.load t input = .ok loaded)
    (htext : loaded = text ∨ loaded = Text.unifyLineEnds text)
    (hunknown : ∃ w ∈ Text.words text, String.ofList w ∉ Key.labels) :
    (∃ before key after, FirstUnknown text before key after) ∧
      ∀ before key after, FirstUnknown text before key after →
        ∃ n, (Script.replay settings t input output).error =
            some (.key ⟨n, .unknown (String.ofList key)⟩) ∧
          n = 1 + Text.countLineEnds before + before.countP Text.isSeparator ∧
          (n = 1 + Text.countLineEnds before ↔ ∀ c ∈ before, Text.isSeparator c = false) ∧
          (Failure.mk n (.unknown (String.ofList key))).message =
            "Line " ++ toString n ++ ": Unknown key: " ++ Text.quoted (String.ofList key) := by
  refine ⟨exists_firstUnknown hunknown, fun before _ _ h => ⟨lineNumber before, ?_⟩⟩
  exact ⟨h.error_replay hload htext settings output, rfl, lineNumber_eq_iff, message_unknown _ _⟩

/-- Carriage returns, both kinds of line end together and a blank line are counted as in the
file. -/
theorem replay_line_number_carriage_returns :
    let text := "1 +\r\n\r2 ^ 3 =".toList
    let t : FileTree := ⟨[], [(["keys.txt"], .file (.plain "1 +\r\n\r2 ^ 3 =".toUTF8.toList))]⟩
    Script.load t ⟨"", ["keys.txt"]⟩ = .ok (Text.unifyLineEnds text) ∧
      (∃ w ∈ Text.words text, String.ofList w ∉ Key.labels) ∧
      FirstUnknown text "1 +\r\n\r2 ".toList "^".toList " 3 =".toList ∧
      Text.countLineEnds "1 +\r\n\r2 ".toList = 2 ∧
      (Script.replay .standard t ⟨"", ["keys.txt"]⟩ ⟨"", ["out.log"]⟩).error =
        some (.key ⟨3, .unknown "^"⟩) := by
  intro text t
  have hload : Script.load t ⟨"", ["keys.txt"]⟩ = .ok (Text.unifyLineEnds text) := by
    rw [Script.load, if_pos (by decide +kernel),
      FileTree.read_name (by simp) (by decide) (by decide) rfl]
    decide +kernel
  have hunknown : ∃ w ∈ Text.words text, String.ofList w ∉ Key.labels := by decide +kernel
  have hfirst : FirstUnknown text "1 +\r\n\r2 ".toList "^".toList " 3 =".toList := {
    text_eq := by decide +kernel
    isWord := ⟨by decide, Text.forall_not_blank_iff.mpr (by decide)⟩
    not_label := by decide
    labels := by decide +kernel
    left := by rintro c ⟨⟩; rfl
    right := by rintro c ⟨⟩; rfl }
  obtain ⟨-, hnumber⟩ := replay_line_number .standard ⟨"", ["out.log"]⟩ hload (.inr rfl) hunknown
  obtain ⟨n, herror, hn, -, -⟩ := hnumber _ _ _ hfirst
  have hthree : n = 3 := hn.trans (by decide +kernel)
  exact ⟨hload, hunknown, hfirst, by decide +kernel, hthree ▸ herror⟩

/-- A form feed ends a line of a script, not of its file. -/
theorem replay_line_number_form_feed :
    let text := "1 =\x0c^".toList
    let t : FileTree := ⟨[], [(["keys.txt"], .file (.plain "1 =\x0c^".toUTF8.toList))]⟩
    Script.load t ⟨"", ["keys.txt"]⟩ = .ok text ∧
      FirstUnknown text "1 =\x0c".toList "^".toList [] ∧
      Text.countLineEnds "1 =\x0c".toList = 0 ∧
      (Script.replay .standard t ⟨"", ["keys.txt"]⟩ ⟨"", ["out.log"]⟩).error =
        some (.key ⟨2, .unknown "^"⟩) := by
  intro text t
  have hload : Script.load t ⟨"", ["keys.txt"]⟩ = .ok text := by
    rw [Script.load, if_pos (by decide +kernel),
      FileTree.read_name (by simp) (by decide) (by decide) rfl]
    decide +kernel
  have hfirst : FirstUnknown text "1 =\x0c".toList "^".toList [] := {
    text_eq := by decide +kernel
    isWord := ⟨by decide, Text.forall_not_blank_iff.mpr (by decide)⟩
    not_label := by decide
    labels := by decide +kernel
    left := by rintro c ⟨⟩; rfl
    right := nofun }
  exact ⟨hload, hfirst, by decide +kernel,
    hfirst.error_replay hload (.inl rfl) .standard ⟨"", ["out.log"]⟩⟩

end Transcript

end Keypad
