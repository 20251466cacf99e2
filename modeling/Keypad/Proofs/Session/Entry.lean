import Keypad.Proofs.Session.Shape
import Mathlib.Data.List.DropRight
import Mathlib.Data.List.SplitBy

/-! # Keys shown as entered

Of the digits, points and operators pressed one after the other some do nothing.  Which ones is told
by the keys kept so far (`isKept`): an operator is kept only right after a number key, and a point
only if the number being entered has none yet.

* `kept`: the keys that are kept, in order.
* `runs`: a sequence of keys cut into its operators and its maximal runs of number keys.
* `tokens_as_entered`: the tokens are the texts of the runs of the kept keys, so that the display
  shows every kept key once and in order. -/

namespace Keypad

/-- A key that enters a character: a number key or an operator key. -/
inductive EntryKey where
  | number (key : NumberKey)
  | operator (op : Operator)
  deriving DecidableEq

namespace EntryKey

/-- The key on the keypad. -/
def key : EntryKey → Key
  | .number k => .number k
  | .operator op => .operator op

/-- The label of the key. -/
def label (k : EntryKey) : String := k.key.label

def isNumber : EntryKey → Bool
  | .number _ => true
  | .operator _ => false

/-- The number keys since the last operator. -/
def openRun (kept : List EntryKey) : List EntryKey := kept.rtakeWhile isNumber

/-- **Whether a key is kept** after the keys kept so far. -/
def isKept (kept : List EntryKey) : EntryKey → Bool
  | .operator _ => kept.getLast?.any isNumber
  | .number k => !(k = .point && (openRun kept).contains (.number .point))

/-- The keys that are kept. -/
def kept (keys : List EntryKey) : List EntryKey :=
  keys.foldl (fun kept k => if isKept kept k then kept ++ [k] else kept) []

/-- The operators and the maximal runs of number keys. -/
def runs (keys : List EntryKey) : List (List EntryKey) :=
  keys.splitBy fun a b => a.isNumber && b.isNumber

/-- The labels of a run, one after the other. -/
def text (run : List EntryKey) : String := String.join (run.map label)

/-- The tokens of a sequence of kept keys. -/
def tokens (keys : List EntryKey) : List String := (runs keys).map text

theorem kept_concat (keys : List EntryKey) (k : EntryKey) :
    kept (keys ++ [k]) = if isKept (kept keys) k then kept keys ++ [k] else kept keys :=
  List.foldl_concat ..

/-! ### Runs -/

theorem isNumber_of_mem_openRun {l : List EntryKey} {k : EntryKey} (h : k ∈ openRun l) :
    k.isNumber = true := List.mem_rtakeWhile_imp h

theorem openRun_eq_nil_iff {l : List EntryKey} :
    openRun l = [] ↔ l.getLast?.any isNumber = false := by
  rcases List.eq_nil_or_concat l with rfl | ⟨init, k, rfl⟩
  · simp [openRun]
  · rw [List.concat_eq_append, openRun, List.getLast?_concat]
    cases hk : k.isNumber <;> simp [hk]

/-- A key that does not continue a run begins one. -/
theorem runs_concat {l : List EntryKey} {k : EntryKey}
    (h : openRun l = [] ∨ k.isNumber = false) : runs (l ++ [k]) = runs l ++ [[k]] := by
  have hlast : ∀ x ∈ l.getLast?, (x.isNumber && k.isNumber) = false := by
    intro x hx
    rcases h with hl | hk
    · have := openRun_eq_nil_iff.mp hl
      rw [Option.mem_def.mp hx] at this
      simp at this
      simp [this]
    · simp [hk]
  exact List.splitBy_append_cons [] hlast

/-- The last run is the open one. -/
theorem runs_eq {l : List EntryKey} (h : openRun l ≠ []) :
    runs l = runs (l.rdropWhile isNumber) ++ [openRun l] := by
  have hchain : (openRun l).IsChain fun a b => (a.isNumber && b.isNumber) = true := by
    refine (List.pairwise_of_forall_mem_list fun a ha b hb => ?_).isChain
    rw [isNumber_of_mem_openRun ha, isNumber_of_mem_openRun hb]
    rfl
  have hlast : ∀ x ∈ (l.rdropWhile isNumber).getLast?, ∀ y ∈ (openRun l).head?,
      (x.isNumber && y.isNumber) = false := by
    intro x hx y _
    obtain ⟨hne, hx⟩ := List.mem_getLast?_eq_getLast hx
    have := List.rdropWhile_last_not isNumber l hne
    rw [← hx] at this
    simp [this]
  have hl : l.rdropWhile isNumber ++ openRun l = l := List.rdropWhile_append_rtakeWhile
  conv_lhs => rw [← hl]
  rw [runs, List.splitBy_append hlast, List.splitBy_of_isChain h hchain]
  rfl

/-- A number key that continues a run extends it. -/
theorem runs_concat_number {l : List EntryKey} (h : openRun l ≠ []) (k : NumberKey) :
    runs (l ++ [number k]) = runs (l.rdropWhile isNumber) ++ [openRun l ++ [number k]] := by
  have hrun : openRun (l ++ [number k]) = openRun l ++ [number k] :=
    List.rtakeWhile_concat_pos _ _ _ rfl
  have hdrop : (l ++ [number k]).rdropWhile isNumber = l.rdropWhile isNumber :=
    List.rdropWhile_concat_pos _ _ _ rfl
  have hne : openRun (l ++ [number k]) ≠ [] := by
    rw [hrun]
    exact List.append_ne_nil_of_left_ne_nil h _
  rw [runs_eq hne, hrun, hdrop]

/-! ### Texts -/

theorem text_singleton (k : EntryKey) : text [k] = k.label := by
  simp [text]

theorem text_concat (run : List EntryKey) (k : EntryKey) :
    text (run ++ [k]) = text run ++ k.label := by
  simp [text]

/-- The texts of the runs hold every key once and in order. -/
theorem join_tokens (keys : List EntryKey) :
    String.join (tokens keys) = String.join (keys.map label) := by
  have hjoin : ∀ l : List (List EntryKey),
      String.join (l.map text) = String.join (l.flatten.map label) := by
    intro l
    induction l with
    | nil => rfl
    | cons run l ih =>
      rw [List.map_cons, String.join_cons, ih, List.flatten_cons, List.map_append,
        String.join_append]
      rfl
  have hflat : (runs keys).flatten = keys := List.flatten_splitBy _ _
  rw [tokens, hjoin, hflat]

theorem mem_toList_text {run : List EntryKey} (h : ∀ k ∈ run, k.isNumber = true) {c : Char} :
    c ∈ (text run).toList ↔ ∃ k : NumberKey, number k ∈ run ∧ k.char = c := by
  induction run with
  | nil => simp [text]
  | cons k run ih =>
    obtain ⟨hk, hrun⟩ := List.forall_mem_cons.mp h
    have htext : text (k :: run) = k.label ++ text run := by simp [text]
    cases k with
    | operator op => cases hk
    | number k =>
      have hlabel : (number k).label.toList = [k.char] := k.toList_label
      rw [htext, String.toList_append, List.mem_append, hlabel, ih hrun]
      simp
      tauto

theorem isOperator_text {run : List EntryKey} (h : ∀ k ∈ run, k.isNumber = true) :
    Token.isOperator (text run) = false := by
  cases ho : Token.isOperator (text run) with
  | false => rfl
  | true =>
    obtain ⟨op, hop⟩ := Token.isOperator_iff.mp ho
    have hmem : op.char ∈ (text run).toList := by simp [hop, Operator.symbol]
    obtain ⟨k, -, hk⟩ := (mem_toList_text h).mp hmem
    have hc := k.char_cases
    rw [hk] at hc
    cases op <;> revert hc <;> decide

/-! ### One key -/

theorem tokens_eq {l : List EntryKey} (h : openRun l ≠ []) :
    tokens l = tokens (l.rdropWhile isNumber) ++ [text (openRun l)] := by
  rw [tokens, runs_eq h, List.map_append]
  rfl

theorem tokens_concat_of_begins {l : List EntryKey} {k : EntryKey}
    (h : openRun l = [] ∨ k.isNumber = false) : tokens (l ++ [k]) = tokens l ++ [k.label] := by
  rw [tokens, runs_concat h, List.map_append, List.map_singleton, text_singleton]
  rfl

/-- The number that the next number key continues is the open run. -/
theorem openNumber?_tokens (l : List EntryKey) : Expression.openNumber? (tokens l) =
    if openRun l = [] then none else some (text (openRun l)) := by
  by_cases h : openRun l = []
  · rw [if_pos h]
    rcases List.eq_nil_or_concat l with rfl | ⟨init, k, rfl⟩
    · rfl
    · rw [List.concat_eq_append] at h ⊢
      cases k with
      | number k => simp [openRun, List.rtakeWhile_concat, isNumber] at h
      | operator op =>
        rw [tokens_concat_of_begins (Or.inr rfl)]
        exact Expression.openNumber?_append_symbol _ op
  · rw [if_neg h, tokens_eq h]
    exact Expression.openNumber?_append _ (isOperator_text fun _ => isNumber_of_mem_openRun)

/-- **A number key** is entered if it is kept, and does nothing otherwise. -/
theorem typeChar_tokens (l : List EntryKey) (k : NumberKey) :
    Expression.typeChar (tokens l) k =
      tokens (if isKept l (number k) then l ++ [number k] else l) := by
  unfold Expression.typeChar
  rw [openNumber?_tokens]
  by_cases h : openRun l = []
  · have hkept : isKept l (number k) = true := by simp [isKept, h]
    rw [if_pos h, if_pos hkept, tokens_concat_of_begins (Or.inl h)]
    rfl
  · have hpoint : (text (openRun l)).contains '.' = (openRun l).contains (number .point) := by
      rw [Bool.eq_iff_iff, String.contains_char_eq, decide_eq_true_eq, List.contains_iff_mem,
        mem_toList_text fun _ => isNumber_of_mem_openRun]
      constructor
      · rintro ⟨⟨c, hc⟩, hmem, rfl⟩
        exact hmem
      · exact fun hmem => ⟨.point, hmem, rfl⟩
    rw [if_neg h]
    by_cases hk : k = .point ∧ number .point ∈ openRun l
    · obtain ⟨rfl, hmem⟩ := hk
      have hkept : isKept l (number .point) = false := by simp [isKept, hmem]
      simp [hpoint, hmem, hkept]
    · have hkept : isKept l (number k) = true := by
        simpa [isKept] using not_and_or.mp hk
      have hext : tokens (l ++ [number k]) =
          (tokens l).dropLast ++ [text (openRun l) ++ k.label] := by
        rw [tokens_eq h, List.dropLast_concat, tokens, runs_concat_number h, List.map_append,
          List.map_singleton, text_concat]
        rfl
      rw [if_pos hkept, hext]
      simp only [hpoint]
      rw [if_neg (by simpa using not_and.mp hk)]

/-- **An operator key** is entered if it is kept, and does nothing otherwise. -/
theorem enterOperator_tokens (l : List EntryKey) (op : Operator) :
    Expression.enterOperator ⟨tokens l, false⟩ op =
      ⟨tokens (if isKept l (operator op) then l ++ [operator op] else l), false⟩ := by
  unfold Expression.enterOperator
  rw [openNumber?_tokens]
  by_cases h : openRun l = []
  · have hkept : isKept l (operator op) = false := openRun_eq_nil_iff.mp h
    simp [h, hkept]
  · have hkept : isKept l (operator op) = true := by
      show l.getLast?.any isNumber = true
      simpa using mt openRun_eq_nil_iff.mpr h
    rw [if_neg h, if_pos hkept, tokens_concat_of_begins (Or.inr rfl)]
    rfl

end EntryKey

namespace Session

open EntryKey

/-- The session after some keys. -/
def enter (s : Session) (keys : List EntryKey) : Session :=
  s.run (keys.map fun k => .press k.label)

theorem enter_concat (s : Session) (keys : List EntryKey) (k : EntryKey) :
    s.enter (keys ++ [k]) = ((s.enter keys).press k.key).1 := by
  rw [← after_press]
  simp [enter, run, EntryKey.label]

theorem settings_enter (s : Session) (keys : List EntryKey) :
    (s.enter keys).settings = s.settings := by
  induction keys using List.reverseRecOn with
  | nil => rfl
  | append_singleton keys k ih => rw [enter_concat, press_settings, ih]

/-- The expression after the keys holds the tokens of those kept. -/
theorem expression_enter {s : Session} (hs : s.expression = .empty) (keys : List EntryKey) :
    (s.enter keys).expression = ⟨tokens (kept keys), false⟩ := by
  induction keys using List.reverseRecOn with
  | nil => exact hs
  | append_singleton keys k ih =>
    rw [enter_concat, kept_concat]
    cases k with
    | number k =>
      show (s.enter keys).expression.enterNumber k = _
      rw [ih, ← typeChar_tokens]
      rfl
    | operator op =>
      show (s.enter keys).expression.enterOperator op = _
      rw [ih, enterOperator_tokens]

/-- **Keys are shown as entered.**  From an empty expression on, the tokens are the operators and
the maximal runs of number keys among the keys that are kept; one after the other they hold every
kept key once and in order; and the display shows them with single spaces between. -/
theorem tokens_as_entered {s : Session} (hs : s.expression = .empty) (keys : List EntryKey) :
    (s.enter keys).expression.tokens = (runs (kept keys)).map text ∧
      String.join (s.enter keys).expression.tokens = String.join ((kept keys).map label) ∧
      (s.enter keys).display = if kept keys = [] then s.settings.emptyDisplay else
        " ".intercalate ((runs (kept keys)).map text) := by
  have hexpr := expression_enter hs keys
  refine ⟨?_, ?_, ?_⟩
  · rw [hexpr]
    rfl
  · rw [hexpr]
    exact join_tokens _
  · have hnil : (tokens (kept keys)).isEmpty = true ↔ kept keys = [] := by
      simp [tokens, runs, List.splitBy_eq_nil]
    unfold Session.display Expression.display
    rw [settings_enter, hexpr]
    simp only [hnil]
    rfl

/-- A second operator, one at the start and a second point do nothing; after `C` the keys count
from the beginning. -/
theorem tokens_as_entered_after_clear :
    let s := (start .standard).run [.press "1", .press "/", .press "0", .press "=", .press "C"]
    let keys : List EntryKey := [operator .mul, number .point, number ⟨'1', rfl⟩, number .point,
      operator .sub, operator .add, number .point, operator .div]
    s.expression = .empty ∧
      (s.enter keys).expression.tokens = [".1", "-", ".", "/"] ∧
        (s.enter keys).display = ".1 - . /" := by
  intro s keys
  have hs : s.expression = .empty := rfl
  obtain ⟨htokens, -, hdisplay⟩ := tokens_as_entered hs keys
  exact ⟨hs, htokens.trans (by decide), hdisplay.trans (by decide)⟩

end Session

end Keypad
