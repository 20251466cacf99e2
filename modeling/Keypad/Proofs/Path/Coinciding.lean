import Keypad.Proofs.CommandLine.AllOrNothing

/-! # Names of transcripts that coincide

The name of a transcript is the name of its script with the points of the suffixes made underscores.
Names may hold underscores of their own, so the scripts `v1.2.txt` and `v1_2.txt` have the same
transcript.

* `IsSuffixPoint`: a position holds a point of the suffixes.  Points at the very start are none, and
  a name that ends in a point has none.
* `getElem?_flatName`: at these positions, and nowhere else, the name of the transcript differs from
  that of the script.
* `Coincide`: wherever two names differ, one has an underscore in the place of a point of the
  suffixes of the other; `flatName_eq_iff`: exactly then the two transcripts have the same name.
* `transcripts_eq_iff`: so two scripts of one folder have the same transcript exactly if their names
  coincide, and otherwise no run on the one changes what is read from the transcript of the
  other. -/

namespace Keypad

namespace Path

/-- The position holds a point of the suffixes of a name. -/
def IsSuffixPoint (name : List Char) (i : ℕ) : Prop :=
  name[i]? = some '.' ∧ name.getLast? ≠ some '.' ∧ ∃ j < i, name[j]? ≠ some '.'

instance (name : List Char) (i : ℕ) : Decidable (IsSuffixPoint name i) :=
  inferInstanceAs (Decidable (_ ∧ _ ∧ _))

/-- **Names coincide** if they have the same length and, wherever they differ, one of them has an
underscore in the place of a point of the suffixes of the other. -/
def Coincide (n m : List Char) : Prop :=
  n.length = m.length ∧ ∀ i < n.length, n[i]? ≠ m[i]? →
    IsSuffixPoint n i ∧ m[i]? = some '_' ∨ n[i]? = some '_' ∧ IsSuffixPoint m i

instance (n m : List Char) : Decidable (Coincide n m) :=
  inferInstanceAs (Decidable (_ ∧ ∀ i < _, _))

/-! ### Flat names -/

/-- The first character that is no point stands behind the points at the start. -/
theorem getElem?_length_takeWhile (name : List Char) :
    name[(name.takeWhile isPoint).length]? ≠ some '.' := by
  have hhead := List.head?_dropWhile_not isPoint name
  have hget : name[(name.takeWhile isPoint).length]? = (name.dropWhile isPoint).head? := by
    conv_lhs => rw [← List.takeWhile_append_dropWhile (p := isPoint) (l := name)]
    rw [List.getElem?_append_right (by simp), List.head?_eq_getElem?]
    simp
  rw [hget]
  intro hpoint
  rw [hpoint] at hhead
  cases hhead

theorem getElem?_of_lt_takeWhile {name : List Char} {i : ℕ}
    (h : i < (name.takeWhile isPoint).length) : name[i]? = some '.' := by
  have hmem := List.mem_takeWhile_imp (List.getElem_mem h)
  conv_lhs => rw [← List.takeWhile_append_dropWhile (p := isPoint) (l := name)]
  rw [List.getElem?_append_left h, List.getElem?_eq_getElem h, isPoint_iff.mp hmem]

/-- The points of the suffixes are those behind the points at the start. -/
theorem isSuffixPoint_iff {name : List Char} {i : ℕ} (hlast : name.getLast? ≠ some '.')
    (hi : name[i]? = some '.') :
    IsSuffixPoint name i ↔ (name.takeWhile isPoint).length ≤ i := by
  constructor
  · rintro ⟨-, -, j, hj, hne⟩
    by_contra hlt
    exact hne (getElem?_of_lt_takeWhile (by omega))
  · intro hle
    have hne : (name.takeWhile isPoint).length ≠ i := by
      rintro rfl
      exact getElem?_length_takeWhile name hi
    exact ⟨hi, hlast, _, by omega, getElem?_length_takeWhile name⟩

/-- **The name of a transcript** has underscores in the place of the points of the suffixes. -/
theorem getElem?_flatName (name : List Char) (i : ℕ) :
    (flatName name)[i]? = if IsSuffixPoint name i then some '_' else name[i]? := by
  by_cases hlast : name.getLast? = some '.'
  · rw [flatName_of_point hlast, if_neg fun h => h.2.1 hlast]
  rw [flatName_of_ne_point hlast]
  by_cases hi : i < (name.takeWhile isPoint).length
  · have hpoint := getElem?_of_lt_takeWhile hi
    rw [if_neg (mt (isSuffixPoint_iff hlast hpoint).mp (by omega)), List.getElem?_append_left hi,
      List.getElem?_eq_getElem hi, hpoint,
      isPoint_iff.mp (List.mem_takeWhile_imp (List.getElem_mem hi))]
  have hle : (name.takeWhile isPoint).length ≤ i := Nat.le_of_not_lt hi
  have hrest : (name.dropWhile isPoint)[i - (name.takeWhile isPoint).length]? = name[i]? := by
    conv_rhs => rw [← List.takeWhile_append_dropWhile (p := isPoint) (l := name)]
    rw [List.getElem?_append_right hle]
  rw [List.getElem?_append_right hle, List.getElem?_map, hrest]
  split
  · next h =>
    rw [h.1]
    rfl
  · next h =>
    cases hc : name[i]? with
    | none => rfl
    | some c =>
      have hne : c ≠ '.' := by
        rintro rfl
        exact h ((isSuffixPoint_iff hlast hc).mpr hle)
      rw [Option.map_some, flatChar, if_neg (mt isPoint_iff.mp hne)]

/-! ### Coinciding names -/

theorem Coincide.symm {n m : List Char} (h : Coincide n m) : Coincide m n := by
  obtain ⟨hlength, hdiffer⟩ := h
  refine ⟨hlength.symm, fun i hi hne => ?_⟩
  rcases hdiffer i (hlength ▸ hi) (Ne.symm hne) with ⟨hpoint, hm⟩ | ⟨hn, hpoint⟩
  · exact .inr ⟨hm, hpoint⟩
  · exact .inl ⟨hpoint, hn⟩

/-- Where coinciding names differ and the one holds a point, it is a point of its suffixes. -/
theorem Coincide.isSuffixPoint {n m : List Char} (h : Coincide n m) {i : ℕ}
    (hm : m[i]? = some '.') (hne : n[i]? ≠ some '.') : IsSuffixPoint m i := by
  obtain ⟨hlt, -⟩ := List.getElem?_eq_some_iff.mp hm
  rcases h.2 i (h.1 ▸ hlt) (fun heq => hne (heq.trans hm)) with ⟨hpoint, -⟩ | ⟨-, hpoint⟩
  · exact absurd hpoint.1 hne
  · exact hpoint

/-- Where coinciding names agree, both have a point of the suffixes or neither. -/
theorem Coincide.isSuffixPoint_of_eq {n m : List Char} (h : Coincide n m) {i : ℕ}
    (heq : n[i]? = m[i]?) (hi : IsSuffixPoint n i) : IsSuffixPoint m i := by
  obtain ⟨hpoint, hlast, j, hj, hne⟩ := hi
  refine ⟨heq ▸ hpoint, fun hlast' => ?_, ?_⟩
  · -- the point at the end of the one name would belong to its suffixes
    rw [List.getLast?_eq_getElem?] at hlast hlast'
    rw [h.1] at hlast
    have hend := h.isSuffixPoint hlast' hlast
    rw [← List.getLast?_eq_getElem?] at hlast'
    exact hend.2.1 hlast'
  · by_cases hj' : m[j]? = some '.'
    · obtain ⟨-, -, k, hk, hne'⟩ := h.isSuffixPoint hj' hne
      exact ⟨k, by omega, hne'⟩
    · exact ⟨j, hj, hj'⟩

/-- **Flat names** are equal exactly if the names coincide. -/
theorem flatName_eq_iff {n m : List Char} : flatName n = flatName m ↔ Coincide n m := by
  constructor
  · intro h
    refine ⟨?_, fun i _ hne => ?_⟩
    · rw [← length_flatName n, h, length_flatName]
    have hi := congrArg (·[i]?) h
    simp only [getElem?_flatName] at hi
    split_ifs at hi with hn hm hm
    · exact absurd (hn.1.trans hm.1.symm) hne
    · exact .inl ⟨hn, hi.symm⟩
    · exact .inr ⟨hi, hm⟩
    · exact absurd hi hne
  · intro h
    refine List.ext_getElem? fun i => ?_
    rw [getElem?_flatName, getElem?_flatName]
    by_cases heq : n[i]? = m[i]?
    · have hiff : IsSuffixPoint n i ↔ IsSuffixPoint m i :=
        ⟨h.isSuffixPoint_of_eq heq, h.symm.isSuffixPoint_of_eq heq.symm⟩
      simp only [hiff, heq]
    · have hlt : i < n.length := by
        by_contra hge
        rw [List.getElem?_eq_none (by omega), List.getElem?_eq_none (by have := h.1; omega)] at heq
        exact heq rfl
      rcases h.2 i hlt heq with ⟨hn, hm⟩ | ⟨hn, hm⟩
      · have hne : ¬ IsSuffixPoint m i := fun hpoint => by cases hm.symm.trans hpoint.1
        rw [if_pos hn, if_neg hne, hm]
      · have hne : ¬ IsSuffixPoint n i := fun hpoint => by cases hn.symm.trans hpoint.1
        rw [if_pos hm, if_neg hne, hn]

/-! ### Transcripts -/

variable {p q : Path}

theorem transcriptName_eq_iff {name other : String} :
    transcriptName name = transcriptName other ↔ Coincide name.toList other.toList := by
  rw [← flatName_eq_iff, transcriptName, transcriptName, String.append_left_inj,
    String.ofList_inj]

theorem transcriptName_ne_dots (name : String) : transcriptName name ≠ ".." := by
  intro h
  have hlength := length_transcriptName name
  rw [h] at hlength
  have hdots : "..".length = 2 := rfl
  omega

theorem transcript_of_name_ne_empty (h : p.name ≠ "") :
    p.transcript = .ok ⟨p.root, p.names.dropLast ++ [transcriptName p.name]⟩ := by
  rw [transcript, if_neg (by simpa using h)]

/-- A run on a script changes nothing that is read in its folder under another name than that of its
transcript. -/
theorem read_replay {output : Path} {other : String}
    (houtput : p.transcript = .ok output) (hroot : q.root = p.root)
    (hq : q.names = p.names.dropLast ++ [other]) (hne : other ≠ transcriptName p.name)
    (hdots : other ≠ "..") (t : FileTree) : (CommandLine.replay t p).tree.read q = t.read q := by
  obtain ⟨-, hroot', hnames⟩ := transcript_eq_ok houtput
  unfold CommandLine.replay
  rw [houtput]
  cases CommandLine.refusal? t p with
  | some stop => rfl
  | none =>
    rcases Script.replay_cases .standard t p output with ⟨-, htree⟩ | ⟨-, text, -, -, hwrite⟩
    · exact congrArg (·.read q) htree
    · exact FileTree.read_of_write hwrite (hroot.trans hroot'.symm) hnames hq hne hdots

/-- **The transcripts of two scripts** in one folder are the same exactly if the names of the
scripts coincide.  Otherwise a run on the one script changes nothing that is read from the
transcript of the other. -/
theorem transcripts_eq_iff (hp : p.name ≠ "") (hq : q.name ≠ "")
    (hroot : p.root = q.root) (hfolder : p.names.dropLast = q.names.dropLast) :
    ∃ a b, p.transcript = .ok a ∧ q.transcript = .ok b ∧
      (a = b ↔ Coincide p.name.toList q.name.toList) ∧
      (a ≠ b → ∀ t, (CommandLine.replay t p).tree.read b = t.read b) := by
  have ha := transcript_of_name_ne_empty hp
  have hb := transcript_of_name_ne_empty hq
  refine ⟨_, _, ha, hb, ?_, fun hab t => ?_⟩
  · rw [← transcriptName_eq_iff]
    simp [hroot, hfolder]
  · refine read_replay ha (by rw [hroot]) (by rw [hfolder]) (fun heq => hab ?_)
      (transcriptName_ne_dots _) t
    rw [hroot, hfolder, heq]

/-- A point at the start is kept, so a hidden script has a transcript of its own. -/
theorem transcripts_ne_hidden :
    let p : Path := ⟨"", ["keys", ".old.txt"]⟩
    let q : Path := ⟨"", ["keys", "_old.txt"]⟩
    p.name ≠ "" ∧ q.name ≠ "" ∧ p.root = q.root ∧ p.names.dropLast = q.names.dropLast ∧
      ∃ a b, p.transcript = .ok a ∧ q.transcript = .ok b ∧ a ≠ b ∧
        ∀ t, (CommandLine.replay t p).tree.read b = t.read b := by
  intro p q
  have hp : p.name ≠ "" := by decide
  have hq : q.name ≠ "" := by decide
  obtain ⟨a, b, ha, hb, hiff, hread⟩ := transcripts_eq_iff hp hq rfl rfl
  have hne : a ≠ b := mt hiff.mp (by decide +kernel)
  exact ⟨hp, hq, rfl, rfl, a, b, ha, hb, hne, hread hne⟩

/-- Two versions of a script have one transcript. -/
theorem transcripts_eq_versions :
    let p : Path := ⟨"", ["v1.2.txt"]⟩
    let q : Path := ⟨"", ["v1_2.txt"]⟩
    p ≠ q ∧ p.name ≠ "" ∧ q.name ≠ "" ∧ p.root = q.root ∧
      p.names.dropLast = q.names.dropLast ∧ p.transcript = q.transcript ∧
      p.transcript = .ok ⟨"", ["v1_2_txt_display.txt"]⟩ := by
  decide +kernel

end Path

end Keypad
