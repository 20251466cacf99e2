import Keypad.Path
import Keypad.Proofs.Text.Words

/-! # Suffixes of names

The last suffix of a name is found from its end, all suffixes from its start.  They agree: where a
name has suffixes, the last of them is the last suffix (`suffix_eq_of_getLast?_suffixes`).  The
converse fails, because points at the very start are not counted for the suffixes.

The transcript of a script stands in the same folder (`transcript_eq_ok`), under a longer name
(`length_transcriptName`): that of the script with an underscore for every point after the first
character that is no point (`flatName_of_ne_point`), and an ending. -/

namespace Keypad

namespace Path

theorem isPoint_iff {c : Char} : isPoint c = true ↔ c = '.' := beq_iff_eq

/-- The last suffix stands behind the last point. -/
theorem suffixOf_append {start ending : List Char} (hstart : start ≠ []) (hending : ending ≠ [])
    (hpoints : ∀ c ∈ ending, isPoint c = false) :
    suffixOf (start ++ '.' :: ending) = '.' :: ending := by
  have hafter : (start ++ '.' :: ending).reverse.takeWhile (!isPoint ·) = ending.reverse := by
    rw [List.reverse_append, List.reverse_cons, List.append_assoc,
      List.takeWhile_append_of_pos (by simpa using hpoints), List.singleton_append,
      List.takeWhile_cons_of_neg (by decide), List.append_nil]
  have hbefore : (start ++ '.' :: ending).take
      ((start ++ '.' :: ending).length - (ending.length + 1)) = start := by
    rw [List.length_append, List.length_cons, Nat.add_sub_cancel, List.take_left]
  have hany : (start ++ '.' :: ending).any isPoint = true :=
    List.any_eq_true.mpr ⟨'.', by simp, rfl⟩
  rw [suffixOf, hafter, List.reverse_reverse, hbefore, hany, if_pos (by simp [hstart, hending])]

theorem exists_last_point {name : List Char} (h : '.' ∈ name) :
    ∃ start ending, name = start ++ '.' :: ending ∧ ∀ c ∈ ending, isPoint c = false := by
  obtain ⟨after, before, hname, hafter⟩ := List.eq_append_cons_of_mem (List.mem_reverse.mpr h)
  refine ⟨before.reverse, after.reverse, ?_, fun c hc => ?_⟩
  · rw [← List.reverse_reverse name, hname, List.reverse_append, List.reverse_cons,
      List.append_assoc, List.singleton_append]
  · rw [← Bool.not_eq_true, isPoint_iff]
    rintro rfl
    exact hafter (List.mem_reverse.mp hc)

/-- The last of the pieces between points stands behind the last point. -/
theorem getLast?_tail_pieces {start ending : List Char}
    (hpoints : ∀ c ∈ ending, isPoint c = false) :
    (Text.pieces isPoint (start ++ '.' :: ending)).tail.getLast? = some ending := by
  have hpoint : isPoint '.' = true := rfl
  rw [Text.pieces_append_cons hpoint, Text.pieces_eq_singleton hpoints,
    List.tail_append_of_ne_nil (Text.pieces_ne_nil _ _), List.getLast?_concat]

/-- A name with suffixes ends in the last of them, and something stands before it. -/
theorem exists_of_getLast?_suffixesOf {name s : List Char}
    (h : (suffixesOf name).getLast? = some s) :
    ∃ start ending, start ≠ [] ∧ ending ≠ [] ∧ (∀ c ∈ ending, isPoint c = false) ∧
      name = start ++ '.' :: ending ∧ s = '.' :: ending := by
  unfold suffixesOf at h
  split at h
  · cases h
  next hlast =>
    have hname := List.takeWhile_append_dropWhile (p := isPoint) (l := name)
    have hhead := List.head?_dropWhile_not isPoint name
    generalize name.dropWhile isPoint = rest at hname hhead h
    by_cases hpoint : '.' ∈ rest
    · obtain ⟨start, ending, rfl, hpoints⟩ := exists_last_point hpoint
      rw [List.getLast?_map, getLast?_tail_pieces hpoints, Option.map_some, Option.some_inj] at h
      refine ⟨name.takeWhile isPoint ++ start, ending, ?_, ?_, hpoints, ?_, h.symm⟩
      · intro hnil
        obtain ⟨-, rfl⟩ := List.append_eq_nil_iff.mp hnil
        cases hhead
      · rintro rfl
        rw [← hname] at hlast
        simp [isPoint] at hlast
      · rw [List.append_assoc, hname]
    · have hpoints : ∀ c ∈ rest, isPoint c = false := by
        intro c hc
        rw [← Bool.not_eq_true, isPoint_iff]
        rintro rfl
        exact hpoint hc
      rw [Text.pieces_eq_singleton hpoints] at h
      cases h

/-- **The last of the suffixes** is the last suffix. -/
theorem suffix_eq_of_getLast?_suffixes {p : Path} {s : String} (h : p.suffixes.getLast? = some s) :
    p.suffix = s := by
  rw [suffixes, List.getLast?_map, Option.map_eq_some_iff] at h
  obtain ⟨ending, hlast, rfl⟩ := h
  obtain ⟨start, ending, hstart, hending, hpoints, hname, rfl⟩ :=
    exists_of_getLast?_suffixesOf hlast
  rw [suffix, hname, suffixOf_append hstart hending hpoints]

/-! ### Names of transcripts -/

/-- A character of the suffixes as it stands in the name of a transcript. -/
def flatChar (c : Char) : Char := if isPoint c then '_' else c

/-- The pieces between the points of a text, each with its point, follow the first piece. -/
theorem exists_first_piece (cs : List Char) : ∃ first others,
    Text.pieces isPoint cs = first :: others ∧ (∀ c ∈ first, isPoint c = false) ∧
      cs = first ++ (others.map ('.' :: ·)).flatten := by
  induction cs with
  | nil => exact ⟨[], [], rfl, by simp, rfl⟩
  | cons c cs ih =>
    obtain ⟨first, others, hpieces, hfirst, hcs⟩ := ih
    rw [Text.pieces, hpieces]
    cases hc : isPoint c with
    | true =>
      refine ⟨[], first :: others, rfl, by simp, ?_⟩
      rw [isPoint_iff.mp hc, List.map_cons, List.flatten_cons, List.cons_append, ← hcs,
        List.nil_append]
    | false =>
      refine ⟨c :: first, others, rfl, List.forall_mem_cons.mpr ⟨hc, hfirst⟩, ?_⟩
      rw [List.cons_append, ← hcs]

theorem flatName_of_point {name : List Char} (h : name.getLast? = some '.') :
    flatName name = name := by
  have hsuffixes : suffixesOf name = [] := by
    rw [suffixesOf, h]
    rfl
  rw [flatName, hsuffixes]
  simp

/-- **The points after the first character that is no point** become underscores. -/
theorem flatName_of_ne_point {name : List Char} (h : name.getLast? ≠ some '.') :
    flatName name = name.takeWhile isPoint ++ (name.dropWhile isPoint).map flatChar := by
  obtain ⟨first, others, hpieces, hfirst, hrest⟩ := exists_first_piece (name.dropWhile isPoint)
  have hlast : ¬ name.getLast?.any isPoint = true := by
    rw [Option.any_eq_true]
    rintro ⟨c, hc, hpoint⟩
    exact h (isPoint_iff.mp hpoint ▸ hc)
  have hsuffixes : suffixesOf name = others.map ('.' :: ·) := by
    rw [suffixesOf, if_neg hlast, hpieces, List.tail_cons]
  have hkeep : first.map flatChar = first := by
    refine (List.map_congr_left fun c hc => ?_).trans (List.map_id first)
    rw [flatChar, hfirst c hc]
    rfl
  have hname : name = (name.takeWhile isPoint ++ first) ++ (others.map ('.' :: ·)).flatten := by
    rw [List.append_assoc, ← hrest, List.takeWhile_append_dropWhile]
  have hstem : name.take (name.length - (others.map ('.' :: ·)).flatten.length) =
      name.takeWhile isPoint ++ first := by
    generalize (others.map ('.' :: ·)).flatten = ending at hname
    generalize name.takeWhile isPoint ++ first = stem at hname
    rw [hname, List.length_append, Nat.add_sub_cancel, List.take_left]
  rw [flatName, hsuffixes, hstem, hrest, List.map_append, hkeep, List.append_assoc]
  rfl

theorem length_flatName (name : List Char) : (flatName name).length = name.length := by
  by_cases h : name.getLast? = some '.'
  · rw [flatName_of_point h]
  · rw [flatName_of_ne_point h, List.length_append, List.length_map, ← List.length_append,
      List.takeWhile_append_dropWhile]

theorem length_transcriptName (name : String) :
    name.length + 12 ≤ (transcriptName name).length := by
  have hend : transcriptEnd.length = 12 := rfl
  have hflat := length_flatName name.toList
  rw [transcriptName, String.length_append, String.length_ofList, hend]
  rw [String.length_toList] at hflat
  omega

/-- **The name of a transcript** is never that of its script. -/
theorem transcriptName_ne (name : String) : transcriptName name ≠ name := by
  intro h
  have hlength := length_transcriptName name
  rw [h] at hlength
  omega

theorem name_eq_of_names {p : Path} {init : List String} {last : String}
    (h : p.names = init ++ [last]) : p.name = last := by
  rw [name, h, List.getLast?_concat, Option.getD_some]

/-- A transcript is in the folder of its script. -/
theorem transcript_eq_ok {p output : Path} (h : p.transcript = .ok output) :
    p.names = p.names.dropLast ++ [p.name] ∧ output.root = p.root ∧
      output.names = p.names.dropLast ++ [transcriptName p.name] := by
  unfold transcript at h
  split at h
  · cases h
  next hname =>
  cases h
  refine ⟨?_, rfl, rfl⟩
  have hne : p.names ≠ [] := by
    intro hnil
    rw [name, hnil] at hname
    exact hname rfl
  have hconcat := List.dropLast_append_getLast hne
  rw [name_eq_of_names hconcat.symm, hconcat]

end Path

end Keypad
