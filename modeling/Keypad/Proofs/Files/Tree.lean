import Keypad.Files.Extraction
import Keypad.Proofs.Evaluation.Stacks
import Mathlib.Tactic.SplitIfs

/-! # Places in a tree

Putting a node in a place changes what is in that place only (`node?_put`), and the directories on
the way to it are made only where nothing is (`node?_makeParents`).  A name is followed from a
directory only (`follow_cons_eq_ok_iff`).  So names that are followed below a directory lead to the
place below it that they stand for (`eq_append_of_follow`); without `..` they do so wherever the
directories on the way are there (`follow_eq`).  A path that leads to a file leads to its folder and
then ends in its name (`exists_folder`). -/

namespace Keypad

namespace FileTree

/-! ### Nodes -/

/-- The working directory and the directories on the way to it are always there. -/
theorem node?_of_prefix {t : FileTree} {names : List String} (h : names <+: t.home) :
    t.node? names = some .directory := if_pos (List.isPrefixOf_iff_prefix.mpr h)

theorem node?_nil (t : FileTree) : t.node? [] = some .directory :=
  node?_of_prefix List.nil_prefix

/-- A place without a directory is not on the way to the working directory. -/
theorem not_prefix_home {t : FileTree} {names : List String}
    (h : t.node? names ≠ some .directory) : ¬ names <+: t.home :=
  mt node?_of_prefix h

@[simp] theorem home_put (t : FileTree) (names : List String) (node : Node) :
    (t.put names node).home = t.home := by
  unfold put
  split <;> rfl

/-- Replacing the node of a place changes what is found in that place only. -/
theorem find?_replace {entries : List (List String × Node)} {names : List String}
    (hany : entries.any (·.1 = names) = true) (node : Node) (other : List String) :
    ((entries.map fun e => if e.1 = names then (names, node) else e).find? (·.1 = other)).map
        (·.2) =
      if other = names then some node else (entries.find? (·.1 = other)).map (·.2) := by
  have hsame : ∀ e : List String × Node,
      decide ((if e.1 = names then (names, node) else e).1 = other) = decide (e.1 = other) := by
    intro e
    by_cases he : e.1 = names <;> simp [he]
  simp only [List.find?_map, Function.comp_def, hsame, Option.map_map]
  cases hfind : entries.find? fun e => decide (e.1 = other) with
  | none =>
    have hne : other ≠ names := by
      rintro rfl
      obtain ⟨e, hmem, he⟩ := List.any_eq_true.mp hany
      exact List.find?_eq_none.mp hfind e hmem he
    rw [if_neg hne]
    rfl
  | some found =>
    have hplace := List.find?_some hfind
    simp only [decide_eq_true_eq] at hplace
    by_cases ho : other = names <;> simp [hplace, ho]

/-- Adding a node in a place where none is changes what is found in that place only. -/
theorem find?_concat {entries : List (List String × Node)} {names : List String}
    (hany : ¬ entries.any (·.1 = names) = true) (node : Node) (other : List String) :
    ((entries ++ [(names, node)]).find? (·.1 = other)).map (·.2) =
      if other = names then some node else (entries.find? (·.1 = other)).map (·.2) := by
  rw [List.find?_append]
  by_cases ho : other = names
  · subst ho
    have hnone : (entries.find? fun e => decide (e.1 = other)) = none := by
      rw [List.find?_eq_none]
      intro e hmem he
      exact hany (List.any_eq_true.mpr ⟨e, hmem, he⟩)
    simp [hnone]
  · simp [ho, Ne.symm ho]

/-- Putting a node in a place changes what is in that place only. -/
theorem node?_put (t : FileTree) {names : List String} (hnames : ¬ names <+: t.home) (node : Node)
    (other : List String) : (t.put names node).node? other =
      if other = names then some node else t.node? other := by
  by_cases hhome : other <+: t.home
  · have hne : other ≠ names := fun heq => hnames (heq ▸ hhome)
    rw [if_neg hne, node?_of_prefix hhome, node?_of_prefix (by rwa [home_put])]
  · have hprefix : ¬ other.isPrefixOf t.home = true := mt List.isPrefixOf_iff_prefix.mp hhome
    rw [node?, node?, home_put, if_neg hprefix, if_neg hprefix]
    unfold put
    split
    · next hany => exact find?_replace hany node other
    · next hany => exact find?_concat hany node other

/-- The tree with the directory that the first names lead to. -/
def makeParent (names : List String) (t : FileTree) (n : Nat) : FileTree :=
  if (t.node? (names.take (n + 1))).isSome then t else t.put (names.take (n + 1)) .directory

theorem makeParents_eq (t : FileTree) (names : List String) :
    t.makeParents names = (List.range (names.length - 1)).foldl (makeParent names) t := rfl

/-- Where nothing is, a directory is made. -/
theorem node?_makeParent (names : List String) (t : FileTree) (n : Nat) (other : List String) :
    (makeParent names t n).node? other =
      (t.node? other).or (if other = names.take (n + 1) then some .directory else none) := by
  unfold makeParent
  split
  · next hsome =>
    obtain ⟨node, hnode⟩ := Option.isSome_iff_exists.mp hsome
    by_cases ho : other = names.take (n + 1)
    · rw [ho, hnode]
      rfl
    · rw [if_neg ho, Option.or_none]
  · next hnone =>
    have hhome : ¬ names.take (n + 1) <+: t.home := not_prefix_home fun h => by simp [h] at hnone
    rw [node?_put t hhome]
    by_cases ho : other = names.take (n + 1)
    · rw [Option.not_isSome_iff_eq_none] at hnone
      rw [if_pos ho, if_pos ho, ho, hnone]
      rfl
    · rw [if_neg ho, if_neg ho, Option.or_none]

theorem node?_foldl_makeParent {t : FileTree} {other : List String} {node : Node}
    (h : t.node? other = some node) (names : List String) (ns : List Nat) :
    (ns.foldl (makeParent names) t).node? other = some node := by
  induction ns generalizing t with
  | nil => exact h
  | cons n ns ih =>
    refine ih ?_
    rw [node?_makeParent, h]
    rfl

/-- **The directories on the way** are made only where nothing is. -/
theorem node?_makeParents {t : FileTree} {other : List String} {node : Node}
    (h : t.node? other = some node) (names : List String) :
    (t.makeParents names).node? other = some node := by
  rw [makeParents_eq]
  exact node?_foldl_makeParent h names _

@[simp] theorem home_makeParents (t : FileTree) (names : List String) :
    (t.makeParents names).home = t.home := by
  rw [makeParents_eq]
  generalize List.range (names.length - 1) = ns
  induction ns generalizing t with
  | nil => rfl
  | cons n ns ih =>
    rw [List.foldl_cons, ih, makeParent]
    split
    · rfl
    · exact home_put ..

@[simp] theorem home_add (t : FileTree) (p : Path) (node : Node) :
    (t.add p node).home = t.home := by
  simp [add]

/-- A place below the working directory is not on the way to it. -/
theorem not_append_prefix {place : List String} (h : place ≠ []) (home : List String) :
    ¬ home ++ place <+: home := by
  intro hprefix
  have hle := hprefix.length_le
  have hpos := List.length_pos_iff.mpr h
  rw [List.length_append] at hle
  omega

/-- Adding a node below the working directory puts it in its place, after the directories that lead
to it. -/
theorem node?_add (t : FileTree) {names : List String} (hnames : names ≠ []) (node : Node)
    (other : List String) : (t.add ⟨"", names⟩ node).node? other =
      if other = t.home ++ names then some node
      else (t.makeParents (t.home ++ names)).node? other := by
  have hhome := not_append_prefix hnames t.home
  exact node?_put _ (by rwa [home_makeParents]) node other

theorem node?_add_self (t : FileTree) {names : List String} (hnames : names ≠ []) (node : Node) :
    (t.add ⟨"", names⟩ node).node? (t.home ++ names) = some node := by
  rw [node?_add t hnames, if_pos rfl]

theorem node?_add_of_ne {t : FileTree} {names other : List String} {old : Node}
    (hnames : names ≠ []) (ho : other ≠ t.home ++ names) (h : t.node? other = some old)
    (node : Node) : (t.add ⟨"", names⟩ node).node? other = some old := by
  rw [node?_add t hnames, if_neg ho]
  exact node?_makeParents h _

/-- Nothing but directories stands in a tree. -/
def OnlyDirectories (t : FileTree) : Prop :=
  ∀ place node, t.node? place = some node → node = .directory

theorem onlyDirectories_empty : empty.OnlyDirectories := by
  intro place node hnode
  unfold node? at hnode
  split at hnode
  · exact (Option.some.inj hnode).symm
  · cases hnode

theorem OnlyDirectories.makeParent {t : FileTree} (ht : t.OnlyDirectories) (names : List String)
    (n : Nat) : (makeParent names t n).OnlyDirectories := by
  intro place node hnode
  rw [node?_makeParent, Option.or_eq_some_iff] at hnode
  rcases hnode with hnode | ⟨-, hnode⟩
  · exact ht place node hnode
  · split at hnode
    · exact (Option.some.inj hnode).symm
    · cases hnode

/-- The directories that names lead through are made, where nothing but directories stands. -/
theorem node?_take_makeParents {t : FileTree} (ht : t.OnlyDirectories) {names : List String}
    {k : Nat} (hk : k < names.length) :
    (t.makeParents names).node? (names.take k) = some .directory := by
  cases k with
  | zero => exact node?_nil _
  | succ n =>
    have hn : n ∈ List.range (names.length - 1) := by
      rw [List.mem_range]
      omega
    rw [makeParents_eq]
    generalize List.range (names.length - 1) = ns at hn
    induction ns generalizing t with
    | nil => cases hn
    | cons m ns ih =>
      rw [List.foldl_cons]
      rcases List.mem_cons.mp hn with rfl | hn
      · refine node?_foldl_makeParent ?_ names ns
        rw [node?_makeParent, if_pos rfl]
        cases hnode : t.node? (names.take (n + 1)) with
        | none => rfl
        | some node => rw [ht _ _ hnode, Option.some_or]
      · exact ih (ht.makeParent names m) hn

/-- The directories that lead to a node that is added are there, where nothing but directories
stood. -/
theorem node?_take_add {t : FileTree} (ht : t.OnlyDirectories) {names : List String} (node : Node)
    {k : Nat} (hk : k < names.length) :
    (t.add ⟨"", names⟩ node).node? (t.home ++ names.take k) = some .directory := by
  have hne : names ≠ [] := by
    rintro rfl
    cases hk
  have hother : t.home ++ names.take k ≠ t.home ++ names := by
    intro heq
    have := congrArg List.length (List.append_cancel_left heq)
    rw [List.length_take] at this
    omega
  have hlt : t.home.length + k < (t.home ++ names).length := by simpa using hk
  have hparent := node?_take_makeParents ht hlt
  rw [List.take_length_add_append] at hparent
  rw [node?_add t hne, if_neg hother, hparent]

/-! ### Names -/

/-- The place that a name leads to from a directory. -/
def next (here : List String) (name : String) : List String :=
  if name = ".." then here.dropLast else here ++ [name]

theorem next_of_ne {name : String} (h : name ≠ "..") (here : List String) :
    next here name = here ++ [name] := if_neg h

/-- All but the last of the names that lead to the next place lead to the place before it. -/
theorem take_next {here : List String} {name : String} {k : Nat}
    (h : k < (next here name).length) : (next here name).take k = here.take k ∧
      k ≤ here.length := by
  unfold next at h ⊢
  split_ifs at h ⊢ with hdots
  · rw [List.length_dropLast] at h
    rw [List.dropLast_eq_take, List.take_take, Nat.min_eq_left (by omega)]
    exact ⟨rfl, by omega⟩
  · rw [List.length_append, List.length_singleton] at h
    exact ⟨List.take_append_of_le_length (by omega), by omega⟩

/-- Below a directory, a name leads to the same place as in it. -/
theorem next_append {here place : List String} {name : String}
    (h : placeAfter? here name = some place) (above : List String) :
    next (above ++ here) name = above ++ place := by
  unfold placeAfter? at h
  split_ifs at h with hdots hempty
  · cases h
    rw [next_of_ne hdots, List.append_assoc]
  · cases h
    have hne : here ≠ [] := by simpa using hempty
    rw [next, if_pos (Decidable.not_not.mp hdots), List.dropLast_append_of_ne_nil hne]

theorem follow_cons {t : FileTree} {here : List String} {name : String}
    (hhere : t.node? here = some .directory) (hname : name = ".." ∨ isTooLong name = false)
    (rest : List String) : t.follow here (name :: rest) = t.follow (next here name) rest := by
  rw [follow, hhere]
  dsimp only
  unfold next
  split_ifs with hdots hlong
  · rfl
  · rw [hname.resolve_left hdots] at hlong
    cases hlong
  · rfl

/-- **One name** is followed from a directory only, and if it is not too long. -/
theorem follow_cons_eq_ok_iff {t : FileTree} {here place rest : List String} {name : String} :
    t.follow here (name :: rest) = .ok place ↔ t.node? here = some .directory ∧
      (name = ".." ∨ isTooLong name = false) ∧ t.follow (next here name) rest = .ok place := by
  constructor
  · intro h
    rw [follow] at h
    split at h
    · cases h
    · cases h
    next hhere =>
    split_ifs at h with hdots hlong
    · exact ⟨hhere, .inl hdots, by rwa [next, if_pos hdots]⟩
    · exact ⟨hhere, .inr (by simpa using hlong), by rwa [next_of_ne hdots]⟩
  · rintro ⟨hhere, hname, h⟩
    rwa [follow_cons hhere hname]

/-- **Following names** from a place below a directory leads to the place below it that they stand
for. -/
theorem eq_append_of_follow {t : FileTree} {above here place there names : List String}
    (hplace : names.foldlM placeAfter? here = some place)
    (h : t.follow (above ++ here) names = .ok there) : there = above ++ place := by
  induction names generalizing here with
  | nil =>
    cases h
    cases hplace
    rfl
  | cons name rest ih =>
    rw [List.foldlM_cons] at hplace
    obtain ⟨below, hbelow, hplace⟩ := Option.bind_eq_some_iff.mp hplace
    obtain ⟨-, -, h⟩ := follow_cons_eq_ok_iff.mp h
    rw [next_append hbelow] at h
    exact ih hplace h

/-- Without `..` every name leads one directory down. -/
theorem placeBelow?_eq {names : List String} (h : ".." ∉ names) :
    placeBelow? names = some names := by
  have hfold : ∀ here, names.foldlM placeAfter? here = some (here ++ names) := by
    induction names with
    | nil => simp
    | cons name rest ih =>
      intro here
      rw [List.mem_cons, not_or] at h
      rw [List.foldlM_cons, placeAfter?, if_pos (Ne.symm h.1)]
      exact (ih h.2 _).trans (by simp)
  exact hfold []

/-- Names are followed through directories. -/
theorem follow_eq {t : FileTree} {names here : List String} (hinside : ".." ∉ names)
    (hshort : ∀ name ∈ names, isTooLong name = false)
    (h : ∀ k < names.length, t.node? (here ++ names.take k) = some .directory) :
    t.follow here names = .ok (here ++ names) := by
  induction names generalizing here with
  | nil => simp [follow]
  | cons name rest ih =>
    rw [List.mem_cons, not_or] at hinside
    obtain ⟨hname, hrest⟩ := List.forall_mem_cons.mp hshort
    have hhere := h 0 (by simp)
    rw [List.take_zero, List.append_nil] at hhere
    rw [follow_cons hhere (.inr hname), next_of_ne (Ne.symm hinside.1), ih hinside.2 hrest]
    · simp
    · intro k hk
      have := h (k + 1) (by simpa using hk)
      simpa using this

/-! ### Paths -/

theorem start_of_relative (t : FileTree) {p : Path} (h : p.root = "") : t.start p = t.home := by
  rw [start, h]
  rfl

theorem start_congr (t : FileTree) {p q : Path} (h : p.root = q.root) : t.start p = t.start q := by
  rw [start, start, h]

/-- A path begins at the root or at the working directory. -/
theorem start_prefix_home (t : FileTree) (p : Path) : t.start p <+: t.home := by
  unfold start
  split
  · exact List.prefix_rfl
  · exact List.nil_prefix

/-- A path that is not too long leads through directories to the place of its names. -/
theorem locate_eq {t : FileTree} {p : Path}
    (hnul : ∀ name ∈ p.names, name.contains '\x00' = false)
    (hlimit : p.toText.utf8ByteSize ≤ pathLimit) (hinside : ".." ∉ p.names)
    (hshort : ∀ name ∈ p.names, isTooLong name = false)
    (h : ∀ k < p.names.length, t.node? (t.start p ++ p.names.take k) = some .directory) :
    t.locate p = .ok (t.start p ++ p.names) := by
  have hclean : ¬ p.names.any (·.contains '\x00') = true := by
    rw [List.any_eq_true]
    rintro ⟨name, hname, hcontains⟩
    cases (hnul name hname).symm.trans hcontains
  rw [locate, if_neg hclean, if_neg (by omega)]
  exact follow_eq hinside hshort h

/-- A name in the working directory. -/
theorem locate_name (t : FileTree) {name : String} (hnul : name.contains '\x00' = false)
    (hdots : name ≠ "..") (hshort : isTooLong name = false) :
    t.locate ⟨"", [name]⟩ = .ok (t.home ++ [name]) := by
  refine locate_eq (by simpa using hnul) ?_ (by simpa using Ne.symm hdots)
    (by simpa using hshort) fun k hk => ?_
  · have hsize : name.utf8ByteSize ≤ 255 := Nat.le_of_not_lt (of_decide_eq_false hshort)
    have htext : "" ++ "/".intercalate [name] = name := by simp
    rw [Path.toText, htext]
    split
    · decide
    · exact Nat.le_trans hsize (by decide)
  · obtain rfl : k = 0 := Nat.lt_one_iff.mp hk
    exact node?_of_prefix (by simp [start])

theorem read_name {t : FileTree} {name : String} {content : Content}
    (hnul : name.contains '\x00' = false) (hdots : name ≠ "..") (hshort : isTooLong name = false)
    (hnode : t.node? (t.home ++ [name]) = some (.file content)) :
    t.read ⟨"", [name]⟩ = .ok content := by
  rw [read, locate_name t hnul hdots hshort, ok_bind, hnode]

theorem follow_of_locate {t : FileTree} {p : Path} {place : List String}
    (h : t.locate p = .ok place) : t.follow (t.start p) p.names = .ok place := by
  unfold locate at h
  split at h
  · cases h
  split at h
  · cases h
  exact h

theorem read_eq_ok_iff {t : FileTree} {p : Path} {content : Content} : t.read p = .ok content ↔
    ∃ place, t.locate p = .ok place ∧ t.node? place = some (.file content) := by
  rw [read, bind_eq_ok_iff]
  refine exists_congr fun place => and_congr_right fun _ => ?_
  cases t.node? place with
  | none => simp
  | some node => cases node <;> simp

/-- A file that is read below the working directory stands in the place of its path. -/
theorem node?_of_read {t : FileTree} {p : Path} {place : List String} {content : Content}
    (hrelative : p.root = "") (hplace : placeBelow? p.names = some place)
    (h : t.read p = .ok content) : t.node? (t.home ++ place) = some (.file content) := by
  obtain ⟨there, hlocate, hnode⟩ := read_eq_ok_iff.mp h
  have hfollow := follow_of_locate hlocate
  rw [start_of_relative t hrelative, ← List.append_nil t.home] at hfollow
  rwa [← eq_append_of_follow hplace hfollow]

/-- Names are followed one after the other. -/
theorem follow_append_eq_ok_iff {t : FileTree} {here place names rest : List String} :
    t.follow here (names ++ rest) = .ok place ↔
      ∃ there, t.follow here names = .ok there ∧ t.follow there rest = .ok place := by
  induction names generalizing here with
  | nil => simp [follow]
  | cons name names ih =>
    simp only [List.cons_append, follow_cons_eq_ok_iff, ih]
    simp only [and_assoc, exists_and_left]

/-- Names that are followed from a directory below directories lead only through directories. -/
theorem node?_take_of_follow {t : FileTree} {here place names : List String}
    (h : t.follow here names = .ok place)
    (hhere : ∀ k < here.length, t.node? (here.take k) = some .directory) :
    ∀ k < place.length, t.node? (place.take k) = some .directory := by
  induction names generalizing here with
  | nil =>
    cases h
    exact hhere
  | cons name names ih =>
    obtain ⟨hnode, -, h⟩ := follow_cons_eq_ok_iff.mp h
    refine ih h fun k hk => ?_
    obtain ⟨htake, hle⟩ := take_next hk
    rw [htake]
    rcases Nat.lt_or_eq_of_le hle with hlt | rfl
    · exact hhere k hlt
    · rwa [List.take_length]

/-- **A path that leads to a file** ends in the name of the file, below the folder that the names
before it lead to. -/
theorem exists_folder {t : FileTree} {p : Path} {place init : List String} {name : String}
    (hlocate : t.locate p = .ok place) (hnames : p.names = init ++ [name])
    (hfile : t.node? place ≠ some .directory) :
    ∃ folder, t.follow (t.start p) init = .ok folder ∧ place = folder ++ [name] := by
  have hfollow := follow_of_locate hlocate
  rw [hnames, follow_append_eq_ok_iff] at hfollow
  obtain ⟨folder, hfolder, hlast⟩ := hfollow
  refine ⟨folder, hfolder, ?_⟩
  obtain ⟨hthere, -, hlast⟩ := follow_cons_eq_ok_iff.mp hlast
  cases hlast
  by_cases hdots : name = ".."
  · -- the directory above the folder is no file
    rw [next, if_pos hdots] at hfile ⊢
    refine absurd ?_ hfile
    have hthrough := node?_take_of_follow hfolder fun k _ =>
      node?_of_prefix ((List.take_prefix k _).trans (t.start_prefix_home p))
    rcases Nat.eq_zero_or_pos folder.length with hzero | hpos
    · rwa [List.length_eq_zero_iff.mp hzero] at hthere ⊢
    · rw [List.dropLast_eq_take]
      exact hthrough (folder.length - 1) (by omega)
  · exact next_of_ne hdots folder

/-- What is written stands in the place of the path, which is not that of a directory. -/
theorem write_eq_ok_iff {t after : FileTree} {p : Path} {octets : List UInt8} :
    t.write p octets = .ok after ↔ ∃ place, t.locate p = .ok place ∧
      t.node? place ≠ some .directory ∧ after = t.put place (.file (.plain octets)) := by
  rw [write, bind_eq_ok_iff]
  refine exists_congr fun place => and_congr_right fun _ => ?_
  by_cases hnode : t.node? place = some .directory
  · simp [hnode]
  · simp [hnode, eq_comm]

/-! ### Reading what was not written -/

/-- After names that lead to a directory the rest is followed from there. -/
theorem follow_append {t : FileTree} {here there names : List String}
    (h : t.follow here names = .ok there) (rest : List String) :
    t.follow here (names ++ rest) = t.follow there rest := by
  induction names generalizing here with
  | nil =>
    cases h
    rfl
  | cons name names ih =>
    obtain ⟨hhere, hname, h⟩ := follow_cons_eq_ok_iff.mp h
    rw [List.cons_append, follow_cons hhere hname, ih h]

/-- Names lead to the same place after a node is put where no directory was. -/
theorem follow_put {t : FileTree} {place here there names : List String}
    (hnode : t.node? place ≠ some .directory) (node : Node)
    (h : t.follow here names = .ok there) : (t.put place node).follow here names = .ok there := by
  induction names generalizing here with
  | nil => exact h
  | cons name names ih =>
    obtain ⟨hhere, hname, h⟩ := follow_cons_eq_ok_iff.mp h
    have hne : here ≠ place := by
      rintro rfl
      exact hnode hhere
    refine follow_cons_eq_ok_iff.mpr ⟨?_, hname, ih h⟩
    rw [node?_put t (not_prefix_home hnode), if_neg hne, hhere]

/-- A name that is followed leads one directory down. -/
theorem follow_name {t : FileTree} {folder place : List String} {name : String}
    (hdots : name ≠ "..") (h : t.follow folder [name] = .ok place) : place = folder ++ [name] := by
  obtain ⟨-, -, h⟩ := follow_cons_eq_ok_iff.mp h
  cases h
  exact next_of_ne hdots folder

/-- **Writing one file** does not change what is read under another name of the same folder. -/
theorem read_of_write {t after : FileTree} {p q : Path} {octets : List UInt8}
    {init : List String} {name other : String} (hwrite : t.write p octets = .ok after)
    (hroot : q.root = p.root) (hp : p.names = init ++ [name]) (hq : q.names = init ++ [other])
    (hne : other ≠ name) (hdots : other ≠ "..") : after.read q = t.read q := by
  obtain ⟨place, hlocate, hnode, rfl⟩ := write_eq_ok_iff.mp hwrite
  obtain ⟨folder, hfolder, rfl⟩ := exists_folder hlocate hp hnode
  have hhome := not_prefix_home hnode
  have hfolder' := follow_put hnode (.file (.plain octets)) hfolder
  have hbeside : folder ≠ folder ++ [name] := by simp
  have hstart := t.start_congr hroot
  have hfollow : (t.put (folder ++ [name]) (.file (.plain octets))).follow (t.start p) q.names =
      t.follow (t.start p) q.names := by
    rw [hq, follow_append hfolder', follow_append hfolder, follow, follow,
      node?_put t hhome, if_neg hbeside]
    rfl
  have hlocate' : (t.put (folder ++ [name]) (.file (.plain octets))).locate q = t.locate q := by
    rw [locate, locate, start, home_put, ← start, hstart, hfollow]
  rw [read, read, hlocate']
  cases hthere : t.locate q with
  | error e => rfl
  | ok there =>
    have hlast := follow_of_locate hthere
    rw [hstart, hq, follow_append hfolder] at hlast
    obtain rfl := follow_name hdots hlast
    rw [ok_bind, ok_bind, node?_put t hhome, if_neg (by simpa using hne)]

end FileTree

end Keypad
