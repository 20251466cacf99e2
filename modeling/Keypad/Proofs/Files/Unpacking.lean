import Keypad.Files.Script
import Keypad.Proofs.Files.Tree

/-! # Unpacked members

The members of a 7z archive that are stored under a name are unpacked into an empty directory, and
the name is then followed there.  The later ones are put in other places than the first
(`exists_place`) and leave it as it is (`node?_unpackLater`).  So what is read under the name of a
script is the first member stored under it, and a directory is never read
(`octets_of_readUnpacked`).  An ordinary name, without `..` and not too long, can always be unpacked
(`readUnpacked_of_isOrdinary`). -/

namespace Keypad

theorem mapError_eq_ok_iff {ε ε' α : Type} {f : ε → ε'} {x : Except ε α} {a : α} :
    x.mapError f = .ok a ↔ x = .ok a := by
  cases x with
  | error e => exact iff_of_false nofun nofun
  | ok b => exact ⟨fun h => by cases h; rfl, fun h => by cases h; rfl⟩

/-! ### Names of scripts -/

namespace Text

/-- What is appended without a character of the class belongs to the last piece. -/
theorem pieces_append (p : Char → Bool) (xs : List Char) : ∃ init last, ∀ ys : List Char,
    (∀ c ∈ ys, p c = false) → pieces p (xs ++ ys) = init ++ [last ++ ys] := by
  induction xs with
  | nil =>
    refine ⟨[], [], fun ys hys => ?_⟩
    induction ys with
    | nil => rfl
    | cons y ys ih =>
      obtain ⟨hy, hys⟩ := List.forall_mem_cons.mp hys
      have hpieces : pieces p ys = [ys] := ih hys
      simp [pieces, hy, hpieces]
  | cons x xs ih =>
    obtain ⟨init, last, h⟩ := ih
    cases hx : p x with
    | true =>
      refine ⟨[] :: init, last, fun ys hys => ?_⟩
      rw [List.cons_append, pieces, if_pos hx, h ys hys]
      rfl
    | false =>
      cases init with
      | nil =>
        refine ⟨[], x :: last, fun ys hys => ?_⟩
        rw [List.cons_append, pieces, if_neg (by simp [hx]), h ys hys]
        rfl
      | cons first init =>
        refine ⟨(x :: first) :: init, last, fun ys hys => ?_⟩
        rw [List.cons_append, pieces, if_neg (by simp [hx]), h ys hys]
        rfl

end Text

/-- The last of the names that the name of a script stands for takes what is appended to it. -/
theorem Script.exists_names {name : String} (h : Script.isScriptName name = true) :
    ∃ init last, 4 ≤ last.length ∧ ∀ ending : List Char, (∀ c ∈ ending, c ≠ '/') →
      (Path.ofText (name ++ String.ofList ending)).names =
        init ++ [last ++ String.ofList ending] := by
  obtain ⟨start, hstart⟩ := List.isSuffixOf_iff_suffix.mp h
  obtain ⟨init, last, hpieces⟩ := Text.pieces_append (· == '/') start
  have hsuffix : ∀ c ∈ textSuffix.toList, c ≠ '/' := by simp [textSuffix]
  have hlength : textSuffix.toList.length = 4 := rfl
  refine ⟨(init.map String.ofList).filter fun part => part != "" && part != ".",
    String.ofList (last ++ textSuffix.toList), ?_, fun ending hending => ?_⟩
  · simp only [String.length_ofList, List.length_append]
    omega
  · have hlast : String.ofList (last ++ textSuffix.toList) ++ String.ofList ending =
        String.ofList (last ++ (textSuffix.toList ++ ending)) := by
      rw [← String.ofList_append, List.append_assoc]
    have hkept : ∀ short : String, short.length < 4 →
        String.ofList (last ++ (textSuffix.toList ++ ending)) ≠ short := by
      intro short hshort heq
      have := congrArg String.length heq
      simp only [String.length_ofList, List.length_append] at this
      omega
    have htoList : (name ++ String.ofList ending).toList =
        start ++ (textSuffix.toList ++ ending) := by
      rw [String.toList_append, ← hstart, String.toList_ofList, List.append_assoc]
    rw [Path.ofText, htoList]
    dsimp only
    rw [hpieces _ (by simpa [or_imp, forall_and] using ⟨hsuffix, hending⟩), List.map_append,
      List.filter_append, List.map_singleton, hlast, List.filter_cons_of_pos, List.filter_nil]
    rw [bne_iff_ne.mpr (hkept "" (by decide)), bne_iff_ne.mpr (hkept "." (by decide))]
    rfl

/-! ### What is read -/

/-- What a member is unpacked to. -/
def Member.node (m : Member) : Node :=
  m.octets.elim .directory fun octets => .file (.plain octets)

namespace FileTree

theorem unpack_eq_ok {t t' : FileTree} {name : String} {m : Member}
    (h : t.unpack name m = .ok t') : (Path.ofText name).root = "" ∧ ∃ place,
      placeBelow? (Path.ofText name).names = some place ∧ t' = t.add ⟨"", place⟩ m.node := by
  unfold unpack at h
  dsimp only at h
  split at h
  · cases h
  next place hplace =>
  split at h
  · cases h
  split at hplace
  · next hroot =>
    rw [Bool.and_eq_true, String.isEmpty_iff] at hroot
    exact ⟨hroot.1, place, hplace, (Except.ok.inj h).symm⟩
  · cases hplace

end FileTree

namespace ArchiveFormat

theorem unpackedName_succ (name : String) (n : Nat) :
    unpackedName name (n + 1) = name ++ String.ofList ('_' :: Nat.toDigits 10 n) := by
  show name ++ "_" ++ String.ofList (Nat.toDigits 10 n) = _
  rw [String.append_assoc, String.ofList_cons]
  rfl

theorem placeBelow?_append {init : List String} {last : String} (hlast : last ≠ "..") :
    FileTree.placeBelow? (init ++ [last]) =
      (FileTree.placeBelow? init).map fun place => place ++ [last] := by
  rw [FileTree.placeBelow?, List.foldlM_append, ← FileTree.placeBelow?]
  cases FileTree.placeBelow? init with
  | none => rfl
  | some place => simp [FileTree.placeAfter?, hlast]

/-- The members stored under the name of a script are unpacked side by side. -/
theorem exists_place {name : String} {place : List String}
    (hname : Script.isScriptName name = true)
    (hplace : FileTree.placeBelow? (Path.ofText name).names = some place) :
    ∃ start last, place = start ++ [last] ∧ ∀ n,
      FileTree.placeBelow? (Path.ofText (unpackedName name (n + 1))).names =
        some (start ++ [last ++ String.ofList ('_' :: Nat.toDigits 10 n)]) := by
  obtain ⟨init, last, hlength, hnames⟩ := Script.exists_names hname
  have hlong : ∀ ending : String, last ++ ending ≠ ".." := by
    intro ending heq
    have := congrArg String.length heq
    have htwo : "..".length = 2 := rfl
    simp only [String.length_append] at this
    omega
  have hdigits : ∀ n, ∀ c ∈ '_' :: Nat.toDigits 10 n, c ≠ '/' := by
    rintro n c hc rfl
    rcases List.mem_cons.mp hc with hc | hc
    · cases hc
    · cases Nat.isDigit_of_mem_toDigits (by decide) (by decide) hc
  have hfirst := hnames [] (by simp)
  rw [String.ofList_nil, String.append_empty, String.append_empty] at hfirst
  rw [hfirst, placeBelow?_append (by simpa using hlong "")] at hplace
  obtain ⟨start, hstart, rfl⟩ := Option.map_eq_some_iff.mp hplace
  refine ⟨start, last, rfl, fun n => ?_⟩
  rw [unpackedName_succ, hnames _ (hdigits n), placeBelow?_append (hlong _), hstart]
  rfl

/-- Later members stored under the name of a script leave the place of the first as it is. -/
theorem node?_unpackLater {name : String} {place : List String} {node : Node}
    (hname : Script.isScriptName name = true)
    (hplace : FileTree.placeBelow? (Path.ofText name).names = some place)
    {later : List Member} {k : Nat} {t t' : FileTree}
    (hnode : t.node? (t.home ++ place) = some node)
    (h : (later.zipIdx (k + 1)).foldlM (fun t (m, n) => t.unpack (unpackedName name n) m) t =
      .ok t') : t'.node? (t'.home ++ place) = some node := by
  induction later generalizing k t with
  | nil =>
    cases h
    exact hnode
  | cons m later ih =>
    rw [List.zipIdx_cons, List.foldlM_cons] at h
    obtain ⟨next, hunpack, h⟩ := bind_eq_ok_iff.mp h
    refine ih ?_ h
    obtain ⟨-, other, hother, rfl⟩ := FileTree.unpack_eq_ok hunpack
    obtain ⟨start, last, rfl, hlater⟩ := exists_place hname hplace
    cases (hlater k).symm.trans hother
    rw [FileTree.home_add]
    refine FileTree.node?_add_of_ne (by simp) (fun heq => ?_) hnode m.node
    have heq := List.append_cancel_left (List.append_cancel_left heq)
    have := congrArg String.length (List.singleton_inj.mp heq)
    simp only [String.length_append, String.length_ofList, List.length_cons] at this
    omega

/-- **What is read** under the name of a script is the first member stored under it. -/
theorem octets_of_readUnpacked {members : List Member} {name : String} {m : Member}
    {octets : List UInt8} (hname : Script.isScriptName name = true)
    (hfirst : (membersNamed .sevenZip members name).head? = some m)
    (h : readUnpacked members name = .ok octets) : m.octets = some octets := by
  obtain ⟨t, hunpacked, h⟩ := bind_eq_ok_iff.mp h
  obtain ⟨content, hread, hcontent⟩ := bind_eq_ok_iff.mp h
  cases hcontent
  obtain ⟨later, hlater⟩ := List.head?_eq_some_iff.mp hfirst
  rw [unpackNamed, hlater, List.zipIdx_cons, List.foldlM_cons] at hunpacked
  obtain ⟨t₁, hunpack, hunpacked⟩ := bind_eq_ok_iff.mp hunpacked
  obtain ⟨hrelative, place, hplace, rfl⟩ := FileTree.unpack_eq_ok hunpack
  have hfile := FileTree.node?_of_read hrelative hplace (mapError_eq_ok_iff.mp hread)
  -- the first member is put in the place that is read
  have hne : place ≠ [] := by
    obtain ⟨start, last, rfl, -⟩ := exists_place hname hplace
    simp
  have hnode := FileTree.node?_add_self .empty hne m.node
  rw [← FileTree.home_add] at hnode
  have hkept := (node?_unpackLater hname hplace hnode hunpacked).symm.trans hfile
  unfold Member.node at hkept
  cases hoctets : m.octets with
  | none =>
    rw [hoctets] at hkept
    cases hkept
  | some octets =>
    rw [hoctets] at hkept
    cases hkept
    rfl

/-! ### Ordinary names -/

/-- An ordinary name of a member: relative, written as its path is, without `..` and not too
long. -/
structure IsOrdinary (name : String) : Prop where
  written : (Path.ofText name).toText = name
  relative : (Path.ofText name).root = ""
  driveless : FileTree.namesDrive name = false
  short : name.utf8ByteSize ≤ FileTree.unpackLimit
  ne_nil : (Path.ofText name).names ≠ []
  inside : ".." ∉ (Path.ofText name).names
  parts : ∀ part ∈ (Path.ofText name).names,
    part.contains '\x00' = false ∧ FileTree.isTooLong part = false

/-- A single name of a file is ordinary. -/
theorem IsOrdinary.of_name {name : String} (hpath : Path.ofText name = ⟨"", [name]⟩)
    (hne : name ≠ "") (hdots : name ≠ "..") (hdrive : FileTree.namesDrive name = false)
    (hnul : name.contains '\x00' = false) (hshort : FileTree.isTooLong name = false) :
    IsOrdinary name where
  written := by simp [hpath, Path.toText, hne]
  relative := by rw [hpath]
  driveless := hdrive
  short := Nat.le_trans (Nat.le_of_not_lt (of_decide_eq_false hshort)) (by decide)
  ne_nil := by simp [hpath]
  inside := by simpa [hpath] using Ne.symm hdots
  parts := by
    rw [hpath]
    exact List.forall_mem_singleton.mpr ⟨hnul, hshort⟩

/-- **An ordinary name** that only one member has is unpacked.  If that is a regular file, it is
read; a directory is not. -/
theorem readUnpacked_of_isOrdinary {members : List Member} {name : String} {m : Member}
    (hname : IsOrdinary name) (honly : membersNamed .sevenZip members name = [m]) :
    readUnpacked members name = m.octets.elim (.error (.unpacked .isDirectory)) .ok := by
  obtain ⟨hwritten, hrelative, hdrive, hshort, hne, hinside, hparts⟩ := hname
  have hplace := FileTree.placeBelow?_eq hinside
  have hlong : (Path.ofText name).names.any FileTree.isTooLong = false :=
    List.any_eq_false.mpr fun part hpart => by simp [(hparts part hpart).2]
  have hunpack : unpackNamed members name =
      .ok (FileTree.empty.add ⟨"", (Path.ofText name).names⟩ m.node) := by
    rw [unpackNamed, honly, List.zipIdx_singleton, List.foldlM_cons]
    show FileTree.empty.unpack name m >>= _ = _
    rw [FileTree.unpack]
    dsimp only
    rw [hrelative, hdrive, if_pos (by rfl), hplace]
    dsimp only
    rw [hlong, decide_eq_false (by omega)]
    rfl
  rw [readUnpacked, hunpack, ok_bind]
  have hhome := FileTree.home_add .empty ⟨"", (Path.ofText name).names⟩ m.node
  have hnode := FileTree.node?_add_self .empty hne m.node
  have hdirectories : ∀ k < (Path.ofText name).names.length,
      (FileTree.empty.add ⟨"", (Path.ofText name).names⟩ m.node).node?
        (FileTree.empty.home ++ (Path.ofText name).names.take k) = some .directory :=
    fun k hk => FileTree.node?_take_add FileTree.onlyDirectories_empty m.node hk
  generalize FileTree.empty.add ⟨"", (Path.ofText name).names⟩ m.node = t
    at hhome hnode hdirectories
  rw [← hhome] at hnode hdirectories
  have hlimit : FileTree.unpackLimit ≤ FileTree.pathLimit := by decide
  have hstart := t.start_of_relative hrelative
  have hlocate : t.locate (Path.ofText name) = .ok (t.home ++ (Path.ofText name).names) := by
    rw [← hstart] at hdirectories ⊢
    exact FileTree.locate_eq (fun part hpart => (hparts part hpart).1)
      (by rw [hwritten]; omega) hinside (fun part hpart => (hparts part hpart).2) hdirectories
  rw [FileTree.read, hlocate, ok_bind, hnode, Member.node]
  cases m.octets <;> rfl

end ArchiveFormat

end Keypad
