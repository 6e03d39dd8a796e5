import Mathlib.Data.List.Lex
import Mathlib.Data.List.Nodup
import Mathlib.Data.String.Basic
import Assay.Repository

/-!
# Listings of a repository

The files below a directory are those that its entries lead to. Main statement: the listings of a
repository are exact and in the order of paths, without repetition, and have no file in common
(`listings_exact`). This needs that a directory has no two entries of one name, which holds of every
tree that files are put into.
-/

namespace Assay

namespace FileTree

variable {t found : FileTree} {entries : List (String × FileTree)} {name : String}
  {parts : List String} {p : Path}

/-! ## What a tree leads to -/

/-- Components lead from a tree to another one in it, by the entries of directories. -/
inductive Leads : FileTree → List String → FileTree → Prop
  | here (t : FileTree) : Leads t [] t
  | down {name : String} {entry t : FileTree} {entries : List (String × FileTree)}
      {parts : List String} (hentry : (name, entry) ∈ entries) (hrest : Leads entry parts t) :
      Leads (.directory entries) (name :: parts) t

mutual

/-- The files below a tree are those that it leads to. -/
theorem mem_filesBelow : ∀ {t : FileTree} {parts : List String},
    parts ∈ filesBelow t ↔ ∃ content, Leads t parts (.file content)
  | .file content, parts => by
    rw [filesBelow, List.mem_singleton]
    constructor
    · rintro rfl
      exact ⟨content, .here _⟩
    · rintro ⟨_, ⟨⟩⟩
      rfl
  | .directory entries, parts => by
    rw [filesBelow, mem_filesIn]
    constructor
    · rintro ⟨name, rest, entry, content, rfl, hentry, hrest⟩
      exact ⟨content, .down hentry hrest⟩
    · rintro ⟨content, _ | ⟨hentry, hrest⟩⟩
      exact ⟨_, _, _, content, rfl, hentry, hrest⟩

/-- The files of a directory are what its entries lead to. -/
theorem mem_filesIn : ∀ {entries : List (String × FileTree)} {parts : List String},
    parts ∈ filesIn entries ↔ ∃ name rest entry content,
      parts = name :: rest ∧ (name, entry) ∈ entries ∧ Leads entry rest (.file content)
  | [], parts => by simp [filesIn]
  | (name, entry) :: entries, parts => by
    rw [filesIn, List.mem_append, List.mem_map, mem_filesIn]
    simp only [mem_filesBelow]
    constructor
    · rintro (⟨rest, ⟨content, hrest⟩, rfl⟩ | ⟨name', rest, entry', content, rfl, hentry, hrest⟩)
      · exact ⟨name, rest, entry, content, rfl, List.mem_cons_self, hrest⟩
      · exact ⟨name', rest, entry', content, rfl, List.mem_cons_of_mem _ hentry, hrest⟩
    · rintro ⟨name', rest, entry', content, rfl, hentry, hrest⟩
      obtain heq | hentry := List.mem_cons.1 hentry
      · cases heq
        exact .inl ⟨rest, ⟨content, hrest⟩, rfl⟩
      · exact .inr ⟨name', rest, entry', content, rfl, hentry, hrest⟩

end

/-! ## Distinct names -/

/-- No directory of the tree has two entries of one name. -/
inductive Distinct : FileTree → Prop
  | file (content : List UInt8) : Distinct (.file content)
  | directory {entries : List (String × FileTree)} (hnames : (entries.map Prod.fst).Nodup)
      (hentries : ∀ e ∈ entries, Distinct e.2) : Distinct (.directory entries)

mutual

/-- A tree with distinct names has every file once. -/
theorem Distinct.nodup_filesBelow : ∀ {t : FileTree}, t.Distinct → (filesBelow t).Nodup
  | .file _, _ => by simp [filesBelow]
  | .directory entries, .directory hnames hentries => by
    rw [filesBelow]
    exact nodup_filesIn hnames hentries

/-- No file is found twice where the names of the entries differ. -/
theorem nodup_filesIn : ∀ {entries : List (String × FileTree)}, (entries.map Prod.fst).Nodup →
    (∀ e ∈ entries, Distinct e.2) → (filesIn entries).Nodup
  | [], _, _ => List.nodup_nil
  | (name, entry) :: entries, hnames, hentries => by
    rw [List.map_cons, List.nodup_cons] at hnames
    rw [List.forall_mem_cons] at hentries
    have hfirst : ((filesBelow entry).map (name :: ·)).Nodup :=
      List.Nodup.map List.cons_injective (Distinct.nodup_filesBelow hentries.1)
    refine List.Nodup.append hfirst (nodup_filesIn hnames.2 hentries.2) ?_
    -- a file of a later entry begins with the name of that entry
    intro parts hparts hlater
    obtain ⟨rest, -, rfl⟩ := List.mem_map.1 hparts
    obtain ⟨name', rest', entry', content, heq, hentry, -⟩ := mem_filesIn.1 hlater
    cases heq
    exact hnames.1 (List.mem_map.2 ⟨_, hentry, rfl⟩)

end

/-- The empty directory has no name twice. -/
theorem distinct_empty : empty.Distinct := .directory List.nodup_nil (by simp)

/-- An entry that is looked up is one of the entries. -/
theorem mem_of_lookup {entry : FileTree} (h : entries.lookup name = some entry) :
    (name, entry) ∈ entries := by
  obtain ⟨_, _, rfl, -⟩ := List.lookup_eq_some_iff.1 h
  simp

/-- What is looked up has no name twice either. -/
theorem Distinct.of_lookup {entry : FileTree} (h : Distinct (.directory entries))
    (hentry : entries.lookup name = some entry) : entry.Distinct := by
  cases h with
  | directory hnames hentries => exact hentries _ (mem_of_lookup hentry)

/-- A walk ends in a tree with distinct names if it goes through such trees only. -/
theorem Distinct.walk {above : List FileTree} (habove : ∀ t ∈ above, t.Distinct) (h : t.Distinct)
    (hwalk : walk above t parts = .ok found) : found.Distinct := by
  fun_induction FileTree.walk above t parts with
  | case1 =>
    cases hwalk
    exact h
  | case2 | case3 | case5 | case6 => cases hwalk
  | case4 part parts entries hup parent above ih =>
    rw [List.forall_mem_cons] at habove
    exact ih habove.2 habove.1 hwalk
  | case7 above part parts entries _ _ entry hentry ih =>
    exact ih (List.forall_mem_cons.2 ⟨h, habove⟩) (h.of_lookup hentry) hwalk

/-- What is found at a path has no name twice. -/
theorem Distinct.find (h : t.Distinct) (hfind : t.find p = .ok found) : found.Distinct := by
  rw [FileTree.find] at hfind
  split at hfind
  · cases hfind
  · exact h.walk (by simp) hfind

/-! ## Putting files into a tree -/

/-- An entry that is put has the name it is put under. -/
theorem mem_named {entry : Option FileTree} {e : String × FileTree}
    (h : e ∈ (entry.map fun t => (name, t)).toList) : e.1 = name ∧ e.2 ∈ entry := by
  obtain ⟨t, rfl, rfl⟩ : ∃ t, entry = some t ∧ (name, t) = e := by simpa using h
  exact ⟨rfl, rfl⟩

/-- After an entry is put, an entry is an old one or the one that was put. -/
theorem mem_setEntry {entry : Option FileTree} {e : String × FileTree}
    (h : e ∈ setEntry name entry entries) : e ∈ entries ∨ e.1 = name ∧ e.2 ∈ entry := by
  fun_induction FileTree.setEntry name entry entries with
  | case1 => exact .inr (mem_named h)
  | case2 other old entries _ =>
    obtain h | h := List.mem_append.1 h
    · exact .inr (mem_named h)
    · exact .inl (List.mem_cons_of_mem _ h)
  | case3 other old entries _ ih =>
    obtain rfl | h := List.mem_cons.1 h
    · exact .inl List.mem_cons_self
    · exact (ih h).imp_left (List.mem_cons_of_mem _)

/-- Putting an entry makes no name double. -/
theorem nodup_setEntry (entry : Option FileTree) (h : (entries.map Prod.fst).Nodup) :
    ((setEntry name entry entries).map Prod.fst).Nodup := by
  fun_induction FileTree.setEntry name entry entries with
  | case1 => cases entry <;> simp
  | case2 other old entries hname =>
    rw [beq_iff_eq] at hname
    subst hname
    rw [List.map_cons, List.nodup_cons] at h
    cases entry with
    | none => simpa using h.2
    | some t => simpa using h
  | case3 other old entries hname ih =>
    rw [List.map_cons, List.nodup_cons] at h ⊢
    refine ⟨fun hmem => ?_, ih h.2⟩
    obtain ⟨e, he, rfl⟩ := List.mem_map.1 hmem
    obtain he | ⟨rfl, -⟩ := mem_setEntry he
    · exact h.1 (List.mem_map.2 ⟨_, he, rfl⟩)
    · exact hname (beq_self_eq_true _)

/-- A directory stays without double names when an entry is put. -/
theorem Distinct.setEntry {entry : Option FileTree} (hentry : ∀ t ∈ entry, t.Distinct)
    (h : Distinct (.directory entries)) : Distinct (.directory (setEntry name entry entries)) := by
  cases h with
  | directory hnames hentries =>
    refine .directory (nodup_setEntry entry hnames) fun e he => ?_
    obtain he | ⟨-, he⟩ := mem_setEntry he
    · exact hentries e he
    · exact hentry _ he

/-- A file on the way gives way to a directory without entries. -/
theorem set_file (entry : Option FileTree) (part : String) (parts : List String)
    (content : List UInt8) :
    set entry (part :: parts) (.file content) = set entry (part :: parts) empty := rfl

/-- A tree stays without double names when something is set at a path. -/
theorem Distinct.set {entry : Option FileTree} (hentry : ∀ t ∈ entry, t.Distinct) (h : t.Distinct) :
    (set entry parts t).Distinct := by
  induction parts generalizing t with
  | nil =>
    cases entry with
    | none => exact h
    | some t' => exact hentry t' rfl
  | cons part parts ih =>
    have hdirectory : ∀ {entries : List (String × FileTree)}, Distinct (.directory entries) →
        (FileTree.set entry (part :: parts) (.directory entries)).Distinct := by
      intro entries h
      rw [FileTree.set]
      split
      · exact h.setEntry hentry
      · refine h.setEntry fun below hbelow => ?_
        cases hbelow
        cases hlookup : entries.lookup part with
        | none => exact ih distinct_empty
        | some found => exact ih (h.of_lookup hlookup)
    cases t with
    | file content =>
      rw [set_file]
      exact hdirectory distinct_empty
    | directory entries => exact hdirectory h

/-- Putting a file somewhere leaves names distinct. -/
theorem Distinct.put (h : t.Distinct) (p : Path) (content : List UInt8) :
    (t.put p content).Distinct :=
  Distinct.set (by simpa using Distinct.file content) h

end FileTree

/-! ## The order of paths -/

/-- Lists compare as their order says. -/
theorem Text.listLe_iff {as bs : List String} : listLe as bs ↔ ¬ bs < as := by
  fun_induction listLe as bs with
  | case1 bs => simp
  | case2 a as => simp
  | case3 a as b bs heq ih =>
    rw [beq_iff_eq] at heq
    subst heq
    simp [ih]
  | case4 a as b bs hne =>
    rw [beq_iff_eq] at hne
    rw [decide_eq_true_eq, List.cons_lt_cons_iff]
    simp only [Ne.symm hne, false_and, or_false]
    exact ⟨lt_asymm, fun h => lt_of_le_of_ne (not_lt.1 h) hne⟩

/-- Without repetitions, sorting leads to strictly ascending order. -/
theorem Text.pairwise_mergeSort_listLe {found : List (List String)} (h : found.Nodup) :
    (found.mergeSort listLe).Pairwise (· < ·) := by
  have hle : (found.mergeSort listLe).Pairwise fun as bs => listLe as bs := by
    refine List.pairwise_mergeSort ?_ ?_ found
    · intro as bs cs hab hbc
      exact listLe_iff.2 (not_lt.2 ((not_lt.1 (listLe_iff.1 hab)).trans (not_lt.1 (listLe_iff.1 hbc))))
    · intro as bs
      rw [Bool.or_eq_true, listLe_iff, listLe_iff, not_lt, not_lt]
      exact le_total as bs
  have hne : (found.mergeSort listLe).Nodup := (List.mergeSort_perm found listLe).nodup_iff.2 h
  exact hle.imp₂ (fun as bs hab hne => lt_of_le_of_ne (not_lt.1 (listLe_iff.1 hab)) hne) hne

namespace Repository

open FileTree

variable {tree found : FileTree} {entries : List (String × FileTree)} {directory p : Path}
  {r : Repository} {ending : List Char} {parts : List String}

/-! ## Listings -/

/-- The path is that of a file below a directory. The name of the file ends as given, and no
directory between the two is hidden. -/
def HasFile (directory : Path) (found : FileTree) (ending : List Char) (p : Path) : Prop :=
  ∃ (directories : List String) (name : String) (content : List UInt8),
    p = directory.below (directories ++ [name]) ∧
      found.Leads (directories ++ [name]) (.file content) ∧
        ending <:+ name.toList ∧ ∀ d ∈ directories, d.toList.head? ≠ some '.'

/-- The paths are those of the files below a directory whose names end as given, in ascending order
and without repetition. -/
structure IsListing (directory : Path) (found : FileTree) (ending : List Char) (paths : List Path) :
    Prop where
  mem_iff : ∀ p, p ∈ paths ↔ HasFile directory found ending p
  nodup : paths.Nodup
  ascending : paths.Pairwise fun p q => p.parts < q.parts

/-- A file is listed by the ending of its name, unless one of its directories is hidden. -/
theorem lists_append_singleton (directories : List String) (name : String) :
    lists ending (directories ++ [name]) ↔
      ending <:+ name.toList ∧ ∀ d ∈ directories, d.toList.head? ≠ some '.' := by
  simp [lists, isHidden]

/-- The files of an ending are the listed ones, sorted and put below the directory. -/
theorem filesEnding_eq (hfind : tree.find r.directory = .ok found) :
    r.filesEnding ending tree =
      ((found.files.filter (lists ending)).mergeSort Text.listLe).map r.directory.below := by
  rw [filesEnding, hfind]

/-- The files of a directory are what it leads to by names. -/
theorem mem_files : parts ∈ (FileTree.directory entries).files ↔
    ∃ directories name content, parts = directories ++ [name] ∧
      (FileTree.directory entries).Leads (directories ++ [name]) (.file content) := by
  rw [FileTree.files, ← FileTree.filesBelow, mem_filesBelow]
  constructor
  · rintro ⟨content, h⟩
    obtain rfl | ⟨directories, name, rfl⟩ := List.eq_nil_or_concat' parts
    · cases h
    · exact ⟨directories, name, content, rfl, h⟩
  · rintro ⟨directories, name, content, rfl, h⟩
    exact ⟨content, h⟩

/-- A path is listed exactly where the directory has a file there. -/
theorem mem_filesEnding (hfind : tree.find r.directory = .ok (.directory entries)) (p : Path) :
    p ∈ r.filesEnding ending tree ↔ HasFile r.directory (.directory entries) ending p := by
  rw [filesEnding_eq hfind]
  simp only [List.mem_map, List.mem_mergeSort, List.mem_filter, mem_files]
  constructor
  · rintro ⟨_, ⟨⟨directories, name, content, rfl, hleads⟩, hlists⟩, rfl⟩
    exact ⟨directories, name, content, rfl, hleads, (lists_append_singleton _ _).1 hlists⟩
  · rintro ⟨directories, name, content, rfl, hleads, hlists⟩
    exact ⟨_, ⟨⟨directories, name, content, rfl, hleads⟩, (lists_append_singleton _ _).2 hlists⟩, rfl⟩

/-- The files of an ending are a listing of the directory. -/
theorem isListing_filesEnding (hdistinct : tree.Distinct)
    (hfind : tree.find r.directory = .ok (.directory entries)) (ending : List Char) :
    IsListing r.directory (.directory entries) ending (r.filesEnding ending tree) := by
  have hfiles : (FileTree.directory entries).files.Nodup := (hdistinct.find hfind).nodup_filesBelow
  have hascending : (r.filesEnding ending tree).Pairwise fun p q => p.parts < q.parts := by
    rw [filesEnding_eq hfind, List.pairwise_map]
    refine (Text.pairwise_mergeSort_listLe (hfiles.filter _)).imp fun h => ?_
    exact List.append_left_lt h
  have hnodup : (r.filesEnding ending tree).Nodup := by
    refine hascending.imp fun {p q} h => ?_
    rintro rfl
    exact lt_irrefl _ h
  exact ⟨mem_filesEnding hfind, hnodup, hascending⟩

/-- No file has two endings of one length. -/
theorem disjoint_filesEnding {ending' : List Char} (hlength : ending.length = ending'.length)
    (hne : ending ≠ ending') (hfind : tree.find r.directory = .ok (.directory entries)) :
    (r.filesEnding ending tree).Disjoint (r.filesEnding ending' tree) := by
  intro p hp hp'
  -- both endings would end the same name, the last component of the path
  obtain ⟨directories, name, _, rfl, -, hending, -⟩ := (mem_filesEnding hfind p).1 hp
  obtain ⟨directories', name', _, hpath, -, hending', -⟩ := (mem_filesEnding hfind _).1 hp'
  have hparts : directories ++ [name] = directories' ++ [name'] := by simpa [Path.below] using hpath
  obtain ⟨-, hname⟩ := List.append_inj' hparts rfl
  cases hname
  exact hne ((List.suffix_of_suffix_length_le hending hending' hlength.le).eq_of_length hlength)

/-- A located repository stands at a directory. -/
theorem find_of_locate (h : locate tree directory = .ok r) :
    r.directory = directory ∧ ∃ entries, tree.find directory = .ok (.directory entries) := by
  unfold locate at h
  split at h
  next entries hfind =>
    cases h
    exact ⟨rfl, entries, hfind⟩
  next => cases h
  next => cases h

/-- The Java sources of a repository are the files below it whose names end so, apart from those in
hidden directories, and likewise its user-interface descriptions. Both are listed in the order of
their paths, without repetition, and no file is listed as both. -/
theorem listings_exact (hdistinct : tree.Distinct) (hlocate : locate tree directory = .ok r) :
    ∃ entries, tree.find directory = .ok (.directory entries) ∧
      IsListing directory (.directory entries) ".java".toList (r.sourceFiles tree) ∧
      IsListing directory (.directory entries) ".fxml".toList (r.uiDescriptions tree) ∧
      (r.sourceFiles tree).Disjoint (r.uiDescriptions tree) := by
  obtain ⟨rfl, entries, hfind⟩ := find_of_locate hlocate
  exact ⟨entries, hfind, isListing_filesEnding hdistinct hfind _,
    isListing_filesEnding hdistinct hfind _, disjoint_filesEnding (by decide) (by decide) hfind⟩

/-- A repository with a hidden directory, a hidden file, and a directory named like a source. -/
def sampleTree : FileTree :=
  ((((FileTree.empty.put ⟨0, ["graded", "a", "Main.java"]⟩ []).put
    ⟨0, ["graded", "a.b", "Main.java"]⟩ []).put ⟨0, ["graded", ".git", "Old.java"]⟩ []).put
      ⟨0, ["graded", "Views.java", "View.fxml"]⟩ []).put ⟨0, ["graded", ".Draft.java"]⟩ []

/-- The sample tree has its files listed. -/
theorem listings_exact_sample :
    ∃ entries, sampleTree.find ⟨0, ["graded"]⟩ = .ok (.directory entries) ∧
      IsListing ⟨0, ["graded"]⟩ (.directory entries) ".java".toList
        (sourceFiles ⟨⟨0, ["graded"]⟩⟩ sampleTree) ∧
      IsListing ⟨0, ["graded"]⟩ (.directory entries) ".fxml".toList
        (uiDescriptions ⟨⟨0, ["graded"]⟩⟩ sampleTree) ∧
      (sourceFiles ⟨⟨0, ["graded"]⟩⟩ sampleTree).Disjoint
        (uiDescriptions ⟨⟨0, ["graded"]⟩⟩ sampleTree) :=
  listings_exact (((((distinct_empty.put _ _).put _ _).put _ _).put _ _).put _ _) rfl

end Repository

end Assay
