import Mathlib.Algebra.GroupWithZero.Nat
import Mathlib.Data.List.Perm.Basic
import Assay.Proofs.ReportEntries
import Assay.Proofs.ReportFormats

/-!
# Elements of a checkstyle report

The `error` elements of a document with the `file` elements around them, however the elements are
nested. Main statement: an error is read once for every file around it, under the name of that file;
a document where no error has files nested around it is read error by error, in document order, each
under the name of the innermost file around it (`errors_read_per_file`).
-/

namespace Assay.Report

open Markup (Element)
open Markup.Element (named namedIn)

variable {path : Path} {around es : List Element} {root e : Element} {r : Reading}

/-! ## Elements with their surroundings -/

/-- An element of a document with the elements around it, the innermost first. -/
structure PlacedElement where
  element : Element
  around : List Element

mutual

/-- The elements of a tree with the elements around them, in document order; around the tree itself
are the given elements. -/
def placed (around : List Element) : Element → List PlacedElement
  | .mk tag attributes children =>
    ⟨.mk tag attributes children, around⟩ :: placedIn (.mk tag attributes children :: around) children

/-- The elements of a list of trees with the elements around them. -/
def placedIn (around : List Element) : List Element → List PlacedElement
  | [] => []
  | e :: es => placed around e ++ placedIn around es

end

/-- The name of a file, as its errors are reported. -/
def fileName (file : Element) : String := (file.attribute? "name").getD ""

/-- The names of the files among elements. -/
def fileNames (es : List Element) : List String := (es.filter (·.tag == "file")).map fileName

namespace PlacedElement

/-- The names of the files around an element, the innermost first. -/
def files (p : PlacedElement) : List String := fileNames p.around

/-- The element is an `error`. -/
def isError (p : PlacedElement) : Bool := p.element.tag == "error"

/-- An element once for each file around it, with the name of the file. -/
def perFile (p : PlacedElement) : List (String × Element) := p.files.map (·, p.element)

end PlacedElement

/-- The `error` elements of a document, in document order. -/
def errors (root : Element) : List PlacedElement := (placed [] root).filter (·.isError)

/-- The `error` elements of a document that have a file around them. -/
def filedErrors (root : Element) : List PlacedElement := (errors root).filter (!·.files.isEmpty)

/-- An error is read under the name of the innermost file around it. -/
def ReadInnermost (p : PlacedElement) (entry : Entry) : Prop :=
  ∃ file, p.files.head? = some file ∧ readError file p.element = .ok entry ∧
    ∀ v, entry = .ok v → v.file = file

@[simp] theorem fileNames_file (attributes : List (String × String)) (children around : List Element) :
    fileNames (.mk "file" attributes children :: around) =
      fileName (.mk "file" attributes children) :: fileNames around := rfl

theorem fileNames_cons_of_ne (h : e.tag ≠ "file") (around : List Element) :
    fileNames (e :: around) = fileNames around := by
  simp [fileNames, h]

mutual

/-- What is around a tree is around each of its elements too, behind what of the tree is. -/
theorem suffix_of_mem_placed (around : List Element) :
    ∀ (e : Element) {p : PlacedElement}, p ∈ placed around e → around <:+ p.around
  | .mk tag attributes children, p, h => by
    rw [placed, List.mem_cons] at h
    rcases h with rfl | h
    · exact List.suffix_rfl
    · exact (List.suffix_cons _ around).trans (suffix_of_mem_placedIn _ children h)

theorem suffix_of_mem_placedIn (around : List Element) :
    ∀ (es : List Element) {p : PlacedElement}, p ∈ placedIn around es → around <:+ p.around
  | [], _, h => absurd h List.not_mem_nil
  | e :: es, p, h => by
    rw [placedIn, List.mem_append] at h
    rcases h with h | h
    · exact suffix_of_mem_placed around e h
    · exact suffix_of_mem_placedIn around es h

end

mutual

/-- The errors of a tree are its elements of that name. -/
theorem errors_placed (around : List Element) :
    ∀ e : Element, ((placed around e).filter (·.isError)).map (·.element) = named "error" e
  | .mk tag attributes children => by
    have hinside := errors_placedIn (.mk tag attributes children :: around) children
    rw [placed, named, List.filter_cons, PlacedElement.isError, Element.tag]
    split <;> simp [hinside]

theorem errors_placedIn (around : List Element) :
    ∀ es : List Element, ((placedIn around es).filter (·.isError)).map (·.element) =
      namedIn "error" es
  | [] => rfl
  | e :: es => by
    rw [placedIn, namedIn, List.filter_append, List.map_append, errors_placed around e,
      errors_placedIn around es]

end

/-! ## Errors by file and files by error -/

/-- The errors among elements, each once for every file around it. -/
def copies (ps : List PlacedElement) : List (String × Element) :=
  (ps.filter (·.isError)).flatMap (·.perFile)

/-- Elements under a name. -/
def under (es : List Element) (name : String) : List (String × Element) := es.map (name, ·)

/-- The errors found file by file, in a list of trees. -/
def fileErrorsIn (es : List Element) : List (String × Element) :=
  (namedIn "file" es).flatMap fun file => under (named "error" file) (fileName file)

theorem copies_append (ps ps' : List PlacedElement) : copies (ps ++ ps') = copies ps ++ copies ps' := by
  simp [copies]

/-- Under one name every error is copied once. -/
theorem copies_of_files {ps : List PlacedElement} {name : String}
    (h : ∀ p ∈ ps, p.isError = true → p.files = [name]) :
    copies ps = under ((ps.filter (·.isError)).map (·.element)) name := by
  induction ps with
  | nil => rfl
  | cons p ps ih =>
    obtain ⟨hp, hps⟩ := List.forall_mem_cons.1 h
    rw [copies, List.filter_cons]
    split
    · rename_i herror
      rw [List.flatMap_cons, PlacedElement.perFile, hp herror, ← copies, ih hps]
      rfl
    · exact ih hps

/-- Elements of two lists, under each of several names. -/
theorem flatMap_under_append (names : List String) (es es' : List Element) :
    (names.flatMap (under es) ++ names.flatMap (under es')).Perm (names.flatMap (under (es ++ es'))) := by
  have hunder : under (es ++ es') = fun name => under es name ++ under es' name := by
    funext name
    exact List.map_append
  rw [hunder]
  exact List.flatMap_append_perm names (under es) (under es')

/-- A tree that is no file has the errors in the files of those inside it. -/
theorem fileErrors_of_ne {tag : String} (h : tag ≠ "file") (attributes : List (String × String))
    (children : List Element) : fileErrors (.mk tag attributes children) = fileErrorsIn children := by
  rw [fileErrors, named, if_neg (by simpa using h)]
  rfl

/-- The errors in a file, and those in the files inside it. -/
theorem fileErrors_file (attributes : List (String × String)) (children : List Element) :
    fileErrors (.mk "file" attributes children) =
      under (namedIn "error" children) (fileName (.mk "file" attributes children)) ++
        fileErrorsIn children := rfl

theorem fileErrorsIn_cons (e : Element) (es : List Element) :
    fileErrorsIn (e :: es) = fileErrors e ++ fileErrorsIn es := by
  rw [fileErrorsIn, namedIn, List.flatMap_append]
  rfl

/-- A tree that is no error is copied by what is inside it. -/
theorem copies_of_ne {tag : String} (h : tag ≠ "error") (around : List Element)
    (attributes : List (String × String)) (children : List Element) :
    copies (placed around (.mk tag attributes children)) =
      copies (placedIn (.mk tag attributes children :: around) children) := by
  have herror : ¬(PlacedElement.mk (.mk tag attributes children) around).isError = true := by
    rw [PlacedElement.isError, beq_iff_eq]
    exact h
  rw [copies, placed, List.filter_cons_of_neg herror]
  rfl

theorem copies_error (around : List Element) (attributes : List (String × String))
    (children : List Element) :
    copies (placed around (.mk "error" attributes children)) =
      (fileNames around).flatMap (under [.mk "error" attributes children]) ++
        copies (placedIn (.mk "error" attributes children :: around) children) := by
  have hunder : under [.mk "error" attributes children] =
      fun name => [(name, .mk "error" attributes children)] := rfl
  rw [hunder, ← List.map_eq_flatMap]
  rfl

mutual

/-- The errors of a tree, each once for every file around it, are those in the tree for every file
around the tree, and those that are found file by file. -/
theorem copies_placed (around : List Element) : ∀ e : Element,
    (copies (placed around e)).Perm
      ((fileNames around).flatMap (under (named "error" e)) ++ fileErrors e)
  | .mk tag attributes children => by
    have hinside := copies_placedIn (.mk tag attributes children :: around) children
    by_cases hfile : tag = "file"
    · subst hfile
      rw [fileNames_file, List.flatMap_cons] at hinside
      rw [copies_of_ne (by decide), fileErrors_file, ← List.append_assoc]
      exact hinside.trans (List.perm_append_comm.append_right _)
    · rw [fileNames_cons_of_ne (e := .mk tag attributes children) hfile] at hinside
      rw [fileErrors_of_ne hfile]
      by_cases herror : tag = "error"
      · subst herror
        have hnames := flatMap_under_append (fileNames around) [.mk "error" attributes children]
          (namedIn "error" children)
        rw [copies_error]
        refine (hinside.append_left _).trans ?_
        rw [← List.append_assoc]
        exact hnames.append_right _
      · rw [copies_of_ne herror, named, if_neg (by simpa using herror)]
        exact hinside

theorem copies_placedIn (around : List Element) : ∀ es : List Element,
    (copies (placedIn around es)).Perm
      ((fileNames around).flatMap (under (namedIn "error" es)) ++ fileErrorsIn es)
  | [] => by simp [placedIn, namedIn, copies, fileErrorsIn, under]
  | e :: es => by
    have hfirst := copies_placed around e
    have hothers := copies_placedIn around es
    rw [placedIn, namedIn, copies_append, fileErrorsIn_cons]
    have hnames := flatMap_under_append (fileNames around) (named "error" e) (namedIn "error" es)
    refine (hfirst.append hothers).trans ?_
    refine .trans ?_ (hnames.append_right _)
    simp only [List.append_assoc]
    exact (List.perm_append_comm_assoc ..).append_left _

end

/-- Inside a file, elements with at most one file around them have that file. -/
theorem files_of_le {p : PlacedElement} {name : String} (hnames : fileNames around = [name])
    (hp : around <:+ p.around) (hle : p.files.length ≤ 1) : p.files = [name] := by
  have hsuffix : [name] <:+ p.files := hnames ▸ (hp.filter _).map fileName
  exact (hsuffix.eq_of_length_le hle).symm

/-- Where no error has files nested around it, the errors of a file are those inside it, and there
are none of further files. -/
theorem copies_placedIn_of_file {name : String} (hnames : fileNames around = [name])
    (hle : ∀ p ∈ placedIn around es, p.isError = true → p.files.length ≤ 1) :
    copies (placedIn around es) = under (namedIn "error" es) name ∧ fileErrorsIn es = [] := by
  have hcopies : copies (placedIn around es) = under (namedIn "error" es) name := by
    rw [copies_of_files fun p hp herror =>
      files_of_le hnames (suffix_of_mem_placedIn around es hp) (hle p hp herror), errors_placedIn]
  have hperm := copies_placedIn around es
  rw [hcopies, hnames, List.flatMap_singleton] at hperm
  have hlength := hperm.length_eq
  rw [List.length_append, Nat.left_eq_add, List.length_eq_zero_iff] at hlength
  exact ⟨hcopies, hlength⟩

mutual

/-- Where no error has files nested around it, the errors come in document order. -/
theorem copies_placed_eq {around : List Element} (hnames : fileNames around = []) : ∀ e : Element,
    (∀ p ∈ placed around e, p.isError = true → p.files.length ≤ 1) →
      copies (placed around e) = fileErrors e
  | .mk tag attributes children, hle => by
    have hinside : ∀ p ∈ placedIn (.mk tag attributes children :: around) children,
        p.isError = true → p.files.length ≤ 1 :=
      fun p hp => hle p (List.mem_cons_of_mem _ hp)
    by_cases hfile : tag = "file"
    · subst hfile
      obtain ⟨hcopies, hnone⟩ := copies_placedIn_of_file (by rw [fileNames_file, hnames]) hinside
      rw [copies_of_ne (by decide), hcopies, fileErrors_file, hnone, List.append_nil]
    · have hskip : fileNames (.mk tag attributes children :: around) = [] :=
        (fileNames_cons_of_ne (e := .mk tag attributes children) hfile around).trans hnames
      rw [fileErrors_of_ne hfile, ← copies_placedIn_eq hskip children hinside]
      by_cases herror : tag = "error"
      · subst herror
        rw [copies_error, hnames]
        rfl
      · exact copies_of_ne herror around attributes children

theorem copies_placedIn_eq {around : List Element} (hnames : fileNames around = []) :
    ∀ es : List Element, (∀ p ∈ placedIn around es, p.isError = true → p.files.length ≤ 1) →
      copies (placedIn around es) = fileErrorsIn es
  | [], _ => rfl
  | e :: es, hle => by
    obtain ⟨hfirst, hothers⟩ := List.forall_mem_append.1 hle
    rw [placedIn, copies_append, copies_placed_eq hnames e hfirst,
      copies_placedIn_eq hnames es hothers, fileErrorsIn_cons]

end

/-! ## Readings of errors -/

/-- Errors are read exactly if each of them is. -/
theorem readErrors_eq_ok {listed : List (String × Element)} :
    readErrors path listed = .ok r ↔
      ∃ found, List.Forall₂ (fun error e => readError error.1 error.2 = .ok e) listed found ∧
        r = .ofEntries found := by
  have hnil : readErrors path [] = .ok .empty := rfl
  have hfails {fault} (error : String × Element) (errors : List (String × Element))
      (h : readError error.1 error.2 = .error fault) :
      ∃ problem, readErrors path (error :: errors) = .error problem :=
    ⟨.violation (toString path ++ ": " ++ error.1) fault, by simp only [readErrors, h]⟩
  have hreads {e} (error : String × Element) (errors : List (String × Element))
      (h : readError error.1 error.2 = .ok e) :
      readErrors path (error :: errors) =
        (readErrors path errors).map (Reading.ofEntry e).append := by
    simp only [readErrors, h]
  exact @loop_eq_ok 0 r (String × Element) (fun error => readError error.1 error.2)
    (fun _ => readErrors path) (fun _ => hnil) (fun _ => hfails) (fun _ => hreads) listed

/-- A document is read only as a checkstyle report. -/
theorem ofDocument_eq_ok :
    ofDocument path root = .ok r ↔
      root.tag = "checkstyle" ∧ readErrors path (fileErrors root) = .ok r := by
  by_cases htag : root.tag = "checkstyle" <;> simp [ofDocument, htag]

/-- An error of an unknown rule is skipped. -/
theorem readError_of_unknown (file : String)
    (hkind : ViolationKind.ofRule? ((e.attribute? "source").getD "") = none) :
    readError file e = .ok (.error (checkName ((e.attribute? "source").getD ""))) := by
  simp only [readError, hkind]

/-- An error of a known rule without further attributes is reported at line zero. -/
theorem readError_of_known {source : String} {kind : ViolationKind} (file : String)
    (children : List Element) (hkind : ViolationKind.ofRule? source = some kind) :
    readError file (.mk "error" [("source", source)] children) =
      .ok (.ok ⟨kind, file, 0, none, none, ""⟩) := by
  have hsource : (Element.mk "error" [("source", source)] children).attribute? "source" =
      some source := rfl
  simp only [readError, hsource, Option.getD_some, hkind]
  rfl

/-- A violation is in the file under whose name its error is read. -/
theorem file_of_readError {file : String} {v : Violation} (h : readError file e = .ok (.ok v)) :
    v.file = file := by
  rw [readError] at h
  split at h
  · cases h
  · cases hline : wholeAttribute e "line" with
    | error fault => simp [hline, bind, Except.bind] at h
    | ok line =>
      cases hcolumn : wholeAttribute e "column" with
      | error fault => simp [hline, hcolumn, bind, Except.bind] at h
      | ok column =>
        simp only [hline, hcolumn, bind, Except.bind, pure, Except.pure, Except.ok.injEq] at h
        rw [← h]

/-- Errors that are read as copies for their files, with one file each, are read as they stand. -/
theorem forall₂_readInnermost {ps : List PlacedElement} {found : List Entry}
    (hle : ∀ p ∈ ps, p.files.length ≤ 1)
    (h : List.Forall₂ (fun error entry => readError error.1 error.2 = .ok entry)
      (ps.flatMap (·.perFile)) found) :
    List.Forall₂ ReadInnermost (ps.filter (!·.files.isEmpty)) found := by
  induction ps generalizing found with
  | nil =>
    cases h
    exact .nil
  | cons p ps ih =>
    obtain ⟨hp, hps⟩ := List.forall_mem_cons.1 hle
    rw [List.flatMap_cons, PlacedElement.perFile] at h
    rcases hfiles : p.files with _ | ⟨file, others⟩
    · rw [hfiles] at h
      rw [List.filter_cons_of_neg (by simp [hfiles])]
      exact ih hps h
    · obtain rfl : others = [] := by
        rw [hfiles, List.length_cons] at hp
        exact List.length_eq_zero_iff.1 (Nat.le_zero.1 (Nat.le_of_succ_le_succ hp))
      rw [hfiles] at h
      obtain ⟨entry, found, hentry, hfound, rfl⟩ := List.forall₂_cons_left_iff.1 h
      rw [List.filter_cons_of_pos (by simp [hfiles])]
      refine .cons ⟨file, by rw [hfiles, List.head?_cons], hentry, ?_⟩ (ih hps hfound)
      rintro v rfl
      exact file_of_readError hentry

/-- An error is read once for every file around it, however files are nested: what a document reports
is what its errors report, each under the name of each file around it, and as many entries are read or
skipped as there are files around errors. Where no error has more than one file around it the document
is read error by error, in document order: each error with a file around it is reported once, in the
innermost file. -/
theorem errors_read_per_file (path : Path) :
    (∀ tree r, ofCheckstyleFile tree path = .ok r → ∃ bytes root,
      tree.read path = .ok bytes ∧ Markup.read bytes = .ok root ∧ ofDocument path root = .ok r) ∧
    ∀ root r, ofDocument path root = .ok r →
      (∃ found, List.Forall₂ (fun error entry => readError error.1 error.2 = .ok entry)
          ((errors root).flatMap (·.perFile)) found ∧
        r.violations.Perm (Reading.ofEntries found).violations ∧
        r.skipped.Perm (Reading.ofEntries found).skipped) ∧
      r.violations.length + r.skipped.length = ((errors root).map (·.files.length)).sum ∧
      ((∀ p ∈ errors root, p.files.length ≤ 1) →
        (∃ found, List.Forall₂ ReadInnermost (filedErrors root) found ∧ r = .ofEntries found) ∧
        r.violations.length + r.skipped.length = (filedErrors root).length) := by
  refine ⟨?_, ?_⟩
  · intro tree r h
    rw [ofCheckstyleFile] at h
    split at h
    · cases h
    · rename_i bytes hbytes
      split at h
      · cases h
      · rename_i root hroot
        exact ⟨bytes, root, hbytes, hroot, h⟩
  · intro root r h
    obtain ⟨-, hread⟩ := ofDocument_eq_ok.1 h
    obtain ⟨found, hfound, rfl⟩ := readErrors_eq_ok.1 hread
    -- the walk over files takes the errors in another order than the document has them
    have hperm : ((errors root).flatMap (·.perFile)).Perm (fileErrors root) := copies_placed [] root
    obtain ⟨found', hfound', hsame⟩ := List.perm_comp_forall₂ hperm hfound
    refine ⟨⟨found', hfound', (hsame.filterMap _).symm, (hsame.filterMap _).symm⟩, ?_, ?_⟩
    · rw [Reading.length_ofEntries, ← hfound.length_eq, ← hperm.length_eq, List.length_flatMap]
      simp only [PlacedElement.perFile, List.length_map]
    · intro hle
      -- without nesting the two orders are the same
      have horder : (errors root).flatMap (·.perFile) = fileErrors root :=
        copies_placed_eq rfl root fun p hp herror => hle p (List.mem_filter.2 ⟨hp, herror⟩)
      have hinnermost : List.Forall₂ ReadInnermost (filedErrors root) found :=
        forall₂_readInnermost hle (horder ▸ hfound)
      exact ⟨⟨found, hinnermost, rfl⟩, by rw [Reading.length_ofEntries, hinnermost.length_eq]⟩

/-- An error without a rule and one of a known rule, in a file, and one outside of all files. -/
theorem errors_read_per_file_outside :
    let known : Element := .mk "error" [("source", "Indentation")] []
    let unknown : Element := .mk "error" [] []
    let root : Element :=
      .mk "checkstyle" [] [.mk "file" [("name", "A.java")] [unknown, known], known]
    let r : Reading := ⟨[⟨.indentation, "A.java", 0, none, none, ""⟩], ["<none>"]⟩
    ofDocument ⟨0, ["r.xml"]⟩ root = .ok r ∧ (∀ p ∈ errors root, p.files.length ≤ 1) ∧
      r.violations.length + r.skipped.length = (filedErrors root).length ∧
      ∃ bytes root, FileTree.read (.directory [("r.xml", .file "<checkstyle/>".toUTF8.toList)])
          ⟨0, ["r.xml"]⟩ = .ok bytes ∧
        Markup.read bytes = .ok root ∧ ofDocument ⟨0, ["r.xml"]⟩ root = .ok .empty := by
  intro known unknown root r
  have hkind : ViolationKind.ofRule? "Indentation" = some .indentation := by decide +kernel
  have hknown := readError_of_known "A.java" [] hkind
  have hunknown : readError "A.java" unknown = .ok (.error "<none>") :=
    readError_of_unknown "A.java" ViolationKind.ofRule?_empty
  -- the error outside of all files is not read
  have hread : ofDocument ⟨0, ["r.xml"]⟩ root = .ok r :=
    ofDocument_eq_ok.2 ⟨rfl, readErrors_eq_ok.2
      ⟨[.error "<none>", .ok ⟨.indentation, "A.java", 0, none, none, ""⟩],
        .cons hunknown (.cons hknown .nil), rfl⟩⟩
  have hflat : ∀ p ∈ errors root, p.files.length ≤ 1 := by decide
  obtain ⟨hfile, hdocument⟩ := errors_read_per_file ⟨0, ["r.xml"]⟩
  refine ⟨hread, hflat, ((hdocument root r hread).2.2 hflat).2, ?_⟩
  have hempty : (ofCheckstyleFile (.directory [("r.xml", .file "<checkstyle/>".toUTF8.toList)])
      ⟨0, ["r.xml"]⟩).toOption = some .empty := by decide +kernel
  cases hloaded : ofCheckstyleFile (.directory [("r.xml", .file "<checkstyle/>".toUTF8.toList)])
      ⟨0, ["r.xml"]⟩ with
  | error error =>
    rw [hloaded] at hempty
    cases hempty
  | ok found =>
    rw [hloaded] at hempty
    cases hempty
    exact hfile _ _ hloaded

/-- An error in a file that is in a file is reported twice. -/
theorem error_in_nested_files :
    let error : Element := .mk "error" [("source", "Indentation")] []
    let root : Element := .mk "checkstyle" []
      [.mk "file" [("name", "A.java")] [.mk "file" [("name", "B.java")] [error]]]
    (filedErrors root).length = 1 ∧
      ofDocument ⟨0, ["r.xml"]⟩ root = .ok ⟨[⟨.indentation, "A.java", 0, none, none, ""⟩,
        ⟨.indentation, "B.java", 0, none, none, ""⟩], []⟩ := by
  intro error root
  have hkind : ViolationKind.ofRule? "Indentation" = some .indentation := by decide +kernel
  refine ⟨rfl, ofDocument_eq_ok.2 ⟨rfl, readErrors_eq_ok.2 ⟨[.ok _, .ok _], ?_, rfl⟩⟩⟩
  exact .cons (readError_of_known "A.java" [] hkind)
    (.cons (readError_of_known "B.java" [] hkind) .nil)

end Assay.Report
