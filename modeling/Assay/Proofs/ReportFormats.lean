import Mathlib.Data.List.Forall2
import Assay.Proofs.ReportFaults
import Assay.Report.Checkstyle

/-!
# Two formats of a report

A report as what its writer meant: files with the findings in them, each a rule with a place and a
message as they were written. A checkstyle document shows such a report by elements, and decoded
data tells it by entries, whatever else stands in either. Main statement: of a document and of data
for one report either both are read, to the same violations, or both are refused, at the same
finding and for the same fault (`formats_agree`).
-/

namespace Assay.Report

/-- A finding of a detector, as it was written. -/
structure Finding where
  rule : String
  line : Option String
  column : Option String
  message : Option String

/-- The findings in one file. -/
structure FileFindings where
  file : String
  findings : List Finding

/-- The findings of a report with their files, in order. -/
def listed (report : List FileFindings) : List (String × Finding) :=
  report.flatMap fun g => g.findings.map fun f => (g.file, f)

/-! ## Documents -/

/-- An `error` element shows a finding. -/
@[mk_iff]
structure Finding.Shown (f : Finding) (e : Markup.Element) : Prop where
  tag : e.tag = "error"
  flat : e.children.isEmpty = true
  rule : e.attribute? "source" = some f.rule
  line : e.attribute? "line" = f.line
  column : e.attribute? "column" = f.column
  message : e.attribute? "message" = f.message

/-- A `file` element shows the findings in a file. -/
@[mk_iff]
structure FileFindings.Shown (g : FileFindings) (e : Markup.Element) : Prop where
  tag : e.tag = "file"
  name : e.attribute? "name" = some g.file
  findings : List.Forall₂ Finding.Shown g.findings e.children

/-- A checkstyle document shows a report. -/
@[mk_iff]
structure Shown (report : List FileFindings) (root : Markup.Element) : Prop where
  tag : root.tag = "checkstyle"
  files : List.Forall₂ FileFindings.Shown report root.children

instance (f : Finding) (e : Markup.Element) : Decidable (f.Shown e) :=
  decidable_of_iff' _ (f.shown_iff e)

instance (g : FileFindings) (e : Markup.Element) : Decidable (g.Shown e) :=
  decidable_of_iff' _ (g.shown_iff e)

instance (report : List FileFindings) (root : Markup.Element) : Decidable (Shown report root) :=
  decidable_of_iff' _ (shown_iff report root)

/-! ## Data -/

/-- An entry tells a finding in a file. -/
inductive Told : String × Finding → Json → Prop
  | entry {file : String} {f : Finding} {members : List (String × Json)}
    (hrule : Json.member? "rule" members = some (.string f.rule))
    (hfile : Json.member? "file" members = some (.string file))
    (hline : Json.member? "line" members = f.line.map .string)
    (hendLine : Json.member? "end_line" members = none)
    (hcolumn : Json.member? "column" members = f.column.map .string)
    (hmessage : Json.member? "message" members = f.message.map .string) :
    Told (file, f) (.object members)

/-! ## Findings -/

/-- The name under which an unknown rule is skipped in a document. -/
def inDocument : Entry → Entry
  | .ok v => .ok v
  | .error rule => .error (checkName rule)

/-- The number that a text writes, if there is one. -/
def Finding.number (field : String) (written : Option String) :
    Except ViolationFault (Option Int) :=
  wholeNumber field ((written.map .string).getD .null)

/-- What a finding in a file reports. -/
def Finding.read (file : String) (f : Finding) : Except ViolationFault Entry :=
  match ViolationKind.ofRule? f.rule with
  | none => .ok (.error f.rule)
  | some kind => do
    let line ← number "line" f.line
    let column ← number "column" f.column
    return .ok ⟨kind, file, line.getD 0, none, column, f.message.getD ""⟩

theorem Finding.number_eq_ok {field written : String} {n : Int} (hempty : written.isEmpty = false)
    (h : Text.integer? written.toList = some n) : number field (some written) = .ok (some n) := by
  simp only [number, wholeNumber, Option.map_some, Option.getD_some, hempty, h, Bool.false_eq_true,
    if_false]

/-- A finding of a known rule reports a violation if its numbers can be read. -/
theorem Finding.read_of_known {f : Finding} {kind : ViolationKind} {line column : Option Int}
    (hkind : ViolationKind.ofRule? f.rule = some kind) (hline : number "line" f.line = .ok line)
    (hcolumn : number "column" f.column = .ok column) (file : String) :
    f.read file = .ok (.ok ⟨kind, file, line.getD 0, none, column, f.message.getD ""⟩) := by
  simp only [Finding.read, hkind, hline, hcolumn]
  rfl

/-- An entry is read as the finding that it tells. -/
theorem readEntry_of_told {file : String} {f : Finding} {entry : Json}
    (h : Told (file, f) entry) : readEntry entry = f.read file := by
  obtain @⟨_, _, members, hrule, hfile, hline, hendLine, hcolumn, hmessage⟩ := h
  have hlines : wholeMember members "line" = Finding.number "line" f.line := by
    rw [wholeMember, hline, Finding.number]
  have hcolumns : wholeMember members "column" = Finding.number "column" f.column := by
    rw [wholeMember, hcolumn, Finding.number]
  have hends : wholeMember members "end_line" = .ok none := by
    rw [wholeMember, hendLine]
    rfl
  have hmessages : ((Json.member? "message" members).map (·.display)).getD "" =
      f.message.getD "" := by
    rw [hmessage]
    cases f.message <;> rfl
  simp only [readEntry, Finding.read, hrule, Option.some_or, hfile, hlines, hcolumns, hends,
    hmessages]
  cases ViolationKind.ofRule? f.rule with
  | none => rfl
  | some kind => cases Finding.number "line" f.line <;> rfl

/-- An element is read as the finding that it shows. -/
theorem readError_of_shown {f : Finding} {e : Markup.Element} (h : f.Shown e) (file : String) :
    readError file e = (f.read file).map inDocument := by
  have hlines : wholeAttribute e "line" = Finding.number "line" f.line := by
    rw [wholeAttribute, h.line, Finding.number]
  have hcolumns : wholeAttribute e "column" = Finding.number "column" f.column := by
    rw [wholeAttribute, h.column, Finding.number]
  simp only [readError, Finding.read, h.rule, Option.getD_some, hlines, hcolumns, h.message]
  cases ViolationKind.ofRule? f.rule with
  | none => rfl
  | some kind =>
    rcases Finding.number "line" f.line with _ | line
    · rfl
    · cases Finding.number "column" f.column <;> rfl

/-! ## Elements by name -/

open Markup.Element in
theorem namedIn_eq (tag : String) (es : List Markup.Element) :
    namedIn tag es = es.flatMap (named tag) := by
  induction es with
  | nil => rfl
  | cons e es ih => rw [namedIn, ih, List.flatMap_cons]

/-- An element of another name is passed over for those inside it. -/
theorem named_of_ne {tag : String} {e : Markup.Element} (h : e.tag ≠ tag) :
    e.named tag = e.children.flatMap (·.named tag) := by
  obtain ⟨own, attributes, children⟩ := e
  have hown : (own == tag) = false := beq_eq_false_iff_ne.2 h
  rw [Markup.Element.named, hown, namedIn_eq]
  rfl

/-- An element of the name without others of it inside is the only one. -/
theorem named_of_eq {tag : String} {e : Markup.Element} (h : e.tag = tag)
    (hinside : ∀ child ∈ e.children, child.named tag = []) : e.named tag = [e] := by
  obtain ⟨own, attributes, children⟩ := e
  have hown : (own == tag) = true := beq_iff_eq.2 h
  have hnone : children.flatMap (·.named tag) = [] := List.flatMap_eq_nil_iff.2 hinside
  rw [Markup.Element.named, hown, namedIn_eq, if_pos rfl, hnone]

/-- Elements that are found by themselves are all found, in order. -/
theorem flatMap_named {tag : String} {es : List Markup.Element}
    (h : ∀ e ∈ es, e.named tag = [e]) : es.flatMap (·.named tag) = es := by
  induction es with
  | nil => rfl
  | cons e es ih =>
    rw [List.flatMap_cons, h e (List.mem_cons_self ..),
      ih fun other hother => h other (List.mem_cons_of_mem _ hother)]
    rfl

theorem Finding.Shown.named_error {f : Finding} {e : Markup.Element} (h : f.Shown e) :
    e.named "error" = [e] := by
  apply named_of_eq h.tag
  rw [List.isEmpty_iff.1 h.flat]
  exact nofun

theorem Finding.Shown.named_file {f : Finding} {e : Markup.Element} (h : f.Shown e) :
    e.named "file" = [] := by
  rw [named_of_ne (by rw [h.tag]; decide), List.isEmpty_iff.1 h.flat]
  rfl

/-- The elements of related items. -/
theorem exists_shown {α : Type} {R : α → Markup.Element → Prop} {items : List α}
    {es : List Markup.Element} (h : List.Forall₂ R items es) {e : Markup.Element} (he : e ∈ es) :
    ∃ item, R item e := by
  induction h with
  | nil => cases he
  | cons hfirst _ ih =>
    rcases List.mem_cons.1 he with rfl | he
    · exact ⟨_, hfirst⟩
    · exact ih he

theorem FileFindings.Shown.named_file {g : FileFindings} {e : Markup.Element} (h : g.Shown e) :
    e.named "file" = [e] := by
  apply named_of_eq h.tag
  intro error herror
  obtain ⟨f, hf⟩ := exists_shown h.findings herror
  exact hf.named_file

theorem FileFindings.Shown.named_error {g : FileFindings} {e : Markup.Element} (h : g.Shown e) :
    e.named "error" = e.children := by
  rw [named_of_ne (by rw [h.tag]; decide)]
  apply flatMap_named
  intro error herror
  obtain ⟨f, hf⟩ := exists_shown h.findings herror
  exact hf.named_error

theorem Shown.named_file {report : List FileFindings} {root : Markup.Element}
    (h : Shown report root) : root.named "file" = root.children := by
  rw [named_of_ne (by rw [h.tag]; decide)]
  apply flatMap_named
  intro file hfile
  obtain ⟨g, hg⟩ := exists_shown h.files hfile
  exact hg.named_file

/-- A finding and an element that shows it, with the file that both are in. -/
def Paired (finding : String × Finding) (error : String × Markup.Element) : Prop :=
  finding.1 = error.1 ∧ finding.2.Shown error.2

/-- The findings that are read from a document are those that it shows. -/
theorem fileErrors_shown {report : List FileFindings} {root : Markup.Element}
    (h : Shown report root) : List.Forall₂ Paired (listed report) (fileErrors root) := by
  rw [listed, fileErrors, h.named_file]
  refine List.rel_flatMap h.files ?_
  intro g e hg
  simp only [hg.named_error, hg.name, Option.getD_some, List.forall₂_map_left_iff,
    List.forall₂_map_right_iff]
  exact hg.findings.imp fun f error hf => ⟨rfl, hf⟩

/-! ## Reports -/

/-- What a document and data for one report give: the same violations, or a refusal for the same
fault. -/
inductive Agree : Except ReportError Reading → Except ReportError Reading → Prop
  | read (found : Reading) :
    Agree (.ok ⟨found.violations, found.skipped.map checkName⟩) (.ok found)
  | refused (spot place : String) (fault : ViolationFault) :
    Agree (.error (.violation spot fault)) (.error (.violation place fault))

/-- One more finding is read by both. -/
theorem Agree.append {inDocuments inData : Except ReportError Reading} (h : Agree inDocuments inData)
    (found : Entry) :
    Agree (inDocuments.map (Reading.ofEntry (inDocument found)).append)
      (inData.map (Reading.ofEntry found).append) := by
  cases h with
  | refused spot place fault => exact .refused spot place fault
  | read more =>
    cases found with
    | ok v => exact .read ((Reading.ofEntry (.ok v)).append more)
    | error rule => exact .read ((Reading.ofEntry (.error rule)).append more)

/-- Elements and entries for the same findings are read alike. -/
theorem readErrors_agree {findings : List (String × Finding)}
    {errors : List (String × Markup.Element)} {entries : List Json}
    (hshown : List.Forall₂ Paired findings errors) (htold : List.Forall₂ Told findings entries)
    (path : Path) (source : String) (index : Nat) :
    Agree (readErrors path errors) (readEntries source index entries) := by
  induction hshown generalizing entries index with
  | nil =>
    cases htold
    exact .read .empty
  | @cons finding error _ errors hfirst _ ih =>
    cases htold with
    | @cons _ entry _ entries hentry htold =>
      obtain ⟨file, f⟩ := finding
      obtain ⟨file', e⟩ := error
      obtain ⟨rfl : file = file', hshown⟩ := hfirst
      rw [readErrors, readEntries, readError_of_shown hshown, readEntry_of_told hentry]
      cases f.read file with
      | error fault => exact .refused _ _ fault
      | ok found => exact (ih htold (index + 1)).append found

/-- A document and data for one report are read alike. -/
theorem ofDocument_agree {report : List FileFindings} {root : Markup.Element} {data : Json}
    {entries : List Json} (hshown : Shown report root)
    (hdata : data.listed? "violations" = some entries)
    (htold : List.Forall₂ Told (listed report) entries) (path : Path) (source : String) :
    Agree (ofDocument path root) (ofJson source data) := by
  have htag : (root.tag == "checkstyle") = true := beq_iff_eq.2 hshown.tag
  rw [ofDocument, htag, if_pos rfl, ofJson, hdata]
  exact readErrors_agree (fileErrors_shown hshown) htold path source 0

/-- A checkstyle document that shows a report is read exactly if data that tells the report is read,
and the violations are then the same, one by one and in order; what is skipped is skipped under
another name. Where they are refused it is for the same fault. -/
theorem formats_agree {tree : FileTree} {path : Path} {bytes : List UInt8} {root : Markup.Element}
    {report : List FileFindings} {data : Json} {entries : List Json}
    (hread : tree.read path = .ok bytes) (hroot : Markup.read bytes = .ok root)
    (hshown : Shown report root) (hdata : data.listed? "violations" = some entries)
    (htold : List.Forall₂ Told (listed report) entries) (source : String) :
    ((∃ found, ofCheckstyleFile tree path = .ok found) ↔
      ∃ found, ofJson source data = .ok found) ∧
    (∀ found found', ofCheckstyleFile tree path = .ok found → ofJson source data = .ok found' →
      found.violations = found'.violations ∧ found.skipped = found'.skipped.map checkName) ∧
    ∀ error error', ofCheckstyleFile tree path = .error error →
      ofJson source data = .error error' →
      ∃ spot spot' fault, error = .violation spot fault ∧ error' = .violation spot' fault := by
  have hfile : ofCheckstyleFile tree path = ofDocument path root := by
    simp only [ofCheckstyleFile, hread, hroot]
  have hagree := ofDocument_agree hshown hdata htold path source
  rw [hfile]
  generalize ofDocument path root = inDocuments at *
  generalize ofJson source data = inData at *
  cases hagree with
  | read found => simp
  | refused spot spot' fault => simp

/-- A document with one finding, on line three, is read as the entry for it is. -/
theorem formats_agree_indentation :
    ∃ found, ofCheckstyleFile
        (.directory [("r.xml", .file ("<checkstyle><file name=\"A.java\"><error " ++
          "source=\"Indentation\" line=\"3\"/></file></checkstyle>").toUTF8.toList)])
        ⟨0, ["r.xml"]⟩ = .ok found ∧
      found.violations = [⟨.indentation, "A.java", 3, none, none, ""⟩] := by
  let bytes := ("<checkstyle><file name=\"A.java\"><error " ++
    "source=\"Indentation\" line=\"3\"/></file></checkstyle>").toUTF8.toList
  let finding : Finding := ⟨"Indentation", some "3", none, none⟩
  let entry : Json := .object
    [("rule", .string "Indentation"), ("file", .string "A.java"), ("line", .string "3")]
  have hshows : (Markup.read bytes).toOption.any
      (fun root => decide (Shown [⟨"A.java", [finding]⟩] root)) = true := by
    decide +kernel
  obtain ⟨root, hroot, hshown⟩ : ∃ root, Markup.read bytes = .ok root ∧
      Shown [⟨"A.java", [finding]⟩] root := by
    cases hroot : Markup.read bytes with
    | error why => simp [hroot, Except.toOption] at hshows
    | ok root => exact ⟨root, rfl, by simpa [hroot, Except.toOption] using hshows⟩
  have hentry : Told ("A.java", finding) entry := .entry rfl rfl rfl rfl rfl rfl
  have hkind : ViolationKind.ofRule? "Indentation" = some .indentation := by decide +kernel
  have hline : Text.integer? "3".toList = some 3 := by decide +kernel
  have hnumber : Finding.number "line" finding.line = .ok (some 3) :=
    Finding.number_eq_ok (by decide) hline
  have hnone : Finding.number "column" finding.column = .ok none := rfl
  have hfinding := Finding.read_of_known (f := finding) hkind hnumber hnone "A.java"
  have hdata : ofJson "r.json" (.array [entry]) =
      .ok ⟨[⟨.indentation, "A.java", 3, none, none, ""⟩], []⟩ := by
    rw [ofJson_array]
    simp only [readEntries, readEntry_of_told hentry, hfinding]
    rfl
  have hagree := @formats_agree (.directory [("r.xml", .file bytes)]) ⟨0, ["r.xml"]⟩ bytes root _
    (.array [entry]) [entry] rfl hroot hshown rfl (.cons hentry .nil) "r.json"
  obtain ⟨found, hfound⟩ := hagree.1.2 ⟨_, hdata⟩
  exact ⟨found, hfound, (hagree.2.1 _ _ hfound hdata).1⟩

end Assay.Report
