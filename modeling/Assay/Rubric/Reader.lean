import Assay.Json.File
import Assay.Rubric.Fault

/-!
# Reading rubrics

A rubric is data: a list of entries, or an object that has one under `categories`. Entries are
checked in order, each by itself and then against those before it, and the first fault ends the
reading.
-/

namespace Assay

/-- The keys an entry must have. -/
def criterionKeys : List String := ["category", "mode", "scores"]

/-- The criterion of an entry with the given values. -/
def Criterion.ofValues (category mode scores : Json) : Except CriterionFault Criterion :=
  match Category.ofName? category.display with
  | none => .error (.unknownCategory category)
  | some foundCategory =>
    match Mode.ofJson? mode with
    | none => .error (.unknownMode mode)
    | some foundMode =>
      match scores with
      | .array thresholds =>
        (Draft.mk (.ok foundCategory) (.ok foundMode) thresholds).check.mapError .problems
      | _ => .error .scoresNotList

/-- The criterion of one entry. -/
def Criterion.ofEntry : Json → Except CriterionFault Criterion
  | .object members =>
    match Json.member? "category" members, Json.member? "mode" members,
        Json.member? "scores" members with
    | some category, some mode, some scores => Criterion.ofValues category mode scores
    | _, _, _ =>
      let absent := criterionKeys.find? fun key => (Json.member? key members).isNone
      .error (.missing (absent.getD ""))
  | _ => .error .notObject

namespace Rubric

/-- The rubric with one more entry. -/
def extend (r : Rubric) (entry : Json) : Except CriterionFault Rubric :=
  match Criterion.ofEntry entry with
  | .error fault => .error fault
  | .ok c =>
    match r.add? c with
    | none => .error (.repeated c.category)
    | some more => .ok more

/-- The rubric with the entries from the given index on. -/
def extendAll (source : String) (index : Nat) (r : Rubric) : List Json → Except RubricError Rubric
  | [] => .ok r
  | entry :: entries =>
    match r.extend entry with
    | .error fault => .error (.entry source index fault)
    | .ok more => extendAll source (index + 1) more entries

/-- The rubric in decoded data that came from the named source. -/
def ofJson (source : String) (data : Json) : Except RubricError Rubric :=
  match data.listed? "categories" with
  | some entries => extendAll source 0 empty entries
  | none => .error (.notList source)

/-- The rubric in the file at a path. -/
def ofFile [Machine] (tree : FileTree) (path : Path) : Except RubricError Rubric :=
  match Json.ofFile tree path with
  | .error (.unreadable fault) => .error (.unreadable path fault)
  | .error (.undecodable error) => .error (.undecodable error)
  | .error (.malformed found) => .error (.malformed path found)
  | .error (.exceeded what) => .error (.exceeded what)
  | .ok data => ofJson (toString path) data

/-! ## Drafts -/

/-- The rubric with one more draft. -/
def addDraft (r : Rubric) (d : Draft) : Except DraftFault Rubric :=
  match d.category with
  | .error given => .error (.unknownCategory given)
  | .ok category =>
    if category ∈ r.categories then .error (.repeated category)
    else
      match d.mode, d.check with
      | .error given, _ => .error (.unknownMode given category)
      | .ok _, .error found => .error (.problems category found)
      | .ok _, .ok c =>
        match r.add? c with
        | none => .error (.repeated category)
        | some more => .ok more

/-- The rubric of several drafts. -/
def ofDrafts (drafts : List Draft) : Except DraftFault Rubric := drafts.foldlM addDraft empty

end Rubric

end Assay
