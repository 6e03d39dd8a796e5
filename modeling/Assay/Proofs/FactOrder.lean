import Assay.CountingRule
import Assay.Proofs.NameResolution
import Assay.Proofs.Simulation

/-!
# The order of facts

What a rule counts in a file does not depend on the order or on the lines of the facts: the lists
that are counted are views of the facts, and accesses are resolved by names known as sets. Main
statement: facts that differ in order and lines only give the same size
(`SameFacts.count_eq`).
-/

namespace Assay.Source

/-! ## Facts without lines -/

/-- The declaration without its line. -/
def Declaration.unlined (d : Declaration) : Declaration := { d with line := 0 }

/-- The access without its line. -/
def MemberAccess.unlined (a : MemberAccess) : MemberAccess := { a with line := 0 }

/-- The fact without its line. -/
def Fact.unlined : Fact → Fact
  | .declaration d => .declaration d.unlined
  | .loop l => .loop ⟨l.kind, 0⟩
  | .catchClause _ => .catchClause 0
  | .access a => .access a.unlined
  | f => f

/-- The facts are the same up to their order and their lines. -/
def SameFacts (facts gs : List Fact) : Prop :=
  (facts.map Fact.unlined).Perm (gs.map Fact.unlined)

variable {facts gs : List Fact}

/-- Facts that are alike are the same but for their lines. -/
theorem Fact.Alike.unlined_eq {line : Nat → Nat → Prop} {f g : Fact} (h : f.Alike line g) :
    f.unlined = g.unlined := by
  cases h <;> rfl

/-- Facts that are alike one by one are the same without their lines. -/
theorem unlined_of_alike {line : Nat → Nat → Prop} (h : List.Forall₂ (Fact.Alike line) facts gs) :
    facts.map Fact.unlined = gs.map Fact.unlined := by
  induction h with
  | nil => rfl
  | cons halike _ ih => rw [List.map_cons, List.map_cons, halike.unlined_eq, ih]

/-- Facts alike in their order are the same facts. -/
theorem sameFacts_of_alike {line : Nat → Nat → Prop}
    (h : List.Forall₂ (Fact.Alike line) facts gs) : SameFacts facts gs :=
  .of_eq (unlined_of_alike h)

/-- A list that is read off the facts without their lines. -/
theorem filterMap_unlined {α : Type} {view : Fact → Option α} (hview : ∀ f, view f = view f.unlined)
    (facts : List Fact) : (facts.map Fact.unlined).filterMap view = facts.filterMap view := by
  rw [List.filterMap_map]
  exact List.filterMap_congr fun f _ => (hview f).symm

namespace SameFacts

/-- The same facts as the same facts are the same. -/
theorem trans {hs : List Fact} (h : SameFacts facts gs) (h' : SameFacts gs hs) :
    SameFacts facts hs := List.Perm.trans h h'

/-- Sameness of facts goes both ways. -/
theorem symm (h : SameFacts facts gs) : SameFacts gs facts := List.Perm.symm h

/-- Facts in another order are the same facts. -/
theorem of_perm (h : facts.Perm gs) : SameFacts facts gs := h.map _

/-- A list that is read off the facts without their lines is the same up to its order. -/
theorem view {α : Type} {view : Fact → Option α} (h : SameFacts facts gs)
    (hview : ∀ f, view f = view f.unlined) : (facts.filterMap view).Perm (gs.filterMap view) := by
  rw [← filterMap_unlined hview facts, ← filterMap_unlined hview gs]
  exact List.Perm.filterMap view h

/-- A list that is read off the facts is the same up to its order, as far as it is known without the
lines. -/
theorem viewMap {α β : Type} {view : Fact → Option α} {forget : α → β}
    (h : SameFacts facts gs) (hview : ∀ f, (view f).map forget = (view f.unlined).map forget) :
    ((facts.filterMap view).map forget).Perm ((gs.filterMap view).map forget) := by
  rw [List.map_filterMap, List.map_filterMap]
  exact h.view hview

end SameFacts

/-! ## Views -/

section Views

variable {u u' : CompilationUnit}

/-- The same facts have the same declarations but for their lines. -/
theorem declarations_perm (h : SameFacts u.facts u'.facts) :
    (u.declarations.map (·.unlined)).Perm (u'.declarations.map (·.unlined)) :=
  h.viewMap fun f => by cases f <;> rfl

/-- The same facts have loops of the same kinds. -/
theorem loopKinds_perm (h : SameFacts u.facts u'.facts) :
    (u.loops.map (·.kind)).Perm (u'.loops.map (·.kind)) :=
  h.viewMap fun f => by cases f <;> rfl

/-- The same facts have as many `catch` clauses. -/
theorem catchClauses_length (h : SameFacts u.facts u'.facts) :
    u.catchClauses.length = u'.catchClauses.length := by
  have hperm : (u.catchClauses.map fun _ => ()).Perm (u'.catchClauses.map fun _ => ()) :=
    h.viewMap fun f => by cases f <;> rfl
  simpa using hperm.length_eq

/-- The same facts have the same accesses but for their lines. -/
theorem accesses_perm (h : SameFacts u.facts u'.facts) :
    (u.accesses.map (·.unlined)).Perm (u'.accesses.map (·.unlined)) :=
  h.viewMap fun f => by cases f <;> rfl

/-- The same facts have the same imports. -/
theorem imports_perm (h : SameFacts u.facts u'.facts) : u.imports.Perm u'.imports :=
  h.view fun f => by cases f <;> rfl

/-- The same facts have the same names of values. -/
theorem valueNames_perm (h : SameFacts u.facts u'.facts) : u.valueNames.Perm u'.valueNames :=
  h.view fun f => by cases f <;> rfl

/-- The same facts have the same fields. -/
theorem fields_perm (h : SameFacts u.facts u'.facts) : u.fields.Perm u'.fields :=
  h.view fun f => by cases f <;> rfl

/-- The declarations of some kinds, without their lines. -/
theorem filter_declarations_perm (h : SameFacts u.facts u'.facts)
    (p : DeclarationKind → Bool) :
    ((u.declarations.filter fun d => p d.kind).map (·.unlined)).Perm
      ((u'.declarations.filter fun d => p d.kind).map (·.unlined)) := by
  have hfilter : ∀ ds : List Declaration, (ds.filter fun d => p d.kind).map (·.unlined) =
      (ds.map (·.unlined)).filter fun d => p d.kind := by
    intro ds
    rw [List.filter_map]
    rfl
  rw [hfilter, hfilter]
  exact (declarations_perm h).filter _

/-! ## Sizes -/

/-- Facts that differ in order and lines only make the same names known. -/
theorem knownNames_agree (h : SameFacts u.facts u'.facts) : u.knownNames.Agree u'.knownNames := by
  have hnamed : (u.imports.filter (!·.wildcard)).Perm (u'.imports.filter (!·.wildcard)) :=
    (imports_perm h).filter _
  have htypes : u.typeNames.Perm u'.typeNames := by
    simpa [CompilationUnit.typeNames, Declaration.unlined, Function.comp_def] using
      (filter_declarations_perm h DeclarationKind.isType).map (·.name)
  have hmethods : (u.knownNames.methods.map (·.signature)).Perm
      (u'.knownNames.methods.map (·.signature)) := by
    simpa [CompilationUnit.knownNames, CompilationUnit.declarationsOf, Declaration.unlined,
      Declaration.signature, Function.comp_def] using
      (filter_declarations_perm h [DeclarationKind.method].contains).map (·.signature)
  exact
    { values := fun _ => (valueNames_perm h).mem_iff
      types := fun _ => (htypes.append ((hnamed.filter _).map _)).mem_iff
      staticImports := fun _ => ((hnamed.filter _).map _).mem_iff
      methods := fun _ => hmethods.mem_iff
      fields := fun _ => (fields_perm h).mem_iff }

/-- The same facts have as many declarations of any kinds. -/
theorem countDeclarations_eq (h : SameFacts u.facts u'.facts) (kinds : List DeclarationKind) :
    u.countDeclarations kinds = u'.countDeclarations kinds := by
  have hlength := (filter_declarations_perm h kinds.contains).length_eq
  rwa [List.length_map, List.length_map] at hlength

/-- The same facts have as many loops of any kinds. -/
theorem countLoops_eq (h : SameFacts u.facts u'.facts) (kinds : List LoopKind) :
    u.countLoops kinds = u'.countLoops kinds := by
  have hlength : u.loops.length = u'.loops.length := by simpa using (loopKinds_perm h).length_eq
  have hfilter : (u.loops.filter fun l => kinds.contains l.kind).length =
      (u'.loops.filter fun l => kinds.contains l.kind).length := by
    rw [← List.countP_eq_length_filter, ← List.countP_eq_length_filter]
    simpa [List.countP_map, Function.comp_def] using (loopKinds_perm h).countP_eq kinds.contains
  rw [CompilationUnit.countLoops, CompilationUnit.countLoops, hlength, hfilter]

/-- The same facts have as many static accesses. -/
theorem countStaticAccesses_eq (h : SameFacts u.facts u'.facts) :
    u.countStaticAccesses = u'.countStaticAccesses := by
  have hcount : ∀ v : CompilationUnit, v.countStaticAccesses =
      (v.accesses.map (·.unlined)).countP fun a => (v.knownNames.resolve a).isStatic := by
    intro v
    rw [CompilationUnit.countStaticAccesses, CompilationUnit.resolutions, List.countP_map,
      List.countP_map]
    rfl
  have hresolve : u.knownNames.resolve = u'.knownNames.resolve :=
    funext (knownNames_agree h).resolve_eq
  rw [hcount, hcount, hresolve]
  exact (accesses_perm h).countP_eq _

end Views

end Assay.Source

namespace Assay.CountingRule

open Assay.Source

/-- The rule counts facts of a program, not lines or files. -/
def countsFacts : CountingRule → Bool
  | .declarations _ | .staticAccesses | .catchClauses | .loops => true
  | .lineSpan | .docCommentLines | .uiDescriptions => false

end Assay.CountingRule

namespace Assay.Source

/-- Facts that differ in order and lines only give the same size. -/
theorem SameFacts.count_eq {u u' : CompilationUnit} (h : SameFacts u.facts u'.facts)
    {rule : CountingRule} (hrule : rule.countsFacts) : rule.count u = rule.count u' := by
  cases rule with
  | declarations kinds => exact countDeclarations_eq h kinds
  | staticAccesses => exact countStaticAccesses_eq h
  | catchClauses => exact catchClauses_length h
  | loops => exact countLoops_eq h LoopKind.all
  | lineSpan => cases hrule
  | docCommentLines => cases hrule
  | uiDescriptions => cases hrule

end Assay.Source
