import Assay.Proofs.NameResolution

/-!
# What resolution looks at

A file enters the resolution of accesses by five sets: its values, its types, the names it imports one
by one, its methods by what tells calls of them apart, and, for every field name, the flags it is
declared with. Main statement: files with the same sets resolve every access alike, so that the number
of static accesses does not change with the order of what is declared or with its repetition
(`resolution_by_names`).
-/

namespace Assay.Source

namespace CompilationUnit

variable {u u' : CompilationUnit}

/-- The simple names of the static imports, or of the others; imports of all names in something give
none. -/
def importedNames (u : CompilationUnit) (isStatic : Bool) : List String :=
  (u.imports.filter fun i => !i.wildcard && i.isStatic == isStatic).map (·.simpleName)

/-- The files declare and import the same names, each at any places and any number of times. -/
structure SameNames (u u' : CompilationUnit) : Prop where
  values : ∀ name, name ∈ u.valueNames ↔ name ∈ u'.valueNames
  types : ∀ name, name ∈ u.typeNames ↔ name ∈ u'.typeNames
  imports : ∀ isStatic name, name ∈ u.importedNames isStatic ↔ name ∈ u'.importedNames isStatic
  methods : ∀ signature, signature ∈ (u.declarationsOf [.method]).map (·.signature) ↔
    signature ∈ (u'.declarationsOf [.method]).map (·.signature)
  fieldFlags : ∀ name isStatic, isStatic ∈ u.fieldFlags name ↔ isStatic ∈ u'.fieldFlags name

/-- The files hold the same declarations, imports, values and flags of fields in any order and any
number of times, and the same accesses in any order. -/
structure Rearranged (u u' : CompilationUnit) : Prop where
  declarations : ∀ d, d ∈ u.declarations ↔ d ∈ u'.declarations
  imports : ∀ i, i ∈ u.imports ↔ i ∈ u'.imports
  values : ∀ name, name ∈ u.valueNames ↔ name ∈ u'.valueNames
  fieldFlags : ∀ name isStatic, isStatic ∈ u.fieldFlags name ↔ isStatic ∈ u'.fieldFlags name
  accesses : u.accesses.Perm u'.accesses

/-! ## Known names -/

theorem staticImports_eq (u : CompilationUnit) :
    u.knownNames.staticImports = u.importedNames true := by
  simp only [knownNames, importedNames, List.filter_filter, beq_true, Bool.and_comm]

theorem types_eq (u : CompilationUnit) :
    u.knownNames.types = u.typeNames ++ u.importedNames false := by
  simp only [knownNames, importedNames, List.filter_filter, beq_false, Bool.and_comm]

/-- A field is declared with a flag if the flag is among those of its name. -/
theorem mem_fields_iff {name : String} {isStatic : Bool} :
    (name, isStatic) ∈ u.fields ↔ isStatic ∈ u.fieldFlags name := by
  simp [fieldFlags]

/-- Files with the same names make the same names known. -/
theorem SameNames.agree (h : SameNames u u') : u.knownNames.Agree u'.knownNames where
  values := h.values
  types := fun name => by
    rw [types_eq, types_eq, List.mem_append, List.mem_append, h.types, h.imports]
  staticImports := fun name => by rw [staticImports_eq, staticImports_eq, h.imports]
  methods := h.methods
  fields := fun (name, isStatic) => by
    show (name, isStatic) ∈ u.fields ↔ (name, isStatic) ∈ u'.fields
    rw [mem_fields_iff, mem_fields_iff, h.fieldFlags]

theorem SameNames.resolve_eq (h : SameNames u u') : u.resolve = u'.resolve :=
  funext h.agree.resolve_eq

/-! ## Order and repetition -/

/-- What is read off some members of a list has the same members for lists with the same members. -/
theorem mem_map_filter {α β : Type} {l l' : List α} (h : ∀ a, a ∈ l ↔ a ∈ l') (p : α → Bool)
    (f : α → β) (b : β) : b ∈ (l.filter p).map f ↔ b ∈ (l'.filter p).map f := by
  simp only [List.mem_map, List.mem_filter, h]

/-- Files with the same facts in any order and number hold the same, if accesses are as many. -/
theorem Rearranged.of_facts (h : ∀ fact, fact ∈ u.facts ↔ fact ∈ u'.facts)
    (haccesses : u.accesses.Perm u'.accesses) : Rearranged u u' := by
  have hview : ∀ {α : Type} (view : Fact → Option α) (a : α),
      a ∈ u.facts.filterMap view ↔ a ∈ u'.facts.filterMap view := by
    intro α view a
    simp only [List.mem_filterMap, h]
  refine ⟨hview _, hview _, hview _, fun name isStatic => ?_, haccesses⟩
  rw [← mem_fields_iff, ← mem_fields_iff]
  exact hview _ _

theorem Rearranged.sameNames (h : Rearranged u u') : SameNames u u' where
  values := h.values
  types := mem_map_filter h.declarations _ _
  imports := fun _ => mem_map_filter h.imports _ _
  methods := mem_map_filter h.declarations _ _
  fieldFlags := h.fieldFlags

/-- The static accesses are counted as the resolution of each says. -/
theorem countStaticAccesses_eq_countP (u : CompilationUnit) :
    u.countStaticAccesses = u.accesses.countP fun a => u.resolve a == .static := by
  have hstatic : ∀ r : Resolution, r.isStatic = (r == .static) := by
    intro r
    cases r <;> rfl
  rw [countStaticAccesses, resolutions, List.countP_map]
  simp only [Function.comp_def, hstatic]
  rfl

theorem Rearranged.countStaticAccesses_eq (h : Rearranged u u') :
    u.countStaticAccesses = u'.countStaticAccesses := by
  rw [countStaticAccesses_eq_countP, countStaticAccesses_eq_countP, h.sameNames.resolve_eq]
  exact h.accesses.countP_eq _

end CompilationUnit

/-- There is a report of an access exactly if it stays open. -/
theorem Resolution.isSome_failure? (r : Resolution) (a : MemberAccess) :
    (r.failure? a).isSome ↔ ∃ reason, r = .unknown reason := by
  cases r <;> simp [Resolution.failure?]

/-- Resolution depends on what is declared and not on where or how often. Files that agree on their
values, on their types, on the names they import one by one, on the signatures of their methods and on
the flags of every field name resolve every access in the same way and report the same of it. Another
order or repetition of declarations, imports and flags and another order of the accesses leave the
number of static accesses as it is: it counts the accesses that are resolved as static, and exactly those
that stay open are reported. -/
theorem CompilationUnit.resolution_by_names :
    (∀ u u' : CompilationUnit, u.SameNames u' → ∀ a, u.resolve a = u'.resolve a ∧
      (u.resolve a).failure? a = (u'.resolve a).failure? a) ∧
    (∀ u u' : CompilationUnit, u.Rearranged u' → u.countStaticAccesses = u'.countStaticAccesses) ∧
    ∀ u : CompilationUnit,
      u.countStaticAccesses = (u.accesses.filter fun a => u.resolve a = .static).length ∧
        ∀ a, ((u.resolve a).failure? a).isSome ↔ ∃ reason, u.resolve a = .unknown reason := by
  refine ⟨fun u u' h a => ?_, fun u u' h => h.countStaticAccesses_eq, fun u => ⟨?_, fun a => ?_⟩⟩
  · rw [h.resolve_eq]
    exact ⟨rfl, rfl⟩
  · rw [countStaticAccesses_eq_countP, List.countP_eq_length_filter]
    rfl
  · exact (u.resolve a).isSome_failure? a

/-- Overloads of a method, one of them static, and a field, declared once and then twice in another
order. -/
theorem CompilationUnit.resolution_by_names_overloads :
    let declared := [Fact.declaration ⟨.method, "m", 1, "A", 0, false, true⟩,
      .declaration ⟨.method, "m", 2, "A", 1, false, false⟩, .value "x", .field "x" true]
    let used := [Fact.access ⟨.method, "m", "", .none, 3, some 0⟩,
      .access ⟨.method, "m", "", .none, 4, some 1⟩, .access ⟨.field, "x", "this", .this, 5, none⟩]
    let u : CompilationUnit := ⟨declared ++ used, [], 5⟩
    let u' : CompilationUnit := ⟨used.reverse ++ declared.reverse ++ declared, [], 5⟩
    u.SameNames u' ∧ u.Rearranged u' ∧ (∀ a, u.resolve a = u'.resolve a) ∧
      u.countStaticAccesses = 2 ∧ u'.countStaticAccesses = 2 := by
  intro declared used u u'
  have hfacts : ∀ fact, fact ∈ u.facts ↔ fact ∈ u'.facts := by
    intro fact
    simp only [u, u', List.mem_append, List.mem_reverse]
    grind
  have hrearranged : u.Rearranged u' := .of_facts hfacts (by decide)
  obtain ⟨halike, hcounts, -⟩ := resolution_by_names
  have hcount : u.countStaticAccesses = 2 := by decide +kernel
  exact ⟨hrearranged.sameNames, hrearranged, fun a => (halike u u' hrearranged.sameNames a).1, hcount,
    (hcounts u u' hrearranged).symm.trans hcount⟩

end Assay.Source
