import Assay.Source.StaticAccess

/-!
# Names as sets

What an access goes to depends on which names a file makes known, not on where or how often it does.
Main statement: known names with the same members resolve every access in the same way
(`KnownNames.Agree.resolve_eq`).
-/

namespace Assay.Source

/-! ## Tests on lists with the same members -/

section Members

variable {α : Type} {l l' : List α}

/-- A list holds what another one of the same elements holds. -/
theorem contains_eq_of_mem_iff [BEq α] [LawfulBEq α] (h : ∀ x, x ∈ l ↔ x ∈ l') (a : α) :
    l.contains a = l'.contains a := by
  rw [Bool.eq_iff_iff, List.contains_iff_mem, List.contains_iff_mem]
  exact h a

/-- A test on every element comes out alike on lists of the same elements. -/
theorem all_eq_of_mem_iff (h : ∀ x, x ∈ l ↔ x ∈ l') (p : α → Bool) : l.all p = l'.all p := by
  rw [Bool.eq_iff_iff, List.all_eq_true, List.all_eq_true]
  exact forall_congr' fun x => by rw [h x]

/-- No element passes a test if every element fails it. -/
theorem isEmpty_filter (l : List α) (p : α → Bool) : (l.filter p).isEmpty = l.all fun a => !p a := by
  induction l with
  | nil => rfl
  | cons a l ih =>
    cases hp : p a with
    | true => simp [hp]
    | false => rw [List.filter_cons_of_neg (by simp [hp]), ih, List.all_cons, hp]; rfl

end Members

/-- What a call is told by: the name, the number of parameters, and whether the method takes any
number of arguments and is static. -/
def Declaration.signature (d : Declaration) : String × Nat × Bool × Bool :=
  (d.name, d.arity, d.varargs, d.isStatic)

namespace KnownNames

variable {k k' : KnownNames}

/-- The two make the same names known. -/
structure Agree (k k' : KnownNames) : Prop where
  values : ∀ name, name ∈ k.values ↔ name ∈ k'.values
  types : ∀ name, name ∈ k.types ↔ name ∈ k'.types
  staticImports : ∀ name, name ∈ k.staticImports ↔ name ∈ k'.staticImports
  methods : ∀ signature, signature ∈ k.methods.map (·.signature) ↔
    signature ∈ k'.methods.map (·.signature)
  fields : ∀ field, field ∈ k.fields ↔ field ∈ k'.fields

namespace Agree

/-! ## Chains of names -/

/-- What is known alike tells the same types. -/
theorem isType_eq (h : k.Agree k') (name : String) : k.isType name = k'.isType name := by
  rw [isType, isType, contains_eq_of_mem_iff h.types, contains_eq_of_mem_iff h.values]

/-- What is known alike gives the head of a chain the same meaning. -/
theorem headMeaning_eq (h : k.Agree k') (name : String) :
    k.headMeaning name = k'.headMeaning name := by
  rw [headMeaning, headMeaning, contains_eq_of_mem_iff h.values, h.isType_eq]

/-- What is known alike extends a meaning alike. -/
theorem extendMeaning_eq (h : k.Agree k') (before : Meaning) (name : String) :
    k.extendMeaning before name = k'.extendMeaning before name := by
  cases before with
  | type => rw [extendMeaning, extendMeaning, contains_eq_of_mem_iff h.types]
  | value => rfl
  | unknown => rw [extendMeaning, extendMeaning, h.isType_eq]

/-- What is known alike gives a chain the same meaning. -/
theorem chainMeaning_eq (h : k.Agree k') (chain : List String) :
    k.chainMeaning chain = k'.chainMeaning chain := by
  have hextend : k.extendMeaning = k'.extendMeaning :=
    funext fun before => funext fun name => h.extendMeaning_eq before name
  cases chain with
  | nil => rfl
  | cons first more => rw [chainMeaning, chainMeaning, hextend, h.headMeaning_eq]

/-! ## Members of the file -/

/-- A test on all methods that only looks at what tells a call. -/
theorem all_methods_eq (h : k.Agree k') {test : Declaration → Bool}
    (p : String × Nat × Bool × Bool → Bool) (hp : ∀ m, test m = p m.signature) :
    k.methods.all test = k'.methods.all test := by
  have htest : test = p ∘ Declaration.signature := funext hp
  rw [htest, ← List.all_map, ← List.all_map]
  exact all_eq_of_mem_iff h.methods p

/-- What is known alike resolves a method alike. -/
theorem resolveMethod_eq (h : k.Agree k') (a : MemberAccess) :
    k.resolveMethod a = k'.resolveMethod a := by
  have hall : ∀ q : Bool → Bool, (k.methods.all fun m =>
        !(m.name == a.name && accepts a.arity m) || q m.isStatic) =
      k'.methods.all fun m => !(m.name == a.name && accepts a.arity m) || q m.isStatic :=
    fun q => h.all_methods_eq
      (fun (name, arity, varargs, isStatic) =>
        !(name == a.name && accepts a.arity ⟨.method, name, 0, "", arity, varargs, isStatic⟩) ||
          q isStatic)
      fun _ => rfl
  have hnone := hall fun _ => false
  have hstatic := hall id
  have hinstance := hall not
  simp only [Bool.or_false, id_eq] at hnone hstatic
  simp only [resolveMethod, isEmpty_filter, List.all_filter, hnone, hstatic, hinstance,
    contains_eq_of_mem_iff h.staticImports]

/-- What is known alike has the same flags for a field. -/
theorem fieldFlags_mem_iff (h : k.Agree k') (name : String) (flag : Bool) :
    (flag ∈ k.fields.filterMap fun (field, isStatic) =>
        if field == name then some isStatic else none) ↔
      flag ∈ k'.fields.filterMap fun (field, isStatic) =>
        if field == name then some isStatic else none := by
  rw [List.mem_filterMap, List.mem_filterMap]
  exact exists_congr fun field => by rw [h.fields field]

/-- What is known alike resolves a field alike. -/
theorem resolveField_eq (h : k.Agree k') (a : MemberAccess) :
    k.resolveField a = k'.resolveField a := by
  have hall := all_eq_of_mem_iff (h.fieldFlags_mem_iff a.name)
  have hempty : ∀ flags : List Bool, flags.isEmpty = flags.all fun _ => false := by
    intro flags
    cases flags <;> rfl
  simp only [resolveField, hempty, hall]

/-- What is known alike resolves a qualified access alike. -/
theorem resolveQualified_eq (h : k.Agree k') (a : MemberAccess) :
    k.resolveQualified a = k'.resolveQualified a := by
  rw [resolveQualified, resolveQualified, h.chainMeaning_eq, h.isType_eq]

/-- Known names with the same members resolve every access in the same way. -/
theorem resolve_eq (h : k.Agree k') (a : MemberAccess) : k.resolve a = k'.resolve a := by
  rw [resolve, resolve, h.resolveMethod_eq, h.resolveField_eq, h.resolveQualified_eq]

end Agree

end KnownNames

end Assay.Source
