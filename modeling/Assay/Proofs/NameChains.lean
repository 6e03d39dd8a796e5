import Assay.Proofs.NameResolution
import Mathlib.Data.List.Basic

/-!
# Chains of names

What the accesses of a chain of names such as `a.B.c.d()` go to. Each is resolved by itself, from the
text of its qualifier. Main statement: once a static field is read, all that follows goes to members of
values, unless the field is named like a type (`name_chains_settle`): then the next access is resolved
as if it belonged to a type once more.
-/

namespace Assay

/-! ## Names between separators -/

section Pieces

variable {sep : Char} {piece : List Char} {pieces : List (List Char)}

theorem Text.splitAt_of_not_mem (h : sep ∉ piece) : Text.splitAt sep piece = [piece] := by
  induction piece with
  | nil => rfl
  | cons c cs ih =>
    rw [List.mem_cons, not_or] at h
    rw [Text.splitAt, if_neg (by simpa using Ne.symm h.1), ih h.2]

theorem Text.splitAt_append (h : sep ∉ piece) (cs : List Char) :
    Text.splitAt sep (piece ++ sep :: cs) = piece :: Text.splitAt sep cs := by
  induction piece with
  | nil => simp [Text.splitAt]
  | cons c piece ih =>
    rw [List.mem_cons, not_or] at h
    rw [List.cons_append, Text.splitAt, if_neg (by simpa using Ne.symm h.1), ih h.2]

/-- Texts without the separator are the pieces of what they make with it in between. -/
theorem Text.splitAt_intercalate (hne : pieces ≠ []) (h : ∀ p ∈ pieces, sep ∉ p) :
    Text.splitAt sep ([sep].intercalate pieces) = pieces := by
  induction pieces with
  | nil => exact absurd rfl hne
  | cons p more ih =>
    cases more with
    | nil =>
      rw [List.intercalate_singleton]
      exact splitAt_of_not_mem (h p (by simp))
    | cons q more =>
      rw [List.intercalate_cons_cons, List.append_assoc, List.singleton_append,
        splitAt_append (h p (by simp)), ih (by simp) fun r hr => h r (List.mem_cons_of_mem p hr)]

end Pieces

namespace Source

/-- The accesses read a chain of names one after the other: each is qualified by the names before it,
and only the last may be a call. -/
inductive NameChain : List String → List MemberAccess → Prop
  | nil (names : List String) : NameChain names []
  | cons {names : List String} {a : MemberAccess} {after : List MemberAccess}
      (kind : a.qualifierKind = .name) (qualifier : a.qualifier = String.intercalate "." names)
      (call : a.kind = .method → after = []) (dotless : '.' ∉ a.name.toList)
      (later : NameChain (names ++ [a.name]) after) : NameChain names (a :: after)

namespace KnownNames

variable {k : KnownNames} {names : List String} {name : String} {a : MemberAccess}
  {after : List MemberAccess}

/-! ## What the qualifier stands for -/

theorem chainMeaning_snoc (hne : names ≠ []) (name : String) :
    k.chainMeaning (names ++ [name]) = k.extendMeaning (k.chainMeaning names) name := by
  cases names with
  | nil => exact absurd rfl hne
  | cons first more =>
    rw [List.cons_append, chainMeaning, chainMeaning, List.foldl_append]
    rfl

/-- An access whose qualifier spells a list of names is resolved by what the list stands for. -/
theorem resolve_of_names (hne : names ≠ []) (hdotless : ∀ name ∈ names, '.' ∉ name.toList)
    (hkind : a.qualifierKind = .name) (hqualifier : a.qualifier = String.intercalate "." names) :
    k.resolve a = match k.chainMeaning names with
      | .type => if a.kind == .field && k.isType a.name then .unknown .nestedType else .static
      | .value => .nonStatic
      | .unknown => .unknown (.undeclaredQualifier a.qualifier) := by
  have hpieces : (Text.splitAt '.' a.qualifier.toList).map String.ofList = names := by
    have hlist : a.qualifier.toList = ['.'].intercalate (names.map String.toList) := by
      rw [hqualifier, String.toList_intercalate]
      rfl
    rw [hlist, Text.splitAt_intercalate (by simpa using hne) (by simpa using hdotless), List.map_map]
    simp [Function.comp_def]
  rw [resolve, hkind, ← hpieces]
  rfl

/-- A static access belongs to a type, and it is not the name of a type nested in it. -/
theorem type_of_static (hne : names ≠ []) (hdotless : ∀ name ∈ names, '.' ∉ name.toList)
    (hkind : a.qualifierKind = .name) (hqualifier : a.qualifier = String.intercalate "." names)
    (hstatic : k.resolve a = .static) :
    k.chainMeaning names = .type ∧ (a.kind = .field → k.isType a.name = false) := by
  rw [resolve_of_names hne hdotless hkind hqualifier] at hstatic
  cases hmeaning : k.chainMeaning names with
  | type => exact ⟨rfl, fun hfield => by simpa [hmeaning, hfield] using hstatic⟩
  | value => simp [hmeaning] at hstatic
  | unknown => simp [hmeaning] at hstatic

/-- The name of a static field is a value's exactly if it does not look like a type. -/
theorem extendMeaning_of_not_isType (h : k.isType name = false) :
    k.extendMeaning .type name = if looksLikeType name then .type else .value := by
  simp only [isType, Bool.or_eq_false_iff] at h
  rw [extendMeaning, h.1, Bool.or_false]

/-- A name that looks like a type and is none stands for a value. -/
theorem mem_values_of_not_isType (h : k.isType name = false) (hlooks : looksLikeType name = true) :
    name ∈ k.values := by
  have hvalue : k.types.contains name = false ∧ k.values.contains name = true := by
    simpa [isType, hlooks] using h
  simpa using hvalue.2

/-- Behind a value all accesses of a chain go to members of values. -/
theorem nonStatic_of_value (hne : names ≠ []) (hdotless : ∀ name ∈ names, '.' ∉ name.toList)
    (h : NameChain names after) (hvalue : k.chainMeaning names = .value) :
    ∀ b ∈ after, k.resolve b = .nonStatic := by
  induction h with
  | nil => simp
  | @cons names a after hkind hqualifier _ hname _ ih =>
    intro b hb
    rcases List.mem_cons.1 hb with rfl | hb
    · rw [resolve_of_names hne hdotless hkind hqualifier, hvalue]
    · refine ih (by simp) ?_ ?_ b hb
      · intro name hmem
        rcases List.mem_append.1 hmem with hmem | hmem
        · exact hdotless name hmem
        · rwa [List.mem_singleton.1 hmem]
      · rw [chainMeaning_snoc hne, hvalue, extendMeaning]

/-- What a static field at the start of a chain is taken for by the access behind it. -/
theorem chainMeaning_of_static (hne : names ≠ []) (hdotless : ∀ name ∈ names, '.' ∉ name.toList)
    (hkind : a.qualifierKind = .name) (hqualifier : a.qualifier = String.intercalate "." names)
    (hfield : a.kind = .field) (hstatic : k.resolve a = .static) :
    k.chainMeaning (names ++ [a.name]) = (if looksLikeType a.name then .type else .value) ∧
      (looksLikeType a.name = true → a.name ∈ k.values) := by
  obtain ⟨htype, hname⟩ := type_of_static hne hdotless hkind hqualifier hstatic
  refine ⟨?_, mem_values_of_not_isType (hname hfield)⟩
  rw [chainMeaning_snoc hne, htype, extendMeaning_of_not_isType (hname hfield)]

end KnownNames

/-! ## Whole chains -/

/-- The accesses from one place of a chain on are a chain behind the names up to there. -/
theorem NameChain.behind {names : List String} {before after : List MemberAccess}
    (h : NameChain names (before ++ after)) :
    NameChain (names ++ before.map (·.name)) after ∧ ∀ a ∈ before, '.' ∉ a.name.toList := by
  induction before generalizing names with
  | nil => simpa using h
  | cons a before ih =>
    cases h with
    | cons _ _ _ hname h =>
      obtain ⟨hafter, hbefore⟩ := ih h
      exact ⟨by simpa using hafter, List.forall_mem_cons.2 ⟨hname, hbefore⟩⟩

/-- If nothing of a kind follows anything of the kind, a list has at most one item of it. -/
theorem countP_le_one {α : Type} {p : α → Bool} {l : List α}
    (h : ∀ before a after, l = before ++ a :: after → p a = true → ∀ b ∈ after, p b = false) :
    l.countP p ≤ 1 := by
  induction l with
  | nil => simp
  | cons a l ih =>
    cases ha : p a with
    | true =>
      have hrest : l.countP p = 0 :=
        List.countP_eq_zero.2 fun b hb => by simp [h [] a l rfl ha b hb]
      exact Nat.le_of_eq (by rw [List.countP_cons_of_pos ha, hrest])
    | false =>
      rw [List.countP_cons_of_neg (by simp [ha])]
      exact ih fun before b after hl => h (a :: before) b after (hl ▸ rfl)

variable {first : String} {chain before after later : List MemberAccess} {a b : MemberAccess}

/-- What comes behind a static access of a chain, for the names that a file makes known. -/
theorem KnownNames.behind_static (k : KnownNames) (hfirst : '.' ∉ first.toList)
    (h : NameChain [first] (before ++ a :: after)) (hstatic : k.resolve a = .static) :
    (looksLikeType a.name = false → ∀ b ∈ after, k.resolve b = .nonStatic) ∧
      (looksLikeType a.name = true → ∀ b later, after = b :: later →
        a.name ∈ k.values ∧ k.resolve b =
          if b.kind = .field ∧ k.isType b.name = true then .unknown .nestedType else .static) := by
  obtain ⟨hplace, hbefore⟩ := h.behind
  have hne : [first] ++ before.map (·.name) ≠ [] := by simp
  have hdotless : ∀ name ∈ [first] ++ before.map (·.name), '.' ∉ name.toList := by
    simpa using ⟨hfirst, hbefore⟩
  cases hplace with
  | cons hkind hqualifier hcall hname hafter =>
    have hdotless' : ∀ name ∈ [first] ++ before.map (·.name) ++ [a.name], '.' ∉ name.toList := by
      rw [List.forall_mem_append]
      exact ⟨hdotless, by simpa using hname⟩
    cases hafter with
    | nil => simp
    | @cons _ b later hkind' hqualifier' hcall' hname' hlater =>
      -- something follows, so the static access is that of a field
      have hfield : a.kind = .field := by
        cases ha : a.kind with
        | field => rfl
        | method => cases hcall ha
      obtain ⟨hmeaning, hvalue⟩ :=
        chainMeaning_of_static hne hdotless hkind hqualifier hfield hstatic
      refine ⟨fun hlooks => ?_, fun hlooks c rest hc => ?_⟩
      -- a name that is no type makes the chain a value
      · refine nonStatic_of_value (by simp) hdotless'
          (.cons hkind' hqualifier' hcall' hname' hlater) ?_
        rw [hmeaning, hlooks]
        rfl
      · obtain ⟨rfl, -⟩ := List.cons.inj hc
        refine ⟨hvalue hlooks, ?_⟩
        rw [resolve_of_names (by simp) hdotless' hkind' hqualifier', hmeaning, hlooks]
        simp

/-- What follows a static access in a chain of names. If the static access is a field whose name does
not look like a type, all later accesses go to members of values. A static field whose name looks like
a type stands for a value of the file; the access behind it is still resolved as if it belonged to a
type: it is static too, unless it reads the name of a type. So a chain has at most one static access if
it passes through no value that is named like a type. -/
theorem name_chains_settle (u : CompilationUnit) (hfirst : '.' ∉ first.toList)
    (h : NameChain [first] chain) :
    (∀ before a after, chain = before ++ a :: after → u.resolve a = .static →
      (looksLikeType a.name = false → ∀ b ∈ after, u.resolve b = .nonStatic) ∧
      (looksLikeType a.name = true → ∀ b later, after = b :: later →
        a.name ∈ u.valueNames ∧ u.resolve b =
          if b.kind = .field ∧ u.knownNames.isType b.name = true then .unknown .nestedType
          else .static)) ∧
    ((∀ a ∈ chain.dropLast, a.name ∈ u.valueNames → looksLikeType a.name = false) →
      chain.countP (fun a => (u.resolve a).isStatic) ≤ 1) := by
  refine ⟨fun before a after hchain hstatic =>
    u.knownNames.behind_static hfirst (hchain ▸ h) hstatic, fun hnames => countP_le_one ?_⟩
  intro before a after hchain hstatic b hb
  have hstatic : u.resolve a = .static := by
    cases ha : u.resolve a <;> simp [ha, Resolution.isStatic] at hstatic ⊢
  obtain ⟨hvalue, htype⟩ := u.knownNames.behind_static hfirst (hchain ▸ h) hstatic
  -- behind a static access there is another one only if its name looks like a type
  cases hlooks : looksLikeType a.name with
  | false =>
    have hb : u.resolve b = .nonStatic := hvalue hlooks b hb
    rw [hb]
    rfl
  | true =>
    obtain ⟨c, later, rfl⟩ := List.exists_cons_of_ne_nil (List.ne_nil_of_mem hb)
    have hmem : a ∈ chain.dropLast := by
      rw [hchain, List.dropLast_append_of_ne_nil (by simp)]
      simp
    rw [hnames a hmem (htype hlooks c later rfl).1] at hlooks
    cases hlooks

/-- A constant in capitals is read as a value: in `Color.RED.name()` only `RED` is static. -/
theorem name_chains_settle_capitals :
    let text := "enum Color \x7b RED; String m() \x7b return Color.RED.name(); \x7d \x7d"
    let constant : MemberAccess := ⟨.field, "RED", "Color", .name, 1, none⟩
    let call : MemberAccess := ⟨.method, "name", "Color.RED", .name, 1, some 0⟩
    ∃ u, CompilationUnit.parse text = .ok u ∧ u.accesses = [constant, call] ∧
      NameChain ["Color"] [constant, call] ∧ u.resolve constant = .static ∧
      u.resolve call = .nonStatic ∧
      [constant, call].countP (fun a => (u.resolve a).isStatic) ≤ 1 := by
  intro text constant call
  have hparse : (CompilationUnit.parse text).map
      (fun u => (u.accesses, u.resolve constant)) = .ok ([constant, call], .static) := by
    decide +kernel
  have hchain : NameChain ["Color"] [constant, call] :=
    .cons rfl rfl (fun h => nomatch h) (by decide)
      (.cons rfl (by decide) (fun _ => rfl) (by decide) (.nil _))
  obtain ⟨u, hu, htold⟩ := CompilationUnit.exists_of_parse_map hparse
  obtain ⟨haccesses, hstatic⟩ := Prod.mk.inj htold
  obtain ⟨hbehind, hcount⟩ := name_chains_settle u (by decide) hchain
  refine ⟨u, hu, haccesses, hchain, hstatic,
    (hbehind [] constant [call] rfl hstatic).1 (by decide) call (by simp), hcount fun a ha _ => ?_⟩
  obtain rfl : a = constant := by simpa using ha
  decide

/-- A constant that is named like a type is a value when it is read and a type when something is read
from it: in `Color.Red.name()` both accesses are static. -/
theorem type_like_constant_static_twice :
    let text := "enum Color \x7b Red; String m() \x7b return Color.Red.name(); \x7d \x7d"
    let constant : MemberAccess := ⟨.field, "Red", "Color", .name, 1, none⟩
    let call : MemberAccess := ⟨.method, "name", "Color.Red", .name, 1, some 0⟩
    NameChain ["Color"] [constant, call] ∧
      ∃ u, CompilationUnit.parse text = .ok u ∧ u.accesses = [constant, call] ∧
        u.resolve constant = .static ∧ u.resolve call = .static := by
  intro text constant call
  have hparse : (CompilationUnit.parse text).map
      (fun u => (u.accesses, u.resolve constant, u.resolve call)) =
      .ok ([constant, call], .static, .static) := by decide +kernel
  refine ⟨.cons rfl rfl (fun h => nomatch h) (by decide)
    (.cons rfl (by decide) (fun _ => rfl) (by decide) (.nil _)), ?_⟩
  obtain ⟨u, hu, htold⟩ := CompilationUnit.exists_of_parse_map hparse
  obtain ⟨haccesses, hresolved⟩ := Prod.mk.inj htold
  obtain ⟨hconstant, hcall⟩ := Prod.mk.inj hresolved
  exact ⟨u, hu, haccesses, hconstant, hcall⟩

end Source

end Assay
