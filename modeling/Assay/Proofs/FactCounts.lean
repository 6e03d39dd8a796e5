import Assay.Proofs.FrontEnd
import Assay.Proofs.PaymentMembers

/-!
# No fact is counted twice

A file that is read pays for all its facts with marks of its tokens, and no mark is used twice. So the
tokens bound what is counted: accesses by dots and parentheses, loops and `catch` clauses by their
keywords, declarations by identifiers. The main statement is `facts_told_by_tokens`.
-/

namespace Assay.Source

open Assay.Source.Parser

variable {held : List Mark} {nested : Construct → Parser Unit} {facts : List Fact} {m : Mark}

/-! ## Files -/

/-- A dotted name leaves the mark of its first name. -/
theorem Pays.dottedName : Pays held (fun _ => .identifier :: held) Parser.dottedName := by
  intro ts hproper s r hr
  obtain ⟨hsuffix, hlt, hfacts⟩ := (Runs.settles (fun _ => Takes.dottedName) hproper s).ok hr
  obtain ⟨first, hfirst, -⟩ := bind_eq_ok.1 hr
  obtain ⟨rfl, hname⟩ := name_eq_ok hfirst
  have hmark : first.value.bears .identifier := (Bool.and_eq_true_iff.1 hname).1
  rw [hfacts]
  rcases List.suffix_cons_iff.1 hsuffix with hrest | hrest
  · have hshorter := hlt trivial
    rw [hrest] at hshorter
    exact absurd hshorter (Nat.lt_irrefl _)
  · exact (Paid.token hmark first.rest held).trans (.of_suffix hrest)

/-- A package declaration pays for its package with its name. -/
theorem Covers.packageDeclaration : Covers held Parser.packageDeclaration := by
  refine Covers.skipAnnotations.bind fun _ => (Covers.sees "package").bind fun _ => .cond ?_ (.pure _)
  exact Covers.line.bind fun _ => Covers.skip.bind fun _ => Pays.dottedName.bind fun _ =>
    (Covers.expect ";").bind fun _ => .declareCallable

/-- An import declaration pays for its import with its word. -/
theorem Covers.importDeclaration : Covers held Parser.importDeclaration := by
  refine (Covers.expect "import").bind fun _ => .seesWhen fun isStatic _ =>
    (Pays.silent fun _ => Takes.dottedName).bind fun imported => .ahead fun ts => ?_
  have hrest : ∀ wildcard, Covers held (do
      Parser.expect ";"
      Parser.record (.importOf ⟨imported, isStatic, wildcard⟩)) :=
    fun wildcard => (Covers.expect ";").bind fun _ => .record (.importOf ⟨imported, isStatic, wildcard⟩)
  refine .ite (fun _ => ?_) fun _ => hrest _ ts
  exact (PaysAt.resumeAt (List.drop_suffix 2 ts)).bind fun _ => hrest _

namespace Solvent

/-- A top level declaration is covered where the recursion is. -/
theorem topLevelDeclaration (h : Solvent nested) :
    Covers held (Parser.topLevelDeclaration nested) := by
  have hskip : Covers held Parser.skip := .skip
  refine .ahead fun ts => .ite (fun _ => hskip ts) fun _ =>
    .ite (fun _ => Pays.silent (fun _ => Takes.moduleDeclaration) ts) fun _ => ?_
  exact Covers.line.bind (fun line => (Covers.discardModifiers _).bind fun _ =>
    (h.typeDeclaration line).bind fun _ => .cond (.failAhead _) (.pure _)) ts

/-- A file is covered where the recursion is. -/
theorem file (h : Solvent nested) : Covers held (Parser.file nested) := by
  refine Covers.packageDeclaration.bind fun _ => (Covers.repeatWhile ?_).bind fun _ =>
    Covers.repeatWhile ?_
  · exact (Covers.sees "import").bind fun _ => .cond (Covers.importDeclaration.bind fun _ => .pure _) <|
      .seesSkip (.pure _) (.pure _)
  · exact .ahead fun ts => .ite (fun _ => Pays.pure _ ts) fun _ =>
      h.topLevelDeclaration.bind (fun _ => .pure _) ts

end Solvent

/-- The code of a file bears every mark at least as often as its facts are told by it. -/
theorem demand_le_supply {text : String} {all : List Token} (h : tokens text = .ok all)
    (hfacts : factsOf (codeOf all) = .ok facts) (m : Mark) : demand facts m ≤ supply (codeOf all) m := by
  have hpaid : Paid [] (codeOf all) facts [] [] :=
    (solvent_construct _).file _ (proper_codeOf h) _ _ (factsOf_eq_ok.1 hfacts)
  exact Nat.le_trans (Nat.le_trans (Nat.le_add_right _ _) (Nat.le_add_right _ _)) (hpaid.2 m)

/-! ## What is counted -/

/-- Facts of two sorts are told by a mark, if a fact of either sort needs it, and one of both sorts
twice. -/
theorem countP_add_le_demand {p q : Fact → Bool}
    (h : ∀ fact, (p fact).toNat + (q fact).toNat ≤ fact.needs.count m) (facts : List Fact) :
    facts.countP p + facts.countP q ≤ demand facts m := by
  have hone : ∀ b : Bool, (if b = true then 1 else 0) = b.toNat := by decide
  induction facts with
  | nil => simp
  | cons fact facts ih =>
    have hfact := h fact
    have hdemand : demand (fact :: facts) m = fact.needs.count m + demand facts m :=
      List.count_append
    rw [hdemand, List.countP_cons, List.countP_cons, hone, hone]
    omega

/-- Facts of a sort that needs a mark are no more than the demand for it. -/
theorem countP_le_demand {p : Fact → Bool} (h : ∀ fact, (p fact).toNat ≤ fact.needs.count m)
    (facts : List Fact) : facts.countP p ≤ demand facts m := by
  have hboth : facts.countP p + facts.countP (fun _ => false) ≤ demand facts m :=
    countP_add_le_demand (fun fact => by simpa using h fact) facts
  simpa using hboth

/-- An access of a field needs a dot, and so does a qualified call. -/
theorem needs_dot (kind : AccessKind) (qualifierKind : QualifierKind) :
    (kind == .field).toNat + (kind == .method && qualifierKind != .none).toNat ≤
      (kind.needs qualifierKind).count (.word ".") := by
  cases kind <;> cases qualifierKind <;> decide

/-- An access of a method needs a parenthesis. -/
theorem needs_parenthesis (kind : AccessKind) (qualifierKind : QualifierKind) :
    (kind == .method).toNat ≤ (kind.needs qualifierKind).count (.word "(") := by
  cases kind <;> cases qualifierKind <;> decide

/-- Methods and constructors need a parenthesis. -/
theorem DeclarationKind.needs_parenthesis (kind : DeclarationKind) :
    ([DeclarationKind.method, .constructor].contains kind).toNat ≤ kind.needs.count (.word "(") := by
  cases kind <;> decide

/-- Every declaration needs an identifier. -/
theorem DeclarationKind.needs_identifier (kind : DeclarationKind) :
    1 ≤ kind.needs.count .identifier := by
  cases kind <;> decide

/-- Loops of some kinds are told by a mark that each of these kinds needs. -/
theorem CompilationUnit.countLoops_le_demand {kinds : List LoopKind} (hkinds : kinds ≠ [])
    (hneeds : ∀ kind : LoopKind, (kinds.contains kind).toNat ≤ kind.needs.count m)
    (u : CompilationUnit) : u.countLoops kinds ≤ demand u.facts m := by
  rw [countLoops, if_neg (by simpa using hkinds), ← List.countP_eq_length_filter, loops,
    List.countP_filterMap]
  refine countP_le_demand (fun fact => ?_) u.facts
  cases fact with
  | loop l => exact hneeds l.kind
  | _ => exact Nat.zero_le _

/-- What is counted in a file is told by tokens of its code, by different ones for different things. -/
structure CompilationUnit.ToldBy (u : CompilationUnit) (code : List Token) : Prop where
  /-- Fields, and methods of something, are accessed behind a dot. -/
  dots : u.accesses.countP (·.kind == .field) +
      u.accesses.countP (fun a => a.kind == .method && a.qualifierKind != .none) ≤
    code.countP (·.spells ".")
  /-- Calls, methods and constructors have a parenthesis. -/
  parentheses : u.accesses.countP (·.kind == .method) + u.countDeclarations [.method, .constructor] ≤
    code.countP (·.spells "(")
  for_words : u.countLoops [.forLoop, .forEachLoop] ≤ code.countP (·.spells "for")
  do_words : u.countLoops [.doLoop] ≤ code.countP (·.spells "do")
  while_words : u.countLoops [.whileLoop, .doLoop] ≤ code.countP (·.spells "while")
  catch_words : u.catchClauses.length ≤ code.countP (·.spells "catch")
  /-- Everything that is declared has a name. -/
  names : u.declarations.length ≤ code.countP (·.isIdentifier)

/-- Where no demand exceeds its supply, all the bounds hold. -/
theorem CompilationUnit.toldBy {u : CompilationUnit} {code : List Token}
    (h : ∀ m, demand u.facts m ≤ supply code m) : u.ToldBy code where
  dots := by
    -- each bound is the demand for one mark: what is counted needs it, every other fact may
    refine Nat.le_trans ?_ (h (.word "."))
    rw [CompilationUnit.accesses, List.countP_filterMap, List.countP_filterMap]
    refine countP_add_le_demand (fun fact => ?_) u.facts
    cases fact with
    | access a => exact needs_dot a.kind a.qualifierKind
    | _ => exact Nat.zero_le _
  parentheses := by
    refine Nat.le_trans ?_ (h (.word "("))
    rw [countDeclarations, declarationsOf, ← List.countP_eq_length_filter, declarations, accesses,
      List.countP_filterMap, List.countP_filterMap]
    refine countP_add_le_demand (fun fact => ?_) u.facts
    cases fact with
    | access a => exact needs_parenthesis a.kind a.qualifierKind
    | declaration d => exact (Nat.zero_add _).trans_le d.kind.needs_parenthesis
    | _ => exact Nat.zero_le _
  for_words := Nat.le_trans
    (countLoops_le_demand (by decide) (fun kind => by cases kind <;> decide) u) (h (.word "for"))
  do_words := Nat.le_trans
    (countLoops_le_demand (by decide) (fun kind => by cases kind <;> decide) u) (h (.word "do"))
  while_words := Nat.le_trans
    (countLoops_le_demand (by decide) (fun kind => by cases kind <;> decide) u) (h (.word "while"))
  catch_words := by
    refine Nat.le_trans ?_ (h (.word "catch"))
    rw [← List.countP_true, catchClauses, List.countP_filterMap]
    refine countP_le_demand (fun fact => ?_) u.facts
    cases fact with
    | catchClause line => exact Nat.le_refl 1
    | _ => exact Nat.zero_le _
  names := by
    refine Nat.le_trans ?_ (h .identifier)
    rw [← List.countP_true, declarations, List.countP_filterMap]
    refine countP_le_demand (fun fact => ?_) u.facts
    cases fact with
    | declaration d => exact d.kind.needs_identifier
    | _ => exact Nat.zero_le _

/-- Nothing is counted twice: a file that is read has no more accesses behind a dot than dots, no more
calls, methods and constructors than parentheses, no more loops and `catch` clauses than keywords of
theirs, and no more declarations than identifiers. -/
theorem facts_told_by_tokens {text : String} {u : CompilationUnit}
    (h : CompilationUnit.parse text = .ok u) :
    ∃ all, tokens text = .ok all ∧ u.ToldBy (codeOf all) := by
  obtain ⟨all, hall, hfacts⟩ := parse_ok h
  exact ⟨all, hall, CompilationUnit.toldBy (demand_le_supply hall hfacts)⟩

/-- A `do` loop with a call in the arguments of a call, and a lambda expression. -/
theorem facts_told_by_tokens_nested :
    let text := "class A \x7b void m() \x7b do a.b(c(), x -> x.y); while (d); \x7d \x7d"
    ∃ u all, CompilationUnit.parse text = .ok u ∧ u.accesses.length = 3 ∧ tokens text = .ok all ∧
      u.ToldBy (codeOf all) := by
  intro text
  have hparse : (CompilationUnit.parse text).map (·.accesses.length) = .ok 3 := by decide +kernel
  obtain ⟨u, hu, haccesses⟩ := CompilationUnit.exists_of_parse_map hparse
  obtain ⟨all, hall, htold⟩ := facts_told_by_tokens hu
  exact ⟨u, all, hu, haccesses, hall, htold⟩

end Assay.Source
