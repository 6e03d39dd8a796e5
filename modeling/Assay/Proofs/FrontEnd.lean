import Assay.Proofs.BracketBalance
import Assay.Proofs.Nesting
import Assay.Proofs.ProgressMembers
import Assay.Proofs.TokenLines

/-!
# The outcome of reading a file

A text is read to its end or fails at one place. The parsers never lose their way: what is left is an
end of what was there, no loop stalls, and a failure is on a line of the text. Only constructs that are
nested deeper than there is room for stop a reading in another way, and for every text there is room
enough. The facts of a file that is read fit together.

Main statements: how every text ends (`parse_settles`), and what the structure of a file owes itself
(`parse_consistent`).
-/

namespace Assay.Source

open Assay.Source.Parser

variable {ts : List Token} {d k : Nat} {nested : Construct → Parser Unit} {s : Scope}

/-! ## Declarations at the top of a file -/

/-- An import declaration takes its word. -/
theorem Takes.importDeclaration : Takes consistency d k Parser.importDeclaration := by
  refine (Takes.expect "import").step fun _ => .seesWhen fun isStatic _ =>
    Takes.dottedName.keeps.bind fun imported => .ahead fun ts => ?_
  have hrest : ∀ wildcard, Keeps consistency d (k + 3) (do
      Parser.expect ";"
      Parser.record (.importOf ⟨imported, isStatic, wildcard⟩)) :=
    fun _ => (Takes.expect ";").keeps.bind fun _ => Keeps.record fun _ => Consistent.importOf
  refine .ite (fun _ => ?_) fun _ => hrest _ ts
  exact .bind (.resumeAt (List.drop_suffix 2 ts) fun _ => False.elim) fun _ => hrest _

/-- A module declaration takes its word. -/
theorem Takes.moduleDeclaration {L : Law} : Takes L d k Parser.moduleDeclaration :=
  (Keeps.untilSees "\x7b" Takes.skip).bind fun _ => Takes.skipGroup

/-- A top level declaration takes a token at least. -/
theorem Sturdy.topLevelDeclaration (h : Sturdy d nested) :
    Takes consistency d k (Parser.topLevelDeclaration nested) := by
  have hfault : ∀ text, (Fault.expectedType text).IsFair := fun _ => ⟨nofun, .inl rfl⟩
  refine .ahead fun ts => .ite (fun _ => Takes.skip ts) fun _ =>
    .ite (fun _ => Takes.moduleDeclaration ts) fun _ => ?_
  exact Keeps.line.bind (fun line => (Keeps.modifiers memberModifiers).discard.bind fun _ ts =>
    .unless (h.typeDeclaration line ts) (.failAhead hfault)) ts

/-- The facts of a file: the package first, if it is declared, and facts that fit together. -/
def FileFacts (facts : List Fact) : Prop :=
  ∃ package rest, facts = package ++ rest ∧ Consistent "" rest ∧
    (package = [] ∨ ∃ name line, package = [.declaration ⟨.package, name, line, "", 0, false, false⟩])

/-- A package declaration settles, and records its package or nothing. -/
theorem Settles.packageDeclaration (hproper : Proper ts) (howner : s.owner = "") :
    Settles s ts Parser.packageDeclaration fun r => r.facts = [] ∨ ∃ name line,
      r.facts = [.declaration ⟨.package, name, line, "", 0, false, false⟩] := by
  refine (Runs.settles (fun _ => Keeps.skipAnnotations) hproper s).silently fun a hsuffix _ => ?_
  have hproper' := hproper.of_suffix hsuffix
  refine .still (sees_apply "package" s a.rest) (.ite (fun _ => ?_) fun _ => ?_)
  · refine .still (line_apply s a.rest) ?_
    refine (Runs.settles (fun _ => Takes.skip) hproper' s).silently fun b hb _ => ?_
    have hproper'' := hproper'.of_suffix hb
    refine (Runs.settles (fun _ => Takes.dottedName) hproper'' s).silently fun c hc _ => ?_
    refine (Runs.settles (fun _ => Takes.expect ";") (hproper''.of_suffix hc) s).silently fun e _ _ => ?_
    refine .of_ok rfl (List.suffix_refl _) (.inr ⟨c.value, lineAt s a.rest, ?_⟩)
    rw [← howner]
    rfl
  · exact .of_ok (pure_apply () s a.rest) (List.suffix_refl _) (.inl rfl)

/-- A file settles on a budget of three levels a token, and its facts are those of a file. -/
theorem Sturdy.file (h : Sturdy d nested) (hproper : Proper ts) (hbudget : 3 * ts.length ≤ d)
    (howner : s.owner = "") : Settles s ts (Parser.file nested) fun r => FileFacts r.facts := by
  refine (Settles.packageDeclaration hproper howner).bind fun a hsuffix ha => ?_
  -- all that comes after the package is one parser under the law
  have hdeclarations : Keeps consistency d 0 (do
      repeatWhile do
        if ← sees "import" then
          Parser.importDeclaration
          return true
        else if ← sees ";" then
          skip
          return true
        else return false
      repeatWhile do
        if (← ahead).isEmpty then return false
        Parser.topLevelDeclaration nested
        return true) := by
    refine .bind (Keeps.repeatWhile ?_) fun _ => Keeps.repeatWhile ?_
    · exact (Keeps.sees "import").bind fun _ => .cond (Takes.importDeclaration.step fun _ =>
        .pure _ (by simp)) <|
        .seesSkip (.pure _ (by simp)) (.pure _ (by simp))
    · exact .ahead fun ts => .ite (fun _ => Runs.pure _ (by simp) ts) fun _ =>
        h.topLevelDeclaration.step (fun _ => .pure _ (by simp)) ts
  have hlength := hsuffix.length_le
  refine (hdeclarations a.rest (hproper.of_suffix hsuffix) (by omega) s).mono fun r _ hr => ?_
  exact ⟨a.facts, r.facts, rfl, howner ▸ hr.2, ha⟩

/-! ## How every text ends -/

/-- A file without code is read. -/
theorem file_nil (s : Scope) : Parser.file nested s [] = .ok ⟨(), [], []⟩ := by
  have hpackage : Parser.packageDeclaration s [] = .ok ⟨(), [], []⟩ := by
    have hnone : Parser.skipAnnotations s [] = .ok ⟨(), [], []⟩ := repeatWhile_done rfl
    exact bind_of_ok hnone
  have himports : Parser.repeatWhile (do
      if ← sees "import" then
        Parser.importDeclaration
        return true
      else if ← sees ";" then
        skip
        return true
      else return false) s [] = .ok ⟨(), [], []⟩ := repeatWhile_done rfl
  have hdeclarations : Parser.repeatWhile (do
      if (← ahead).isEmpty then return false
      Parser.topLevelDeclaration nested
      return true) s [] = .ok ⟨(), [], []⟩ := repeatWhile_done rfl
  show (Parser.packageDeclaration >>= fun _ => _ >>= fun _ => _) s [] = _
  rw [bind_of_ok hpackage, bind_of_ok himports, hdeclarations]
  rfl

section Code

variable {text : String} {all : List Token}

/-- The lines of a token are lines of its text. -/
theorem lineIn_of_codeOf (h : tokens text = .ok all) :
    ∀ t ∈ codeOf all, LineIn 1 text.toList t.line ∧ LineIn 1 text.toList t.endLine :=
  fun t ht => lineIn_of_tokensFrom h t (List.mem_filter.1 ht).1

theorem proper_codeOf (h : tokens text = .ok all) : Proper (codeOf all) :=
  fun t ht => proper_of_tokensFrom h t (List.mem_filter.1 ht).1

/-- The code of a text is read to its end, or the reading fails fairly on one of its lines. -/
theorem factsOf_codeOf (h : tokens text = .ok all) :
    (∃ facts, factsOf (codeOf all) = .ok facts ∧ FileFacts facts) ∨
      ∃ e, factsOf (codeOf all) = .error e ∧ e.fault.IsFair ∧ LineIn 1 text.toList e.line := by
  have hfile := (sturdy_construct (depthFor (codeOf all).length)).file (s := openingScope (codeOf all))
    (proper_codeOf h) (by simp only [depthFor]; omega) rfl
  rw [factsOf_eq]
  cases hrun : file (construct (depthFor (codeOf all).length)) (openingScope (codeOf all))
      (codeOf all) with
  | ok r => exact .inl ⟨r.facts, rfl, (hfile.ok hrun).2⟩
  | error e =>
    obtain ⟨hfair, hline⟩ := hfile.error hrun
    refine .inr ⟨e, rfl, hfair, ?_⟩
    rcases hline with hline | ⟨t, ht, hline⟩
    · -- the last line is that of the last token, since a file without code does not fail
      cases hlast : (codeOf all).getLast? with
      | none =>
        rw [List.getLast?_eq_none_iff.1 hlast, file_nil] at hrun
        cases hrun
      | some t =>
        rw [hline, openingScope, hlast]
        exact (lineIn_of_codeOf h t (List.mem_of_getLast? hlast)).2
    · rw [hline]
      exact (lineIn_of_codeOf h t ht).1

end Code

/-- The documentation comments among the tokens of a text. -/
def docCommentsOf (all : List Token) : List DocComment :=
  all.filterMap fun t => if t.kind == .docComment then some ⟨t.line, t.endLine⟩ else none

/-- The number of lines from the first token of a text to the last. -/
def lineSpanOf (all : List Token) : Nat :=
  match all.head?, all.getLast? with
  | some first, some last => last.endLine + 1 - first.line
  | _, _ => 0

/-- The structure of a text that is read as tokens, however the facts of its code are read. -/
theorem parseBy_of_tokens {text : String} {all : List Token} (h : tokens text = .ok all)
    (read : List Token → Except SourceError (List Fact)) :
    CompilationUnit.parseBy read text =
      (read (codeOf all)).map fun facts => ⟨facts, docCommentsOf all, lineSpanOf all⟩ := by
  rw [CompilationUnit.parseBy, h]
  rfl

/-- A text that is no sequence of tokens has no structure, however its code would be read. -/
theorem parseBy_of_invalid {text : String} {e : InvalidToken} (h : tokens text = .error e)
    (read : List Token → Except SourceError (List Fact)) :
    CompilationUnit.parseBy read text = .error ⟨.invalidToken e.near, e.line⟩ := by
  rw [CompilationUnit.parseBy, h]

/-- The structure of a text that is read as tokens. -/
theorem parse_of_tokens {text : String} {all : List Token} (h : tokens text = .ok all) :
    CompilationUnit.parse text =
      (factsOf (codeOf all)).map fun facts => ⟨facts, docCommentsOf all, lineSpanOf all⟩ :=
  parseBy_of_tokens h factsOf

/-- The structure of a text is that of its tokens, with the facts of its code. -/
theorem parse_eq_ok {text : String} {u : CompilationUnit} (h : CompilationUnit.parse text = .ok u) :
    ∃ all facts, tokens text = .ok all ∧ factsOf (codeOf all) = .ok facts ∧
      u = ⟨facts, docCommentsOf all, lineSpanOf all⟩ := by
  cases htokens : tokens text with
  | error f =>
    rw [CompilationUnit.parse, parseBy_of_invalid htokens] at h
    cases h
  | ok all =>
    rw [parse_of_tokens htokens] at h
    cases hfacts : factsOf (codeOf all) with
    | error f =>
      rw [hfacts] at h
      cases h
    | ok facts =>
      rw [hfacts] at h
      cases h
      exact ⟨all, facts, rfl, hfacts, rfl⟩

/-- The structure of a text has the facts of its code. -/
theorem parse_ok {text : String} {u : CompilationUnit} (h : CompilationUnit.parse text = .ok u) :
    ∃ all, tokens text = .ok all ∧ factsOf (codeOf all) = .ok u.facts := by
  obtain ⟨all, facts, hall, hfacts, rfl⟩ := parse_eq_ok h
  exact ⟨all, hall, hfacts⟩

/-- A member, its value and two pairs of parentheses are four constructs. -/
example : CompilationUnit.parseWithin 3 "class A \x7b int x = ((1)); \x7d" = .error ⟨.exhausted, 1⟩ ∧
    (CompilationUnit.parseWithin 4 "class A \x7b int x = ((1)); \x7d").isOk := by
  decide +kernel

/-! ## What the structure of a file owes itself -/

/-- The declarations, accesses and names of a file fit together. -/
structure CompilationUnit.IsConsistent (u : CompilationUnit) : Prop where
  /-- The package is declared first or not at all. -/
  package_first : EachAfter (fun before d => d.kind = .package → before = []) u.declarations
  owner_declared : EachAfter (fun before d => d.owner ≠ "" →
    ∃ e ∈ before, e.kind.isType ∧ e.name = d.owner) u.declarations
  constructor_name : ∀ d ∈ u.declarations, d.kind = .constructor → d.name = d.owner ∧ d.owner ≠ ""
  parameters_before : EachAfter FollowsParameters u.declarations
  variable_value : ∀ d ∈ u.declarations, d.kind = .parameter ∨ d.kind = .variableDeclarator →
    d.name ∈ u.valueNames
  field_flag : ∀ d ∈ u.declarations, (d.kind = .staticField → (d.name, true) ∈ u.fields) ∧
    (d.kind = .instanceField → (d.name, false) ∈ u.fields)
  field_value : ∀ field ∈ u.fields, field.1 ∈ u.valueNames
  access_shaped : ∀ a ∈ u.accesses, a.Shaped
  chain_access : EachAfter FollowsChain u.accesses

theorem mem_valueNames {u : CompilationUnit} {name : String} :
    name ∈ u.valueNames ↔ Fact.value name ∈ u.facts := by
  unfold CompilationUnit.valueNames
  rw [List.mem_filterMap]
  constructor
  · rintro ⟨fact, hfact, hname⟩
    cases fact <;> cases hname
    exact hfact
  · exact fun h => ⟨_, h, rfl⟩

theorem mem_fields {u : CompilationUnit} {field : String × Bool} :
    field ∈ u.fields ↔ Fact.field field.1 field.2 ∈ u.facts := by
  unfold CompilationUnit.fields
  rw [List.mem_filterMap]
  constructor
  · rintro ⟨fact, hfact, hfield⟩
    cases fact <;> cases hfield
    exact hfact
  · exact fun h => ⟨_, h, rfl⟩

namespace FileFacts

variable {u : CompilationUnit}

/-- The accesses of a file are those of consistent facts. -/
theorem accesses (h : FileFacts u.facts) :
    ∃ rest, u.accesses = accessesIn rest ∧ Consistent "" rest := by
  obtain ⟨package, rest, hfacts, hrest, hpackage⟩ := h
  refine ⟨rest, ?_, hrest⟩
  show accessesIn u.facts = _
  rw [hfacts, accessesIn_append]
  rcases hpackage with rfl | ⟨name, line, rfl⟩ <;> rfl

/-- The package is declared before all else, and by nobody. -/
theorem declarations (h : FileFacts u.facts) :
    ∃ package rest, u.declarations = package ++ declarationsIn rest ∧ Consistent "" rest ∧
      package.length ≤ 1 ∧ ∀ d ∈ package, d.kind = .package ∧ d.owner = "" := by
  obtain ⟨package, rest, hfacts, hrest, hpackage⟩ := h
  refine ⟨declarationsIn package, rest, ?_, hrest, ?_⟩
  · show declarationsIn u.facts = _
    rw [hfacts, declarationsIn_append]
  · rcases hpackage with rfl | ⟨name, line, rfl⟩
    · exact ⟨Nat.zero_le 1, nofun⟩
    · exact ⟨Nat.le_refl 1, List.forall_mem_singleton.2 ⟨rfl, rfl⟩⟩

/-- Every declaration but the package owes something to the facts. -/
theorem fits (h : FileFacts u.facts) {d : Declaration} {kind : DeclarationKind}
    (hd : d ∈ u.declarations) (hkind : d.kind = kind) (hne : kind ≠ .package) : d.Fits u.facts := by
  obtain ⟨package, rest, hfacts, hrest, hpackage⟩ := h
  have hdeclarations : u.declarations = declarationsIn package ++ declarationsIn rest := by
    show declarationsIn u.facts = _
    rw [hfacts, declarationsIn_append]
  rw [hdeclarations] at hd
  rcases List.mem_append.1 hd with hd | hd
  · rcases hpackage with rfl | ⟨name, line, rfl⟩
    · cases hd
    · obtain rfl := List.mem_singleton.1 hd
      exact absurd hkind.symm hne
  · refine (hrest.fits d hd).mono fun fact hfact => ?_
    rw [hfacts]
    exact List.mem_append_right package hfact

/-- A package is declared before anything else. -/
theorem package_first (h : FileFacts u.facts) :
    EachAfter (fun before d => d.kind = .package → before = []) u.declarations := by
  obtain ⟨package, rest, hdeclarations, hrest, hlength, -⟩ := h.declarations
  have hlater : ∀ {P : Prop} (before : List Declaration) (d : Declaration),
      d ∈ declarationsIn rest → d.kind = .package → P :=
    fun _ d hd h => absurd h (hrest.package_free d hd)
  rw [hdeclarations]
  match package, hlength with
  | [], _ => exact .of_forall fun d hd before => hlater before d hd
  | [_], _ => exact .cons (fun _ => rfl) (.of_forall fun d hd before => hlater before d hd)

/-- The owner of a declaration is a type declared before it. -/
theorem owner_declared (h : FileFacts u.facts) :
    EachAfter (fun before d => d.owner ≠ "" →
      ∃ e ∈ before, e.kind.isType ∧ e.name = d.owner) u.declarations := by
  obtain ⟨package, rest, hdeclarations, hrest, -, hpackage⟩ := h.declarations
  rw [hdeclarations]
  refine .append (.of_forall fun d hd _ h => absurd (hpackage d hd).2 h) (hrest.owned.mono ?_) ?_
  · rintro before d (h | h | h) hne
    · exact absurd h hne
    · exact absurd h hne
    · exact h
  · intro before d hd hne
    obtain ⟨e, he, hname⟩ := hd hne
    exact ⟨e, List.mem_append_right _ he, hname⟩

/-- A method follows the declarations of its parameters. -/
theorem parameters_before (h : FileFacts u.facts) :
    EachAfter FollowsParameters u.declarations := by
  obtain ⟨package, rest, hdeclarations, hrest, -, hpackage⟩ := h.declarations
  rw [hdeclarations]
  refine .append (.of_forall fun d hd _ h => ?_) hrest.parameters ?_
  · rw [(hpackage d hd).1] at h
    rcases h with h | h <;> cases h
  · intro before d hd h
    obtain ⟨others, params, rfl, hparams⟩ := hd h
    exact ⟨_, params, (List.append_assoc ..).symm, hparams⟩

theorem field_value (h : FileFacts u.facts) : ∀ field ∈ u.fields, field.1 ∈ u.valueNames := by
  obtain ⟨package, rest, hfacts, hrest, hpackage⟩ := h
  intro field hfield
  rw [mem_fields, hfacts] at hfield
  rw [mem_valueNames, hfacts]
  rcases List.mem_append.1 hfield with h | h
  · rcases hpackage with rfl | ⟨name, line, rfl⟩ <;> simp at h
  · exact List.mem_append_right _ (hrest.field_value _ _ h)

/-- Facts of a file fit together as those inside a type do, with the package before them. -/
theorem isConsistent (h : FileFacts u.facts) : u.IsConsistent where
  package_first := h.package_first
  owner_declared := h.owner_declared
  constructor_name := fun _ hd hkind => (h.fits hd hkind nofun).constructor_name hkind
  parameters_before := h.parameters_before
  variable_value := by
    rintro d hd (hkind | hkind)
    · exact mem_valueNames.2 ((h.fits hd hkind nofun).value (.inl hkind))
    · exact mem_valueNames.2 ((h.fits hd hkind nofun).value (.inr hkind))
  field_flag := fun _ hd =>
    ⟨fun hkind => mem_fields.2 ((h.fits hd hkind nofun).staticField hkind),
      fun hkind => mem_fields.2 ((h.fits hd hkind nofun).instanceField hkind)⟩
  field_value := h.field_value
  access_shaped := by
    obtain ⟨rest, haccesses, hrest⟩ := h.accesses
    exact haccesses ▸ hrest.shaped
  chain_access := by
    obtain ⟨rest, haccesses, hrest⟩ := h.accesses
    exact haccesses ▸ hrest.chained

end FileFacts

/-- The structure of every file that is read is consistent. -/
theorem parse_consistent {text : String} {u : CompilationUnit}
    (h : CompilationUnit.parse text = .ok u) : u.IsConsistent := by
  obtain ⟨all, hall, hfacts⟩ := parse_ok h
  rcases factsOf_codeOf hall with ⟨facts, hf, hfile⟩ | ⟨e, he, -⟩
  · rw [hfacts] at hf
    cases hf
    exact hfile.isConsistent
  · rw [hfacts] at he
    cases he

/-- A package, a class with a field and a method, and a call through a chain of names. -/
theorem parse_consistent_package :
    ∃ u, CompilationUnit.parse "package p; class A \x7b int x; void m(int y) \x7b a.b.c(y); \x7d \x7d" = .ok u ∧
      u.IsConsistent := by
  have hparse : (CompilationUnit.parse
      "package p; class A \x7b int x; void m(int y) \x7b a.b.c(y); \x7d \x7d").isOk := by decide +kernel
  cases h : CompilationUnit.parse
      "package p; class A \x7b int x; void m(int y) \x7b a.b.c(y); \x7d \x7d" with
  | ok u => exact ⟨u, rfl, parse_consistent h⟩
  | error e =>
    rw [h] at hparse
    cases hparse

end Assay.Source
