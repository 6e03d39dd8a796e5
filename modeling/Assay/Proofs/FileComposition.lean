import Assay.Proofs.FileAnnotations
import Assay.Proofs.FileDeclarations
import Assay.Proofs.MemberOrder

/-!
# Files one after the other

The declarations of one file behind those of another are read as in the two files. What stands first
in a file is read otherwise than what comes later, though: annotations there are passed over before a
package clause is looked for, and are no part of the declaration behind them. Main statement: two files
compose, except for the line of a declaration with annotations that was the first one, and for
annotations that belong to no declaration (`files_compose`).
-/

namespace Assay.Source

open Assay.Source.Parser

variable {code more ts : List Token} {facts gs : List Fact} {s s' : Scope} {a r : Parsed Unit}
  {nested nested' : Construct → Parser Unit} {depth depth' : Nat} {word : String}

/-! ## Readings of a file -/

/-- A file that is read is read in the same way if constructs may nest deeper. -/
theorem file_deeper (hdepth : depth ≤ depth') (h : file (construct depth) s ts = .ok r) :
    file (construct depth') s ts = .ok r := by
  have hnests : (Simulation.pointwise Eq False).Nests (construct depth) (construct depth') :=
    Simulation.nests_construct hdepth nofun
  have hfile : (Simulation.pointwise Eq False).Sim True false Eq _ _ := hnests.file
  have halike := (hfile ts ts).alike ⟨trivial, forall₂_alike_refl ts⟩ s s ⟨rfl, fun _ => rfl⟩
  rw [h] at halike
  obtain ⟨⟨_, facts, rest⟩, hrun, -, hfacts, -⟩ := halike (.inl trivial)
  have hrest : rest = r.rest := (file_rest hrun).trans (file_rest h).symm
  have hsame : r.facts = facts := eq_of_forall₂_alike hfacts
  rw [hrun, hrest, ← hsame]

/-- A file without packages and imports is read as the declarations behind its first annotations. -/
theorem file_declarations (ha : skipAnnotations s ts = .ok a) (h : file nested s ts = .ok r)
    (hsorts : ∀ fact ∈ r.facts, ¬ fact.IsPackage ∧ ¬ fact.IsImport) :
    declarationItems nested s a.rest = .ok r ∧
      ∃ i, importItems s a.rest = .ok i ∧ ∀ fact ∈ i.facts, ¬ fact.IsImport := by
  rw [file_eq] at h
  obtain ⟨p, hp, c, hc, rfl⟩ := bind_eq_ok.1 h
  obtain ⟨hsorts, hsorts'⟩ := List.forall_mem_append.1 hsorts
  rw [packageDeclaration_behind ha, mute_skipAnnotations s ts a ha, recording_nil] at hp
  split_ifs at hp
  · obtain ⟨fact, hfact, hsort⟩ := records_packageClause _ _ _ hp
    exact absurd hsort (hsorts fact hfact).1
  · cases hp
    obtain ⟨i, hi, d, hd, rfl⟩ := bind_eq_ok.1 hc
    have himport : ∀ fact ∈ i.facts, ¬ fact.IsImport := fun fact hfact =>
      (hsorts' fact (List.mem_append_left _ hfact)).2
    refine ⟨?_, i, hi, himport⟩
    rw [← imports_then_declarations hi himport]
    exact hc

/-! ## What starts no declaration -/

/-- A word that is no modifier leaves nothing to the modifiers. -/
theorem unmodified_of_begins (h : begins word ts) (hword : word ∉ memberModifiers ++ ["non", "@"]) :
    Unmodified memberModifiers ts := by
  simp only [List.mem_append, List.mem_cons, List.not_mem_nil, or_false, not_or] at hword
  have hother : ∀ other, word ≠ other → begins other ts = false := fun other hne => by
    simpa using begins_other h hne []
  obtain ⟨t, us, rfl, -⟩ := begins_eq_true h
  refine ⟨?_, ?_, ?_⟩
  · rw [startsWith_cons]
    refine Token.spellsAny_eq_false fun other hmem => hother other ?_
    exact fun heq => hword.1 (heq ▸ hmem)
  · rw [hother "non" hword.2.1]
    rfl
  · rw [beginsAnnotations, hother "@" hword.2.2]
    rfl

/-- A word that starts no type is no type keyword. -/
theorem typeKeyword?_of_begins (h : begins word ts) (hword : word ∉ typeStarts) :
    typeKeyword? ts = none := by
  have hother : ∀ other ∈ typeStarts, begins other ts = false := fun other hmem => by
    have hne : word ≠ other := fun heq => hword (heq ▸ hmem)
    simpa using begins_other h hne []
  obtain ⟨t, us, rfl, -⟩ := begins_eq_true h
  simp only [typeStarts, List.mem_cons, List.not_mem_nil, or_false, forall_eq_or_imp, forall_eq,
    begins_cons] at hother
  simp [typeKeyword?, hother]

/-- An error of a declaration is the error of the list. -/
theorem declarationItems_of_error {e : SourceError} (hne : ts ≠ [])
    (h : topLevelDeclaration nested s ts = .error e) : declarationItems nested s ts = .error e :=
  items_of_error (by simpa using hne) h

/-- A type with its modifiers may come next: the tokens are not over, and the next one is no
semicolon and does not declare a module. -/
def mayDeclareType (ts : List Token) : Bool :=
  !ts.isEmpty && !startsWith (·.spellsAny [";", "module", "open"]) ts

theorem mayDeclareType_of_begins (h : begins word ts) (hword : word ∉ [";", "module", "open"]) :
    mayDeclareType ts := by
  obtain ⟨t, us, rfl, -⟩ := begins_eq_true h
  have hnone : t.spellsAny [";", "module", "open"] = false :=
    Token.spellsAny_eq_false fun other hmem => by
      simpa using begins_other h (fun heq => hword (heq ▸ hmem)) []
  rw [mayDeclareType, startsWith_cons, hnone]
  rfl

/-- Where a type may be declared, the declaration is a modified type. -/
theorem topLevelDeclaration_of_type (h : mayDeclareType ts) :
    topLevelDeclaration nested s ts = modifiedType nested s ts := by
  cases ts with
  | nil => cases h
  | cons t us =>
    simp only [mayDeclareType, List.isEmpty_cons, Bool.not_false, Bool.true_and, startsWith_cons,
      Bool.not_eq_true', Token.spellsAny_cons, Token.spellsAny_nil, Bool.or_false,
      Bool.or_eq_false_iff] at h
    rw [topLevelDeclaration_eq, bind_of_ok (ahead_apply s _), recording_nil]
    simp [h.1, h.2.1, h.2.2]

/-- A file without packages and imports does not start with a word that starts no part of a
declaration. -/
theorem file_begins (h : file nested s ts = .ok r)
    (hsorts : ∀ fact ∈ r.facts, ¬ fact.IsPackage ∧ ¬ fact.IsImport)
    (hmodifier : word ∉ memberModifiers ++ ["non", "@"]) (htype : word ∉ typeStarts)
    (hother : word ∉ [";", "module", "open"]) : begins word ts = false := by
  by_contra hbegins
  rw [Bool.not_eq_false] at hbegins
  have hunmodified := unmodified_of_begins hbegins hmodifier
  have hmay := mayDeclareType_of_begins hbegins hother
  obtain ⟨e, he⟩ : ∃ e, modifiedType nested s ts = .error e :=
    modifiedType_fails (modifiers_none hunmodified s) (typeKeyword?_of_begins hbegins htype)
  have hne : ts ≠ [] := by
    rintro rfl
    cases hbegins
  have hread := (file_declarations (skipAnnotations_none hunmodified.annotations s) h hsorts).1
  rw [← topLevelDeclaration_of_type hmay] at he
  rw [declarationItems_of_error hne he] at hread
  cases hread

/-! ## Two files -/

theorem skipAnnotations_of_file (h : file nested s ts = .ok r) :
    ∃ a, skipAnnotations s ts = .ok a := by
  cases ha : skipAnnotations s ts with
  | ok a => exact ⟨a, rfl⟩
  | error e =>
    have hpackage : packageDeclaration s ts = .error e := by
      rw [packageDeclaration_eq, bind_of_error ha]
    rw [file_eq, bind_of_error hpackage] at h
    cases h

/-- Annotations that are a file of their own are read with what comes behind them. -/
theorem file_of_annotations {b : Parsed Unit} (hlexical : Lexical code)
    (ha : skipAnnotations s' code = .ok a) (hnil : a.rest = []) (hcode : file nested' s' code = .ok r)
    (hmore : file nested s more = .ok b)
    (hsorts : ∀ fact ∈ b.facts, ¬ fact.IsPackage ∧ ¬ fact.IsImport) :
    r.facts = [] ∧ file nested s (code ++ more) = .ok b := by
  constructor
  · obtain ⟨p, hp, c, hc, rfl⟩ := bind_eq_ok.1 (file_eq nested' ▸ hcode)
    rw [packageDeclaration_behind ha, hnil, mute_skipAnnotations s' code a ha, recording_nil] at hp
    cases hp
    -- nothing is left for the imports and the declarations
    have himports : importItems s' [] = .ok ⟨(), [], []⟩ := items_done rfl
    have hdeclarations : declarationItems nested' s' [] = .ok ⟨(), [], []⟩ := items_done rfl
    rw [bind_of_ok himports, recording_nil, hdeclarations] at hc
    rw [← Except.ok.inj hc]
    rfl
  · have hannotations : skipAnnotations s (code ++ more) = recording [] (skipAnnotations s more) := by
      rw [recording_nil]
      exact skipAnnotations_before hlexical ha hnil
        (file_begins hmore hsorts (by decide) (by decide) (by decide))
        (file_begins hmore hsorts (by decide) (by decide) (by decide))
    have hpackage : packageDeclaration s (code ++ more) = recording [] (packageDeclaration s more) :=
      bind_of_recording hannotations
    rw [file_eq] at hmore ⊢
    rw [bind_of_recording hpackage, recording_nil, hmore]

/-- Behind a file that is more than annotations, declarations are read. -/
theorem file_then {i : Parsed Unit} (hdepth : depth ≤ depth') (hscope : s'.enclosing = s.enclosing)
    (hlexical : Lexical code) (hheaders : HeadersDecided code more)
    (ha : skipAnnotations s' code = .ok a) (hne : a.rest ≠ [])
    (hcode : file (construct depth) s' code = .ok r) (hi : importItems s more = .ok i)
    (himport : ∀ fact ∈ i.facts, ¬ fact.IsImport) :
    file (construct depth') s (code ++ more) =
      recording r.facts (declarationItems (construct depth') s more) := by
  have hends : BehindEnd code [] :=
    file_ends (Simulation.nests_construct (Nat.le_refl depth) nofun) ha hne hlexical hcode
  have hjoins : Joins more code := by
    refine ⟨hlexical, ?_, hheaders⟩
    obtain ⟨pre, t, rfl, ht⟩ := hends
    rw [List.getLast?_concat]
    rintro _ ⟨⟩
    exact ht
  exact file_before (Simulation.nests_construct hdepth nofun) hscope hjoins ha hne hcode hi himport

/-! ## Declarations with annotations -/

theorem mayDeclareType_of_annotations (h : beginsAnnotations ts) : mayDeclareType ts :=
  mayDeclareType_of_begins (Bool.and_eq_true_iff.1 h).1 (by decide)

theorem startsImport_of_annotations (h : beginsAnnotations ts) : startsImport ts = false := by
  have hother : ∀ word, "@" ≠ word → begins word ts = false := fun word hne => by
    simpa using begins_other (Bool.and_eq_true_iff.1 h).1 hne []
  rw [startsImport, hother "import" (by decide), hother ";" (by decide)]
  rfl

/-- Declarations are read in the same way with annotations in front of the first one, but for its
line. -/
theorem declarationItems_annotated (hbegins : beginsAnnotations ts)
    (ha : skipAnnotations s ts = .ok a) (hmay : mayDeclareType a.rest)
    (h : declarationItems nested s a.rest = .ok r) :
    ∃ (d : Declaration) (others : List Fact), r.facts = .declaration d :: others ∧
      d.line = lineAt s a.rest ∧ declarationItems nested s ts =
        .ok ⟨(), .declaration { d with line := lineAt s ts } :: others, r.rest⟩ := by
  rcases items_eq_ok h with ⟨hnone, -⟩ | ⟨-, b, c, hb, hlt, hc, rfl⟩
  · rw [mayDeclareType, hnone] at hmay
    cases hmay
  · rw [topLevelDeclaration_of_type hmay] at hb
    obtain ⟨d, others, hfacts, hline, hannotated⟩ := modifiedType_annotated hbegins ha hb
    rw [← topLevelDeclaration_of_type (mayDeclareType_of_annotations hbegins)] at hannotated
    have hne : (!ts.isEmpty) = true :=
      (Bool.and_eq_true_iff.1 (mayDeclareType_of_annotations hbegins)).1
    refine ⟨d, others ++ c.facts, by rw [hfacts]; rfl, hline, ?_⟩
    rw [declarationItems, items_again hne hannotated
      (hlt.trans (skipAnnotations_shorter hbegins ha)), hc]
    rfl

/-- Annotations that no type follows are no declaration. -/
theorem declarationItems_dangling (hbegins : beginsAnnotations ts)
    (ha : skipAnnotations s ts = .ok a) (hmay : mayDeclareType a.rest = false) :
    ∃ e, declarationItems nested s ts = .error e := by
  have hnone : Unmodified memberModifiers a.rest ∧ typeKeyword? a.rest = none := by
    cases hrest : a.rest with
    | nil => exact ⟨⟨rfl, rfl, rfl⟩, rfl⟩
    | cons t us =>
      have hword : t.spellsAny [";", "module", "open"] = true := by
        simpa only [hrest, mayDeclareType, startsWith_cons, List.isEmpty_cons, Bool.not_false,
          Bool.true_and, Bool.not_eq_false'] using hmay
      have hbegins : begins ";" a.rest ∨ begins "module" a.rest ∨ begins "open" a.rest := by
        simpa [hrest, or_assoc] using hword
      rw [← hrest]
      rcases hbegins with h | h | h
      all_goals exact ⟨unmodified_of_begins h (by decide), typeKeyword?_of_begins h (by decide)⟩
  have hmodifiers : modifiers memberModifiers s ts = .ok ⟨[], [], a.rest⟩ :=
    modifiers_annotated (by decide) hbegins ha (modifiers_none hnone.1 s)
  obtain ⟨e, he⟩ : ∃ e, modifiedType nested s ts = .error e := modifiedType_fails hmodifiers hnone.2
  rw [← topLevelDeclaration_of_type (mayDeclareType_of_annotations hbegins)] at he
  have hne : ts ≠ [] := by
    rintro rfl
    cases hbegins
  exact ⟨e, declarationItems_of_error hne he⟩

/-! ## Composition -/

/-- The tokens of a file behind the annotations it starts with. -/
def afterAnnotations (code : List Token) : List Token :=
  match skipAnnotations (openingScope code) code with
  | .ok r => r.rest
  | .error _ => []

/-- The code behind the annotations is what skipping them leaves. -/
theorem afterAnnotations_of_ok (h : skipAnnotations (openingScope ts) ts = .ok a) :
    afterAnnotations ts = a.rest := by
  rw [afterAnnotations, h]

/-- The line a file opens on is that of the last token. -/
theorem openingScope_append (hne : more ≠ []) : openingScope (code ++ more) = openingScope more := by
  rw [openingScope, openingScope, List.getLast?_append, List.getLast?_eq_some_getLast hne,
    Option.some_or]

theorem afterAnnotations_of_none (h : beginsAnnotations ts = false) : afterAnnotations ts = ts :=
  afterAnnotations_of_ok (skipAnnotations_none h _)

/-- Constructs may nest as deep as in a file that is longer at its start. -/
theorem file_of_factsOf (h : factsOf more = .ok gs) (code : List Token) :
    file (construct (depthFor (code ++ more).length)) (openingScope more) more =
      .ok ⟨(), gs, []⟩ := by
  have hlength : more.length ≤ (code ++ more).length := by
    rw [List.length_append]
    omega
  exact file_deeper (depthFor_mono hlength) (factsOf_eq_ok.1 h)

/-- A file without packages and imports is read as declarations, in a longer file too. -/
theorem declarationItems_of_factsOf (h : factsOf more = .ok gs)
    (hsorts : ∀ fact ∈ gs, ¬ fact.IsPackage ∧ ¬ fact.IsImport) (code : List Token) :
    ∃ a, skipAnnotations (openingScope more) more = .ok a ∧ a.rest = afterAnnotations more ∧
      declarationItems (construct (depthFor (code ++ more).length)) (openingScope more) a.rest =
        .ok ⟨(), gs, []⟩ ∧
      ∃ i, importItems (openingScope more) a.rest = .ok i ∧ ∀ fact ∈ i.facts, ¬ fact.IsImport := by
  have hfile := file_of_factsOf h code
  obtain ⟨a, ha⟩ := skipAnnotations_of_file hfile
  obtain ⟨hdeclarations, himports⟩ := file_declarations ha hfile hsorts
  exact ⟨a, ha, (afterAnnotations_of_ok ha).symm, hdeclarations, himports⟩

/-- Behind a file that is more than annotations, declarations are read. -/
theorem factsOf_then {i : Parsed Unit} (hlexical : Lexical code) (hheaders : HeadersDecided code more)
    (hcode : factsOf code = .ok facts) (hafter : afterAnnotations code ≠ []) (hne : more ≠ [])
    (hi : importItems (openingScope more) more = .ok i)
    (himport : ∀ fact ∈ i.facts, ¬ fact.IsImport) :
    factsOf (code ++ more) = (recording facts (declarationItems
      (construct (depthFor (code ++ more).length)) (openingScope more) more)).map (·.facts) := by
  have hfile := factsOf_eq_ok.1 hcode
  obtain ⟨a, ha⟩ := skipAnnotations_of_file hfile
  have hdepth : depthFor code.length ≤ depthFor (code ++ more).length :=
    depthFor_mono (by rw [List.length_append]; omega)
  have hscope : (openingScope code).enclosing = (openingScope more).enclosing := rfl
  rw [afterAnnotations_of_ok ha] at hafter
  rw [factsOf_eq, openingScope_append hne,
    file_then hdepth hscope hlexical hheaders ha hafter hfile hi himport]

/-- A file that starts with no annotation may follow another one. -/
theorem files_compose_unannotated (hlexical : Lexical code) (hheaders : HeadersDecided code more)
    (hcode : factsOf code = .ok facts) (hmore : factsOf more = .ok gs)
    (hsorts : ∀ fact ∈ gs, ¬ fact.IsPackage ∧ ¬ fact.IsImport) (hafter : afterAnnotations code ≠ [])
    (hne : more ≠ []) (hplain : beginsAnnotations more = false) :
    factsOf (code ++ more) = .ok (facts ++ gs) := by
  obtain ⟨a, -, hrest, hdeclarations, i, hi, himport⟩ :=
    declarationItems_of_factsOf hmore hsorts code
  rw [hrest, afterAnnotations_of_none hplain] at hdeclarations hi
  rw [factsOf_then hlexical hheaders hcode hafter hne hi himport, hdeclarations]
  rfl

/-- A file that is nothing but annotations may stand in front of another one. -/
theorem files_compose_annotations (hlexical : Lexical code) (hcode : factsOf code = .ok facts)
    (hmore : factsOf more = .ok gs) (hsorts : ∀ fact ∈ gs, ¬ fact.IsPackage ∧ ¬ fact.IsImport)
    (hafter : afterAnnotations code = []) (hne : more ≠ []) :
    factsOf (code ++ more) = .ok (facts ++ gs) := by
  have hfile := factsOf_eq_ok.1 hcode
  obtain ⟨a, ha⟩ := skipAnnotations_of_file hfile
  rw [afterAnnotations_of_ok ha] at hafter
  obtain ⟨hnone, hread⟩ :=
    file_of_annotations hlexical ha hafter hfile (file_of_factsOf hmore code) hsorts
  rw [factsOf_eq_ok, openingScope_append hne, hread, show facts = [] from hnone, List.nil_append]

/-- Two files, the second one without packages and imports, give the facts of the first one and then
those of the second one when they stand one behind the other, if no header of a loop is looked through
beyond the first one. There are two exceptions, both about annotations that the second file starts with
and that are not at the start any more: the type behind them has the line of the first annotation and
not that of what follows the last one, and annotations that no type follows are refused. -/
theorem files_compose (hlexical : Lexical code) (hheaders : HeadersDecided code more)
    (hcode : factsOf code = .ok facts) (hmore : factsOf more = .ok gs)
    (hsorts : ∀ fact ∈ gs, ¬ fact.IsPackage ∧ ¬ fact.IsImport) :
    (afterAnnotations code = [] ∨ beginsAnnotations more = false →
      factsOf (code ++ more) = .ok (facts ++ gs)) ∧
    (afterAnnotations code ≠ [] → beginsAnnotations more →
      (mayDeclareType (afterAnnotations more) → ∃ (d : Declaration) (others : List Fact),
        gs = .declaration d :: others ∧
        d.line = lineAt (openingScope more) (afterAnnotations more) ∧
        factsOf (code ++ more) = .ok (facts ++
          .declaration { d with line := lineAt (openingScope more) more } :: others)) ∧
      (mayDeclareType (afterAnnotations more) = false → ∃ e, factsOf (code ++ more) = .error e)) := by
  constructor
  · intro hcases
    -- nothing follows, or it follows annotations that are all of the first file, or more than that
    by_cases hne : more = []
    · subst hne
      have hnone : gs = [] := congrArg Parsed.facts
        (Except.ok.inj ((factsOf_eq_ok.1 hmore).symm.trans (file_nil _)))
      rw [hnone, List.append_nil, List.append_nil, hcode]
    · by_cases hafter : afterAnnotations code = []
      · exact files_compose_annotations hlexical hcode hmore hsorts hafter hne
      · exact files_compose_unannotated hlexical hheaders hcode hmore hsorts hafter hne
          (hcases.resolve_left hafter)
  · intro hafter hbegins
    have hne : more ≠ [] := by
      rintro rfl
      cases hbegins
    obtain ⟨a, ha, hrest, hdeclarations, -⟩ := declarationItems_of_factsOf hmore hsorts code
    have himports : importItems (openingScope more) more = .ok ⟨(), [], more⟩ :=
      items_done (startsImport_of_annotations hbegins)
    rw [factsOf_then hlexical hheaders hcode hafter hne himports nofun, ← hrest]
    constructor
    · intro hmay
      obtain ⟨d, others, hfacts, hline, hannotated⟩ :=
        declarationItems_annotated hbegins ha hmay hdeclarations
      refine ⟨d, others, hfacts, hline, ?_⟩
      rw [hannotated]
      rfl
    · intro hmay
      obtain ⟨e, he⟩ : ∃ e, declarationItems (construct (depthFor (code ++ more).length))
          (openingScope more) more = .error e := declarationItems_dangling hbegins ha hmay
      exact ⟨e, by rw [he]; rfl⟩

/-- A class behind another one has the line of its annotation. -/
theorem files_compose_annotated_class :
    let code := [Token.word "class" 1, .word "X" 1, .sign "\x7b" 1, .sign "\x7d" 1]
    let more := [Token.sign "@" 2, .word "D" 2, .word "class" 3, .word "A" 3, .sign "\x7b" 3,
      .sign "\x7d" 3]
    let facts := [Fact.declaration ⟨.classType, "X", 1, "", 0, false, false⟩]
    let gs := [Fact.declaration ⟨.classType, "A", 3, "", 0, false, false⟩]
    HeadersDecided code more ∧ factsOf code = .ok facts ∧ factsOf more = .ok gs ∧
      ∃ (d : Declaration) (others : List Fact), gs = .declaration d :: others ∧ d.line = 3 ∧
        factsOf (code ++ more) = .ok (facts ++ .declaration { d with line := 2 } :: others) := by
  intro code more facts gs
  have hlexical : Lexical code := by decide
  have hheaders : HeadersDecided code more := headersDecided_of_balanced hlexical (by decide) more
  have hcode : factsOf code = .ok facts := by decide +kernel
  have hmore : factsOf more = .ok gs := by decide +kernel
  have hsorts : ∀ fact ∈ gs, ¬ fact.IsPackage ∧ ¬ fact.IsImport := by
    simp [gs, Fact.IsPackage, Fact.IsImport]
  have hafter : afterAnnotations code ≠ [] := by decide +kernel
  have hmay : mayDeclareType (afterAnnotations more) := by decide +kernel
  have hcomposed := ((files_compose hlexical hheaders hcode hmore hsorts).2 hafter (by decide)).1 hmay
  have hclass : lineAt (openingScope more) (afterAnnotations more) = 3 := by decide +kernel
  have hfirst : lineAt (openingScope more) more = 2 := rfl
  rw [hclass, hfirst] at hcomposed
  exact ⟨hheaders, hcode, hmore, hcomposed⟩

/-- The header of a loop that no bracket closes is looked through up to the colon of the next file. -/
example :
    let code := [Token.word "class" 1, .word "X" 1, .sign "\x7b" 1, .word "void" 1, .word "f" 1,
      .sign "(" 1, .sign ")" 1, .sign "\x7b" 1, .word "for" 1, .sign "(" 1, .word "a" 1,
      .sign "::" 1, .sign "(" 1, .word "b" 1, .sign "::" 1, .sign "(" 1, .word "c" 1, .sign "::" 1,
      .sign "(" 1, .sign ";" 1, .sign ";" 1, .sign ")" 1, .sign ";" 1, .sign "\x7d" 1,
      .sign "\x7d" 1]
    let more := [Token.word "class" 2, .word "Y" 2, .sign ":" 2, .sign "\x7b" 2, .sign "\x7d" 2]
    (factsOf code).isOk ∧ (factsOf more).isOk ∧
      factsOf (code ++ more) = .error ⟨.expectedName "::", 1⟩ := by decide +kernel

/-- A class that is the first declaration of its file does not have the line of its annotation. -/
theorem first_declaration_line :
    ¬ ∀ (code more : List Token) (facts gs : List Fact), Lexical code → Lexical more →
      Balanced code → Balanced more → factsOf code = .ok facts → factsOf more = .ok gs → more ≠ [] →
      (∀ fact ∈ gs, ¬ fact.IsPackage ∧ ¬ fact.IsImport) →
      (∀ t ∈ more, t.spellsAny ["module", "open"] = false) →
      factsOf (code ++ more) = .ok (facts ++ gs) := by
  intro h
  let code := [Token.word "class" 1, .word "X" 1, .sign "\x7b" 1, .sign "\x7d" 1]
  let more := [Token.sign "@" 2, .word "D" 2, .word "class" 3, .word "A" 3, .sign "\x7b" 3,
    .sign "\x7d" 3]
  let facts := [Fact.declaration ⟨.classType, "X", 1, "", 0, false, false⟩]
  have hcode : factsOf code = .ok facts := by decide +kernel
  have hmore : factsOf more = .ok [.declaration ⟨.classType, "A", 3, "", 0, false, false⟩] := by
    decide +kernel
  have hcomposed := h code more facts _ (by decide) (by decide) (by decide) (by decide) hcode hmore
    (List.cons_ne_nil _ _) (by simp [Fact.IsPackage, Fact.IsImport]) (by decide)
  have hfirst : factsOf (code ++ more) =
      .ok (facts ++ [.declaration ⟨.classType, "A", 2, "", 0, false, false⟩]) := by decide +kernel
  rw [hfirst] at hcomposed
  exact absurd hcomposed (by decide)

end Assay.Source
