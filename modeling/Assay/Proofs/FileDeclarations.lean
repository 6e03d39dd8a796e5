import Assay.Proofs.DeclarationReading
import Assay.Proofs.FrontEnd

/-!
# The declarations of a file

A file of type declarations is read to its end, and what it records is exactly what the grammar of
the declarations gives it. Main statement: `declarations_listed`.
-/

namespace Assay.Source

open Assay.Source.Parser

variable {s : Scope} {nested : Construct → Parser Unit} {t : Token} {ms ts us rest : List Token}
  {words : List String} {fs gs facts : List Fact} {line depth : Nat}

/-- Types with their modifiers, one after the other. -/
inductive TypeList (s : Scope) : List Token → List Fact → Prop
  | nil : TypeList s [] []
  | cons {ms ts us : List Token} {words : List String} {fs gs : List Fact}
      (hms : Modifiers memberModifiers ms words)
      (hts : Declares s (.type (s.lineOf (ms ++ ts))) ts fs) (hus : TypeList s us gs) :
      TypeList s (ms ++ (ts ++ us)) (fs ++ gs)

/-! ## Before the first type -/

/-- The words that start a type. -/
def typeStarts : List String := ["class", "interface", "enum", "@", "record"]

theorem Declares.type_begins (h : Declares s (.type line) ts fs) {word : String}
    (hword : word ∉ typeStarts) (rest : List Token) : begins word (ts ++ rest) = false := by
  simp only [typeStarts, List.mem_cons, List.not_mem_nil, or_false, not_or] at hword
  cases h with
  | type hkws =>
    cases hkws with
    | classType ht => simp [ht.spells, Ne.symm hword.1]
    | interfaceType ht => simp [ht.spells, Ne.symm hword.2.1]
    | enumType ht => simp [ht.spells, Ne.symm hword.2.2.1]
    | annotationType hat => simp [hat.spells, Ne.symm hword.2.2.2.1]
  | record ht => simp [ht.spells, Ne.symm hword.2.2.2.2]

/-- What starts neither a modifier nor a type does not start a type with its modifiers. -/
theorem begins_modified (hms : Modifiers memberModifiers ms words)
    (hts : Declares s (.type line) ts fs) {word : String}
    (hword : word ∉ memberModifiers ∧ word ≠ "non" ∧ word ∉ typeStarts) (rest : List Token) :
    begins word (ms ++ (ts ++ rest)) = false :=
  hms.begins hword.1 hword.2.1 (hts.type_begins hword.2.2 rest)

/-- No annotation comes first. -/
theorem beginsAnnotations_modified (hms : Modifiers memberModifiers ms words)
    (hts : Unmodified memberModifiers ts) : beginsAnnotations (ms ++ ts) = false := by
  cases hms with
  | none => exact hts.annotations
  | @word t word _ _ ht hword =>
    have hne : word ≠ "@" := fun heq => absurd (heq ▸ hword) (by decide)
    simp [beginsAnnotations, ht.spells, hne]
  | nonSealed ht => simp [beginsAnnotations, ht.spells]

theorem packageDeclaration_none (hannotations : beginsAnnotations ts = false)
    (hpackage : begins "package" ts = false) : packageDeclaration s ts = .ok ⟨(), [], ts⟩ := by
  have hskip : skipAnnotations s ts = .ok ⟨(), [], ts⟩ := by
    refine repeatWhile_done ?_
    rw [bind_of_ok (ahead_apply s ts), hannotations]
    rfl
  rw [packageDeclaration, bind_of_ok hskip, recording_nil, bind_of_ok (sees_apply _ s _), hpackage]
  rfl

/-! ## Types -/

theorem topLevelDeclaration_apply (hms : Modifiers memberModifiers ms words)
    (hts : Declares s (.type (s.lineOf (ms ++ ts))) ts fs) (hdepth : ts.length ≤ depth)
    (rest : List Token) :
    topLevelDeclaration (construct depth) s (ms ++ (ts ++ rest)) = .ok ⟨(), fs, rest⟩ := by
  obtain ⟨hstarts, hlength⟩ := hts.type_starts rest
  have hsemicolon := begins_modified hms hts (by decide : ";" ∉ _ ∧ _) rest
  have hmodule : startsWith (·.spellsAny ["module", "open"]) (ms ++ (ts ++ rest)) = false := by
    have hfirst := begins_modified hms hts (by decide : "module" ∉ _ ∧ _) rest
    have hsecond := begins_modified hms hts (by decide : "open" ∉ _ ∧ _) rest
    cases hcode : ms ++ (ts ++ rest) with
    | nil => rfl
    | cons t us =>
      rw [hcode, begins_cons] at hfirst hsecond
      simp [hfirst, hsecond]
  have hread := hts.reads depth hdepth rest
  rw [topLevelDeclaration, bind_of_ok (ahead_apply s _), recording_nil, hsemicolon,
    if_neg (by simp), hmodule, if_neg (by simp), bind_of_ok (line_apply s _), recording_nil,
    bind_of_ok (discard_of_ok (modifiers_apply hms (by decide) hstarts.unmodified s)),
    recording_nil, lineAt_modified hlength, bind_of_ok hread]
  simp

/-- One more type, unless the file is over. -/
def typeRound (nested : Construct → Parser Unit) : Parser Bool := do
  if (← ahead).isEmpty then return false
  topLevelDeclaration nested
  return true

theorem TypeList.reads (h : TypeList s ts facts) (hdepth : ts.length ≤ depth) :
    repeatWhile (typeRound (construct depth)) s ts = .ok ⟨(), facts, []⟩ := by
  induction h with
  | nil => exact repeatWhile_done rfl
  | @cons ms ts us words fs gs hms hts _ ih =>
    simp only [List.length_append] at hdepth
    have hlength := (hts.type_starts us).2
    have hread := topLevelDeclaration_apply hms hts (by omega : ts.length ≤ depth) us
    have hround : typeRound (construct depth) s (ms ++ (ts ++ us)) = .ok ⟨true, fs, us⟩ := by
      have hempty : (ms ++ (ts ++ us)).isEmpty = false := by
        simp [List.isEmpty_eq_false_iff, List.length_pos_iff.1 hlength]
      rw [typeRound, bind_of_ok (ahead_apply s _), recording_nil, hempty, if_neg (by simp),
        bind_of_ok hread]
      simp
    rw [repeatWhile_again hround (by simp only [List.length_append]; omega), ih (by omega)]
    simp

theorem file_types (h : TypeList s ts facts) (hdepth : ts.length ≤ depth) :
    file (construct depth) s ts = .ok ⟨(), facts, []⟩ := by
  have hread := h.reads hdepth
  cases h with
  | nil => exact file_nil s
  | @cons ms ts us words fs gs hms hts _ =>
    -- no package and no import is looked for, as what starts a type starts neither
    have hannotations := beginsAnnotations_modified hms (hts.type_starts us).1.unmodified
    have hpackage := begins_modified hms hts (by decide : "package" ∉ _ ∧ _) us
    have himport := begins_modified hms hts (by decide : "import" ∉ _ ∧ _) us
    have hsemicolon := begins_modified hms hts (by decide : ";" ∉ _ ∧ _) us
    generalize ms ++ (ts ++ us) = code at hread hannotations hpackage himport hsemicolon ⊢
    have himports : repeatWhile (do
        if ← sees "import" then
          importDeclaration
          return true
        else if ← sees ";" then
          skip
          return true
        else return false) s code = .ok ⟨(), [], code⟩ :=
      repeatWhile_done (by simp [bind_apply, himport, hsemicolon])
    rw [file, bind_of_ok (packageDeclaration_none hannotations hpackage), recording_nil,
      bind_of_ok himports, recording_nil]
    exact hread

theorem factsOf_types (h : TypeList (openingScope ts) ts facts) : factsOf ts = .ok facts := by
  have hdepth : ts.length ≤ depthFor ts.length := by
    unfold depthFor
    omega
  rw [factsOf_eq, file_types h hdepth]
  rfl

theorem parse_of_factsOf {text : String} {all : List Token} (hall : tokens text = .ok all)
    (hfacts : factsOf (codeOf all) = .ok facts) :
    ∃ u, CompilationUnit.parse text = .ok u ∧ u.facts = facts := by
  rw [parse_of_tokens hall, hfacts]
  exact ⟨_, rfl, rfl⟩

/-- Declarations of types are listed exactly, at any depth and whatever follows. A type declaration
is read up to its end and records what its grammar gives it: each type, field, method, constructor,
parameter and local variable once, in reading order, with the type it stands in, its line and its
counts. A text of type declarations is read to its end, and its declarations are those of its
grammar. -/
theorem declarations_listed :
    (∀ {s : Scope} {line depth : Nat} {ts : List Token} {facts : List Fact},
      Declares s (.type line) ts facts → ts.length ≤ depth → ∀ rest,
        typeDeclaration (construct depth) line s (ts ++ rest) = .ok ⟨true, facts, rest⟩) ∧
    ∀ {text : String} {all : List Token} {facts : List Fact}, tokens text = .ok all →
      TypeList (openingScope (codeOf all)) (codeOf all) facts →
      ∃ u, CompilationUnit.parse text = .ok u ∧ u.facts = facts ∧
        u.declarations = declarationsIn facts := by
  constructor
  · exact fun h hdepth => h.reads _ hdepth
  · intro text all facts hall h
    obtain ⟨u, hparse, hfacts⟩ := parse_of_factsOf hall (factsOf_types h)
    exact ⟨u, hparse, hfacts, by rw [← hfacts]; rfl⟩

/-- A class with a field, a constructor and an enum, and the enum alone with other tokens after
it. -/
theorem declarations_listed_class :
    let enumTokens := [Token.word "enum" 1, .word "E" 1, .sign "\x7b" 1, .word "B" 1, .sign "(" 1,
      ⟨.number, "1", 1, 1⟩, .sign ")" 1, .sign "\x7d" 1]
    typeDeclaration (construct 8) 1 ⟨some ⟨"A", .classType⟩, 1⟩ (enumTokens ++ [.sign ")" 1]) =
        .ok ⟨true, [.declaration ⟨.enumType, "E", 1, "A", 0, false, false⟩, .value "B"],
          [.sign ")" 1]⟩ ∧
      ∃ u, CompilationUnit.parse
          "class A \x7b int x; A(int y) \x7b \x7d enum E \x7b B(1) \x7d \x7d" = .ok u ∧
        u.declarations =
          [⟨.classType, "A", 1, "", 0, false, false⟩,
            ⟨.instanceField, "x", 1, "A", 0, false, false⟩,
            ⟨.parameter, "y", 1, "A", 0, false, false⟩,
            ⟨.constructor, "A", 1, "A", 1, false, false⟩,
            ⟨.enumType, "E", 1, "A", 0, false, false⟩] := by
  intro enumTokens
  let inA : Scope := ⟨some ⟨"A", .classType⟩, 1⟩
  have hkind : Scope.ownerKind ⟨some ⟨"A", .classType⟩, 1⟩ ≠ some .enumType := by decide
  have hopen : (Token.sign "\x7b" 1).IsSign "\x7b" := by decide
  have hclose : (Token.sign "\x7d" 1).IsSign "\x7d" := by decide
  have hl : (Token.sign "(" 1).IsSign "(" := by decide
  have hr : (Token.sign ")" 1).IsSign ")" := by decide
  have hint : WrittenType .one [.word "int" 1] := .primitive (by decide : _ ∧ _)
  have henum : Declares inA (.type 1) enumTokens _ :=
    .type (.enumType (by decide : (Token.word "enum" 1).IsWord "enum"))
      (by decide : (Token.word "E" 1).IsOrdinary) .none
      (.enumBody rfl hopen (.lastConstant (.constant (by decide : (Token.word "B" 1).IsOrdinary)
        (.values hl (.one (.operand (.inr rfl : Token.IsOperand ⟨.number, "1", 1, 1⟩))) hr)))
        hclose)
  -- the members of the class, each with the facts of its own form
  have hfield : Declares inA .member [.word "int" 1, .word "x" 1, .sign ";" 1] _ :=
    .field .none (.mk hint (by decide)) (.one (by decide : (Token.word "x" 1).IsIdentifier) .plain)
      (by decide : (Token.sign ";" 1).IsSign ";")
  have hconstructor : Declares inA .member [.word "A" 1, .sign "(" 1, .word "int" 1, .word "y" 1,
      .sign ")" 1, .sign "\x7b" 1, .sign "\x7d" 1] _ :=
    .constructor .none (by decide : (Token.word "A" 1).IsOrdinary) rfl hl
      (.one (.single .none hint (by decide : (Token.word "y" 1).IsIdentifier))) hr .none
      (.block hopen .noStatement hclose)
  have hnested : Declares inA .member enumTokens _ :=
    .nestedType .none (show Declares inA (.type (inA.lineOf ([] ++ enumTokens))) _ _ from henum)
  have hmembers : Declares inA .members _ _ :=
    .members hfield (.members hconstructor (.members hnested .noMember))
  let code := [Token.word "class" 1, .word "A" 1, .sign "\x7b" 1, .word "int" 1, .word "x" 1,
    .sign ";" 1, .word "A" 1, .sign "(" 1, .word "int" 1, .word "y" 1, .sign ")" 1, .sign "\x7b" 1,
    .sign "\x7d" 1, .word "enum" 1, .word "E" 1, .sign "\x7b" 1, .word "B" 1, .sign "(" 1,
    ⟨.number, "1", 1, 1⟩, .sign ")" 1, .sign "\x7d" 1, .sign "\x7d" 1]
  -- the class stands at the front of the file, so its line is that of its first token
  have hclass : Declares ⟨none, 1⟩ (.type (Scope.lineOf ⟨none, 1⟩ ([] ++ code))) code _ :=
    .type (.classType (by decide : (Token.word "class" 1).IsWord "class"))
      (by decide : (Token.word "A" 1).IsOrdinary) .none (.body hkind hopen hmembers hclose)
  have hcode : codeOf code = code := by decide
  have htypes : TypeList (openingScope code) ([] ++ (code ++ [])) _ := .cons .none hclass .nil
  rw [List.append_nil, List.nil_append] at htypes
  have htokens : tokens "class A \x7b int x; A(int y) \x7b \x7d enum E \x7b B(1) \x7d \x7d" =
      .ok code := by decide +kernel
  obtain ⟨u, hparse, -, hlisted⟩ := declarations_listed.2 htokens (hcode.symm ▸ htypes)
  exact ⟨declarations_listed.1 henum (by decide) [.sign ")" 1], u, hparse, hlisted⟩

end Assay.Source
