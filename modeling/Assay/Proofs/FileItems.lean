import Assay.Proofs.FileFront
import Assay.Proofs.SimulationFile

/-!
# A file in front of more tokens

A file is a package clause, imports and declarations, and each of these parts is read in the same way
if more tokens come behind the file. Main statement: a file that is more than annotations is read up
to its end, and what comes behind it is read as declarations (`file_before`).
-/

namespace Assay.Source

open Assay.Source.Parser

variable {α : Type} {ts us rest z : List Token} {facts : List Fact} {s s' : Scope}

/-! ## Items -/

/-- Reads items as long as the tokens ahead say that there is one more. -/
def items (more : List Token → Bool) (item : Parser Unit) : Parser Unit :=
  repeatWhile do
    if more (← ahead) then
      item
      return true
    else return false

section Items

variable {more : List Token → Bool} {item item' : Parser Unit} {r : Parsed Unit}

/-- A list of items ends where no more are asked for. -/
theorem items_done (h : more ts = false) : items more item s ts = .ok ⟨(), [], ts⟩ :=
  repeatWhile_done (by rw [bind_of_ok (ahead_apply s ts), h]; rfl)

/-- An item is read, and the list goes on behind it. -/
theorem items_again (h : more ts) (hitem : item s ts = .ok ⟨(), facts, rest⟩)
    (hlt : rest.length < ts.length) :
    items more item s ts = recording facts (items more item s rest) := by
  refine repeatWhile_again ?_ hlt
  rw [bind_of_ok (ahead_apply s ts), if_pos h, bind_of_ok hitem]
  simp

/-- An error of an item is the error of the list. -/
theorem items_of_error {e : SourceError} (h : more ts) (hitem : item s ts = .error e) :
    items more item s ts = .error e := by
  refine iterate_of_error (bind_of_error ?_)
  rw [bind_of_ok (ahead_apply s ts), if_pos h, bind_of_error hitem]
  rfl

/-- Items that were read: none, or a first one and the others. -/
theorem items_eq_ok (h : items more item s ts = .ok r) :
    (more ts = false ∧ r = ⟨(), [], ts⟩) ∨
      (more ts = true ∧ ∃ a b, item s ts = .ok a ∧ a.rest.length < ts.length ∧
        items more item s a.rest = .ok b ∧ r = ⟨(), a.facts ++ b.facts, b.rest⟩) := by
  cases hmore : more ts with
  | false =>
    rw [items_done hmore] at h
    exact .inl ⟨rfl, (Except.ok.inj h).symm⟩
  | true =>
    rcases repeatWhile_eq_ok h with ⟨facts, rest, hask, -⟩ | ⟨facts, rest, b, hask, hlt, hb, rfl⟩
    all_goals
      rw [bind_of_ok (ahead_apply s ts), if_pos hmore, recording_nil] at hask
      obtain ⟨a, hitem, heq⟩ := giving_eq_ok hask
      cases heq
    exact .inr ⟨rfl, a, b, hitem, hlt, hb, rfl⟩

/-- Items that end are read up to the end of the last one. -/
theorem items_stopsAt (hitem : ∀ us, more us → Separate z s s' item item' us)
    (hlexical : Lexical ts) (h : items more item s ts = .ok r) : StopsAt ts r.rest := by
  induction hn : ts.length using Nat.strongRecOn generalizing ts r with
  | ind n ih =>
    subst hn
    rcases items_eq_ok h with ⟨-, rfl⟩ | ⟨hmore, a, b, ha, hlt, hb, rfl⟩
    · exact .inl rfl
    · have hend := (hitem ts hmore).behindEnd a hlexical ha
      have hrest := ih _ hlt (hlexical.of_suffix hend.suffix) hb rfl
      exact StopsAt.trans (.inr hend) hrest

/-- No item comes next behind all items. -/
theorem items_over (h : items more item s ts = .ok r) : more r.rest = false := by
  induction hn : ts.length using Nat.strongRecOn generalizing ts r with
  | ind n ih =>
    subst hn
    rcases items_eq_ok h with ⟨hmore, rfl⟩ | ⟨-, a, b, -, hlt, hb, rfl⟩
    · exact hmore
    · have hover := ih _ hlt hb rfl
      exact hover

/-- Items that end are read in the same way in front of `z`, and reading goes on behind them. -/
theorem items_before (hitem : ∀ us, more us → Separate z s s' item item' us)
    (hmore : ∀ us, more us → us ≠ [] ∧ more (us ++ z)) (hts : Joins z ts)
    (h : items more item s ts = .ok r) :
    items more item' s' (ts ++ z) = recording r.facts (items more item' s' (r.rest ++ z)) := by
  induction hn : ts.length using Nat.strongRecOn generalizing ts r with
  | ind n ih =>
    subst hn
    rcases items_eq_ok h with ⟨-, rfl⟩ | ⟨hask, a, b, ha, hlt, hb, rfl⟩
    · rw [recording_nil]
    · obtain ⟨hne, hask'⟩ := hmore ts hask
      have hsuffix := ((hitem ts hask).behindEnd a hts.lexical ha).suffix
      have hrun := (hitem ts hask).before a hts hne ha
      have hlt' : (a.rest ++ z).length < (ts ++ z).length := by
        rw [List.length_append, List.length_append]
        omega
      rw [items_again hask' hrun hlt', ih _ hlt (hts.of_suffix hsuffix) hb rfl, recording_recording]

end Items

/-! ## The parts of a file -/

variable {l : Token} {closer : String} {r : Parsed Unit} {nested nested' : Construct → Parser Unit}

/-- A group is passed over up to a closer of its bracket, whatever comes after it. -/
theorem skipGroup_closed (hl : l.closer? = some closer) (h : skipGroup s (l :: ts) = .ok r) :
    ∃ inside c, ts = inside ++ c :: r.rest ∧ c.Closes closer ∧ r.facts = [] ∧
      ∀ s' z, skipGroup s' (l :: (ts ++ z)) = .ok ⟨(), [], r.rest ++ z⟩ := by
  obtain ⟨_, _, inside, rest, hts, hsplit, rfl⟩ := skipGroup_eq_ok h
  obtain ⟨rfl, rfl⟩ := List.cons.inj hts
  rw [hl, Option.toList_some] at hsplit
  obtain ⟨c, rfl, hend⟩ := GroupEnd.of_splitGroup hsplit
  refine ⟨inside, c, rfl, hend.closes (List.cons_ne_nil closer []), rfl, fun s' z => ?_⟩
  have hgroup := hend.splitGroup (rest ++ z)
  rw [← List.cons_append, ← List.append_assoc, ← Option.toList_some, ← hl] at hgroup
  exact skipGroup_of_ok hgroup s'

/-- A module is declared up to the brace that closes its body. -/
theorem moduleDeclaration_separate (hscope : s.enclosing = s'.enclosing) (ts : List Token) :
    Separate z s s' moduleDeclaration moduleDeclaration ts := by
  have hheader : (Simulation.front z).Sim True false Eq (untilSees "\x7b" skip)
      (untilSees "\x7b" skip) := .untilSees "\x7b" .skip
  -- the header stops at the brace that opens the body
  have hparts : ∀ r, Lexical ts → moduleDeclaration s ts = .ok r → ∃ a b l after,
      untilSees "\x7b" skip s ts = .ok a ∧ a.rest = l :: after ∧ a.rest <:+ ts ∧
        l.closer? = some "\x7d" ∧ skipGroup s (l :: after) = .ok b ∧
        r = ⟨(), a.facts ++ b.facts, b.rest⟩ := by
    intro r hlexical hr
    obtain ⟨a, ha, b, hb, rfl⟩ := bind_eq_ok.1 hr
    obtain ⟨span, hspan, -, hbrace⟩ := untilBrace_eq_ok ha
    obtain ⟨l, after, hafter, hl⟩ := begins_eq_true hbrace
    have hmem : l ∈ ts := by rw [hspan, hafter]; simp
    have hsign : l.IsSign "\x7b" := (hlexical l hmem).isSign (by decide) hl
    exact ⟨a, b, l, after, ha, hafter, ⟨span, hspan.symm⟩, hsign.opens rfl, hafter ▸ hb, rfl⟩
  constructor
  · intro r hlexical hr
    obtain ⟨a, b, l, after, -, hafter, hsuffix, hl, hb, rfl⟩ := hparts r hlexical hr
    obtain ⟨inside, c, rfl, hc, -, -⟩ := skipGroup_closed hl hb
    rw [hafter] at hsuffix
    have hends : c.Ends := .inr (by simp [Token.spells, (Bool.and_eq_true_iff.1 hc.1).1, hc.2])
    exact BehindEnd.of_suffix ⟨l :: inside, c, rfl, hends⟩ hsuffix
  · intro r hts hne hr
    obtain ⟨a, b, l, after, ha, hafter, -, hl, hb, rfl⟩ := hparts r hts.lexical hr
    obtain ⟨inside, c, -, -, hfacts, hclosed⟩ := skipGroup_closed hl hb
    have hrun := hheader.before hscope ha hts hne (by simp [hafter])
    rw [hafter, List.cons_append] at hrun
    rw [moduleDeclaration, bind_of_ok hrun, hclosed, hfacts]
    rfl

/-- A top level declaration reads the same whatever stands behind it. -/
theorem topLevelDeclaration_separate (h : (Simulation.front z).Nests nested nested')
    (hscope : s.enclosing = s'.enclosing) (ts : List Token) :
    Separate z s s' (topLevelDeclaration nested) (topLevelDeclaration nested') ts := by
  have hmodule : Separate z s s' moduleDeclaration moduleDeclaration ts :=
    moduleDeclaration_separate hscope ts
  have htype := h.modifiedType.separate hscope ts
  -- the two words that decide what is declared are those of the first token on both sides
  have hrun : ∀ (nested : Construct → Parser Unit) (s : Scope) (us : List Token),
      topLevelDeclaration nested s us = (if begins ";" us then skip
        else if startsWith (·.spellsAny ["module", "open"]) us then moduleDeclaration
        else modifiedType nested) s us := fun nested s us => by
    rw [topLevelDeclaration_eq, bind_of_ok (ahead_apply s us), recording_nil]
  constructor
  · intro r hlexical hr
    rw [hrun] at hr
    split_ifs at hr with hsemicolon hword
    · obtain ⟨t, us, rfl, ht⟩ := begins_eq_true hsemicolon
      cases hr
      exact ⟨[], t, rfl, .inl ht⟩
    · exact hmodule.behindEnd r hlexical hr
    · exact htype.behindEnd r hlexical hr
  · intro r hts hne hr
    rw [hrun] at hr
    obtain ⟨t, us, rfl⟩ := List.exists_cons_of_ne_nil hne
    rw [hrun, List.cons_append, begins_cons, startsWith_cons]
    rw [begins_cons, startsWith_cons] at hr
    split_ifs at hr ⊢ with hsemicolon hword
    · cases hr
      rfl
    · exact hmodule.before r hts hne hr
    · exact htype.before r hts hne hr

/-! ## Imports and packages -/

/-- Reads an import or an empty declaration between imports. -/
def importItem : Parser Unit := do
  if ← sees "import" then importDeclaration else expect ";"

/-- An import or an empty declaration comes next. -/
def startsImport (ts : List Token) : Bool := begins "import" ts || begins ";" ts

/-- Reads the imports of a file. -/
def importItems : Parser Unit := items startsImport importItem

/-- Reads the declarations of a file up to its end. -/
def declarationItems (nested : Construct → Parser Unit) : Parser Unit :=
  items (!·.isEmpty) (topLevelDeclaration nested)

/-- A file is its package, its imports and its declarations. -/
theorem file_eq (nested : Construct → Parser Unit) : file nested = (do
    packageDeclaration
    importItems
    declarationItems nested) := by
  have himports : importItems = repeatWhile (do
      if ← sees "import" then
        importDeclaration
        return true
      else if ← sees ";" then
        skip
        return true
      else return false) := by
    refine congrArg repeatWhile ?_
    funext s ts
    cases himport : begins "import" ts <;> cases hsemicolon : begins ";" ts <;>
      simp [bind_apply, startsImport, importItem, expect, himport, hsemicolon]
  have hdeclarations : declarationItems nested = repeatWhile (do
      if (← ahead).isEmpty then return false
      topLevelDeclaration nested
      return true) := by
    refine congrArg repeatWhile ?_
    funext s ts
    cases ts <;> simp [bind_apply]
  rw [himports, hdeclarations]
  rfl

/-- An import reads the same whatever stands behind it. -/
theorem importItem_separate (hscope : s.enclosing = s'.enclosing) (ts : List Token) :
    Separate z s s' importItem importItem ts := by
  have hitem : (Simulation.front z).Sim True true Eq importItem importItem :=
    (Simulation.Sim.sees "import").bindEq fun _ =>
      .cond .importDeclaration (.expect ";" fun _ => .inl rfl)
  exact hitem.separate hscope ts

/-- The first word is the same with more tokens behind. -/
theorem begins_before (hne : ts ≠ []) {word : String} : begins word (ts ++ z) = begins word ts := by
  cases ts with
  | nil => exact absurd rfl hne
  | cons t ts => rfl

/-- Whether an import starts is the same with more tokens behind. -/
theorem startsImport_before (hne : ts ≠ []) : startsImport (ts ++ z) = startsImport ts := by
  rw [startsImport, startsImport, begins_before hne, begins_before hne]

section Package

variable {a : Parsed Unit}

/-- What stands behind the annotations at the start of a file: a package clause, or nothing. -/
theorem packageDeclaration_behind (ha : skipAnnotations s ts = .ok a) :
    packageDeclaration s ts =
      recording a.facts ((if begins "package" a.rest then packageClause else pure ()) s a.rest) := by
  rw [packageDeclaration_eq, bind_of_ok (show skipAnnotations s ts = .ok ⟨(), a.facts, a.rest⟩ from ha),
    bind_of_ok (sees_apply _ s _), recording_nil]

/-- Annotations are skipped at the front. -/
theorem skipAnnotations_suffix (h : skipAnnotations s ts = .ok r) : r.rest <:+ ts := by
  have hsim : (Simulation.front []).Sim True false Eq skipAnnotations skipAnnotations :=
    .skipAnnotations
  exact ((hsim ts ts).forward s r h).1

/-- The clause of a package reads the same whatever stands behind it. -/
theorem packageClause_separate (hscope : s.enclosing = s'.enclosing) (ts : List Token) :
    Separate z s s' packageClause packageClause ts := by
  have hclause : (Simulation.front z).Sim True true Eq packageClause packageClause := .packageClause
  exact hclause.separate hscope ts

/-- The package is read up to where its annotations or its clause end. -/
theorem packageDeclaration_stopsAt (ha : skipAnnotations s ts = .ok a) (hlexical : Lexical ts)
    (h : packageDeclaration s ts = .ok r) : StopsAt a.rest r.rest := by
  rw [packageDeclaration_behind ha] at h
  obtain ⟨b, hb, rfl⟩ := recording_eq_ok.1 h
  split_ifs at hb
  · have hseparate : Separate [] s s packageClause packageClause a.rest :=
      packageClause_separate rfl a.rest
    exact .inr (hseparate.behindEnd b (hlexical.of_suffix (skipAnnotations_suffix ha)) hb)
  · cases hb
    exact .inl rfl

/-- The package clause of a file is read in the same way in front of more tokens, if the file is more
than annotations. -/
theorem packageDeclaration_before (hscope : s.enclosing = s'.enclosing)
    (ha : skipAnnotations s ts = .ok a) (hne : a.rest ≠ []) (hts : Joins z ts)
    (h : packageDeclaration s ts = .ok r) :
    packageDeclaration s' (ts ++ z) = .ok ⟨(), r.facts, r.rest ++ z⟩ := by
  have hannotations : (Simulation.front z).Sim True false Eq skipAnnotations skipAnnotations :=
    .skipAnnotations
  have hsuffix := skipAnnotations_suffix ha
  have hne' : ts ≠ [] := by
    rintro rfl
    exact hne (List.suffix_nil.1 hsuffix)
  have ha' := hannotations.before hscope ha hts hne' fun hnil => absurd hnil hne
  rw [packageDeclaration_behind ha] at h
  obtain ⟨b, hb, rfl⟩ := recording_eq_ok.1 h
  rw [packageDeclaration_behind ha', begins_before hne]
  split_ifs at hb ⊢
  · rw [(packageClause_separate hscope a.rest).before b (hts.of_suffix hsuffix) hne hb]
    rfl
  · cases hb
    rfl

end Package

/-! ## What is recorded before declarations -/

/-- The parser records a fact of a sort if it succeeds. -/
def Records (sort : Fact → Prop) (p : Parser α) : Prop :=
  ∀ s ts r, p s ts = .ok r → ∃ fact ∈ r.facts, sort fact

/-- A sort of facts recorded behind a silent parser is recorded by the whole. -/
theorem Records.behind {β : Type} {sort : Fact → Prop} {p : Parser α} {f : α → Parser β}
    (hf : ∀ a, Records sort (f a)) : Records sort (p >>= f) := by
  intro s ts r h
  obtain ⟨a, -, b, hb, rfl⟩ := bind_eq_ok.1 h
  obtain ⟨fact, hfact, hsort⟩ := hf a.value s a.rest b hb
  exact ⟨fact, List.mem_append_right _ hfact, hsort⟩

/-- Recording a fact records its sort. -/
theorem Records.record {sort : Fact → Prop} {fact : Fact} (h : sort fact) :
    Records sort (Parser.record fact) := fun _ _ _ hr => by
  cases hr
  exact ⟨fact, List.mem_singleton_self fact, h⟩

/-- The fact is an import. -/
def Fact.IsImport (fact : Fact) : Prop := ∃ i, fact = .importOf i

/-- The fact is the declaration of a package. -/
def Fact.IsPackage (fact : Fact) : Prop := ∃ d : Declaration, fact = .declaration d ∧ d.kind = .package

/-- An import declaration records imports. -/
theorem records_importDeclaration : Records Fact.IsImport importDeclaration := by
  have hrest : ∀ i, Records Fact.IsImport (do expect ";"; record (.importOf i)) := fun i =>
    .behind fun _ => .record ⟨i, rfl⟩
  refine .behind fun _ => .behind fun isStatic => ?_
  have hname : Records Fact.IsImport (do
      let imported ← dottedName
      let ts ← ahead
      let wildcard := begins "." ts && begins "*" ts.tail
      if wildcard then resumeAt (ts.drop 2)
      expect ";"
      record (.importOf ⟨imported, isStatic, wildcard⟩)) := by
    refine .behind fun imported => .behind fun ts => ?_
    dsimp only
    split_ifs
    · exact .behind fun _ => hrest _
    · exact hrest _
  cases isStatic with
  | true => exact .behind fun _ => hname
  | false => exact hname

/-- The clause of a package records packages. -/
theorem records_packageClause : Records Fact.IsPackage packageClause :=
  .behind fun _ => .behind fun _ => .behind fun _ => .behind fun _ => .behind fun _ =>
    .record ⟨_, rfl, rfl⟩

/-- Items between imports that record no import are semicolons. -/
theorem importItem_eq_ok (hitem : importItem s ts = .ok r)
    (himport : ∀ fact ∈ r.facts, ¬ fact.IsImport) :
    ∃ t, ts = t :: r.rest ∧ t.spells ";" ∧ r.facts = [] := by
  rw [importItem, bind_of_ok (sees_apply _ s ts), recording_nil] at hitem
  split_ifs at hitem
  · obtain ⟨fact, hfact, hsort⟩ := records_importDeclaration _ _ _ hitem
    exact absurd hsort (himport fact hfact)
  · obtain ⟨t, hts, ht⟩ := expect_eq_ok hitem
    rw [hts, expect_cons ht] at hitem
    exact ⟨t, hts, ht, (congrArg Parsed.facts (Except.ok.inj hitem)).symm⟩

/-- Where no import is recorded, what is read before the declarations may be read as declarations
too. -/
theorem importItems_as_declarations (h : importItems s ts = .ok r)
    (himport : ∀ fact ∈ r.facts, ¬ fact.IsImport) (nested : Construct → Parser Unit) :
    r.facts = [] ∧ declarationItems nested s ts = declarationItems nested s r.rest := by
  induction hn : ts.length using Nat.strongRecOn generalizing ts r with
  | ind n ih =>
    subst hn
    rcases items_eq_ok h with ⟨-, rfl⟩ | ⟨-, a, b, ha, hlt, hb, rfl⟩
    · exact ⟨rfl, rfl⟩
    · obtain ⟨t, rfl, ht, hfacts⟩ := importItem_eq_ok ha (List.forall_mem_append.1 himport).1
      obtain ⟨hmore, hrest⟩ := ih _ hlt hb (List.forall_mem_append.1 himport).2 rfl
      have hskip : topLevelDeclaration nested s (t :: a.rest) = .ok ⟨(), [], a.rest⟩ := by
        rw [topLevelDeclaration_eq, bind_of_ok (ahead_apply s _), recording_nil, begins_cons, if_pos ht,
          skip_cons]
      refine ⟨by rw [hfacts, hmore]; rfl, ?_⟩
      rw [declarationItems, items_again rfl hskip hlt, recording_nil]
      exact hrest

/-- Imports that record none may be left out before the declarations. -/
theorem imports_then_declarations (h : importItems s ts = .ok r)
    (himport : ∀ fact ∈ r.facts, ¬ fact.IsImport) (nested : Construct → Parser Unit) :
    (do importItems; declarationItems nested) s ts = declarationItems nested s ts := by
  obtain ⟨hfacts, hrest⟩ := importItems_as_declarations h himport nested
  rw [bind_of_ok (show importItems s ts = .ok ⟨(), r.facts, r.rest⟩ from h), hfacts, recording_nil,
    hrest]

/-! ## Whole files -/

variable {a b : Parsed Unit}

/-- A file that is more than annotations ends with a token that ends something. -/
theorem file_ends (hnests : (Simulation.front []).Nests nested nested)
    (ha : skipAnnotations s ts = .ok a) (hne : a.rest ≠ []) (hlexical : Lexical ts)
    (h : file nested s ts = .ok r) : BehindEnd ts [] := by
  have hrest := file_rest h
  rw [file_eq] at h
  obtain ⟨p, hp, c, hc, rfl⟩ := bind_eq_ok.1 h
  obtain ⟨i, hi, d, hd, rfl⟩ := bind_eq_ok.1 hc
  have hpackage := packageDeclaration_stopsAt ha hlexical hp
  have hlexical' := hlexical.of_suffix (hpackage.suffix.trans (skipAnnotations_suffix ha))
  have himports : StopsAt p.rest i.rest :=
    items_stopsAt (fun us _ => @importItem_separate [] s s rfl us) hlexical' hi
  have hdeclarations : StopsAt i.rest d.rest :=
    items_stopsAt (fun us _ => topLevelDeclaration_separate hnests rfl us)
      (hlexical'.of_suffix himports.suffix) hd
  have hstop : StopsAt a.rest [] := hrest ▸ (hpackage.trans himports).trans hdeclarations
  exact (hstop.resolve_left (Ne.symm hne)).of_suffix (skipAnnotations_suffix ha)

/-- A file that is more than annotations is read in the same way in front of more tokens, and these
are read as declarations. -/
theorem file_before (hnests : (Simulation.front z).Nests nested nested')
    (hscope : s.enclosing = s'.enclosing) (hts : Joins z ts) (ha : skipAnnotations s ts = .ok a)
    (hne : a.rest ≠ []) (h : file nested s ts = .ok r) (hz : importItems s' z = .ok b)
    (himport : ∀ fact ∈ b.facts, ¬ fact.IsImport) :
    file nested' s' (ts ++ z) = recording r.facts (declarationItems nested' s' z) := by
  have hrest := file_rest h
  rw [file_eq] at h ⊢
  obtain ⟨p, hp, c, hc, rfl⟩ := bind_eq_ok.1 h
  obtain ⟨i, hi, d, hd, rfl⟩ := bind_eq_ok.1 hc
  have hpackage := packageDeclaration_before hscope ha hne hts hp
  have hjoins : Joins z p.rest := hts.of_suffix
    ((packageDeclaration_stopsAt ha hts.lexical hp).suffix.trans (skipAnnotations_suffix ha))
  have hstop : StopsAt p.rest i.rest :=
    items_stopsAt (fun us _ => @importItem_separate [] s s rfl us) hjoins.lexical hi
  have himports : importItems s' (p.rest ++ z) = recording i.facts (importItems s' (i.rest ++ z)) := by
    refine items_before (fun us _ => importItem_separate hscope us) (fun us hus => ?_) hjoins hi
    have hne : us ≠ [] := by
      rintro rfl
      cases hus
    exact ⟨hne, by rwa [startsImport_before hne]⟩
  have hdeclarations : declarationItems nested' s' (i.rest ++ z) =
      recording d.facts (declarationItems nested' s' (d.rest ++ z)) := by
    refine items_before (fun us _ => topLevelDeclaration_separate hnests hscope us)
      (fun us hus => ?_) (hjoins.of_suffix hstop.suffix) hd
    cases us with
    | nil => cases hus
    | cons t us => exact ⟨List.cons_ne_nil t us, rfl⟩
  -- the loop over imports gets to `z` only if nothing comes behind the imports, and it finds none there
  have hbehind : (do importItems; declarationItems nested') s' (i.rest ++ z) =
      declarationItems nested' s' (i.rest ++ z) := by
    by_cases hnil : i.rest = []
    · rw [hnil]
      exact imports_then_declarations hz himport nested'
    · have hover : startsImport (i.rest ++ z) = false := by
        rw [startsImport_before hnil]
        exact items_over hi
      rw [bind_of_ok (show importItems s' (i.rest ++ z) = _ from items_done hover), recording_nil]
  have hend : d.rest = [] := hrest
  rw [bind_of_ok hpackage, bind_of_recording himports, hbehind, hdeclarations, hend,
    recording_recording, recording_recording, List.append_assoc]
  rfl

end Assay.Source
