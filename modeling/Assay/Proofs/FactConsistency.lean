import Assay.Proofs.ProgressHeader
import Assay.Source.Body
import Assay.Source.CompilationUnit

/-!
# Facts that fit together

What the facts recorded inside a type owe each other: every declaration belongs to a type that was
declared before it, a method comes directly after its parameters, names of variables and fields stand
for values, and an access through a chain of names comes after the access to the chain. All of it
passes from parts to the whole (`Consistent.append`), and each group of facts that a parser records
together has it.
-/

namespace Assay.Source

open Assay.Source.Parser

/-! ## Conditions on what comes before -/

/-- Every item of a list stands in the relation to the items before it. -/
def EachAfter {α : Type} (P : List α → α → Prop) (l : List α) : Prop :=
  ∀ before x after, l = before ++ x :: after → P before x

namespace EachAfter

variable {α : Type} {P P' : List α → α → Prop} {l l' : List α} {a : α}

/-- The empty list has nothing to fulfil. -/
theorem nil : EachAfter P [] := fun before x after h => by simp at h

/-- What holds of every element holds behind any others. -/
theorem of_forall (h : ∀ x ∈ l, ∀ before, P before x) : EachAfter P l := by
  rintro before x after rfl
  exact h x (by simp) before

/-- A weaker property holds as well. -/
theorem mono (h : EachAfter P l) (hP : ∀ before x, P before x → P' before x) : EachAfter P' l :=
  fun before x after hl => hP before x (h before x after hl)

/-- A relation that more items before do not disturb passes from parts to the whole. -/
theorem append (h : EachAfter P l) (h' : EachAfter P l')
    (hP : ∀ before x, P before x → P (l ++ before) x) : EachAfter P (l ++ l') := by
  intro before x after hl
  rcases List.append_eq_append_iff.1 hl with ⟨mid, rfl, hl'⟩ | ⟨mid, rfl, hl'⟩
  · exact hP mid x (h' mid x after hl')
  · cases mid with
    | nil =>
      have hx := hP [] x (h' [] x after hl'.symm)
      rwa [List.append_nil, List.append_nil] at hx
    | cons y mid =>
      obtain ⟨rfl, rfl⟩ := List.cons.inj hl'
      exact h before x mid rfl

/-- The first element is judged alone, the others behind it. -/
theorem cons (ha : P [] a) (h : EachAfter (fun before x => P (a :: before) x) l) :
    EachAfter P (a :: l) := by
  intro before x after hl
  cases before with
  | nil =>
    obtain ⟨rfl, -⟩ := List.cons.inj hl
    exact ha
  | cons b before =>
    obtain ⟨rfl, hrest⟩ := List.cons.inj hl
    exact h before x after hrest

/-- An element may be put behind the others. -/
theorem snoc (h : EachAfter P l) (ha : P l a) : EachAfter P (l ++ [a]) := by
  intro before x after hl
  rcases List.append_eq_append_iff.1 hl with ⟨mid, rfl, hl'⟩ | ⟨mid, rfl, hl'⟩
  -- the item is the last one, or it stands in the list before that
  · cases mid with
    | nil =>
      obtain ⟨rfl, -⟩ := List.cons.inj hl'
      rwa [List.append_nil]
    | cons y mid => simp at hl'
  · cases mid with
    | nil =>
      obtain ⟨rfl, -⟩ := List.cons.inj hl'
      rwa [List.append_nil] at ha
    | cons y mid =>
      obtain ⟨rfl, rfl⟩ := List.cons.inj hl'
      exact h before x mid rfl

end EachAfter

/-! ## Views of facts -/

/-- The declarations among facts. -/
def declarationsIn (facts : List Fact) : List Declaration :=
  facts.filterMap fun | .declaration d => some d | _ => none

/-- The accesses among facts. -/
def accessesIn (facts : List Fact) : List MemberAccess :=
  facts.filterMap fun | .access a => some a | _ => none

/-! ## The conditions -/

/-- The owner of a declaration is none, the type around, or a type declared before. -/
def DeclaredOwner (owner : String) (before : List Declaration) (d : Declaration) : Prop :=
  d.owner = "" ∨ d.owner = owner ∨ ∃ e ∈ before, e.kind.isType ∧ e.name = d.owner

/-- A method or constructor comes directly after its parameters. -/
def FollowsParameters (before : List Declaration) (d : Declaration) : Prop :=
  d.kind = .method ∨ d.kind = .constructor → ∃ others params, before = others ++ params ∧
    params.length = d.arity ∧ ∀ q ∈ params, q.kind = .parameter ∧ q.owner = d.owner

/-- An access through a chain of several names comes directly after the access to the last of them,
on the same line. -/
def FollowsChain (before : List MemberAccess) (a : MemberAccess) : Prop :=
  a.qualifierKind = .name → ∀ chain last : String, '.' ∉ last.toList →
    a.qualifier = chain ++ "." ++ last →
      ∃ others, before = others ++ [⟨.field, last, chain, .name, a.line, none⟩]

/-- What a declaration owes to the facts around it, apart from their order. -/
structure Declaration.Fits (facts : List Fact) (d : Declaration) : Prop where
  constructor_name : d.kind = .constructor → d.name = d.owner ∧ d.owner ≠ ""
  value : d.kind = .parameter ∨ d.kind = .variableDeclarator → Fact.value d.name ∈ facts
  staticField : d.kind = .staticField → Fact.field d.name true ∈ facts
  instanceField : d.kind = .instanceField → Fact.field d.name false ∈ facts

/-- Kind, arity and qualifier of an access go together. -/
structure MemberAccess.Shaped (a : MemberAccess) : Prop where
  arity : (a.kind = .field ∧ a.arity = none) ∨ (a.kind = .method ∧ ∃ n, a.arity = some n)
  none : a.qualifierKind = .none → a.kind = .method ∧ a.qualifier = ""
  expression : a.qualifierKind = .expression → a.qualifier = ""
  this : a.qualifierKind = .this → a.qualifier = "this"
  super : a.qualifierKind = .super → a.qualifier = "super"
  name : a.qualifierKind = .name → a.qualifier ≠ ""

/-- The facts recorded inside a type fit together. -/
structure Consistent (owner : String) (facts : List Fact) : Prop where
  owned : EachAfter (DeclaredOwner owner) (declarationsIn facts)
  parameters : EachAfter FollowsParameters (declarationsIn facts)
  package_free : ∀ d ∈ declarationsIn facts, d.kind ≠ .package
  fits : ∀ d ∈ declarationsIn facts, d.Fits facts
  field_value : ∀ name isStatic, Fact.field name isStatic ∈ facts → Fact.value name ∈ facts
  shaped : ∀ a ∈ accessesIn facts, a.Shaped
  chained : EachAfter FollowsChain (accessesIn facts)

variable {owner name : String} {line arity : Nat} {facts before after : List Fact} {t : Token}

/-- The declarations of two lists are those of the one and those of the other. -/
@[simp] theorem declarationsIn_append :
    declarationsIn (before ++ after) = declarationsIn before ++ declarationsIn after :=
  List.filterMap_append

/-- The accesses of two lists are those of the one and those of the other. -/
@[simp] theorem accessesIn_append :
    accessesIn (before ++ after) = accessesIn before ++ accessesIn after := List.filterMap_append

/-- A declaration that fits some facts fits more. -/
theorem Declaration.Fits.mono {d : Declaration} (h : d.Fits before)
    (hfacts : ∀ fact ∈ before, fact ∈ after) : d.Fits after where
  constructor_name := h.constructor_name
  value hkind := hfacts _ (h.value hkind)
  staticField hkind := hfacts _ (h.staticField hkind)
  instanceField hkind := hfacts _ (h.instanceField hkind)

namespace Consistent

/-- Consistent facts may be followed by consistent facts. -/
theorem append (h : Consistent owner before) (h' : Consistent owner after) :
    Consistent owner (before ++ after) where
  owned := by
    rw [declarationsIn_append]
    refine h.owned.append h'.owned fun before d hd => ?_
    rcases hd with hd | hd | ⟨e, he, hd⟩
    · exact .inl hd
    · exact .inr (.inl hd)
    · exact .inr (.inr ⟨e, List.mem_append_right _ he, hd⟩)
  parameters := by
    rw [declarationsIn_append]
    refine h.parameters.append h'.parameters fun before d hd hkind => ?_
    obtain ⟨others, params, rfl, hparams⟩ := hd hkind
    exact ⟨_, params, (List.append_assoc ..).symm, hparams⟩
  package_free := by
    rw [declarationsIn_append]
    exact List.forall_mem_append.2 ⟨h.package_free, h'.package_free⟩
  fits := by
    rw [declarationsIn_append]
    exact List.forall_mem_append.2
      ⟨fun d hd => (h.fits d hd).mono fun fact => List.mem_append_left _,
        fun d hd => (h'.fits d hd).mono fun fact => List.mem_append_right _⟩
  field_value name isStatic hfield := by
    rcases List.mem_append.1 hfield with hfield | hfield
    · exact List.mem_append_left _ (h.field_value name isStatic hfield)
    · exact List.mem_append_right _ (h'.field_value name isStatic hfield)
  shaped := by
    rw [accessesIn_append]
    exact List.forall_mem_append.2 ⟨h.shaped, h'.shaped⟩
  chained := by
    rw [accessesIn_append]
    refine h.chained.append h'.chained fun before a ha hkind chain last hlast hqualifier => ?_
    obtain ⟨others, rfl⟩ := ha hkind chain last hlast hqualifier
    exact ⟨_, (List.append_assoc ..).symm⟩

/-! ## Groups of facts -/

/-- Facts that are neither declarations nor fields nor accesses. -/
theorem of_none (hdeclarations : declarationsIn facts = []) (haccesses : accessesIn facts = [])
    (hfields : ∀ name isStatic, Fact.field name isStatic ∉ facts) : Consistent owner facts where
  owned := hdeclarations ▸ .nil
  parameters := hdeclarations ▸ .nil
  package_free := hdeclarations ▸ nofun
  fits := hdeclarations ▸ nofun
  field_value name isStatic h := absurd h (hfields name isStatic)
  shaped := haccesses ▸ nofun
  chained := haccesses ▸ .nil

/-- No facts are consistent. -/
theorem nil : Consistent owner [] := of_none rfl rfl nofun

/-- A value alone is consistent. -/
theorem value : Consistent owner [.value name] := of_none rfl rfl nofun

/-- A loop alone is consistent. -/
theorem loop {l : Loop} : Consistent owner [.loop l] := of_none rfl rfl nofun

/-- A `catch` clause alone is consistent. -/
theorem catchClause : Consistent owner [.catchClause line] := of_none rfl rfl nofun

/-- An import alone is consistent. -/
theorem importOf {i : Import} : Consistent owner [.importOf i] := of_none rfl rfl nofun

/-- One declaration of the type around, with the facts it needs after it. -/
theorem declaration {d : Declaration} (howner : d.owner = owner)
    (hcallable : ¬ (d.kind = .method ∨ d.kind = .constructor)) (hpackage : d.kind ≠ .package)
    (hdeclarations : declarationsIn facts = []) (haccesses : accessesIn facts = [])
    (hfits : d.Fits (.declaration d :: facts))
    (hfields : ∀ name isStatic, Fact.field name isStatic ∈ facts → Fact.value name ∈ facts) :
    Consistent owner (.declaration d :: facts) := by
  have hone : declarationsIn (.declaration d :: facts) = [d] := congrArg (d :: ·) hdeclarations
  have hmem : ∀ {P : Declaration → Prop}, P d → ∀ e ∈ declarationsIn (.declaration d :: facts), P e := by
    intro P hd e he
    rw [hone, List.mem_singleton] at he
    exact he ▸ hd
  exact
    { owned := .of_forall (hmem fun _ => .inr (.inl howner))
      parameters := .of_forall (hmem fun _ hkind => absurd hkind hcallable)
      package_free := hmem hpackage
      fits := hmem hfits
      field_value := fun name isStatic h => by
        rcases List.mem_cons.1 h with h | h
        · cases h
        · exact List.mem_cons_of_mem _ (hfields name isStatic h)
      shaped := (show accessesIn (.declaration d :: facts) = [] from haccesses) ▸ nofun
      chained := (show accessesIn (.declaration d :: facts) = [] from haccesses) ▸ .nil }

/-- A variable or parameter, which stands for a value. -/
theorem declaredValue {kind : DeclarationKind}
    (hkind : kind = .parameter ∨ kind = .variableDeclarator) :
    Consistent owner (Source.Parser.declaredValue kind owner t) := by
  refine declaration rfl ?_ ?_ rfl rfl ⟨?_, fun _ => by simp, ?_, ?_⟩ (by simp) <;>
    rcases hkind with rfl | rfl <;> simp

/-- The first name of a field declaration. -/
theorem firstField (isStatic : Bool) :
    Consistent owner [.declaration ⟨if isStatic then .staticField else .instanceField, name, line,
      owner, 0, false, false⟩, .value name, .field name isStatic] := by
  refine declaration rfl ?_ ?_ rfl rfl ⟨?_, ?_, ?_, ?_⟩ (by simp) <;> cases isStatic <;> simp

/-- A further name of a field declaration. -/
theorem furtherField (isStatic : Bool) :
    Consistent owner [.value name, .field name isStatic] where
  owned := .nil
  parameters := .nil
  package_free := nofun
  fits := nofun
  field_value other _ h := by
    simp only [List.mem_cons, reduceCtorEq, Fact.field.injEq, false_or, List.not_mem_nil,
      or_false] at h
    simp [h.1]
  shaped := nofun
  chained := .nil

/-- The parameters of a list. -/
theorem parameterFacts (h : ParameterFacts owner arity facts) : Consistent owner facts := by
  obtain ⟨params, -, rfl⟩ := h
  induction params with
  | nil => exact nil
  | cons t params ih => exact (declaredValue (.inl rfl)).append ih

/-- What the facts of a list of parameters declare. -/
theorem declarationsIn_parameterFacts (h : ParameterFacts owner arity facts) :
    (declarationsIn facts).length = arity ∧
      ∀ q ∈ declarationsIn facts, q.kind = .parameter ∧ q.owner = owner := by
  obtain ⟨params, rfl, rfl⟩ := h
  induction params with
  | nil => exact ⟨rfl, nofun⟩
  | cons t params ih =>
    exact ⟨congrArg (· + 1) ih.1, List.forall_mem_cons.2 ⟨⟨rfl, rfl⟩, ih.2⟩⟩

/-- A method or constructor with its parameters before it. -/
theorem callable {d : Declaration} (h : ParameterFacts owner d.arity facts)
    (hkind : d.kind = .method ∨ d.kind = .constructor) (howner : d.owner = owner)
    (hname : d.kind = .constructor → d.name = owner ∧ owner ≠ "") :
    Consistent owner (facts ++ [.declaration d]) := by
  have hparams := parameterFacts h
  have hone : declarationsIn (facts ++ [.declaration d]) = declarationsIn facts ++ [d] :=
    declarationsIn_append
  have hnone : accessesIn (facts ++ [.declaration d]) = accessesIn facts := by
    rw [accessesIn_append]
    exact List.append_nil _
  -- the declaration is of neither a variable nor a package, so most demands are empty
  have hkinds : ∀ kind : DeclarationKind, kind ≠ .method → kind ≠ .constructor → d.kind ≠ kind := by
    rintro kind hmethod hconstructor rfl
    exact hkind.elim hmethod hconstructor
  have hfits : d.Fits (facts ++ [.declaration d]) :=
    { constructor_name := howner ▸ hname
      value := fun h => absurd h (not_or.2 ⟨hkinds _ nofun nofun, hkinds _ nofun nofun⟩)
      staticField := fun h => absurd h (hkinds _ nofun nofun)
      instanceField := fun h => absurd h (hkinds _ nofun nofun) }
  constructor
  case owned =>
    rw [hone]
    exact hparams.owned.snoc (.inr (.inl howner))
  case parameters =>
    rw [hone]
    obtain ⟨hlength, hall⟩ := declarationsIn_parameterFacts h
    exact hparams.parameters.snoc fun _ => ⟨[], declarationsIn facts, rfl, hlength, howner ▸ hall⟩
  case package_free =>
    rw [hone]
    exact List.forall_mem_append.2
      ⟨hparams.package_free, List.forall_mem_singleton.2 (hkinds _ nofun nofun)⟩
  case fits =>
    rw [hone]
    exact List.forall_mem_append.2 ⟨fun e he => (hparams.fits e he).mono fun fact =>
      List.mem_append_left _, List.forall_mem_singleton.2 hfits⟩
  case field_value =>
    intro name isStatic hfield
    rcases List.mem_append.1 hfield with hfield | hfield
    · exact List.mem_append_left _ (hparams.field_value name isStatic hfield)
    · simp at hfield
  case shaped =>
    rw [hnone]
    exact hparams.shaped
  case chained =>
    rw [hnone]
    exact hparams.chained

/-- A type and what is recorded inside it. -/
theorem typeDeclaration {d : Declaration} (hkind : d.kind.isType) (howner : d.owner = owner)
    (h : Consistent d.name facts) : Consistent owner (.declaration d :: facts) := by
  have hcons : declarationsIn (.declaration d :: facts) = d :: declarationsIn facts := rfl
  have hkinds : ∀ {kind : DeclarationKind}, kind.isType = false → d.kind ≠ kind := by
    rintro kind hnot rfl
    rw [hnot] at hkind
    cases hkind
  have hfits : d.Fits (.declaration d :: facts) :=
    { constructor_name := fun h => absurd h (hkinds rfl)
      value := fun h => absurd h (not_or.2 ⟨hkinds rfl, hkinds rfl⟩)
      staticField := fun h => absurd h (hkinds rfl)
      instanceField := fun h => absurd h (hkinds rfl) }
  constructor
  case owned =>
    rw [hcons]
    -- what belongs to the type itself belongs, seen from outside, to a type declared before
    refine .cons (.inr (.inl howner)) (h.owned.mono fun before e he => ?_)
    rcases he with he | he | ⟨e', he', he⟩
    · exact .inl he
    · exact .inr (.inr ⟨d, List.mem_cons_self, hkind, he.symm⟩)
    · exact .inr (.inr ⟨e', List.mem_cons_of_mem d he', he⟩)
  case parameters =>
    rw [hcons]
    refine .cons (fun h => ?_) (h.parameters.mono fun before e he hcallable => ?_)
    · exact absurd h (not_or.2 ⟨hkinds rfl, hkinds rfl⟩)
    · obtain ⟨others, params, rfl, hparams⟩ := he hcallable
      exact ⟨d :: others, params, rfl, hparams⟩
  case package_free => exact List.forall_mem_cons.2 ⟨hkinds rfl, h.package_free⟩
  case fits =>
    exact List.forall_mem_cons.2
      ⟨hfits, fun e he => (h.fits e he).mono fun fact => List.mem_cons_of_mem _⟩
  case field_value =>
    intro name isStatic hfield
    rcases List.mem_cons.1 hfield with hfield | hfield
    · cases hfield
    · exact List.mem_cons_of_mem _ (h.field_value name isStatic hfield)
  case shaped => exact h.shaped
  case chained => exact h.chained

/-- What is recorded inside a body without a name. -/
theorem anonymous (h : Consistent "" facts) : Consistent owner facts :=
  { h with
    owned := h.owned.mono fun _ _ hd => by
      rcases hd with hd | hd | hd
      · exact .inl hd
      · exact .inl hd
      · exact .inr (.inr hd) }

/-- An access whose qualifier is no chain of names. -/
theorem access {a : MemberAccess} (hshaped : a.Shaped) (hkind : a.qualifierKind ≠ .name) :
    Consistent owner [.access a] where
  owned := .nil
  parameters := .nil
  package_free := nofun
  fits := nofun
  field_value _ _ h := by simp at h
  shaped := List.forall_mem_singleton.2 hshaped
  chained := .cons (fun hname => absurd hname hkind) .nil

end Consistent

/-! ## Chains of names -/

/-- A text is taken apart at its last dot in one way only. -/
theorem append_dot_inj {chain last chain' last' : String} (hlast : '.' ∉ last.toList)
    (hlast' : '.' ∉ last'.toList) (h : chain ++ "." ++ last = chain' ++ "." ++ last') :
    chain = chain' ∧ last = last' := by
  have hlists : chain.toList ++ '.' :: last.toList = chain'.toList ++ '.' :: last'.toList := by
    simpa using congrArg String.toList h
  rcases List.append_eq_append_iff.1 hlists with ⟨mid, hchain, hrest⟩ | ⟨mid, hchain, hrest⟩
  · cases mid with
    | nil =>
      rw [List.append_nil] at hchain
      exact ⟨String.toList_injective hchain.symm, String.toList_injective (List.cons.inj hrest).2⟩
    | cons c mid =>
      -- a dot inside the last part
      refine absurd ?_ hlast
      rw [(List.cons.inj hrest).2]
      simp
  · cases mid with
    | nil =>
      rw [List.append_nil] at hchain
      exact ⟨String.toList_injective hchain, String.toList_injective (List.cons.inj hrest).2.symm⟩
    | cons c mid =>
      refine absurd ?_ hlast'
      rw [(List.cons.inj hrest).2]
      simp

/-- The text of a chain that starts with a qualifier. -/
def chainText (qualifier : String) (names : List String) : String :=
  names.foldl (fun chain name => chain ++ "." ++ name) qualifier

/-- A text with a dot in it is not empty. -/
theorem append_dot_ne_empty (chain name : String) : chain ++ "." ++ name ≠ "" := by
  intro hempty
  have := congrArg String.toList hempty
  simp at this

/-- The text of a chain is not empty where it starts with a name. -/
theorem chainText_ne_empty {qualifier : String} (hqualifier : qualifier ≠ "") (names : List String) :
    chainText qualifier names ≠ "" := by
  induction names generalizing qualifier with
  | nil => exact hqualifier
  | cons name names ih => exact ih (append_dot_ne_empty qualifier name)

/-- The text of a chain behind names is the names with dots between them. -/
theorem chainText_intercalate {before : List String} (hbefore : before ≠ []) (names : List String) :
    chainText (String.intercalate "." before) names = String.intercalate "." (before ++ names) := by
  induction names generalizing before with
  | nil => rw [List.append_nil]; rfl
  | cons name names ih =>
    have hnext : String.intercalate "." (before ++ [name]) =
        String.intercalate "." before ++ "." ++ name := by
      rw [String.intercalate_append_of_ne_nil hbefore (List.cons_ne_nil name []),
        String.intercalate_singleton]
    calc chainText (String.intercalate "." before) (name :: names)
        = chainText (String.intercalate "." (before ++ [name])) names := by rw [hnext]; rfl
      _ = String.intercalate "." (before ++ (name :: names)) := by
        rw [ih (by simp), List.append_assoc]
        rfl

/-- The text of a chain is its names with dots between them. -/
theorem chainText_one (first : String) (names : List String) :
    chainText first names = String.intercalate "." (first :: names) := by
  have hone : String.intercalate "." [first] = first := String.intercalate_singleton
  have hchain := chainText_intercalate (List.cons_ne_nil first []) names
  rwa [hone] at hchain

/-- The accesses to a chain, and one through it. Before each comes the access to what it is
qualified with, if the qualifier that the chain starts with was accessed before. -/
theorem chainFields_follow (before : List MemberAccess) {qualifier : String} {names : List String}
    {a : MemberAccess} (hnames : ∀ name ∈ names, '.' ∉ name.toList) (hline : a.line = line)
    (hqualifier : a.qualifier = chainText qualifier names)
    (hbefore : ∀ chain last : String, '.' ∉ last.toList → qualifier = chain ++ "." ++ last →
      ∃ others, before = others ++ [⟨.field, last, chain, .name, line, none⟩]) :
    EachAfter (fun among a => FollowsChain (before ++ among) a)
      (accessesIn (chainFields line qualifier names) ++ [a]) := by
  -- each access, once recorded, is the one that the next has to come directly after
  induction names generalizing before qualifier with
  | nil =>
    refine .cons (fun _ chain last hlast h => ?_) .nil
    rw [List.append_nil, hline]
    exact hbefore chain last hlast (hqualifier.symm.trans h)
  | cons name names ih =>
    obtain ⟨hname, hnames⟩ := List.forall_mem_cons.1 hnames
    refine .cons (fun _ chain last hlast h => ?_) ?_
    · rw [List.append_nil]
      exact hbefore chain last hlast h
    · have hmore := ih (before ++ [⟨.field, name, qualifier, .name, line, none⟩]) hnames
        hqualifier fun chain last hlast h => by
          obtain ⟨rfl, rfl⟩ := append_dot_inj hname hlast h
          exact ⟨before, rfl⟩
      exact hmore.mono fun among b hb => by rwa [List.append_assoc] at hb

/-- The accesses to a chain go together. -/
theorem chainFields_shaped {qualifier : String} (hqualifier : qualifier ≠ "") (names : List String) :
    ∀ a ∈ accessesIn (chainFields line qualifier names), a.Shaped := by
  induction names generalizing qualifier with
  | nil => exact nofun
  | cons name names ih =>
    refine List.forall_mem_cons.2 ⟨⟨.inl ⟨rfl, rfl⟩, nofun, nofun, nofun, nofun, fun _ => hqualifier⟩,
      ih (append_dot_ne_empty qualifier name)⟩

/-- Accesses written as facts are read back. -/
theorem accessesIn_map_access (as : List MemberAccess) : accessesIn (as.map .access) = as := by
  induction as with
  | nil => rfl
  | cons a as ih => exact congrArg (a :: ·) ih

/-- Accesses declare nothing. -/
theorem declarationsIn_map_access (as : List MemberAccess) :
    declarationsIn (as.map .access) = [] := by
  induction as with
  | nil => rfl
  | cons a as ih => exact ih

/-- Facts of which all are accesses. -/
theorem Consistent.of_accesses {as : List MemberAccess} (hshaped : ∀ a ∈ as, a.Shaped)
    (hchained : EachAfter FollowsChain as) : Consistent owner (as.map .access) where
  owned := declarationsIn_map_access as ▸ .nil
  parameters := declarationsIn_map_access as ▸ .nil
  package_free := declarationsIn_map_access as ▸ nofun
  fits := declarationsIn_map_access as ▸ nofun
  field_value _ _ h := by simp at h
  shaped := (accessesIn_map_access as).symm ▸ hshaped
  chained := (accessesIn_map_access as).symm ▸ hchained

/-- All the facts of a chain are its accesses. -/
theorem map_accessesIn_chainFields (qualifier : String) (names : List String) :
    (accessesIn (chainFields line qualifier names)).map .access = chainFields line qualifier names := by
  induction names generalizing qualifier with
  | nil => rfl
  | cons name names ih => exact congrArg (_ :: ·) (ih _)

/-- A chain of names and an access through it. -/
theorem Consistent.chainAccess {first : String} {names : List String} {a : MemberAccess}
    (hfirst : first ≠ "" ∧ '.' ∉ first.toList) (hnames : ∀ name ∈ names, '.' ∉ name.toList)
    (hshaped : a.Shaped) (hline : a.line = line) (hqualifier : a.qualifier = chainText first names) :
    Consistent owner (chainFields line first names ++ [.access a]) := by
  have hfollow := chainFields_follow [] hnames hline hqualifier
    fun chain last _ h => absurd (by rw [h]; simp) hfirst.2
  have hall : Consistent owner _ := .of_accesses (List.forall_mem_append.2
    ⟨chainFields_shaped hfirst.1 names, List.forall_mem_singleton.2 hshaped⟩) hfollow
  rwa [List.map_append, map_accessesIn_chainFields] at hall

/-- A chain of names. -/
theorem Consistent.chain {first : String} {names : List String}
    (hfirst : first ≠ "" ∧ '.' ∉ first.toList) (hnames : ∀ name ∈ names, '.' ∉ name.toList) :
    Consistent owner (chainFields line first names) := by
  have hfollow := chainFields_follow (a := ⟨.field, "", chainText first names, .none, line, none⟩)
    [] hnames rfl rfl fun chain last _ h => absurd (by rw [h]; simp) hfirst.2
  have hall : Consistent owner ((accessesIn (chainFields line first names)).map .access) :=
    .of_accesses (chainFields_shaped hfirst.1 names) fun before a after h =>
      hfollow before a (after ++ [_]) (by rw [h, List.append_assoc]; rfl)
  rwa [map_accessesIn_chainFields] at hall

end Assay.Source
