import Assay.Proofs.BracketExpressions
import Assay.Proofs.TypeDeclaration

/-!
# Statements and members along brackets

The parsers of statements, members and declarations of types walk along brackets, if the parsers of
the constructs inside do; so those of all constructs do, by induction on the depth.
-/

namespace Assay.Source

open Assay.Source.Parser

variable {t u : Token} {ts rest : List Token} {due due' : List String}
  {nested : Construct → Parser Unit} {line : Nat} {kind : DeclarationKind} {length : Nat}

/-! ## Headers -/

/-- The header up to the opening brace, which stays unread. -/
theorem untilBrace_eq_ok {s : Scope} {r : Parsed Unit} (h : untilSees "\x7b" skip s ts = .ok r) :
    ∃ span, ts = span ++ r.rest ∧ (∀ v ∈ span, v.spells "\x7b" = false) ∧ begins "\x7b" r.rest := by
  induction hn : ts.length using Nat.strongRecOn generalizing ts r with
  | ind n ih =>
    subst hn
    rcases untilSees_eq_ok h with ⟨hbrace, rfl⟩ | ⟨hbrace, facts, mid, more, hskip, hlt, hmore, rfl⟩
    · exact ⟨[], rfl, nofun, hbrace⟩
    · cases ts with
      | nil => cases hskip
      | cons t ts =>
        rw [skip_cons] at hskip
        cases hskip
        obtain ⟨span, hspan, hfree, hnext⟩ := ih _ hlt hmore rfl
        refine ⟨t :: span, ?_, List.forall_mem_cons.2 ⟨hbrace, hfree⟩, hnext⟩
        rw [hspan, List.cons_append]

/-- The tokens of a header up to an opening brace, and a walk behind the brace. -/
def HeaderWalk (due : List String) (ts rest : List Token) : Prop :=
  ∃ span l read spans, ts = span ++ l :: (read ++ rest) ∧ (∀ v ∈ span, v.spells "\x7b" = false) ∧
    l.IsSign "\x7b" ∧ Walk ("\x7d" :: due) read spans due

/-- A header with what is read behind its opening brace. -/
theorem headerWalk_of_ok {s : Scope} {body : Parser Unit} {r : Parsed Unit}
    (hbody : Moves ("\x7d" :: due) due body) (hlexical : Lexical ts)
    (h : (do
      untilSees "\x7b" skip
      expect "\x7b"
      body : Parser Unit) s ts = .ok r) : HeaderWalk due ts r.rest := by
  obtain ⟨a, ha, b, hb, rfl⟩ := bind_eq_ok.1 h
  obtain ⟨c, hc, d, hd, rfl⟩ := bind_eq_ok.1 hb
  obtain ⟨span, rfl, hfree, -⟩ := untilBrace_eq_ok ha
  obtain ⟨l, hrest, hl⟩ := expect_eq_ok hc
  rw [hrest] at hlexical
  obtain ⟨read, spans, hread, hwalk⟩ := hbody c.rest hlexical.of_append.tail s d hd
  have hsign := hlexical.of_append.head.isSign (by decide) hl
  exact ⟨span, l, read, spans, by rw [hrest, hread], hfree, hsign, hwalk⟩

/-! ## Declarations of types -/

/-- The word that declares a type: a record, or a type without parameters, which may be an annotation
type with a sign before the word. -/
theorem typeKeyword?_eq_some (h : typeKeyword? ts = some (kind, length)) :
    (kind = .recordType ∧ ∃ t, ts = t :: ts.drop length ∧ t.spells "record") ∨
      (kind ≠ .recordType ∧ ∃ before t, ts = before ++ t :: ts.drop length ∧
        (∀ u ∈ before, u.IsPlain) ∧ t.spellsAny ["class", "interface", "enum"]) := by
  cases TypeKeyword.of_eq_some h with
  | recordType ht => exact .inl ⟨rfl, _, rfl, ht⟩
  | classType ht | interfaceType ht | enumType ht =>
    exact .inr ⟨by decide, [], _, rfl, List.forall_mem_nil _, by simp [ht]⟩
  | @annotationType sign t ts hsign ht =>
    have hplain : sign.IsPlain := Token.isPlain_of_spells hsign (by decide)
    exact .inr ⟨by decide, [sign], t, rfl, by simpa using hplain, by simp [ht]⟩

/-- Plain tokens may stand before a walk. -/
theorem Walk.before {before : List Token} {spans : List (List Token)}
    (hbefore : ∀ u ∈ before, u.IsPlain) (h : Walk due ts spans due') :
    Walk due (before ++ ts) spans due' := by
  induction before with
  | nil => exact h
  | cons u before ih =>
    obtain ⟨hu, hbefore⟩ := List.forall_mem_cons.1 hbefore
    exact .plain hu (ih hbefore)

namespace Steady

/-- Reads one enum constant, or the comma after one. -/
theorem enumConstant (h : Steady nested) : Moves due due (Parser.enumConstant nested) := by
  refine Moves.skipAnnotations.bind fun _ => .choose (fun ts hts => .skipWord (by decide) hts) ?_
  exact Moves.name.bind fun _ => (Moves.record _).bind fun _ => (Moves.sees "(").bind fun _ =>
    .when h.parenthesized fun _ => (Moves.sees "\x7b").bind fun _ => .cond h.anonymousBody (.pure _)

/-- What is read behind the opening brace of a type. -/
theorem typeBody (h : Steady nested) (kind : DeclarationKind) :
    ∃ body : Parser Unit, (∀ due, Moves ("\x7d" :: due) due body) ∧
      (if kind == .enumType then enumBody nested else classBody nested) =
        (expect "\x7b" >>= fun _ => body) := by
  by_cases hkind : kind == .enumType
  · rw [if_pos hkind]
    refine ⟨_, fun due => ?_, rfl⟩
    refine .bind (.repeatWhile ?_) fun _ => .seesWhen (by decide) fun _ _ => h.membersClosed
    exact (Moves.sees ";").bind fun _ => (Moves.sees "\x7d").bind fun _ => .cond (.pure _) <|
      h.enumConstant.bind fun _ => .pure _
  · rw [if_neg hkind]
    exact ⟨_, fun due => h.membersClosed, rfl⟩

/-- The header of a type: for a record parameters, and the tokens up to the brace. -/
theorem typeRest_eq_ok (h : Steady nested) {s : Scope} {r : Parsed Unit} (hlexical : Lexical ts)
    (hr : typeRest nested kind s ts = .ok r) (due : List String) :
    if kind = .recordType then
      ∃ params close passed header, ts = params ++ close :: header ∧ close.IsSign ")" ∧
        Walk due (params ++ [close]) passed due ∧ HeaderWalk due header r.rest
    else HeaderWalk due ts r.rest := by
  obtain ⟨body, hbody, hbraces⟩ := h.typeBody kind
  unfold typeRest at hr
  rw [hbraces] at hr
  -- only a record has a parameter list, which is walked along before the header
  by_cases hkind : kind = .recordType
  · rw [if_pos hkind]
    rw [if_pos (by simp [hkind])] at hr
    obtain ⟨a, ha, b, hb, rfl⟩ := bind_eq_ok.1 hr
    obtain ⟨c, hc, d, hd, rfl⟩ := bind_eq_ok.1 hb
    obtain ⟨read, spans, hread, hwalk⟩ := Moves.skipOptionalTypeArguments ts hlexical s a ha
    rw [hread] at hlexical
    obtain ⟨p, hparameters, rfl⟩ := discard_eq_ok hc
    obtain ⟨params, close, passed, hrest, hclose, hwalk'⟩ :=
      parameters_eq_ok hlexical.of_append hparameters due
    have hlexical' : Lexical p.rest := (hrest ▸ hlexical.of_append).of_append.tail
    refine ⟨read ++ params, close, spans ++ passed, p.rest, ?_, hclose, ?_, ?_⟩
    · rw [hread, hrest, List.append_assoc]
    · rw [List.append_assoc]
      exact hwalk.append hwalk'
    · exact (headerWalk_of_ok (hbody due) hlexical' hd : HeaderWalk due p.rest d.rest)
  · rw [if_neg hkind]
    rw [if_neg (by simp [hkind])] at hr
    exact headerWalk_of_ok (hbody due) hlexical hr

/-- The declaration of a type. -/
theorem typeFrom (h : Steady nested) (hkeyword : typeKeyword? ts = some (kind, length)) :
    MovesAt due due ts (Source.typeFrom nested line ts kind length) := by
  intro hlexical s r hr
  -- the keyword, the name and the scope are taken first, and none of them is a bracket
  obtain ⟨a, ha, b, hb, hr⟩ := bind_eq_ok.1 hr
  cases ha
  obtain ⟨declared, hdeclared, c, hc, hb⟩ := bind_eq_ok.1 hb
  obtain ⟨d, hd, e, he, hc⟩ := bind_eq_ok.1 hc
  have hname : ts.drop length = declared.value :: declared.rest := (name_eq_ok hdeclared).1
  have hdrest : d.rest = declared.rest := by
    cases hd
    rfl
  have hrest : r.rest = e.rest := by rw [hr, hb, hc]
  have hlexical' : Lexical declared.rest := by
    have hdrop : Lexical (ts.drop length) := fun u hu => hlexical u (List.mem_of_mem_drop hu)
    rw [hname] at hdrop
    exact hdrop.tail
  rw [within_apply, hdrest] at he
  have hwalk := h.typeRest_eq_ok hlexical' he due
  rw [hrest]
  -- a record has a parameter list in its header, any other type has not
  rcases typeKeyword?_eq_some hkeyword with ⟨hkind, t, hts, ht⟩ | ⟨hkind, before, t, hts, hbefore, ht⟩
  · rw [if_pos hkind] at hwalk
    obtain ⟨params, close, passed, header, hafter, hclose, hparams, span, l, read, spans, hheader,
      hspan, hl, hbody⟩ := hwalk
    refine ⟨t :: declared.value :: (params ++ close :: (span ++ l :: read)),
      passed ++ span :: spans, ?_, ?_⟩
    · rw [hts, hname, hafter, hheader]
      simp
    · exact .recordHeader ht (name_eq_ok hdeclared).2 hparams hclose hspan hl hbody
  · rw [if_neg hkind] at hwalk
    obtain ⟨span, l, read, spans, hheader, hspan, hl, hbody⟩ := hwalk
    refine ⟨before ++ t :: declared.value :: (span ++ l :: read), span :: spans, ?_, ?_⟩
    · rw [hts, hname, hheader]
      simp
    · exact .before hbefore (.typeHeader ht (name_eq_ok hdeclared).2 hspan hl hbody)

/-- A type declaration moves over balanced tokens, its header apart. -/
theorem typeDeclaration (h : Steady nested) (line : Nat) :
    Moves due due (Parser.typeDeclaration nested line) := by
  rw [typeDeclaration_eq]
  refine .ahead fun ts => ?_
  cases hkeyword : typeKeyword? ts with
  | none => exact Moves.pure _ _
  | some found =>
    obtain ⟨kind, length⟩ := found
    exact (h.typeFrom hkeyword).bind fun _ => .pure _

/-! ## Variables and loops -/

/-- An initializer moves over balanced tokens. -/
theorem initializer (h : Steady nested) : Moves due due (Parser.initializer nested) :=
  Moves.dimensions.bind fun _ => .seesSkip (by decide) ((Moves.sees "\x7b").bind fun _ =>
    .cond (h _ _) (h _ _))
    (.pure _)

/-- A local variable moves over balanced tokens. -/
theorem localVariable (h : Steady nested) : Moves due due (Parser.localVariable nested) :=
  Moves.name.bind fun t => (Moves.declareValue _ t).bind fun _ => h.initializer

/-- A local declaration moves over balanced tokens. -/
theorem localDeclaration (h : Steady nested) : Moves due due (Parser.localDeclaration nested) :=
  Moves.type.bind fun _ => h.localVariable.bind fun _ => .afterCommas h.localVariable

/-- The start of a `for` header moves over balanced tokens. -/
theorem forInitializer (h : Steady nested) : Moves due due (Parser.forInitializer nested) :=
  (Moves.modifiers _ (by decide)).bind fun _ => .ahead fun _ => .ite (fun _ => h.localDeclaration _)
    fun _ => h _ _ _

/-- A `for` statement moves over balanced tokens. -/
theorem forStatement (h : Steady nested) (line : Nat) :
    Moves due due (Parser.forStatement nested line) := by
  have hbody : ∀ kind, Moves (")" :: due) due
      (do expect ")"; record (.loop ⟨kind, line⟩); nested .statement) := fun kind =>
    (Moves.expectCloser ")" (by decide) (by decide)).bind fun _ => (Moves.record _).bind fun _ =>
      h _ _
  have hmodifiers : Moves (")" :: due) (")" :: due) (modifiers localModifiers)
    := .modifiers _ (by decide)
  refine (Moves.expect "for" (by decide)).bind fun _ =>
    (Moves.expectOpener "(" (by rfl) (by decide)).bind fun _ =>
    .ahead fun ts => .ite (fun _ => ?_) fun _ => ?_
  · exact hmodifiers.discard.bind (fun _ => Moves.type.bind fun _ => Moves.name.bind fun t =>
      (Moves.declareValue _ t).bind fun _ => (Moves.expect ":" (by decide)).bind fun _ =>
        (h _ _).bind fun _ =>
      (Moves.pure _).bind hbody) ts
  · exact (Moves.sees ";").bind (fun _ => .when h.forInitializer fun _ =>
      (Moves.expect ";" (by decide)).bind
      fun _ => (Moves.sees ";").bind fun _ => .when (h _ _) fun _ =>
        (Moves.expect ";" (by decide)).bind fun _ =>
      (Moves.sees ")").bind fun _ => .when (h _ _) fun _ => (Moves.pure _).bind hbody) ts

/-- A resource moves over balanced tokens. -/
theorem resource (h : Steady nested) : Moves due due (Parser.resource nested) := by
  have hrest : Moves due due (do
      nested (.expression [";", ")"])
      if !(startsWith (·.spellsAny [";", ")"]) (← ahead)) then
        failAhead (.expectedEither ";" ")")) :=
    (h _ _).bind fun _ => .ahead fun ts => .ite (fun _ => Moves.failAhead _ _) fun _ => Moves.pure _ _
  refine .choose (fun ts hts => .skipWord (by decide) hts) <|
    (Moves.modifiers _ (by decide)).bind fun _ => .ahead fun ts =>
    .ite (fun _ => ?_) fun _ => hrest ts
  exact Moves.type.bind (fun _ => Moves.name.bind fun t => (Moves.declareValue _ t).bind fun _ =>
    (Moves.expect "=" (by decide)).bind fun _ => hrest) ts

/-- A `catch` clause moves over balanced tokens. -/
theorem catchRest (h : Steady nested) (line : Nat) :
    Moves due due (Parser.catchRest nested line) := by
  have hmodifiers : Moves (")" :: due) (")" :: due) (modifiers localModifiers)
    := .modifiers _ (by decide)
  refine (Moves.expectOpener "(" (by rfl) (by decide)).bind fun _ =>
    hmodifiers.discard.bind fun _ => Moves.type.bind
    fun _ => .bind (.repeatWhile ?_) fun _ => Moves.name.bind fun t =>
    (Moves.declareValue _ t).bind fun _ =>
      (Moves.expectCloser ")" (by decide) (by decide)).bind fun _ =>
    (Moves.record _).bind fun _ => h.block
  exact .seesSkip (by decide) (Moves.type.bind fun _ => .pure _) (.pure _)

/-- A `try` statement moves over balanced tokens. -/
theorem tryStatement (h : Steady nested) : Moves due due (Parser.tryStatement nested) := by
  refine (Moves.expect "try" (by decide)).bind fun _ =>
    .seesOpener (by rfl) (by decide) ?_ fun hrest => ?_
  · refine h.block.bind fun _ => .bind (.repeatWhile ?_) fun _ =>
      .seesSkip (by decide) h.block (.pure _)
    refine .choose (fun ts hts => .still_bind (fun s r hr => by cases hr; rfl) fun line => ?_) (.pure _)
    exact (MovesAt.skipWord (by decide) hts).bind fun _ => (h.catchRest line).bind fun _ => .pure _
  · exact (Moves.untilSees ")" h.resource).bind fun _ =>
      (Moves.expectCloser ")" (by decide) (by decide)).bind fun _ => hrest

/-! ## Statements -/

/-- A statement told by its first token moves over balanced tokens. -/
theorem unnamedStatement (h : Steady nested) (line : Nat) (ts : List Token) :
    MovesAt due due ts (Parser.unnamedStatement nested ts line) := by
  have hmodifiers : Moves due due (modifiers localModifiers) := .modifiers _ (by decide)
  have hdeclaration : Moves due due (do Parser.localDeclaration nested; expect ";") :=
    h.localDeclaration.bind fun _ => .expect ";" (by decide)
  refine .ite (fun hlabel => ?_) fun _ => .ite (fun _ => ?_) fun _ => ?_
  · refine .bind (Passes.movesAt fun _ => ?_) fun _ => h _ _
    exact passes_pair Token.isPlain_of_isName (fun ht => Token.isPlain_of_spells ht (by decide)) hlabel
  · exact hmodifiers.discard.bind (fun _ => (h.typeDeclaration _).bind fun _ =>
      .cond hdeclaration (.pure _)) ts
  · exact (h.typeDeclaration _).bind (fun _ => .cond (.cond hdeclaration h.expressionStatement)
      (.pure _)) ts

/-- A statement moves over balanced tokens. -/
theorem statement (h : Steady nested) : Moves due due (Parser.statement nested) := by
  refine .ahead fun ts => ?_
  cases ts with
  | nil => exact Moves.failAhead _ _
  | cons t ts =>
    -- no word of a statement is a bracket; what stands in brackets is balanced by itself
    refine .ite (fun _ => h.block _) fun _ => .ite (fun ht => .skipSpelled (by decide) ht) fun _ =>
      .ite (fun ht => ?_) fun _ => .ite (fun _ => h.forStatement _ _) fun _ => .ite (fun ht => ?_)
      fun _ => .ite (fun ht => ?_) fun _ => .ite (fun _ => h.tryStatement _) fun _ =>
      .ite (fun ht => ?_) fun _ => .ite (fun ht => ?_) fun _ => .ite (fun ht => ?_) fun _ =>
      .ite (fun ht => ?_) fun _ => h.unnamedStatement _ _
    · exact (MovesAt.skipSpelled (by decide) ht).bind fun _ => h.parenthesized.bind fun _ =>
        (h _ _).bind fun _ =>
        .seesSkip (by decide) (h _ _) (.pure _)
    · exact (MovesAt.skipSpelled (by decide) ht).bind fun _ => h.parenthesized.bind fun _ =>
        (Moves.record _).bind fun _ => h _ _
    · exact (MovesAt.skipSpelled (by decide) ht).bind fun _ => (Moves.record _).bind fun _ =>
        (h _ _).bind fun _ =>
        (Moves.expect "while" (by decide)).bind fun _ => h.parenthesized.bind fun _ =>
          .expect ";" (by decide)
    · exact (MovesAt.skipSpelled (by decide) ht).bind fun _ => h.parenthesized.bind fun _ =>
        h.switchBlock
    · exact (MovesAt.skipSpelled (by decide) (Bool.and_eq_true_iff.1 ht).1).bind fun _ =>
        h.parenthesized.bind fun _ => h.block
    · exact (MovesAt.skip (Token.isPlain_of_spellsAny ht (by decide))).bind fun _ =>
        h.expressionStatement
    · refine (MovesAt.skip (Token.isPlain_of_spellsAny ht (by decide))).bind fun _ => .ahead fun ts =>
        .ite (fun hname => ?_) fun _ => Moves.expect ";" (by decide) ts
      exact (MovesAt.skipIf Token.isPlain_of_isName hname).bind fun _ => .expect ";" (by decide)

/-! ## Members -/

/-- The rest of a field moves over balanced tokens. -/
theorem fieldRest (h : Steady nested) (isStatic : Bool) (t : Token) :
    Moves due due (Parser.fieldRest nested isStatic t) :=
  (Moves.record _).bind fun _ => (Moves.record _).bind fun _ => h.initializer

/-- An element value of an annotation moves over balanced tokens. -/
theorem elementValue (h : Steady nested) : Moves due due (Parser.elementValue nested) :=
  (Moves.sees "\x7b").bind fun _ => .cond (h _ _) <| (Moves.sees "@").bind fun _ =>
    .cond .skipAnnotations (h _ _)

/-- The rest of a method moves over balanced tokens. -/
theorem methodRest (h : Steady nested) (t : Token) (isStatic : Bool) (line : Nat) :
    Moves due due (Parser.methodRest nested t isStatic line) := by
  refine Moves.parameters.bind fun _ => Moves.dimensions.bind fun _ => Moves.throwsClause.bind
    fun _ => Moves.scope.bind fun _ => .cond ?_ ?_
  · exact .seesSkip (by decide) (h.elementValue.bind fun _ =>
      .expect ";" (by decide)) (.expect ";" (by decide))
  · exact Moves.declareCallable.bind fun _ =>
      .choose (fun ts hts => .skipWord (by decide) hts) h.block

/-- A constructor moves over balanced tokens. -/
theorem constructor (h : Steady nested) (line : Nat) :
    Moves due due (Parser.constructor nested line) :=
  Moves.name.bind fun _ => Moves.parameters.bind fun _ => Moves.declareCallable.bind fun _ =>
    Moves.throwsClause.bind fun _ => h.block

/-- A field or a method moves over balanced tokens. -/
theorem fieldOrMethod (h : Steady nested) (isStatic : Bool) (line : Nat) :
    Moves due due (Parser.fieldOrMethod nested isStatic line) := by
  refine Moves.type.bind fun _ => Moves.name.bind fun t => (Moves.sees "(").bind fun _ =>
    .cond (h.methodRest _ _ _) <| Moves.scope.bind fun _ => Moves.declareCallable.bind fun _ =>
    (h.fieldRest _ _).bind fun _ => .bind (.afterCommas ?_) fun _ => .expect ";" (by decide)
  exact Moves.name.bind fun t => h.fieldRest _ t

/-- The rest of a member moves over balanced tokens. -/
theorem memberRest (h : Steady nested) (isStatic : Bool) (line : Nat) :
    Moves due due (Parser.memberRest nested isStatic line) := by
  refine Moves.skipOptionalTypeArguments.bind fun _ => Moves.scope.bind fun s => .ahead fun ts =>
    .ite (fun _ => h.constructor _ _) fun _ => .ite (fun hname => ?_) fun _ => h.fieldOrMethod _ _ _
  have hown := (Bool.and_eq_true_iff.1 (Bool.and_eq_true_iff.1 hname).1).1
  refine (MovesAt.skipIf (fun ht => ?_) hown).bind fun _ => h.block
  exact Token.isPlain_of_isName (Bool.and_eq_true_iff.1 ht).1

/-- A member moves over balanced tokens. -/
theorem member (h : Steady nested) : Moves due due (Parser.member nested) := by
  refine .ahead fun ts => .ite (fun hts => .skipWord (by decide) hts) fun _ =>
    .ite (fun _ => h.block _) fun _ =>
    .ite (fun hts => (MovesAt.skipWord (by decide) (Bool.and_eq_true_iff.1 hts).1).bind fun _ =>
      h.block)
    fun _ => Moves.line.bind (fun line => (Moves.modifiers _ (by decide)).bind fun _ =>
      (h.typeDeclaration _).bind fun _ => .cond (h.memberRest _ _) (.pure _)) ts

/-! ## Constructs -/

/-- One level of nesting is steady where the next one is. -/
theorem constructStep (h : Steady nested) : Steady (Parser.constructStep nested) := by
  intro c due
  cases c with
  | member => exact h.member
  | statement => exact h.statement
  | expression stop => exact h.expression stop
  | arrayInitializer => exact h.arrayInitializer

end Steady

/-- All constructs are read along brackets, however deep they are nested. -/
theorem steady_construct (depth : Nat) : Steady (construct depth) := by
  induction depth with
  | zero => exact fun c due => Moves.line.bind fun _ => .failOn _ _
  | succ depth ih => exact ih.constructStep

end Assay.Source
