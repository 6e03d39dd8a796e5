import Assay.Proofs.BracketLookahead

/-!
# Headers along brackets

The parsers of names, annotations, modifiers, types and parameter lists walk along brackets and leave
what is due as it is.
-/

namespace Assay.Source

open Assay.Source.Parser

variable {t u : Token} {ts : List Token} {due due' : List String} {word other : String}

/-- Two tokens of which each passes a test that no bracket does. -/
theorem passes_pair {test test' : Token → Bool} (htest : ∀ {t}, test t → t.IsPlain)
    (htest' : ∀ {t}, test' t → t.IsPlain) (h : startsWith test ts && startsWith test' ts.tail) :
    Passes ts (ts.drop 2) := by
  obtain ⟨ht, hu⟩ := Bool.and_eq_true_iff.1 h
  obtain ⟨t, rest, rfl, ht⟩ := startsWith_eq_true ht
  obtain ⟨u, rest, rfl, hu⟩ := startsWith_eq_true hu
  exact .cons (htest ht) (.cons (htest' hu) (.refl _))

/-- Two words that are no brackets. -/
theorem passes_words (hword : NoBracket word) (hother : NoBracket other)
    (h : begins word ts && begins other ts.tail) : Passes ts (ts.drop 2) :=
  passes_pair (fun ht => Token.isPlain_of_spells ht hword)
    (fun hu => Token.isPlain_of_spells hu hother) h

/-- A word that is no bracket, and a name. -/
theorem passes_wordName (hword : NoBracket word)
    (h : begins word ts && startsWith (·.isName) ts.tail) : Passes ts (ts.drop 2) :=
  passes_pair (fun ht => Token.isPlain_of_spells ht hword) Token.isPlain_of_isName h

theorem Moves.dottedName : Moves due due Parser.dottedName := by
  refine Moves.name.bind fun first => .bind (.gather (.ahead fun ts => ?_)) fun more => .pure _
  match ts with
  | [] => exact Moves.pure _ _
  | [_] => exact Moves.pure _ _
  | dot :: part :: rest =>
    refine .ite (fun h => .bind (Passes.movesAt fun _ => ?_) fun _ => .pure _) fun _ => Moves.pure _ _
    obtain ⟨hdot, hname⟩ := Bool.and_eq_true_iff.1 h
    exact .cons (Token.isPlain_of_spells hdot (by decide)) <|
      .cons (Token.isPlain_of_isName hname) (.refl _)

theorem MovesAt.skipParentheses (h : begins "(" ts) : MovesAt due due ts Parser.skipGroup := by
  intro hlexical
  obtain ⟨l, rest, rfl, hl⟩ := begins_eq_true h
  exact MovesAt.skipGroup ((hlexical.head.isSign (by decide) hl).opens rfl) hlexical

theorem isPlain_of_beginsAnnotations (h : beginsAnnotations (t :: ts)) : t.IsPlain :=
  Token.isPlain_of_spells (Bool.and_eq_true_iff.1 h).1 (by decide)

theorem Moves.skipAnnotations : Moves due due Parser.skipAnnotations := by
  refine .repeatWhile (.ahead fun ts => .ite (fun h => ?_) fun _ => Moves.pure _ _)
  cases ts with
  | nil => cases h
  | cons t ts =>
    have hname : Moves due due Parser.dottedName := .dottedName
    refine .skip_bind (isPlain_of_beginsAnnotations h) (hname.discard.bind (fun _ => ?_) ts)
    exact .choose (fun ts hts => (MovesAt.skipParentheses hts).bind fun _ => .pure _) (.pure _)

theorem Moves.modifiers (allowed : List String)
    (hallowed : ∀ word ∈ allowed, NoBracket word) :
    Moves due due (Parser.modifiers allowed) := by
  refine .bind (.gather (.ahead fun ts => ?_)) fun found => .pure _
  cases ts with
  | nil => exact Moves.pure _ _
  | cons t ts =>
    refine .ite (fun h => ?_) fun _ => .ite (fun h => ?_) fun _ => .ite (fun h => ?_) fun _ =>
      Moves.pure _ _
    · exact .bind (.skip (Token.isPlain_of_spellsAny h hallowed)) fun _ => .pure _
    · refine .bind (Passes.movesAt fun _ => ?_) fun _ => .pure _
      rw [Bool.and_assoc, Bool.and_eq_true] at h
      exact .cons (Token.isPlain_of_spells h.1 (by decide)) (passes_words (by decide) (by decide)
        h.2)
    · exact .bind (Moves.skipAnnotations _) fun _ => .pure _

theorem Moves.dimensions : Moves due due Parser.dimensions :=
  .ahead fun _ => Passes.movesAt passes_dimensions

theorem Moves.type : Moves due due Parser.type := by
  unfold Parser.type
  have hname : Moves due due Parser.name := .name
  refine Moves.skipAnnotations.bind fun _ => .ahead fun ts => .ite (fun h => ?_) fun _ => ?_
  · exact .bind (.skipIf isPlain_of_isPrimitive h) fun _ => .dimensions
  · refine hname.discard.bind (fun _ => Moves.skipOptionalTypeArguments.bind fun _ =>
      .bind (.repeatWhile (.ahead fun ts => .ite (fun h => ?_) fun _ => Moves.pure _ _))
      fun _ => .dimensions) ts
    refine .bind (.skipWord (by decide) (Bool.and_eq_true_iff.1 h).1) fun _ =>
      Moves.skipAnnotations.bind fun _ =>
      hname.discard.bind fun _ => Moves.skipOptionalTypeArguments.bind fun _ => .pure _

theorem Moves.throwsClause : Moves due due Parser.throwsClause :=
  .seesSkip (by decide) (Moves.type.bind fun _ => .afterCommas .type) (.pure _)

/-- A parameter list is what comes before its closing parenthesis, and the parenthesis. -/
theorem parameters_eq : ∃ p : Parser (Nat × Bool), (∀ due, Moves due (")" :: due) p) ∧
    Parser.parameters = do
      let counts ← p
      expect ")"
      return counts := by
  refine ⟨_, fun due => ?_, (bind_bind (expect "(") _ _).symm⟩
  have hmodifiers : Moves (")" :: due) (")" :: due) (Parser.modifiers localModifiers)
    := .modifiers _ (by decide)
  refine (Moves.expectOpener "(" (by rfl) (by decide)).bind fun _ => .iterate (fun counts => ?_) _
  refine (Moves.sees ")").bind fun _ => .cond (.pure _) ?_
  refine hmodifiers.discard.bind fun _ => Moves.type.bind fun _ =>
    .seesWhen (by decide) fun ellipsis _ => ?_
  refine .seesJoin (by decide) (fun receiver _ => ?_) fun hrest receiver => Moves.name.bind fun t =>
    (Moves.declareValue _ t).bind fun a => hrest receiver a
  refine Moves.dimensions.bind fun _ => .seesJoin (by decide) (fun _ _ => .pure _) fun hrest seen =>
    (Moves.sees ")").bind fun _ => .when (.failAhead _) (hrest seen)

theorem Moves.parameters : Moves due due Parser.parameters := by
  obtain ⟨p, hp, hparameters⟩ := parameters_eq
  rw [hparameters]
  exact (hp due).bind fun _ => (Moves.expectCloser ")" (by decide) (by decide)).bind fun _ =>
    .pure _

/-- A parameter list ends with its closing parenthesis. -/
theorem parameters_eq_ok {s : Scope} {r : Parsed (Nat × Bool)} (hlexical : Lexical ts)
    (h : Parser.parameters s ts = .ok r) (due : List String) :
    ∃ params close passed, ts = params ++ close :: r.rest ∧ close.IsSign ")" ∧
      Walk due (params ++ [close]) passed due := by
  obtain ⟨p, hp, hparameters⟩ := parameters_eq
  rw [hparameters] at h
  obtain ⟨a, ha, b, hb, rfl⟩ := bind_eq_ok.1 h
  obtain ⟨c, hc, d, hd, rfl⟩ := bind_eq_ok.1 hb
  cases hd
  obtain ⟨read, spans, rfl, hwalk⟩ := hp due ts hlexical s a ha
  obtain ⟨close, hrest, hclose⟩ := expect_eq_ok hc
  rw [hrest] at hlexical
  have hsign := hlexical.of_append.head.isSign (by decide) hclose
  exact ⟨read, close, spans ++ [], by rw [hrest], hsign,
    hwalk.append (.closer (hsign.closes (by decide)) .done)⟩

end Assay.Source
