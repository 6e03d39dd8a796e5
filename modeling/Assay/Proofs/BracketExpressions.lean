import Assay.Proofs.BracketHeader
import Assay.Source.Body

/-!
# Expressions along brackets

The parsers of expressions walk along brackets and leave what is due as it is, if the parsers of the
constructs inside do.
-/

namespace Assay.Source

open Assay.Source.Parser

variable {t u : Token} {ts rest : List Token} {due : List String} {nested : Construct → Parser Unit}

/-- The parsers of the constructs inside walk along brackets. -/
def Steady (nested : Construct → Parser Unit) : Prop := ∀ c due, Moves due due (nested c)

namespace Steady

/-- An argument list moves over balanced tokens. -/
theorem parenthesized (h : Steady nested) : Moves due due (Parser.parenthesized nested) :=
  (Moves.expectOpener "(" (by rfl) (by decide)).bind fun _ => (h _ _).bind fun _ =>
    .expectCloser ")" (by decide) (by decide)

/-- A block moves over balanced tokens. -/
theorem block (h : Steady nested) : Moves due due (Parser.block nested) :=
  (Moves.expectOpener "\x7b" (by rfl) (by decide)).bind fun _ =>
    (Moves.untilSees "\x7d" (h _ _)).bind fun _ =>
    .expectCloser "\x7d" (by decide) (by decide)

/-- Members and the brace behind them. -/
theorem membersClosed (h : Steady nested) : Moves ("\x7d" :: due) due (do
    untilSees "\x7d" (nested .member)
    expect "\x7d") :=
  (Moves.untilSees "\x7d" (h _ _)).bind fun _ => .expectCloser "\x7d" (by decide) (by decide)

/-- The body of an anonymous class moves over balanced tokens. -/
theorem anonymousBody (h : Steady nested) : Moves due due (Parser.anonymousBody nested) :=
  .within <| (Moves.expectOpener "\x7b" (by rfl) (by decide)).bind fun _ => h.membersClosed

/-- An expression statement moves over balanced tokens. -/
theorem expressionStatement (h : Steady nested) :
    Moves due due (Parser.expressionStatement nested) := (h _ _).bind fun _ =>
      .expect ";" (by decide)

/-- What follows the label of a case moves over balanced tokens. -/
theorem caseRest (h : Steady nested) : Moves due due (Parser.caseRest nested) :=
  .seesSkip (by decide) ((Moves.sees "\x7b").bind fun _ => .cond h.block <|
    (Moves.sees "throw").bind fun _ =>
    .cond (h _ _) h.expressionStatement) (.expect ":" (by decide))

/-- The block of a switch moves over balanced tokens. -/
theorem switchBlock (h : Steady nested) : Moves due due (Parser.switchBlock nested) := by
  refine (Moves.expectOpener "\x7b" (by rfl) (by decide)).bind fun _ =>
    .bind (.untilSees "\x7d" ?_) fun _ =>
    .expectCloser "\x7d" (by decide) (by decide)
  exact .seesSkip (by decide) ((h _ _).bind fun _ =>
    h.caseRest) (.seesSkip (by decide) h.caseRest (h _ _))

/-- An array initializer moves over balanced tokens. -/
theorem arrayInitializer (h : Steady nested) : Moves due due (Parser.arrayInitializer nested) := by
  refine (Moves.expectOpener "\x7b" (by rfl) (by decide)).bind fun _ =>
    .bind (.untilSees "\x7d" ?_) fun _ =>
    .expectCloser "\x7d" (by decide) (by decide)
  refine .choose (fun ts hts => .skipWord (by decide) hts) <| (Moves.sees "\x7b").bind fun _ =>
    .cond (h _ _) <| (h _ _).bind fun _ => .ahead fun ts => .ite (fun _ => Moves.failAhead _ _)
    fun _ => Moves.pure _ _

/-! ## Accesses -/

/-- A call moves over its balanced arguments. -/
theorem call (h : Steady nested) (name qualifier : String) (kind : QualifierKind) (line : Nat) :
    Moves due due (Parser.call nested name qualifier kind line) := by
  have harguments : Moves due due argumentsAhead := .still fun s ts r hr => by
    obtain ⟨a, ha, b, hb, rfl⟩ := bind_eq_ok.1 hr
    cases hb
    obtain ⟨-, -, -, -, -, -, rfl⟩ := groupAhead_eq_ok ha
    rfl
  exact harguments.bind fun _ => (Moves.record _).bind fun _ => h.parenthesized

/-- A selected member moves over balanced tokens. -/
theorem selected (h : Steady nested) (qualifier : String) (kind : QualifierKind) :
    Moves due due (Parser.selected nested qualifier kind) :=
  Moves.name.bind fun _ => (Moves.sees "(").bind fun _ => .cond (h.call _ _ _ _) (.record _)

/-- What follows `this` or `super` moves over balanced tokens. -/
theorem thisOrSuper (h : Steady nested) (hts : startsWith (·.spellsAny ["this", "super"]) ts) :
    MovesAt due due ts (Parser.thisOrSuper nested) := by
  obtain ⟨t, rest, rfl, ht⟩ := startsWith_eq_true hts
  refine (MovesAt.next (Token.isPlain_of_spellsAny ht (by decide))).bind fun _ => .ahead fun ts => ?_
  refine .ite (fun _ => h.parenthesized ts) fun _ => .ite (fun hdot => ?_) fun _ =>
    .ite (fun hdot => ?_) fun _ => Moves.pure _ _
  · exact (MovesAt.skipWord (by decide) (Bool.and_eq_true_iff.1 hdot).1).bind fun _ =>
      Moves.skipTypeArguments.bind fun _ => h.selected _ _
  · exact (MovesAt.skipWord (by decide) (Bool.and_eq_true_iff.1 hdot).1).bind fun _ =>
      h.selected _ _

end Steady

/-- The segments of a chain move over balanced tokens. -/
theorem Moves.chainSegments : Moves due due Parser.chainSegments := by
  refine .gather (.ahead fun ts => ?_)
  match ts with
  | [] => exact Moves.pure _ _
  | [_] => exact Moves.pure _ _
  | dot :: t :: rest =>
    refine .ite (fun hdot => .ite (fun hname => ?_) fun _ => .ite (fun hless => ?_) fun _ =>
      Moves.pure _ _) fun _ => Moves.pure _ _
    · refine .bind (Passes.movesAt fun _ => ?_) fun _ => .pure _
      exact .cons (Token.isPlain_of_spells hdot (by decide)) <|
        .cons (Token.isPlain_of_isName hname) (.refl rest)
    · cases harguments : typeArgumentsRest? 0 (t :: rest) with
      | none => exact Moves.pure _ _
      | some after =>
        cases after with
        | nil => exact Moves.pure _ _
        | cons segment after =>
          refine .ite (fun hname => .bind (Passes.movesAt fun hlexical => ?_) fun _ => .pure _)
            fun _ => Moves.pure _ _
          exact .cons (Token.isPlain_of_spells hdot (by decide)) <|
            (passes_typeArguments hlexical.tail hless harguments).trans <|
              .cons (Token.isPlain_of_isName hname) (.refl after)

namespace Steady

/-- A chain of names moves over balanced tokens. -/
theorem nameChain (h : Steady nested) : Moves due due (Parser.nameChain nested) := by
  refine Moves.name.bind fun first => Moves.chainSegments.bind fun more => .ahead fun ts => ?_
  refine .ite (fun hclass => Passes.movesAt fun _ =>
    passes_words (by decide) (by decide) hclass) fun _ =>
    .ite (fun _ => ?_) fun _ => ?_
  · refine .bind (Moves.recordAll _ ts) fun _ => ?_
    cases more.getLast? with
    | none => exact h.call _ _ _ _
    | some last => exact h.call _ _ _ _
  · refine .still_bind (fun s r hr => by cases hr; rfl) fun _ => .ite (fun hthis => ?_) fun _ =>
      Moves.pure _ _
    obtain ⟨hdot, hthis⟩ := Bool.and_eq_true_iff.1 hthis
    obtain ⟨dot, rest, rfl, hdot⟩ := begins_eq_true hdot
    refine .skip_bind (Token.isPlain_of_spells hdot (by decide)) (h.thisOrSuper ?_)
    obtain ⟨t, rest, rfl, ht⟩ := begins_eq_true hthis
    simp [ht]

/-- A selector moves over balanced tokens. -/
theorem selector (h : Steady nested) : Moves due due (Parser.selector nested) := by
  refine (Moves.expect "." (by decide)).bind fun _ => Moves.skipOptionalTypeArguments.bind fun _ =>
    .ahead fun ts => ?_
  refine .ite (fun _ => Moves.pure _ _) fun _ =>
    .ite (fun hclass => .skipWord (by decide) hclass) fun _ =>
    .ite (fun hword => h.thisOrSuper ?_) fun _ => h.selected _ _ ts
  rcases Bool.or_eq_true_iff.1 hword with hword | hword <;>
    obtain ⟨t, rest, rfl, ht⟩ := begins_eq_true hword <;> simp [ht]

end Steady

/-- The name of a creation moves over balanced tokens. -/
theorem Moves.createdName : Moves due due Parser.createdName := by
  have hname : Moves due due Parser.name := .name
  refine Moves.skipOptionalTypeArguments.bind fun _ => Moves.skipAnnotations.bind fun _ =>
    .ahead fun ts => .ite (fun h => .skipIf isPlain_of_isPrimitive h) fun _ => ?_
  refine hname.discard.bind (fun _ => Moves.skipOptionalTypeArguments.bind fun _ =>
    .repeatWhile (.ahead fun ts => .ite (fun h => ?_) fun _ => Moves.pure _ _)) ts
  exact .bind (Passes.movesAt fun _ => passes_wordName (by decide) h) fun _ =>
    Moves.skipOptionalTypeArguments.bind fun _ => .pure _

/-- A type test moves over balanced tokens. -/
theorem MovesAt.instanceTest (ht : t.spells "instanceof") :
    MovesAt due due (t :: ts) Parser.instanceTest := by
  have hmodifiers : Moves due due (Parser.modifiers localModifiers) := .modifiers _ (by decide)
  refine (MovesAt.skip (Token.isPlain_of_spells ht (by decide))).bind fun _ =>
    hmodifiers.discard.bind fun _ => Moves.type.bind fun _ => .ahead fun ts =>
    .ite (fun h => ?_) fun _ => Moves.pure _ _
  obtain ⟨u, rest, rfl, hu⟩ := startsWith_eq_true h
  exact (MovesAt.next (Token.isPlain_of_isName hu)).bind fun _ => .record _

/-! ## Parts of expressions -/

namespace Steady

/-- A creation moves over balanced tokens. -/
theorem creation (h : Steady nested) : Moves due due (Parser.creation nested) := by
  refine (Moves.expect "new" (by decide)).bind fun _ => Moves.createdName.bind fun _ =>
    (Moves.sees "(").bind fun _ => .cond ?_ ?_
  · exact h.parenthesized.bind fun _ => (Moves.sees "\x7b").bind fun _ =>
      .cond h.anonymousBody (.pure _)
  · refine .bind (.repeatWhile ?_) fun _ => (Moves.sees "\x7b").bind fun _ =>
      .cond (h _ _) (.pure _)
    exact .seesOpener (by rfl) (by decide) (.pure _) fun _ => (Moves.sees "]").bind fun _ =>
      .when (h _ _) fun _ =>
      (Moves.expectCloser "]" (by decide) (by decide)).bind fun _ => .pure _

/-- A round that begins at a parenthesis moves over balanced tokens. -/
theorem fromParenthesis (h : Steady nested) (ht : t.spells "(") :
    MovesAt due due (t :: ts) (Parser.fromParenthesis nested ts) := by
  intro hlexical
  have hopen := (hlexical.head.isSign (by decide) ht).opens rfl
  refine MovesAt.group hopen (fun inside rest hpass => .ite (fun _ => ?_) fun _ => ?_) hlexical
  · refine .still_bind (fun s r hr => ?_) fun _ => .bind (Passes.movesAt fun _ => hpass) fun _ =>
      .pure _
    have hrun := (forM_declareValue .parameter (lambdaParameters 0 [] inside) s _).symm.trans hr
    cases hrun
    rfl
  · cases hcast : castRest? ts with
    | none => exact (h.parenthesized _).bind fun _ => .pure _
    | some operand =>
      exact .bind (Passes.movesAt fun hlexical => passes_cast hlexical ht hcast) fun _ => .pure _

end Steady

/-- Behind the double colon of a method reference, one token is passed over. -/
theorem MovesAt.reference (ht : t.spells "::") :
    MovesAt due due (t :: ts) (do
      Parser.skip
      Parser.skipOptionalTypeArguments
      Parser.skip) := by
  intro _ s r hr
  rw [bind_of_ok (skip_cons s t ts), recording_nil] at hr
  obtain ⟨a, ha, b, hb, rfl⟩ := bind_eq_ok.1 hr
  -- whatever token is passed over becomes a span of the walk
  have hskip : ∃ u, a.rest = u :: b.rest := by
    cases hrest : a.rest with
    | nil =>
      rw [hrest] at hb
      cases hb
    | cons u rest =>
      rw [hrest] at hb
      cases hb
      exact ⟨u, rfl⟩
  obtain ⟨u, hu⟩ := hskip
  rw [Parser.skipOptionalTypeArguments, bind_of_ok (sees_apply "<" s ts), recording_nil] at ha
  cases hless : begins "<" ts with
  | false =>
    rw [hless] at ha
    cases ha
    exact ⟨[t, u], [[u]], by simpa using hu, .reference ht .done⟩
  | true =>
    rw [hless, if_pos rfl] at ha
    obtain ⟨l, us, span, v, rfl, hl, hus, hspan, hv⟩ := skipTypeArguments_eq_ok ha
    refine ⟨t :: l :: (span ++ [v, u]), [span, [u]], ?_, .referenceArguments ht hl hspan hv .done⟩
    simp [hus, hu]

/-- An operator or word that no part of an expression starts with is no bracket. -/
theorem isPlain_of_noPart (hclose : t.isCloser = false) (hparenthesis : ¬ t.spells "(")
    (hbracket : ¬ t.spells "[") (hbrace : ¬ t.spells "\x7b") : t.IsPlain := by
  refine ⟨?_, hclose⟩
  by_contra hopen
  have hoperator : t.isOperator := by
    by_contra hoperator
    simp [Token.closer?, hoperator] at hopen
  have hspells : ∀ word, t.text = word → t.spells word := by
    rintro _ rfl
    simp [Token.spells, hoperator]
  have hnone : ∀ word, word ≠ "(" → word ≠ "[" → word ≠ "\x7b" → bracketPairs.lookup word = none := by
    intro word h₁ h₂ h₃
    simp [bracketPairs, List.lookup_cons, beq_eq_false_iff_ne.2 h₁, beq_eq_false_iff_ne.2 h₂,
      beq_eq_false_iff_ne.2 h₃]
  rw [Token.closer?, if_pos hoperator] at hopen
  exact hopen (hnone _ (fun h => hparenthesis (hspells _ h)) (fun h => hbracket (hspells _ h))
    fun h => hbrace (hspells _ h))

namespace Steady

/-- A round of an expression moves over balanced tokens where it starts at no closer. -/
theorem expressionPart (h : Steady nested) (stop : List String) (afterArrow : Bool)
    (hclose : t.isCloser = false) :
    MovesAt due due (t :: ts) (Parser.expressionPart nested stop afterArrow t ts) := by
  unfold Parser.expressionPart
  refine .ite (fun ht => (h.fromParenthesis ht).bind fun _ => .pure _) fun hparenthesis =>
    .ite (fun ht => (MovesAt.skipSpelled (by decide) ht).bind fun _ => .pure _) fun _ => ?_
  refine .ite (fun ht => ?_) fun hbracket => .ite (fun ht => ?_) fun hbrace => .ite (fun ht => ?_)
    fun _ => .ite (fun ht => ?_) fun _ => .ite (fun ht => ?_) fun _ => .ite (fun ht => ?_) fun _ =>
    .ite (fun ht => ?_) fun _ => .ite (fun ht => ?_) fun _ => .ite (fun ht => ?_) fun _ => ?_
  · exact (MovesAt.skipOpener (by rfl) (by decide) (show begins "[" (t :: ts)
      from ht)).bind fun _ => (h _ _).bind fun _ =>
      (Moves.expectCloser "]" (by decide) (by decide)).bind fun _ => .pure _
  · exact .ite (fun _ => (h.block _).bind fun _ => .pure _) fun _ => (h _ _ _).bind fun _ => .pure _
  · have hreference : MovesAt due due (t :: ts) _ :=
      (MovesAt.reference ht).bind fun _ => Moves.pure false
    simpa only [bind_bind] using hreference
  · exact (h.selector _).bind fun _ => .pure _
  · exact (h.creation _).bind fun _ => .pure _
  · exact (MovesAt.skipSpelled (by decide) ht).bind fun _ => h.parenthesized.bind fun _ =>
      h.switchBlock.bind fun _ => .pure _
  · exact (h.thisOrSuper (by simpa using ht)).bind fun _ => .pure _
  · exact (MovesAt.instanceTest ht).bind fun _ => .pure _
  · exact .ite (fun _ => (Moves.name _).bind fun t => (Moves.declareValue _ t).bind fun _ => .pure _)
      fun _ => (h.nameChain _).bind fun _ => .pure _
  · exact (MovesAt.skip (isPlain_of_noPart hclose hparenthesis hbracket hbrace)).bind fun _ => .pure _

/-- An expression moves over balanced tokens. -/
theorem expression (h : Steady nested) (stop : List String) :
    Moves due due (Parser.expression nested stop) := by
  refine .iterate (fun afterArrow => .ahead fun ts => ?_) false
  cases ts with
  | nil => exact Moves.failAhead _ _
  | cons t ts =>
    refine .ite (fun _ => Moves.pure _ _) fun hstop => ?_
    rw [Bool.or_eq_true, not_or, Bool.not_eq_true] at hstop
    exact (h.expressionPart stop afterArrow hstop.1).bind fun _ => .pure _

end Steady

end Assay.Source
