import Assay.Proofs.SimulationGroups

/-!
# Headers alike

The parsers of names, annotations, modifiers, types and parameter lists run alike on tokens that are
read alike.
-/

namespace Assay.Source.Simulation

open Assay.Source.Parser

variable {σ : Simulation} {R : Prop} {ts us : List Token}

/-- Lists that are read alike start with tokens that are read alike. -/
theorem alike_of_tokens {t u : Token} (h : σ.tokens (t :: ts) (u :: us)) : t.Alike σ.line u := by
  rcases σ.head_alike h with ⟨hts, -⟩ | ⟨_, _, _, _, hts, hus, halike⟩
  · cases hts
  · cases hts
    cases hus
    exact halike

/-- A token that ends something is read like one that ends the same. -/
theorem isLast_of_alike {t u : Token} (h : t.Alike σ.line u) (hlast : t.IsLast) : u.IsLast := by
  have hliteral : t.isLiteral = false := by
    rcases hlast with hsign | hsign <;> exact hsign.isLiteral
  rcases h.1 with ⟨hkind, htext⟩ | ⟨ht, -⟩
  · rwa [Token.IsLast, Token.IsSign, Token.IsSign, ← hkind, ← htext]
  · simp [hliteral] at ht

/-- A choice by the first two tokens, where the first one does not end anything. -/
theorem SimAt.pair {α : Type} {last : Bool} {V : α → α → Prop} {p q : Parser α}
    {f g : Token → Token → List Token → Parser α} :
    (∀ t u rest, t.IsLast → f t u rest = p) → (∀ t u rest, t.IsLast → g t u rest = q) →
    σ.Sim R last V p q →
    (∀ t u ts t' u' us, σ.SimAt (R ∧ σ.tokens (t :: u :: ts) (t' :: u' :: us)) last V
      (t :: u :: ts) (t' :: u' :: us) (f t u ts) (g t' u' us)) →
    (R → σ.tokens ts us) →
    σ.SimAt R last V ts us (match ts with | t :: u :: rest => f t u rest | _ => p)
      (match us with | t :: u :: rest => g t u rest | _ => q) := by
  intro hf hg hnone hpair hts
  have hnone' : R → ∀ s s', σ.Scopes s s' → σ.Outcome last V (p s ts) (q s' us) :=
    fun hR => (hnone ts us).alike ⟨hR, hts hR⟩
  refine ⟨fun s => ?_, fun hR s s' hs => ?_⟩
  -- for one text: the choice is that of its own two tokens
  · match ts with
    | t :: u :: ts => exact (hpair t u ts t u ts).forward s
    | [] => exact (hnone [] []).forward s
    | [t] => exact (hnone [t] [t]).forward s
  -- for two texts: they end together, or the first token is the last on both sides
  · rcases σ.uncons (hts hR) with ⟨rfl, rfl, -⟩ | ⟨t, ts, t', us, rfl, rfl, halike, htail⟩
    · exact hnone' hR s s' hs
    · rcases htail with htail | ⟨hlast, -⟩
      · rcases σ.head_alike htail with ⟨rfl, rfl⟩ | ⟨u, ts', u', us', rfl, rfl, -⟩
        · exact hnone' hR s s' hs
        · exact (hpair t u ts' t' u' us').alike ⟨hR, hts hR⟩ s s' hs
      · have hp : (match t :: ts with | t :: u :: rest => f t u rest | _ => p) = p := by
          cases ts with
          | nil => rfl
          | cons u ts => exact hf t u ts hlast
        have hq : (match t' :: us with | t :: u :: rest => g t u rest | _ => q) = q := by
          cases us with
          | nil => rfl
          | cons u us => exact hg t' u us (isLast_of_alike halike hlast)
        rw [hp, hq]
        exact hnone' hR s s' hs

/-- Annotations start both lists or neither. -/
theorem beginsAnnotations_alike (h : σ.tokens ts us) :
    beginsAnnotations ts = beginsAnnotations us :=
  begins_and_alike (c := fun ts => !begins "interface" ts) h rfl rfl fun h => by
    rw [begins_alike h]

/-- What is left behind two tokens is an end of the tokens. -/
theorem suffix_cons_cons (t u : Token) (ts : List Token) : ts <:+ t :: u :: ts :=
  (List.suffix_cons u ts).trans (List.suffix_cons t _)

/-! ## Names and annotations -/

/-- Reading a dot and a name gives alike names. -/
theorem segment_alike {t u t' u' : Token} (h : σ.tokens (t :: u :: ts) (t' :: u' :: us))
    (hsegment : t.spells "." && u.isName) : u.text = u'.text ∧ σ.tokens ts us := by
  rw [Bool.and_eq_true] at hsegment
  have htail := tail_of_begins h hsegment.1 rfl rfl
  have hrest := tail_of_startsWith htail (fun hlast => hlast.isName) hsegment.2
  exact ⟨((alike_of_tokens htail).name hsegment.2).2, hrest⟩

/-- Names joined by dots are read alike: a dot without a name behind it is left by both runs. -/
theorem Sim.dottedName : σ.Sim R false Eq Parser.dottedName Parser.dottedName := by
  unfold Parser.dottedName
  refine Sim.name.bind fun first first' => ?_
  refine Sim.bindEq (Sim.gather (Sim.ahead fun ts us => ?_)) fun more => ?_
  · refine SimAt.pair ?_ ?_ ?_ ?_ And.right
    · intro t u rest hlast
      rw [hlast.spells "." rfl rfl]
      rfl
    · intro t u rest hlast
      rw [hlast.spells "." rfl rfl]
      rfl
    · exact .pure fun _ => rfl
    · intro t u ts t' u' us
      refine .ite (fun hR => Bool.eq_iff_iff.1 ?_) ?_ (.pure (fun _ => rfl) And.right)
      · exact begins_and_alike (w := ".") hR.2 rfl rfl startsName_alike
      · refine SimAt.bindEq ?_ fun _ => .pure fun hR => ?_
        · exact .resumeAt (suffix_cons_cons t u ts) fun hR => (segment_alike hR.1.2 hR.2).2
        · rw [(segment_alike hR.1.2 hR.2).1]
  · exact .pure fun hR => by rw [hR.2.2]

/-- Annotations are passed over alike, with their arguments. -/
theorem Sim.skipAnnotations : σ.Sim R false Eq Parser.skipAnnotations Parser.skipAnnotations := by
  unfold Parser.skipAnnotations
  refine .repeatWhile (.test beginsAnnotations_alike ?_ (.pure fun _ => rfl))
  refine Sim.skip.bindEq fun _ => (Sim.dottedName.discard).bindEq fun _ => .choose ?_ ?_
  · exact fun ts us _ => (SimAt.skipGroup And.right).bindEq fun _ => .pure fun _ => rfl
  · exact .pure fun _ => rfl

/-- The same modifiers are found in both runs, since only texts of words are asked for. -/
theorem Sim.modifiers (allowed : List String) :
    σ.Sim R false Eq (Parser.modifiers allowed) (Parser.modifiers allowed) := by
  unfold Parser.modifiers
  refine Sim.bindEq (.gather (.ahead fun ts us => ?_)) fun found => .pure fun _ => rfl
  refine .uncons And.right (.pure (fun _ => rfl) And.right) fun t ts u us => ?_
  refine .ite (fun hR => ?_) ?_ (.ite (fun hR => ?_) ?_ (.ite (fun hR => ?_) ?_ ?_))
  · rw [(alike_of_tokens hR.2).spellsAny]
  · refine .bindEq (Sim.skip.at fun hR => ⟨hR, hR.1.2⟩) fun _ => .pure fun hR => ?_
    rw [(alike_of_tokens hR.1.2).text_of_spellsAny hR.2]
  · rw [Bool.and_assoc, Bool.and_assoc]
    exact Bool.eq_iff_iff.1 <| begins_and_alike (w := "non") hR.2 rfl rfl fun h =>
      begins_and_alike h rfl rfl fun h => begins_alike h "sealed"
  · refine .bindEq (.resumeAt ?_ fun hR => ?_) fun _ => .pure fun _ => rfl
    · exact (List.drop_suffix 2 ts).trans (List.suffix_cons t ts)
    · have hwords := hR.2
      rw [Bool.and_assoc, Bool.and_eq_true] at hwords
      rw [drop_two, drop_two]
      exact rest_of_begins_and (w := "-") (tail_of_begins hR.1.2 hwords.1 rfl rfl) rfl rfl
        (fun hlast => hlast.spells "sealed" rfl rfl) hwords.2
  · rw [beginsAnnotations_alike hR.2]
  · exact .bindEq (Sim.skipAnnotations.at fun hR => ⟨hR, hR.1.2⟩) fun _ => .pure fun _ => rfl
  · exact .pure (fun _ => rfl) And.right

/-- Pairs of square brackets are passed over alike. -/
theorem Sim.dimensions : σ.Sim R false Eq Parser.dimensions Parser.dimensions :=
  .ahead fun ts _ => .resumeAt (dimensionsRest_suffix ts) fun hR => dimensionsRest_alike hR.2

/-- Type arguments end at the same angle bracket in both runs. -/
theorem Sim.skipTypeArguments :
    σ.Sim R false Eq Parser.skipTypeArguments Parser.skipTypeArguments := by
  unfold Parser.skipTypeArguments
  refine (Sim.expect "<" (by simp)).bindEq fun _ => .iterate (fun depth => ?_) 1
  refine Sim.next.bind fun t u => .ite (fun hR => ?_) ?_ (.ite (fun hR => ?_) ?_
    (.ite (fun hR => ?_) ?_ ?_))
  · rw [hR.2.spells]
  · exact .pure fun _ => rfl
  · rw [hR.2.spells]
  · exact .cond (.pure fun _ => rfl) (.pure fun _ => rfl)
  · rw [hR.2.spellsAny]
  · exact .failOn fun hR => ⟨rfl, hR.1.2.2⟩
  · exact .pure fun _ => rfl

/-- Type arguments that may be missing are missing in both runs or in neither. -/
theorem Sim.skipOptionalTypeArguments :
    σ.Sim R false Eq Parser.skipOptionalTypeArguments Parser.skipOptionalTypeArguments :=
  (Sim.sees "<").bindEq fun _ => .cond .skipTypeArguments (.pure fun _ => rfl)

/-- A type is read alike. -/
theorem Sim.type : σ.Sim R false Eq Parser.type Parser.type := by
  unfold Parser.type
  refine Sim.skipAnnotations.bindEq fun _ => .test ?_ (Sim.skip.bindEq fun _ => .dimensions) ?_
  · exact fun h => startsWith_alike h fun halike => halike.isPrimitive
  · refine Sim.name.discard.bindEq fun _ => Sim.skipOptionalTypeArguments.bindEq fun _ => ?_
    refine Sim.bindEq (.repeatWhile (.test ?_ ?_ (.pure fun _ => rfl))) fun _ => .dimensions
    · intro ts us h
      exact begins_and_alike (c := fun ts => startsWith (·.isName) ts || begins "@" ts) h rfl rfl
        fun h => by rw [startsName_alike h, begins_alike h]
    · exact Sim.skip.bindEq fun _ => Sim.skipAnnotations.bindEq fun _ =>
        Sim.name.discard.bindEq fun _ => Sim.skipOptionalTypeArguments.bindEq fun _ =>
        .pure fun _ => rfl

/-- A list of exceptions is read alike. -/
theorem Sim.throwsClause : σ.Sim R false Eq Parser.throwsClause Parser.throwsClause :=
  (Sim.sees "throws").bindEq fun _ => .cond
    (Sim.skip.bindEq fun _ => Sim.type.bindEq fun _ => .afterCommas .type) (.pure fun _ => rfl)

/-- Parameters are declared alike: as many, with the same names, on related lines. -/
theorem Sim.parameters : σ.Sim R false Eq Parser.parameters Parser.parameters := by
  unfold Parser.parameters
  refine (Sim.expect "(" (by simp)).bindEq fun _ => Sim.bindEq ?_ fun counts =>
    (Sim.expect ")" (by simp)).bindEq fun _ => .pure fun _ => rfl
  refine .iterate (fun counts => ?_) (0, false)
  refine (Sim.sees ")").bindEq fun _ => .cond (.pure fun _ => rfl) ?_
  refine (Sim.modifiers localModifiers).discard.bindEq fun _ => Sim.type.bindEq fun _ => ?_
  refine (Sim.sees "...").bindEq fun ellipsis => .when .skip fun _ => ?_
  refine (Sim.sees "this").bindEq fun receiver => .join (fun _ => ?_) .skip fun hrest =>
    Sim.name.bind fun t u => (Sim.declareValue And.right).bindEq fun a => (hrest a).mono And.left
  refine Sim.dimensions.bindEq fun _ => (Sim.sees ",").bindEq fun _ => .join (fun _ => ?_) .skip
    fun hrest => (Sim.sees ")").bindEq fun _ => .when (.failAhead fun _ _ => rfl) hrest
  exact .pure fun _ => rfl

end Assay.Source.Simulation
