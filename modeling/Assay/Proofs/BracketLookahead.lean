import Assay.Proofs.BracketRules
import Assay.Proofs.TypeGrammar

/-!
# What a look ahead passes over

The searches that find the end of a group, of type arguments, of a type or of a cast: the tokens
before the end they find are a walk along brackets.
-/

namespace Assay.Source

open Assay.Source.Parser

variable {t u l r : Token} {ts rest inside : List Token} {due due' stack : List String}
  {closer : String}

/-- What a look ahead passes over is a walk along brackets that changes nothing that is due. -/
def Passes (ts rest : List Token) : Prop :=
  ∀ due, ∃ read spans, ts = read ++ rest ∧ Walk due read spans due

namespace Passes

variable {mid : List Token}

/-- Standing still passes nothing. -/
theorem refl (ts : List Token) : Passes ts ts := fun _ => ⟨[], [], rfl, .done⟩

/-- Two balanced stretches make one. -/
theorem trans (h : Passes ts mid) (h' : Passes mid rest) : Passes ts rest := by
  intro due
  obtain ⟨read, spans, rfl, hwalk⟩ := h due
  obtain ⟨read', spans', rfl, hwalk'⟩ := h' due
  exact ⟨read ++ read', spans ++ spans', by rw [List.append_assoc], hwalk.append hwalk'⟩

/-- A plain token may be passed first. -/
theorem cons (ht : t.IsPlain) (h : Passes ts rest) : Passes (t :: ts) rest := by
  intro due
  obtain ⟨read, spans, rfl, hwalk⟩ := h due
  exact ⟨t :: read, spans, rfl, .plain ht hwalk⟩

/-- Behind a balanced stretch the tokens stay those of the grammar. -/
theorem lexical (h : Passes ts rest) (hlexical : Lexical ts) : Lexical rest := by
  obtain ⟨read, spans, rfl, -⟩ := h []
  exact hlexical.of_append

/-- A look that passes balanced tokens moves over them. -/
theorem movesAt (h : Lexical ts → Passes ts rest) : MovesAt due due ts (resumeAt rest) :=
  .resumeAt fun hlexical => h hlexical due

end Passes

/-! ## Groups -/

/-- A group that is open is passed over up to the closer of its outermost bracket. -/
theorem GroupEnd.walk (h : GroupEnd stack inside r) (hne : stack ≠ []) :
    Walk (stack ++ due) (inside ++ [r]) [] due := by
  induction h with
  | last hr => exact .closer hr .done
  | closer ht houter _ ih => exact .closer ht (ih houter)
  | opener ht _ ih => exact .opener ht (ih (List.cons_ne_nil _ _))
  | plain ht _ ih => exact .plain ht (ih hne)

/-- A parser that goes on by the group ahead. -/
theorem MovesAt.group {α : Type} {f : List Token × List Token → Parser α}
    (hl : l.closer? = some closer)
    (hf : ∀ inside rest, Passes (l :: ts) rest → MovesAt due due' (l :: ts) (f (inside, rest))) :
    MovesAt due due' (l :: ts) (groupAhead >>= f) := by
  intro hlexical s r hr
  obtain ⟨a, ha, b, hb, rfl⟩ := bind_eq_ok.1 hr
  obtain ⟨_, _, inside, rest, hts, hsplit, rfl⟩ := groupAhead_eq_ok ha
  obtain ⟨rfl, rfl⟩ := List.cons.inj hts
  rw [hl, Option.toList_some] at hsplit
  obtain ⟨r, rfl, hend⟩ := GroupEnd.of_splitGroup hsplit
  refine hf inside rest (fun due => ?_) hlexical s b hb
  exact ⟨l :: (inside ++ [r]), [], by simp, .opener hl (hend.walk (List.cons_ne_nil closer []))⟩

/-- Skipping a group moves over its opener and its closer. -/
theorem MovesAt.skipGroup (hl : l.closer? = some closer) :
    MovesAt due due (l :: ts) Parser.skipGroup :=
  .group hl fun _ _ hpass => Passes.movesAt fun _ => hpass

/-! ## Type arguments -/

/-- An identifier is spelled as no sign. -/
theorem Token.IsLexical.spells_of_isIdentifier {sign : String} (h : t.IsLexical)
    (ht : t.isIdentifier) (hsign : sign ∈ signs) : t.spells sign = false := by
  by_contra hspells
  have hoperator := (h.isSign hsign (by simpa using hspells)).isIdentifier
  rw [ht] at hoperator
  cases hoperator

/-- What type arguments may hold ends no block and no statement. -/
theorem Token.IsLexical.not_ends_arguments (h : t.IsLexical)
    (ht : t.isIdentifier || t.spellsAny typeArgumentOperators) :
    t.spellsAny [";", "\x7b", "\x7d"] = false := by
  rcases Bool.or_eq_true_iff.1 ht with hword | hsign
  · have hspells : ∀ sign ∈ signs, t.spells sign = false := fun sign hsign =>
      h.spells_of_isIdentifier hword hsign
    simp [hspells ";" (by decide), hspells "\x7b" (by decide), hspells "\x7d" (by decide)]
  · rw [Token.spellsAny, Bool.and_eq_true, List.contains_iff_mem] at hsign
    have hnone : ∀ sign ∈ typeArgumentOperators, sign ∉ [";", "\x7b", "\x7d"] := by decide
    simpa [Token.spellsAny] using fun _ => hnone _ hsign.2

/-- The tokens up to a closing angle bracket, with no end of a block or statement among them. -/
def AngleSpan (ts rest : List Token) (span : List Token) (r : Token) : Prop :=
  ts = span ++ r :: rest ∧ (∀ t ∈ span, t.spellsAny [";", "\x7b", "\x7d"] = false) ∧ r.spells ">"

/-- A token that ends no statement may stand first in a span of angles. -/
theorem AngleSpan.cons {span : List Token} {r : Token} (h : AngleSpan ts rest span r)
    (ht : t.spellsAny [";", "\x7b", "\x7d"] = false) : AngleSpan (t :: ts) rest (t :: span) r :=
  ⟨by rw [h.1, List.cons_append], List.forall_mem_cons.2 ⟨ht, h.2.1⟩, h.2.2⟩

/-- A look over type arguments leaves a span of angles behind. -/
theorem angleSpan_of_typeArgumentsRest? {depth : Nat} (hlexical : Lexical ts)
    (h : typeArgumentsRest? depth ts = some rest) : ∃ span r, AngleSpan ts rest span r := by
  fun_induction typeArgumentsRest? depth ts with
  | case1 => cases h
  | case2 depth t ts hless ih =>
    obtain ⟨span, r, hspan⟩ := ih hlexical.tail h
    exact ⟨t :: span, r, hspan.cons (by rw [Token.spellsAny_of_spells hless]; rfl)⟩
  | case3 depth t ts hless hgreater =>
    cases h
    exact ⟨[], t, rfl, List.forall_mem_nil _, hgreater⟩
  | case4 depth t ts hless hgreater hlast ih =>
    obtain ⟨span, r, hspan⟩ := ih hlexical.tail h
    exact ⟨t :: span, r, hspan.cons (by rw [Token.spellsAny_of_spells hgreater]; rfl)⟩
  | case5 depth t ts hless hgreater hinside ih =>
    obtain ⟨span, r, hspan⟩ := ih hlexical.tail h
    exact ⟨t :: span, r, hspan.cons (hlexical.head.not_ends_arguments hinside)⟩
  | case6 => cases h

/-- Type arguments that a look ahead finds. -/
theorem walk_of_typeArgumentsRest? (hlexical : Lexical (l :: ts)) (hl : l.spells "<")
    (h : typeArgumentsRest? 0 (l :: ts) = some rest) :
    ∃ span r, AngleSpan ts rest span r ∧ l :: ts = l :: (span ++ [r]) ++ rest ∧
      Walk due (l :: (span ++ [r])) [span] due := by
  rw [typeArgumentsRest?, if_pos hl] at h
  obtain ⟨span, r, hspan⟩ := angleSpan_of_typeArgumentsRest? hlexical.tail h
  refine ⟨span, r, hspan, by simp [hspan.1], ?_⟩
  exact .typeArguments hl hspan.2.1 hspan.2.2 .done

/-- Skipping type arguments leaves a span of angles behind. -/
theorem angleSpan_of_iterate {depth : Nat} {s : Scope} {r : Parsed Unit}
    (h : iterate angleRound depth s ts = .ok r) : ∃ span t, AngleSpan ts r.rest span t := by
  induction ts generalizing depth r with
  | nil =>
    rw [iterate_of_error (bind_of_error rfl)] at h
    cases h
  | cons t ts ih =>
    -- a round that goes on, at whatever depth, has read one more token of the span
    have hmore : ∀ {depth'}, angleRound depth s (t :: ts) = .ok ⟨.inl depth', [], ts⟩ →
        t.spellsAny [";", "\x7b", "\x7d"] = false →
        ∃ span u, AngleSpan (t :: ts) r.rest span u := by
      intro depth' hround ht
      rw [iterate_again hround (by simp), recording_nil] at h
      obtain ⟨span, u, hspan⟩ := ih h
      exact ⟨t :: span, u, hspan.cons ht⟩
    by_cases hless : t.spells "<"
    · exact hmore (angleRound_less hless depth s ts) (by rw [Token.spellsAny_of_spells hless]; rfl)
    by_cases hgreater : t.spells ">"
    · have hround := angleRound_greater hgreater depth s ts
      by_cases hd : depth ≤ 1
      · rw [if_pos hd] at hround
        rw [iterate_done hround] at h
        cases h
        exact ⟨[], t, rfl, List.forall_mem_nil _, hgreater⟩
      · rw [if_neg hd] at hround
        exact hmore hround (by rw [Token.spellsAny_of_spells hgreater]; rfl)
    · by_cases hstop : t.spellsAny [";", "\x7b", "\x7d"]
      · have hround : angleRound depth s (t :: ts) =
            .error ⟨.unterminatedTypeArguments t.text, t.line⟩ := by
          rw [angleRound, bind_of_ok (next_cons s t ts)]
          simp only [hless, hgreater, hstop, if_true, Bool.false_eq_true, if_false]
          rfl
        rw [iterate_of_error hround] at h
        cases h
      · rw [Bool.not_eq_true] at hless hgreater hstop
        exact hmore (angleRound_plain hless hgreater hstop depth s ts) hstop

/-- What passing over type arguments reads. -/
theorem skipTypeArguments_eq_ok {s : Scope} {r : Parsed Unit}
    (h : skipTypeArguments s ts = .ok r) :
    ∃ l us span t, ts = l :: us ∧ l.spells "<" ∧ AngleSpan us r.rest span t := by
  have hrun : (expect "<" >>= fun _ => iterate angleRound 1) s ts = .ok r := h
  obtain ⟨a, ha, b, hb, rfl⟩ := bind_eq_ok.1 hrun
  obtain ⟨l, hts, hl⟩ := expect_eq_ok ha
  obtain ⟨span, t, hspan⟩ := angleSpan_of_iterate hb
  exact ⟨l, a.rest, span, t, hts, hl, hspan⟩

/-- Skipping type arguments moves over balanced tokens. -/
theorem Moves.skipTypeArguments : Moves due due Parser.skipTypeArguments := by
  intro ts _ s r hr
  obtain ⟨l, us, span, t, rfl, hl, hspan⟩ := skipTypeArguments_eq_ok hr
  refine ⟨l :: (span ++ [t]), [span], by simp [hspan.1], ?_⟩
  exact .typeArguments hl hspan.2.1 hspan.2.2 .done

/-- Skipping type arguments that may be missing moves over balanced tokens. -/
theorem Moves.skipOptionalTypeArguments : Moves due due Parser.skipOptionalTypeArguments :=
  (Moves.sees "<").bind fun _ => .cond .skipTypeArguments (.pure _)

/-! ## Types -/

/-- A look over type arguments passes balanced tokens. -/
theorem passes_typeArguments (hlexical : Lexical ts) (hl : begins "<" ts)
    (h : typeArgumentsRest? 0 ts = some rest) : Passes ts rest := by
  intro due
  cases ts with
  | nil => cases hl
  | cons l ts =>
    obtain ⟨span, r, -, hts, hwalk⟩ := walk_of_typeArgumentsRest? hlexical hl h
    exact ⟨l :: (span ++ [r]), [span], hts, hwalk⟩

/-- A look over type arguments that may be missing passes balanced tokens. -/
theorem passes_optionalTypeArguments (hlexical : Lexical ts)
    (h : optionalTypeArgumentsRest? ts = some rest) : Passes ts rest := by
  rw [optionalTypeArgumentsRest?] at h
  by_cases hl : begins "<" ts
  · rw [if_pos hl] at h
    exact passes_typeArguments hlexical hl h
  · rw [if_neg hl] at h
    cases h
    exact .refl ts

/-- A look over the segments of a type passes balanced tokens. -/
theorem passes_segments (hlexical : Lexical ts) (h : segmentsRest? ts = some rest) :
    Passes ts rest := by
  fun_induction segmentsRest? ts generalizing rest with
  | case1 => cases h
  | case2 ts dot segment tail hopt hsegment ih =>
    have hpass := passes_optionalTypeArguments hlexical hopt
    obtain ⟨hdot, hname⟩ := Bool.and_eq_true_iff.1 hsegment
    have hlexical' : Lexical tail := (hpass.lexical hlexical).tail.tail
    exact hpass.trans <| .cons (Token.isPlain_of_spells hdot (by decide)) <|
      .cons (Token.isPlain_of_isName hname) (ih hlexical' h)
  | case3 ts dot segment tail hopt =>
    cases h
    exact passes_optionalTypeArguments hlexical hopt
  | case4 ts tail hne hopt =>
    cases h
    exact passes_optionalTypeArguments hlexical hopt

/-- A look over dimensions passes balanced tokens. -/
theorem passes_dimensions (hlexical : Lexical ts) : Passes ts (dimensionsRest ts) := by
  fun_induction dimensionsRest ts with
  | case1 opening closing rest h ih =>
    intro due
    obtain ⟨hopening, hclosing⟩ := Bool.and_eq_true_iff.1 h
    obtain ⟨read, spans, hread, hwalk⟩ := ih hlexical.tail.tail due
    have hl := hlexical.head.isSign (by decide) hopening
    have hr := hlexical.tail.head.isSign (by decide) hclosing
    refine ⟨opening :: closing :: read, spans, ?_, ?_⟩
    · rw [List.cons_append, List.cons_append, ← hread]
    · exact .opener (hl.opens rfl) (.closer (hr.closes (by decide)) hwalk)
  | case2 => exact .refl _
  | case3 => exact .refl _

/-- A primitive type is plain. -/
theorem isPlain_of_isPrimitive (h : t.isPrimitive) : t.IsPlain :=
  Token.isPlain_of_isIdentifier (Bool.and_eq_true_iff.1 h).1

/-- A look over a type passes balanced tokens. -/
theorem passes_type (hlexical : Lexical ts) (h : typeRest? ts = some rest) : Passes ts rest := by
  cases ts with
  | nil => cases h
  | cons t ts =>
    rw [typeRest?] at h
    by_cases hprimitive : t.isPrimitive
    · rw [if_pos hprimitive] at h
      cases h
      exact .cons (isPlain_of_isPrimitive hprimitive) (passes_dimensions hlexical.tail)
    · rw [if_neg hprimitive] at h
      by_cases hname : t.isName
      · rw [if_pos hname] at h
        obtain ⟨mid, hmid, rfl⟩ := Option.map_eq_some_iff.1 h
        have hsegments := passes_segments hlexical.tail hmid
        exact .cons (Token.isPlain_of_isName hname) <| hsegments.trans <|
          passes_dimensions (hsegments.lexical hlexical.tail)
      · rw [if_neg hname] at h
        cases h

/-- A look over the bounds of a cast passes balanced tokens. -/
theorem passes_bounds (hlexical : Lexical ts) (h : boundsRest? ts = some rest) :
    Passes ts rest := by
  fun_induction boundsRest? ts generalizing rest with
  | case1 => cases h
  | case2 ts htype =>
    cases h
    exact passes_type hlexical htype
  | case3 ts t tail htype hamp ih =>
    have hpass := passes_type hlexical htype
    exact hpass.trans <| .cons (Token.isPlain_of_spells hamp (by decide)) <|
      ih (hpass.lexical hlexical).tail h
  | case4 ts t tail htype =>
    cases h
    exact passes_type hlexical htype

/-- A cast is passed over with its parentheses. -/
theorem passes_cast (hlexical : Lexical (l :: ts)) (hl : l.spells "(")
    (h : castRest? ts = some rest) : Passes (l :: ts) rest := by
  unfold castRest? at h
  split at h
  · next closing operand tail hbounds =>
    split at h
    · next hclosing =>
      cases h
      have hpass := passes_bounds hlexical.tail hbounds
      have hopen := (hlexical.head.isSign (by decide) hl).opens rfl
      have hclose := ((hpass.lexical hlexical.tail).head.isSign (by decide)
        (Bool.and_eq_true_iff.1 hclosing).1).closes (by decide)
      intro due
      obtain ⟨read, spans, rfl, hwalk⟩ := hpass (")" :: due)
      refine ⟨l :: (read ++ [closing]), spans ++ [], by simp, .opener hopen (hwalk.append ?_)⟩
      exact .closer hclose .done
    · cases h
  · cases h

end Assay.Source
