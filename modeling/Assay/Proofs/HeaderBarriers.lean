import Assay.Proofs.FileAnnotations
import Assay.Proofs.ProgressHeader

/-!
# Headers in front of other parameters

The parts of a header look ahead by a few tokens, but never past a parenthesis that opens a parameter
list or past a comma between parameters. So what was read in front of such a token is read in the same
way whatever comes behind it (`Barred`). A parameter list can therefore be changed where one of its
parameters is read without a change to what is read before (`ParameterAt.splice`), and a member from
the parenthesis on without a change to its header (`OpensParameters.splice`).
-/

namespace Assay.Source

open Assay.Source.Parser

variable {α β σ : Type} {b t : Token} {ts us vs x y inside rest : List Token} {s : Scope}
  {closing : List String} {word : String}

/-- The token may open a parameter list or separate parameters. -/
def Token.IsBarrier (b : Token) : Prop := b.spells "(" ∨ b.spells ","

/-- A barrier spells an opening parenthesis or a comma and nothing else. -/
theorem Token.IsBarrier.spells (h : b.IsBarrier) (hword : word ∉ ["(", ","]) :
    b.spells word = false := by
  simp only [List.mem_cons, List.not_mem_nil, or_false, not_or] at hword
  rcases h with h | h
  all_goals
    simp only [Token.spells, Bool.and_eq_true, beq_iff_eq] at h
    simp [Token.spells, h.2, Ne.symm hword.1, Ne.symm hword.2]

/-! ## Tests -/

/-- The test does not depend on what comes behind a barrier. -/
def Blind (test : List Token → β) : Prop :=
  ∀ b : Token, b.IsBarrier → ∀ us x y, test (us ++ b :: x) = test (us ++ b :: y)

namespace Blind

variable {test test' : List Token → Bool}

/-- Whether a token of some kind comes first is not changed behind a barrier. -/
theorem startsWith (p : Token → Bool) : Blind (Source.startsWith p) := fun _ _ us _ _ => by
  cases us <;> rfl

/-- Whether a word comes first is not changed behind a barrier. -/
theorem begins (word : String) : Blind (Source.begins word) := .startsWith _

/-- A test that is blind behind barriers is so if its answer is turned round. -/
theorem not (h : Blind test) : Blind fun ts => !test ts := fun b hb us x y =>
  congrArg Bool.not (h b hb us x y)

/-- Of two blind tests either may be asked for. -/
theorem or (h : Blind test) (h' : Blind test') : Blind fun ts => test ts || test' ts :=
  fun b hb us x y => congrArg₂ Bool.or (h b hb us x y) (h' b hb us x y)

/-- A test behind a word that no barrier spells. -/
theorem behind (hword : word ∉ ["(", ","]) (h : Blind test) :
    Blind fun ts => Source.begins word ts && test ts.tail := by
  intro b hb us x y
  cases us with
  | nil => simp [hb.spells hword]
  | cons u us => simp [h b hb us x y]

end Blind

/-! ## Parsers -/

/-- The parser moves forward only, and where it stops no later than at a barrier it does not depend on
what comes behind the barrier. -/
structure Barred (p : Parser α) : Prop where
  suffix : ∀ {s ts r}, p s ts = .ok r → r.rest <:+ ts
  keeps : ∀ {s b us vs x r}, b.IsBarrier → p s (us ++ b :: x) = .ok r → r.rest = vs ++ b :: x →
    ∀ y, p s (us ++ b :: y) = .ok ⟨r.value, r.facts, vs ++ b :: y⟩

/-- Reading on from what lies ahead. -/
theorem ahead_bind_apply (f : List Token → Parser α) (s : Scope) (ts : List Token) :
    (ahead >>= f) s ts = f ts s ts := by
  rw [bind_of_ok (ahead_apply s ts), recording_nil]

/-- A parser that chooses by a test of the tokens ahead takes the first branch where the test
holds. -/
theorem ahead_test_true {test : List Token → Bool} (h : test ts = true) (p : Parser α)
    (g : List Token → Parser α) (s : Scope) :
    (ahead >>= fun ts => if test ts then p else g ts) s ts = p s ts := by
  rw [ahead_bind_apply, if_pos h]

/-- A parser that chooses by a test of the tokens ahead goes on with them where the test fails. -/
theorem ahead_test_false {test : List Token → Bool} (h : test ts = false) (p : Parser α)
    (g : List Token → Parser α) (s : Scope) :
    (ahead >>= fun ts => if test ts then p else g ts) s ts = (ahead >>= g) s ts := by
  rw [ahead_bind_apply, ahead_bind_apply, if_neg (by simp [h])]

/-- A last part of tokens that holds the barrier. -/
theorem exists_before_barrier (h : vs ++ b :: x <:+ ts) (hts : ts <:+ us ++ b :: x) :
    ∃ ws, ts = ws ++ b :: x := by
  obtain ⟨ws, rfl⟩ := (List.suffix_append vs (b :: x)).trans h
  exact ⟨ws, rfl⟩

namespace Barred

variable {p q : Parser α} {f g : List Token → Parser α}

/-- A parser that reads nothing is barred. -/
theorem pure (a : α) : Barred (Pure.pure a : Parser α) where
  suffix h := by
    cases h
    exact List.suffix_rfl
  keeps _ h hrest y := by
    cases h
    rw [List.append_cancel_right hrest]
    rfl

/-- One barred parser and then another are barred together. -/
theorem bind {f : α → Parser β} (hp : Barred p) (hf : ∀ a, Barred (f a)) : Barred (p >>= f) where
  suffix h := by
    obtain ⟨a, ha, c, hc, rfl⟩ := bind_eq_ok.1 h
    exact ((hf _).suffix hc).trans (hp.suffix ha)
  keeps {s b us vs x r} hb h hrest y := by
    obtain ⟨a, ha, c, hc, rfl⟩ := bind_eq_ok.1 h
    obtain ⟨ws, hws⟩ : ∃ ws, a.rest = ws ++ b :: x := by
      have hsuffix := (hf _).suffix hc
      rw [show c.rest = _ from hrest] at hsuffix
      exact exists_before_barrier hsuffix (hp.suffix ha)
    rw [hws] at hc
    rw [bind_of_ok (hp.keeps hb ha hws y), (hf _).keeps hb hc hrest y]
    rfl

/-- A choice between barred parsers is barred. -/
theorem ite {c : Prop} [Decidable c] (hp : Barred p) (hq : Barred q) :
    Barred (if c then p else q) := by
  split
  · exact hp
  · exact hq

/-- A choice by what lies ahead. -/
theorem test {test : List Token → Bool} (h : Blind test) (hp : Barred p)
    (hg : Barred (Parser.ahead >>= g)) :
    Barred (Parser.ahead >>= fun ts => if test ts then p else g ts) where
  suffix {s ts r} hr := by
    cases htest : test ts with
    | true =>
      rw [ahead_test_true htest] at hr
      exact hp.suffix hr
    | false =>
      rw [ahead_test_false htest] at hr
      exact hg.suffix hr
  keeps {s b us vs x r} hb hr hrest y := by
    have hsame := h b hb us y x
    cases htest : test (us ++ b :: x) with
    | true =>
      rw [ahead_test_true htest] at hr
      rw [ahead_test_true (hsame.trans htest)]
      exact hp.keeps hb hr hrest y
    | false =>
      rw [ahead_test_false htest] at hr
      rw [ahead_test_false (hsame.trans htest)]
      exact hg.keeps hb hr hrest y

/-- A barred parser may come behind a look at the tokens. -/
theorem otherwise (hp : Barred p) : Barred (Parser.ahead >>= fun _ => p) where
  suffix {s ts r} hr := by
    rw [ahead_bind_apply] at hr
    exact hp.suffix hr
  keeps hb hr hrest y := by
    rw [ahead_bind_apply] at hr ⊢
    exact hp.keeps hb hr hrest y

/-- A parser that never gives a result is barred for want of one. -/
theorem fails (h : ∀ s ts r, p s ts ≠ .ok r) : Barred p where
  suffix hr := absurd hr (h _ _ _)
  keeps _ hr := absurd hr (h _ _ _)

/-- To look for a word is barred. -/
theorem sees (word : String) : Barred (Parser.sees word) where
  suffix h := by
    cases h
    exact List.suffix_rfl
  keeps {s b us vs x r} hb h hrest y := by
    rw [sees_apply] at h ⊢
    cases h
    rw [Blind.begins word b hb us y x, List.append_cancel_right hrest]

/-- To read one token is barred. -/
theorem next : Barred Parser.next where
  suffix {s ts r} h := by
    cases ts with
    | nil => cases h
    | cons t ts =>
      cases h
      exact List.suffix_cons t ts
  keeps {s b us vs x r} hb h hrest y := by
    cases us with
    | nil =>
      cases h
      have hlength := congrArg List.length hrest
      simp only [List.length_append, List.length_cons] at hlength
      omega
    | cons u us =>
      cases h
      rw [← List.append_cancel_right hrest]
      rfl

/-- What a barred parser gives may be forgotten. -/
theorem discard (hp : Barred p) : Barred (Functor.discard p) := hp.bind fun _ => pure ()

/-- To pass over one token is barred. -/
theorem skip : Barred Parser.skip := next.discard

/-- A parser that fails at the next token is barred. -/
theorem failAhead (fault : String → Fault) : Barred (Parser.failAhead fault : Parser α) :=
  fails fun _ ts _ h => by cases ts <;> cases h

/-- To read a name is barred. -/
theorem name : Barred Parser.name :=
  test (.startsWith _) next (otherwise (failAhead _))

/-- To read a given word is barred. -/
theorem expect (word : String) : Barred (Parser.expect word) :=
  (sees word).bind fun _ => ite skip (failAhead _)

/-- A loop of barred rounds is barred: as many rounds are made behind a change as before it. -/
theorem iterate {round : σ → Parser (σ ⊕ β)} (h : ∀ a, Barred (round a)) (a : σ) :
    Barred (Parser.iterate round a) where
  suffix {s ts r} hr := by
    refine iterate_induction (motive := fun _ ts r => r.rest <:+ ts) ?_ ?_ hr
    · exact fun a ts _ _ _ hround => (h a).suffix hround
    · exact fun a ts _ _ _ _ hround _ ih => ih.trans ((h a).suffix hround)
  keeps {s b us vs x r} hb hr hrest y := by
    -- what the later rounds leave tells that the barrier is still ahead of them
    refine (iterate_induction (motive := fun a ts r => r.rest <:+ ts ∧ ∀ us, ts = us ++ b :: x →
      r.rest = vs ++ b :: x → Parser.iterate round a s (us ++ b :: y) =
        .ok ⟨r.value, r.facts, vs ++ b :: y⟩) ?_ ?_ hr).2 us rfl hrest
    · intro a ts c facts rest hround
      refine ⟨(h a).suffix hround, ?_⟩
      rintro us rfl hrest
      exact iterate_done ((h a).keeps hb hround hrest y)
    · rintro a ts a' facts rest more hround hlt ⟨hsuffix, ih⟩
      refine ⟨hsuffix.trans ((h a).suffix hround), ?_⟩
      rintro us rfl hrest
      rw [show more.rest = _ from hrest] at hsuffix
      obtain ⟨ws, rfl⟩ := exists_before_barrier hsuffix ((h a).suffix hround)
      have hlt' : (ws ++ b :: y).length < (us ++ b :: y).length := by
        simp only [List.length_append, List.length_cons] at hlt ⊢
        omega
      rw [iterate_again ((h a).keeps hb hround rfl y) hlt', ih ws rfl hrest]
      rfl

/-- A loop that asks for more is barred if the asking is. -/
theorem repeatWhile {ask : Parser Bool} (h : Barred ask) : Barred (Parser.repeatWhile ask) :=
  iterate (fun _ => h.bind fun _ => ite (pure _) (pure _)) ()

/-- A loop that collects results is barred if its rounds are. -/
theorem gather {round : Parser (Option α)} (h : Barred round) : Barred (Parser.gather round) :=
  iterate (fun _ => h.bind fun found => by cases found <;> exact pure _) []

end Barred

/-! ## Names and annotations -/

/-- A group in brackets holds all barriers inside, so it is passed over alike. -/
theorem Barred.skipGroup : Barred Parser.skipGroup where
  suffix {s ts r} h := by
    obtain ⟨l, us, inside, rest, rfl, hsplit, rfl⟩ := skipGroup_eq_ok h
    exact (splitGroup_suffix hsplit).trans (List.suffix_cons l us)
  keeps {s b us vs x r} hb h hrest y := by
    obtain ⟨l, ts, inside, rest, hts, hsplit, rfl⟩ := skipGroup_eq_ok h
    subst hrest
    cases us with
    | nil =>
      obtain ⟨-, rfl⟩ := List.cons.inj hts
      have hlength := (splitGroup_suffix hsplit).length_le
      rw [List.length_append, List.length_cons] at hlength
      omega
    | cons l' us =>
      obtain ⟨rfl, rfl⟩ := List.cons.inj hts
      obtain ⟨close, hus, hend⟩ := GroupEnd.of_splitGroup hsplit
      rw [← List.cons_append, ← List.append_assoc] at hus
      rw [List.append_cancel_right hus, List.cons_append, List.append_assoc, List.cons_append]
      exact skipGroup_of_ok (hend.splitGroup _) s

/-- A name comes next behind a dot. -/
def goesOn (ts : List Token) : Bool := begins "." ts && startsWith (·.isName) ts.tail

/-- One name behind a dot, if it is there. -/
theorem namePart_eq : namePart = (do
    if goesOn (← ahead) then
      skip
      let part ← next
      return some part.text
    return none) := by
  funext s ts
  cases hpart : goesOn ts with
  | true =>
    rw [ahead_test_true hpart]
    obtain ⟨hbegins, hnext⟩ := Bool.and_eq_true_iff.1 hpart
    obtain ⟨dot, ts, rfl, hdot⟩ := begins_eq_true hbegins
    obtain ⟨part, ts, rfl, hname⟩ := startsWith_eq_true hnext
    rw [namePart_some (Bool.and_eq_true_iff.2 ⟨hdot, hname⟩)]
    rfl
  | false =>
    rw [ahead_test_false hpart]
    match ts with
    | [] => rfl
    | [_] => rfl
    | dot :: part :: rest =>
      have hneither : (dot.spells "." && part.isName) = false := hpart
      rw [namePart, ahead_bind_apply]
      simp only [hneither, Bool.false_eq_true, if_false]
      rfl

/-- Names joined by dots are barred. -/
theorem Barred.dottedName : Barred Parser.dottedName := by
  have hpart : Barred namePart := by
    rw [namePart_eq]
    exact test (.behind (by decide) (.startsWith _))
      (skip.bind fun _ => next.bind fun _ => pure _) (otherwise (pure _))
  rw [dottedName_eq]
  exact name.bind fun _ => (gather hpart).bind fun _ => pure _

/-- Annotations start a list whatever is changed behind a barrier in it. -/
theorem blind_beginsAnnotations : Blind beginsAnnotations :=
  .behind (by decide) (.not (.begins _))

/-- To pass over annotations is barred: their arguments are groups. -/
theorem Barred.skipAnnotations : Barred Parser.skipAnnotations := by
  rw [skipAnnotations_eq]
  have hitem : Barred annotationItem :=
    skip.bind fun _ => dottedName.discard.bind fun _ => (sees "(").bind fun _ =>
      ite skipGroup (pure _)
  exact repeatWhile (test blind_beginsAnnotations (hitem.bind fun _ => pure _)
    (otherwise (pure _)))

/-! ## Modifiers -/

/-- The words of `non-sealed` come next. -/
def beginsNonSealed (ts : List Token) : Bool :=
  begins "non" ts && (begins "-" ts.tail && begins "sealed" ts.tail.tail)

/-- A modifier is found if its word comes first. -/
theorem modifierRound_word {allowed : List String} (h : t.spellsAny allowed) (s : Scope)
    (ts : List Token) : modifierRound allowed s (t :: ts) = .ok ⟨some [t.text], [], ts⟩ := by
  simp [modifierRound, bind_apply, h]

/-- The two signs of a hyphenated modifier behind its first word are passed over. -/
theorem modifierRound_nonSealed {allowed : List String} {minus unsealed : Token}
    (hword : t.spellsAny allowed = false) (h : beginsNonSealed (t :: minus :: unsealed :: ts))
    (s : Scope) :
    modifierRound allowed s (t :: minus :: unsealed :: ts) = .ok ⟨some [], [], ts⟩ := by
  simp only [beginsNonSealed, begins_cons, List.tail_cons, Bool.and_eq_true] at h
  simp [modifierRound, bind_apply, hword, h]

/-- Annotations between modifiers are passed over and none of the modifiers. -/
theorem modifierRound_annotations {allowed : List String}
    (hword : startsWith (·.spellsAny allowed) ts = false) (hnon : beginsNonSealed ts = false)
    (h : beginsAnnotations ts) (s : Scope) :
    modifierRound allowed s ts = (do skipAnnotations; return some []) s ts := by
  obtain ⟨t, ts, rfl, -⟩ := begins_eq_true (Bool.and_eq_true_iff.1 h).1
  have hnon' : (t.spells "non" && begins "-" ts && begins "sealed" ts.tail) = false := by
    rw [Bool.and_assoc]
    exact hnon
  rw [modifierRound, ahead_bind_apply]
  rw [startsWith_cons] at hword
  simp only [hword, hnon', h, Bool.false_eq_true, if_false, if_true]

/-- A round for modifiers as a choice by tests that are blind. -/
theorem modifierRound_eq (allowed : List String) : modifierRound allowed = (do
    let ts ← ahead
    if startsWith (·.spellsAny allowed) ts then
      let t ← next
      return some [t.text]
    else if beginsNonSealed ts then
      skip
      skip
      skip
      return some []
    else if beginsAnnotations ts then
      skipAnnotations
      return some []
    else return none) := by
  -- the tests of the round come in the same order, so each that holds ends the comparison
  funext s ts
  cases hword : startsWith (·.spellsAny allowed) ts with
  | true =>
    obtain ⟨t, ts, rfl, ht⟩ := startsWith_eq_true hword
    rw [ahead_test_true hword, modifierRound_word ht]
    rfl
  | false =>
  rw [ahead_test_false hword]
  cases hnon : beginsNonSealed ts with
  | true =>
    obtain ⟨hfirst, hothers⟩ := Bool.and_eq_true_iff.1 hnon
    obtain ⟨hsecond, hthird⟩ := Bool.and_eq_true_iff.1 hothers
    obtain ⟨t, ts, rfl, -⟩ := begins_eq_true hfirst
    obtain ⟨minus, ts, rfl, -⟩ := begins_eq_true hsecond
    obtain ⟨unsealed, ts, rfl, -⟩ := begins_eq_true hthird
    rw [ahead_test_true hnon, modifierRound_nonSealed hword hnon]
    rfl
  | false =>
  rw [ahead_test_false hnon]
  cases hannotations : beginsAnnotations ts with
  | true => rw [ahead_test_true hannotations, modifierRound_annotations hword hnon hannotations]
  | false =>
    rw [ahead_test_false hannotations]
    cases ts with
    | nil => rfl
    | cons t ts =>
      have hnon' : (t.spells "non" && begins "-" ts && begins "sealed" ts.tail) = false := by
        rw [Bool.and_assoc]
        exact hnon
      rw [startsWith_cons] at hword
      rw [modifierRound, ahead_bind_apply]
      simp only [hword, hnon', hannotations, Bool.false_eq_true, if_false]
      rfl

/-- To read modifiers is barred. -/
theorem Barred.modifiers (allowed : List String) :
    Barred (Parser.modifiers allowed) := by
  have hround : Barred (modifierRound allowed) := by
    rw [modifierRound_eq]
    refine test (.startsWith _) (next.bind fun _ => pure _) ?_
    refine test (.behind (by decide) (.behind (by decide) (.begins _)))
      (skip.bind fun _ => skip.bind fun _ => skip.bind fun _ => pure _) ?_
    exact test blind_beginsAnnotations (skipAnnotations.bind fun _ => pure _)
      (otherwise (pure _))
  rw [modifiers_eq]
  exact (gather hround).bind fun _ => pure _

/-! ## Types -/

/-- Type arguments are passed over without a look behind a barrier. -/
theorem Barred.skipTypeArguments : Barred Parser.skipTypeArguments := by
  refine (expect "<").bind fun _ => iterate (fun depth => ?_) 1
  refine next.bind fun t => ite (pure _) (ite (ite (pure _) (pure _)) (ite ?_ (pure _)))
  exact fails nofun

/-- Type arguments that may be missing are passed over without a look behind a barrier. -/
theorem Barred.skipOptionalTypeArguments : Barred Parser.skipOptionalTypeArguments :=
  (sees "<").bind fun _ => ite skipTypeArguments (pure _)

/-- Pairs of square brackets end before a barrier. -/
theorem dimensionsRest_barred (hb : b.IsBarrier) : ∀ us : List Token,
    ∃ vs, ∀ y, dimensionsRest (us ++ b :: y) = vs ++ b :: y
  | [] => ⟨[], fun y => dimensionsRest_of_not_opener (hb.spells (by decide))⟩
  | [t] => by
    have hclose : b.spells "]" = false := hb.spells (by decide)
    exact ⟨[t], fun y => by simp [dimensionsRest, hclose]⟩
  | t :: u :: us => by
    obtain ⟨vs, hvs⟩ := dimensionsRest_barred hb us
    by_cases hpair : t.spells "[" && u.spells "]"
    · exact ⟨vs, fun y => by simp [dimensionsRest, hpair, hvs]⟩
    · exact ⟨t :: u :: us, fun y => by simp [dimensionsRest, hpair]⟩

/-- To pass over pairs of square brackets is barred. -/
theorem Barred.dimensions : Barred Parser.dimensions where
  suffix {s ts r} h := by
    cases h
    exact dimensionsRest_suffix ts
  keeps {s b us vs x r} hb h hrest y := by
    cases h
    obtain ⟨ws, hws⟩ := dimensionsRest_barred hb us
    have hsame : vs = ws := List.append_cancel_right (hrest.symm.trans (hws x))
    rw [Parser.dimensions, ahead_bind_apply, resumeAt_apply, hws, hsame]
    rfl

/-- Reads what follows the annotations of a type. -/
def typeBody : Parser Unit := do
  if startsWith (·.isPrimitive) (← ahead) then skip
  else
    discard name
    skipOptionalTypeArguments
    repeatWhile typeSegment
  dimensions

/-- A type with the annotations before it. -/
theorem type_eq_typeBody : type = (do
    skipAnnotations
    typeBody) := rfl

/-- One segment of a type is barred. -/
theorem Barred.typeSegment : Barred Parser.typeSegment :=
  test (.behind (by decide) (.or (.startsWith _) (.begins _)))
    (skip.bind fun _ => skipAnnotations.bind fun _ => name.discard.bind fun _ =>
      skipOptionalTypeArguments.bind fun _ => pure _) (otherwise (pure _))

/-- A type behind its annotations is barred. -/
theorem Barred.typeBody : Barred Source.typeBody :=
  test (.startsWith _) (skip.bind fun _ => dimensions) <| otherwise <|
    name.discard.bind fun _ => skipOptionalTypeArguments.bind fun _ =>
      (repeatWhile typeSegment).bind fun _ => dimensions

/-- To read a type is barred. -/
theorem Barred.type : Barred Parser.type := by
  rw [type_eq_typeBody]
  exact skipAnnotations.bind fun _ => typeBody

/-- A type takes a token. -/
theorem type_shorter {r : Parsed Unit} (h : type s ts = .ok r) : r.rest.length < ts.length := by
  rw [type_eq_typeBody] at h
  obtain ⟨a, ha, c, hc, rfl⟩ := bind_eq_ok.1 h
  refine Nat.lt_of_lt_of_le ?_ (Barred.skipAnnotations.suffix ha).length_le
  cases hprimitive : startsWith (·.isPrimitive) a.rest with
  | true =>
    obtain ⟨t, us, hus, -⟩ := startsWith_eq_true hprimitive
    rw [typeBody, ahead_test_true hprimitive, hus, bind_of_ok (skip_cons s t us), recording_nil] at hc
    rw [hus]
    exact Nat.lt_succ_of_le (Barred.dimensions.suffix hc).length_le
  | false =>
    rw [typeBody, ahead_test_false hprimitive, ahead_bind_apply] at hc
    obtain ⟨d, hd, e, he, rfl⟩ := bind_eq_ok.1 hc
    obtain ⟨n, hn, heq⟩ := giving_eq_ok hd
    cases heq
    obtain ⟨hus, -⟩ := name_eq_ok hn
    have hbehind : Barred (do
        skipOptionalTypeArguments
        repeatWhile typeSegment
        dimensions) :=
      Barred.skipOptionalTypeArguments.bind fun _ => (Barred.repeatWhile .typeSegment).bind fun _ =>
        .dimensions
    rw [hus]
    exact Nat.lt_succ_of_le (hbehind.suffix he).length_le

/-! ## Parameters -/

/-- To declare a value is barred: it reads nothing. -/
theorem Barred.declareValue (kind : DeclarationKind) (t : Token) :
    Barred (Parser.declareValue kind t) where
  suffix h := by
    cases h
    exact List.suffix_rfl
  keeps _ h hrest y := by
    rw [declareValue_apply] at h ⊢
    cases h
    rw [List.append_cancel_right hrest]

/-- The parser stops behind a comma, unless it stops in front of a closing parenthesis, and does not
depend on what comes behind the comma. -/
def PastComma (p : Parser α) : Prop :=
  ∀ s ts r, p s ts = .ok r → begins ")" r.rest = false →
    ∃ us b, b.spells "," ∧ ts = us ++ b :: r.rest ∧
      ∀ y, p s (us ++ b :: y) = .ok ⟨r.value, r.facts, y⟩

/-- A barred parser may come before one that ends past a comma. -/
theorem PastComma.after {p : Parser α} {f : α → Parser β} (hp : Barred p)
    (hf : ∀ a, PastComma (f a)) : PastComma (p >>= f) := by
  intro s ts r h hclose
  obtain ⟨a, ha, c, hc, rfl⟩ := bind_eq_ok.1 h
  obtain ⟨us, b, hb, hmid, hbehind⟩ := hf a.value s a.rest c hc hclose
  obtain ⟨pre, rfl⟩ := hp.suffix ha
  have hsplit : pre ++ a.rest = pre ++ us ++ b :: c.rest := by rw [hmid, List.append_assoc]
  refine ⟨pre ++ us, b, hb, hsplit, fun y => ?_⟩
  rw [hsplit] at ha
  rw [bind_of_ok (hp.keeps (.inr hb) ha hmid y), hbehind y]
  rfl

/-- The end of a parameter is past a comma, or there is no other parameter. -/
theorem pastComma_parameterEnd (arity : Nat) (varargs receiver : Bool) :
    PastComma (parameterEnd arity varargs receiver) := by
  refine .after Barred.dimensions fun _ => ?_
  intro s ts r h hclose
  rw [bind_of_ok (sees_apply "," s ts), recording_nil] at h
  cases hcomma : begins "," ts with
  | true =>
    obtain ⟨b, ts, rfl, hb⟩ := begins_eq_true hcomma
    rw [hcomma] at h
    cases h
    refine ⟨[], b, hb, rfl, fun y => ?_⟩
    rw [List.nil_append, bind_of_ok (sees_apply "," s _), begins_cons, hb]
    rfl
  | false =>
    rw [hcomma, if_neg Bool.false_ne_true, bind_of_ok (sees_apply ")" s ts), recording_nil] at h
    cases hend : begins ")" ts with
    | true =>
      rw [hend] at h
      cases h
      exact absurd hend (by simp [hclose])
    | false =>
      rw [hend] at h
      cases ts <;> cases h

/-- The name of a parameter and its end go past a comma. -/
theorem pastComma_parameterName (arity : Nat) (varargs : Bool) :
    PastComma (parameterName arity varargs) := by
  refine .after (.sees "this") fun receiver => ?_
  cases receiver with
  | true => exact .after .skip fun _ => pastComma_parameterEnd arity varargs true
  | false =>
    exact .after .name fun t => .after (.declareValue _ t) fun _ =>
      pastComma_parameterEnd arity varargs false

/-- Reads a parameter. -/
def parameterBody : Nat × Bool → Parser (Nat × Bool ⊕ Nat × Bool) := fun (arity, varargs) => do
  discard (modifiers localModifiers)
  type
  let ellipsis ← sees "..."
  if ellipsis then skip
  parameterName arity (varargs || ellipsis)

/-- A round for parameters ends at the closing parenthesis or reads one. -/
theorem parameter_eq (counts : Nat × Bool) : parameter counts = (do
    if ← sees ")" then return .inr counts
    parameterBody counts) := rfl

/-- A parameter from its modifiers on goes past a comma. -/
theorem pastComma_parameterBody (counts : Nat × Bool) : PastComma (parameterBody counts) := by
  refine .after (Barred.modifiers _).discard fun _ => .after .type fun _ =>
    .after (.sees "...") fun ellipsis => ?_
  cases ellipsis with
  | true => exact .after .skip fun _ => pastComma_parameterName _ _
  | false => exact pastComma_parameterName _ _

/-- The name of a parameter is barred. -/
theorem Barred.parameterName (arity : Nat) (varargs : Bool) :
    Barred (Source.parameterName arity varargs) := by
  have hend : ∀ receiver, Barred (parameterEnd arity varargs receiver) := by
    refine fun receiver => dimensions.bind fun _ => (sees ",").bind fun comma => ?_
    cases comma with
    | true => exact skip.bind fun _ => pure _
    | false =>
      refine (sees ")").bind fun close => ?_
      cases close with
      | true => exact pure _
      | false => exact (failAhead _).bind fun _ => pure _
  refine (sees "this").bind fun receiver => ?_
  cases receiver with
  | true => exact skip.bind fun _ => hend true
  | false => exact name.bind fun t => (declareValue _ t).bind fun _ => hend false

/-- A parameter takes a token. -/
theorem parameterBody_shorter {counts : Nat × Bool} {r : Parsed (Nat × Bool ⊕ Nat × Bool)}
    (h : parameterBody counts s ts = .ok r) : r.rest.length < ts.length := by
  obtain ⟨m, hm, c, hc, rfl⟩ := bind_eq_ok.1 h
  obtain ⟨a, ha, d, hd, rfl⟩ := bind_eq_ok.1 hc
  have hrest : Barred (do
      let ellipsis ← sees "..."
      if ellipsis then skip
      parameterName counts.1 (counts.2 || ellipsis)) := by
    refine (Barred.sees "...").bind fun ellipsis => ?_
    cases ellipsis with
    | true => exact Barred.skip.bind fun _ => .parameterName _ _
    | false => exact .parameterName _ _
  calc d.rest.length ≤ a.rest.length := (hrest.suffix hd).length_le
    _ < m.rest.length := type_shorter ha
    _ ≤ ts.length := ((Barred.modifiers localModifiers).discard.suffix hm).length_le

/-- Where a parameter of a list is read: at the tokens of the first one, or of a later one, of a list of
which so many parameters are read. -/
inductive ParameterAt (s : Scope) : Nat × Bool → List Token → List Token → Prop
  | here {counts counts' : Nat × Bool} {facts : List Fact} {ts rest : List Token}
      (h : parameter counts s ts = .ok ⟨.inl counts', facts, rest⟩) : ParameterAt s counts ts ts
  | later {counts counts' : Nat × Bool} {facts : List Fact} {ts rest place : List Token}
      (h : parameter counts s ts = .ok ⟨.inl counts', facts, rest⟩)
      (hplace : ParameterAt s counts' rest place) : ParameterAt s counts ts place

/-- A round that asks for another one has read a parameter. -/
theorem parameter_eq_inl {counts counts' : Nat × Bool} {facts : List Fact}
    (h : parameter counts s ts = .ok ⟨.inl counts', facts, rest⟩) :
    begins ")" ts = false ∧ parameterBody counts s ts = .ok ⟨.inl counts', facts, rest⟩ := by
  rw [parameter_eq, bind_of_ok (sees_apply ")" s ts), recording_nil] at h
  cases hclose : begins ")" ts with
  | true =>
    rw [hclose] at h
    cases h
  | false =>
    rw [hclose] at h
    exact ⟨rfl, h⟩

/-- A round that is not at the closing parenthesis reads a parameter. -/
theorem parameter_of_body {counts : Nat × Bool} (h : begins ")" ts = false) :
    parameter counts s ts = parameterBody counts s ts := by
  rw [parameter_eq, bind_of_ok (sees_apply ")" s ts), recording_nil, h]
  rfl

/-- There is a parameter at a place only if the list does not end there. -/
theorem ParameterAt.begins {counts : Nat × Bool} {place : List Token}
    (h : ParameterAt s counts ts place) : begins ")" ts = false := by
  cases h with
  | here h => exact (parameter_eq_inl h).1
  | later h => exact (parameter_eq_inl h).1

/-- Parameters are read in the same way if one of them is read in the same way from elsewhere. -/
theorem ParameterAt.splice {counts : Nat × Bool} {place place' : List Token}
    (h : ParameterAt s counts ts place)
    (hplace : ∀ counts, parameter counts s place' = parameter counts s place)
    (hle : place.length ≤ place'.length) :
    ∃ us, ts = us ++ place ∧
      iterate parameter counts s (us ++ place') = iterate parameter counts s ts := by
  induction h with
  | @here counts counts' facts ts rest h =>
    have hlt := parameterBody_shorter (parameter_eq_inl h).2
    refine ⟨[], rfl, ?_⟩
    rw [List.nil_append, iterate_again h hlt,
      iterate_again ((hplace counts).trans h) (Nat.lt_of_lt_of_le hlt hle)]
  | @later counts counts' facts ts rest place h hlater ih =>
    obtain ⟨us, hus, hsame⟩ := ih hplace hle
    obtain ⟨hclose, hbody⟩ := parameter_eq_inl h
    obtain ⟨vs, b, hb, hvs, hbehind⟩ := pastComma_parameterBody counts s ts _ hbody hlater.begins
    have hlt := parameterBody_shorter hbody
    have hread : parameter counts s (vs ++ b :: (us ++ place')) =
        .ok ⟨.inl counts', facts, us ++ place'⟩ := by
      have hclose' : Source.begins ")" (vs ++ b :: (us ++ place')) = false := by
        rw [Blind.begins ")" b (.inr hb) vs _ rest]
        exact hvs ▸ hclose
      rw [parameter_of_body hclose', hbehind]
    refine ⟨vs ++ b :: us, by rw [hvs, hus]; simp, ?_⟩
    rw [List.append_assoc, List.cons_append, iterate_again hread (by simp; omega),
      iterate_again h hlt, hsame]

end Assay.Source
