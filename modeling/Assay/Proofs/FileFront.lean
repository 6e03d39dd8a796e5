import Assay.Proofs.SharedStart

/-!
# Tokens in front of others

A parser that stops within the tokens it is given does the same if others come behind them: it does
not look past the last token, which ends something. There is one exception: the search for the colon
of a for-each loop goes on until a bracket closes. This is said by a simulation of a list alone and
the same list in front of others.
-/

namespace Assay.Source

open Assay.Source.Parser

variable {α : Type} {ts us rest inside z : List Token} {stack : List String} {s s' : Scope}

/-! ## Tests in front of more tokens -/

/-- Whether a `for` of the code has the header of a for-each loop is told within the code: the tokens
behind it have no part in that. -/
def HeadersDecided (code z : List Token) : Prop :=
  ∀ k l ts, k :: l :: ts <:+ code → k.spells "for" → l.spells "(" →
    isForEach 0 0 (ts ++ z) = isForEach 0 0 ts

/-- Brackets that match close the header of every loop. -/
theorem headersDecided_of_balanced (hlexical : Lexical ts) (h : Balanced ts) (z : List Token) :
    HeadersDecided ts z := by
  rintro k l us ⟨pre, rfl⟩ - hopen
  have hsign : l.IsSign "(" := (hlexical l (by simp)).isSign (by decide) hopen
  rw [Balanced, List.append_cons, unclosed_append] at h
  obtain ⟨due, -, hdue⟩ := Option.bind_eq_some_iff.1 h
  rw [unclosed_opener (hsign.opens rfl)] at hdue
  have hsame : isForEach 0 0 (us ++ z) = isForEach 0 0 (us ++ []) :=
    isForEach_of_unclosed (by rwa [List.nil_append] : unclosed ([] ++ ")" :: due) us = some []) 0 z []
  rwa [List.append_nil] at hsame

/-! ## The simulation -/

/-- The tokens come to an end of their own before `z`. -/
structure Joins (z ts : List Token) : Prop where
  lexical : Lexical ts
  ends : ∀ t ∈ ts.getLast?, t.Ends
  headers : HeadersDecided ts z

theorem Joins.of_suffix (h : Joins z ts) (hsuffix : rest <:+ ts) : Joins z rest where
  lexical := h.lexical.of_suffix hsuffix
  ends := by
    obtain ⟨pre, rfl⟩ := hsuffix
    refine fun t ht => h.ends t ?_
    rw [List.getLast?_append, Option.mem_def, Option.mem_def.1 ht]
    rfl
  headers := fun k l us hus => h.headers k l us (hus.trans hsuffix)

/-- A list alone and in front of `z`. -/
def Simulation.front (z : List Token) : Simulation where
  line := Eq
  tokens := fun ts us => ts ≠ [] ∧ Joins z ts ∧ us = ts ++ z
  ended := fun ts us => ts = [] ∧ us = z
  kept := fun ts => ts ≠ []
  whole := False
  strict := False
  uncons := by
    rintro ts _ ⟨hne, hts, rfl⟩
    obtain ⟨t, ts, rfl⟩ := List.exists_cons_of_ne_nil hne
    refine .inr ⟨t, ts, t, ts ++ z, rfl, rfl, .refl t, ?_⟩
    by_cases hnil : ts = []
    · subst hnil
      exact .inr ⟨(hts.lexical t (by simp)).isLast (hts.ends t rfl), rfl, rfl⟩
    · exact .inl ⟨hnil, hts.of_suffix (List.suffix_cons t ts), rfl⟩
  shorter := by
    rintro _ _ _ _ ⟨-, -, rfl⟩ ⟨-, -, rfl⟩
    simp only [List.length_append]
    omega
  kept_of_suffix := fun hsuffix hkept hnil => hkept (List.suffix_nil.1 (hnil ▸ hsuffix))
  not_kept := fun hended hkept => hkept hended.1
  kept_of_ended := fun _ _ hlt hnil => by simp [hnil] at hlt
  kept_of_strict := False.elim
  whole_of_strict := False.elim
  splitGroup := by
    rintro l l' ts us ⟨-, hts, hus⟩ hopen
    obtain ⟨rfl, rfl⟩ : l' = l ∧ us = ts ++ z := List.cons.inj hus
    have hsign : l'.IsSign "(" := (hts.lexical l' (by simp)).isSign (by decide) hopen
    rw [hsign.opens rfl, Option.toList_some]
    cases hsplit : Source.splitGroup [")"] ts with
    | error e => cases e <;> exact False.elim
    | ok parts =>
      obtain ⟨inside, rest⟩ := parts
      obtain ⟨r, rfl, hend⟩ := GroupEnd.of_splitGroup hsplit
      have hr : r.Closes ")" := hend.closes (List.cons_ne_nil _ _)
      have hbefore := hend.splitGroup (rest ++ z)
      rw [← List.cons_append, ← List.append_assoc] at hbefore
      refine ⟨inside, rest ++ z, hbefore, forall₂_alike_refl inside, ?_, ?_, rfl⟩
      · -- a parenthesis is not the last of the tokens
        rintro rfl
        have hlast : (l' :: inside ++ [r]).getLast? = some r := List.getLast?_concat
        rcases hts.ends r hlast with hends | hends <;> simp [Token.spells, hr.2] at hends
      · exact hts.of_suffix ⟨l' :: (inside ++ [r]), by simp⟩
  isForEach := by
    rintro ts _ ⟨-, hts, rfl⟩ hfor hopen
    obtain ⟨k, ts, rfl, hk⟩ := begins_eq_true hfor
    obtain ⟨l, ts, rfl, hl⟩ := begins_eq_true hopen
    exact (hts.headers k l ts (List.suffix_refl _) hk hl).symm

/-- A run that stops within the tokens, or at their end with a last part, is the same in front of
`z`. -/
theorem Simulation.Sim.before {p q : Parser α} {last : Bool}
    (h : (Simulation.front z).Sim True last Eq p q) (hscope : s.enclosing = s'.enclosing)
    {r : Parsed α} (hrun : p s ts = .ok r) (hts : Joins z ts) (hne : ts ≠ [])
    (hrest : r.rest = [] → last) : q s' (ts ++ z) = .ok ⟨r.value, r.facts, r.rest ++ z⟩ := by
  have halike := (h ts (ts ++ z)).alike ⟨trivial, hne, hts, rfl⟩ s s' ⟨hscope, nofun⟩
  rw [hrun] at halike
  have hreached : (Simulation.front z).Reached last r.rest := by
    by_cases hnil : r.rest = []
    · exact .inr ⟨hrest hnil, z, hnil, rfl⟩
    · exact .inl hnil
  obtain ⟨⟨value, facts, rest⟩, hrun', rfl, hfacts, hleft⟩ := halike hreached
  have hsame : rest = r.rest ++ z := by
    rcases hleft with ⟨-, -, hrest⟩ | ⟨-, hnil, hrest⟩
    · exact hrest
    · rw [hnil, List.nil_append]
      exact hrest
  rw [hrun', hsame, eq_of_forall₂_alike hfacts]

/-! ## Parts that end -/

/-- The rest comes behind a token that ends something. -/
def BehindEnd (ts rest : List Token) : Prop := ∃ pre t, ts = pre ++ t :: rest ∧ t.Ends

theorem BehindEnd.suffix (h : BehindEnd ts rest) : rest <:+ ts := by
  obtain ⟨pre, t, rfl, -⟩ := h
  exact ⟨pre ++ [t], by simp⟩

theorem BehindEnd.of_suffix (h : BehindEnd us rest) (hsuffix : us <:+ ts) : BehindEnd ts rest := by
  obtain ⟨pre, t, rfl, ht⟩ := h
  obtain ⟨before, rfl⟩ := hsuffix
  exact ⟨before ++ pre, t, by simp, ht⟩

/-- The rest is all of the tokens, or it comes behind a token that ends something. -/
def StopsAt (ts rest : List Token) : Prop := rest = ts ∨ BehindEnd ts rest

theorem StopsAt.suffix (h : StopsAt ts rest) : rest <:+ ts := by
  rcases h with rfl | h
  · exact List.suffix_refl _
  · exact h.suffix

theorem StopsAt.trans (h : StopsAt ts us) (h' : StopsAt us rest) : StopsAt ts rest := by
  rcases h' with rfl | h'
  · exact h
  · exact .inr (h'.of_suffix h.suffix)

/-- On these tokens a parser stops behind one that ends something, and in front of `z` another
parser does the same. -/
structure Separate (z : List Token) (s s' : Scope) (p q : Parser Unit) (ts : List Token) : Prop where
  behindEnd : ∀ r, Lexical ts → p s ts = .ok r → BehindEnd ts r.rest
  before : ∀ r, Joins z ts → ts ≠ [] → p s ts = .ok r → q s' (ts ++ z) = .ok ⟨(), r.facts, r.rest ++ z⟩

theorem Simulation.Sim.separate {p q : Parser Unit}
    (h : (Simulation.front z).Sim True true Eq p q) (hscope : s.enclosing = s'.enclosing)
    (ts : List Token) : Separate z s s' p q ts where
  behindEnd := fun r _ hr => ((h ts ts).forward s r hr).2 rfl
  before := fun _ hts hne hr => h.before hscope hr hts hne fun _ => rfl

end Assay.Source
