import Assay.Proofs.LookaheadEnds
import Assay.Proofs.SimulationRules

/-!
# Looking ahead alike

The tests on the tokens ahead come out alike on tokens that are read alike. No test looks past a
token that ends a declaration or statement, so none sees where the two lists part. Where a test gives
the tokens after what it recognised, these are read alike again.
-/

namespace Assay.Source

/-! ## Tokens that end something -/

namespace Token.IsLast

variable {t : Token}

/-- A last token is spelled neither way a look asks for, the semicolon and the brace apart. -/
theorem spells (h : t.IsLast) (word : String) (hsemicolon : (";" == word) = false)
    (hbrace : ("\x7d" == word) = false) : t.spells word = false := by
  rcases h with h | h
  · rw [h.spells, hsemicolon]
  · rw [h.spells, hbrace]

/-- A last token is none of the words a look asks for. -/
theorem spellsAny (h : t.IsLast) (words : List String) (hsemicolon : words.contains ";" = false)
    (hbrace : words.contains "\x7d" = false) : t.spellsAny words = false := by
  rcases h with h | h
  · rw [h.spellsAny, hsemicolon]
  · rw [h.spellsAny, hbrace]

/-- A last token is no identifier. -/
theorem isIdentifier (h : t.IsLast) : t.isIdentifier = false := by
  rcases h with h | h <;> exact h.isIdentifier

/-- A last token is no name. -/
theorem isName (h : t.IsLast) : t.isName = false := by
  rcases h with h | h <;> exact h.isName

/-- A last token is no primitive type. -/
theorem isPrimitive (h : t.IsLast) : t.isPrimitive = false := by
  rcases h with h | h <;> exact h.isPrimitive

end Token.IsLast

/-! ## Tests by their steps -/

/-- Behind a token that was asked for, the list is shorter. -/
theorem tail_shorter {p : Token → Bool} {ts : List Token} (h : startsWith p ts) :
    ts.tail.length < ts.length := by
  cases ts with
  | nil => cases h
  | cons t ts => exact Nat.lt_succ_self _

/-- The look over dimensions, one round written out. -/
theorem dimensionsRest_eq (ts : List Token) :
    dimensionsRest ts =
      if begins "[" ts && begins "]" ts.tail then dimensionsRest ts.tail.tail else ts := by
  match ts with
  | [] => rfl
  | [t] => simp [dimensionsRest]
  | t :: u :: ts => rw [dimensionsRest]; rfl

/-- The look over the segments of a type, one round written out. -/
theorem segmentsRest?_eq (ts : List Token) :
    segmentsRest? ts = (optionalTypeArgumentsRest? ts).bind fun mid =>
      if begins "." mid && startsWith (·.isName) mid.tail then segmentsRest? mid.tail.tail
      else some mid := by
  rw [segmentsRest?.eq_def]
  split
  · next h => rw [h]; rfl
  · next h => rw [h]; rfl
  · next rest hrest h =>
    rw [h]
    cases rest with
    | nil => rfl
    | cons t rest =>
      cases rest with
      | nil => simp
      | cons u ts => exact absurd rfl (hrest t u ts)

/-- The look for a local declaration, written over the rests. -/
theorem isLocalDeclaration_eq (ts : List Token) :
    isLocalDeclaration ts =
      if begins "yield" ts || begins "void" ts then false
      else (typeRest? ts).any fun mid =>
        startsWith (·.isName) mid && startsWith (·.spellsAny ["=", ";", ",", ":", "["]) mid.tail := by
  unfold isLocalDeclaration
  congr 1
  split
  · next h => rw [h]; rfl
  · next hdeclared =>
    cases h : typeRest? ts with
    | none => rfl
    | some mid =>
      cases mid with
      | nil => rfl
      | cons t mid =>
        cases mid with
        | nil => simp
        | cons u rest => exact absurd h (hdeclared t u rest)

/-- A type keyword is one token, or two for an annotation type. -/
theorem typeKeyword?_length {t : Token} {ts : List Token} {kind : DeclarationKind} {length : Nat}
    (h : typeKeyword? (t :: ts) = some (kind, length)) :
    ¬ t.IsLast ∧ (length = 1 ∨ (length = 2 ∧ begins "interface" ts)) := by
  refine ⟨fun hlast => by simp [typeKeyword?, hlast.spells] at h, ?_⟩
  cases TypeKeyword.of_eq_some h with
  | classType | interfaceType | enumType | recordType => exact .inl rfl
  | annotationType _ ht => exact .inr ⟨rfl, ht⟩

/-- The look over a cast, written over the rests. -/
theorem castRest?_eq (ts : List Token) :
    castRest? ts = (boundsRest? ts).bind fun mid =>
      if begins ")" mid &&
          startsWith (startsCastOperand (startsWith (·.isPrimitive) ts)) mid.tail then
        some mid.tail
      else none := by
  unfold castRest?
  split
  · next h => rw [h]; rfl
  · next hcast =>
    cases h : boundsRest? ts with
    | none => rfl
    | some mid =>
      match mid with
      | [] => rfl
      | [t] => simp
      | t :: u :: rest => exact absurd h (hcast t u rest)

namespace Simulation

variable {σ : Simulation} {ts us : List Token}

/-! ## Tests on the next tokens -/

/-- A list that starts with a token that ends nothing has a tail that is read alike too. -/
theorem uncons_of_startsWith (h : σ.tokens ts us) {p : Token → Bool}
    (hlast : ∀ {t}, t.IsLast → p t = false) (hp : startsWith p ts) :
    ∃ t ts' u us', ts = t :: ts' ∧ us = u :: us' ∧ t.Alike σ.line u ∧ σ.tokens ts' us' := by
  rcases σ.uncons h with ⟨rfl, rfl, -⟩ | ⟨t, ts', u, us', rfl, rfl, halike, htail⟩
  · cases hp
  · refine ⟨t, ts', u, us', rfl, rfl, halike, htail.resolve_right fun hended => ?_⟩
    rw [startsWith_cons, hlast hended.1] at hp
    cases hp

/-- Behind a token that is not the last both texts stay related. -/
theorem tail_of_startsWith (h : σ.tokens ts us) {p : Token → Bool}
    (hlast : ∀ {t}, t.IsLast → p t = false) (hp : startsWith p ts) : σ.tokens ts.tail us.tail := by
  obtain ⟨t, ts', u, us', rfl, rfl, -, htail⟩ := uncons_of_startsWith h hlast hp
  exact htail

/-- Behind a word that is not the last both texts stay related. -/
theorem tail_of_begins (h : σ.tokens ts us) {word : String} (hbegins : begins word ts)
    (hsemicolon : (";" == word) = false) (hbrace : ("\x7d" == word) = false) :
    σ.tokens ts.tail us.tail :=
  tail_of_startsWith h (fun hlast => hlast.spells word hsemicolon hbrace) hbegins

/-- Two tests in a row, the first of which no token passes that ends something. -/
theorem startsWith_and_alike (h : σ.tokens ts us) {p : Token → Bool} {c : List Token → Bool}
    (hp : ∀ {t u}, t.Alike σ.line u → p t = p u) (hlast : ∀ {t}, t.IsLast → p t = false)
    (hc : ∀ {ts us}, σ.tokens ts us → c ts = c us) :
    (startsWith p ts && c ts.tail) = (startsWith p us && c us.tail) := by
  rw [← startsWith_alike h hp]
  cases htest : startsWith p ts with
  | false => rfl
  | true => rw [hc (tail_of_startsWith h hlast htest)]

/-- A word and a look behind it answer alike. -/
theorem begins_and_alike (h : σ.tokens ts us) {w : String} {c : List Token → Bool}
    (hsemicolon : (";" == w) = false) (hbrace : ("\x7d" == w) = false)
    (hc : ∀ {ts us}, σ.tokens ts us → c ts = c us) :
    (begins w ts && c ts.tail) = (begins w us && c us.tail) :=
  startsWith_and_alike h (fun halike => halike.spells w)
    (fun hlast => hlast.spells w hsemicolon hbrace) hc

/-- Dropping two tokens is taking the tail twice. -/
theorem drop_two (ts : List Token) : ts.drop 2 = ts.tail.tail := by
  rw [← List.drop_one, List.drop_tail]

/-- After two tokens that end nothing, the rest is read alike too. -/
theorem rest_of_begins_and (h : σ.tokens ts us) {w : String} {q : Token → Bool}
    (hsemicolon : (";" == w) = false) (hbrace : ("\x7d" == w) = false)
    (hlast : ∀ {t}, t.IsLast → q t = false) (hpq : begins w ts && startsWith q ts.tail) :
    σ.tokens ts.tail.tail us.tail.tail := by
  rw [Bool.and_eq_true] at hpq
  exact tail_of_startsWith (tail_of_begins h hpq.1 hsemicolon hbrace) hlast hpq.2

/-- Whether a name stands first is answered alike. -/
theorem startsName_alike (h : σ.tokens ts us) :
    startsWith (·.isName) ts = startsWith (·.isName) us :=
  startsWith_alike h fun halike => halike.isName

/-- Whether one of some words stands first is answered alike. -/
theorem startsAny_alike (h : σ.tokens ts us) (words : List String) :
    startsWith (·.spellsAny words) ts = startsWith (·.spellsAny words) us :=
  startsWith_alike h fun halike => halike.spellsAny words

/-! ## Types -/

/-- The look over type arguments stops alike. -/
theorem typeArgumentsRest?_alike (h : σ.tokens ts us) (depth : Nat) :
    Option.Rel σ.tokens (typeArgumentsRest? depth ts) (typeArgumentsRest? depth us) := by
  -- on the tokens; at a last token the look ends on both sides, and else the tests come out alike
  induction ts generalizing us depth with
  | nil =>
    rcases σ.head_alike h with ⟨-, rfl⟩ | ⟨t, ts', u, us', hts, -⟩
    · exact .none
    · cases hts
  | cons t ts ih =>
    rcases σ.uncons h with ⟨hts, -⟩ | ⟨_, _, u, us', hts, rfl, halike, htail⟩
    · cases hts
    · cases hts
      unfold typeArgumentsRest?
      rw [← halike.spells, ← halike.spells, ← halike.isIdentifier, ← halike.spellsAny]
      rcases htail with htail | ⟨hlast, -⟩
      · by_cases hless : t.spells "<"
        · rw [if_pos hless, if_pos hless]
          exact ih htail _
        · rw [if_neg hless, if_neg hless]
          by_cases hgreater : t.spells ">"
          · rw [if_pos hgreater, if_pos hgreater]
            by_cases hdepth : depth ≤ 1
            · rw [if_pos hdepth, if_pos hdepth]
              exact .some htail
            · rw [if_neg hdepth, if_neg hdepth]
              exact ih htail _
          · rw [if_neg hgreater, if_neg hgreater]
            by_cases hinside : t.isIdentifier || t.spellsAny typeArgumentOperators
            · rw [if_pos hinside, if_pos hinside]
              exact ih htail _
            · rw [if_neg hinside, if_neg hinside]
              exact .none
      · rw [hlast.spells "<" rfl rfl, hlast.spells ">" rfl rfl, hlast.isIdentifier,
          hlast.spellsAny typeArgumentOperators rfl rfl]
        exact .none

/-- The look over type arguments that may be missing stops alike. -/
theorem optionalTypeArgumentsRest?_alike (h : σ.tokens ts us) :
    Option.Rel σ.tokens (optionalTypeArgumentsRest? ts) (optionalTypeArgumentsRest? us) := by
  unfold optionalTypeArgumentsRest?
  rw [← begins_alike h]
  by_cases hless : begins "<" ts
  · rw [if_pos hless, if_pos hless]
    exact typeArgumentsRest?_alike h 0
  · rw [if_neg hless, if_neg hless]
    exact .some h

/-- What is found from two places that are alike is alike. -/
theorem rel_bind {o o' : Option (List Token)} {f f' : List Token → Option (List Token)}
    (h : Option.Rel σ.tokens o o')
    (hf : ∀ {ts us}, o = some ts → σ.tokens ts us → Option.Rel σ.tokens (f ts) (f' us)) :
    Option.Rel σ.tokens (o.bind f) (o'.bind f') := by
  cases h with
  | none => exact .none
  | some h => exact hf rfl h

/-- A question about a rest is answered alike where the rests are related. -/
theorem any_alike {o o' : Option (List Token)} {c c' : List Token → Bool}
    (h : Option.Rel σ.tokens o o') (hc : ∀ {ts us}, σ.tokens ts us → c ts = c' us) :
    o.any c = o'.any c' := by
  cases h with
  | none => rfl
  | some h => exact hc h

/-- The look over dimensions stops alike. -/
theorem dimensionsRest_alike (h : σ.tokens ts us) :
    σ.tokens (dimensionsRest ts) (dimensionsRest us) := by
  induction hn : ts.length using Nat.strongRecOn generalizing ts us with
  | ind n ih =>
    rw [dimensionsRest_eq ts, dimensionsRest_eq us,
      ← begins_and_alike h rfl rfl fun h => begins_alike h "]"]
    by_cases hpair : begins "[" ts && begins "]" ts.tail
    · rw [if_pos hpair, if_pos hpair]
      have hrest := rest_of_begins_and h rfl rfl (fun hlast => hlast.spells "]" rfl rfl) hpair
      rw [Bool.and_eq_true] at hpair
      exact ih _ (hn ▸ Nat.lt_trans (tail_shorter hpair.2) (tail_shorter hpair.1)) hrest rfl
    · rw [if_neg hpair, if_neg hpair]
      exact h

/-- The look over the segments of a type stops alike. -/
theorem segmentsRest?_alike (h : σ.tokens ts us) :
    Option.Rel σ.tokens (segmentsRest? ts) (segmentsRest? us) := by
  induction hn : ts.length using Nat.strongRecOn generalizing ts us with
  | ind n ih =>
    rw [segmentsRest?_eq ts, segmentsRest?_eq us]
    refine rel_bind (optionalTypeArgumentsRest?_alike h) fun {mid mid'} hmid h => ?_
    rw [← begins_and_alike h rfl rfl startsName_alike]
    by_cases hsegment : begins "." mid && startsWith (·.isName) mid.tail
    · rw [if_pos hsegment, if_pos hsegment]
      have hrest := rest_of_begins_and h rfl rfl (fun hlast => hlast.isName) hsegment
      rw [Bool.and_eq_true] at hsegment
      have hle := optionalTypeArgumentsRest?_le hmid
      have hlt := Nat.lt_trans (tail_shorter hsegment.2) (tail_shorter hsegment.1)
      exact ih _ (by omega) hrest rfl
    · rw [if_neg hsegment, if_neg hsegment]
      exact .some h

/-- The look over a type stops alike. -/
theorem typeRest?_alike (h : σ.tokens ts us) :
    Option.Rel σ.tokens (typeRest? ts) (typeRest? us) := by
  rcases σ.uncons h with ⟨rfl, rfl, -⟩ | ⟨t, ts', u, us', rfl, rfl, halike, htail⟩
  · exact .none
  · rw [typeRest?, typeRest?, ← halike.isPrimitive, ← halike.isName]
    rcases htail with htail | ⟨hlast, -⟩
    · by_cases hprimitive : t.isPrimitive
      · rw [if_pos hprimitive, if_pos hprimitive]
        exact .some (dimensionsRest_alike htail)
      · rw [if_neg hprimitive, if_neg hprimitive]
        by_cases hname : t.isName
        · rw [if_pos hname, if_pos hname, Option.map_eq_bind, Option.map_eq_bind]
          exact rel_bind (segmentsRest?_alike htail) fun _ h => .some (dimensionsRest_alike h)
        · rw [if_neg hname, if_neg hname]
          exact .none
    · rw [hlast.isPrimitive, hlast.isName]
      exact .none

/-! ## Declarations -/

/-- The look for a local declaration answers alike. -/
theorem isLocalDeclaration_alike (h : σ.tokens ts us) :
    isLocalDeclaration ts = isLocalDeclaration us := by
  rw [isLocalDeclaration_eq, isLocalDeclaration_eq, begins_alike h "yield", begins_alike h "void",
    any_alike (typeRest?_alike h) fun h => startsWith_and_alike h
      (fun halike => halike.isName) (fun hlast => hlast.isName) fun h => startsAny_alike h _]

/-- The look for a type keyword answers alike. -/
theorem typeKeyword?_alike (h : σ.tokens ts us) : typeKeyword? ts = typeKeyword? us := by
  rcases σ.uncons h with ⟨rfl, rfl, -⟩ | ⟨t, ts', u, us', rfl, rfl, halike, htail⟩
  · rfl
  · rw [typeKeyword?, typeKeyword?]
    simp only [← halike.spells, Bool.and_assoc]
    rcases htail with htail | ⟨hlast, -⟩
    · rw [begins_alike htail "interface", startsWith_and_alike htail (fun halike => halike.isName)
        (fun hlast => hlast.isName) fun h => startsAny_alike h _]
    · simp only [hlast.spells "@" rfl rfl, hlast.spells "record" rfl rfl, Bool.false_and]

/-- Passing over the tokens of a type keyword. -/
theorem drop_typeKeyword (h : σ.tokens ts us) {kind : DeclarationKind} {length : Nat}
    (hkeyword : typeKeyword? ts = some (kind, length)) :
    σ.tokens (ts.drop length) (us.drop length) := by
  rcases σ.uncons h with ⟨rfl, rfl, -⟩ | ⟨t, ts', u, us', rfl, rfl, halike, htail⟩
  · cases hkeyword
  · obtain ⟨hnot, hlength⟩ := typeKeyword?_length hkeyword
    have htokens : σ.tokens ts' us' := htail.resolve_right fun hlast => hnot hlast.1
    rcases hlength with rfl | ⟨rfl, hinterface⟩
    · exact htokens
    · rw [List.drop_succ_cons, List.drop_succ_cons, List.drop_one, List.drop_one]
      exact tail_of_begins htokens hinterface rfl rfl

/-! ## Casts -/

/-- The look over the bounds of a cast stops alike. -/
theorem boundsRest?_alike (h : σ.tokens ts us) :
    Option.Rel σ.tokens (boundsRest? ts) (boundsRest? us) := by
  induction hn : ts.length using Nat.strongRecOn generalizing ts us with
  | ind n ih =>
    rw [boundsRest?_eq ts, boundsRest?_eq us]
    refine rel_bind (typeRest?_alike h) fun {mid mid'} hmid h => ?_
    rw [← begins_alike h "&"]
    by_cases hmore : begins "&" mid
    · rw [if_pos hmore, if_pos hmore]
      have hlt := typeRest?_shorter hmid
      have hshorter := tail_shorter hmore
      exact ih _ (by omega) (tail_of_begins h hmore rfl rfl) rfl
    · rw [if_neg hmore, if_neg hmore]
      exact .some h

/-- Whether a token can start the operand of a cast is answered alike. -/
theorem startsCastOperand_alike {t u : Token} (h : t.Alike σ.line u) (primitive : Bool) :
    startsCastOperand primitive t = startsCastOperand primitive u := by
  rcases h.1 with ⟨hkind, htext⟩ | ⟨ht, hu⟩
  · simp only [startsCastOperand, h.isLiteral, h.isIdentifier, h.isName, htext]
  · simp only [startsCastOperand, ht, hu, if_true]

/-- The look over a cast stops alike. -/
theorem castRest?_alike (h : σ.tokens ts us) :
    Option.Rel σ.tokens (castRest? ts) (castRest? us) := by
  have hprimitive : startsWith (·.isPrimitive) ts = startsWith (·.isPrimitive) us :=
    startsWith_alike h fun halike => halike.isPrimitive
  rw [castRest?_eq ts, castRest?_eq us, ← hprimitive]
  refine rel_bind (boundsRest?_alike h) fun {mid mid'} _ h => ?_
  rw [← begins_and_alike h rfl rfl fun h =>
    startsWith_alike h fun halike => startsCastOperand_alike halike _]
  split
  · next hcast =>
    rw [Bool.and_eq_true] at hcast
    exact .some (tail_of_begins h hcast.1 rfl rfl)
  · exact .none

end Simulation

end Assay.Source
