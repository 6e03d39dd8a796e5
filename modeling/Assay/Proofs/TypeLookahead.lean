import Assay.Proofs.BracketBalance
import Assay.Proofs.SimulationLookahead

/-!
# Types found by looking ahead

The grammar of types is written twice, as a search for the end of a type that allows few tokens and
as a parser that allows annotations and almost anything between angle brackets. In the code of a text
the parser follows the search: where the search finds an end, and no dot comes there that the parser
may read on from, the parser reads up to that end and records nothing (`type_lookahead_agrees`).
-/

namespace Assay.Source

variable {t : Token} {ts mid rest : List Token} {depth : Nat} {s : Scope}

/-- In the code of a text a name is an identifier, and not a sign. -/
theorem Token.IsLexical.isIdentifier_of_isName (h : t.IsLexical) (ht : t.isName) :
    t.IsIdentifier := by
  have hkind := (Bool.and_eq_true_iff.1 ht).1
  exact ⟨ht, h (by simpa [Token.isIdentifier] using hkind)⟩

/-- If no dot comes behind the square brackets of a type, none comes before them either. -/
theorem begins_dot_of_dimensionsRest (h : begins "." (dimensionsRest ts) = false) :
    begins "." ts = false := by
  cases ts with
  | nil => rfl
  | cons t ts =>
    by_contra hdot
    rw [Bool.not_eq_false, begins_cons] at hdot
    have hopener : begins "[" (t :: ts) = false := by
      rw [begins_cons, Token.spells_of_spells hdot]
      rfl
    rw [dimensionsRest_eq, hopener, Bool.false_and, if_neg (by simp), begins_cons, hdot] at h
    cases h

namespace Parser

/-! ## Type arguments -/

/-- From inside type arguments the parser goes to the bracket that the search finds. -/
theorem iterate_angleRound_of_found (hlexical : Lexical ts) (hdepth : 0 < depth)
    (h : typeArgumentsRest? depth ts = some rest) :
    iterate angleRound depth s ts = .ok ⟨(), [], rest⟩ := by
  fun_induction typeArgumentsRest? depth ts with
  | case1 => cases h
  | case2 depth t ts hless ih =>
    rw [iterate_again (angleRound_less hless depth s ts) (by simp), recording_nil]
    exact ih hlexical.tail (Nat.succ_pos depth) h
  | case3 depth t ts hless hgreater hlast =>
    have hround := angleRound_greater hgreater depth s ts
    rw [if_pos hlast] at hround
    cases h
    exact iterate_done hround
  | case4 depth t ts hless hgreater hlast ih =>
    have hround := angleRound_greater hgreater depth s ts
    rw [if_neg hlast] at hround
    rw [iterate_again hround (by simp), recording_nil]
    exact ih hlexical.tail (by omega) h
  | case5 depth t ts hless hgreater hinside ih =>
    rw [iterate_angleRound_plain (by simpa using hless) (by simpa using hgreater)
      (hlexical.head.not_ends_arguments hinside)]
    exact ih hlexical.tail hdepth h
  | case6 => cases h

theorem skipTypeArguments_of_found (hlexical : Lexical ts) (hless : begins "<" ts)
    (h : typeArgumentsRest? 0 ts = some rest) : skipTypeArguments s ts = .ok ⟨(), [], rest⟩ := by
  obtain ⟨t, ts, rfl, ht⟩ := begins_eq_true hless
  rw [typeArgumentsRest?_less ht] at h
  have hread : skipTypeArguments s (t :: ts) = recording [] (iterate angleRound 1 s ts) :=
    bind_of_ok (expect_cons ht s ts)
  rw [hread, recording_nil]
  exact iterate_angleRound_of_found hlexical.tail Nat.one_pos h

theorem skipOptionalTypeArguments_of_found (hlexical : Lexical ts)
    (h : optionalTypeArgumentsRest? ts = some rest) :
    skipOptionalTypeArguments s ts = .ok ⟨(), [], rest⟩ := by
  rw [optionalTypeArgumentsRest?] at h
  by_cases hless : begins "<" ts
  · rw [if_pos hless] at h
    rw [skipOptionalTypeArguments, bind_of_ok (sees_apply "<" s ts), hless, if_pos rfl,
      skipTypeArguments_of_found hlexical hless h, recording_nil]
  · rw [if_neg hless] at h
    cases h
    exact skipOptionalTypeArguments_of_not_less (by simpa using hless)

/-! ## Types -/

/-- After the first name of a type, the loop over its names goes to the end that the search finds. -/
theorem repeatWhile_typeSegment_of_found (hlexical : Lexical ts) (h : segmentsRest? ts = some rest)
    (hdot : begins "." rest = false) :
    ∃ mid, mid.length ≤ ts.length ∧ skipOptionalTypeArguments s ts = .ok ⟨(), [], mid⟩ ∧
      repeatWhile typeSegment s mid = .ok ⟨(), [], rest⟩ := by
  -- the search and the loop take the same steps, a segment with its type arguments each
  fun_induction segmentsRest? ts with
  | case1 => cases h
  | case2 ts dot segment tail hopt hnamed ih =>
    have hmid : Lexical (dot :: segment :: tail) :=
      hlexical.of_suffix (optionalTypeArgumentsRest?_suffix hopt)
    obtain ⟨hdot', hsegment⟩ := Bool.and_eq_true_iff.1 hnamed
    obtain ⟨mid, hle, harguments, hloop⟩ := ih hmid.tail.tail h
    have hround : typeSegment s (dot :: segment :: tail) = .ok ⟨true, [], mid⟩ :=
      typeSegment_more (hmid.head.isSign (by decide) hdot')
        (hmid.tail.head.isIdentifier_of_isName hsegment) harguments
    have hlt : mid.length < (dot :: segment :: tail).length := by
      simp only [List.length_cons]
      omega
    refine ⟨dot :: segment :: tail, optionalTypeArgumentsRest?_le hopt,
      skipOptionalTypeArguments_of_found hlexical hopt, ?_⟩
    rw [repeatWhile_again hround hlt, hloop]
    rfl
  | case3 ts dot segment tail hopt =>
    cases h
    exact ⟨_, optionalTypeArgumentsRest?_le hopt, skipOptionalTypeArguments_of_found hlexical hopt,
      repeatWhile_done (typeSegment_done hdot)⟩
  | case4 ts tail hshort hopt =>
    cases h
    exact ⟨_, optionalTypeArgumentsRest?_le hopt, skipOptionalTypeArguments_of_found hlexical hopt,
      repeatWhile_done (typeSegment_done hdot)⟩

theorem type_of_found (hlexical : Lexical ts) (h : typeRest? ts = some rest)
    (hdot : begins "." rest = false) : type s ts = .ok ⟨(), [], rest⟩ := by
  cases ts with
  | nil => cases h
  | cons t ts =>
    rw [typeRest?] at h
    by_cases hprimitive : t.isPrimitive
    · rw [if_pos hprimitive] at h
      cases h
      exact type_of_isPrimitive hprimitive
        (hlexical.head.spells_of_isIdentifier (Bool.and_eq_true_iff.1 hprimitive).1 (by decide)) s ts
    · rw [if_neg hprimitive] at h
      by_cases hname : t.isName
      · rw [if_pos hname] at h
        obtain ⟨mid, hmid, rfl⟩ := Option.map_eq_some_iff.1 h
        obtain ⟨next, -, harguments, hloop⟩ := repeatWhile_typeSegment_of_found hlexical.tail hmid
          (begins_dot_of_dimensionsRest hdot)
        exact type_named (hlexical.head.isIdentifier_of_isName hname) harguments hloop
      · rw [if_neg hname] at h
        cases h

end Parser

/-! ## Local declarations -/

/-- A local declaration is found only where a type ends at a name. -/
theorem typeRest?_of_isLocalDeclaration (h : isLocalDeclaration ts) :
    ∃ x rest, typeRest? ts = some (x :: rest) ∧ x.isName := by
  rw [isLocalDeclaration_eq] at h
  split at h
  · cases h
  · obtain ⟨mid, hmid, hdeclared⟩ := (Option.any_eq_true _ _).1 h
    obtain ⟨x, rest, rfl, hx⟩ := startsWith_eq_true (Bool.and_eq_true_iff.1 hdeclared).1
    exact ⟨x, rest, hmid, hx⟩

/-- The parser of local declarations, at a name, declares it and goes on with what follows it. -/
theorem Parser.localDeclaration_of_type {nested : Construct → Parser Unit} {x : Token}
    (h : type s ts = .ok ⟨(), [], x :: rest⟩) (hx : x.isName) :
    localDeclaration nested s ts =
      recording (declaredValue .variableDeclarator s.owner x)
        ((initializer nested >>= fun _ => afterCommas (localVariable nested)) s rest) := by
  rw [localDeclaration, bind_of_ok h, recording_nil, localVariable, bind_bind,
    bind_of_ok (name_cons hx s rest), recording_nil, bind_bind,
    bind_of_ok (declareValue_apply .variableDeclarator x s rest)]

/-- Looking ahead for a type agrees with reading one, at every place of a text. Where a local
declaration is found, the parser of types reads up to the end that was found and records nothing; a
name is there, and the parser of local declarations declares it. In general a type is read up to the
end that was found, unless a dot comes there, behind which the parser may find a further annotated
name; and type arguments are passed over up to the end that was found. -/
theorem type_lookahead_agrees {text : String} {all : List Token} (h : tokens text = .ok all)
    (hts : ts <:+ codeOf all) (s : Scope) :
    (isLocalDeclaration ts → ∃ x rest, typeRest? ts = some (x :: rest) ∧ x.isName ∧
      Parser.type s ts = .ok ⟨(), [], x :: rest⟩ ∧
      ∀ nested, Parser.localDeclaration nested s ts =
        recording (Parser.declaredValue .variableDeclarator s.owner x)
          ((Parser.initializer nested >>= fun _ =>
            Parser.afterCommas (Parser.localVariable nested)) s rest)) ∧
    (∀ rest, typeRest? ts = some rest → begins "." rest = false →
      Parser.type s ts = .ok ⟨(), [], rest⟩) ∧
    ∀ rest, begins "<" ts → typeArgumentsRest? 0 ts = some rest →
      Parser.skipTypeArguments s ts = .ok ⟨(), [], rest⟩ := by
  have hlexical : Lexical ts := (lexical_codeOf h).of_suffix hts
  refine ⟨fun hlocal => ?_, fun rest => Parser.type_of_found hlexical,
    fun rest => Parser.skipTypeArguments_of_found hlexical⟩
  obtain ⟨x, rest, hrest, hx⟩ := typeRest?_of_isLocalDeclaration hlocal
  have hxs : Lexical (x :: rest) := hlexical.of_suffix (typeRest?_suffix hrest)
  have hdot : begins "." (x :: rest) = false :=
    (hxs.head.isIdentifier_of_isName hx).spells "." (by decide)
  have htype := Parser.type_of_found (s := s) hlexical hrest hdot
  exact ⟨x, rest, hrest, hx, htype, fun nested => Parser.localDeclaration_of_type htype hx⟩

/-- A type with arguments inside its arguments, a further name behind them and square brackets:
`a.B<K, List<? extends V[]>>.C[] e = x;`. -/
theorem type_lookahead_agrees_nested :
    let code := [Token.word "a" 1, .sign "." 1, .word "B" 1, .sign "<" 1, .word "K" 1, .sign "," 1,
      .word "List" 1, .sign "<" 1, .sign "?" 1, .word "extends" 1, .word "V" 1, .sign "[" 1,
      .sign "]" 1, .sign ">" 1, .sign ">" 1, .sign "." 1, .word "C" 1, .sign "[" 1, .sign "]" 1,
      .word "e" 1, .sign "=" 1, .word "x" 1, .sign ";" 1]
    tokens "a.B<K, List<? extends V[]>>.C[] e = x;" = .ok code ∧ isLocalDeclaration code ∧
      typeRest? code = some (code.drop 19) ∧ typeArgumentsRest? 0 (code.drop 3) = some (code.drop 15) ∧
      ∀ s, Parser.type s code = .ok ⟨(), [], code.drop 19⟩ ∧
        Parser.skipTypeArguments s (code.drop 3) = .ok ⟨(), [], code.drop 15⟩ ∧
        ∀ nested, Parser.localDeclaration nested s code =
          recording (Parser.declaredValue .variableDeclarator s.owner (.word "e" 1))
            ((Parser.initializer nested >>= fun _ =>
              Parser.afterCommas (Parser.localVariable nested)) s (code.drop 20)) := by
  intro code
  have htokens : tokens "a.B<K, List<? extends V[]>>.C[] e = x;" = .ok code := by decide +kernel
  have hcode : codeOf code = code := by decide
  have hplace : ∀ n, code.drop n <:+ codeOf code := fun n => by
    rw [hcode]
    exact List.drop_suffix n code
  have hlocal : isLocalDeclaration code := by decide +kernel
  have hrest : typeRest? code = some (code.drop 19) := by decide +kernel
  have harguments : typeArgumentsRest? 0 (code.drop 3) = some (code.drop 15) := by decide +kernel
  refine ⟨htokens, hlocal, hrest, harguments, fun s => ?_⟩
  -- at the start for the type and the declaration, and at the angle for the type arguments
  obtain ⟨hdeclares, hreads, -⟩ := type_lookahead_agrees htokens (hplace 0) s
  obtain ⟨-, -, hskips⟩ := type_lookahead_agrees htokens (hplace 3) s
  obtain ⟨x, rest, hx, -, -, hdeclared⟩ := hdeclares hlocal
  cases hrest.symm.trans hx
  exact ⟨hreads _ hrest (by decide), hskips _ (by decide) harguments, hdeclared⟩

end Assay.Source
