import Assay.Proofs.MemberHeaders

/-!
# Annotations of members and parameters

An annotation in front of a member or of a parameter is passed over with the modifiers. Main
statement: a member is read with an annotation as it is read without, but for the line of what it
declares (`annotations_transparent`).
-/

namespace Assay.Source

open Assay.Source.Parser

variable {α β : Type} {as m ns ts us z : List Token} {s : Scope} {nested : Construct → Parser Unit}
  {allowed : List String} {line line' : Nat}

/-! ## Annotations -/

/-- An annotation: a qualified name behind `@`, with arguments in parentheses or without. -/
inductive Annotation : List Token → Prop
  | marker {sign : Token} {ns : List Token} (hsign : sign.IsSign "@") (hns : DottedName ns) :
      Annotation (sign :: ns)
  | arguments {sign l r : Token} {ns as : List Token} (hsign : sign.IsSign "@") (hns : DottedName ns)
      (hl : l.IsSign "(") (has : Balanced as) (hr : r.IsSign ")") :
      Annotation (sign :: (ns ++ l :: (as ++ [r])))

/-- Neither a further part of a name nor arguments come next. -/
structure EndsAnnotation (ts : List Token) : Prop where
  dot : begins "." ts = false
  parenthesis : begins "(" ts = false

/-- A dotted name is its first name and the parts behind it. -/
theorem DottedName.parts (h : DottedName ns) (hts : begins "." ts = false) (s : Scope) :
    ∃ t us parts, ns = t :: us ∧ t.IsIdentifier ∧
      gather namePart s (us ++ ts) = .ok ⟨parts, [], ts⟩ := by
  induction h with
  | one ht => exact ⟨_, [], [], rfl, ht, gather_done (namePart_none hts)⟩
  | @more t dot ns ht hdot _ ih =>
    obtain ⟨u, us, parts, rfl, hu, hparts⟩ := ih
    have hpart : (dot.spells "." && u.isName) = true := by simp [hdot.spells, hu.isName]
    have hlt : (us ++ ts).length < (dot :: u :: us ++ ts).length := by
      simp only [List.cons_append, List.length_cons]
      omega
    exact ⟨t, dot :: u :: us, u.text :: parts, rfl, ht,
      gather_again (namePart_some hpart s _) hlt hparts⟩

/-- A qualified name is read up to what does not go on with it. -/
theorem DottedName.read (h : DottedName ns) (hts : begins "." ts = false) (s : Scope) :
    discard dottedName s (ns ++ ts) = .ok ⟨(), [], ts⟩ := by
  obtain ⟨t, us, parts, rfl, ht, hparts⟩ := h.parts hts s
  have hname : dottedName s (t :: us ++ ts) =
      .ok ⟨String.intercalate "." (t.text :: parts), [], ts⟩ := by
    rw [dottedName_eq, List.cons_append, bind_of_ok (name_cons ht.isName s _), bind_of_ok hparts]
    rfl
  exact discard_of_ok hname

/-- A balanced group is skipped. -/
theorem skipGroup_balanced {l r : Token} (hl : l.IsSign "(") (has : Balanced as) (hr : r.IsSign ")")
    (s : Scope) (ts : List Token) :
    skipGroup s (l :: (as ++ r :: ts)) = .ok ⟨(), [], ts⟩ := by
  have hsplit : splitGroup l.closer?.toList (as ++ r :: ts) = .ok (as, ts) := by
    rw [hl.opens rfl]
    exact has.bracketed.splitGroup_eq (hr.closes (by decide)) ts
  exact skipGroup_of_ok hsplit s

/-- An annotation is read to its end, and records nothing. -/
theorem Annotation.read (h : Annotation as) (hts : EndsAnnotation ts) (s : Scope) :
    annotationItem s (as ++ ts) = .ok ⟨(), [], ts⟩ := by
  cases h with
  | marker hsign hns =>
    rw [List.cons_append, annotationItem, bind_of_ok (skip_cons s _ _), recording_nil,
      bind_of_ok (hns.read hts.dot s), bind_of_ok (sees_apply "(" s _), hts.parenthesis]
    rfl
  | @arguments sign l r ns as hsign hns hl has hr =>
    have hopen : begins "." (l :: (as ++ r :: ts)) = false := by simp [hl.spells]
    rw [show sign :: (ns ++ l :: (as ++ [r])) ++ ts = sign :: (ns ++ l :: (as ++ r :: ts)) by simp,
      annotationItem, bind_of_ok (skip_cons s _ _), recording_nil, bind_of_ok (hns.read hopen s),
      bind_of_ok (sees_apply "(" s _), begins_cons, if_pos (by simp [hl.spells]),
      skipGroup_balanced hl has hr]
    rfl

theorem DottedName.not_interface (h : DottedName ns) (ts : List Token) :
    begins "interface" (ns ++ ts) = false := by
  cases h with
  | one ht => exact ht.spells _ (by decide)
  | more ht => exact ht.spells _ (by decide)

/-- An annotation is seen where it begins. -/
theorem Annotation.begins (h : Annotation as) (ts : List Token) :
    beginsAnnotations (as ++ ts) = true := by
  cases h with
  | marker hsign hns => simp [beginsAnnotations, hsign.spells, hns.not_interface]
  | arguments hsign hns => simp [beginsAnnotations, hsign.spells, hns.not_interface]

theorem Annotation.not_begins (h : Annotation as) {word : String} (hword : "@" ≠ word)
    (ts : List Token) : Source.begins word (as ++ ts) = false := by
  have hat := (Bool.and_eq_true_iff.1 (h.begins [])).1
  rw [List.append_nil] at hat
  exact begins_other hat hword ts

/-- Annotations are passed over. -/
theorem Annotation.skipAnnotations_append (h : Annotation as) (hts : EndsAnnotation ts) (s : Scope) :
    skipAnnotations s (as ++ ts) = skipAnnotations s ts := by
  have hlt : ts.length < (as ++ ts).length := by
    have hpos : 0 < as.length := by cases h <;> exact Nat.succ_pos _
    rw [List.length_append]
    omega
  rw [skipAnnotations_eq, items_again (h.begins ts) (h.read hts s) hlt, recording_nil]

/-- What modifiers are read behind annotations. -/
theorem modifiers_behind {r : Parsed (List String)} (hat : "@" ∉ allowed)
    (hbegins : beginsAnnotations ts) (h : modifiers allowed s ts = .ok r) :
    ∃ a, skipAnnotations s ts = .ok a ∧ modifiers allowed s a.rest = .ok r := by
  have hnone : r.facts = [] := mute_modifiers allowed s ts r h
  rw [modifiers_eq] at h
  obtain ⟨g, hg, b, hb, rfl⟩ := bind_eq_ok.1 h
  cases hb
  have hround : modifierRound allowed s ts = (do skipAnnotations; return some []) s ts := by
    obtain ⟨t, us, rfl, ht⟩ := begins_eq_true (Bool.and_eq_true_iff.1 hbegins).1
    have htext : t.text = "@" := by
      simp only [Token.spells, Bool.and_eq_true, beq_iff_eq] at ht
      exact ht.2
    refine modifierRound_annotations ?_ ?_ hbegins s
    · simp [Token.spellsAny, htext, hat]
    · simp [beginsNonSealed, Token.spells, htext]
  rcases gather_eq_ok hg with ⟨facts, rest, hnext, rfl⟩ | ⟨part, facts, rest, more, hnext, -, hmore, rfl⟩
  all_goals
    rw [hround] at hnext
    obtain ⟨a, ha, heq⟩ := giving_eq_ok hnext
    cases heq
  refine ⟨a, ha, ?_⟩
  rw [modifiers_eq, bind_of_ok hmore]
  simp only [List.append_nil, List.append_eq_nil_iff] at hnone
  simp [hnone]

/-- Modifiers are read behind an annotation as they are read without it. -/
theorem Annotation.modifiers_append {r : Parsed (List String)} (h : Annotation as)
    (hat : "@" ∉ allowed) (hts : EndsAnnotation ts) (hr : modifiers allowed s ts = .ok r) :
    modifiers allowed s (as ++ ts) = .ok r := by
  have hskip := h.skipAnnotations_append hts s
  cases hbegins : beginsAnnotations ts with
  | true =>
    obtain ⟨a, ha, hmore⟩ := modifiers_behind hat hbegins hr
    exact modifiers_annotated hat (h.begins ts) (hskip.trans ha) hmore
  | false =>
    rw [skipAnnotations_none hbegins] at hskip
    exact modifiers_annotated hat (h.begins ts) hskip hr

/-! ## What goes on with an annotation -/

theorem Token.IsLexical.endsAnnotation {t : Token} (ht : t.IsLexical)
    (h : ∀ sign ∈ [".", "("], ¬ t.IsSign sign) : EndsAnnotation (t :: ts) where
  dot := Bool.eq_false_iff.2 fun hdot => h "." (by simp) (ht.isSign (by decide) hdot)
  parenthesis := Bool.eq_false_iff.2 fun hopen => h "(" (by simp) (ht.isSign (by decide) hopen)

theorem Token.IsSign.unmodified {t : Token} {sign : String} (h : t.IsSign sign)
    (hsign : sign ∉ allowed ++ ["non", "@"]) (ts : List Token) : Unmodified allowed (t :: ts) := by
  simp only [List.mem_append, List.mem_cons, List.not_mem_nil, or_false, not_or] at hsign
  obtain ⟨hallowed, hnon, hat⟩ := hsign
  exact ⟨by simp [h.spellsAny, hallowed], by simp [h.spells, hnon],
    by simp [beginsAnnotations, h.spells, hat]⟩

/-- No type starts with a sign. -/
theorem type_of_sign {t : Token} {sign : String} (ht : t.IsSign sign) (hsign : sign ≠ "@")
    {r : Parsed Unit} : type s (t :: ts) ≠ .ok r := by
  intro h
  have hannotations : skipAnnotations s (t :: ts) = .ok ⟨(), [], t :: ts⟩ :=
    skipAnnotations_done (by simp [ht.spells, hsign])
  have hprimitive : startsWith (·.isPrimitive) (t :: ts) = false := ht.isPrimitive
  rw [type_eq_typeBody, bind_of_ok hannotations, recording_nil, typeBody,
    ahead_test_false hprimitive, ahead_bind_apply] at h
  obtain ⟨a, ha, -⟩ := bind_eq_ok.1 h
  obtain ⟨n, hn, -⟩ := giving_eq_ok ha
  obtain ⟨heq, hname⟩ := name_eq_ok hn
  cases heq
  rw [ht.isName] at hname
  cases hname

/-! ## Parameters -/

/-- Where a parameter may stand one is read. -/
theorem ParameterAt.read {counts : Nat × Bool} {place : List Token}
    (h : ParameterAt s counts ts place) :
    Source.begins ")" place = false ∧ ∃ counts r, parameterBody counts s place = .ok r := by
  induction h with
  | here h => exact ⟨(parameter_eq_inl h).1, _, _, (parameter_eq_inl h).2⟩
  | later _ _ ih => exact ih

/-- Neither a further part of a name nor arguments come where a parameter is read. -/
theorem endsAnnotation_of_parameter {t : Token} {counts : Nat × Bool}
    {r : Parsed (Nat × Bool ⊕ Nat × Bool)} (ht : t.IsLexical)
    (h : parameterBody counts s (t :: ts) = .ok r) : EndsAnnotation (t :: ts) := by
  refine ht.endsAnnotation fun sign hmem hsign => ?_
  have hother : sign ∉ localModifiers ++ ["non", "@"] ∧ sign ≠ "@" := by
    rcases List.mem_pair.1 hmem with rfl | rfl <;> decide
  have hmodifiers := discard_of_ok (modifiers_none (hsign.unmodified hother.1 ts) s)
  rw [parameterBody, bind_of_ok hmodifiers, recording_nil] at h
  obtain ⟨a, ha, -⟩ := bind_eq_ok.1 h
  exact type_of_sign hsign hother.2 ha

/-- A parameter is read behind an annotation as it is read without it. -/
theorem Annotation.parameter_append {place : List Token} (h : Annotation as)
    (hplace : EndsAnnotation place) (hclose : Source.begins ")" place = false)
    {counts : Nat × Bool} {r : Parsed (Nat × Bool ⊕ Nat × Bool)}
    (hr : parameterBody counts s place = .ok r) (counts' : Nat × Bool) :
    parameter counts' s (as ++ place) = parameter counts' s place := by
  obtain ⟨m, hm, -⟩ := bind_eq_ok.1 hr
  obtain ⟨a, ha, -⟩ := giving_eq_ok hm
  have hmodifiers := h.modifiers_append (by decide) hplace ha
  have hdiscard : discard (modifiers localModifiers) s (as ++ place) =
      discard (modifiers localModifiers) s place := by
    rw [discard_apply, discard_apply, hmodifiers, ha]
  have hclose' : Source.begins ")" (as ++ place) = false := h.not_begins (by decide) place
  rw [parameter_of_body hclose, parameter_of_body hclose']
  exact bind_of_same hdiscard

/-- A parameter list is read in the same way with an annotation in front of one of its parameters. -/
theorem Annotation.parameters_splice {l t : Token} {ps : List Token} (h : Annotation as)
    (hl : l.IsSign "(") (ht : t.IsLexical) (hplace : ParameterAt s (0, false) ps (t :: ts)) :
    ∃ us, ps = us ++ t :: ts ∧ parameters s (l :: (us ++ (as ++ t :: ts))) = parameters s (l :: ps) := by
  obtain ⟨hclose, counts, r, hr⟩ := hplace.read
  have hsame := h.parameter_append (endsAnnotation_of_parameter ht hr) hclose hr
  obtain ⟨us, hps, hread⟩ := hplace.splice hsame (by simp)
  have hopen : ∀ ts, expect "(" s (l :: ts) = .ok ⟨(), [], ts⟩ := fun ts =>
    expect_cons (by simp [hl.spells]) s ts
  refine ⟨us, hps, ?_⟩
  rw [parameters_eq_iterate, bind_of_ok (hopen _), bind_of_ok (hopen _)]
  exact congrArg (recording []) (bind_of_same hread)

/-! ## Members -/

/-- No member starts with a sign, an annotation and type parameters apart. -/
theorem memberRest_of_sign {t : Token} {sign : String} {isStatic : Bool} (ht : t.IsSign sign)
    (hsign : sign ∉ ["@", "<"]) {r : Parsed Unit} :
    memberRest nested isStatic line s (t :: ts) ≠ .ok r := by
  intro h
  simp only [List.mem_cons, List.not_mem_nil, or_false, not_or] at hsign
  have harguments : skipOptionalTypeArguments s (t :: ts) = .ok ⟨(), [], t :: ts⟩ :=
    skipOptionalTypeArguments_of_not_less (by simp [ht.spells, hsign.2])
  have hname : startsWith (fun t => t.isName && t.text == s.owner) (t :: ts) = false := by
    simp [ht.isName]
  rw [memberRest, bind_of_ok harguments, recording_nil, bind_of_ok (scope_apply s _), recording_nil,
    ahead_bind_apply] at h
  simp only [hname, Bool.false_and, Bool.false_eq_true, if_false] at h
  obtain ⟨a, ha, -⟩ := bind_eq_ok.1 h
  exact type_of_sign ht hsign.1 ha

/-- No member that declares something starts with a sign that goes on with an annotation. -/
theorem declaredMember_of_sign {t : Token} {sign : String} (ht : t.IsSign sign)
    (hsign : sign ∈ [".", "("]) {r : Parsed Unit} : declaredMember nested line s (t :: ts) ≠ .ok r := by
  intro h
  have hother : sign ∉ memberModifiers ++ ["non", "@"] ∧ sign ∉ ["@", "<"] ∧
      sign ∉ ["class", "interface", "enum", "@", "record"] := by
    rcases List.mem_pair.1 hsign with rfl | rfl <;> decide
  obtain ⟨hmodifier, hmember, hkeyword⟩ := hother
  have htype : typeKeyword? (t :: ts) = none := by
    simp only [List.mem_cons, List.not_mem_nil, or_false, not_or] at hkeyword
    simp [typeKeyword?, ht.spells, hkeyword]
  rw [declaredMember, bind_of_ok (modifiers_none (ht.unmodified hmodifier ts) s), recording_nil,
    ahead_bind_apply, htype] at h
  exact memberRest_of_sign ht hmember h

/-- What a member starts with ends the annotation before it. -/
theorem endsAnnotation_of_member {t : Token} {r : Parsed Unit} (ht : t.IsLexical)
    (h : declaredMember nested line s (t :: ts) = .ok r) : EndsAnnotation (t :: ts) :=
  ht.endsAnnotation fun _ hmem hsign => declaredMember_of_sign hsign hmem h

/-- A member is read behind an annotation as it is read without it, but for the line of what it
declares. -/
theorem Annotation.member_append {t : Token} {r : Parsed Unit} (h : Annotation as)
    (ht : t.IsLexical) (hdeclared : beginsUndeclared (t :: ts) = false)
    (hr : member nested s (t :: ts) = .ok r) :
    ∃ facts, Redated s t.line (lineAt s (as ++ t :: ts)) r.facts facts ∧
      member nested s (as ++ t :: ts) = .ok ⟨(), facts, r.rest⟩ := by
  have hdeclared' : beginsUndeclared (as ++ t :: ts) = false := by
    simp [beginsUndeclared, h.not_begins]
  rw [member_eq_declaredMember hdeclared] at hr
  obtain ⟨facts, hfacts, hrun⟩ := Dated.declaredMember _ r _ (lineAt s (as ++ t :: ts)) hr
  refine ⟨facts, hfacts, ?_⟩
  obtain ⟨m, hm, -⟩ := bind_eq_ok.1 hrun
  have hmodifiers : modifiers memberModifiers s (as ++ t :: ts) = modifiers memberModifiers s (t :: ts) :=
    (h.modifiers_append (by decide) (endsAnnotation_of_member ht hr) hm).trans hm.symm
  rw [member_eq_declaredMember hdeclared', ← hrun]
  exact bind_of_same hmodifiers

/-- A parameter of the member's header starts at the given place. -/
def HasParameterAt (s : Scope) (ts place : List Token) : Prop :=
  ∃ header l ps, OpensParameters s header ts (l :: ps) ∧
    ParameterAt (header.scope s) (0, false) ps place

theorem blind_beginsUndeclared : Blind beginsUndeclared :=
  .or (.or (.begins _) (.begins _)) (.behind (by decide) (.begins _))

/-- The line a member is declared on does not look behind a barrier. -/
theorem lineAt_barred (us : List Token) (l : Token) (x y : List Token) :
    lineAt s (us ++ l :: x) = lineAt s (us ++ l :: y) := by
  cases us <;> rfl

/-- A member is read in the same way with an annotation in front of a parameter. -/
theorem Annotation.member_splice {t : Token} (h : Annotation as) (ht : t.IsLexical)
    (hdeclared : beginsUndeclared ts = false) (hplace : HasParameterAt s ts (t :: us)) :
    ∃ vs, ts = vs ++ t :: us ∧
      ∀ nested, member nested s (vs ++ (as ++ t :: us)) = member nested s ts := by
  obtain ⟨header, l, ps, hopens, hparameter⟩ := hplace
  obtain ⟨vs, l', more, rfl, hps, hl, hsplice⟩ := hopens.splice
  obtain ⟨rfl, rfl⟩ : l = l' ∧ ps = more := List.cons.inj hps
  obtain ⟨ws, rfl, hsame⟩ := h.parameters_splice hl ht hparameter
  refine ⟨vs ++ l :: ws, by simp, fun nested => ?_⟩
  rw [List.append_assoc, List.cons_append]
  have hdeclared' : beginsUndeclared (vs ++ l :: (ws ++ (as ++ t :: us))) = false := by
    rw [blind_beginsUndeclared l hl.isBarrier vs _ (ws ++ t :: us)]
    exact hdeclared
  rw [member_eq_declaredMember hdeclared', member_eq_declaredMember hdeclared,
    lineAt_barred vs l _ (ws ++ t :: us), (hsplice _).read, hopens.read]
  exact Header.readRest_congr hsame

/-! ## Members and what comes behind them -/

/-- What a member begins with is told by its own tokens. -/
theorem beginsUndeclared_append {pre : List Token} {t : Token} (ht : t.Ends) (z : List Token) :
    beginsUndeclared (pre ++ [t] ++ z) = beginsUndeclared (pre ++ [t]) := by
  match pre with
  | [] =>
    have hstatic : t.spells "static" = false := by
      rcases ht with ht | ht
      all_goals
        simp only [Token.spells, Bool.and_eq_true, beq_iff_eq] at ht
        simp [Token.spells, ht.2]
    simp [beginsUndeclared, hstatic]
  | [_] => rfl
  | _ :: _ :: _ => rfl

/-- A member that is read has a token that ends it. -/
theorem member_tokens {depth : Nat} {r : Parsed Unit} (h : construct depth .member s (m ++ z) = .ok r)
    (hrest : r.rest = z) : ∃ pre t, m = pre ++ [t] ∧ t.Ends := by
  obtain ⟨-, hends⟩ := member_forward depth s _ r h
  obtain ⟨pre, t, hsplit, ht⟩ := hends rfl
  rw [hrest] at hsplit
  exact ⟨pre, t, List.append_cancel_right (hsplit.trans (by simp)), ht⟩

/-- Annotations are transparent. A member that is neither an empty declaration nor an initializer is
read up to the same end with an annotation in front of it, and the same facts are recorded but for the
line of what it declares, which is now that of the annotation. With an annotation in front of a
parameter of its header all facts are the same. Nothing inside annotations is recorded anywhere. -/
theorem annotations_transparent {depth : Nat} {facts : List Fact} (has : Annotation as)
    (hlexical : Lexical m) (hdeclared : beginsUndeclared m = false)
    (h : construct depth .member s (m ++ z) = .ok ⟨(), facts, z⟩) :
    (∃ facts', construct depth .member s (as ++ (m ++ z)) = .ok ⟨(), facts', z⟩ ∧
      Redated s (lineAt s m) (lineAt s as) facts facts') ∧
    (∀ us t vs, m = us ++ t :: vs → HasParameterAt s (m ++ z) (t :: (vs ++ z)) →
      construct depth .member s (us ++ (as ++ t :: (vs ++ z))) = .ok ⟨(), facts, z⟩) ∧
    Mute skipAnnotations := by
  -- a member that is read has a last token, so its first ones do not depend on what follows
  obtain ⟨pre, last, rfl, hlast⟩ := member_tokens h rfl
  have hdeclared' : beginsUndeclared (pre ++ [last] ++ z) = false :=
    (beginsUndeclared_append hlast z).trans hdeclared
  obtain - | depth := depth
  · cases h
  refine ⟨?_, ?_, mute_skipAnnotations⟩
  · obtain ⟨t, us, hfirst⟩ := List.exists_cons_of_ne_nil (by simp : pre ++ [last] ≠ [])
    rw [hfirst] at h hdeclared' hlexical ⊢
    obtain ⟨facts', hfacts, hrun⟩ := has.member_append (hlexical t (by simp)) hdeclared' h
    refine ⟨facts', hrun, ?_⟩
    have hline : lineAt s (as ++ t :: (us ++ z)) = lineAt s as := by
      cases has <;> rfl
    exact hline ▸ hfacts
  · intro us t vs hm hplace
    have ht : t.IsLexical := hlexical t (by rw [hm]; simp)
    obtain ⟨us', hsplit, hsame⟩ := has.member_splice ht hdeclared' hplace
    -- the place is told by the tokens behind it, of which there are equally many
    have hus : us = us' := by
      rw [hm, List.append_assoc, List.cons_append] at hsplit
      exact List.append_cancel_right hsplit
    rw [hus]
    exact (hsame (construct depth)).trans h

/-- A method with an annotation, and with the same annotation at its second parameter. -/
theorem annotations_transparent_second_parameter :
    let note := [Token.sign "@" 1, .word "Size" 1, .sign "." 1, .word "List" 1, .sign "(" 1,
      .sign "\x7b" 1, .word "z" 1, .sign "->" 1, .word "g" 1, .sign "(" 1, .sign ")" 1,
      .sign "\x7d" 1, .sign ")" 1]
    let before := [Token.word "void" 2, .word "f" 2, .sign "(" 2, .word "int" 2, .word "x" 2,
      .sign "," 2]
    let behind := [Token.word "y" 2, .sign ")" 2, .sign "\x7b" 2, .sign "\x7d" 2]
    let method := before ++ .word "int" 2 :: behind
    let close := [Token.sign "\x7d" 3]
    let s : Scope := ⟨some ⟨"N", .classType⟩, 3⟩
    let facts := [Fact.declaration ⟨.parameter, "x", 2, "N", 0, false, false⟩, .value "x",
      .declaration ⟨.parameter, "y", 2, "N", 0, false, false⟩, .value "y",
      .declaration ⟨.method, "f", 2, "N", 2, false, false⟩]
    Annotation note ∧ Lexical method ∧ beginsUndeclared method = false ∧
      construct 2 .member s (method ++ close) = .ok ⟨(), facts, close⟩ ∧
      HasParameterAt s (method ++ close) (.word "int" 2 :: (behind ++ close)) ∧
      (∃ facts', construct 2 .member s (note ++ (method ++ close)) = .ok ⟨(), facts', close⟩ ∧
        Redated s 2 1 facts facts') ∧
      construct 2 .member s (before ++ (note ++ .word "int" 2 :: (behind ++ close))) =
        .ok ⟨(), facts, close⟩ := by
  intro note before behind method close s facts
  have hname : DottedName [Token.word "Size" 1, .sign "." 1, .word "List" 1] :=
    .more (by decide) ⟨rfl, rfl⟩ (.one (by decide))
  have harguments : Balanced [Token.sign "\x7b" 1, .word "z" 1, .sign "->" 1, .word "g" 1,
      .sign "(" 1, .sign ")" 1, .sign "\x7d" 1] := by decide
  have hnote : Annotation note :=
    .arguments ⟨rfl, rfl⟩ hname ⟨rfl, rfl⟩ harguments ⟨rfl, rfl⟩
  have hlexical : Lexical method := by decide
  have hdeclared : beginsUndeclared method = false := rfl
  have hrun : construct 2 .member s (method ++ close) = .ok ⟨(), facts, close⟩ := by decide +kernel
  -- the place of the second parameter, reached through the first one
  have hplace : HasParameterAt s (method ++ close) (.word "int" 2 :: (behind ++ close)) := by
    have hmodifiers : modifiers memberModifiers s (method ++ close) =
        .ok ⟨[], [], method ++ close⟩ := by decide +kernel
    have htype : type s (method ++ close) = .ok ⟨(), [], .word "f" 2 :: .sign "(" 2 ::
        ([.word "int" 2, .word "x" 2, .sign "," 2] ++ .word "int" 2 :: (behind ++ close))⟩ := by
      decide +kernel
    have hfirst : parameter (0, false) s ([.word "int" 2, .word "x" 2, .sign "," 2] ++
        .word "int" 2 :: (behind ++ close)) =
          .ok ⟨.inl (1, false), declaredValue .parameter "N" (.word "x" 2),
            .word "int" 2 :: (behind ++ close)⟩ := by decide +kernel
    have hsecond : parameter (1, false) s (.word "int" 2 :: (behind ++ close)) =
        .ok ⟨.inl (2, false), declaredValue .parameter "N" (.word "y" 2), behind.tail ++ close⟩ := by
      decide +kernel
    exact ⟨_, _, _, .method hmodifiers rfl rfl rfl htype rfl ⟨rfl, rfl⟩,
      .later hfirst (.here hsecond)⟩
  obtain ⟨hfront, hparameter, -⟩ := annotations_transparent hnote hlexical hdeclared hrun
  exact ⟨hnote, hlexical, hdeclared, hrun, hplace, hfront, hparameter _ _ _ rfl hplace⟩

end Assay.Source
