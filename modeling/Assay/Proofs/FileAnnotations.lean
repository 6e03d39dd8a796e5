import Assay.Proofs.FileItems
import Assay.Proofs.HeaderReading

/-!
# Annotations at the start of a file

The first annotations of a file are passed over before a package clause is looked for, and not as part
of the declaration they belong to. Annotations that are all of a file leave no trace in front of other
tokens (`skipAnnotations_before`); a declaration that is read with its annotations differs from the
declaration without them in its line only (`modifiedType_annotated`).
-/

namespace Assay.Source

open Assay.Source.Parser

variable {α β σ : Type} {t : Token} {ts us z : List Token} {s s' : Scope} {r a : Parsed Unit}
  {m : Parsed (List String)} {nested : Construct → Parser Unit}

/-! ## Parsers that record nothing -/

/-- Whatever the parser reads, be the names in it proper or not, it records nothing. -/
def Mute (p : Parser α) : Prop := ∀ s ts r, p s ts = .ok r → r.facts = []

namespace Mute

/-- A sequence is mute if its parts are. -/
theorem bind {p : Parser α} {f : α → Parser β} (hp : Mute p) (hf : ∀ a, Mute (f a)) :
    Mute (p >>= f) := by
  intro s ts r h
  obtain ⟨a, ha, b, hb, rfl⟩ := bind_eq_ok.1 h
  rw [hp s ts a ha, hf a.value s a.rest b hb]
  rfl

/-- A choice is mute if both branches are. -/
theorem ite {c : Prop} [Decidable c] {p q : Parser α} (hp : Mute p) (hq : Mute q) :
    Mute (if c then p else q) := by
  split
  · exact hp
  · exact hq

/-- To read nothing is mute. -/
theorem pure (a : α) : Mute (Pure.pure a : Parser α) := fun _ _ _ h => by
  cases h
  rfl

/-- To look at the tokens is mute. -/
theorem ahead : Mute Parser.ahead := fun _ _ _ h => by
  cases h
  rfl

/-- To go on elsewhere is mute. -/
theorem resumeAt (rest : List Token) : Mute (Parser.resumeAt rest) := fun _ _ _ h => by
  cases h
  rfl

/-- To look for a word is mute. -/
theorem sees (word : String) : Mute (Parser.sees word) := ahead.bind fun _ => pure _

/-- To fail is mute. -/
theorem failAhead (fault : String → Fault) : Mute (Parser.failAhead fault : Parser α) :=
  fun _ ts _ h => by cases ts <;> cases h

/-- To read a token is mute. -/
theorem next : Mute Parser.next := fun _ ts _ h => by
  cases ts <;> cases h
  rfl

/-- To forget the value leaves a parser mute. -/
theorem discard {p : Parser α} (h : Mute p) : Mute (Functor.discard p) := fun s ts r hr =>
  h.bind (fun _ => pure ()) s ts r hr

/-- To pass over a token is mute. -/
theorem skip : Mute Parser.skip := next.discard

/-- To read a name is mute. -/
theorem name : Mute Parser.name := ahead.bind fun _ => ite next (failAhead _)

/-- A loop is mute if its rounds are. -/
theorem iterate {round : σ → Parser (σ ⊕ β)} (h : ∀ a, Mute (round a)) (a : σ) :
    Mute (Parser.iterate round a) := by
  intro s ts r hr
  refine iterate_induction (motive := fun _ _ r => r.facts = []) ?_ ?_ hr
  · exact fun a ts _ _ _ hround => h a s ts _ hround
  · intro a ts _ facts _ more hround _ hmore
    have hfacts : facts = [] := h a s ts _ hround
    rw [hfacts, hmore]
    rfl

/-- A loop that asks for more is mute if the asking is. -/
theorem repeatWhile {ask : Parser Bool} (h : Mute ask) : Mute (Parser.repeatWhile ask) :=
  iterate (fun _ => h.bind fun _ => ite (pure _) (pure _)) ()

/-- A loop that collects is mute if its rounds are. -/
theorem gather {round : Parser (Option α)} (h : Mute round) : Mute (Parser.gather round) :=
  iterate (fun _ => h.bind fun found => by cases found <;> exact pure _) []

/-- To look at a group is mute. -/
theorem groupAhead : Mute Parser.groupAhead := by
  intro s ts r h
  obtain ⟨-, -, -, -, -, -, rfl⟩ := groupAhead_eq_ok h
  rfl

/-- To pass over a group is mute. -/
theorem skipGroup : Mute Parser.skipGroup := groupAhead.bind fun _ => resumeAt _

end Mute

/-- What begins with a word does not begin with another one. -/
theorem begins_other {word other : String} (h : begins word ts) (hne : word ≠ other)
    (z : List Token) : begins other (ts ++ z) = false := by
  obtain ⟨t, us, rfl, ht⟩ := begins_eq_true h
  rw [List.cons_append, begins_cons]
  simp only [Token.spells, Bool.and_eq_true, beq_iff_eq] at ht
  simp [Token.spells, ht.2, hne]

/-! ## Names with dots -/

/-- One more part of a name, if there is one. -/
def namePart : Parser (Option String) := do
  match ← ahead with
  | dot :: part :: rest =>
    if dot.spells "." && part.isName then
      resumeAt rest
      return some part.text
    return none
  | _ => return none

/-- Names joined by dots: the first, and then one part after another. -/
theorem dottedName_eq : dottedName = (do
    let first ← name
    let more ← gather namePart
    return String.intercalate "." (first.text :: more)) := rfl

/-- Without a dot there is no further part. -/
theorem namePart_none (h : begins "." ts = false) : namePart s ts = .ok ⟨none, [], ts⟩ := by
  match ts with
  | [] => rfl
  | [_] => rfl
  | dot :: part :: rest =>
    rw [begins_cons] at h
    simp [namePart, bind_apply, h]

/-- A name behind a dot is a further part. -/
theorem namePart_some {dot part : Token} (h : dot.spells "." && part.isName) (s : Scope)
    (rest : List Token) : namePart s (dot :: part :: rest) = .ok ⟨some part.text, [], rest⟩ := by
  rw [namePart, bind_of_ok (ahead_apply s _), recording_nil]
  simp only [h, if_true, bind_apply, resumeAt_apply, pure_apply, recording_nil]

/-- There is no further part, or there is a name behind a dot. -/
theorem namePart_eq_ok {r : Parsed (Option String)} (h : namePart s ts = .ok r) :
    r = ⟨none, [], ts⟩ ∨ ∃ dot part rest, ts = dot :: part :: rest ∧
      (dot.spells "." && part.isName) = true ∧ r = ⟨some part.text, [], rest⟩ := by
  match ts with
  | [] =>
    cases h
    exact .inl rfl
  | [_] =>
    cases h
    exact .inl rfl
  | dot :: part :: rest =>
    cases hpart : dot.spells "." && part.isName with
    | true =>
      rw [namePart_some hpart] at h
      exact .inr ⟨dot, part, rest, rfl, hpart, (Except.ok.inj h).symm⟩
    | false =>
      rw [namePart, bind_of_ok (ahead_apply s _), recording_nil] at h
      simp only [hpart, Bool.false_eq_true, if_false, pure_apply, Except.ok.injEq] at h
      exact .inl h.symm

/-- The parts of a name are read in the same way in front of tokens that do not go on with it. -/
theorem nameParts_before {r : Parsed (List String)} (h : gather namePart s ts = .ok r)
    (hdot : begins "." (r.rest ++ z) = false) :
    gather namePart s' (ts ++ z) = .ok ⟨r.value, r.facts, r.rest ++ z⟩ := by
  induction hn : ts.length using Nat.strongRecOn generalizing ts r with
  | ind n ih =>
    subst hn
    rcases gather_eq_ok h with ⟨facts, rest, hround, rfl⟩ | ⟨name, facts, rest, more, hround, hlt, hmore, rfl⟩
    · rcases namePart_eq_ok hround with heq | ⟨_, _, _, -, -, heq⟩ <;> cases heq
      exact gather_done (namePart_none hdot)
    · rcases namePart_eq_ok hround with heq | ⟨dot, part, _, rfl, hpart, heq⟩ <;> cases heq
      have hlt' : (rest ++ z).length < (dot :: part :: rest ++ z).length := by
        simp only [List.cons_append, List.length_cons]
        omega
      exact gather_again (namePart_some hpart s' _) hlt' (ih _ hlt hmore hdot rfl)

/-- Names joined by dots are read as before if no dot comes behind them. -/
theorem dottedName_before {r : Parsed String} (h : dottedName s ts = .ok r)
    (hdot : begins "." (r.rest ++ z) = false) :
    dottedName s' (ts ++ z) = .ok ⟨r.value, r.facts, r.rest ++ z⟩ := by
  rw [dottedName_eq] at h
  obtain ⟨n, hn, b, hb, rfl⟩ := bind_eq_ok.1 h
  obtain ⟨g, hg, c, hc, rfl⟩ := bind_eq_ok.1 hb
  cases hc
  obtain ⟨rfl, hname⟩ := name_eq_ok hn
  have hparts : gather namePart s' (n.rest ++ z) = .ok ⟨g.value, g.facts, g.rest ++ z⟩ :=
    nameParts_before hg hdot
  rw [dottedName_eq, List.cons_append, bind_of_ok (name_cons hname s' _), bind_of_ok hparts,
    Mute.name s _ n hn]
  rfl

/-- A further part of a name is read without a record. -/
theorem mute_namePart : Mute namePart := by
  refine Mute.ahead.bind fun ts => ?_
  split
  · exact .ite ((Mute.resumeAt _).bind fun _ => .pure _) (.pure _)
  · exact .pure _

/-- Names joined by dots are read without a record. -/
theorem mute_dottedName : Mute dottedName :=
  Mute.name.bind fun _ => (Mute.gather mute_namePart).bind fun _ => .pure _

/-- Names joined by dots leave an end of the tokens. -/
theorem dottedName_suffix {r : Parsed String} (h : dottedName s ts = .ok r) : r.rest <:+ ts := by
  have hsim : (Simulation.front []).Sim True false Eq dottedName dottedName := .dottedName
  exact ((hsim ts ts).forward s r h).1

/-! ## Annotations -/

/-- Reads an annotation with its arguments. -/
def annotationItem : Parser Unit := do
  skip
  discard dottedName
  if ← sees "(" then skipGroup

/-- An annotation and what is given behind it, without the call. -/
theorem annotationItem_then (b : β) : (do annotationItem; return b : Parser β) = (do
    skip
    discard dottedName
    if ← sees "(" then skipGroup
    return b) := by
  rw [annotationItem, bind_bind]
  refine congrArg (skip >>= ·) (funext fun _ => ?_)
  rw [bind_bind]
  refine congrArg (discard dottedName >>= ·) (funext fun _ => ?_)
  rw [bind_bind]
  refine congrArg (sees "(" >>= ·) (funext fun hasArguments => ?_)
  cases hasArguments <;> rfl

/-- Annotations are passed over item by item. -/
theorem skipAnnotations_eq : skipAnnotations = items beginsAnnotations annotationItem := by
  refine congrArg repeatWhile (congrArg (ahead >>= ·) (funext fun ts => ?_))
  rw [annotationItem_then]

/-- There are no annotations where none begins. -/
theorem skipAnnotations_none (h : beginsAnnotations ts = false) (s : Scope) :
    skipAnnotations s ts = .ok ⟨(), [], ts⟩ := by
  rw [skipAnnotations_eq, items_done h]

/-- One annotation is passed over without a record. -/
theorem mute_annotationItem : Mute annotationItem :=
  Mute.skip.bind fun _ => mute_dottedName.discard.bind fun _ => (Mute.sees "(").bind fun _ =>
    .ite .skipGroup (.pure ())

/-- Annotations are passed over without a record. -/
theorem mute_skipAnnotations : Mute skipAnnotations :=
  skipAnnotations_eq ▸ Mute.repeatWhile (Mute.ahead.bind fun _ =>
    .ite (mute_annotationItem.bind fun _ => .pure true) (.pure false))

/-- One annotation leaves an end of the tokens. -/
theorem annotationItem_suffix (h : annotationItem s ts = .ok a) : a.rest <:+ ts := by
  have hsim : (Simulation.front []).Sim True false Eq annotationItem annotationItem :=
    Simulation.Sim.skip.bindEq fun _ => Simulation.Sim.dottedName.discard.bindEq fun _ =>
      .choose (fun _ _ _ => .skipGroup And.right) (.pure fun _ => rfl)
  exact ((hsim ts ts).forward s a h).1

/-- Annotations that are there are read. -/
theorem skipAnnotations_shorter (hbegins : beginsAnnotations ts) (h : skipAnnotations s ts = .ok r) :
    r.rest.length < ts.length := by
  rw [skipAnnotations_eq] at h
  rcases items_eq_ok h with ⟨hnone, -⟩ | ⟨-, a, b, -, hlt, hb, rfl⟩
  · rw [hnone] at hbegins
    cases hbegins
  · rw [← skipAnnotations_eq] at hb
    have hle := (skipAnnotations_suffix hb).length_le
    exact Nat.lt_of_le_of_lt hle hlt

/-- An annotation is read in the same way in front of tokens that do not go on with it. -/
theorem annotationItem_before (hlexical : Lexical ts) (h : annotationItem s ts = .ok a)
    (hdot : begins "." (a.rest ++ z) = false) (hparenthesis : begins "(" (a.rest ++ z) = false) :
    annotationItem s' (ts ++ z) = .ok ⟨(), [], a.rest ++ z⟩ := by
  obtain ⟨b, hb, c, hc, rfl⟩ := bind_eq_ok.1 h
  obtain ⟨d, hd, e, he, rfl⟩ := bind_eq_ok.1 hc
  cases ts with
  | nil => cases hb
  | cons t ts =>
    cases hb
    obtain ⟨n, hn, heq⟩ := giving_eq_ok (p := dottedName) hd
    cases heq
    rw [bind_of_ok (sees_apply _ s _), recording_nil] at he
    have hsuffix := dottedName_suffix hn
    have hname : begins "." (n.rest ++ z) = false → discard dottedName s' (ts ++ z) =
        .ok ⟨(), n.facts, n.rest ++ z⟩ := fun hdot =>
      discard_of_ok (dottedName_before hn hdot)
    rw [List.cons_append, annotationItem, bind_of_ok (skip_cons s' t _), recording_nil]
    -- with arguments the annotation ends at its parenthesis, without it must not go on behind
    split_ifs at he with hopen
    · obtain ⟨l, after, hrest, hl⟩ := begins_eq_true hopen
      have hafter : n.rest = l :: after := hrest
      have hsign : l.IsSign "(" :=
        (hlexical.tail.of_suffix hsuffix l (by rw [hafter]; simp)).isSign (by decide) hl
      rw [hrest] at he
      obtain ⟨-, -, -, -, hfacts, hclosed⟩ := skipGroup_closed (hsign.opens rfl) he
      have hnodot : begins "." (n.rest ++ z) = false := by rw [hafter]; simp [hsign.spells]
      rw [bind_of_ok (hname hnodot), bind_of_ok (sees_apply _ s' _),
        hafter, List.cons_append, begins_cons, if_pos hl, hclosed, mute_dottedName s _ n hn]
      rfl
    · cases he
      rw [bind_of_ok (hname hdot), bind_of_ok (sees_apply _ s' _), hparenthesis,
        mute_dottedName s _ n hn]
      rfl

/-- Annotations that are all of the tokens leave no trace in front of tokens that do not go on with
the last of them. -/
theorem skipAnnotations_before (hlexical : Lexical ts) (h : skipAnnotations s ts = .ok r)
    (hrest : r.rest = []) (hdot : begins "." z = false) (hparenthesis : begins "(" z = false) :
    skipAnnotations s' (ts ++ z) = skipAnnotations s' z := by
  rw [skipAnnotations_eq] at h ⊢
  induction hn : ts.length using Nat.strongRecOn generalizing ts r with
  | ind n ih =>
    subst hn
    rcases items_eq_ok h with ⟨-, rfl⟩ | ⟨hbegins, a, b, ha, hlt, hb, rfl⟩
    · rw [show ts = [] from hrest, List.nil_append]
    · -- behind an annotation nothing is left, or another one starts
      have hnext : a.rest = [] ∨ begins "@" a.rest = true := by
        rcases items_eq_ok hb with ⟨-, rfl⟩ | ⟨hnext, -⟩
        · exact .inl hrest
        · exact .inr (Bool.and_eq_true_iff.1 hnext).1
      have hsigns : begins "." (a.rest ++ z) = false ∧ begins "(" (a.rest ++ z) = false := by
        rcases hnext with hnil | hat
        · rw [hnil]
          exact ⟨hdot, hparenthesis⟩
        · exact ⟨begins_other hat (by decide) z, begins_other hat (by decide) z⟩
      have hrun : annotationItem s' (ts ++ z) = .ok ⟨(), [], a.rest ++ z⟩ :=
        annotationItem_before hlexical ha hsigns.1 hsigns.2
      have hbegins' : beginsAnnotations (ts ++ z) = true := by
        obtain ⟨t, us, rfl, -⟩ := begins_eq_true (Bool.and_eq_true_iff.1 hbegins).1
        have hne : us ≠ [] := by
          rintro rfl
          cases ha
        rw [← hbegins, beginsAnnotations, beginsAnnotations, List.cons_append, List.tail_cons,
          List.tail_cons, begins_before hne]
        rfl
      have hlt' : (a.rest ++ z).length < (ts ++ z).length := by
        rw [List.length_append, List.length_append]
        omega
      rw [items_again hbegins' hrun hlt', recording_nil]
      exact ih _ hlt (hlexical.of_suffix (annotationItem_suffix ha)) hb hrest rfl

/-! ## Declarations with annotations -/

/-- The annotations at the start are passed over with the modifiers. -/
theorem modifiers_annotated {allowed : List String} (hat : "@" ∉ allowed)
    (hbegins : beginsAnnotations ts) (ha : skipAnnotations s ts = .ok a)
    (hm : modifiers allowed s a.rest = .ok m) : modifiers allowed s ts = .ok m := by
  rw [modifiers_eq] at hm ⊢
  obtain ⟨g, hg, b, hb, rfl⟩ := bind_eq_ok.1 hm
  cases hb
  have hlt := skipAnnotations_shorter hbegins ha
  obtain ⟨t, us, rfl, ht⟩ := begins_eq_true (Bool.and_eq_true_iff.1 hbegins).1
  have htext : (t.isIdentifier || t.isOperator) = true ∧ t.text = "@" := by
    simpa [Token.spells] using ht
  have hround : modifierRound allowed s (t :: us) = .ok ⟨some [], a.facts, a.rest⟩ := by
    have hword : t.spellsAny allowed = false := by
      rw [Token.spellsAny, htext.2]
      simp [hat]
    have hnon : t.spells "non" = false := by simp [Token.spells, htext.2]
    rw [modifierRound, bind_of_ok (ahead_apply s _), recording_nil]
    simp only [hword, hnon, hbegins, Bool.false_and, Bool.false_eq_true, if_false, if_true]
    rw [bind_of_ok (show skipAnnotations s (t :: us) = .ok ⟨(), a.facts, a.rest⟩ from ha)]
    simp
  have hgather := gather_again hround hlt hg
  rw [bind_of_ok hgather, mute_skipAnnotations s _ a ha]
  rfl

/-- The line of a declaration is the one it is read with, and nothing else that is recorded depends
on it. -/
theorem typeFrom_eq_ok {kind : DeclarationKind} {line length : Nat}
    (h : typeFrom nested line us kind length s ts = .ok r) :
    ∃ (d : Declaration) (more : List Fact), r.facts = .declaration d :: more ∧ d.line = line ∧
      ∀ line', typeFrom nested line' us kind length s ts =
        .ok ⟨(), .declaration { d with line := line' } :: more, r.rest⟩ := by
  obtain ⟨a, ha, b, hb, rfl⟩ := bind_eq_ok.1 h
  cases ha
  obtain ⟨n, hn, c, hc, rfl⟩ := bind_eq_ok.1 hb
  obtain ⟨e, he, f, hf, rfl⟩ := bind_eq_ok.1 hc
  cases he
  have hfacts : n.facts = [] := Mute.name s _ n hn
  refine ⟨⟨kind, n.value.text, line, s.owner, 0, false, false⟩, f.facts, ?_, rfl, fun line' => ?_⟩
  · rw [hfacts]
    rfl
  · rw [typeFrom, bind_of_ok (resumeAt_apply _ s ts), recording_nil,
      bind_of_ok (show name s (us.drop length) = .ok ⟨n.value, n.facts, n.rest⟩ from hn), hfacts,
      recording_nil, bind_of_ok (declare_apply kind _ line' s n.rest)]
    exact congrArg (recording _) hf

/-- Modifiers are read without a record. -/
theorem mute_modifiers (allowed : List String) : Mute (modifiers allowed) := by
  refine Mute.bind (.gather (Mute.ahead.bind fun ts => ?_)) fun found => .pure _
  cases ts with
  | nil => exact .pure _
  | cons t ts =>
    exact .ite (Mute.skip.bind fun _ => .pure _) <|
      .ite ((Mute.resumeAt _).bind fun _ => .pure _) <|
      .ite (mute_skipAnnotations.bind fun _ => .pure _) (.pure _)

/-- What a type declaration is behind its modifiers. -/
theorem modifiedType_of_modifiers (hm : modifiers memberModifiers s ts = .ok m) :
    modifiedType nested s ts =
      (match typeKeyword? m.rest with
        | none => failAhead .expectedType
        | some (kind, length) => typeFrom nested (lineAt s ts) m.rest kind length) s m.rest := by
  have hdiscard : discard (modifiers memberModifiers) s ts = .ok ⟨(), [], m.rest⟩ := by
    rw [discard_apply, hm, ← mute_modifiers memberModifiers s ts m hm]
    rfl
  rw [modifiedType, bind_of_ok (line_apply s ts), recording_nil, bind_of_ok hdiscard, recording_nil,
    typeDeclaration_orElse, bind_of_ok (ahead_apply s _)]
  exact recording_nil _

/-- A type declaration with modifiers has them, and then the keyword of a type. -/
theorem modifiedType_eq_ok (h : modifiedType nested s ts = .ok r) :
    ∃ m kind length, modifiers memberModifiers s ts = .ok m ∧
      typeKeyword? m.rest = some (kind, length) ∧
      typeFrom nested (lineAt s ts) m.rest kind length s m.rest = .ok r := by
  cases hm : modifiers memberModifiers s ts with
  | error e =>
    have hdiscard : discard (modifiers memberModifiers) s ts = .error e := by
      rw [discard_apply, hm]
      rfl
    rw [modifiedType, bind_of_ok (line_apply s ts), recording_nil, bind_of_error hdiscard] at h
    cases h
  | ok m =>
    rw [modifiedType_of_modifiers hm] at h
    cases hkeyword : typeKeyword? m.rest with
    | none =>
      rw [hkeyword] at h
      cases hrest : m.rest <;> simp [failAhead, hrest] at h
    | some found =>
      rw [hkeyword] at h
      exact ⟨m, found.1, found.2, rfl, hkeyword, h⟩

/-- A type is declared with its annotations as without them, but for the line: it is that of the first
annotation. -/
theorem modifiedType_annotated (hbegins : beginsAnnotations ts) (ha : skipAnnotations s ts = .ok a)
    (h : modifiedType nested s a.rest = .ok r) :
    ∃ (d : Declaration) (more : List Fact), r.facts = .declaration d :: more ∧
      d.line = lineAt s a.rest ∧ modifiedType nested s ts =
        .ok ⟨(), .declaration { d with line := lineAt s ts } :: more, r.rest⟩ := by
  obtain ⟨m, kind, length, hm, hkeyword, hfrom⟩ := modifiedType_eq_ok h
  obtain ⟨d, more, hfacts, hline, hlines⟩ := typeFrom_eq_ok hfrom
  refine ⟨d, more, hfacts, hline, ?_⟩
  rw [modifiedType_of_modifiers (modifiers_annotated (by decide) hbegins ha hm), hkeyword]
  exact hlines (lineAt s ts)

/-- Where no type comes next behind the modifiers, none is declared. -/
theorem modifiedType_fails (hm : modifiers memberModifiers s ts = .ok m)
    (hkeyword : typeKeyword? m.rest = none) : ∃ e, modifiedType nested s ts = .error e := by
  rw [modifiedType_of_modifiers hm, hkeyword]
  cases m.rest <;> exact ⟨_, rfl⟩

/-- Without modifiers ahead none are found. -/
theorem modifiers_none {allowed : List String} (h : Unmodified allowed ts) (s : Scope) :
    modifiers allowed s ts = .ok ⟨[], [], ts⟩ := by
  rw [modifiers_eq, bind_of_ok (gather_done (modifierRound_done h))]
  rfl

end Assay.Source
