import Assay.Proofs.BracketMembers
import Assay.Source.CompilationUnit

/-!
# The brackets of a file

A file that is read is a walk along its brackets from none that are due to none. So what a parser
follows is balanced, and a file whose brackets do not match is only read where they stand among the
tokens that are passed over unseen. The header of a type is such a place.
-/

namespace Assay.Source

open Assay.Source.Parser

variable {ts : List Token} {due : List String} {nested : Construct → Parser Unit}

/-! ## Declarations at the top of a file -/

theorem Moves.packageDeclaration : Moves due due Parser.packageDeclaration := by
  refine Moves.skipAnnotations.bind fun _ => .choose (fun ts hts => ?_) (.pure _)
  refine .still_bind (fun s r hr => by cases hr; rfl) fun line => ?_
  exact (MovesAt.skipWord (by decide) hts).bind fun _ => Moves.dottedName.bind fun _ =>
    (Moves.expect ";" (by decide)).bind fun _ => .declareCallable

theorem Moves.importDeclaration : Moves due due Parser.importDeclaration := by
  refine (Moves.expect "import" (by decide)).bind fun _ => .seesWhen (by decide) fun isStatic _ =>
    Moves.dottedName.bind fun imported => .ahead fun ts => ?_
  have hrest : ∀ wildcard, Moves due due (do
      Parser.expect ";"
      Parser.record (.importOf ⟨imported, isStatic, wildcard⟩)) :=
    fun _ => (Moves.expect ";" (by decide)).bind fun _ => .record _
  refine .ite (fun hwildcard => ?_) fun _ => hrest _ ts
  exact .bind (Passes.movesAt fun _ => passes_words (by decide) (by decide) hwildcard) fun _ =>
    hrest _

/-- The declaration of a module is passed over: a header up to its opening brace, and the group that
the brace opens. -/
theorem MovesAt.moduleDeclaration (hts : startsWith (·.spellsAny ["module", "open"]) ts) :
    MovesAt due due ts Parser.moduleDeclaration := by
  intro hlexical s r hr
  obtain ⟨t, us, rfl, ht⟩ := startsWith_eq_true hts
  obtain ⟨a, ha, b, hb, rfl⟩ := bind_eq_ok.1 hr
  obtain ⟨span, hspan, hfree, hbrace⟩ := untilBrace_eq_ok ha
  obtain ⟨l, after, hafter, hl⟩ := begins_eq_true hbrace
  rw [hafter] at hspan hb
  have hsign : l.IsSign "\x7b" :=
    (hspan ▸ hlexical).of_append.head.isSign (by decide) hl
  have hopen : l.closer? = some "\x7d" := hsign.opens rfl
  -- The group is found by looking ahead, so its walk starts behind the brace.
  obtain ⟨_, _, inside, rest, hgroup, hsplit, rfl⟩ := skipGroup_eq_ok hb
  obtain ⟨rfl, rfl⟩ := List.cons.inj hgroup
  rw [hopen, Option.toList_some] at hsplit
  obtain ⟨close, rfl, hend⟩ := GroupEnd.of_splitGroup hsplit
  cases span with
  | nil =>
    -- A module is not declared by a brace.
    cases hspan
    rw [Token.spellsAny_of_spells hl] at ht
    cases ht
  | cons u span =>
    obtain ⟨rfl, rfl⟩ := List.cons.inj hspan
    refine ⟨t :: (span ++ l :: (inside ++ [close])), [span], by simp, ?_⟩
    exact .moduleHeader ht (fun v hv => hfree v (List.mem_cons_of_mem t hv)) hsign
      (hend.walk (List.cons_ne_nil "\x7d" []))

theorem Steady.topLevelDeclaration (h : Steady nested) :
    Moves due due (Parser.topLevelDeclaration nested) := by
  refine .ahead fun ts => .ite (fun hts => .skipWord (by decide) hts) fun _ =>
    .ite (fun hts => .moduleDeclaration hts) fun _ => ?_
  have hmodifiers : Moves due due (modifiers memberModifiers) := .modifiers _ (by decide)
  exact Moves.line.bind (fun line => hmodifiers.discard.bind fun _ =>
    (h.typeDeclaration line).bind fun _ => .cond (.failAhead _) (.pure _)) ts

theorem Steady.file (h : Steady nested) : Moves due due (Parser.file nested) := by
  refine Moves.packageDeclaration.bind fun _ => .bind (.repeatWhile ?_) fun _ => .repeatWhile ?_
  · exact (Moves.sees "import").bind fun _ => .cond (Moves.importDeclaration.bind fun _ => .pure _) <|
      .seesSkip (by decide) (.pure _) (.pure _)
  · exact .ahead fun ts => .ite (fun _ => Moves.pure _ _) fun _ =>
      h.topLevelDeclaration.bind (fun _ => .pure _) ts

/-! ## Whole files -/

/-- The last round of a loop is the one that finishes it. -/
theorem iterate_stops {σ β : Type} {round : σ → Parser (σ ⊕ β)} {state : σ} {s : Scope}
    {r : Parsed β} (h : iterate round state s ts = .ok r) :
    ∃ last us facts, round last s us = .ok ⟨.inr r.value, facts, r.rest⟩ := by
  refine iterate_induction (motive := fun _ _ r => ∃ last us facts,
    round last s us = .ok ⟨.inr r.value, facts, r.rest⟩) ?_ ?_ h
  · exact fun state ts _ facts _ hround => ⟨state, ts, facts, hround⟩
  · exact fun _ _ _ _ _ _ _ _ hlater => hlater

/-- The last question that a loop asks is answered with no. -/
theorem repeatWhile_stops {ask : Parser Bool} {s : Scope} {r : Parsed Unit}
    (h : repeatWhile ask s ts = .ok r) :
    ∃ us facts, ask s us = .ok ⟨false, facts, r.rest⟩ := by
  obtain ⟨_, us, facts, hround⟩ := iterate_stops h
  obtain ⟨⟨more, asked, rest⟩, hask, b, hb, heq⟩ := bind_eq_ok.1 hround
  cases more with
  | true =>
    cases hb
    cases heq
  | false =>
    cases hb
    obtain rfl : rest = r.rest := by
      cases heq
      rfl
    exact ⟨us, asked, hask⟩

/-- A file is read to its end. -/
theorem file_rest {s : Scope} {r : Parsed Unit} (h : file nested s ts = .ok r) : r.rest = [] := by
  obtain ⟨a, -, b, hb, rfl⟩ := bind_eq_ok.1 h
  obtain ⟨c, -, d, hd, rfl⟩ := bind_eq_ok.1 hb
  obtain ⟨us, facts, hask⟩ := repeatWhile_stops hd
  rw [bind_of_ok (ahead_apply s us), recording_nil] at hask
  cases us with
  | nil =>
    rw [List.isEmpty_nil, if_pos rfl] at hask
    exact (congrArg Parsed.rest (Except.ok.inj hask)).symm
  | cons t us =>
    rw [List.isEmpty_cons, if_neg (by simp)] at hask
    obtain ⟨e, -, f, hf, heq⟩ := bind_eq_ok.1 hask
    cases hf
    cases heq

theorem factsOf_eq (code : List Token) :
    factsOf code = (file (construct (depthFor code.length)) (openingScope code) code).map (·.facts) :=
  rfl

/-- The facts of a file are those of a reading to its end. -/
theorem factsOf_eq_ok {code : List Token} {facts : List Fact} : factsOf code = .ok facts ↔
    file (construct (depthFor code.length)) (openingScope code) code = .ok ⟨(), facts, []⟩ := by
  rw [factsOf_eq]
  cases hrun : file (construct (depthFor code.length)) (openingScope code) code with
  | error e => simp [Except.map]
  | ok r =>
    have hrest := file_rest hrun
    obtain ⟨_, facts, rest⟩ := r
    simp only at hrest
    simp [Except.map, hrest]

/-- The code of a file that is read is a walk along its brackets. -/
theorem walk_of_factsOf {code : List Token} {facts : List Fact} (hlexical : Lexical code)
    (h : factsOf code = .ok facts) : ∃ spans, Walk [] code spans [] := by
  have hrun := factsOf_eq_ok.1 h
  obtain ⟨read, spans, hread, hwalk⟩ := (steady_construct _).file code hlexical _ _ hrun
  rw [List.append_nil] at hread
  exact ⟨spans, hread ▸ hwalk⟩

/-- The code of a text, without its comments. -/
def codeOf (all : List Token) : List Token := all.filter (!·.isComment)

theorem lexical_codeOf {text : String} {all : List Token} (h : tokens text = .ok all) :
    Lexical (codeOf all) := fun t ht => lexical_of_tokens h t (List.mem_filter.1 ht).1

/-- A file that is read is a walk along its brackets. They match in the whole file if they match in
each of the passages that the walk passes over; and if they match in the file, the passages have as
many opening brackets of every sort as closing ones. -/
theorem balanced_of_passages {text : String} {all : List Token} {facts : List Fact}
    (h : tokens text = .ok all) (hfacts : factsOf (codeOf all) = .ok facts) :
    ∃ passages, Walk [] (codeOf all) passages [] ∧
      ((∀ passage ∈ passages, Balanced passage) → Balanced (codeOf all)) ∧
      (Balanced (codeOf all) → ∀ sort, surplus sort passages.flatten = 0) := by
  obtain ⟨passages, hwalk⟩ := walk_of_factsOf (lexical_codeOf h) hfacts
  exact ⟨passages, hwalk, hwalk.unclosed, hwalk.surplus_of_balanced⟩

/-- Brackets that match in the header of a class: `class A ( ) { }`. -/
theorem balanced_of_passages_class :
    let code := [Token.word "class" 1, .word "A" 1, .sign "(" 1, .sign ")" 1, .sign "\x7b" 1,
      .sign "\x7d" 1]
    tokens "class A ( ) \x7b \x7d" = .ok code ∧ codeOf code = code ∧
      ∃ passages, Walk [] code passages [] ∧
        ((∀ passage ∈ passages, Balanced passage) → Balanced code) ∧
        (Balanced code → ∀ sort, surplus sort passages.flatten = 0) := by
  intro code
  have htokens : tokens "class A ( ) \x7b \x7d" = .ok code := by decide +kernel
  have hfacts : factsOf (codeOf code) =
      .ok [.declaration ⟨.classType, "A", 1, "", 0, false, false⟩] := by decide +kernel
  exact ⟨htokens, by decide, balanced_of_passages htokens hfacts⟩

/-- A closing parenthesis in the header of a class is read over: `class A ) { }`. -/
theorem header_unbalanced :
    ¬ ∀ (text : String) (all : List Token) (facts : List Fact), tokens text = .ok all →
      factsOf (codeOf all) = .ok facts → Balanced (codeOf all) := by
  intro h
  have htokens : tokens "class A ) \x7b \x7d" =
      .ok [.word "class" 1, .word "A" 1, .sign ")" 1, .sign "\x7b" 1, .sign "\x7d" 1] := by
    decide +kernel
  have hfacts : factsOf (codeOf [.word "class" 1, .word "A" 1, .sign ")" 1, .sign "\x7b" 1,
      .sign "\x7d" 1]) = .ok [.declaration ⟨.classType, "A", 1, "", 0, false, false⟩] := by
    decide +kernel
  have hbalanced := h _ _ _ htokens hfacts
  revert hbalanced
  decide +kernel

end Assay.Source
