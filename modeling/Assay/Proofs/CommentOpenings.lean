import Assay.Proofs.Delimiters

/-!
# Where comments begin

A slash and a star that stand in no literal and in no other comment begin a comment, provided that it is
closed somewhere in the rest of the text. Where it is not, no class of comments fits; the slash and the
star are operators then, and the words behind them are read as code. The main statement,
`comment_openings`, says so of every slash and star of a text.
-/

namespace Assay.Source

variable {p : Char → Bool} {c : Char} {r s : Recogniser} {word cs later body rest : List Char}
  {x : Lexeme}

/-! ## Characters that a recogniser avoids -/

/-- The recogniser never splits off the character. -/
def Avoids (c : Char) (r : Recogniser) : Prop := ∀ cs l rest, r cs = some (l, rest) → c ∉ l

theorem avoids_one (h : p c = false) : Avoids c (one p) := by
  intro cs l rest hl hc
  obtain ⟨d, hd, rfl, -⟩ := one_inv hl
  rw [← List.mem_singleton.1 hc, h] at hd
  cases hd

theorem avoids_run (h : p c = false) : Avoids c (run p) := by
  rintro cs l rest ⟨⟩ hc
  rw [List.all_eq_true.1 List.all_takeWhile c hc] at h
  cases h

theorem avoids_exactly (h : c ∉ word) : Avoids c (exactly word) := by
  intro cs l rest hl
  rwa [(exactly_inv hl).1]

theorem Avoids.andThen (hr : Avoids c r) (hs : Avoids c s) : Avoids c (andThen r s) := by
  intro cs l rest hl
  obtain ⟨first, mid, second, hfirst, hsecond, rfl⟩ := andThen_inv hl
  exact List.not_mem_append (hr _ _ _ hfirst) (hs _ _ _ hsecond)

theorem Avoids.optional (hr : Avoids c r) : Avoids c (optional r) := by
  intro cs l rest hl
  rcases optional_inv hl with hfound | ⟨rfl, -⟩
  · exact hr _ _ _ hfound
  · exact List.not_mem_nil

theorem avoids_inOrder {rs : List Recogniser} (h : ∀ r ∈ rs, Avoids c r) : Avoids c (inOrder rs) := by
  induction rs with
  | nil =>
    rintro cs l rest ⟨⟩
    exact List.not_mem_nil
  | cons r rs ih => exact (h r (by simp)).andThen (ih fun s hs => h s (by simp [hs]))

theorem avoids_firstOf {rs : List Recogniser} (h : ∀ r ∈ rs, Avoids c r) : Avoids c (firstOf rs) := by
  intro cs l rest hl
  obtain ⟨r, hr, hfound⟩ := firstOf_inv hl
  exact h r hr cs l rest hfound

theorem avoids_slash_number : Avoids '/' number := by
  have hdigits : Avoids '/' digits :=
    (avoids_one (by decide)).andThen (avoids_run (by decide))
  have hsigns : ∀ {cs : List Char}, '/' ∉ cs → Avoids '/' (optional (oneOf cs)) := fun h =>
    (avoids_one (by simpa using h)).optional
  apply avoids_firstOf
  simp only [List.mem_cons, List.not_mem_nil, or_false, forall_eq_or_imp, forall_eq]
  refine ⟨avoids_inOrder ?_, avoids_inOrder ?_, avoids_inOrder ?_, avoids_inOrder ?_⟩ <;>
    simp only [List.mem_cons, List.not_mem_nil, or_false, forall_eq_or_imp, forall_eq]
  · exact ⟨avoids_exactly (by decide), avoids_one (by decide), avoids_run (by decide),
      (avoids_exactly (by decide)).optional, avoids_run (by decide), avoids_one (by decide),
      hsigns (by decide), hdigits, hsigns (by decide)⟩
  · exact ⟨avoids_exactly (by decide), avoids_one (by decide),
      (avoids_one (by decide)).andThen (avoids_run (by decide)), hsigns (by decide)⟩
  · exact ⟨avoids_exactly (by decide), avoids_one (by decide),
      (avoids_one (by decide)).andThen (avoids_run (by decide)), hsigns (by decide)⟩
  · refine ⟨avoids_firstOf ?_, (avoids_inOrder ?_).optional, hsigns (by decide)⟩ <;>
      simp only [List.mem_cons, List.not_mem_nil, or_false, forall_eq_or_imp, forall_eq]
    · refine ⟨avoids_inOrder ?_, (avoids_exactly (by decide)).andThen hdigits, hdigits⟩
      simp only [List.mem_cons, List.not_mem_nil, or_false, forall_eq_or_imp, forall_eq]
      exact ⟨hdigits, avoids_exactly (by decide), hdigits.optional⟩
    · exact ⟨avoids_one (by decide), hsigns (by decide), hdigits⟩

/-- A slash of an operator is its first character. -/
theorem slash_of_operator {l : List Char} (h : operator cs = some (l, rest)) : '/' ∉ l.tail := by
  rcases either_inv h with hcompound | hsimple
  · obtain ⟨r, hr, hfound⟩ := firstOf_inv hcompound
    obtain ⟨word, hword, rfl⟩ := List.mem_map.1 hr
    have hcompounds : ∀ word ∈ compoundOperators, '/' ∉ word.toList.tail := by decide
    rw [(exactly_inv hfound).1]
    exact hcompounds word hword
  · obtain ⟨c, -, rfl, -⟩ := one_inv hsimple
    exact List.not_mem_nil

/-- A token of the kind is passed over as a whole: what stands inside it is not looked at. -/
def TokenKind.isOpaque (kind : TokenKind) : Bool :=
  kind.isComment || kind == .string || kind == .character

/-- A slash inside a lexeme is inside a literal or a comment. -/
theorem opaque_of_slash {before after : List Char} (h : lexeme? cs = some x)
    (htext : x.text = before ++ '/' :: after) (hbefore : before ≠ []) :
    ∃ kind, x.kind = some kind ∧ kind.isOpaque := by
  have hslash : '/' ∈ x.text := by simp [htext]
  have htail : '/' ∈ x.text.tail := by
    obtain ⟨c, before, rfl⟩ := List.exists_cons_of_ne_nil hbefore
    simp [htext]
  obtain ⟨entry, hmem, hkind, hr⟩ := class_of_lexeme? h
  rw [← hkind]
  simp only [classes, List.mem_cons, List.not_mem_nil, or_false] at hmem
  rcases hmem with rfl | rfl | rfl | rfl | rfl | rfl | rfl | rfl | rfl | rfl
  · have hblank : Avoids '/' (runOf Text.isWhiteSpace) :=
      (avoids_one (by decide)).andThen (avoids_run (by decide))
    exact absurd hslash (hblank _ _ _ hr)
  · exact ⟨_, rfl, rfl⟩
  · exact ⟨_, rfl, rfl⟩
  · exact ⟨_, rfl, rfl⟩
  · exact ⟨_, rfl, rfl⟩
  · exact ⟨_, rfl, rfl⟩
  · exact ⟨_, rfl, rfl⟩
  · exact absurd hslash (avoids_slash_number _ _ _ hr)
  · have hletters : Avoids '/' identifier :=
      (avoids_one (by decide)).andThen (avoids_run (by decide))
    exact absurd hslash (hletters _ _ _ hr)
  · exact absurd htail (slash_of_operator hr)

/-! ## Openings -/

/-- At a slash and a star, comments are tried, and then the operators fit. -/
theorem lexeme?_opening (later : List Char) :
    lexeme? ('/' :: '*' :: later) =
      (((docComment ('/' :: '*' :: later)).map fun (l, rest) => ⟨some .docComment, l, rest⟩).or
        ((through ['*', '/'] later).map fun (l, rest) =>
          ⟨some .blockComment, '/' :: '*' :: l, rest⟩)).or
        (some ⟨some .operator, ['/'], '*' :: later⟩) := by
  have hblock : blockComment ('/' :: '*' :: later) =
      (through ['*', '/'] later).map fun (l, rest) => ('/' :: '*' :: l, rest) := rfl
  have hnone : ∀ entry ∈ [((none : Option TokenKind), runOf Text.isWhiteSpace),
      (some .lineComment, lineComment), (some .string, textBlock), (some .string, stringLiteral),
      (some .character, characterLiteral), (some .number, number), (some .identifier, identifier)],
      entry.2 ('/' :: '*' :: later) = none := by
    simp only [List.mem_cons, List.not_mem_nil, or_false, forall_eq_or_imp, forall_eq]
    exact ⟨rfl, rfl, rfl, rfl, rfl, rfl, rfl⟩
  have hoperator : operator ('/' :: '*' :: later) = some (['/'], '*' :: later) := rfl
  simp only [List.mem_cons, List.not_mem_nil, or_false, forall_eq_or_imp, forall_eq] at hnone
  obtain ⟨hblank, hline, htext, hstring, hcharacter, hnumber, hidentifier⟩ := hnone
  simp only [lexeme?, classes, List.findSome?_cons, hblank, hline, htext, hstring,
    hcharacter, hnumber, hidentifier, hoperator, hblock, Option.map_none, Option.map_some]
  cases docComment ('/' :: '*' :: later) with
  | some found => rfl
  | none => cases through ['*', '/'] later <;> rfl

/-- A documentation comment ends where the comment does that starts with its first star. -/
theorem docComment_ends {l : List Char} (h : docComment ('/' :: '*' :: later) = some (l, rest)) :
    ∃ body, l = '/' :: '*' :: (body ++ ['*', '/']) ∧
      EndsAt ['*', '/'] (fun _ => True) later body rest := by
  cases later with
  | nil => cases h
  | cons c later =>
    by_cases hc : c = '*'
    · subst hc
      by_cases hempty : later.head? = some '/'
      · simp [docComment, andThen, exactly, unlessNext, hempty] at h
      · simp only [docComment, andThen, exactly, List.isPrefixOf, beq_self_eq_true, Bool.and_self,
          if_true, unlessNext, List.length_cons, List.length_nil, List.drop_succ_cons, List.drop_zero,
          beq_iff_eq, hempty, if_false, Option.map_eq_some_iff, Prod.exists] at h
        obtain ⟨m, rest', hm, heq⟩ := h
        cases heq
        obtain ⟨body, rfl, hends⟩ := (through_eq_some_iff (by simp)).1 hm
        have hstart : ¬ ['*', '/'] <+: '*' :: later := by
          rintro ⟨after, hafter⟩
          exact hempty (by rw [← (List.cons.inj hafter).2]; rfl)
        exact ⟨'*' :: body, rfl, (endsAt_cons_iff fun _ => hstart).2 ⟨body, rfl, hends⟩⟩
    · simp [docComment, andThen, exactly, Ne.symm hc] at h

/-- A comment that is closed is read up to its first closing delimiter. -/
theorem lexeme?_of_closed (h : EndsAt ['*', '/'] (fun _ => True) later body rest) :
    ∃ kind : TokenKind, kind.isComment ∧
      lexeme? ('/' :: '*' :: later) = some ⟨some kind, '/' :: '*' :: (body ++ ['*', '/']), rest⟩ := by
  rw [lexeme?_opening]
  cases hdoc : docComment ('/' :: '*' :: later) with
  | none =>
    rw [(through_eq_some_iff (by simp)).2 ⟨body, rfl, h⟩]
    exact ⟨.blockComment, rfl, rfl⟩
  | some found =>
    obtain ⟨body', hl, hends⟩ := docComment_ends hdoc
    obtain ⟨rfl, hrest⟩ := hends.unique h
    obtain ⟨l, rest'⟩ := found
    obtain rfl : l = _ := hl
    obtain rfl : rest' = rest := hrest
    exact ⟨.docComment, rfl, rfl⟩

/-- The slash of a comment that is not closed is an operator. -/
theorem lexeme?_of_unclosed (h : ¬ ['*', '/'] <:+: later) :
    lexeme? ('/' :: '*' :: later) = some ⟨some .operator, ['/'], '*' :: later⟩ := by
  rw [lexeme?_opening, (through_eq_none_iff (by simp)).2 h]
  cases hdoc : docComment ('/' :: '*' :: later) with
  | none => rfl
  | some found =>
    obtain ⟨body, -, hends⟩ := docComment_ends hdoc
    exact absurd ⟨body, found.2, (List.append_assoc ..).trans hends.split.symm⟩ h

/-- A star is an operator, alone or with a sign of equality. -/
theorem lexeme?_star (later : List Char) :
    ∃ star rest, '*' :: later = star ++ rest ∧ (star = ['*'] ∨ star = ['*', '=']) ∧
      lexeme? ('*' :: later) = some ⟨some .operator, star, rest⟩ := by
  have hlexeme : lexeme? ('*' :: later) =
      (operator ('*' :: later)).map fun (l, rest) => ⟨some .operator, l, rest⟩ := by
    cases hoperator : operator ('*' :: later) <;>
      simp only [lexeme?, classes, List.findSome?_cons, hoperator] <;> rfl
  have hoperator : operator ('*' :: later) =
      ((exactly ['*', '='] ('*' :: later)).or none).or (some (['*'], later)) := rfl
  rw [hlexeme, hoperator]
  cases hequal : exactly ['*', '='] ('*' :: later) with
  | none => exact ⟨['*'], later, rfl, .inl rfl, rfl⟩
  | some found =>
    obtain ⟨l, rest⟩ := found
    obtain ⟨rfl, hsplit⟩ := exactly_inv hequal
    exact ⟨['*', '='], rest, hsplit, .inr rfl, rfl⟩

/-! ## Slashes of a text -/

/-- The place behind a part of the text is inside a literal or comment that is read as a token. -/
def InsideOpaque (cs read : List Char) : Prop :=
  ∃ outer x kind, cs = outer ++ (x.text ++ x.rest) ∧ Lexed cs (x.text ++ x.rest) ∧
    lexeme? (x.text ++ x.rest) = some x ∧ x.kind = some kind ∧ kind.isOpaque ∧
    outer.length < read.length ∧ read.length < (outer ++ x.text).length

theorem InsideOpaque.step {read : List Char} (hx : lexeme? cs = some x)
    (h : InsideOpaque x.rest read) : InsideOpaque cs (x.text ++ read) := by
  obtain ⟨outer, y, kind, hrest, hlexed, hy, hkind, hopaque, hafter, hbefore⟩ := h
  refine ⟨x.text ++ outer, y, kind, ?_, .step hx hlexed, hy, hkind, hopaque, ?_, ?_⟩
  · rw [List.append_assoc, ← hrest, (lexeme?_splits hx).1]
  · simpa using hafter
  · simpa [List.append_assoc] using hbefore

/-- The reading of a text comes to a slash in it, unless the slash is inside a literal or a comment or
the reading stops before it. -/
theorem slash_reached {read : List Char} (h : cs = read ++ '/' :: later) :
    Lexed cs ('/' :: later) ∨ InsideOpaque cs read ∨
      ∃ skipped, Lexed cs (skipped ++ '/' :: later) ∧ lexeme? (skipped ++ '/' :: later) = none := by
  induction hn : read.length using Nat.strongRecOn generalizing cs read with
  | ind n ih =>
    cases hx : lexeme? cs with
    | none => exact .inr (.inr ⟨read, h ▸ .refl cs, h ▸ hx⟩)
    | some x =>
      obtain ⟨hsplit, hne⟩ := lexeme?_splits hx
      rcases List.append_eq_append_iff.1 (hsplit.trans h) with ⟨more, hread, hrest⟩ | ⟨more, htext, hslash⟩
      · -- the slash comes behind the first lexeme
        have hlt : more.length < n := by
          have := List.length_pos_iff.2 hne
          rw [← hn, hread, List.length_append]
          omega
        rw [hread]
        rcases ih _ hlt hrest rfl with hlexed | hinside | ⟨skipped, hlexed, hnone⟩
        · exact .inl (.step hx hlexed)
        · exact .inr (.inl (hinside.step hx))
        · exact .inr (.inr ⟨skipped, .step hx hlexed, hnone⟩)
      · cases more with
        | nil =>
          have hrest : '/' :: later = x.rest := hslash
          rw [hrest]
          exact .inl (.step hx (.refl _))
        | cons c more =>
          obtain ⟨rfl, hlater⟩ := List.cons.inj hslash
          by_cases hread : read = []
          · subst hread
            exact .inl (h ▸ .refl _)
          · obtain ⟨kind, hkind, hopaque⟩ := opaque_of_slash hx htext hread
            refine .inr (.inl ⟨[], x, kind, hsplit.symm, hsplit ▸ .refl _, hsplit ▸ hx, hkind, hopaque,
              List.length_pos_iff.2 hread, ?_⟩)
            simp [htext]

/-- Every slash and star of a text is inside a literal or a comment, or behind the place where the
reading of the text stops, or the reading comes to it. If the comment that begins there is closed, it
is a token up to its first closing delimiter. If it is not, the slash and the star are operators and
the reading goes on behind them. So where a slash and a star stand side by side as operators of a text
that is read, the rest of the text closes no comment. -/
theorem comment_openings (text : String) :
    (∀ read later, text.toList = read ++ '/' :: '*' :: later →
      (Lexed text.toList ('/' :: '*' :: later) ∨ InsideOpaque text.toList read ∨
        ∃ skipped, Lexed text.toList (skipped ++ '/' :: '*' :: later) ∧
          lexeme? (skipped ++ '/' :: '*' :: later) = none) ∧
      (Lexed text.toList ('/' :: '*' :: later) →
        (['*', '/'] <:+: later → ∃ body rest kind, EndsAt ['*', '/'] (fun _ => True) later body rest ∧
          kind.isComment ∧ TokenAt text read kind ('/' :: '*' :: (body ++ ['*', '/'])) rest) ∧
        (¬ ['*', '/'] <:+: later → ∃ star rest, '*' :: later = star ++ rest ∧
          (star = ['*'] ∨ star = ['*', '=']) ∧ Lexed text.toList rest ∧
          TokenAt text read .operator ['/'] (star ++ rest) ∧
          TokenAt text (read ++ ['/']) .operator star rest))) ∧
    ∀ ts, tokens text = .ok ts → ∃ first pieces, text.toList = first ++ written pieces ∧
      Blank first ∧ ts = pieces.map (·.token) ∧
      ∀ before p q after, pieces = before ++ p :: q :: after → p.token.kind = .operator →
        p.token.text = "/" → p.gap = [] → q.token.text.toList.head? = some '*' →
        ¬ ['*', '/'] <:+: q.token.text.toList.tail ++ (q.gap ++ written after) := by
  refine ⟨fun read later htext => ⟨slash_reached htext, fun hlexed => ⟨fun hclosed => ?_,
    fun hopen => ?_⟩⟩, fun ts hts => ?_⟩
  · obtain ⟨body, rest, hends⟩ := exists_endsAt_of_infix hclosed
    obtain ⟨kind, hcomment, hx⟩ := lexeme?_of_closed hends
    exact ⟨body, rest, kind, hends, hcomment, hlexed.tokenAt htext hx⟩
  -- not closed: no class of comments fits, and a slash is an operator
  · have hslash := lexeme?_of_unclosed hopen
    obtain ⟨star, rest, hsplit, hstar, hx⟩ := lexeme?_star later
    have hnext : Lexed text.toList ('*' :: later) := hlexed.trans (.step hslash (.refl _))
    refine ⟨star, rest, hsplit, hstar, hnext.trans (.step hx (.refl _)), ?_, ?_⟩
    · exact hsplit ▸ hlexed.tokenAt htext hslash
    · exact hnext.tokenAt (htext.trans (List.append_assoc read ['/'] _).symm) hx
  · obtain ⟨first, pieces, hcs, hfirst, rfl, hlayout⟩ := layout_of_tokensFrom hts
    refine ⟨first, pieces, hcs, hfirst, rfl, ?_⟩
    rintro before p q after rfl hkind hslash hgap hstar hclosed
    obtain ⟨star, hstar⟩ : ∃ star, q.token.text.toList = '*' :: star := by
      cases htext : q.token.text.toList with
      | nil => simp [htext] at hstar
      | cons c star =>
        rw [htext] at hstar
        obtain rfl : c = '*' := Option.some.inj hstar
        exact ⟨star, rfl⟩
    -- a comment that is closed would have been read instead of the slash
    obtain ⟨hlexeme, -⟩ := hlayout.later
    have hplace : written (p :: q :: after) =
        '/' :: '*' :: (q.token.text.toList.tail ++ (q.gap ++ written after)) := by
      rw [written_cons, written_cons, hslash, hgap, hstar]
      rfl
    -- closed: the first class of comments that fits takes it
    obtain ⟨body, rest, hends⟩ := exists_endsAt_of_infix hclosed
    obtain ⟨kind, hcomment, hx⟩ := lexeme?_of_closed hends
    rw [hplace, hx] at hlexeme
    have hsame : kind = p.token.kind := by
      simpa using congrArg Lexeme.kind (Option.some.inj hlexeme)
    rw [hsame, hkind] at hcomment
    cases hcomment

/-- The words of a comment that is not closed are read as code: in `1 /* b.c` a slash and a star stand
side by side, and the field `c` of `b` is accessed. -/
theorem unclosed_comment_read :
    let text := "class A \x7b int x = 1 /* b.c; \x7d"
    let piece (kind : TokenKind) (word : String) (gap : List Char) : Piece := ⟨⟨kind, word, 1, 1⟩, gap⟩
    let before := [piece .identifier "class" [' '], piece .identifier "A" [' '],
      piece .operator "\x7b" [' '], piece .identifier "int" [' '], piece .identifier "x" [' '],
      piece .operator "=" [' '], piece .number "1" [' ']]
    let after := [piece .identifier "b" [], piece .operator "." [], piece .identifier "c" [],
      piece .operator ";" [' '], piece .operator "\x7d" []]
    let pieces := before ++ piece .operator "/" [] :: piece .operator "*" [' '] :: after
    text.toList = written pieces ∧ tokens text = .ok (pieces.map (·.token)) ∧
      ∃ u, CompilationUnit.parse text = .ok u ∧
        u.accesses = [⟨.field, "c", "b", .name, 1, none⟩] := by
  intro text piece before after pieces
  have haccesses : (CompilationUnit.parse text).map (·.accesses) =
      .ok [⟨.field, "c", "b", .name, 1, none⟩] := by decide +kernel
  refine ⟨by decide +kernel, by decide +kernel, ?_⟩
  exact CompilationUnit.exists_of_parse_map haccesses

end Assay.Source
