import Assay.Proofs.SimulationFile

/-!
# The texts of literals

A parser asks for words and signs, and none of these is written with a quote or a digit. Every literal
is, so that no test on the text of a token is steered by what stands inside a literal. Main statement:
other texts between the quotes of a file's literals change nothing in how the file is read
(`literals_not_read`).
-/

namespace Assay.Source

open Assay.Source.Parser

/-! ## Characters that mark a literal -/

/-- The character is a quote or a digit. -/
def isLiteralMark (c : Char) : Bool := c == '"' || c == '\'' || Text.isDecimalDigit c

/-- What the recogniser splits off has a character of the class. -/
def Contains (p : Char → Bool) (r : Recogniser) : Prop :=
  ∀ cs l rest, r cs = some (l, rest) → l.any p

variable {p q : Char → Bool} {r s : Recogniser}

/-- One character contains itself. -/
theorem contains_one (hqp : ∀ c, q c → p c) : Contains p (one q) := by
  intro cs l rest h
  obtain ⟨c, hc, rfl, -⟩ := one_inv h
  simp [hqp c hc]

/-- A fixed word contains its characters. -/
theorem contains_exactly {word : List Char} (hword : word.any p) : Contains p (exactly word) := by
  intro cs l rest h
  rwa [(exactly_inv h).1]

/-- What the first recogniser contains is in both. -/
theorem Contains.andThen_left (hr : Contains p r) (s : Recogniser) : Contains p (andThen r s) := by
  intro cs l rest h
  obtain ⟨first, mid, second, hfirst, -, rfl⟩ := andThen_inv h
  rw [List.any_append, hr _ _ _ hfirst, Bool.true_or]

/-- What the second recogniser contains is in both. -/
theorem Contains.andThen_right (r : Recogniser) (hs : Contains p s) : Contains p (andThen r s) := by
  intro cs l rest h
  obtain ⟨first, mid, second, -, hsecond, rfl⟩ := andThen_inv h
  rw [List.any_append, hs _ _ _ hsecond, Bool.or_true]

/-- The first of some recognisers contains what each of them does. -/
theorem contains_firstOf {rs : List Recogniser} (h : ∀ r ∈ rs, Contains p r) :
    Contains p (firstOf rs) := by
  intro cs l rest hl
  obtain ⟨r, hr, hfound⟩ := firstOf_inv hl
  exact h r hr cs l rest hfound

/-- Digits contain a mark of literals. -/
theorem contains_digits : Contains isLiteralMark digits :=
  (contains_one fun c hc => by simp [isLiteralMark, hc]).andThen_left _

/-- A number contains a mark of literals. -/
theorem contains_number : Contains isLiteralMark number := by
  have hzero : Contains isLiteralMark (exactly ['0']) := contains_exactly (by decide)
  apply contains_firstOf
  simp only [List.mem_cons, List.not_mem_nil, or_false, forall_eq_or_imp, forall_eq]
  refine ⟨hzero.andThen_left _, hzero.andThen_left _, hzero.andThen_left _, ?_⟩
  -- the digits of a decimal number come before or after its point
  apply Contains.andThen_left
  apply contains_firstOf
  simp only [List.mem_cons, List.not_mem_nil, or_false, forall_eq_or_imp, forall_eq]
  exact ⟨contains_digits.andThen_left _, .andThen_right _ contains_digits, contains_digits⟩

/-- Every class of literals is marked by a quote or a digit. -/
theorem classes_contain : ∀ entry ∈ classes, ∀ kind, entry.1 = some kind → kind.isLiteral →
    Contains isLiteralMark entry.2 := by
  have hquote : ∀ {word : List Char}, word.any isLiteralMark → ∀ r,
      Contains isLiteralMark (andThen (exactly word) r) :=
    fun hword r => (contains_exactly hword).andThen_left r
  intro entry hentry kind hkind hliteral
  simp only [classes, List.mem_cons, List.not_mem_nil, or_false] at hentry
  rcases hentry with rfl | rfl | rfl | rfl | rfl | rfl | rfl | rfl | rfl | rfl <;> cases hkind
  · cases hliteral
  · cases hliteral
  · cases hliteral
  · exact hquote (by decide) _
  · exact hquote (by decide) _
  · exact hquote (by decide) _
  · exact contains_number
  · cases hliteral
  · cases hliteral

/-- The text of a literal has a mark of literals in it. -/
theorem mark_of_lexeme? {cs : List Char} {x : Lexeme} {kind : TokenKind} (h : lexeme? cs = some x)
    (hkind : x.kind = some kind) (hliteral : kind.isLiteral) : x.text.any isLiteralMark := by
  obtain ⟨entry, hmem, hx⟩ := List.exists_of_findSome?_eq_some h
  obtain ⟨⟨l, rest⟩, hr, rfl⟩ := Option.map_eq_some_iff.1 hx
  exact classes_contain entry hmem kind hkind hliteral _ _ _ hr

/-! ## Tests on the text alone -/

/-- The token has the text of its sort: a literal is marked as one. -/
def Token.IsMarked (t : Token) : Prop := t.isLiteral → t.text.toList.any isLiteralMark

/-- The literals of a text are marked. -/
theorem marked_of_tokensFrom {line : Nat} {cs : List Char} {ts : List Token}
    (h : tokensFrom line cs = .ok ts) : ∀ t ∈ ts, t.IsMarked := by
  intro t ht hliteral
  obtain ⟨cs', x, hx, hkind, htext⟩ := lexeme_of_tokensFrom h ht
  rw [htext]
  exact mark_of_lexeme? hx hkind hliteral

/-- A word that a parser can ask for: it has no quote and no digit. -/
def IsAsked (word : String) : Prop := word.toList.any isLiteralMark = false

instance (word : String) : Decidable (IsAsked word) := inferInstanceAs (Decidable (_ = false))

/-- All reserved words and signs can be asked for, and so can the words that are reserved in places. -/
theorem isAsked_of_vocabulary : ∀ word ∈ keywords ++ signs ++
    ["module", "open", "non", "sealed", "record", "yield"], IsAsked word := by decide +kernel

/-- Comparing the text of a token of the code with a word tells whether the token spells it: whether
the text belongs to a literal makes no difference. -/
theorem Token.IsMarked.text_eq {t : Token} {word : String} (h : t.IsMarked)
    (hcode : t.isComment = false) (hword : IsAsked word) : (t.text == word) = t.spells word := by
  cases hliteral : t.isLiteral with
  | true =>
    rw [spells_of_isLiteral hliteral, beq_eq_false_iff_ne]
    rintro rfl
    have hmark := h hliteral
    rw [hword] at hmark
    cases hmark
  | false =>
    -- what is neither a comment nor a literal is a word or a sign
    have hkind : (t.isIdentifier || t.isOperator) = true := by
      cases hk : t.kind <;> simp_all [Token.isLiteral, TokenKind.isLiteral, Token.isComment,
        TokenKind.isComment, Token.isIdentifier, Token.isOperator]
    rw [Token.spells, hkind, Bool.true_and]

/-! ## Other texts between the quotes -/

/-- The kinds of literals that stand between quotes. -/
def TokenKind.isQuoted : TokenKind → Bool
  | .string | .character => true
  | _ => false

/-- What is quoted is a literal. -/
theorem TokenKind.isLiteral_of_isQuoted {kind : TokenKind} (h : kind.isQuoted) : kind.isLiteral := by
  cases kind <;> first | rfl | cases h

/-- The text is a lexeme of the kind from its first character to its last. -/
def TokenKind.Fits (kind : TokenKind) (text : String) : Prop :=
  lexeme? text.toList = some ⟨some kind, text.toList, []⟩

/-- The second token is the first one, or both are literals between quotes on the same lines. -/
def Token.Requoted (t u : Token) : Prop :=
  t = u ∨ (t.kind.isQuoted ∧ u.kind.isQuoted ∧ u.kind.Fits u.text ∧ t.line = u.line ∧
    t.endLine = u.endLine)

namespace Token.Requoted

variable {t u : Token}

/-- A requoted token is alike on its own line. -/
theorem alikeThrough (h : t.Requoted u) : t.AlikeThrough Eq u := by
  rcases h with rfl | ⟨ht, hu, -, hline, hend⟩
  · exact ⟨.refl t, rfl⟩
  · exact ⟨⟨.inr ⟨TokenKind.isLiteral_of_isQuoted ht, TokenKind.isLiteral_of_isQuoted hu⟩, hline⟩, hend⟩

/-- A requoted token is a comment exactly where it was one. -/
theorem isComment (h : t.Requoted u) : t.isComment = u.isComment := by
  rcases h with rfl | ⟨ht, hu, -⟩
  · rfl
  · have hnone : ∀ {kind : TokenKind}, kind.isQuoted → kind.isComment = false := by
      intro kind hkind
      cases kind <;> first | rfl | cases hkind
    rw [Token.isComment, Token.isComment, hnone ht, hnone hu]

/-- A requoted token stays marked. -/
theorem isMarked (h : t.Requoted u) (ht : t.IsMarked) : u.IsMarked := by
  rcases h with rfl | ⟨-, hquoted, hfits, -⟩
  · exact ht
  · exact fun _ => mark_of_lexeme? hfits rfl (TokenKind.isLiteral_of_isQuoted hquoted)

end Token.Requoted

/-- The code of a file has other literals if the file has. -/
theorem requoted_codeOf {all all' : List Token} (h : List.Forall₂ Token.Requoted all all') :
    List.Forall₂ Token.Requoted (codeOf all) (codeOf all') :=
  List.rel_filter (fun _ _ hrequoted => by simp [hrequoted.isComment]) h

/-- Requoted tokens stay marked. -/
theorem marked_of_requoted {all all' : List Token} (h : List.Forall₂ Token.Requoted all all')
    (hall : ∀ t ∈ all, t.IsMarked) : ∀ t ∈ all', t.IsMarked := by
  induction h with
  | nil => exact hall
  | cons hrequoted _ ih =>
    obtain ⟨hfirst, hrest⟩ := List.forall_mem_cons.1 hall
    exact List.forall_mem_cons.2 ⟨hrequoted.isMarked hfirst, ih hrest⟩

/-- Equal lines make alike outcomes the same facts, or the same error code on the same line. -/
theorem FactsAlike.same {o o' : Except SourceError (List Fact)} (h : FactsAlike Eq o o') :
    (∀ facts, o = .ok facts ↔ o' = .ok facts) ∧
      ∀ code line, (∃ e, o = .error e ∧ e.fault.code = code ∧ e.line = line) ↔
        ∃ e, o' = .error e ∧ e.fault.code = code ∧ e.line = line := by
  cases o with
  | ok facts =>
    cases o' with
    | ok facts' =>
      obtain rfl : facts = facts' := eq_of_forall₂_alike h
      exact ⟨fun _ => Iff.rfl, fun _ _ => Iff.rfl⟩
    | error e' => exact h.elim
  | error e =>
    cases o' with
    | ok facts' => exact h.elim
    | error e' =>
      obtain ⟨hcode, hline⟩ := h
      refine ⟨fun _ => ⟨nofun, nofun⟩, fun code line => ⟨?_, ?_⟩⟩
      · rintro ⟨_, ⟨⟩, rfl, rfl⟩
        exact ⟨e', rfl, hcode.symm, hline.symm⟩
      · rintro ⟨_, ⟨⟩, rfl, rfl⟩
        exact ⟨e, rfl, hcode, hline⟩

/-- Whatever stands between the quotes of a text's literals, the text is read in the same way: with
the same facts, or with a failure of the same kind on the same line. That also goes for a reading by
the texts of tokens alone, since on both sides the text of a token is a word that can be asked for
only if the token spells that word. -/
theorem literals_not_read {text : String} {all all' : List Token} (h : tokens text = .ok all)
    (hall : List.Forall₂ Token.Requoted all all') :
    (∀ facts, factsOf (codeOf all) = .ok facts ↔ factsOf (codeOf all') = .ok facts) ∧
    (∀ code line,
      (∃ e, factsOf (codeOf all) = .error e ∧ e.fault.code = code ∧ e.line = line) ↔
        ∃ e, factsOf (codeOf all') = .error e ∧ e.fault.code = code ∧ e.line = line) ∧
    ∀ t ∈ codeOf all ++ codeOf all', ∀ word, IsAsked word → (t.text == word) = t.spells word := by
  have hcode := requoted_codeOf hall
  have halike : FactsAlike Eq (factsOf (codeOf all)) (factsOf (codeOf all')) :=
    factsOf_alike rfl (hcode.imp fun _ _ hrequoted => hrequoted.alikeThrough)
  obtain ⟨hfacts, herrors⟩ := halike.same
  refine ⟨hfacts, herrors, fun t ht word hword => ?_⟩
  have hmarked : ∀ u ∈ all, u.IsMarked := marked_of_tokensFrom h
  have hcomment : ∀ ts, t ∈ codeOf ts → t ∈ ts ∧ t.isComment = false := fun ts ht => by
    simpa [codeOf] using ht
  rcases List.mem_append.1 ht with ht | ht
  · obtain ⟨hmem, hnone⟩ := hcomment all ht
    exact (hmarked t hmem).text_eq hnone hword
  · obtain ⟨hmem, hnone⟩ := hcomment all' ht
    exact (marked_of_requoted hall hmarked t hmem).text_eq hnone hword

/-- A string with a closing brace inside and a character in its place: both classes are read alike. -/
theorem literals_not_read_braces :
    let quoted (kind : TokenKind) (literal : String) : List Token :=
      [.word "class" 1, .word "A" 1, .sign "\x7b" 1, .word "String" 1, .word "s" 1, .sign "=" 1,
        ⟨kind, literal, 1, 1⟩, .sign ";" 1, .sign "\x7d" 1]
    let all := quoted .string "\"\x7d class\""
    let all' := quoted .character "';'"
    (tokens "class A \x7b String s = \"\x7d class\"; \x7d" = .ok all ∧
      List.Forall₂ Token.Requoted all all') ∧
    (∀ facts, factsOf (codeOf all) = .ok facts ↔ factsOf (codeOf all') = .ok facts) ∧
    (∀ code line,
      (∃ e, factsOf (codeOf all) = .error e ∧ e.fault.code = code ∧ e.line = line) ↔
        ∃ e, factsOf (codeOf all') = .error e ∧ e.fault.code = code ∧ e.line = line) ∧
    ∀ t ∈ codeOf all ++ codeOf all', ∀ word, IsAsked word → (t.text == word) = t.spells word := by
  intro quoted all all'
  have htokens : tokens "class A \x7b String s = \"\x7d class\"; \x7d" = .ok all := by decide +kernel
  have hfits : TokenKind.Fits .character "';'" := by rfl
  have hall : List.Forall₂ Token.Requoted all all' := by
    have hsame : ∀ ts, List.Forall₂ Token.Requoted ts ts := fun ts =>
      List.forall₂_same.2 fun t _ => .inl rfl
    exact List.rel_append (hsame (all.take 6)) (.cons (.inr ⟨rfl, rfl, hfits, rfl, rfl⟩)
      (hsame (all.drop 7)))
  exact ⟨⟨htokens, hall⟩, literals_not_read htokens hall⟩

end Assay.Source
