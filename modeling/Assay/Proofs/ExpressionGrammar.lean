import Assay.Proofs.MemberSelection

/-!
# Written expressions and their accesses

`Accesses` relates the tokens of an expression to the facts they stand for. Its rules are those of
the language: which member is accessed through what is told by the rule, and not by looking at the
tokens. From the rules it follows how such tokens look to the tests of the parser: their brackets
match, their commas are counted, and no parenthesis before them is taken for a cast.
-/

namespace Assay.Source

/-- The sorts of phrase an expression is made of. -/
inductive Shape
  | expression
  /-- An expression that a dot or a square bracket may follow. -/
  | value
  /-- A member selected through the given qualifier. -/
  | member (qualifier : String) (kind : QualifierKind)
  | arguments (count : Nat)

/-- The names of lambda parameters, separated by commas. -/
inductive Parameters : List Token → List Token → Prop
  | none : Parameters [] []
  | one {x : Token} (hx : x.IsIdentifier) : Parameters [x] [x]
  | more {x comma y : Token} {xs ts : List Token} (hx : x.IsIdentifier) (hcomma : comma.IsSign ",")
      (hxs : Parameters (y :: xs) ts) : Parameters (x :: y :: xs) (x :: comma :: ts)

/-- The tokens are a phrase of the shape, in a type of the given name, and the facts are what it
stands for: its accesses and the parameters of its lambda expressions, in reading order. -/
inductive Accesses (owner : String) : Shape → List Token → List Fact → Prop
  | literal {t : Token} (ht : t.isLiteral) : Accesses owner .expression [t] []
  | constant {t : Token} {word : String} (ht : t.IsWord word)
      (hword : word ∈ ["true", "false", "null"]) : Accesses owner .expression [t] []
  | string {t : Token} (ht : t.kind = .string) : Accesses owner .value [t] []
  | chain {t : Token} {ts : List Token} {names : List String} (ht : t.IsIdentifier)
      (hts : Segments ts names) :
      Accesses owner .expression (t :: ts) (chainAccesses t.line [t.text] names)
  | chainCall {t l r : Token} {ts as : List Token} {names : List String} {arity : Nat}
      {facts : List Fact} (ht : t.IsIdentifier) (hts : Segments ts names) (hl : l.IsSign "(")
      (has : Accesses owner (.arguments arity) as facts) (hr : r.IsSign ")") :
      Accesses owner .value (t :: (ts ++ l :: (as ++ [r]))) (chainCall t names arity ++ facts)
  | field {n : Token} {qualifier : String} {kind : QualifierKind} (hn : n.IsIdentifier) :
      Accesses owner (.member qualifier kind) [n] [fieldAccess n.text qualifier kind n.line]
  | method {n l r : Token} {as : List Token} {qualifier : String} {kind : QualifierKind}
      {arity : Nat} {facts : List Fact} (hn : n.IsIdentifier) (hl : l.IsSign "(")
      (has : Accesses owner (.arguments arity) as facts) (hr : r.IsSign ")") :
      Accesses owner (.member qualifier kind) (n :: l :: (as ++ [r]))
        (methodAccess n.text qualifier kind n.line arity :: facts)
  | received {t dot : Token} {ms : List Token} {facts : List Fact} (receiver : Receiver)
      (ht : t.IsWord receiver.word) (hdot : dot.IsSign ".")
      (hms : Accesses owner (.member receiver.word receiver.kind) ms facts) :
      Accesses owner .value (t :: dot :: ms) facts
  | selection {dot : Token} {ps ms : List Token} {fs facts : List Fact}
      (hps : Accesses owner .value ps fs) (hdot : dot.IsSign ".")
      (hms : Accesses owner (.member "" .expression) ms facts) :
      Accesses owner .value (ps ++ dot :: ms) (fs ++ facts)
  | element {l r : Token} {ps es : List Token} {fs facts : List Fact}
      (hps : Accesses owner .value ps fs) (hl : l.IsSign "[")
      (hes : Accesses owner .expression es facts) (hr : r.IsSign "]") :
      Accesses owner .value (ps ++ l :: (es ++ [r])) (fs ++ facts)
  | chainElement {t l r : Token} {ts es : List Token} {names : List String} {facts : List Fact}
      (ht : t.IsIdentifier) (hts : Segments ts names) (hl : l.IsSign "[")
      (hes : Accesses owner .expression es facts) (hr : r.IsSign "]") :
      Accesses owner .value (t :: (ts ++ l :: (es ++ [r])))
        (chainAccesses t.line [t.text] names ++ facts)
  | creation {new c l r : Token} {as : List Token} {arity : Nat} {facts : List Fact}
      (hnew : new.IsWord "new") (hc : c.IsIdentifier) (hl : l.IsSign "(")
      (has : Accesses owner (.arguments arity) as facts) (hr : r.IsSign ")") :
      Accesses owner .value (new :: c :: l :: (as ++ [r])) facts
  | parenthesized {l r : Token} {es : List Token} {facts : List Fact} (hl : l.IsSign "(")
      (hes : Accesses owner .expression es facts) (hr : r.IsSign ")") :
      Accesses owner .value (l :: (es ++ [r])) facts
  | value {ps : List Token} {facts : List Fact} (hps : Accesses owner .value ps facts) :
      Accesses owner .expression ps facts
  | binary {op : Token} {ds es : List Token} {fs facts : List Fact}
      (hds : Accesses owner .expression ds fs) (hop : op.IsBinary)
      (hes : Accesses owner .expression es facts) :
      Accesses owner .expression (ds ++ op :: es) (fs ++ facts)
  | lambda {x arrow : Token} {es : List Token} {facts : List Fact} (hx : x.IsIdentifier)
      (harrow : arrow.IsSign "->") (hes : Accesses owner .expression es facts) :
      Accesses owner .expression (x :: arrow :: es)
        (Parser.declaredValue .parameter owner x ++ facts)
  | lambdaList {l r arrow : Token} {xs ps es : List Token} {facts : List Fact} (hl : l.IsSign "(")
      (hps : Parameters xs ps) (hr : r.IsSign ")") (harrow : arrow.IsSign "->")
      (hes : Accesses owner .expression es facts) :
      Accesses owner .expression (l :: (ps ++ r :: arrow :: es))
        (xs.flatMap (Parser.declaredValue .parameter owner) ++ facts)
  | methodReference {c colons n : Token} (hc : c.IsIdentifier) (hcolons : colons.IsSign "::")
      (hn : n.IsIdentifier) : Accesses owner .expression [c, colons, n] []
  | noArguments : Accesses owner (.arguments 0) [] []
  | argument {es : List Token} {facts : List Fact} (hes : Accesses owner .expression es facts) :
      Accesses owner (.arguments 1) es facts
  | moreArguments {comma : Token} {es as : List Token} {count : Nat} {fs facts : List Fact}
      (hes : Accesses owner .expression es fs) (hcomma : comma.IsSign ",")
      (has : Accesses owner (.arguments (count + 1)) as facts) :
      Accesses owner (.arguments (count + 2)) (es ++ comma :: as) (fs ++ facts)

variable {owner : String} {shape : Shape} {ts rest : List Token} {facts : List Fact} {t : Token}

/-! ## Brackets and commas -/

/-- An operator between operands opens and closes nothing. -/
theorem Token.IsBinary.isPlain (h : t.IsBinary) : t.IsPlain := by
  have hnone : ∀ op ∈ binaryOperators, bracketPairs.lookup op = none := by decide
  refine ⟨?_, h.isCloser⟩
  simp [Token.closer?, Token.isOperator, h.1, hnone _ h.2]

/-- A sign that is no bracket, comma or angle bracket stands alone. -/
theorem Grouped.sign {sign : String} (h : t.IsSign sign)
    (hs : bracketPairs.lookup sign = none ∧ sign ∉ closers ∧ sign ≠ "," ∧ sign ≠ "<")
    (hts : Grouped ts) : Grouped (t :: ts) :=
  .token (h.isPlain hs.1 hs.2.1) (by simp [h.spells, hs.2.2.1]) (by simp [h.spells, hs.2.2.2]) hts

/-- A name keeps a grouped part grouped. -/
theorem Grouped.identifier (h : t.IsIdentifier) (hts : Grouped ts) : Grouped (t :: ts) :=
  .token h.isPlain (by simp [h.spells_signs]) (by simp [h.spells_signs]) hts

/-- A keyword that is neither a comma nor an angle bracket keeps a grouped part grouped. -/
theorem Grouped.word {word : String} (h : t.IsWord word) (hs : word ≠ "," ∧ word ≠ "<")
    (hts : Grouped ts) : Grouped (t :: ts) :=
  .token h.isPlain (by simp [h.spells, hs.1]) (by simp [h.spells, hs.2]) hts

/-- A literal alone is a grouped part. -/
theorem Grouped.literal (h : t.isLiteral) : Grouped [t] :=
  .token (Token.isPlain_of_isLiteral h) (Token.spells_of_isLiteral h _)
    (Token.spells_of_isLiteral h _) .nil

/-- The names of a chain are a grouped part. -/
theorem Segments.grouped {names : List String} (h : Segments ts names) : Grouped ts := by
  induction h with
  | nil => exact .nil
  | cons hdot ht _ ih => exact .sign hdot (by decide) (.identifier ht ih)

/-- A pair of parentheses around what is bracketed is a part of a grouped one. -/
theorem Grouped.parens {l r : Token} {inside : List Token} (hl : l.IsSign "(")
    (h : Bracketed inside) (hr : r.IsSign ")") (hts : Grouped ts) :
    Grouped (l :: (inside ++ r :: ts)) :=
  .group (hl.opens rfl) h (hr.closes (by decide)) hts

/-- A pair of square brackets around what is bracketed is a part of a grouped one. -/
theorem Grouped.squares {l r : Token} {inside : List Token} (hl : l.IsSign "[")
    (h : Bracketed inside) (hr : r.IsSign "]") (hts : Grouped ts) :
    Grouped (l :: (inside ++ r :: ts)) :=
  .group (hl.opens rfl) h (hr.closes (by decide)) hts

/-- The parameters of a lambda expression are bracketed. -/
theorem Parameters.bracketed {xs : List Token} (h : Parameters xs ts) : Bracketed ts := by
  induction h with
  | none => exact .nil
  | one hx => exact .token hx.isPlain .nil
  | more hx hcomma _ ih =>
    exact .token hx.isPlain (.token (hcomma.isPlain (by decide) (by decide)) ih)

/-- What the brackets and commas of a phrase are: those of an expression match and no comma of it
counts, and arguments have one comma fewer than their number. -/
def Counted : Shape → List Token → Prop
  | .arguments count, ts => Bracketed ts ∧ argumentCount ts = count
  | _, ts => Grouped ts

/-- A part without commas outside of brackets is one argument. -/
theorem argumentCount_of_grouped (h : Grouped ts) (hne : ts ≠ []) : argumentCount ts = 1 := by
  have hcount := h.commaCount []
  rw [List.append_nil, commaCount] at hcount
  have hempty : ts.isEmpty = false := by
    rw [List.isEmpty_eq_false_iff]
    exact hne
  rw [argumentCount, hempty, hcount]
  rfl

/-- A comma outside of brackets starts one more argument. -/
theorem argumentCount_more {comma : Token} (h : Grouped ts) (hcomma : comma.IsSign ",")
    (hrest : argumentCount rest ≠ 0) :
    argumentCount (ts ++ comma :: rest) = argumentCount rest + 1 := by
  have hne : rest.isEmpty = false := by
    cases rest with
    | nil => exact absurd rfl hrest
    | cons => rfl
  have hplain : comma.IsPlain := hcomma.isPlain (by decide) (by decide)
  rw [argumentCount, argumentCount, h.commaCount,
    commaCount_plain hplain.1 (by simp [hcomma.spells])]
  simp [hne, hcomma.spells]
  omega

/-- The token can stand first in an expression. -/
def Token.startsExpression (t : Token) : Bool := !t.spells "]" && !t.isPrimitive

/-- What a list starts with is what it starts with if more comes behind it. -/
theorem startsWith_append {p : Token → Bool} (h : startsWith p ts) (us : List Token) :
    startsWith p (ts ++ us) := by
  cases ts with
  | nil => simp at h
  | cons t ts => exact h

/-- A name may start an expression. -/
theorem Token.IsIdentifier.startsExpression (h : t.IsIdentifier) : t.startsExpression := by
  simp [Token.startsExpression, h.spells_signs, h.isPrimitive]

/-- A keyword may start an expression, unless it names a primitive type. -/
theorem Token.IsWord.startsExpression {word : String} (h : t.IsWord word)
    (hw : word ≠ "]" ∧ word ∉ primitiveTypes) : t.startsExpression := by
  simp [Token.startsExpression, h.spells, h.isPrimitive, hw]

/-- A sign may start an expression, unless it closes a pair of square brackets. -/
theorem Token.IsSign.startsExpression {sign : String} (h : t.IsSign sign)
    (hs : sign ≠ "]") : t.startsExpression := by
  simp [Token.startsExpression, h.spells, h.isPrimitive, hs]

/-- A literal may start an expression. -/
theorem Token.startsExpression_of_isLiteral (h : t.isLiteral) : t.startsExpression := by
  simp [Token.startsExpression, Token.spells_of_isLiteral h, Token.isPrimitive,
    Token.isIdentifier_of_isLiteral h]

/-- A string is a literal. -/
theorem Token.isLiteral_of_string (h : t.kind = .string) : t.isLiteral := by
  simp [Token.isLiteral, h, TokenKind.isLiteral]

/-- What is used of the constants that are words. -/
theorem constant_words : ∀ word ∈ ["true", "false", "null"], (word ≠ "," ∧ word ≠ "<") ∧
    (word ≠ "]" ∧ word ∉ primitiveTypes) ∧ word ∈ keywords := by decide

/-- No phrase but the empty list of arguments is empty. -/
theorem Accesses.starts (h : Accesses owner shape ts facts) (hshape : shape ≠ .arguments 0) :
    startsWith (·.startsExpression) ts := by
  induction h with
  | literal ht => exact Token.startsExpression_of_isLiteral ht
  | constant ht hword => exact ht.startsExpression (constant_words _ hword).2.1
  | string ht => exact Token.startsExpression_of_isLiteral (Token.isLiteral_of_string ht)
  | chain ht => exact ht.startsExpression
  | chainCall ht => exact ht.startsExpression
  | field hn => exact hn.startsExpression
  | method hn => exact hn.startsExpression
  | received receiver ht => exact ht.startsExpression (by cases receiver <;> decide)
  | selection _ _ _ ih => exact startsWith_append (ih (by simp)) _
  | element _ _ _ _ ih => exact startsWith_append (ih (by simp)) _
  | chainElement ht => exact ht.startsExpression
  | creation hnew => exact hnew.startsExpression (by decide)
  | parenthesized hl => exact hl.startsExpression (by decide)
  | value _ ih => exact ih (by simp)
  | binary _ _ _ ih => exact startsWith_append (ih (by simp)) _
  | lambda hx => exact hx.startsExpression
  | lambdaList hl => exact hl.startsExpression (by decide)
  | methodReference hc => exact hc.startsExpression
  | noArguments => exact absurd rfl hshape
  | argument _ ih => exact ih (by simp)
  | moreArguments _ _ _ ih => exact startsWith_append (ih (by simp)) _

/-- Each form of expression has the number of arguments that its shape says. -/
theorem Accesses.counted (h : Accesses owner shape ts facts) : Counted shape ts := by
  -- every form is a list of plain tokens and groups, but for the arguments, which are counted
  induction h with
  | literal ht => exact .literal ht
  | constant ht hword => exact .word ht (constant_words _ hword).1 .nil
  | string ht => exact .literal (Token.isLiteral_of_string ht)
  | chain ht hts => exact .identifier ht hts.grouped
  | chainCall ht hts hl _ hr ih =>
    exact .identifier ht (hts.grouped.append (.parens hl ih.1 hr .nil))
  | field hn => exact .identifier hn .nil
  | method hn hl _ hr ih => exact .identifier hn (.parens hl ih.1 hr .nil)
  | received receiver ht hdot _ ih =>
    exact .word ht (by cases receiver <;> decide) (.sign hdot (by decide) ih)
  | selection _ hdot _ ihps ihms => exact ihps.append (.sign hdot (by decide) ihms)
  | element _ hl _ hr ihps ihes => exact ihps.append (.squares hl ihes.bracketed hr .nil)
  | chainElement ht hts hl _ hr ih =>
    exact .identifier ht (hts.grouped.append (.squares hl ih.bracketed hr .nil))
  | creation hnew hc hl _ hr ih =>
    exact .word hnew (by decide) (.identifier hc (.parens hl ih.1 hr .nil))
  | parenthesized hl _ hr ih => exact .parens hl ih.bracketed hr .nil
  | value _ ih => exact ih
  | binary _ hop _ ihds ihes =>
    exact ihds.append (.token hop.isPlain (hop.spells _ (by decide)) (hop.spells _ (by decide))
      ihes)
  | lambda hx harrow _ ih => exact .identifier hx (.sign harrow (by decide) ih)
  | lambdaList hl hps hr harrow _ ih =>
    exact .parens hl hps.bracketed hr (.sign harrow (by decide) ih)
  | methodReference hc hcolons hn =>
    exact .identifier hc (.sign hcolons (by decide) (.identifier hn .nil))
  -- commas of arguments stand outside groups, and those of an argument inside
  | noArguments => exact ⟨.nil, rfl⟩
  | argument hes ih =>
    have hstarts := hes.starts (by simp)
    refine ⟨ih.bracketed, argumentCount_of_grouped ih ?_⟩
    rintro rfl
    simp at hstarts
  | moreArguments _ hcomma _ ihes ihas =>
    have hplain := hcomma.isPlain (by decide) (by decide)
    refine ⟨ihes.bracketed.append (.token hplain ihas.1), ?_⟩
    rw [argumentCount_more ihes hcomma (by rw [ihas.2]; omega), ihas.2]

/-! ## Types -/

/-- The operators that can come between the first name of an expression and its end. -/
def joints : List String := ["(", "[", ".", "::", "->"] ++ binaryOperators

/-- The token is one of the operators and separators. -/
def Token.IsSignOf (t : Token) (signs : List String) : Prop := t.kind = .operator ∧ t.text ∈ signs

/-- The operators and separators that can follow an expression. -/
def expressionFollowers : List String := [")", "]", "\x7d", ",", ";"] ++ binaryOperators

/-- The operators and separators that can follow a value. -/
def valueFollowers : List String := "." :: "[" :: expressionFollowers

/-- What is written after tokens starts with one of the signs. -/
def Follows (signs : List String) (rest : List Token) : Prop :=
  ∃ t us, rest = t :: us ∧ t.IsSignOf signs

/-- A type read off the tokens ends inside them at a joint, or with them. -/
def TypeEnds (whole : Bool) (ts : List Token) : Prop :=
  ∀ rest, (whole → Follows expressionFollowers rest) →
    typeRest? (ts ++ rest) = none ∨
      ∃ u us, typeRest? (ts ++ rest) = some (u :: us) ∧
        (u.IsSignOf joints ∨ whole ∧ rest = u :: us)

/-- Nothing is passed over where no square bracket opens. -/
theorem dimensionsRest_of_not_opener (h : begins "[" rest = false) :
    dimensionsRest rest = rest := by
  unfold dimensionsRest
  split
  · rw [begins_cons] at h
    simp [h]
  · rfl

/-- A square bracket that is not closed at once is no dimension. -/
theorem dimensionsRest_of_not_closer (h : begins "]" rest = false) :
    dimensionsRest (t :: rest) = t :: rest := by
  unfold dimensionsRest
  split
  · next heq =>
    cases heq
    rw [begins_cons] at h
    simp [h]
  · rfl

/-- The segments of a chain are passed over as segments of a type. -/
theorem segmentsRest?_segments {names : List String} (h : Segments ts names) (rest : List Token) :
    segmentsRest? (ts ++ rest) = segmentsRest? rest := by
  induction h with
  | nil => rfl
  | cons hdot ht _ ih =>
    rw [← ih, List.cons_append, List.cons_append]
    exact segmentsRest?_more (optionalTypeArgumentsRest?_of_not_less (by simp [hdot.spells])) hdot
      ht.isName

/-- A type that starts with a chain of names ends with the chain. -/
theorem typeRest?_segments {names : List String} (ht : t.IsIdentifier) (h : Segments ts names)
    (hrest : EndsName rest) : typeRest? (t :: (ts ++ rest)) = some (dimensionsRest rest) := by
  rw [typeRest?_name ht, segmentsRest?_segments h,
    segmentsRest?_done (optionalTypeArgumentsRest?_of_not_less hrest.1) hrest.2, Option.map_some]

/-- What starts with neither a primitive type nor a name is no type. -/
theorem typeRest?_none (hprimitive : t.isPrimitive = false) (hname : t.isName = false)
    (rest : List Token) : typeRest? (t :: rest) = none := by
  rw [typeRest?, hprimitive, if_neg (by simp), hname, if_neg (by simp)]

/-- A list that goes on with some of the signs starts with no other word. -/
theorem Follows.spells {signs : List String} {word : String} (h : Follows signs rest)
    (hword : word ∉ signs) : begins word rest = false := by
  obtain ⟨t, us, rfl, ht⟩ := h
  have hne : t.text ≠ word := fun heq => hword (heq ▸ ht.2)
  simp [Token.spells, hne]

/-- What cannot end a type cannot if more comes behind it. -/
theorem TypeEnds.append (h : TypeEnds false ts) (us : List Token) :
    TypeEnds false (ts ++ us) := by
  intro rest _
  rw [List.append_assoc]
  exact (h (us ++ rest) nofun).imp_right fun ⟨u, us, heq, hu⟩ =>
    ⟨u, us, heq, .inl (hu.resolve_right (by simp))⟩

/-- What cannot end a type in the middle of an expression cannot at the end of one either. -/
theorem TypeEnds.whole (h : TypeEnds false ts) : TypeEnds true ts := by
  intro rest _
  exact (h rest nofun).imp_right fun ⟨u, us, heq, hu⟩ =>
    ⟨u, us, heq, .inl (hu.resolve_right (by simp))⟩

/-- A token that is neither a name nor a primitive type starts no type. -/
theorem TypeEnds.none {whole : Bool} (hprimitive : t.isPrimitive = false)
    (hname : t.isName = false) (ts : List Token) : TypeEnds whole (t :: ts) := fun rest _ =>
  .inl (typeRest?_none hprimitive hname (ts ++ rest))

/-- A keyword that names no primitive type starts no type. -/
theorem TypeEnds.word {whole : Bool} {word : String} (h : t.IsWord word)
    (hkeyword : word ∈ keywords) (hprimitive : word ∉ primitiveTypes) (ts : List Token) :
    TypeEnds whole (t :: ts) :=
  .none (by simp [h.isPrimitive, hprimitive]) (by simp [h.isName, hkeyword]) ts

/-- A chain of names that a joint follows is a type that ends there. -/
theorem TypeEnds.joined {whole : Bool} {names : List String} {j : Token} (ht : t.IsIdentifier)
    (h : Segments ts names) (hj : j.IsSignOf ["(", "[", "::", "->"])
    {us : List Token} (hus : startsWith (!·.spells "]") us) :
    TypeEnds whole (t :: (ts ++ j :: us)) := by
  intro rest _
  have hsub : ∀ sign ∈ ["(", "[", "::", "->"], sign ∈ joints ∧ sign ≠ "<" ∧ sign ≠ "." := by
    decide
  obtain ⟨hjoint, hless, hdot⟩ := hsub _ hj.2
  have hends : EndsName (j :: (us ++ rest)) := by simp [EndsName, Token.spells, hless, hdot]
  have hcloser : begins "]" (us ++ rest) = false := by
    cases us with
    | nil => simp at hus
    | cons u us => simpa using hus
  refine .inr ⟨j, us ++ rest, ?_, .inl ⟨hj.1, hjoint⟩⟩
  rw [List.cons_append, List.append_assoc, List.cons_append, typeRest?_segments ht h hends,
    dimensionsRest_of_not_closer hcloser]

/-- A chain of names is a type as a whole. -/
theorem TypeEnds.chain {names : List String} (ht : t.IsIdentifier) (h : Segments ts names) :
    TypeEnds true (t :: ts) := by
  intro rest hfollows
  have hrest := hfollows rfl
  have hends : EndsName rest := ⟨hrest.spells (by decide), hrest.spells (by decide)⟩
  obtain ⟨u, us, rfl, -⟩ := id hrest
  refine .inr ⟨u, us, ?_, .inr ⟨rfl, rfl⟩⟩
  rw [List.cons_append, typeRest?_segments ht h hends,
    dimensionsRest_of_not_opener (hrest.spells (by decide))]

/-- An operand that ends no type ends none before an operator. -/
theorem TypeEnds.binary {op : Token} (h : TypeEnds true ts) (hop : op.IsBinary) (us : List Token) :
    TypeEnds true (ts ++ op :: us) := by
  intro rest _
  have hfollows : Follows expressionFollowers (op :: (us ++ rest)) :=
    ⟨op, _, rfl, hop.1, List.mem_append_right _ hop.2⟩
  rw [List.append_assoc]
  refine (h _ fun _ => hfollows).imp_right fun ⟨u, vs, heq, hu⟩ => ⟨u, vs, heq, .inl ?_⟩
  rcases hu with hu | ⟨-, heq⟩
  · exact hu
  · cases heq
    exact ⟨hop.1, List.mem_append_right _ hop.2⟩

/-- Where a type that is read off a phrase ends. -/
def TypeEndsIn : Shape → List Token → Prop
  | .expression, ts => TypeEnds true ts
  | .value, ts => TypeEnds false ts
  | _, _ => True

/-- A sign of a list of signs. -/
theorem Token.IsSign.isSignOf {sign : String} {signs : List String} (h : t.IsSign sign)
    (hs : sign ∈ signs) : t.IsSignOf signs := ⟨h.1, h.2 ▸ hs⟩

/-- One of several signs is the sign that it spells. -/
theorem Token.IsSignOf.isSign {signs : List String} (h : t.IsSignOf signs) : t.IsSign t.text :=
  ⟨h.1, rfl⟩

/-- A sign of fewer signs is one of more signs. -/
theorem Token.IsSignOf.mono {signs words : List String} (h : t.IsSignOf signs)
    (hsub : signs ⊆ words) : t.IsSignOf words := ⟨h.1, hsub h.2⟩

/-- What closes a bracket is one of the closing signs. -/
theorem Token.IsSignOf.of_isCloser (h : t.isCloser) : t.IsSignOf closers := by
  rw [Token.isCloser, Bool.and_eq_true, List.contains_iff_mem] at h
  exact ⟨by simpa [Token.isOperator] using h.1, h.2⟩

/-- What goes on with fewer signs goes on with more. -/
theorem Follows.mono {signs words : List String} (h : Follows signs rest) (hsub : signs ⊆ words) :
    Follows words rest := by
  obtain ⟨t, us, rfl, ht⟩ := h
  exact ⟨t, us, rfl, ht.mono hsub⟩

/-- A weaker test finds what a stronger one finds. -/
theorem startsWith_imp {p q : Token → Bool} (hpq : ∀ t, p t → q t) (h : startsWith p ts) :
    startsWith q ts := by
  cases ts with
  | nil => simp at h
  | cons t ts => exact hpq t h

/-- What starts an expression does not close a pair of square brackets. -/
theorem Token.not_closes_of_startsExpression (t : Token) (h : t.startsExpression) :
    !t.spells "]" := by
  rw [Token.startsExpression, Bool.and_eq_true] at h
  exact h.1

/-- An expression does not start by closing a pair of square brackets. -/
theorem Accesses.not_closer (h : Accesses owner shape ts facts) (hshape : shape ≠ .arguments 0) :
    startsWith (!·.spells "]") ts :=
  startsWith_imp Token.not_closes_of_startsExpression (h.starts hshape)

/-- Arguments, which may be none, do not start by closing a pair of square brackets. -/
theorem Accesses.arguments_not_closer {arity : Nat} {r : Token}
    (h : Accesses owner (.arguments arity) ts facts) (hr : r.IsSign ")") :
    startsWith (!·.spells "]") (ts ++ [r]) := by
  cases arity with
  | zero =>
    cases h
    simp [hr.spells]
  | succ n => exact startsWith_append (h.not_closer (by simp)) _

/-- A literal is no primitive type. -/
theorem Token.isPrimitive_of_isLiteral (h : t.isLiteral) : t.isPrimitive = false := by
  simp [Token.isPrimitive, Token.isIdentifier_of_isLiteral h]

/-- A type that is read off an expression ends at a joint inside it or with it. -/
theorem Accesses.typeEndsIn (h : Accesses owner shape ts facts) : TypeEndsIn shape ts := by
  -- only names and primitive types are read as the start of a type
  induction h with
  | literal ht => exact .none (Token.isPrimitive_of_isLiteral ht) (Token.isName_of_isLiteral ht) _
  | constant ht hword =>
    exact .word ht (constant_words _ hword).2.2 (constant_words _ hword).2.1.2 _
  | string ht =>
    have hlit := Token.isLiteral_of_string ht
    exact .none (Token.isPrimitive_of_isLiteral hlit) (Token.isName_of_isLiteral hlit) _
  | chain ht hts => exact .chain ht hts
  | chainCall ht hts hl has hr =>
    exact .joined ht hts (hl.isSignOf (by decide)) (has.arguments_not_closer hr)
  | field => trivial
  | method => trivial
  | received receiver ht =>
    exact .word ht (by cases receiver <;> decide) (by cases receiver <;> decide) _
  | selection _ _ _ ih => exact ih.append _
  | element _ _ _ _ ih => exact ih.append _
  | chainElement ht hts hl hes =>
    exact .joined ht hts (hl.isSignOf (by decide)) (startsWith_append (hes.not_closer (by simp)) _)
  | creation hnew => exact .word hnew (by decide) (by decide) _
  | parenthesized hl => exact .none hl.isPrimitive hl.isName _
  | value _ ih => exact ih.whole
  | binary _ hop _ ih => exact ih.binary hop _
  | lambda hx harrow hes =>
    exact .joined hx .nil (harrow.isSignOf (by decide))
      (hes.not_closer (by simp))
  | lambdaList hl => exact .none hl.isPrimitive hl.isName _
  | methodReference hc hcolons hn =>
    exact .joined hc .nil (hcolons.isSignOf (by decide)) (by simp [hn.spells_signs])
  | noArguments => trivial
  | argument => trivial
  | moreArguments => trivial

end Assay.Source
